import SqlTree.Feed
import SqlTree.Location
import SqlTree.TimeSpan

/-!
# Windows

How a stream is cut into pieces by time, and how far apart in time two joined records may be.
-/

namespace SqlTree

def TimeSpan.feed (s : TimeSpan) : Feed := [.number s.size.toNat, .number s.unit.ctorIdx]

/-- The ways to cut a stream. -/
inductive WindowKind where
  /-- Pieces of equal length, one after the other. -/
  | tumbling (size : TimeSpan)
  /-- Pieces of equal length that start at regular times and may overlap. -/
  | hopping (size advance : TimeSpan)
  /-- Pieces that end when nothing happens for a time. -/
  | session (gap : TimeSpan)
deriving DecidableEq, Repr, Inhabited

namespace WindowKind

def text : WindowKind → String
  | tumbling size => "TUMBLING (SIZE " ++ size.text ++ ")"
  | hopping size advance => "HOPPING (SIZE " ++ size.text ++ ", ADVANCE BY " ++ advance.text ++ ")"
  | session gap => "SESSION (" ++ gap.text ++ ")"

def feed : WindowKind → Feed
  | tumbling size => .number 0 :: size.feed
  | hopping size advance => .number 1 :: (size.feed ++ advance.feed)
  | session gap => .number 2 :: gap.feed

end WindowKind

/-- A way to cut a stream, as written at some place. -/
structure KsqlWindow where
  location : Location
  kind : WindowKind
deriving Inhabited

namespace KsqlWindow

def text (w : KsqlWindow) : String := w.kind.text

def same (a b : KsqlWindow) : Bool := a.kind == b.kind

instance : BEq KsqlWindow := ⟨same⟩

def feed (w : KsqlWindow) : Feed := w.kind.feed

end KsqlWindow

/-- A window clause, perhaps named. -/
structure Window where
  location : Location
  name? : Option String
  window : KsqlWindow
deriving Inhabited

namespace Window

def text (w : Window) : String :=
  match w.name? with
  | some name => "WINDOW " ++ name ++ " " ++ w.window.text
  | none => "WINDOW " ++ w.window.text

def same (a b : Window) : Bool := a.name? == b.name? && a.window == b.window

instance : BEq Window := ⟨same⟩

def feed (w : Window) : Feed := Feed.ofOption (fun name => [.text name]) w.name? ++ w.window.feed

end Window

/-- How long before and after a record its partner in a join may come. -/
structure Within where
  location : Location
  before : TimeSpan
  after : TimeSpan
deriving Inhabited

namespace Within

/-- The same time before and after. -/
def symmetric (span : TimeSpan) : Within := ⟨.unknown, span, span⟩

def text (w : Within) : String :=
  if w.before = w.after then "WITHIN " ++ w.before.text
  else "WITHIN (" ++ w.before.text ++ ", " ++ w.after.text ++ ")"

def same (a b : Within) : Bool := a.before == b.before && a.after == b.after

instance : BEq Within := ⟨same⟩

def feed (w : Within) : Feed := w.before.feed ++ w.after.feed

end Within

end SqlTree
