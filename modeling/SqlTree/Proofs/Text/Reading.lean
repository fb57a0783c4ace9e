import Mathlib.Data.List.Infix
import SqlTree.Text.Delimited

/-!
# Reading texts back

A reading takes a value from the front of a text. That it takes a value from a certain text,
whatever follows, is put together from the parts of the text. Two values that are taken from one
text by one reading are the same, so a text that can be read back is the text of one value only.

A reading knows by what follows where it has to stop. The marks of a reading are the characters that
may stand after its text.
-/

namespace SqlTree.Text

/-- Takes a value from the front of a text, or fails. -/
abbrev Reading := StateT (List Char) Option

namespace Reading

variable {α : Type}

/-- Takes the word of the table that the text starts with, and reads on as the table says. A text
that starts with none of them is read in the other way. -/
def choose : List (String × Reading α) → Reading α → Reading α
  | [], other => other
  | (w, x) :: table, other => fun cs =>
    if w.toList <+: cs then x (cs.drop w.toList.length) else choose table other cs

/-- Takes one word. -/
def word (w : String) : Reading Unit := choose [(w, pure ())] failure

/-- Takes characters up to the first one that does not pass. -/
def span (p : Char → Bool) : Reading String := fun cs =>
  some (String.ofList (cs.takeWhile p), cs.dropWhile p)

/-- What stands before a single mark, with two marks for each one inside, and what follows. -/
def splitAtMark (mark : Char) : List Char → Option (List Char × List Char)
  | [] => none
  | [c] => if c = mark then some ([], []) else none
  | c :: d :: cs =>
    if c ≠ mark then (splitAtMark mark (d :: cs)).map fun (inside, rest) => (c :: inside, rest)
    else if d ≠ mark then some ([], d :: cs)
    else (splitAtMark mark cs).map fun (inside, rest) => (mark :: inside, rest)

/-- Takes a text up to the mark that closes it. -/
def closedBy (mark : Char) : Reading String := fun cs =>
  (splitAtMark mark cs).map fun (inside, rest) => (String.ofList inside, rest)

/-- Takes what is between marks, or else characters that pass. -/
def closedOr (mark : Char) (p : Char → Bool) : Reading (String ⊕ String) :=
  choose [(String.singleton mark, Sum.inl <$> closedBy mark)] (Sum.inr <$> span p)

/-- Takes at least one value, and commas between them, up to the word that closes them. -/
def items (x : Reading α) (close : String) : Nat → Reading (List α)
  | 0 => failure
  | fuel + 1 => do
    let a ← x
    choose [(close, pure [a]), (", ", (a :: ·) <$> items x close fuel)] failure

/-- Takes values up to the word that closes them. -/
def listed (x : Reading α) (close : String) (fuel : Nat) : Reading (List α) :=
  choose [(close, pure [])] (items x close fuel)

end Reading

/-- The text is over or goes on with one of the marks. -/
def Marked (marks rest : List Char) : Prop := ∀ c ∈ rest.head?, c ∈ marks

/-- Whatever marked text follows, the reading takes the value from the text and leaves the rest. -/
def Reads {α : Type} (x : Reading α) (marks : List Char) (s : String) (a : α) : Prop :=
  ∀ rest, Marked marks rest → x.run (s.toList ++ rest) = some (a, rest)

/-- The text starts with one of the marks. -/
def StartsIn (marks : List Char) (t : String) : Prop := ∃ c ∈ marks, t.toList.head? = some c

instance (marks : List Char) (t : String) : Decidable (StartsIn marks t) :=
  List.decidableBEx _ _

/-- Neither word starts with the other. -/
def Apart (v w : String) : Prop := ¬ v.toList <+: w.toList ∧ ¬ w.toList <+: v.toList

instance (v w : String) : Decidable (Apart v w) := inferInstanceAs (Decidable (_ ∧ _))

/-- Whatever marked text follows, the text does not start with the word. -/
def Avoids (marks : List Char) (s w : String) : Prop :=
  ∀ rest, Marked marks rest → ¬ w.toList <+: s.toList ++ rest

variable {α β : Type} {x : Reading α} {f : α → Reading β} {marks marks' : List Char}
  {s t v w : String} {a : α} {b : β}

theorem StartsIn.append (h : StartsIn marks s) (t : String) : StartsIn marks (s ++ t) := by
  obtain ⟨c, hc, head⟩ := h
  exact ⟨c, hc, by rw [String.toList_append, List.head?_append, head, Option.some_or]⟩

theorem StartsIn.marked (h : StartsIn marks t) (rest : List Char) :
    Marked marks (t.toList ++ rest) := by
  obtain ⟨c, hc, head⟩ := h
  intro d hd
  rw [List.head?_append, head, Option.some_or, Option.mem_some_iff] at hd
  exact hd ▸ hc

namespace Reads

theorem unique (ha : Reads x marks s a) {a' : α} (ha' : Reads x marks s a') : a = a' := by
  have marked : Marked marks [] := nofun
  exact congrArg Prod.fst (Option.some.inj ((ha [] marked).symm.trans (ha' [] marked)))

theorem mono (h : Reads x marks s a) (sub : marks' ⊆ marks) : Reads x marks' s a :=
  fun rest hr => h rest fun c hc => sub (hr c hc)

theorem pure (a : α) : Reads (pure a) marks "" a := fun _ _ => rfl

/-- A text in two parts. Where the second one starts, the first one is over. -/
theorem bind (hx : Reads x marks s a) (hf : Reads (f a) marks' t b) (ht : StartsIn marks t) :
    Reads (x >>= f) marks' (s ++ t) b := by
  intro rest hr
  rw [String.toList_append, List.append_assoc, StateT.run_bind, hx _ (ht.marked rest)]
  exact hf rest hr

/-- A reading that is over without taking more. -/
theorem bind_nothing (hx : Reads x marks s a) (hf : Reads (f a) marks' "" b)
    (sub : marks' ⊆ marks) : Reads (x >>= f) marks' s b := by
  intro rest hr
  rw [StateT.run_bind, hx.mono sub rest hr]
  exact hf rest hr

theorem map (g : α → β) (h : Reads x marks s a) : Reads (g <$> x) marks s (g a) := by
  intro rest hr
  rw [StateT.run_map, h rest hr]
  rfl

end Reads

/-! ## Words -/

theorem Apart.not_starts (h : Apart v w) (cs : List Char) : ¬ v.toList <+: w.toList ++ cs := by
  intro starts
  rcases List.prefix_or_prefix_of_prefix starts (List.prefix_append w.toList cs) with hv | hw
  · exact h.1 hv
  · exact h.2 hw

theorem Apart.avoids (h : Apart w v) (s : String) : Avoids marks (v ++ s) w := by
  intro rest _
  rw [String.toList_append, List.append_assoc]
  exact h.not_starts _

theorem Avoids.append (h : Avoids marks s w) (ht : StartsIn marks t) :
    Avoids marks' (s ++ t) w := by
  intro rest _
  rw [String.toList_append, List.append_assoc]
  exact h _ (ht.marked rest)

theorem Avoids.prepend (h : Avoids marks s w) (v : String) : Avoids marks (v ++ s) (v ++ w) := by
  intro rest hr
  rw [String.toList_append, String.toList_append, List.append_assoc,
    List.prefix_append_right_inj]
  exact h rest hr

theorem not_starts_of_head {c : Char} (hw : w.toList.head? = some c) {cs : List Char}
    (hc : cs.head? ≠ some c) : ¬ w.toList <+: cs := by
  rintro ⟨others, rfl⟩
  rw [List.head?_append, hw, Option.some_or] at hc
  exact hc rfl

/-- Neither in the text nor among the marks is the character that the word starts with. -/
theorem Avoids.of_not_mem {c : Char} (hw : w.toList.head? = some c) (hs : c ∉ s.toList)
    (hm : c ∉ marks) : Avoids marks s w := by
  intro rest hr
  refine not_starts_of_head hw fun head => ?_
  rw [List.head?_append, Option.or_eq_some_iff] at head
  rcases head with inside | ⟨-, behind⟩
  · exact hs (List.mem_of_head? inside)
  · exact hm (hr c behind)

namespace Reading

variable {table : List (String × Reading α)} {other : Reading α}

theorem run_choose (free : (table.map Prod.fst).Pairwise Apart) (mem : (w, x) ∈ table)
    (cs : List Char) : (choose table other).run (w.toList ++ cs) = x.run cs := by
  induction table with
  | nil => contradiction
  | cons entry table ih =>
    obtain ⟨v, y⟩ := entry
    obtain ⟨apart, free⟩ := List.pairwise_cons.mp free
    rw [choose, StateT.run]
    rcases List.mem_cons.mp mem with same | mem
    · obtain ⟨rfl, rfl⟩ := Prod.mk.inj same
      rw [if_pos (List.prefix_append _ _), List.drop_left]
      rfl
    · rw [if_neg ((apart w (List.mem_map_of_mem mem)).not_starts cs)]
      exact ih free mem

theorem run_choose_other {cs : List Char} (h : ∀ w ∈ table.map Prod.fst, ¬ w.toList <+: cs) :
    (choose table other).run cs = other.run cs := by
  induction table with
  | nil => rfl
  | cons entry table ih =>
    obtain ⟨v, y⟩ := entry
    obtain ⟨hv, h⟩ := List.forall_mem_cons.mp h
    rw [choose, StateT.run, if_neg hv]
    exact ih h

end Reading

namespace Reads

open Reading

variable {table : List (String × Reading α)} {other : Reading α} {words : List String}

/-- A text that starts with a word of the table. -/
theorem choose (mem : (w, x) ∈ table) (h : Reads x marks s a) (keys : table.map Prod.fst = words)
    (free : words.Pairwise Apart) : Reads (Reading.choose table other) marks (w ++ s) a := by
  intro rest hr
  rw [String.toList_append, List.append_assoc, run_choose (keys ▸ free) mem]
  exact h rest hr

/-- A text that is a word of the table. -/
theorem choose_pure (mem : (w, Pure.pure a) ∈ table) (keys : table.map Prod.fst = words)
    (free : words.Pairwise Apart) : Reads (Reading.choose table other) marks w a := by
  have read : Reads (Reading.choose table other) marks (w ++ "") a := choose mem (pure a) keys free
  rwa [String.append_empty] at read

/-- A text that starts with no word of the table. -/
theorem otherwise (h : Reads other marks s a) (keys : table.map Prod.fst = words)
    (avoids : ∀ w ∈ words, Avoids marks s w) : Reads (Reading.choose table other) marks s a := by
  intro rest hr
  rw [run_choose_other fun w hw => avoids w (keys ▸ hw) rest hr]
  exact h rest hr

theorem word_bind {f : Unit → Reading β} (h : Reads (f ()) marks t b) :
    Reads (Reading.word w >>= f) marks (w ++ t) b := by
  intro rest hr
  have taken : (Reading.choose [(w, Pure.pure ())] failure).run (w.toList ++ (t.toList ++ rest)) =
      some ((), t.toList ++ rest) :=
    Reading.run_choose (List.pairwise_singleton ..) (List.mem_singleton_self _) _
  rw [String.toList_append, List.append_assoc, StateT.run_bind, Reading.word, taken]
  exact h rest hr

/-- A text and the word that closes it. -/
theorem before (hx : Reads x marks s a) (hw : StartsIn marks w) (g : α → β) :
    Reads (do let a ← x; Reading.word w; return g a) marks' (s ++ w) (g a) := by
  have closed : Reads (do Reading.word w; return g a) marks' (w ++ "") (g a) := word_bind (pure _)
  rw [String.append_empty] at closed
  exact hx.bind closed hw

end Reads

/-! ## Characters of one kind -/

theorem Marked.takeWhile_eq_nil {p : Char → Bool} {rest : List Char} (hr : Marked marks rest)
    (hm : marks.any p = false) : rest.takeWhile p = [] := by
  cases rest with
  | nil => rfl
  | cons c cs => exact List.takeWhile_cons_of_neg (List.any_eq_false.mp hm c (hr c rfl))

theorem Reads.span {p : Char → Bool} (hs : ∀ c ∈ s.toList, p c = true)
    (hm : marks.any p = false) : Reads (Reading.span p) marks s s := by
  intro rest hr
  have none := hr.takeWhile_eq_nil hm
  have all : (s.toList ++ rest).takeWhile p = s.toList ++ rest.takeWhile p :=
    List.takeWhile_append_of_pos hs
  have left := List.takeWhile_append_dropWhile (p := p) (l := s.toList ++ rest)
  rw [none, List.append_nil] at all
  rw [all] at left
  show some (String.ofList _, _) = _
  rw [all, List.append_cancel_left left, String.ofList_toList]

/-! ## Closed texts -/

/-- The end of a text between marks, after the mark that opens it. -/
def closing (mark : Char) (s : String) : String := String.ofList (doubled mark s.toList ++ [mark])

theorem delimited_eq (mark : Char) (s : String) :
    delimited mark s = String.singleton mark ++ closing mark s := by
  apply String.toList_inj.mp
  simp [delimited, closing]

theorem splitAtMark_cons_of_ne {mark c : Char} (h : c ≠ mark) (cs : List Char) :
    Reading.splitAtMark mark (c :: cs) =
      (Reading.splitAtMark mark cs).map fun (inside, rest) => (c :: inside, rest) := by
  cases cs with
  | nil => simp [Reading.splitAtMark, h]
  | cons d cs => rw [Reading.splitAtMark, if_pos h]

theorem splitAtMark_doubled {mark : Char} {rest : List Char} (hr : mark ∉ rest.head?)
    (cs : List Char) :
    Reading.splitAtMark mark (doubled mark cs ++ mark :: rest) = some (cs, rest) := by
  induction cs with
  | nil =>
    cases rest with
    | nil => simp [Reading.splitAtMark, doubled]
    | cons d ds =>
      have other : d ≠ mark := fun h => hr (congrArg some h)
      simp [Reading.splitAtMark, doubled, other]
  | cons c cs ih =>
    by_cases h : c = mark
    · subst h
      have twice : doubled c (c :: cs) = c :: c :: doubled c cs := by simp [doubled]
      simp [twice, Reading.splitAtMark, ih]
    · have once : doubled mark (c :: cs) = c :: doubled mark cs := by simp [doubled, h]
      rw [once, List.cons_append, splitAtMark_cons_of_ne h, ih]
      rfl

theorem Reads.closedBy {mark : Char} (hm : mark ∉ marks) (s : String) :
    Reads (Reading.closedBy mark) marks (closing mark s) s := by
  intro rest hr
  have split := splitAtMark_doubled (fun h => hm (hr mark h)) s.toList
  rw [closing, String.toList_ofList, List.append_assoc]
  show (Reading.splitAtMark mark _).map _ = _
  rw [List.singleton_append, split]
  simp

theorem Reads.closed {mark : Char} {p : Char → Bool} (hm : mark ∉ marks) (s : String) :
    Reads (Reading.closedOr mark p) marks (delimited mark s) (.inl s) := by
  rw [delimited_eq]
  exact .choose List.mem_cons_self ((closedBy hm s).map Sum.inl) rfl (List.pairwise_singleton ..)

theorem Reads.bare {mark : Char} {p : Char → Bool} (hs : ∀ c ∈ s.toList, p c = true)
    (hm : marks.any p = false) (none : mark ∉ s.toList) (after : mark ∉ marks) :
    Reads (Reading.closedOr mark p) marks s (.inr s) := by
  have avoids : Avoids marks s (String.singleton mark) := .of_not_mem (by simp) none after
  exact .otherwise ((span hs hm).map Sum.inr) rfl (List.forall_mem_singleton.mpr avoids)

/-! ## Lists -/

theorem length_le_sizeOf [SizeOf α] (as : List α) : as.length ≤ sizeOf as := by
  induction as with
  | nil => exact Nat.zero_le _
  | cons a as ih =>
    rw [List.length_cons, List.cons.sizeOf_spec]
    omega

/-- The word may close a list of texts that are over at the marks. -/
structure Closes (marks : List Char) (close : String) : Prop where
  comma : ',' ∈ marks
  startsIn : StartsIn marks close
  apart : Apart close ", "

namespace Closes

variable {close : String} {x : Reading β} {text : α → String} {g : α → β} {as : List α} {fuel : ℕ}

theorem startsIn_comma (h : Closes marks close) (t : String) : StartsIn marks (", " ++ t) :=
  StartsIn.append ⟨',', h.comma, by decide⟩ t

/-- Each value is over at a comma or at the word that closes the list. -/
theorem reads_items (h : Closes marks close) (hx : ∀ a ∈ as, Reads x marks (text a) (g a))
    (ne : as ≠ []) (enough : as.length ≤ fuel) :
    Reads (Reading.items x close fuel) marks' (", ".intercalate (as.map text) ++ close)
      (as.map g) := by
  induction as generalizing fuel with
  | nil => contradiction
  | cons a as ih =>
    obtain ⟨fuel, rfl⟩ := Nat.exists_eq_succ_of_ne_zero (Nat.ne_zero_of_lt enough)
    have free : [close, ", "].Pairwise Apart := List.pairwise_pair.mpr h.apart
    have first := hx a List.mem_cons_self
    rw [Reading.items, List.map_cons, List.map_cons]
    cases as with
    | nil =>
      rw [List.map_nil, String.intercalate_singleton]
      exact first.bind (Reads.choose_pure List.mem_cons_self rfl free) h.startsIn
    | cons b as =>
      have rest := ih (fun a ha => hx a (List.mem_cons_of_mem _ ha)) nofun
        (Nat.le_of_succ_le_succ enough)
      rw [List.map_cons, String.intercalate_cons_cons, String.append_assoc, String.append_assoc]
      refine first.bind (Reads.choose ?_ (rest.map (g a :: ·)) rfl free) (h.startsIn_comma _)
      exact List.mem_cons_of_mem _ List.mem_cons_self

/-- No text in the list starts with the word that closes the list. -/
theorem reads_listed (h : Closes marks close) (hx : ∀ a ∈ as, Reads x marks (text a) (g a))
    (avoids : ∀ a ∈ as, Avoids marks (text a) close) (enough : as.length ≤ fuel) :
    Reads (Reading.listed x close fuel) marks' (", ".intercalate (as.map text) ++ close)
      (as.map g) := by
  cases as with
  | nil =>
    rw [List.map_nil, String.intercalate_nil, String.empty_append]
    exact Reads.choose_pure List.mem_cons_self rfl (List.pairwise_singleton ..)
  | cons a as =>
    refine Reads.otherwise (h.reads_items hx nofun enough) rfl ?_
    intro w hw
    obtain rfl := List.mem_singleton.mp hw
    have first := avoids a List.mem_cons_self
    rw [List.map_cons]
    cases as with
    | nil => exact first.append h.startsIn
    | cons b as =>
      rw [List.map_cons, String.intercalate_cons_cons, String.append_assoc, String.append_assoc]
      exact first.append (h.startsIn_comma _)

end Closes

end SqlTree.Text
