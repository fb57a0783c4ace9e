import SqlTree.Proofs.Rewrite.Run
import SqlTree.Rewrite.Rules

/-!
# Corresponding rewrites by rules

Sessions of one kind may stand for sessions of another. If what is done to the ones corresponds to
what is done to the others, a rewrite by rules gives the same from both and leaves sessions behind
that correspond again. The depth may then be one part of the data among others.
-/

namespace SqlTree

open Rewrite

/-! ## Corresponding computations -/

namespace Rewrite

variable {σ τ α β : Type} {g : Session σ → Session τ}

/-- From sessions that correspond by `g` the two computations give the same, and they leave sessions
that correspond by `g`. -/
def Follows (g : Session σ → Session τ) (x : Rewrite σ α) (y : Rewrite τ α) : Prop :=
  ∀ s, y.runFrom (g s) = ((x.runFrom s).1, g (x.runFrom s).2)

namespace Follows

theorem pure (a : α) : Follows g (Pure.pure a) (Pure.pure a) := fun _ => rfl

theorem throw (e : RewriteError) : Follows g (throw e : Rewrite σ α) (throw e) := fun _ => rfl

theorem ofExcept (r : Except RewriteError α) :
    Follows g (MonadExcept.ofExcept r) (MonadExcept.ofExcept r) := by
  intro s
  rw [runFrom_ofExcept, runFrom_ofExcept]

theorem bind {x : Rewrite σ α} {y : Rewrite τ α} {f : α → Rewrite σ β} {f' : α → Rewrite τ β}
    (first : Follows g x y) (rest : ∀ a, Follows g (f a) (f' a)) :
    Follows g (x >>= f) (y >>= f') := by
  intro s
  rw [runFrom_bind, runFrom_bind, first s]
  rcases x.runFrom s with ⟨e | a, s'⟩
  · rfl
  · exact rest a s'

theorem outcome {x : Rewrite σ α} {y : Rewrite τ α} (h : Follows g x y) :
    Follows g x.outcome y.outcome := by
  intro s
  rw [runFrom_outcome, runFrom_outcome, h s]

theorem mapM {f : α → Rewrite σ β} {f' : α → Rewrite τ β} {as : List α}
    (h : ∀ a ∈ as, Follows g (f a) (f' a)) : Follows g (as.mapM f) (as.mapM f') := by
  induction as with
  | nil => exact pure []
  | cons a as ih =>
    obtain ⟨first, rest⟩ := List.forall_mem_cons.mp h
    rw [List.mapM_cons, List.mapM_cons]
    exact first.bind fun b => (ih rest).bind fun bs => pure (b :: bs)

end Follows

end Rewrite

/-! ## Rewriting by rules with other data -/

/-- A number that is kept in the data. -/
structure Counter (σ : Type) where
  get : σ → Nat
  set : Nat → σ → σ

namespace Counter

variable {σ τ : Type}

def read (count : Counter σ) : Rewrite σ Nat := return count.get (← Rewrite.data)

def write (count : Counter σ) (k : Nat) : Rewrite σ Unit := do
  Rewrite.setData (count.set k (← Rewrite.data))

/-- The data are the number. -/
def plain : Counter Nat := ⟨id, fun k _ => k⟩

/-- What is done to a session corresponds to what is done to the session that `g` makes of it. -/
structure Maps (count : Counter σ) (count' : Counter τ) (g : Session σ → Session τ) : Prop where
  note : ∀ s e, { g s with journal := (g s).journal.push e } =
    g { s with journal := s.journal.push e }
  get : ∀ s, count'.get (g s).data = count.get s.data
  set : ∀ s k, { g s with data := count'.set k (g s).data } =
    g { s with data := count.set k s.data }

end Counter

namespace Rules

variable {γ σ τ : Type} {t : Rules γ} {context : γ} {limit : Nat}

/-- What the exit rule of a kind, if there is one, makes of a rebuilt node. -/
def finish (t : Rules γ) (context : γ) (kind : Kind) (rebuilt : Node) : Rewrite σ Node :=
  match t.exit kind with
  | none => return rebuilt
  | some rule => do
    Rewrite.note (.asked .exit rebuilt)
    let result ← ofExcept (rule rebuilt context)
    Rewrite.note (.answered .exit kind result.kind)
    return result

/-- The treatment of a node that is not replaced, where the depth is kept by `count`. -/
def below (t : Rules γ) (count : Counter σ) (limit : Nat) (context : γ) (n : Node)
    (descend : Rewrite σ Node) : Rewrite σ Node := do
  let depth ← count.read
  if limit ≤ depth then
    Rewrite.note (.limitReached limit n.kind)
    throw (.depthLimitExceeded limit)
  count.write (depth + 1)
  let outcome ← Rewrite.outcome descend
  count.write ((← count.read) - 1)
  t.finish context n.kind (← ofExcept outcome)

/-- The rewriter by rules, where the depth is kept by `count`. -/
def rewriterOn (t : Rules γ) (count : Counter σ) (limit : Nat) (context : γ) : Rewriter σ where
  around n descend := do
    if let some rule := t.enter n.kind then
      Rewrite.note (.asked .enter n)
      if let some replacement := rule n context then
        Rewrite.note (.answered .enter n.kind replacement.kind)
        return replacement
    t.below count limit context n descend

theorem rewriter_eq (t : Rules γ) (limit : Nat) (context : γ) :
    t.rewriter limit context = t.rewriterOn .plain limit context := rfl

section Maps

variable {count : Counter σ} {count' : Counter τ} {g : Session σ → Session τ}

theorem follows_note (h : count.Maps count' g) (e : Event) :
    Follows g (note e) (note e) := by
  intro s
  rw [runFrom_note, runFrom_note, h.note]

theorem follows_read (h : count.Maps count' g) : Follows g count.read count'.read := by
  intro s
  show (Except.ok (count'.get (g s).data), g s) = _
  rw [h.get]
  rfl

theorem follows_write (h : count.Maps count' g) (k : Nat) :
    Follows g (count.write k) (count'.write k) := by
  intro s
  show (Except.ok (), { g s with data := count'.set k (g s).data }) = _
  rw [h.set]
  rfl

theorem follows_finish (h : count.Maps count' g) (kind : Kind) (rebuilt : Node) :
    Follows g (t.finish context kind rebuilt) (t.finish context kind rebuilt) := by
  unfold finish
  split
  · exact .pure rebuilt
  · exact (follows_note h _).bind fun _ => (Follows.ofExcept _).bind fun result =>
      (follows_note h _).bind fun _ => .pure result

theorem follows_below (h : count.Maps count' g) {x : Rewrite σ Node} {y : Rewrite τ Node}
    (inside : Follows g x y) (n : Node) :
    Follows g (t.below count limit context n x) (t.below count' limit context n y) := by
  refine (follows_read h).bind fun depth => ?_
  by_cases deep : limit ≤ depth
  · simp only [deep]
    exact (follows_note h _).bind fun _ => .throw _
  · simp only [deep]
    exact (follows_write h _).bind fun _ => inside.outcome.bind fun outcome =>
      (follows_read h).bind fun after => (follows_write h _).bind fun _ =>
        (Follows.ofExcept outcome).bind fun rebuilt => follows_finish h n.kind rebuilt

theorem follows_process (h : count.Maps count' g) (n : Node) :
    Follows g ((t.rewriterOn count limit context).process n)
      ((t.rewriterOn count' limit context).process n) := by
  induction n using Node.childInduction with
  | step n ih =>
    have inside : Follows g ((t.rewriterOn count limit context).descend n)
        ((t.rewriterOn count' limit context).descend n) :=
      (Follows.mapM fun c hc => (ih c hc).bind fun _ => .ofExcept _).bind fun _ => .ofExcept _
    have unreplaced : Follows g
        (t.below count limit context n ((t.rewriterOn count limit context).descend n))
        (t.below count' limit context n ((t.rewriterOn count' limit context).descend n)) :=
      follows_below h inside n
    rw [Rewriter.process_eq, Rewriter.process_eq]
    simp only [rewriterOn]
    cases t.enter n.kind with
    | none => exact unreplaced
    | some rule =>
      refine (follows_note h _).bind fun _ => ?_
      cases rule n context with
      | none => exact unreplaced
      | some m => exact (follows_note h _).bind fun _ => .pure m

end Maps

end Rules

end SqlTree
