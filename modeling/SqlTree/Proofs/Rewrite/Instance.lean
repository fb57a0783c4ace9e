import SqlTree.Proofs.Rewrite.Correspondence
import SqlTree.Proofs.Rewrite.Outcome

/-!
# One rewriter for many rewrites

A rewrite by rules restores the depth, however it ends. A run that also keeps the past depths shows
that none of them was beyond the limit and that each was one more or one less than the one before
it. So nothing goes from one rewrite into the next: what a rewriter does with each of many roots is
what a new one does with it.
-/

namespace SqlTree

open Rewrite

/-! ## The depths of a run -/

/-- The depth, and the depths before it, the latest first. -/
structure Watch where
  depth : Nat
  past : List Nat

namespace Watch

/-- All depths so far, the latest first. -/
def depths (w : Watch) : List Nat := w.depth :: w.past

/-- No depth is beyond the limit, and each is one more or one less than the one before it. -/
structure Steady (limit : Nat) (w : Watch) : Prop where
  le : ∀ d ∈ w.depths, d ≤ limit
  steps : List.IsChain (fun later earlier => later = earlier + 1 ∨ earlier = later + 1) w.depths

/-- Keeps the past depths. -/
def counter : Counter Watch := ⟨depth, fun k w => ⟨k, w.depths⟩⟩

/-- The depth is as before, and if the depths were steady, they still are. -/
structure Restored (limit : Nat) (w w' : Watch) : Prop where
  depth : w'.depth = w.depth
  steady : w.Steady limit → w'.Steady limit

variable {limit : Nat}

theorem Restored.refl (w : Watch) : Restored limit w w := ⟨rfl, id⟩

theorem Restored.trans {w w' w'' : Watch} (h : Restored limit w w') (h' : Restored limit w' w'') :
    Restored limit w w'' :=
  ⟨h'.depth.trans h.depth, fun steady => h'.steady (h.steady steady)⟩

theorem Steady.step {w : Watch} (h : w.Steady limit) {k : Nat} (hk : k ≤ limit)
    (near : k = w.depth + 1 ∨ w.depth = k + 1) : Steady limit ⟨k, w.depths⟩ := by
  constructor
  · exact List.forall_mem_cons.mpr ⟨hk, h.le⟩
  · exact List.isChain_cons_cons.mpr ⟨near, h.steps⟩

/-- One level deeper and back again. -/
theorem Restored.deeper {w w' : Watch} (hw : w.depth < limit)
    (h : Restored limit ⟨w.depth + 1, w.depths⟩ w') :
    Restored limit w ⟨w'.depth - 1, w'.depths⟩ := by
  have depth : w'.depth = w.depth + 1 := h.depth
  constructor
  · show w'.depth - 1 = w.depth
    rw [depth, Nat.add_sub_cancel]
  · intro steady
    have inside := h.steady (steady.step hw (.inl rfl))
    exact inside.step (by omega) (.inr (by omega))

end Watch

namespace Rewrite

variable {α β : Type} {limit : Nat}

/-- The depth is restored by way of steady depths, also when the computation fails. -/
def Restores (limit : Nat) (x : Rewrite Watch α) : Prop :=
  ∀ s : Session Watch, s.data.Restored limit (x.runFrom s).2.data

namespace Restores

theorem pure (a : α) : Restores limit (Pure.pure a) := fun s => .refl s.data

theorem ofExcept (r : Except RewriteError α) : Restores limit (MonadExcept.ofExcept r) := by
  intro s
  rw [runFrom_ofExcept]
  exact .refl s.data

theorem note (e : Event) : Restores limit (Rewrite.note e) := fun s => .refl s.data

theorem bind {x : Rewrite Watch α} {f : α → Rewrite Watch β} (hx : Restores limit x)
    (hf : ∀ a, Restores limit (f a)) : Restores limit (x >>= f) := by
  intro s
  have first := hx s
  rw [runFrom_bind]
  rcases hr : x.runFrom s with ⟨e | a, s'⟩
  · rw [hr] at first
    exact first
  · rw [hr] at first
    exact first.trans (hf a s')

theorem mapM {f : α → Rewrite Watch β} {as : List α} (h : ∀ a ∈ as, Restores limit (f a)) :
    Restores limit (as.mapM f) := by
  induction as with
  | nil => exact pure []
  | cons a as ih =>
    obtain ⟨first, rest⟩ := List.forall_mem_cons.mp h
    rw [List.mapM_cons]
    exact first.bind fun b => (ih rest).bind fun bs => pure (b :: bs)

end Restores

end Rewrite

namespace Rules

variable {γ : Type} {t : Rules γ} {context : γ} {limit : Nat}

theorem restores_finish (kind : Kind) (rebuilt : Node) :
    Restores limit (t.finish context kind rebuilt) := by
  unfold finish
  split
  · exact .pure rebuilt
  · exact (Restores.note _).bind fun _ => (Restores.ofExcept _).bind fun result =>
      (Restores.note _).bind fun _ => .pure result

theorem runFrom_below_of_limit {x : Rewrite Watch Node} {n : Node} {s : Session Watch}
    (h : limit ≤ s.data.depth) :
    (t.below Watch.counter limit context n x).runFrom s =
      (.error (.depthLimitExceeded limit),
        { s with journal := s.journal.push (.limitReached limit n.kind) }) := by
  show runFrom (if limit ≤ s.data.depth then _ else _) s = _
  rw [if_pos h]
  rfl

theorem runFrom_below_of_lt {x : Rewrite Watch Node} {n : Node} {s s' : Session Watch}
    {outcome : Except RewriteError Node} (h : s.data.depth < limit)
    (hx : x.runFrom ⟨s.journal, ⟨s.data.depth + 1, s.data.depths⟩⟩ = (outcome, s')) :
    (t.below Watch.counter limit context n x).runFrom s =
      (ofExcept outcome >>= t.finish context n.kind).runFrom
        ⟨s'.journal, ⟨s'.data.depth - 1, s'.data.depths⟩⟩ := by
  show runFrom (if limit ≤ s.data.depth then _ else _) s = _
  rw [if_neg (Nat.not_le.mpr h)]
  exact congrArg (fun run : Except RewriteError Node × Session Watch =>
    ((ofExcept run.1 : Rewrite Watch Node) >>= t.finish context n.kind).runFrom
      ⟨run.2.journal, ⟨run.2.data.depth - 1, run.2.data.depths⟩⟩) hx

theorem restores_below {x : Rewrite Watch Node} (inside : Restores limit x) (n : Node) :
    Restores limit (t.below Watch.counter limit context n x) := by
  intro s
  by_cases deep : limit ≤ s.data.depth
  · rw [runFrom_below_of_limit deep]
    exact .refl s.data
  · rcases hx : x.runFrom ⟨s.journal, ⟨s.data.depth + 1, s.data.depths⟩⟩ with ⟨outcome, s'⟩
    have run : Watch.Restored limit ⟨s.data.depth + 1, s.data.depths⟩ s'.data := by
      have run := inside ⟨s.journal, ⟨s.data.depth + 1, s.data.depths⟩⟩
      rw [hx] at run
      exact run
    -- when the node has been rebuilt, the depth is back, and the exit rule does not touch it
    have finished : Restores limit (ofExcept outcome >>= t.finish context n.kind) :=
      (Restores.ofExcept outcome).bind fun rebuilt => restores_finish n.kind rebuilt
    have shallow := Nat.lt_of_not_le deep
    rw [runFrom_below_of_lt shallow hx]
    exact (run.deeper shallow).trans (finished ⟨s'.journal, ⟨s'.data.depth - 1, s'.data.depths⟩⟩)

theorem restores_process (n : Node) :
    Restores limit ((t.rewriterOn Watch.counter limit context).process n) := by
  induction n using Node.childInduction with
  | step n ih =>
    have inside : Restores limit ((t.rewriterOn Watch.counter limit context).descend n) :=
      (Restores.mapM fun c hc => (ih c hc).bind fun _ => .ofExcept _).bind fun _ => .ofExcept _
    have unreplaced : Restores limit (t.below Watch.counter limit context n
        ((t.rewriterOn Watch.counter limit context).descend n)) := restores_below inside n
    rw [Rewriter.process_eq]
    simp only [rewriterOn]
    cases t.enter n.kind with
    | none => exact unreplaced
    | some rule =>
      refine (Restores.note _).bind fun _ => ?_
      cases rule n context with
      | none => exact unreplaced
      | some m => exact (Restores.note _).bind fun _ => .pure m

end Rules

/-! ## One rewrite after the other -/

namespace Rewriter

variable {σ : Type}

/-- Rewrites a root when nothing has been reported: the outcome, and what is then reported. -/
def alone (r : Rewriter σ) (d : σ) (root : Node) : Except RewriteError Node × List Event :=
  let (outcome, s) := (r.rewrite root).runFrom ⟨#[], d⟩
  (outcome, s.journal.toList)

/-- Rewrites the roots one after the other. For each of them: the outcome, and what is reported. -/
def inTurn (r : Rewriter σ) : List Node → Session σ → List (Except RewriteError Node × List Event)
  | [], _ => []
  | root :: roots, s =>
    let (outcome, s') := (r.rewrite root).runFrom s
    (outcome, s'.journal.toList.drop s.journal.size) :: r.inTurn roots s'

end Rewriter

namespace Session

variable {σ : Type}

/-- The session when other events had been reported before. -/
def behind (journal : Array Event) (s : Session σ) : Session σ :=
  { s with journal := journal ++ s.journal }

/-- The session without the past depths. -/
def unwatched (s : Session Watch) : Session Nat := ⟨s.journal, s.data.depth⟩

end Session

namespace Counter

theorem maps_behind {σ : Type} (count : Counter σ) (journal : Array Event) :
    count.Maps count (Session.behind journal) where
  note s e := by simp [Session.behind]
  get _ := rfl
  set _ _ := rfl

theorem maps_unwatched : Watch.counter.Maps plain Session.unwatched where
  note _ _ := rfl
  get _ := rfl
  set _ _ := rfl

end Counter

namespace Rules

variable {γ : Type} {t : Rules γ} {context : γ} {limit : Nat}

theorem keepsData_rewrite (t : Rules γ) (limit : Nat) (context : γ) (root : Node) :
    KeepsData ((t.rewriter limit context).rewrite root) :=
  (KeepsData.note _).bind fun _ => (keepsData_process t limit context root).bind fun result =>
    (KeepsData.note _).bind fun _ => .pure result

/-- What was reported before has no part in a rewrite. -/
theorem follows_rewrite (t : Rules γ) (limit : Nat) (context : γ) (journal : Array Event)
    (root : Node) : Follows (Session.behind journal) ((t.rewriter limit context).rewrite root)
      ((t.rewriter limit context).rewrite root) := by
  have maps := Counter.plain.maps_behind journal
  have processed : Follows (Session.behind journal) ((t.rewriter limit context).process root)
      ((t.rewriter limit context).process root) := by
    rw [rewriter_eq]
    exact follows_process maps root
  exact (follows_note maps _).bind fun _ => processed.bind fun result =>
    (follows_note maps _).bind fun _ => .pure result

theorem runFrom_rewrite_eq_alone (root : Node) (journal : Array Event) (d : Nat) :
    ((t.rewriter limit context).rewrite root).runFrom ⟨journal, d⟩ =
      (((t.rewriter limit context).alone d root).1,
        ⟨journal ++ ((t.rewriter limit context).alone d root).2.toArray, d⟩) := by
  have behind := follows_rewrite t limit context journal root ⟨#[], d⟩
  have kept := keepsData_rewrite t limit context root ⟨#[], d⟩
  rw [Session.behind, Array.append_empty] at behind
  rw [behind, Session.behind, kept]
  rfl

theorem inTurn_eq_alone (roots : List Node) (journal : Array Event) (d : Nat) :
    (t.rewriter limit context).inTurn roots ⟨journal, d⟩ =
      roots.map ((t.rewriter limit context).alone d) := by
  induction roots generalizing journal with
  | nil => rfl
  | cons root roots ih =>
    rw [Rewriter.inTurn, runFrom_rewrite_eq_alone]
    simp only [ih, List.map_cons]
    simp

/-- However a rewrite ends, the depth is what it was before. On the way no depth is beyond the
limit, and each is one more or one less than the one before it. So the rewrites of many roots, one
after the other, have the outcomes and the reports they would have had alone. -/
theorem rewrites_independent (t : Rules γ) (limit : Nat) (context : γ) :
    (∀ n s, (((t.rewriter limit context).process n).runFrom s).2.data = s.data) ∧
    (∀ n journal d, d ≤ limit →
      let watched :=
        ((t.rewriterOn Watch.counter limit context).process n).runFrom ⟨journal, ⟨d, []⟩⟩
      ((t.rewriter limit context).process n).runFrom ⟨journal, d⟩ =
        (watched.1, watched.2.unwatched) ∧
      watched.2.data.Steady limit) ∧
    ∀ roots journal, (t.rewriter limit context).inTurn roots ⟨journal, 0⟩ =
      roots.map ((t.rewriter limit context).alone 0) := by
  refine ⟨keepsData_process t limit context, ?_,
    fun roots journal => inTurn_eq_alone roots journal 0⟩
  intro n journal d hd
  constructor
  · rw [rewriter_eq]
    exact follows_process Counter.maps_unwatched n ⟨journal, ⟨d, []⟩⟩
  · have start : Watch.Steady limit ⟨d, []⟩ :=
      ⟨List.forall_mem_singleton.mpr hd, .singleton d⟩
    exact (restores_process n ⟨journal, ⟨d, []⟩⟩).steady start

/-- With a limit of one and a rule that refuses literals: `NOT a` reaches the limit, `1` is refused,
and then all goes well with `a`. -/
theorem rewrites_independent_mixed :
    let a : Expr := .ofColumn ⟨["a"]⟩
    let one : Node := .expression (.ofLiteral (.integer 1))
    let t : Rules Unit := empty.onExit .literal fun _ _ => .error (.invalidNode (.refused "no"))
    let roots : List Node := [.expression a.negation, one, .expression a]
    ((t.rewriter 1 ()).inTurn roots ⟨#[], 0⟩).map Prod.fst =
        [.error (.depthLimitExceeded 1), .error (.invalidNode (.refused "no")),
          .ok (.expression a)] ∧
      (((t.rewriterOn Watch.counter 1 ()).process (.expression a.negation)).runFrom
        ⟨#[], ⟨0, []⟩⟩).2.data.Steady 1 := by
  intro a one t roots
  obtain ⟨-, watched, inTurn⟩ := rewrites_independent t 1 ()
  refine ⟨?_, (watched (.expression a.negation) #[] 0 (Nat.zero_le 1)).2⟩
  have limited : ((t.rewriter 1 ()).alone 0 (.expression a.negation)).1 =
      .error (.depthLimitExceeded 1) := by
    refine ((t.rewriter 1 ()).outcome_rewrite _ ⟨#[], 0⟩).trans ?_
    refine process_of_descend_error rfl Nat.zero_lt_one ?_
    refine runFrom_bind_error _ ?_
    show ((List.mapM (t.rewriter 1 ()).visit [.ofExpr a]).runFrom _).1 = _
    rw [List.mapM_cons]
    refine runFrom_bind_error _ (runFrom_bind_error _ ?_)
    have unreplaced : t.replacement? () (.expression a) = none := rfl
    exact congrArg Prod.fst (process_of_limit unreplaced (Nat.le_refl 1))
  have refused : ((t.rewriter 1 ()).alone 0 one).1 = .error (.invalidNode (.refused "no")) := by
    refine ((t.rewriter 1 ()).outcome_rewrite _ ⟨#[], 0⟩).trans ?_
    rw [outcome_of_descend rfl Nat.zero_lt_one]
    rfl
  have done : ((t.rewriter 1 ()).alone 0 (.expression a)).1 = .ok (.expression a) := by
    refine ((t.rewriter 1 ()).outcome_rewrite _ ⟨#[], 0⟩).trans ?_
    rw [outcome_of_descend rfl Nat.zero_lt_one]
    rfl
  rw [inTurn roots #[]]
  simp [roots, limited, refused, done]

end Rules

end SqlTree
