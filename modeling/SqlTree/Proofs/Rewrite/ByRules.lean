import SqlTree.Proofs.Rewrite.Run
import SqlTree.Rewrite.Rules

/-!
# Steps of a rewrite by rules

A node that is not looked into is replaced by the enter rule of its kind, or it lies too deep, or
its children are treated one level deeper. After each of these the depth is what it was before.
-/

namespace SqlTree

namespace Rewrite

variable {σ α β : Type}

/-- The computation leaves the data as it was, also when it fails. -/
def KeepsData (x : Rewrite σ α) : Prop := ∀ s, (x.runFrom s).2.data = s.data

theorem KeepsData.pure (a : α) : KeepsData (Pure.pure a : Rewrite σ α) := fun _ => rfl

theorem KeepsData.ofExcept (r : Except RewriteError α) :
    KeepsData (MonadExcept.ofExcept r : Rewrite σ α) := by
  intro s
  rw [runFrom_ofExcept]

theorem KeepsData.note (e : Event) : KeepsData (Rewrite.note e : Rewrite σ Unit) := fun _ => rfl

theorem KeepsData.bind {x : Rewrite σ α} {f : α → Rewrite σ β} (hx : KeepsData x)
    (hf : ∀ a, KeepsData (f a)) : KeepsData (x >>= f) := by
  intro s
  have kept := hx s
  rw [runFrom_bind]
  rcases hr : x.runFrom s with ⟨e | a, s'⟩
  · rw [hr] at kept
    exact kept
  · rw [hr] at kept
    exact (hf a s').trans kept

theorem KeepsData.mapM {f : α → Rewrite σ β} :
    ∀ {as : List α}, (∀ a ∈ as, KeepsData (f a)) → KeepsData (as.mapM f)
  | [], _ => KeepsData.pure []
  | a :: as, h => by
    rw [List.mapM_cons]
    exact (h a List.mem_cons_self).bind fun _ =>
      (KeepsData.mapM fun b hb => h b (List.mem_cons_of_mem a hb)).bind fun _ => KeepsData.pure _

end Rewrite

namespace Rules

open Rewrite

variable {γ : Type} {t : Rules γ} {context : γ} {limit : Nat} {n : Node}

/-- What the enter rule of its kind puts in the place of a node. -/
def replacement? (t : Rules γ) (context : γ) (n : Node) : Option Node :=
  (t.enter n.kind).bind fun rule => rule n context

/-- The journal after the enter rule of its kind, if there is one, was shown a node. -/
def asked (t : Rules γ) (n : Node) (journal : Array Event) : Array Event :=
  if (t.enter n.kind).isSome then journal.push (.asked .enter n) else journal

/-- What the exit rule of a kind, if there is one, makes of a rebuilt node. -/
def leave (t : Rules γ) (context : γ) (kind : Kind) (rebuilt : Node) : Rewrite Nat Node :=
  match t.exit kind with
  | none => return rebuilt
  | some rule => do
    note (.asked .exit rebuilt)
    let result ← ofExcept (rule rebuilt context)
    note (.answered .exit kind result.kind)
    return result

theorem process_of_replaced {m : Node} (h : t.replacement? context n = some m) (s : Session Nat) :
    ((t.rewriter limit context).process n).runFrom s =
      (.ok m,
        { s with journal := (t.asked n s.journal).push (.answered .enter n.kind m.kind) }) := by
  rw [Rewriter.process_eq]
  simp only [rewriter]
  cases hr : t.enter n.kind with
  | none => simp [replacement?, hr] at h
  | some rule =>
    simp only [replacement?, hr, Option.bind_some] at h
    simp [runFrom_bind, h, asked, hr, Except.map]

theorem process_of_limit (h : t.replacement? context n = none) {s : Session Nat}
    (hs : limit ≤ s.data) :
    ((t.rewriter limit context).process n).runFrom s =
      (.error (.depthLimitExceeded limit),
        { s with journal := (t.asked n s.journal).push (.limitReached limit n.kind) }) := by
  rw [Rewriter.process_eq]
  simp only [rewriter]
  cases hr : t.enter n.kind with
  | none => simp [runFrom_bind, hs, asked, hr]
  | some rule =>
    simp only [replacement?, hr, Option.bind_some] at h
    simp [runFrom_bind, h, hs, asked, hr]

theorem process_of_descend (h : t.replacement? context n = none) {s : Session Nat}
    (hs : s.data < limit) :
    ((t.rewriter limit context).process n).runFrom s =
      match ((t.rewriter limit context).descend n).runFrom ⟨t.asked n s.journal, s.data + 1⟩ with
      | (.error e, s') => (.error e, { s' with data := s'.data - 1 })
      | (.ok rebuilt, s') =>
        (t.leave context n.kind rebuilt).runFrom { s' with data := s'.data - 1 } := by
  rw [Rewriter.process_eq]
  simp only [rewriter]
  have hs : ¬ limit ≤ s.data := Nat.not_le.mpr hs
  cases hr : t.enter n.kind with
  | none =>
    simp only [bind_pure_comp, ExceptT.bind_throw, runFrom_bind, runFrom_data, hs, if_false,
      runFrom_setData, runFrom_outcome, runFrom_ofExcept, asked, hr, Option.isSome_none,
      Bool.false_eq_true]
    rcases runFrom _ _ with ⟨_ | _, s'⟩ <;> rfl
  | some rule =>
    simp only [replacement?, hr, Option.bind_some] at h
    simp only [bind_pure_comp, ExceptT.bind_throw, runFrom_bind, runFrom_note, runFrom_data, h, hs,
      if_false, runFrom_setData, runFrom_outcome, runFrom_ofExcept, asked, hr, Option.isSome_some,
      if_true]
    rcases runFrom _ _ with ⟨_ | _, s'⟩ <;> rfl

theorem process_of_descend_error (h : t.replacement? context n = none) {s : Session Nat}
    (hs : s.data < limit) {e : RewriteError}
    (he : (((t.rewriter limit context).descend n).runFrom
      ⟨t.asked n s.journal, s.data + 1⟩).1 = .error e) :
    (((t.rewriter limit context).process n).runFrom s).1 = .error e := by
  rw [process_of_descend h hs]
  rcases hr : ((t.rewriter limit context).descend n).runFrom
    ⟨t.asked n s.journal, s.data + 1⟩ with ⟨r, s'⟩
  rw [hr] at he
  subst he
  rfl

/-! ## The depth is restored -/

theorem keepsData_leave (t : Rules γ) (context : γ) (kind : Kind) (rebuilt : Node) :
    KeepsData (t.leave context kind rebuilt) := by
  rw [leave]
  split
  · exact KeepsData.pure rebuilt
  · exact (KeepsData.note _).bind fun _ => (KeepsData.ofExcept _).bind fun result =>
      (KeepsData.note _).bind fun _ => KeepsData.pure result

theorem keepsData_process (t : Rules γ) (limit : Nat) (context : γ) (n : Node) :
    KeepsData ((t.rewriter limit context).process n) := by
  induction n using Node.childInduction with
  | step n ih =>
    have descend : KeepsData ((t.rewriter limit context).descend n) :=
      (KeepsData.mapM fun c hc => (ih c hc).bind fun _ => KeepsData.ofExcept _).bind fun _ =>
        KeepsData.ofExcept _
    intro s
    cases h : t.replacement? context n with
    | some m => rw [process_of_replaced h]
    | none =>
      by_cases hs : limit ≤ s.data
      · rw [process_of_limit h hs]
      · rw [process_of_descend h (Nat.lt_of_not_le hs)]
        have kept := descend ⟨t.asked n s.journal, s.data + 1⟩
        rcases hr : ((t.rewriter limit context).descend n).runFrom
          ⟨t.asked n s.journal, s.data + 1⟩ with ⟨e | rebuilt, s'⟩
        · rw [hr] at kept
          exact congrArg Nat.pred kept
        · rw [hr] at kept
          exact (keepsData_leave t context n.kind rebuilt _).trans (congrArg Nat.pred kept)

theorem keepsData_visit (t : Rules γ) (d : Nat) (context : γ) (c : Child) :
    KeepsData ((t.rewriter d context).visit c) :=
  (keepsData_process t d context c.node).bind fun _ => KeepsData.ofExcept _

end Rules

end SqlTree
