import SqlTree.Proofs.Rewrite.Run

/-!
# What a computation adds to the journal

A computation that succeeds from every session with the same value may also report the same events
from every session. What several such computations report, one after the other, is reported in that
order.
-/

namespace SqlTree

namespace Session

variable {σ : Type}

/-- The session when further events have been reported. -/
def after (s : Session σ) (events : List Event) : Session σ :=
  { s with journal := s.journal ++ events.toArray }

@[simp]
theorem after_nil (s : Session σ) : s.after [] = s := by
  simp [after]

@[simp]
theorem after_after (s : Session σ) (events more : List Event) :
    (s.after events).after more = s.after (events ++ more) := by
  simp [after, Array.append_assoc]

theorem after_singleton (s : Session σ) (e : Event) :
    s.after [e] = { s with journal := s.journal.push e } := by
  simp [after]

end Session

namespace Rewrite

variable {σ α β : Type} {x : Rewrite σ α} {a : α} {events : List Event}

/-- From every session the computation gives `a`, reports the events and leaves the data alone. -/
def Reports (x : Rewrite σ α) (a : α) (events : List Event) : Prop :=
  ∀ s, x.runFrom s = (.ok a, s.after events)

namespace Reports

theorem pure (a : α) : Reports (Pure.pure a : Rewrite σ α) a [] := by
  intro s
  rw [runFrom_pure, Session.after_nil]

theorem ofExcept {r : Except RewriteError α} (h : r = .ok a) :
    Reports (MonadExcept.ofExcept r : Rewrite σ α) a [] := by
  intro s
  rw [runFrom_ofExcept, h, Session.after_nil]

theorem note (e : Event) : Reports (Rewrite.note e : Rewrite σ Unit) () [e] := by
  intro s
  rw [runFrom_note, Session.after_singleton]

theorem bind {f : α → Rewrite σ β} {b : β} {more : List Event} (first : x.Reports a events)
    (rest : (f a).Reports b more) : (x >>= f).Reports b (events ++ more) := by
  intro s
  rw [runFrom_bind, first s]
  exact (rest _).trans (by rw [Session.after_after])

theorem mapM {f : α → Rewrite σ β} {g : α → β} {reported : α → List Event} {as : List α}
    (h : ∀ a ∈ as, (f a).Reports (g a) (reported a)) :
    (as.mapM f).Reports (as.map g) (as.flatMap reported) := by
  induction as with
  | nil => exact pure []
  | cons a as ih =>
    obtain ⟨first, rest⟩ := List.forall_mem_cons.mp h
    rw [List.mapM_cons, List.flatMap_cons]
    refine first.bind ?_
    rw [← List.append_nil (as.flatMap reported)]
    exact (ih rest).bind (pure (g a :: as.map g))

end Reports

end Rewrite

end SqlTree
