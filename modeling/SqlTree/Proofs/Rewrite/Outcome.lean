import SqlTree.Proofs.Except
import SqlTree.Proofs.Node.RebuiltValid
import SqlTree.Proofs.Rewrite.ByRules

/-!
# What a successful rewrite consists of

When the default treatment of a node succeeds, so did the treatment of each of its children, and
what these gave stands around the rebuilt node. With rules, the outcome of a node is that of its
enter rule, or what the exit rule makes of the rebuilt node; the journal has no part in it.
-/

namespace SqlTree

namespace Rewrite

variable {σ α β : Type}

theorem bind_eq_ok {x : Rewrite σ α} {f : α → Rewrite σ β} {s s' : Session σ} {b : β} :
    (x >>= f).runFrom s = (.ok b, s') ↔
      ∃ a t, x.runFrom s = (.ok a, t) ∧ (f a).runFrom t = (.ok b, s') := by
  rw [runFrom_bind]
  constructor
  · intro h
    rcases hx : x.runFrom s with ⟨e | a, t⟩
    · rw [hx] at h
      exact absurd (congrArg Prod.fst h) nofun
    · rw [hx] at h
      exact ⟨a, t, rfl, h⟩
  · rintro ⟨a, t, hx, hf⟩
    rw [hx]
    exact hf

theorem ofExcept_eq_ok {r : Except RewriteError α} {s s' : Session σ} {a : α} :
    (ofExcept r : Rewrite σ α).runFrom s = (.ok a, s') ↔ r = .ok a ∧ s = s' := by
  rw [runFrom_ofExcept, Prod.mk.injEq]

/-- Where the members of a list are treated one after the other, each is treated in a session with
`I`, if the first session has it and every treatment keeps it. -/
theorem mapM_eq_ok {f : α → Rewrite σ β} {I : Session σ → Prop} {as : List α}
    (keeps : ∀ a ∈ as, ∀ s b s', I s → (f a).runFrom s = (.ok b, s') → I s') :
    ∀ {s s' : Session σ} {bs : List β}, I s → (as.mapM f).runFrom s = (.ok bs, s') →
      List.Forall₂ (fun a b => ∃ t t', I t ∧ (f a).runFrom t = (.ok b, t')) as bs := by
  induction as with
  | nil =>
    intro s s' bs _ h
    obtain rfl := Except.ok.inj (congrArg Prod.fst h)
    exact .nil
  | cons a as ih =>
    intro s s' bs hs h
    rw [List.mapM_cons] at h
    obtain ⟨b, t, first, h⟩ := bind_eq_ok.mp h
    obtain ⟨bs', t', rest, h⟩ := bind_eq_ok.mp h
    obtain rfl := Except.ok.inj (congrArg Prod.fst h)
    have kept := keeps a List.mem_cons_self s b t hs first
    refine .cons ⟨s, t, hs, first⟩ (ih ?_ kept rest)
    exact fun a' ha => keeps a' (List.mem_cons_of_mem a ha)

end Rewrite

open Rewrite

theorem Slot.check_eq_ok {slot : Slot} {n m : Node} :
    slot.check n = .ok m ↔ n = m ∧ slot.admits n = true := by
  unfold check
  constructor
  · intro h
    split at h
    case isTrue fits => exact ⟨Except.ok.inj h, fits⟩
    case isFalse => contradiction
  · rintro ⟨rfl, fits⟩
    rw [if_pos fits]

namespace Rewriter

variable {σ : Type} {r : Rewriter σ}

theorem visit_eq_ok {c : Child} {s s' : Session σ} {m : Node} :
    (r.visit c).runFrom s = (.ok m, s') ↔
      (r.process c.node).runFrom s = (.ok m, s') ∧ c.slot.admits m = true := by
  rw [visit, bind_eq_ok]
  constructor
  · rintro ⟨a, t, treated, h⟩
    obtain ⟨checked, rfl⟩ := ofExcept_eq_ok.mp h
    obtain ⟨rfl, fits⟩ := Slot.check_eq_ok.mp checked
    exact ⟨treated, fits⟩
  · rintro ⟨treated, fits⟩
    exact ⟨m, s', treated, ofExcept_eq_ok.mpr ⟨Slot.check_eq_ok.mpr ⟨rfl, fits⟩, rfl⟩⟩

theorem outcome_rewrite (r : Rewriter σ) (root : Node) (s : Session σ) :
    ((r.rewrite root).runFrom s).1 =
      ((r.process root).runFrom { s with journal := s.journal.push (.started root.kind) }).1 := by
  rw [runFrom_rewrite]
  rcases (r.process root).runFrom { s with journal := s.journal.push (.started root.kind) }
    with ⟨_ | _, s'⟩ <;> rfl

/-- The node is rebuilt around what its children have become, each of which was treated in a session
with `I`. -/
theorem descend_eq_ok {I : Session σ → Prop} {n m : Node} {s : Session σ}
    (keeps : ∀ c ∈ n.children, ∀ s b s', I s → (r.process c.node).runFrom s = (.ok b, s') → I s')
    (hs : I s) (h : ((r.descend n).runFrom s).1 = .ok m) :
    ∃ ms, n.Rebuilt ms m ∧ m.recounted = .ok m ∧
      List.Forall₂ (fun c b => ∃ t t', I t ∧ (r.process c.node).runFrom t = (.ok b, t'))
        n.children ms := by
  unfold descend at h
  obtain ⟨ms, t, visited, built⟩ := bind_eq_ok.mp (Prod.ext h rfl)
  obtain ⟨counted, -⟩ := ofExcept_eq_ok.mp built
  have visits := mapM_eq_ok (I := I)
    (fun c hc s b s' hs hb => keeps c hc s b s' hs (visit_eq_ok.mp hb).1) hs visited
  have fit : Fit n.children ms := visits.imp fun c b ⟨t, t', _, hb⟩ => (visit_eq_ok.mp hb).2
  obtain ⟨m', rebuilt⟩ := Node.exists_rebuilt fit
  rw [rebuilt.withChildren_eq] at counted
  obtain rfl := Node.eq_of_recounted counted
  exact ⟨ms, rebuilt, counted, visits.imp fun c b ⟨t, t', ht, hb⟩ =>
    ⟨t, t', ht, (visit_eq_ok.mp hb).1⟩⟩

end Rewriter

namespace Rules

variable {γ : Type} {t : Rules γ} {context : γ} {limit : Nat} {n m : Node}

/-- What the exit rule of a kind, if there is one, makes of a rebuilt node. -/
def left (t : Rules γ) (context : γ) (kind : Kind) (rebuilt : Node) : Except RewriteError Node :=
  match t.exit kind with
  | none => .ok rebuilt
  | some rule => rule rebuilt context

theorem outcome_leave (kind : Kind) (rebuilt : Node) (s : Session Nat) :
    ((t.leave context kind rebuilt).runFrom s).1 = t.left context kind rebuilt := by
  unfold leave left
  cases t.exit kind with
  | none => rfl
  | some rule =>
    simp only [runFrom_bind, runFrom_note, runFrom_ofExcept]
    cases rule rebuilt context <;> rfl

theorem outcome_of_descend (h : t.replacement? context n = none) {s : Session Nat}
    (hs : s.data < limit) :
    (((t.rewriter limit context).process n).runFrom s).1 =
      (((t.rewriter limit context).descend n).runFrom ⟨t.asked n s.journal, s.data + 1⟩).1 >>=
        t.left context n.kind := by
  rw [process_of_descend h hs]
  rcases ((t.rewriter limit context).descend n).runFrom ⟨t.asked n s.journal, s.data + 1⟩
    with ⟨e | rebuilt, s'⟩
  · rfl
  · exact outcome_leave n.kind rebuilt _

/-- A node becomes what its enter rule puts in its place, or, one level deeper, it is rebuilt and
then becomes what its exit rule makes of it. -/
theorem process_eq_ok {s : Session Nat}
    (h : (((t.rewriter limit context).process n).runFrom s).1 = .ok m) :
    t.replacement? context n = some m ∨
    ∃ rebuilt, t.replacement? context n = none ∧
      (((t.rewriter limit context).descend n).runFrom ⟨t.asked n s.journal, s.data + 1⟩).1 =
        .ok rebuilt ∧
      t.left context n.kind rebuilt = .ok m := by
  cases hr : t.replacement? context n with
  | some m' =>
    rw [process_of_replaced hr] at h
    exact .inl (congrArg some (Except.ok.inj h))
  | none =>
    by_cases hs : limit ≤ s.data
    · rw [process_of_limit hr hs] at h
      contradiction
    · rw [outcome_of_descend hr (Nat.lt_of_not_le hs)] at h
      obtain ⟨rebuilt, descended, left⟩ := Except.bind_eq_ok.mp h
      exact .inr ⟨rebuilt, rfl, descended, left⟩

/-! ## The journal has no part in the outcome -/

/-- The outcome depends on the depth alone. -/
def IgnoresJournal {α : Type} (x : Rewrite Nat α) : Prop :=
  ∀ journal journal' depth, (x.runFrom ⟨journal, depth⟩).1 = (x.runFrom ⟨journal', depth⟩).1

theorem IgnoresJournal.ofExcept {α : Type} (r : Except RewriteError α) :
    IgnoresJournal (MonadExcept.ofExcept r : Rewrite Nat α) := by
  intro journal journal' depth
  rw [runFrom_ofExcept, runFrom_ofExcept]

theorem IgnoresJournal.bind {α β : Type} {x : Rewrite Nat α} {f : α → Rewrite Nat β}
    (hx : IgnoresJournal x) (kept : KeepsData x) (hf : ∀ a, IgnoresJournal (f a)) :
    IgnoresJournal (x >>= f) := by
  intro journal journal' depth
  have same := hx journal journal' depth
  have data := kept ⟨journal, depth⟩
  have data' := kept ⟨journal', depth⟩
  rw [runFrom_bind, runFrom_bind]
  rcases hr : x.runFrom ⟨journal, depth⟩ with ⟨r, j, d⟩
  rcases hr' : x.runFrom ⟨journal', depth⟩ with ⟨r', j', d'⟩
  rw [hr] at same data
  rw [hr'] at same data'
  obtain rfl : r = r' := same
  obtain rfl : d = depth := data
  obtain rfl : d' = d := data'
  cases r with
  | error e => rfl
  | ok a => exact hf a j j' d'

theorem IgnoresJournal.mapM {α β : Type} {f : α → Rewrite Nat β} {as : List α}
    (h : ∀ a ∈ as, IgnoresJournal (f a) ∧ KeepsData (f a)) : IgnoresJournal (as.mapM f) := by
  induction as with
  | nil => exact fun _ _ _ => rfl
  | cons a as ih =>
    obtain ⟨⟨ignores, keeps⟩, rest⟩ := List.forall_mem_cons.mp h
    rw [List.mapM_cons]
    refine ignores.bind keeps fun b => (ih rest).bind ?_ fun bs => fun _ _ _ => rfl
    exact KeepsData.mapM fun a ha => (rest a ha).2

theorem process_ignoresJournal (t : Rules γ) (limit : Nat) (context : γ) (n : Node) :
    IgnoresJournal ((t.rewriter limit context).process n) := by
  induction n using Node.childInduction with
  | step n ih =>
    have visits : IgnoresJournal (n.children.mapM (t.rewriter limit context).visit) := by
      refine .mapM fun c hc => ⟨(ih c hc).bind ?_ fun b => .ofExcept _, ?_⟩
      · exact keepsData_process t limit context c.node
      · exact keepsData_visit t limit context c
    have descend : IgnoresJournal ((t.rewriter limit context).descend n) := by
      refine visits.bind ?_ fun ms => .ofExcept _
      exact KeepsData.mapM fun c _ => keepsData_visit t limit context c
    intro journal journal' depth
    cases hr : t.replacement? context n with
    | some m => rw [process_of_replaced hr, process_of_replaced hr]
    | none =>
      by_cases hs : limit ≤ depth
      · rw [process_of_limit hr hs, process_of_limit hr hs]
      · rw [outcome_of_descend hr (Nat.lt_of_not_le hs), outcome_of_descend hr
          (Nat.lt_of_not_le hs), descend (t.asked n journal) (t.asked n journal') (depth + 1)]

end Rules

end SqlTree
