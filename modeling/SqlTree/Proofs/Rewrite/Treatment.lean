import SqlTree.Proofs.Rewrite.DepthLimit
import SqlTree.Proofs.Rewrite.Instance
import SqlTree.Proofs.Rewrite.Journal

/-!
# What a rewrite by rules makes of a node

What becomes of a node, and what is reported on the way, depends on the node and on its depth, and
not on what was reported before. Both are told here case by case: the node is replaced, or it is too
deep, or one of its children is the first that has a fault, or all children pass and the node is
rebuilt around what they have become.
-/

namespace SqlTree

open Rewrite

theorem Node.recounted_of_leaf {n : Node} (leaf : n.children = []) : n.recounted = .ok n := by
  cases n with
  | groupingElement g =>
    cases g with
    | cube l columns =>
      obtain rfl := List.map_eq_nil_iff.mp leaf
      rfl
    | _ => rfl
  | _ => rfl

namespace Rules

variable {γ : Type}

/-! ## Outcome and reports of a single node -/

/-- Treats a node at a depth: the outcome, and what is reported. -/
def treat (t : Rules γ) (context : γ) (limit depth : Nat) (n : Node) :
    Except RewriteError Node × List Event :=
  let (outcome, s) := ((t.rewriter limit context).process n).runFrom ⟨#[], depth⟩
  (outcome, s.journal.toList)

/-- The report that the enter rule of its kind, if there is one, is shown a node. -/
def question (t : Rules γ) (n : Node) : List Event :=
  if (t.enter n.kind).isSome then [.asked .enter n] else []

/-- What is reported when the exit rule of a kind, if there is one, is shown a rebuilt node. -/
def farewell (t : Rules γ) (context : γ) (kind : Kind) (rebuilt : Node) : List Event :=
  match t.exit kind with
  | none => []
  | some rule =>
    .asked .exit rebuilt ::
      match rule rebuilt context with
      | .ok m => [.answered .exit kind m.kind]
      | .error _ => []

variable {t : Rules γ} {context : γ} {limit depth : Nat} {n m : Node} {c : Child} {e : RewriteError}

/-- From any session the node is treated in the same way. -/
theorem runFrom_process (s : Session Nat) :
    ((t.rewriter limit context).process n).runFrom s =
      ((t.treat context limit s.data n).1, s.after (t.treat context limit s.data n).2) := by
  -- a run behind a journal follows the run from an empty one, and leaves the depth as it was
  have behind : Follows (Session.behind s.journal) ((t.rewriter limit context).process n)
      ((t.rewriter limit context).process n) := by
    rw [rewriter_eq]
    exact follows_process (Counter.plain.maps_behind s.journal) n
  have kept := keepsData_process t limit context n ⟨#[], s.data⟩
  have run := behind ⟨#[], s.data⟩
  rw [Session.behind, Array.append_empty] at run
  rw [show s = ⟨s.journal, s.data⟩ from rfl, run, Session.behind, kept]
  rfl

theorem treat_eq {outcome : Except RewriteError Node} {events : List Event}
    (h : ((t.rewriter limit context).process n).runFrom ⟨#[], depth⟩ =
      (outcome, Session.after ⟨#[], depth⟩ events)) :
    t.treat context limit depth n = (outcome, events) := by
  unfold treat
  rw [h]
  simp [Session.after]

theorem asked_eq (n : Node) (journal : Array Event) :
    t.asked n journal = journal ++ (t.question n).toArray := by
  unfold asked question
  split
  · rfl
  · exact Array.append_empty.symm

theorem runFrom_leave (kind : Kind) (rebuilt : Node) (s : Session Nat) :
    (t.leave context kind rebuilt).runFrom s =
      (t.left context kind rebuilt, s.after (t.farewell context kind rebuilt)) := by
  unfold leave left farewell
  cases t.exit kind with
  | none => exact Prod.ext rfl s.after_nil.symm
  | some rule =>
    simp only [runFrom_bind, runFrom_note, runFrom_ofExcept]
    cases rule rebuilt context with
    | error e => exact Prod.ext rfl (s.after_singleton _).symm
    | ok m =>
      refine Prod.ext rfl ?_
      show _ = s.after ([.asked .exit rebuilt] ++ [.answered .exit kind m.kind])
      rw [← Session.after_after, Session.after_singleton, Session.after_singleton]
      rfl

/-! ## Nodes that are not looked into -/

theorem treat_of_replaced (h : t.replacement? context n = some m) :
    t.treat context limit depth n =
      (.ok m, t.question n ++ [.answered .enter n.kind m.kind]) := by
  apply treat_eq
  rw [process_of_replaced h, asked_eq]
  simp [Session.after]

theorem treat_of_limit (h : t.replacement? context n = none) (deep : limit ≤ depth) :
    t.treat context limit depth n =
      (.error (.depthLimitExceeded limit), t.question n ++ [.limitReached limit n.kind]) := by
  apply treat_eq
  rw [process_of_limit h deep, asked_eq]
  simp [Session.after]

/-! ## Children one after the other -/

/-- The child becomes a node that fits its slot. -/
def Passes (t : Rules γ) (context : γ) (limit depth : Nat) (c : Child) : Prop :=
  ∃ m, (t.treat context limit depth c.node).1 = .ok m ∧ c.slot.admits m = true

/-- The treatment of the child fails, or gives a node that does not fit its slot. -/
inductive Faults (t : Rules γ) (context : γ) (limit depth : Nat) (c : Child) :
    RewriteError → Prop where
  | failed {e : RewriteError} (h : (t.treat context limit depth c.node).1 = .error e) :
    Faults t context limit depth c e
  | misplaced {m : Node} (h : (t.treat context limit depth c.node).1 = .ok m)
    (unfit : c.slot.admits m = false) :
    Faults t context limit depth c (.unexpectedNode c.slot.name m.kind)

/-- The children become these nodes, which fit their slots. -/
def Become (t : Rules γ) (context : γ) (limit depth : Nat) : List Child → List Node → Prop :=
  List.Forall₂ fun c m =>
    (t.treat context limit depth c.node).1 = .ok m ∧ c.slot.admits m = true

/-- What is reported when the children are treated one after the other. -/
def reports (t : Rules γ) (context : γ) (limit depth : Nat) (cs : List Child) : List Event :=
  cs.flatMap fun c => (t.treat context limit depth c.node).2

theorem passes_or_faults (t : Rules γ) (context : γ) (limit depth : Nat) (c : Child) :
    t.Passes context limit depth c ∨ ∃ e, t.Faults context limit depth c e := by
  rcases h : (t.treat context limit depth c.node).1 with e | m
  · exact .inr ⟨e, .failed h⟩
  · cases fits : c.slot.admits m with
    | true => exact .inl ⟨m, h, fits⟩
    | false => exact .inr ⟨_, .misplaced h fits⟩

theorem runFrom_visit (c : Child) (s : Session Nat) :
    ((t.rewriter limit context).visit c).runFrom s =
      ((t.treat context limit s.data c.node).1 >>= c.slot.check,
        s.after (t.treat context limit s.data c.node).2) := by
  rw [Rewriter.visit, runFrom_bind, runFrom_process]
  rcases (t.treat context limit s.data c.node).1 with e | m
  · rfl
  · exact runFrom_ofExcept _ _

theorem runFrom_visit_of_ok (given : (t.treat context limit depth c.node).1 = .ok m)
    (fits : c.slot.admits m = true) (s : Session Nat) (hs : s.data = depth) :
    ((t.rewriter limit context).visit c).runFrom s =
      (.ok m, s.after (t.treat context limit depth c.node).2) := by
  subst hs
  rw [runFrom_visit, given]
  exact Prod.ext (Slot.check_eq_ok.mpr ⟨rfl, fits⟩) rfl

theorem Faults.runFrom_visit (h : t.Faults context limit depth c e) (s : Session Nat)
    (hs : s.data = depth) : ((t.rewriter limit context).visit c).runFrom s =
      (.error e, s.after (t.treat context limit depth c.node).2) := by
  subst hs
  rw [Rules.runFrom_visit]
  cases h with
  | failed h =>
    rw [h]
    rfl
  | misplaced h unfit =>
    rw [h]
    refine Prod.ext ?_ rfl
    show Slot.check _ _ = _
    rw [Slot.check, unfit]
    rfl

theorem exists_become {cs : List Child} (passed : ∀ c ∈ cs, t.Passes context limit depth c) :
    ∃ ms, t.Become context limit depth cs ms := by
  induction cs with
  | nil => exact ⟨[], .nil⟩
  | cons c cs ih =>
    obtain ⟨⟨m, first⟩, others⟩ := List.forall_mem_cons.mp passed
    obtain ⟨ms, rest⟩ := ih others
    exact ⟨m :: ms, .cons first rest⟩

theorem Become.runFrom_visits {cs : List Child} {ms : List Node}
    (become : t.Become context limit depth cs ms) {s : Session Nat} (hs : s.data = depth) :
    (cs.mapM (t.rewriter limit context).visit).runFrom s =
      (.ok ms, s.after (t.reports context limit depth cs)) := by
  induction become generalizing s with
  | nil => exact Prod.ext rfl s.after_nil.symm
  | @cons c m cs ms first _ ih =>
    have rest := ih (s := s.after (t.treat context limit depth c.node).2) hs
    rw [List.mapM_cons, runFrom_bind, runFrom_visit_of_ok first.1 first.2 s hs]
    simp only [runFrom_bind, rest, runFrom_pure, Session.after_after]
    rfl

/-- The first child with a fault ends the treatment of the children. -/
theorem runFrom_visits_of_fault (after : List Child) (fault : t.Faults context limit depth c e) :
    ∀ {before : List Child} {s : Session Nat}, s.data = depth →
      (∀ b ∈ before, t.Passes context limit depth b) →
      ((before ++ c :: after).mapM (t.rewriter limit context).visit).runFrom s =
        (.error e, s.after (t.reports context limit depth before ++
          (t.treat context limit depth c.node).2))
  | [], s, hs, _ => by
    rw [List.nil_append, List.mapM_cons, runFrom_bind, fault.runFrom_visit s hs]
    rfl
  | b :: before, s, hs, h => by
    obtain ⟨first, others⟩ := List.forall_mem_cons.mp h
    obtain ⟨m, given, fits⟩ := first
    have rest := runFrom_visits_of_fault after fault
      (s := s.after (t.treat context limit depth b.node).2) hs others
    rw [List.cons_append, List.mapM_cons, runFrom_bind, runFrom_visit_of_ok given fits s hs]
    simp only [runFrom_bind, rest, Session.after_after]
    rw [reports, reports, List.flatMap_cons, List.append_assoc]

/-! ## Nodes that are looked into -/

/-- The children before `c` pass, and `c` has the fault `e`. No rule replaces the node, and it is
not too deep. -/
structure FirstFault (t : Rules γ) (context : γ) (limit depth : Nat) (n : Node)
    (before : List Child) (c : Child) (after : List Child) (e : RewriteError) : Prop where
  unreplaced : t.replacement? context n = none
  within : depth < limit
  children : n.children = before ++ c :: after
  passed : ∀ b ∈ before, t.Passes context limit (depth + 1) b
  fault : t.Faults context limit (depth + 1) c e

theorem treat_of_firstFault {before after : List Child}
    (h : t.FirstFault context limit depth n before c after e) :
    t.treat context limit depth n =
      (.error e, t.question n ++ (t.reports context limit (depth + 1) before ++
        (t.treat context limit (depth + 1) c.node).2)) := by
  have visits := runFrom_visits_of_fault after h.fault
    (s := ⟨t.asked n #[], depth + 1⟩) rfl h.passed
  apply treat_eq
  rw [process_of_descend h.unreplaced h.within, Rewriter.descend, runFrom_bind, h.children]
  simp only [visits]
  rw [asked_eq]
  simp [Session.after]

/-- All children pass: the node is rebuilt around what they have become, and shown to the exit rule
of its kind. -/
theorem treat_of_become (unreplaced : t.replacement? context n = none) (within : depth < limit)
    {ms : List Node} (become : t.Become context limit (depth + 1) n.children ms) :
    t.treat context limit depth n =
      ((n.withChildren ms).recounted >>= t.left context n.kind,
        t.question n ++ (t.reports context limit (depth + 1) n.children ++
          match (n.withChildren ms).recounted with
          | .ok rebuilt => t.farewell context n.kind rebuilt
          | .error _ => [])) := by
  have visits := become.runFrom_visits (s := ⟨t.asked n #[], depth + 1⟩) rfl
  apply treat_eq
  -- the depth is back to that of the node before its exit rule is asked
  rw [process_of_descend unreplaced within, Rewriter.descend, runFrom_bind, visits]
  simp only [runFrom_ofExcept]
  cases (n.withChildren ms).recounted with
  | error e =>
    rw [asked_eq]
    simp [Session.after, bind, Except.bind]
  | ok rebuilt =>
    simp only [runFrom_leave]
    rw [asked_eq]
    simp [Session.after, bind, Except.bind]

theorem Become.exists_rebuilt {ms : List Node}
    (become : t.Become context limit depth n.children ms) : ∃ m, n.Rebuilt ms m :=
  Node.exists_rebuilt (List.Forall₂.imp (fun _ _ h => h.2) become)

/-- A node in which nothing stands is shown to both rules of its kind as it is. -/
theorem treat_of_leaf (unreplaced : t.replacement? context n = none) (within : depth < limit)
    (leaf : n.children = []) : t.treat context limit depth n =
      (t.left context n.kind n, t.question n ++ t.farewell context n.kind n) := by
  have become : t.Become context limit (depth + 1) n.children [] := by
    rw [leaf]
    exact .nil
  have same := n.withChildren_children
  rw [leaf, List.map_nil] at same
  rw [treat_of_become unreplaced within become, same, Node.recounted_of_leaf leaf, leaf]
  rfl

theorem passed_or_faults (t : Rules γ) (context : γ) (limit depth : Nat) (cs : List Child) :
    (∀ c ∈ cs, t.Passes context limit depth c) ∨
    ∃ before c after e, cs = before ++ c :: after ∧
      (∀ b ∈ before, t.Passes context limit depth b) ∧ t.Faults context limit depth c e := by
  induction cs with
  | nil => exact .inl (List.forall_mem_nil _)
  | cons c cs ih =>
    rcases t.passes_or_faults context limit depth c with pass | ⟨e, fault⟩
    · rcases ih with passed | ⟨before, c', after, e, rfl, passed, fault⟩
      · exact .inl (List.forall_mem_cons.mpr ⟨pass, passed⟩)
      · exact .inr ⟨c :: before, c', after, e, rfl, List.forall_mem_cons.mpr ⟨pass, passed⟩, fault⟩
    · exact .inr ⟨[], c, cs, e, rfl, List.forall_mem_nil _, fault⟩

/-- Every node is replaced, or too deep, or has a child that is the first with a fault, or all its
children pass. -/
theorem treat_cases (t : Rules γ) (context : γ) (limit depth : Nat) (n : Node) :
    (∃ m, t.replacement? context n = some m) ∨
    t.replacement? context n = none ∧ limit ≤ depth ∨
    (∃ before c after e, t.FirstFault context limit depth n before c after e) ∨
    t.replacement? context n = none ∧ depth < limit ∧
      ∀ c ∈ n.children, t.Passes context limit (depth + 1) c := by
  cases replaced : t.replacement? context n with
  | some m => exact .inl ⟨m, rfl⟩
  | none =>
    rcases Nat.lt_or_ge depth limit with within | deep
    · rcases t.passed_or_faults context limit (depth + 1) n.children with
        passed | ⟨before, c, after, e, children, passed, fault⟩
      · exact .inr (.inr (.inr ⟨rfl, within, passed⟩))
      · exact .inr (.inr (.inl ⟨before, c, after, e, replaced, within, children, passed, fault⟩))
    · exact .inr (.inl ⟨rfl, deep⟩)

/-! ## Roots -/

/-- What is reported when a root is rewritten. -/
def allReports (t : Rules γ) (context : γ) (limit : Nat) (root : Node) : List Event :=
  .started root.kind :: (t.treat context limit 0 root).2 ++
    match (t.treat context limit 0 root).1 with
    | .ok m => [.finished m.kind]
    | .error _ => []

/-- What a rewrite gives and adds to the journal does not depend on the journal. -/
theorem run_eq_treat (t : Rules γ) (context : γ) (root : Node) (journal : Array Event)
    (limit : Nat) : t.run context root journal limit = ((t.treat context limit 0 root).1,
      ⟨journal ++ (t.allReports context limit root).toArray, 0⟩) := by
  rw [run, Rewriter.runFrom_rewrite, runFrom_process, allReports]
  rcases t.treat context limit 0 root with ⟨e | m, events⟩ <;> simp [Session.after]

end Rules

end SqlTree
