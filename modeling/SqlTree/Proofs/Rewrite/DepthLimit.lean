import Mathlib.Data.List.MinMax
import Mathlib.Order.Bounds.Basic
import Mathlib.Order.Nat
import Mathlib.Tactic.Push
import SqlTree.Proofs.Rewrite.ByRules

/-!
# The depth limit of a rewrite by rules

A rewrite by rules reaches a certain depth, which does not depend on the limit. Limits from there on
make no difference; every smaller one ends the rewrite.
-/

namespace SqlTree

/-- The number of levels of a tree. -/
def Node.height (n : Node) : Nat :=
  (n.children.attach.map fun ⟨c, _⟩ => c.node.height).foldr max 0 + 1
termination_by n
decreasing_by exact Node.sizeOf_child_lt (by assumption)

theorem Node.height_eq (n : Node) :
    n.height = (n.children.map fun c => c.node.height).foldr max 0 + 1 := by
  rw [height]
  simp

theorem Node.height_child_lt {n : Node} {c : Child} (hc : c ∈ n.children) :
    c.node.height < n.height := by
  rw [n.height_eq]
  exact Nat.lt_succ_of_le (List.le_max_of_le' 0 (List.mem_map_of_mem hc) le_rfl)

namespace Rules

open Rewrite

variable {γ : Type} {t : Rules γ} {context : γ} {n : Node}

/-! ## How deep a rewrite goes -/

/-- The nodes that are visited from a root, each with its depth. -/
inductive Visited (t : Rules γ) (context : γ) (root : Node) : Nat → Node → Prop where
  | root : Visited t context root 1 root
  | child {k : Nat} {n : Node} {c : Child} (h : Visited t context root k n)
    (unreplaced : t.replacement? context n = none) (hc : c ∈ n.children) :
    Visited t context root (k + 1) c.node

/-- The greatest depth, counted from the node, of a node that is visited and not replaced. -/
def reach (t : Rules γ) (context : γ) (n : Node) : Nat :=
  if (t.replacement? context n).isSome then 0
  else (n.children.attach.map fun ⟨c, _⟩ => t.reach context c.node).foldr max 0 + 1
termination_by n
decreasing_by exact Node.sizeOf_child_lt (by assumption)

theorem reach_of_replaced {m : Node} (h : t.replacement? context n = some m) :
    t.reach context n = 0 := by
  rw [reach, h]
  rfl

theorem reach_of_visited (h : t.replacement? context n = none) :
    t.reach context n = (n.children.map fun c => t.reach context c.node).foldr max 0 + 1 := by
  rw [reach, h]
  simp

theorem reach_child_lt (h : t.replacement? context n = none) {c : Child} (hc : c ∈ n.children) :
    t.reach context c.node < t.reach context n := by
  rw [reach_of_visited h]
  exact Nat.lt_succ_of_le (List.le_max_of_le' 0 (List.mem_map_of_mem hc) le_rfl)

theorem exists_child_of_lt_reach (h : t.replacement? context n = none) {k : Nat}
    (hk : k + 1 < t.reach context n) : ∃ c ∈ n.children, k < t.reach context c.node := by
  by_contra none
  push Not at none
  have bounded : (n.children.map fun c => t.reach context c.node).foldr max 0 ≤ k := by
    apply List.max_le_of_forall_le (α := ℕ) _ _
    intro d hd
    obtain ⟨c, hc, rfl⟩ := List.mem_map.mp hd
    exact none c hc
  rw [reach_of_visited h] at hk
  omega

/-- Below a visited node the depths go on from its own. -/
theorem Visited.add_reach_le {root : Node} {k : Nat} (h : Visited t context root k n) :
    k + t.reach context n ≤ 1 + t.reach context root := by
  induction h with
  | root => exact le_rfl
  | child _ unreplaced hc ih =>
    have := reach_child_lt unreplaced hc
    omega

theorem Visited.exists_reach {root : Node} {k : Nat} (hn : Visited t context root k n)
    (h : t.replacement? context n = none) :
    ∃ m, Visited t context root (k + t.reach context n - 1) m ∧
      t.replacement? context m = none := by
  induction n using Node.childInduction generalizing k with
  | step n ih =>
    by_cases leaf : t.reach context n = 1
    · rw [leaf]
      exact ⟨n, hn, h⟩
    · -- otherwise some child reaches one level less, and is not replaced as it reaches any
      have pos : 0 < t.reach context n := by
        rw [reach_of_visited h]
        exact Nat.succ_pos _
      obtain ⟨c, hc, hlt⟩ := exists_child_of_lt_reach h
        (k := t.reach context n - 2) (by omega)
      have unreplaced : t.replacement? context c.node = none := by
        by_contra replaced
        obtain ⟨m, hm⟩ := Option.ne_none_iff_exists'.mp replaced
        rw [reach_of_replaced hm] at hlt
        exact Nat.not_lt_zero _ hlt
      obtain ⟨m, hm, hu⟩ := ih c hc (hn.child h hc) unreplaced
      have := reach_child_lt h hc
      rw [show k + 1 + t.reach context c.node - 1 = k + t.reach context n - 1 by omega] at hm
      exact ⟨m, hm, hu⟩

/-! ## Limits that are not reached -/

variable {d d' : Nat}

theorem visit_congr {c : Child} {s : Session Nat}
    (h : ((t.rewriter d context).process c.node).runFrom s =
      ((t.rewriter d' context).process c.node).runFrom s) :
    ((t.rewriter d context).visit c).runFrom s = ((t.rewriter d' context).visit c).runFrom s := by
  rw [Rewriter.visit, Rewriter.visit, runFrom_bind, runFrom_bind, h]

theorem visits_congr {k : Nat} : ∀ {cs : List Child},
    (∀ c ∈ cs, ∀ s : Session Nat, s.data = k →
      ((t.rewriter d context).process c.node).runFrom s =
        ((t.rewriter d' context).process c.node).runFrom s) →
    ∀ s : Session Nat, s.data = k →
      (cs.mapM (t.rewriter d context).visit).runFrom s =
        (cs.mapM (t.rewriter d' context).visit).runFrom s
  | [], _, _, _ => rfl
  | c :: cs, h, s, hs => by
    have kept := keepsData_visit t d' context c s
    rw [List.mapM_cons, List.mapM_cons, runFrom_bind, runFrom_bind,
      visit_congr (h c List.mem_cons_self s hs)]
    rcases hr : ((t.rewriter d' context).visit c).runFrom s with ⟨e | m, s'⟩
    · rfl
    · rw [hr] at kept
      have rest := visits_congr (fun b hb => h b (List.mem_cons_of_mem c hb)) s' (kept.trans hs)
      simp only [runFrom_bind, rest]

/-- From the depth that a rewrite reaches on, the limit makes no difference. -/
theorem process_of_reach_le {s : Session Nat} (h : s.data + t.reach context n ≤ d) (hd : d ≤ d') :
    ((t.rewriter d context).process n).runFrom s =
      ((t.rewriter d' context).process n).runFrom s := by
  induction n using Node.childInduction generalizing s with
  | step n ih =>
    cases hr : t.replacement? context n with
    | some m => rw [process_of_replaced hr, process_of_replaced hr]
    | none =>
      have pos : 0 < t.reach context n := by
        rw [reach_of_visited hr]
        exact Nat.succ_pos _
      have descend : ((t.rewriter d context).descend n).runFrom
          ⟨t.asked n s.journal, s.data + 1⟩ =
          ((t.rewriter d' context).descend n).runFrom ⟨t.asked n s.journal, s.data + 1⟩ := by
        rw [Rewriter.descend, Rewriter.descend, runFrom_bind, runFrom_bind]
        rw [visits_congr (k := s.data + 1) _ _ rfl]
        intro c hc s' hs'
        have := reach_child_lt hr hc
        exact ih c hc (by omega)
      rw [process_of_descend hr (by omega), process_of_descend hr (by omega), descend]

/-! ## Limits that are reached -/

/-- The treatment fails with the error of the limit `d`, or as it does under the limit `d'`. -/
def FailsShort {α : Type} (d : Nat) (x y : Except RewriteError α × Session Nat) : Prop :=
  ∃ e, x.1 = .error e ∧ (e = .depthLimitExceeded d ∨ y.1 = .error e)

/-- What comes after lets the errors of both sides through. -/
theorem FailsShort.through {α β : Type} {x y : Except RewriteError α × Session Nat}
    {x' y' : Except RewriteError β × Session Nat} (h : FailsShort d x y)
    (hx : ∀ e, x.1 = .error e → x'.1 = .error e) (hy : ∀ e, y.1 = .error e → y'.1 = .error e) :
    FailsShort d x' y' := by
  obtain ⟨e, he, limit | other⟩ := h
  · exact ⟨e, hx e he, Or.inl limit⟩
  · exact ⟨e, hx e he, Or.inr (hy e other)⟩

theorem FailsShort.bind {α β : Type} {x y : Rewrite Nat α} {s : Session Nat}
    (h : FailsShort d (x.runFrom s) (y.runFrom s)) (f g : α → Rewrite Nat β) :
    FailsShort d ((x >>= f).runFrom s) ((y >>= g).runFrom s) :=
  h.through (fun _ => runFrom_bind_error f) (fun _ => runFrom_bind_error g)

theorem visits_failsShort {k : Nat} (hk : k ≤ d) (hd : d ≤ d') : ∀ {cs : List Child},
    (∀ c ∈ cs, k + t.reach context c.node ≤ d') →
    (∀ c ∈ cs, ∀ s : Session Nat, s.data = k → d < k + t.reach context c.node →
      FailsShort d (((t.rewriter d context).process c.node).runFrom s)
        (((t.rewriter d' context).process c.node).runFrom s)) →
    (∃ c ∈ cs, d < k + t.reach context c.node) →
    ∀ s : Session Nat, s.data = k →
      FailsShort d ((cs.mapM (t.rewriter d context).visit).runFrom s)
        ((cs.mapM (t.rewriter d' context).visit).runFrom s)
  | [], _, _, hex, _, _ => by
    obtain ⟨c, hc, -⟩ := hex
    exact absurd hc List.not_mem_nil
  | c :: cs, hle, h, hex, s, hs => by
    rw [List.mapM_cons, List.mapM_cons]
    -- the first child that is too deep decides; the ones before it do not see the limit
    by_cases hc : d < k + t.reach context c.node
    · exact ((h c List.mem_cons_self s hs hc).bind _ _).bind _ _
    · have same : ((t.rewriter d context).visit c).runFrom s =
          ((t.rewriter d' context).visit c).runFrom s :=
        visit_congr (process_of_reach_le (by omega) hd)
      have kept := keepsData_visit t d' context c s
      rw [runFrom_bind, runFrom_bind, same]
      rcases hr : ((t.rewriter d' context).visit c).runFrom s with ⟨e | m, s'⟩
      · exact ⟨e, rfl, Or.inr rfl⟩
      · rw [hr] at kept
        obtain ⟨b, hb, hlt⟩ := hex
        have later : ∃ b ∈ cs, d < k + t.reach context b.node := by
          rcases List.mem_cons.mp hb with rfl | hb
          · exact absurd hlt hc
          · exact ⟨b, hb, hlt⟩
        exact (visits_failsShort hk hd (fun b hb => hle b (List.mem_cons_of_mem c hb))
          (fun b hb => h b (List.mem_cons_of_mem c hb)) later s' (kept.trans hs)).bind _ _

theorem process_failsShort {s : Session Nat} (hs : s.data ≤ d) (h : d < s.data + t.reach context n)
    (hd : s.data + t.reach context n ≤ d') :
    FailsShort d (((t.rewriter d context).process n).runFrom s)
      (((t.rewriter d' context).process n).runFrom s) := by
  induction n using Node.childInduction generalizing s with
  | step n ih =>
    cases hr : t.replacement? context n with
    | some m =>
      rw [reach_of_replaced hr] at h
      exact absurd h (Nat.not_lt.mpr hs)
    | none =>
      -- either the limit stops this node, or the child on the deepest way is too deep in turn
      by_cases guard : d ≤ s.data
      · rw [process_of_limit hr guard]
        exact ⟨_, rfl, Or.inl rfl⟩
      · have descend : FailsShort d
            (((t.rewriter d context).descend n).runFrom ⟨t.asked n s.journal, s.data + 1⟩)
            (((t.rewriter d' context).descend n).runFrom ⟨t.asked n s.journal, s.data + 1⟩) := by
          refine (visits_failsShort (k := s.data + 1) (by omega) (by omega) ?_ ?_ ?_ _ rfl).bind _ _
          · intro c hc
            have := reach_child_lt hr hc
            omega
          · intro c hc s' hs' hlt
            have := reach_child_lt hr hc
            exact ih c hc (by omega) (by omega) (by omega)
          · obtain ⟨c, hc, hlt⟩ := exists_child_of_lt_reach hr (k := d - s.data - 1) (by omega)
            exact ⟨c, hc, by omega⟩
        apply descend.through
        · intro e he
          exact process_of_descend_error hr (by omega) he
        · intro e he
          exact process_of_descend_error hr (by omega) he

/-! ## No rules -/

theorem replacement?_empty (context : γ) (n : Node) :
    (empty : Rules γ).replacement? context n = none := rfl

theorem reach_empty (context : γ) (n : Node) :
    (empty : Rules γ).reach context n = n.height := by
  induction n using Node.childInduction with
  | step n ih =>
    rw [reach_of_visited (replacement?_empty context n), Node.height_eq]
    rw [List.map_congr_left ih]

theorem process_empty (hn : n.Valid) {s : Session Nat} (h : s.data + n.height ≤ d) :
    (((empty : Rules γ).rewriter d context).process n).runFrom s = (.ok n, s) := by
  induction n using Node.childInduction generalizing s with
  | step n ih =>
    have pos : 0 < n.height := by
      rw [Node.height_eq]
      exact Nat.succ_pos _
    rw [process_of_descend (replacement?_empty context n) (by omega)]
    have descend := Rewriter.descend_eq_self (r := (empty : Rules γ).rewriter d context)
      (s := ⟨s.journal, s.data + 1⟩) hn
      fun c hc => ih c hc (hn.child hc) (by have := Node.height_child_lt hc; simp only; omega)
    rw [show (empty : Rules γ).asked n s.journal = s.journal from rfl, descend]
    rfl

/-! ## The depth that decides -/

/-- The depths of visited nodes that no enter rule replaces, and zero. -/
def depths (t : Rules γ) (context : γ) (root : Node) : Set Nat :=
  { k | k = 0 ∨ ∃ n, t.Visited context root k n ∧ t.replacement? context n = none }

theorem isGreatest_reach (t : Rules γ) (context : γ) (root : Node) :
    IsGreatest (t.depths context root) (t.reach context root) := by
  constructor
  · cases h : t.replacement? context root with
    | some m => exact Or.inl (reach_of_replaced h)
    | none =>
      obtain ⟨m, hm, unreplaced⟩ := Visited.root.exists_reach h
      rw [Nat.add_sub_cancel_left] at hm
      exact Or.inr ⟨m, hm, unreplaced⟩
  · rintro k (rfl | ⟨n, hn, unreplaced⟩)
    · exact Nat.zero_le _
    · have := hn.add_reach_le
      rw [reach_of_visited unreplaced] at this
      omega

/-- A rewrite by rules under a limit, from the start. -/
def run (t : Rules γ) (context : γ) (root : Node) (journal : Array Event) (limit : Nat) :
    Except RewriteError Node × Session Nat :=
  ((t.rewriter limit context).rewrite root).runFrom ⟨journal, 0⟩

theorem run_of_reach_le {root : Node} (journal : Array Event) (h : t.reach context root ≤ d)
    (hd : d ≤ d') : t.run context root journal d = t.run context root journal d' := by
  rw [run, run, Rewriter.runFrom_rewrite, Rewriter.runFrom_rewrite]
  rw [process_of_reach_le (by simpa using h) hd]

theorem run_failsShort {root : Node} (journal : Array Event) (h : d < t.reach context root) :
    FailsShort d (t.run context root journal d)
      (t.run context root journal (t.reach context root)) := by
  have short := process_failsShort (s := ⟨journal.push (.started root.kind), 0⟩)
    (Nat.zero_le d) (by simpa using h) (Nat.zero_add _).le
  rw [run, run, Rewriter.rewrite, Rewriter.rewrite, runFrom_bind, runFrom_bind, runFrom_note]
  exact short.bind _ _

theorem run_empty (context : γ) {root : Node} (hn : root.Valid) (journal : Array Event)
    (h : root.height ≤ d) : ((empty : Rules γ).run context root journal d).1 = .ok root := by
  rw [run, Rewriter.runFrom_rewrite, process_empty hn (by simpa using h)]

/-- A rewrite by rules is decided by the greatest depth of a node that it visits and does not
replace: limits from there on make no difference, and smaller ones end the rewrite. -/
theorem run_limit_exact (t : Rules γ) (context : γ) (root : Node) (journal : Array Event) :
    ∃ deepest, IsGreatest (t.depths context root) deepest ∧
      (∀ d d', deepest ≤ d → d ≤ d' →
        t.run context root journal d = t.run context root journal d') ∧
      (∀ d < deepest, ∃ e, (t.run context root journal d).1 = .error e ∧
        (e = .depthLimitExceeded d ∨ (t.run context root journal deepest).1 = .error e)) ∧
      (∀ d < deepest, ∀ m, (t.run context root journal deepest).1 = .ok m →
        (t.run context root journal d).1 = .error (.depthLimitExceeded d)) ∧
      (root.Valid → ∀ d, ((empty : Rules γ).run context root journal d).1 =
        if root.height ≤ d then .ok root else .error (.depthLimitExceeded d)) := by
  have alone : ∀ (t : Rules γ) (d : Nat), d < t.reach context root → ∀ m,
      (t.run context root journal (t.reach context root)).1 = .ok m →
      (t.run context root journal d).1 = .error (.depthLimitExceeded d) := by
    intro t d hd m hm
    obtain ⟨e, he, rfl | other⟩ := run_failsShort journal hd
    · exact he
    · rw [hm] at other
      contradiction
  refine ⟨t.reach context root, isGreatest_reach t context root, ?_, ?_, alone t, ?_⟩
  · exact fun d d' h hd => run_of_reach_le journal h hd
  · exact fun d hd => run_failsShort journal hd
  · intro hn d
    by_cases h : root.height ≤ d
    · rw [if_pos h, run_empty context hn journal h]
    · rw [if_neg h]
      refine alone empty d ?_ root (run_empty context hn journal ?_)
      · rw [reach_empty]
        exact Nat.lt_of_not_le h
      · rw [reach_empty]

/-- The list of an `IN` is a level of its own, between the comparison and the values. -/
theorem run_limit_exact_list :
    let one : Expr := .ofLiteral (.integer 1)
    let isOne : Expr := .isIn .unknown (.ofColumn ⟨["a"]⟩) ⟨.unknown, [one]⟩
    let root : Node := .expression isOne.negation
    root.Valid ∧ ((empty : Rules Unit).run () root #[] 4).1 = .ok root ∧
      ((empty : Rules Unit).run () root #[] 3).1 = .error (.depthLimitExceeded 3) := by
  intro one isOne root
  have hn : root.Valid := by
    simp [root, isOne, one, Node.Valid, Expr.negation, Expr.Valid, UnaryOperator.Valid,
      InList.Valid, Expr.ofColumn, Expr.ofLiteral, Name.Valid, Literal.Valid]
  have column : (Node.expression (.ofColumn ⟨["a"]⟩)).height = 1 := by
    rw [Node.height_eq]
    rfl
  have list : (Node.expression (.list ⟨.unknown, [one]⟩)).height = 2 := by
    rw [Node.height_eq]
    show max (Node.expression one).height 0 + 1 = 2
    rw [Node.height_eq]
    rfl
  have height : root.height = 4 := by
    rw [Node.height_eq]
    show max (Node.expression isOne).height 0 + 1 = 4
    rw [Node.height_eq]
    show max (max (Node.expression (.ofColumn ⟨["a"]⟩)).height
      (max (Node.expression (.list ⟨.unknown, [one]⟩)).height 0) + 1) 0 + 1 = 4
    rw [column, list]
    rfl
  obtain ⟨_, _, _, _, _, outcome⟩ := run_limit_exact (empty : Rules Unit) () root #[]
  exact ⟨hn, by simp [outcome hn, height], by simp [outcome hn, height]⟩

end Rules

end SqlTree
