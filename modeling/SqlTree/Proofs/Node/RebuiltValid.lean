import SqlTree.Proofs.Node.Rebuilt
import SqlTree.Proofs.Node.Validity

/-!
# Valid nodes around valid children

A valid node stays valid when it is rebuilt around valid children. Names, texts, types and
properties are copied as they are and lists keep their lengths; only the distinct columns of a
`CUBE` may become more, so it is valid if its columns pass when they are counted anew.
-/

namespace SqlTree

theorem Node.eq_of_recounted {n m : Node} (h : n.recounted = .ok m) : m = n := by
  unfold recounted at h
  split at h
  case h_1 l columns =>
    unfold GroupingElement.cubeColumns at h
    dsimp only at h
    split at h
    case h_1 counted hc =>
      split at hc
      · contradiction
      · rw [← Except.ok.inj hc] at h
        exact (Except.ok.inj h).symm
    case h_2 => contradiction
  case h_2 => exact (Except.ok.inj h).symm

theorem Node.few_of_recounted {l : Location} {columns : List Expr} {m : Node}
    (h : (Node.groupingElement (.cube l columns)).recounted = .ok m) :
    (GroupingSet.of columns).length ≤ GroupingElement.cubeLimit := by
  unfold recounted GroupingElement.cubeColumns at h
  by_cases many : GroupingElement.cubeLimit < (GroupingSet.of columns).length
  · simp [many] at h
  · exact Nat.not_lt.mp many

variable {ms : List Node}

theorem Expr.Rebuilt.valid {e e' : Expr} (h : e.Rebuilt ms e') (he : e.Valid)
    (hm : ∀ m ∈ ms, m.Valid) : e'.Valid := by
  cases h with
  | literal | column => exact he
  | unary => exact ⟨he.1, hm _ List.mem_cons_self⟩
  | binary | isIn | branch =>
    obtain ⟨ha, hb, -⟩ := List.forall_mem_cons.mp hm |>.imp_right List.forall_mem_cons.mp
    exact ⟨ha, hb⟩
  | between =>
    simp only [List.forall_mem_cons] at hm
    exact ⟨hm.1, hm.2.1, hm.2.2.1⟩
  | call =>
    have arguments := List.forall_mem_map.mp hm
    exact ⟨he.1, Expr.validList_iff.mpr arguments⟩
  | case =>
    simp only [List.forall_mem_append, List.forall_mem_map, Option.mem_toList] at hm
    obtain ⟨⟨operand, branches⟩, otherwise⟩ := hm
    exact ⟨Expr.validOption_iff.mpr operand, Branch.validList_iff.mpr branches,
      Expr.validOption_iff.mpr otherwise⟩
  | @list l es es' values =>
    have valid := List.forall_mem_map.mp hm
    refine ⟨?_, Expr.validList_iff.mpr valid⟩
    rw [← List.length_pos_iff, values, List.length_pos_iff]
    exact he.1

theorem Relation.Rebuilt.valid {r r' : Relation} (h : r.Rebuilt ms r') (hr : r.Valid)
    (hm : ∀ m ∈ ms, m.Valid) : r'.Valid := by
  cases h with
  | table => exact hr
  | aliased => exact ⟨hm _ List.mem_cons_self, hr.2⟩
  | join =>
    simp only [List.forall_mem_append, List.forall_mem_cons] at hm
    exact ⟨hm.1.1, hm.1.2.1, hr.2.2⟩

theorem GroupingElement.Rebuilt.valid {g g' : GroupingElement} (h : g.Rebuilt ms g')
    (hm : ∀ m ∈ ms, m.Valid) {m : Node} (counted : (Node.groupingElement g').recounted = .ok m) :
    g'.Valid := by
  cases h with
  | simple | rollup =>
    have columns := List.forall_mem_map.mp hm
    exact columns
  | cube =>
    have columns := List.forall_mem_map.mp hm
    exact ⟨Node.few_of_recounted counted, columns⟩
  | sets =>
    intro s hs c hc
    exact List.forall_mem_map.mp hm c (List.mem_flatten_of_mem hs hc)

theorem Query.Rebuilt.valid {q q' : Query} (h : q.Rebuilt ms q') (hm : ∀ m ∈ ms, m.Valid) :
    q'.Valid := by
  cases h with
  | query =>
    simp only [List.forall_mem_append, List.forall_mem_cons, List.forall_mem_map,
      Option.mem_toList] at hm
    obtain ⟨⟨⟨⟨⟨select, source, -⟩, -⟩, filter⟩, groupBy⟩, having⟩ := hm
    exact ⟨select, source, filter, groupBy, having⟩

theorem Statement.Rebuilt.valid {s s' : Statement} (h : s.Rebuilt ms s') (hs : s.Valid)
    (hm : ∀ m ∈ ms, m.Valid) : s'.Valid := by
  cases h with
  | several =>
    have statements := List.forall_mem_map.mp hm
    exact Statement.validList_iff.mpr statements
  | create =>
    have elements := List.forall_mem_map.mp hm
    exact ⟨hs.1, elements, hs.2.2⟩
  | createStreamAs =>
    simp only [List.forall_mem_cons, List.forall_mem_map, Option.mem_toList] at hm
    exact ⟨hs.1, hm.1, hs.2.2.1, hm.2⟩
  | createTableAs => exact ⟨hs.1, hm _ List.mem_cons_self, hs.2.2⟩
  | insertInto =>
    simp only [List.forall_mem_cons, List.forall_mem_map, Option.mem_toList] at hm
    exact ⟨hs.1, hm.1, hm.2⟩
  | dropTable | createConnector => exact hs
  | query h => exact h.valid hm

/-- A valid node that is rebuilt around valid children is valid, if it is no `CUBE` that has got too
many distinct columns. -/
theorem Node.Rebuilt.valid {n m : Node} (h : n.Rebuilt ms m) (hn : n.Valid)
    (hm : ∀ m ∈ ms, m.Valid) (counted : m.recounted = .ok m) : m.Valid := by
  cases h with
  | statement h => exact h.valid hn hm
  | expression h => exact h.valid hn hm
  | relation h => exact h.valid hn hm
  | select | groupBy =>
    have members := List.forall_mem_map.mp hm
    exact members
  | selectItem h =>
    cases h with
    | @single l e e' => exact hm (.expression e') List.mem_cons_self
    | all => exact hn
  | groupingElement h => exact h.valid hm counted
  | window | ksqlWindow | within => exact trivial
  | tableElement => exact hn

end SqlTree
