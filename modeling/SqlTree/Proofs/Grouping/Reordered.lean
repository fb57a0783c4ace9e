import Mathlib.Data.List.Perm.Basic
import Mathlib.Data.Set.Basic
import SqlTree.Proofs.Except
import SqlTree.Proofs.Grouping.CrossProduct

/-!
# Grouping by the same elements in another order

With its elements in another order a clause stands for the same sets. Their order and the order of
the columns in them may differ, and so may the sets that are dropped on the way.
-/

namespace SqlTree

namespace GroupingSet

variable {a b : GroupingSet} {sets : List GroupingSet}

/-- The columns of a set, up to being the same and without their order. -/
def contents (set : GroupingSet) : Set Expr := { x | x ∈ set.keys }

theorem equal_iff_contents : equal a b = true ↔ a.contents = b.contents := by
  rw [equal_iff, Set.ext_iff]
  exact Iff.rfl

/-- Lists without equal members in which every set has an equal one in the other list. -/
theorem length_eq_of_exists_equal {sets' : List GroupingSet}
    (distinct : sets.Pairwise fun s t => ¬ s.equal t = true)
    (distinct' : sets'.Pairwise fun s t => ¬ s.equal t = true)
    (h : ∀ a ∈ sets, ∃ b ∈ sets', a.equal b = true)
    (h' : ∀ b ∈ sets', ∃ a ∈ sets, b.equal a = true) : sets.length = sets'.length := by
  have unrepeated : ∀ {sets : List GroupingSet}, (sets.Pairwise fun s t => ¬ s.equal t = true) →
      (sets.map contents).Nodup := by
    intro sets distinct
    exact List.pairwise_map.mpr (distinct.imp fun differ => differ ∘ equal_iff_contents.mpr)
  have among : ∀ {sets sets' : List GroupingSet}, (∀ a ∈ sets, ∃ b ∈ sets', a.equal b = true) →
      sets.map contents ⊆ sets'.map contents := by
    intro sets sets' h
    rw [List.subset_def, List.forall_mem_map]
    intro a ha
    obtain ⟨b, hb, eq⟩ := h a ha
    exact List.mem_map.mpr ⟨b, hb, (equal_iff_contents.mp eq).symm⟩
  have perm : (sets.map contents).Perm (sets'.map contents) :=
    (List.perm_ext_iff_of_nodup (unrepeated distinct) (unrepeated distinct')).mpr fun _ =>
      ⟨fun hx => among h hx, fun hx => among h' hx⟩
  have length := perm.length_eq
  rwa [List.length_map, List.length_map] at length

end GroupingSet

namespace GroupBy

open GroupingSet

/-! ## Choices and unions -/

theorem mem_selections {α : Type} {lists : List (List α)} {chosen : List α} :
    chosen ∈ selections lists ↔ List.Forall₂ (· ∈ ·) chosen lists := by
  induction lists generalizing chosen with
  | nil => rw [selections, List.mem_singleton, List.forall₂_nil_right_iff]
  | cons choices rest ih =>
    rw [selections, List.mem_flatMap, List.forall₂_cons_right_iff]
    simp only [List.mem_map, ih]
    constructor
    · rintro ⟨a, ha, others, ho, rfl⟩
      exact ⟨a, others, ha, ho, rfl⟩
    · rintro ⟨a, others, ha, ho, rfl⟩
      exact ⟨a, ha, others, ho, rfl⟩

/-- With the lists in another order, the same can be chosen in another order. -/
theorem exists_selection_perm {α : Type} {lists lists' : List (List α)} (perm : lists.Perm lists')
    {chosen : List α} (h : chosen ∈ selections lists) :
    ∃ chosen' ∈ selections lists', chosen.Perm chosen' := by
  have listed : List.Forall₂ (fun list a => a ∈ list) lists chosen := (mem_selections.mp h).flip
  obtain ⟨chosen', listed', reordered⟩ := List.perm_comp_forall₂ perm.symm listed
  exact ⟨chosen', mem_selections.mpr listed'.flip, reordered.symm⟩

theorem mem_keys_foldl_union {x : Expr} (chosen : List GroupingSet) (set : GroupingSet) :
    x ∈ (chosen.foldl GroupingSet.union set).keys ↔ x ∈ set.keys ∨ ∃ s ∈ chosen, x ∈ s.keys := by
  induction chosen generalizing set with
  | nil => simp
  | cons s chosen ih =>
    rw [List.foldl_cons, ih, mem_keys_union, or_assoc]
    simp [keys]

/-- The order in which sets are united is no matter. -/
theorem unionAll_perm {chosen chosen' : List GroupingSet} (perm : chosen.Perm chosen') :
    equal (unionAll chosen) (unionAll chosen') = true := by
  rw [equal_iff]
  intro x
  rw [unionAll, unionAll, mem_keys_foldl_union, mem_keys_foldl_union]
  simp only [perm.mem_iff]

theorem distinct_foldl_union (chosen : List GroupingSet) {set : GroupingSet} (h : Distinct set) :
    Distinct (chosen.foldl GroupingSet.union set) := by
  induction chosen generalizing set with
  | nil => exact h
  | cons s chosen ih => exact ih (h.union s)

/-! ## Clauses -/

/-- The sets of elements in another order are in that order. -/
theorem mapM_groupingSets_perm {elements elements' : List GroupingElement}
    (perm : elements.Perm elements') {es es' : List (List GroupingSet)}
    (h : elements.mapM GroupingElement.groupingSets = .ok es)
    (h' : elements'.mapM GroupingElement.groupingSets = .ok es') : es.Perm es' := by
  have unique : Relator.RightUnique fun (e : GroupingElement) s => e.groupingSets = .ok s := by
    intro e s t hs ht
    exact Except.ok.inj (hs.symm.trans ht)
  exact List.rel_perm_imp unique (Except.mapM_eq_ok.mp h) (Except.mapM_eq_ok.mp h') perm

/-- Each set of the one clause has an equal one among those of the other. -/
theorem exists_equal_of_perm {es es' : List (List GroupingSet)} (perm : es.Perm es') :
    ∀ a ∈ firsts ((selections es).map unionAll),
      ∃ b ∈ firsts ((selections es').map unionAll), a.equal b = true := by
  intro a ha
  obtain ⟨chosen, hc, rfl⟩ := List.mem_map.mp (mem_of_mem_firstsAfter ha)
  obtain ⟨chosen', hc', reordered⟩ := exists_selection_perm perm hc
  obtain ⟨b, hb, eq⟩ := exists_equal_firsts (List.mem_map_of_mem (f := unionAll) hc')
  exact ⟨b, hb, equal_trans (unionAll_perm reordered) (equal_symm eq)⟩

theorem distinct_of_mem_crossProduct {es : List (List GroupingSet)} {set : GroupingSet}
    (h : set ∈ firsts ((selections es).map unionAll)) : Distinct set := by
  obtain ⟨chosen, -, rfl⟩ := List.mem_map.mp (mem_of_mem_firstsAfter h)
  exact distinct_foldl_union chosen .nil

/-- A set of one clause that has an equal one among those of another has no other there. -/
theorem countP_same_eq_one {es es' : List (List GroupingSet)} {a : GroupingSet}
    (ha : a ∈ firsts ((selections es).map unionAll))
    (h : ∃ b ∈ firsts ((selections es').map unionAll), a.equal b = true) :
    (firsts ((selections es').map unionAll)).countP a.same = 1 := by
  obtain ⟨b, hb, eq⟩ := h
  have compared : (firsts ((selections es').map unionAll)).countP a.same =
      (firsts ((selections es').map unionAll)).countP a.equal := by
    apply List.countP_congr
    intro t ht
    rw [same_eq_equal (distinct_of_mem_crossProduct ha) (distinct_of_mem_crossProduct ht)]
  rw [compared]
  exact countP_equal (pairwise_firstsAfter _ []) hb eq

/-- Clauses with the same elements in different orders, if both have no more sets than are allowed
on the way, have equally many sets, and each set of either equals exactly one set of the other. -/
theorem groupingSets_perm {g g' : GroupBy} (perm : g.elements.Perm g'.elements)
    {sets sets' : List GroupingSet} (h : g.groupingSets = .ok sets)
    (h' : g'.groupingSets = .ok sets') :
    (∀ a ∈ sets, sets'.countP a.same = 1) ∧ (∀ b ∈ sets', sets.countP b.same = 1) ∧
      sets.length = sets'.length := by
  obtain ⟨es, hes, rfl⟩ := groupingSets_eq_firsts h
  obtain ⟨es', hes', rfl⟩ := groupingSets_eq_firsts h'
  have reordered : es.Perm es' := mapM_groupingSets_perm perm hes hes'
  have there := exists_equal_of_perm reordered
  have back := exists_equal_of_perm reordered.symm
  refine ⟨?_, ?_, ?_⟩
  · exact fun a ha => countP_same_eq_one ha (there a ha)
  · exact fun b hb => countP_same_eq_one hb (back b hb)
  · exact length_eq_of_exists_equal (pairwise_firstsAfter _ []) (pairwise_firstsAfter _ [])
      there back

/-! ### An instance -/

theorem combine_of_le {sets more : List GroupingSet} (few : sets.length * more.length ≤ limit)
    (h : ∀ set ∈ sets, Distinct set) :
    combine sets more = .ok (firsts (sets.flatMap fun set => more.map set.union)) := by
  rw [combine, if_neg (Nat.not_lt.mpr few), dedup_eq_firsts (distinct_of_mem_unions h more)]

theorem combineAll_of_ok {sets more unions : List GroupingSet} {element : GroupingElement}
    (enumerated : element.groupingSets = .ok more) (combined : combine sets more = .ok unions)
    (elements : List GroupingElement) :
    combineAll sets (element :: elements) = combineAll unions elements := by
  rw [combineAll, enumerated]
  show (do combineAll (← combine sets more) elements) = _
  rw [combined]
  rfl

/-- `ROLLUP (a, c)` before `b, c` and after it: other unions are dropped on the way, and two sets
are left that are equal. -/
theorem groupingSets_perm_overlap :
    let a : Expr := .ofColumn ⟨["a"]⟩
    let b : Expr := .ofColumn ⟨["b"]⟩
    let c : Expr := .ofColumn ⟨["c"]⟩
    let choice : GroupingElement := .rollup .unknown [a, c]
    let all : GroupingElement := .simple .unknown [b, c]
    let sets : List GroupingSet := [[a, c, b], [b, c]]
    let sets' : List GroupingSet := [[b, c, a], [b, c]]
    [choice, all].Perm [all, choice] ∧ (GroupBy.mk .unknown [choice, all]).groupingSets = .ok sets ∧
      (GroupBy.mk .unknown [all, choice]).groupingSets = .ok sets' ∧
      (∀ a ∈ sets, sets'.countP a.same = 1) ∧ (∀ b ∈ sets', sets.countP b.same = 1) ∧
      sets.length = sets'.length := by
  intro a b c choice all sets sets'
  have distinct : ∀ set ∈ [[a, c], [a], [], [b, c]], Distinct set := by
    simp [Distinct, keys, Expr.canonical, Expr.ofColumn, a, b, c]
  have beginnings : ∀ set ∈ [[a, c], [a], []], Distinct set := fun set hs =>
    distinct set (List.mem_append_left [[b, c]] hs)
  have chosen : choice.groupingSets = .ok [[a, c], [a], []] :=
    congrArg Except.ok (dedup_eq_firsts beginnings)
  have first : combine [[]] [[a, c], [a], []] = .ok [[a, c], [a], []] :=
    combine_of_le (by decide) distinct_of_mem_start
  have second : combine [[a, c], [a], []] [[b, c]] = .ok sets :=
    combine_of_le (by decide) beginnings
  have first' : combine [[]] [[b, c]] = .ok [[b, c]] :=
    combine_of_le (by decide) distinct_of_mem_start
  have second' : combine [[b, c]] [[a, c], [a], []] = .ok sets' :=
    combine_of_le (by decide) fun set hs =>
      distinct set (List.mem_append_right [[a, c], [a], []] hs)
  have h : (GroupBy.mk .unknown [choice, all]).groupingSets = .ok sets := by
    rw [groupingSets, combineAll_of_ok chosen first, combineAll_of_ok rfl second]
    rfl
  have h' : (GroupBy.mk .unknown [all, choice]).groupingSets = .ok sets' := by
    rw [groupingSets, combineAll_of_ok rfl first', combineAll_of_ok chosen second']
    rfl
  have perm : [choice, all].Perm [all, choice] := .swap all choice []
  exact ⟨perm, h, h', groupingSets_perm perm h h'⟩

end GroupBy

end SqlTree
