import Mathlib.Algebra.BigOperators.Ring.List
import Mathlib.Algebra.Ring.Nat
import SqlTree.Proofs.Grouping.Cube
import SqlTree.Proofs.Grouping.Reordered

/-!
# Clauses that stand for too many sets

The combinations of a clause are counted at each element, and what is counted there are the
different unions so far, not the choices that they come from. So a clause fails exactly if at some
element these unions, with each set of the element, are too many. The product of the numbers of sets
bounds this count where no element is without sets, and equals it where no two choices have the same
union. In general the product may be beyond the limit for a clause that has its sets, or within the
limit for one that fails.
-/

namespace SqlTree.GroupBy

open GroupingSet

/-! ## Numbers of choices -/

theorem length_selections {α : Type} (lists : List (List α)) :
    (selections lists).length = (lists.map List.length).prod := by
  induction lists with
  | nil => rfl
  | cons choices rest ih =>
    rw [selections, List.length_flatMap, List.map_cons, List.prod_cons, ← ih]
    simp only [List.length_map, List.map_const', List.sum_replicate_nat]

theorem selections_concat {α : Type} (lists : List (List α)) (choices : List α) :
    selections (lists ++ [choices]) =
      (selections lists).flatMap fun chosen => choices.map fun a => chosen ++ [a] := by
  induction lists with
  | nil => simp [selections, ← List.map_eq_flatMap]
  | cons first rest ih =>
    rw [List.cons_append, selections, selections, ih]
    simp [List.flatMap_assoc, List.flatMap_map, List.map_flatMap, Function.comp_def]

/-- The different unions are no more than the choices. -/
theorem length_firsts_unions_le (lists : List (List GroupingSet)) :
    (firsts ((selections lists).map unionAll)).length ≤ (lists.map List.length).prod := by
  have kept := (firstsAfter_sublist ((selections lists).map unionAll) []).length_le
  rwa [List.length_map, length_selections] at kept

/-- The sets of a single element differ before and after they are united with none. -/
theorem length_firsts_unions_singleton {sets : List GroupingSet}
    (differ : sets.Pairwise fun a b => ¬ a.equal b = true) :
    (firsts ((selections [sets]).map unionAll)).length = sets.length := by
  have unions : (selections [sets]).map unionAll = sets.map GroupingSet.of := by
    simp [selections, unionAll, GroupingSet.of, ← List.map_eq_flatMap]
  have apart : (sets.map GroupingSet.of).Pairwise fun a b => ¬ a.equal b = true := by
    refine List.pairwise_map.mpr (differ.imp fun {a b} apart eq => apart ?_)
    simp only [equal_iff, mem_keys_of] at eq
    exact equal_iff.mpr eq
  have kept : firsts (sets.map GroupingSet.of) = sets.map GroupingSet.of :=
    firstsAfter_eq_self (fun _ _ => Bool.false_ne_true) apart
  rw [unions, kept, List.length_map]

/-- If all choices have different unions, so have the choices from all lists but the last. -/
theorem pairwise_unions_of_concat {lists : List (List GroupingSet)} {last : List GroupingSet}
    (some : last ≠ []) (differ : ((selections (lists ++ [last])).map unionAll).Pairwise
      fun a b => ¬ a.equal b = true) :
    ((selections lists).map unionAll).Pairwise fun a b => ¬ a.equal b = true := by
  obtain ⟨set, hs⟩ := List.exists_mem_of_ne_nil last some
  rw [selections_concat, List.pairwise_map, List.pairwise_flatMap] at differ
  refine List.pairwise_map.mpr (differ.2.imp fun {chosen chosen'} apart eq => ?_)
  -- equal unions would stay equal with one more set
  refine apart _ (List.mem_map_of_mem hs) _ (List.mem_map_of_mem hs) ?_
  rw [unionAll, unionAll, List.foldl_concat, List.foldl_concat]
  exact union_congr eq set

/-! ## Where a clause fails -/

/-- What a step drops would only have been continued to repeated sets. -/
theorem firsts_continuations_of_combine {sets more unions : List GroupingSet}
    (combined : combine sets more = .ok unions) (distinct : ∀ set ∈ sets, Distinct set)
    (rest : List (List GroupingSet)) :
    firsts (unions.flatMap (continuations rest)) =
      firsts (sets.flatMap (continuations (more :: rest))) := by
  have step : continuations (more :: rest) =
      fun set => (more.map set.union).flatMap (continuations rest) :=
    funext (continuations_cons more rest)
  rw [combine_eq_firsts combined distinct, firsts_flatMap (continuations_congr rest),
    List.flatMap_assoc, step]

theorem combine_eq_error {sets more : List GroupingSet} {v : Violation} :
    combine sets more = .error v ↔
      v = .tooManyGroupingSets ∧ limit < sets.length * more.length := by
  unfold combine
  split
  case isTrue many => simp [many, eq_comm]
  case isFalse few => simp [few]

/-- The sets of the elements may be combined unless the different unions so far, with each set of
the next element, are too many. -/
theorem combineAll_eq_error {elements : List GroupingElement}
    {elementSets : List (List GroupingSet)}
    (enumerated : elements.mapM GroupingElement.groupingSets = .ok elementSets)
    {sets : List GroupingSet} (distinct : ∀ set ∈ sets, Distinct set) (kept : firsts sets = sets)
    {v : Violation} :
    combineAll sets elements = .error v ↔ v = .tooManyGroupingSets ∧
      ∃ before more after, elementSets = before ++ more :: after ∧
        limit < (firsts (sets.flatMap (continuations before))).length * more.length := by
  induction elements generalizing elementSets sets with
  | nil =>
    obtain rfl := Except.ok.inj enumerated
    simp [combineAll]
  | cons element elements ih =>
    rw [List.mapM_cons] at enumerated
    obtain ⟨more, first, enumerated⟩ := Except.bind_eq_ok.mp enumerated
    obtain ⟨rest, others, enumerated⟩ := Except.bind_eq_ok.mp enumerated
    obtain rfl := Except.ok.inj enumerated
    have here : sets.flatMap (continuations []) = sets := List.flatMap_singleton' sets
    have start : combineAll sets (element :: elements) =
        (combine sets more >>= fun unions => combineAll unions elements) := by
      rw [combineAll, first]
      rfl
    rw [start]
    cases combined : combine sets more with
    | error v' =>
      obtain ⟨rfl, many⟩ := combine_eq_error.mp combined
      have fails : limit < (firsts (sets.flatMap (continuations []))).length * more.length := by
        rwa [here, kept]
      constructor
      · intro failed
        exact ⟨(Except.error.inj failed).symm, [], more, rest, rfl, fails⟩
      · rintro ⟨rfl, -⟩
        rfl
    | ok unions =>
      have few : ¬ limit < sets.length * more.length := by
        intro many
        rw [combine_eq_error.mpr ⟨rfl, many⟩] at combined
        contradiction
      have continued := firsts_continuations_of_combine combined distinct
      have step : combineAll unions elements = .error v ↔ _ :=
        ih others (distinct_of_combine combined distinct)
          (by rw [combine_eq_firsts combined distinct, firsts_firsts])
      refine step.trans (and_congr_right fun _ => ?_)
      constructor
      · rintro ⟨before, next, after, rfl, many⟩
        exact ⟨more :: before, next, after, rfl, continued before ▸ many⟩
      · rintro ⟨_ | ⟨_, before⟩, next, after, split, many⟩
        · -- the first element does not make too many
          obtain ⟨rfl, -⟩ := List.cons.inj split
          rw [here, kept] at many
          exact absurd many few
        · obtain ⟨rfl, rfl⟩ := List.cons.inj split
          exact ⟨before, next, after, rfl, (continued before).symm ▸ many⟩

/-- If the elements of a clause have their sets, the clause fails exactly if at some element the
different unions so far, with each set of the element, are too many, and in no other way. Unless an
element is without sets, it fails only if the product of the numbers of sets is beyond the limit.
If no two choices have the same union, it fails whenever the product is. -/
theorem groupingSets_eq_error {g : GroupBy} {elementSets : List (List GroupingSet)}
    (enumerated : g.elements.mapM GroupingElement.groupingSets = .ok elementSets) :
    (∀ v, g.groupingSets = .error v ↔ v = .tooManyGroupingSets ∧
      ∃ before more after, elementSets = before ++ more :: after ∧
        limit < (firsts ((selections before).map unionAll)).length * more.length) ∧
    ([] ∉ elementSets → ∀ v, g.groupingSets = .error v →
      limit < (elementSets.map List.length).prod) ∧
    (((selections elementSets).map unionAll).Pairwise (fun a b => ¬ a.equal b = true) →
      limit < (elementSets.map List.length).prod →
      g.groupingSets = .error .tooManyGroupingSets) := by
  have fails : ∀ v, g.groupingSets = .error v ↔ v = .tooManyGroupingSets ∧
      ∃ before more after, elementSets = before ++ more :: after ∧
        limit < (firsts ((selections before).map unionAll)).length * more.length := by
    intro v
    have started := combineAll_eq_error enumerated distinct_of_mem_start rfl (v := v)
    simp only [List.flatMap_singleton] at started
    exact started
  refine ⟨fails, ?_, ?_⟩
  · intro some v failed
    obtain ⟨-, before, more, after, rfl, many⟩ := (fails v).mp failed
    have later : 0 < (after.map List.length).prod := by
      refine Nat.pos_of_ne_zero (List.prod_ne_zero fun none => ?_)
      obtain ⟨sets, hs, zero⟩ := List.mem_map.mp none
      rw [List.length_eq_zero_iff.mp zero] at hs
      exact some (List.mem_append_right before (List.mem_cons_of_mem more hs))
    calc limit < (firsts ((selections before).map unionAll)).length * more.length := many
      _ ≤ (before.map List.length).prod * more.length :=
        Nat.mul_le_mul_right _ (length_firsts_unions_le before)
      _ ≤ (before.map List.length).prod * more.length * (after.map List.length).prod :=
        Nat.le_mul_of_pos_right _ later
      _ = ((before ++ more :: after).map List.length).prod := by simp [Nat.mul_assoc]
  · intro differ many
    rcases List.eq_nil_or_concat elementSets with rfl | ⟨before, last, rfl⟩
    · exact absurd many (by decide)
    · rw [List.concat_eq_append] at differ many fails
      rw [List.map_append, List.prod_append, List.map_singleton, List.prod_singleton] at many
      have some : last ≠ [] := by
        rintro rfl
        exact absurd many (by simp)
      have kept : firsts ((selections before).map unionAll) = (selections before).map unionAll :=
        firstsAfter_eq_self (fun _ _ => Bool.false_ne_true) (pairwise_unions_of_concat some differ)
      refine (fails _).mpr ⟨rfl, before, last, [], rfl, ?_⟩
      rwa [kept, List.length_map, length_selections]

/-- A clause that fails although no choice can be made, as its last element is without sets; with
its elements in the opposite order it has its sets, which are none. -/
theorem groupingSets_eq_error_empty :
    let a : Expr := .ofColumn ⟨["a"]⟩
    let columns : List Expr := ["a", "b", "c", "d", "e", "f", "g", "h", "i", "j", "k", "l", "m",
      "n", "o", "p"].map fun name => .ofColumn ⟨[name]⟩
    let g : GroupBy := ⟨.unknown, [.cube .unknown columns, .cube .unknown [a], .sets .unknown []]⟩
    let elementSets : List (List GroupingSet) := [choices columns, [[], [a]], []]
    g.elements.mapM GroupingElement.groupingSets = .ok elementSets ∧
      (elementSets.map List.length).prod = 0 ∧
      g.groupingSets = .error .tooManyGroupingSets ∧
      (GroupBy.mk .unknown g.elements.reverse).groupingSets = .ok [] := by
  intro a columns g elementSets
  have enumerated : g.elements.mapM GroupingElement.groupingSets = .ok elementSets := rfl
  have distinct : Distinct columns := by
    simp [Distinct, keys, Expr.canonical, Expr.ofColumn, columns]
  have many : limit < (firsts ((selections [choices columns]).map unionAll)).length * 2 := by
    rw [length_firsts_unions_singleton (pairwise_choices distinct), choices_eq_map_selected,
      List.length_map, List.length_range]
    decide
  have failed := ((groupingSets_eq_error enumerated).1 _).mpr
    ⟨rfl, [choices columns], [[], [a]], [[]], rfl, many⟩
  have none (more : List GroupingSet) : combine [] more = .ok [] :=
    combine_of_le (by simp) fun _ hs => absurd hs List.not_mem_nil
  have backwards : (GroupBy.mk .unknown g.elements.reverse).groupingSets = .ok [] := by
    rw [groupingSets]
    show combineAll [[]] [.sets .unknown [], .cube .unknown [a], .cube .unknown columns] = _
    have first : combine [[]] [] = .ok [] := combine_of_le (by simp) distinct_of_mem_start
    have cubes : GroupingElement.groupingSets (.cube .unknown columns) = .ok (choices columns) :=
      rfl
    have cube : GroupingElement.groupingSets (.cube .unknown [a]) = .ok [[], [a]] := rfl
    rw [combineAll_of_ok rfl first, combineAll_of_ok cube (none _), combineAll_of_ok cubes (none _)]
    rfl
  exact ⟨enumerated, rfl, failed, backwards⟩

/-- The product of the numbers of sets may be beyond the limit in a clause of two sets. -/
theorem groupingSets_limit_repeated :
    let a : Expr := .ofColumn ⟨["a"]⟩
    let elements : List GroupingElement := List.replicate 17 (.cube .unknown [a])
    let elementSets : List (List GroupingSet) := List.replicate 17 [[], [a]]
    elements.mapM GroupingElement.groupingSets = .ok elementSets ∧
      limit < (elementSets.map List.length).prod ∧
      (GroupBy.mk .unknown elements).groupingSets = .ok [[], [a]] := by
  intro a elements elementSets
  have cube : (GroupingElement.cube .unknown [a]).groupingSets = .ok [[], [a]] := rfl
  have distinct : ∀ set ∈ [[], [a]], Distinct set := by
    simp [Distinct, keys]
  have first : combine [[]] [[], [a]] = .ok [[], [a]] :=
    combine_of_le (by decide) distinct_of_mem_start
  have again : combine [[], [a]] [[], [a]] = .ok [[], [a]] := combine_of_le (by decide) distinct
  have unchanged (n : Nat) :
      combineAll [[], [a]] (List.replicate n (.cube .unknown [a])) = .ok [[], [a]] := by
    induction n with
    | zero => rfl
    | succ n ih => rw [List.replicate_succ, combineAll_of_ok cube again, ih]
  refine ⟨rfl, by decide, ?_⟩
  exact (combineAll_of_ok cube first _).trans (unchanged 16)

end SqlTree.GroupBy
