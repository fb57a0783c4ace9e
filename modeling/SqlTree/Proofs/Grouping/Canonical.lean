import SqlTree.Proofs.Except
import SqlTree.Proofs.Grouping.CrossProduct
import SqlTree.Proofs.Node.Same

/-!
# Grouping sets of canonical clauses

The sets that a clause in canonical form stands for are the canonical forms of the sets that the
clause stands for, in the same order and with their columns in the same order; and if the one stands
for too many sets, so does the other. Hence clauses that are the same stand for the same sets.
-/

namespace SqlTree

namespace GroupingSet

variable {a b : GroupingSet}

@[simp]
theorem keys_keys (a : GroupingSet) : keys (keys a) = keys a := by
  simp [keys]

/-! ## Adding columns -/

theorem keys_insert (a : GroupingSet) (column : Expr) :
    (a.insert column).keys = insert (keys a) column.canonical := by
  have known : column.canonical.canonical ∈ keys (keys a) ↔ column.canonical ∈ keys a := by
    rw [column.canonical_canonical, keys_keys]
  by_cases h : column.canonical ∈ keys a
  · rw [insert_of_mem h, insert_of_mem (known.mpr h)]
  · rw [insert_of_not_mem h, insert_of_not_mem (h ∘ known.mp), keys, List.map_append]
    rfl

theorem keys_union (columns : List Expr) (a : GroupingSet) :
    (a.union columns).keys = union (keys a) (columns.map Expr.canonical) := by
  induction columns generalizing a with
  | nil => rfl
  | cons column columns ih =>
    show ((a.insert column).union columns).keys = _
    rw [ih, keys_insert]
    rfl

theorem keys_of (columns : List Expr) : keys (of columns) = of (columns.map Expr.canonical) :=
  keys_union columns []

theorem map_keys_growing (columns : List Expr) (a : GroupingSet) :
    (growing a columns).map keys = growing (keys a) (columns.map Expr.canonical) := by
  induction columns generalizing a with
  | nil => rfl
  | cons column columns ih =>
    rw [growing, List.map_cons, ih, keys_insert]
    rfl

theorem map_keys_choices (columns : List Expr) :
    (choices columns).map keys = choices (columns.map Expr.canonical) := by
  -- a column is added to every choice among the ones before it, whatever these are
  have step : ∀ sets : List GroupingSet,
      (columns.foldl (fun sets c => sets ++ sets.map (· ++ [c])) sets).map keys =
        (columns.map Expr.canonical).foldl (fun sets c => sets ++ sets.map (· ++ [c]))
          (sets.map keys) := by
    induction columns with
    | nil => exact fun _ => rfl
    | cons column columns ih =>
      intro sets
      rw [List.foldl_cons, ih, List.map_cons, List.foldl_cons]
      congr 1
      simp [keys, Function.comp_def]
  exact step [[]]

/-! ## Dropping repeated sets -/

theorem equal_keys (a b : GroupingSet) : equal (keys a) (keys b) = equal a b := by
  rw [Bool.eq_iff_iff, equal_iff, equal_iff, keys_keys, keys_keys]

theorem Distinct.of_keys (h : Distinct a) : Distinct (keys a) := by
  rwa [Distinct, keys_keys]

theorem map_keys_firstsAfter (sets earlier : List GroupingSet) :
    (firstsAfter earlier sets).map keys = firstsAfter (earlier.map keys) (sets.map keys) := by
  induction sets generalizing earlier with
  | nil => rfl
  | cons set sets ih =>
    have met : (earlier.map keys).any (equal · (keys set)) = earlier.any (·.equal set) := by
      rw [List.any_map]
      simp only [Function.comp_def, equal_keys]
    rw [firstsAfter, List.map_cons, firstsAfter, met, ← List.map_cons, ← ih]
    split
    · rfl
    · rfl

theorem map_keys_dedup {sets : List GroupingSet} (h : ∀ set ∈ sets, Distinct set) :
    (dedup sets).map keys = dedup (sets.map keys) := by
  have distinct : ∀ set ∈ sets.map keys, Distinct set :=
    List.forall_mem_map.mpr fun set hs => (h set hs).of_keys
  rw [dedup_eq_firsts h, dedup_eq_firsts distinct]
  exact map_keys_firstsAfter sets []

end GroupingSet

open GroupingSet

/-! ## Elements and clauses -/

theorem Expr.revise_canonical_eq : Expr.revise .canonical = Expr.canonical :=
  funext Expr.revise_canonical

namespace GroupingElement

theorem cubeColumns_canonical (columns : List Expr) :
    cubeColumns (columns.map Expr.canonical) =
      (cubeColumns columns).map (List.map Expr.canonical) := by
  have count : (GroupingSet.of (columns.map Expr.canonical)).length =
      (GroupingSet.of columns).length := by
    rw [← keys_of, keys, List.length_map]
  simp only [cubeColumns, count]
  split <;> rfl

theorem groupingSets_canonical (g : GroupingElement) :
    (g.revise .canonical).groupingSets = g.groupingSets.map (List.map keys) := by
  cases g with
  | simple l cs =>
    simp only [revise, groupingSets, Expr.revise_canonical_eq, ← keys_of]
    rfl
  | rollup l cs =>
    have distinct : ∀ set ∈ (growing [] cs).reverse, Distinct set := fun set hs =>
      distinct_of_mem_growing .nil (List.mem_reverse.mp hs)
    simp only [revise, groupingSets, Expr.revise_canonical_eq, Except.map]
    rw [map_keys_dedup distinct, List.map_reverse, map_keys_growing]
    rfl
  | cube l cs =>
    simp only [revise, groupingSets, Expr.revise_canonical_eq, cubeColumns_canonical]
    cases cubeColumns cs with
    | error v => rfl
    | ok columns =>
      show Except.ok (choices (GroupingSet.of (columns.map Expr.canonical))) =
        .ok ((choices (GroupingSet.of columns)).map keys)
      rw [map_keys_choices, ← keys_of]
      rfl
  | sets l ss =>
    have distinct : ∀ set ∈ ss.map GroupingSet.of, Distinct set :=
      List.forall_mem_map.mpr fun columns _ => Distinct.of columns
    simp only [revise, groupingSets, Expr.revise_canonical_eq, Except.map]
    rw [map_keys_dedup distinct, List.map_map, List.map_map]
    simp only [Function.comp_def, keys_of]

end GroupingElement

namespace GroupBy

theorem combine_canonical {sets : List GroupingSet} (h : ∀ set ∈ sets, Distinct set)
    (more : List GroupingSet) :
    combine (sets.map keys) (more.map keys) = (combine sets more).map (List.map keys) := by
  have unions : (sets.map keys).flatMap (fun a => (more.map keys).map (GroupingSet.union a)) =
      (sets.flatMap fun a => more.map a.union).map keys := by
    rw [List.flatMap_map, List.map_flatMap]
    simp only [List.map_map, Function.comp_def, keys_union]
    rfl
  rw [combine, combine, List.length_map, List.length_map, unions,
    ← map_keys_dedup (distinct_of_mem_unions h more)]
  split <;> rfl

theorem combineAll_canonical (elements : List GroupingElement) {sets : List GroupingSet}
    (h : ∀ set ∈ sets, Distinct set) :
    combineAll (sets.map keys) (elements.map (GroupingElement.revise .canonical)) =
      (combineAll sets elements).map (List.map keys) := by
  induction elements generalizing sets with
  | nil => rfl
  | cons element elements ih =>
    rw [List.map_cons, combineAll, combineAll, element.groupingSets_canonical]
    cases element.groupingSets with
    | error v => rfl
    | ok more =>
      show (do combineAll (← combine (sets.map keys) (more.map keys)) _) =
        Except.map _ (do combineAll (← combine sets more) elements)
      rw [combine_canonical h]
      cases combined : combine sets more with
      | error v => rfl
      | ok unions => exact ih (distinct_of_combine combined h)

theorem groupingSets_canonical (g : GroupBy) :
    (g.revise .canonical).groupingSets = g.groupingSets.map (List.map keys) :=
  combineAll_canonical g.elements distinct_of_mem_start

end GroupBy

/-! ## Clauses that are the same -/

namespace GroupingSet

/-- The sets are equal, and so are the columns that stand at the same place in them. -/
structure Corresponds (a b : GroupingSet) : Prop where
  equal : a.same b = true
  columns : List.Forall₂ (fun c c' => (c == c') = true) a b

theorem corresponds_of_keys_eq {a b : GroupingSet} (h : keys a = keys b) : a.Corresponds b := by
  constructor
  · have length := congrArg List.length h
    rw [keys, keys, List.length_map, List.length_map] at length
    rw [same, Bool.and_eq_true, beq_iff_eq, List.all_eq_true]
    refine ⟨length, fun c hc => ?_⟩
    rw [contains_iff, ← h]
    exact List.mem_map_of_mem hc
  · simp only [Expr.beq_iff]
    exact forall₂_iff_map_eq.mpr h

/-- Outcomes with equal canonical forms agree. -/
theorem agree_of_map_keys_eq {x y : Except Violation (List GroupingSet)}
    (h : x.map (List.map keys) = y.map (List.map keys)) :
    Except.Agree (List.Forall₂ Corresponds) x y := by
  refine (Except.Agree.of_map_eq h).mono fun sets sets' same => ?_
  exact (forall₂_iff_map_eq.mpr same).imp fun _ _ => corresponds_of_keys_eq

end GroupingSet

/-- Elements that are the same, and clauses that are the same, both stand for too many sets or for
equally many. In the latter case the sets at the same place are equal, and so are the columns at the
same place in them. -/
theorem groupingSets_congr :
    (∀ a b : GroupingElement, (a == b) = true →
      Except.Agree (List.Forall₂ GroupingSet.Corresponds) a.groupingSets b.groupingSets) ∧
    ∀ a b : GroupBy, (a == b) = true →
      Except.Agree (List.Forall₂ GroupingSet.Corresponds) a.groupingSets b.groupingSets := by
  constructor
  · intro a b same
    apply agree_of_map_keys_eq
    rw [← a.groupingSets_canonical, GroupingElement.same_iff.mp same, b.groupingSets_canonical]
  · intro a b same
    apply agree_of_map_keys_eq
    rw [← a.groupingSets_canonical, GroupBy.same_iff.mp same, b.groupingSets_canonical]

/-- Zero with a sign and zero without one are one column of a `CUBE`, which is kept as it came
first. -/
theorem groupingSets_congr_zeros :
    let zero : Expr := .literal (.of 1 7) (.double .zero)
    let minusZero : Expr := .literal (.of 2 9) (.double ⟨0x8000000000000000⟩)
    let a : GroupingElement := .cube (.of 1 1) [zero, minusZero]
    let b : GroupingElement := .cube .unknown [minusZero, zero]
    (a == b) = true ∧ a.groupingSets = .ok [[], [zero]] ∧ b.groupingSets = .ok [[], [minusZero]] ∧
      Except.Agree (List.Forall₂ GroupingSet.Corresponds) a.groupingSets b.groupingSets ∧
      Except.Agree (List.Forall₂ GroupingSet.Corresponds) (GroupBy.mk .unknown [a, a]).groupingSets
        (GroupBy.mk (.of 3 1) [b, a]).groupingSets := by
  intro zero minusZero a b
  have elements : (a == b) = true := by decide
  have clauses : (GroupBy.mk .unknown [a, a] == ⟨.of 3 1, [b, a]⟩) = true := by decide
  exact ⟨elements, rfl, rfl, groupingSets_congr.1 a b elements, groupingSets_congr.2 _ _ clauses⟩

end SqlTree
