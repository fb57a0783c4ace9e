import Mathlib.Algebra.Group.Nat.Defs
import Mathlib.Data.List.Induction
import Mathlib.Data.Nat.Init
import SqlTree.Proofs.Checked
import SqlTree.Proofs.Grouping.Dedup

/-!
# The sets of a `CUBE`

A `CUBE` stands for all choices among its distinct columns, in the order of counting: the choice at
a place has the columns whose bits are set in the number of the place. As its columns are distinct,
no two choices are equal, and each set of its columns is chosen once.
-/

namespace SqlTree

namespace GroupingSet

variable {columns : List Expr}

/-! ## Choices by number -/

/-- The columns whose bits are set in the number; the first column has the lowest bit. -/
def selected (columns : List Expr) (number : Nat) : GroupingSet :=
  (columns.zipIdx.filter fun p => number.testBit p.2).map Prod.fst

theorem selected_append (columns : List Expr) (column : Expr) (number : Nat) :
    selected (columns ++ [column]) number =
      selected columns number ++ if number.testBit columns.length then [column] else [] := by
  rw [selected, List.zipIdx_append, List.filter_append, List.map_append, ← selected, Nat.zero_add]
  congr 1
  cases set : number.testBit columns.length <;> simp [set]

/-- Higher bits select nothing. -/
theorem selected_add (columns : List Expr) (number : Nat) :
    selected columns (2 ^ columns.length + number) = selected columns number := by
  rw [selected, selected]
  congr 1
  apply List.filter_congr
  intro p hp
  exact Nat.testBit_two_pow_add_gt (List.snd_lt_of_mem_zipIdx hp) number

theorem choices_append (columns : List Expr) (column : Expr) :
    choices (columns ++ [column]) = choices columns ++ (choices columns).map (· ++ [column]) := by
  rw [choices, List.foldl_append]
  rfl

/-- The choices come in the order of counting. -/
theorem choices_eq_map_selected (columns : List Expr) :
    choices columns = (List.range (2 ^ columns.length)).map (selected columns) := by
  induction columns using List.reverseRecOn with
  | nil => rfl
  | append_singleton columns column ih =>
    -- the numbers without the highest bit choose without the last column, the others with it
    have without : ∀ i ∈ List.range (2 ^ columns.length),
        selected (columns ++ [column]) i = selected columns i := by
      intro i hi
      rw [selected_append, Nat.testBit_lt_two_pow (List.mem_range.mp hi)]
      exact List.append_nil _
    have withLast : ∀ i ∈ List.range (2 ^ columns.length),
        selected (columns ++ [column]) (2 ^ columns.length + i) =
          selected columns i ++ [column] := by
      intro i hi
      rw [selected_append, selected_add, Nat.testBit_two_pow_add_eq,
        Nat.testBit_lt_two_pow (List.mem_range.mp hi)]
      rfl
    rw [choices_append, ih, List.length_append, List.length_singleton, Nat.two_pow_succ,
      List.range_add, List.map_append, List.map_map, List.map_map]
    congr 1
    · exact (List.map_congr_left without).symm
    · exact (List.map_congr_left withLast).symm

/-! ## No choice comes twice, and none is missing -/

theorem mem_keys_selected {number : Nat} {x : Expr} :
    x ∈ (selected columns number).keys ↔
      ∃ k, number.testBit k = true ∧ (keys columns)[k]? = some x := by
  simp only [keys, selected, List.mem_map, List.mem_filter, List.mem_zipIdx_iff_getElem?,
    List.getElem?_map, Option.map_eq_some_iff, Prod.exists]
  constructor
  · rintro ⟨c, ⟨c', k, ⟨hc, set⟩, rfl⟩, rfl⟩
    exact ⟨k, set, c', hc, rfl⟩
  · rintro ⟨k, set, c, hc, rfl⟩
    exact ⟨c, ⟨c, k, ⟨hc, set⟩, rfl⟩, rfl⟩

/-- Equal choices among distinct columns have equal bits. -/
theorem testBit_eq_of_equal_selected (h : Distinct columns) {i j : Nat}
    (eq : equal (selected columns i) (selected columns j) = true) {k : Nat}
    (hk : k < columns.length) : i.testBit k = j.testBit k := by
  have place : k < (keys columns).length := by rwa [keys, List.length_map]
  have chosen (number : Nat) :
      (keys columns)[k] ∈ (selected columns number).keys ↔ number.testBit k = true := by
    rw [mem_keys_selected]
    constructor
    · rintro ⟨k', set, hk'⟩
      obtain ⟨place', same⟩ := List.getElem?_eq_some_iff.mp hk'
      rwa [← (List.Nodup.getElem_inj_iff h).mp same]
    · exact fun set => ⟨k, set, List.getElem?_eq_getElem place⟩
  rw [Bool.eq_iff_iff, ← chosen, ← chosen]
  exact equal_iff.mp eq _

theorem pairwise_choices (h : Distinct columns) :
    (choices columns).Pairwise fun a b => ¬ a.equal b = true := by
  rw [choices_eq_map_selected, List.pairwise_map]
  refine List.pairwise_lt_range.imp_of_mem ?_
  intro i j hi hj less eq
  refine Nat.ne_of_lt less (Nat.eq_of_testBit_eq fun k => ?_)
  by_cases hk : k < columns.length
  · exact testBit_eq_of_equal_selected h eq hk
  · -- there are no bits beyond those of the columns
    have bound {i : Nat} (hi : i ∈ List.range (2 ^ columns.length)) : i < 2 ^ k :=
      Nat.lt_of_lt_of_le (List.mem_range.mp hi) (Nat.pow_le_pow_right (by decide) (by omega))
    rw [Nat.testBit_lt_two_pow (bound hi), Nat.testBit_lt_two_pow (bound hj)]

/-- Every set of some of the columns is chosen. -/
theorem exists_equal_choice {subset : GroupingSet}
    (h : ∀ c ∈ subset, columns.contains c = true) :
    ∃ choice ∈ choices columns, choice.equal subset = true := by
  -- the number has the bits of the columns that are wanted
  let number := Nat.ofBits fun k : Fin columns.length => subset.contains columns[k]
  have set {k : Nat} : number.testBit k = true ↔
      ∃ hk : k < columns.length, subset.contains columns[k] = true := by
    rw [Nat.testBit_ofBits]
    by_cases hk : k < columns.length <;> simp [hk]
  refine ⟨selected columns number, ?_, ?_⟩
  · rw [choices_eq_map_selected]
    exact List.mem_map_of_mem (List.mem_range.mpr (Nat.ofBits_lt_two_pow _))
  · rw [equal_iff]
    intro x
    rw [mem_keys_selected]
    simp only [set, keys, List.getElem?_map, Option.map_eq_some_iff]
    constructor
    · rintro ⟨k, ⟨hk, wanted⟩, c, hc, rfl⟩
      rw [List.getElem?_eq_getElem hk, Option.some_inj] at hc
      rw [← hc]
      exact contains_iff.mp wanted
    · intro hx
      obtain ⟨c, hc, rfl⟩ := List.mem_map.mp hx
      obtain ⟨c', hc', same⟩ := List.mem_map.mp (contains_iff.mp (h c hc))
      obtain ⟨k, hk, rfl⟩ := List.getElem_of_mem hc'
      refine ⟨k, ⟨hk, ?_⟩, columns[k], List.getElem?_eq_getElem hk, same⟩
      rw [contains_iff, same]
      exact List.mem_map_of_mem hc

end GroupingSet

namespace GroupingElement

open GroupingSet

/-- A `CUBE` of any columns that its constructor accepts, wherever it stands, stands for all choices
among its distinct columns. The set at a place has the columns whose bits are set in the number of
the place. No two sets are equal, and each set of some of the columns is exactly one of them. -/
theorem groupingSets_cube {columns : List Expr} {cube : GroupingElement}
    (built : cubeOf columns = .ok cube) (location : Location) :
    ∃ sets, (cube.withLocation location).groupingSets = .ok sets ∧
      sets.length = 2 ^ columns.eraseDups.length ∧
      (∀ (i : Nat) (h : i < sets.length), sets[i] = selected columns.eraseDups i) ∧
      (sets.Pairwise fun a b => ¬ a.equal b = true) ∧
      ∀ subset : GroupingSet, (∀ c ∈ subset, columns.eraseDups.contains c = true) →
        sets.countP subset.equal = 1 := by
  obtain ⟨rfl, few⟩ := cubeOf_eq_ok.mp built
  have enumerated : ((cube .unknown columns).withLocation location).groupingSets =
      .ok (choices (GroupingSet.of columns)) := by
    show (cubeColumns columns).map _ = _
    simp only [cubeColumns, if_neg (Nat.not_lt.mpr few)]
    rfl
  have differ := pairwise_choices (Distinct.of columns)
  rw [of_eq_eraseDups] at enumerated differ
  refine ⟨_, enumerated, ?_, ?_, differ, ?_⟩
  · rw [choices_eq_map_selected, List.length_map, List.length_range]
  · intro i _
    simp only [choices_eq_map_selected, List.getElem_map, List.getElem_range]
  · intro subset among
    obtain ⟨choice, hc, eq⟩ := exists_equal_choice among
    exact countP_equal differ hc (equal_symm eq)

/-- Of a column that is given twice the first instance stays, at its place. -/
theorem groupingSets_cube_repeated :
    let b : Expr := .column (.of 1 1) ⟨["b"]⟩
    let a : Expr := .column (.of 1 4) ⟨["a"]⟩
    let b' : Expr := .column (.of 1 7) ⟨["b"]⟩
    let cube : GroupingElement := .cube .unknown [b, a, b']
    let sets : List GroupingSet := [[], [b], [a], [b, a]]
    cubeOf [b, a, b'] = .ok cube ∧ (cube.withLocation (.of 1 0)).groupingSets = .ok sets ∧
      sets.length = 2 ^ [b, a, b'].eraseDups.length ∧
      (∀ (i : Nat) (h : i < sets.length), sets[i] = selected [b, a, b'].eraseDups i) ∧
      (sets.Pairwise fun a b => ¬ a.equal b = true) ∧
      ∀ subset : GroupingSet, (∀ c ∈ subset, [b, a, b'].eraseDups.contains c = true) →
        sets.countP subset.equal = 1 := by
  intro b a b' cube sets
  have built : cubeOf [b, a, b'] = .ok cube := rfl
  have enumerated : (cube.withLocation (.of 1 0)).groupingSets = .ok sets := rfl
  obtain ⟨given, same, rest⟩ := groupingSets_cube built (.of 1 0)
  obtain rfl := Except.ok.inj (enumerated.symm.trans same)
  exact ⟨built, enumerated, rest⟩

end GroupingElement

end SqlTree
