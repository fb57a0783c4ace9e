import SqlTree.Proofs.Grouping.Dedup

/-!
# The sets of a `ROLLUP`

A `ROLLUP` stands for the sets of all beginnings of its columns, the longest first. A column that
was given before adds nothing, so the set before it comes twice and the second is dropped: what is
left are the beginnings of the distinct columns, each of them once.
-/

namespace SqlTree

namespace GroupingSet

variable {columns : List Expr} {set : GroupingSet}

theorem inits_eq_map_take {α : Type} (as : List α) :
    as.inits = (List.range (as.length + 1)).map as.take := by
  apply List.ext_getElem
  · rw [List.length_inits, List.length_map, List.length_range]
  · intro k _ _
    rw [List.getElem_inits, List.getElem_map, List.getElem_range]

theorem drop_inits {α : Type} {as bs : List α} (h : as <+: bs) :
    bs.inits.drop as.length = as :: bs.inits.drop (as.length + 1) := by
  have place : as.length < bs.inits.length := by
    rw [List.length_inits]
    exact Nat.lt_succ_of_le h.length_le
  rw [List.drop_eq_getElem_cons place, List.getElem_inits, ← List.prefix_iff_eq_take.mp h]

theorem prefix_union (set : GroupingSet) (columns : List Expr) : set <+: set.union columns := by
  rw [union_eq_append]
  exact List.prefix_append set _

/-! ## Growing column by column -/

/-- A set that grows from one without `column` to one with it is never equal to the former again. -/
theorem not_equal_of_mem_growing {column : Expr} {grown : GroupingSet}
    (new : column.canonical ∉ set.keys) (h : grown ∈ growing (set.insert column) columns) :
    ¬ grown.equal set = true := by
  rw [growing_eq_map_union] at h
  obtain ⟨beginning, -, rfl⟩ := List.mem_map.mp h
  intro eq
  apply new
  rw [← equal_iff.mp eq, mem_keys_union, mem_keys_insert]
  exact .inl (.inr rfl)

/-- Of the sets that one grows through, the longest first, those are left that are longer than the
one before them, and the first. -/
theorem firsts_reverse_growing (columns : List Expr) (set : GroupingSet) :
    firsts (growing set columns).reverse =
      ((set.union columns).inits.drop set.length).reverse := by
  induction columns generalizing set with
  | nil =>
    rw [drop_inits (prefix_union set []), union, List.foldl_nil, List.drop_eq_nil_of_le]
    · rfl
    · rw [List.length_inits]
  | cons column columns ih =>
    have last : firsts (growing set (column :: columns)).reverse =
        firsts (growing (set.insert column) columns).reverse ++
          firstsAfter (growing (set.insert column) columns) [set] := by
      rw [growing, List.reverse_cons, firsts, firstsAfter_append, List.reverse_reverse,
        List.append_nil, firsts]
    have union : set.union (column :: columns) = (set.insert column).union columns := rfl
    rw [last, ih, union]
    by_cases known : column.canonical ∈ set.keys
    · -- the set does not grow, and has come before
      have again : (growing set columns).any (·.equal set) = true := by
        rw [growing_eq_map_union, List.any_map]
        exact List.any_eq_true.mpr ⟨[], by simp, equal_refl set⟩
      rw [insert_of_mem known, firstsAfter, if_pos again]
      exact List.append_nil _
    · have unmet : ¬ (growing (set.insert column) columns).any (·.equal set) = true := by
        rw [List.any_eq_true]
        rintro ⟨grown, h, eq⟩
        exact not_equal_of_mem_growing known h eq
      have longer : (set.insert column).length = set.length + 1 := by
        rw [insert_of_not_mem known, List.length_append, List.length_singleton]
      have start : set <+: (set.insert column).union columns := union ▸ prefix_union set _
      rw [firstsAfter, if_neg unmet, drop_inits start, List.reverse_cons, longer]
      rfl

/-- Fewer of distinct columns are another set. -/
theorem not_equal_take (h : Distinct columns) {i j : Nat} (less : i < j)
    (bound : j ≤ columns.length) : ¬ equal (columns.take j) (columns.take i) = true := by
  have distinct (k : Nat) : Distinct (columns.take k) :=
    h.sublist ((List.take_sublist k columns).map Expr.canonical)
  intro eq
  have length := (perm_of_equal (distinct j) (distinct i) eq).length_eq
  simp only [keys, List.length_map, List.length_take] at length
  omega

end GroupingSet

namespace GroupingElement

open GroupingSet

/-- A `ROLLUP` of any columns, wherever it stands, stands for the beginnings of its distinct columns
and nothing else: for all of these columns, then for all but the last one, and so on down to the
empty set. Each set is a beginning of those before it and has fewer columns. -/
theorem groupingSets_rollup (location : Location) (columns : List Expr) :
    let distinct := columns.eraseDups
    let sets : List GroupingSet := (List.range (distinct.length + 1)).reverse.map distinct.take
    (rollup location columns).groupingSets = .ok sets ∧
      sets.length = distinct.length + 1 ∧
      (sets.Pairwise fun a b => b <+: a ∧ ¬ equal a b = true) ∧
      sets.getLast? = some [] := by
  intro distinct sets
  have all : ∀ set ∈ (growing [] columns).reverse, Distinct set := by
    intro set hs
    exact distinct_of_mem_growing .nil (List.mem_reverse.mp hs)
  have enumerated : dedup (growing [] columns).reverse = sets := by
    rw [dedup_eq_firsts all, firsts_reverse_growing, List.length_nil, List.drop_zero, ← of,
      of_eq_eraseDups, inits_eq_map_take, ← List.map_reverse]
  refine ⟨congrArg Except.ok enumerated, ?_, ?_, ?_⟩
  · rw [List.length_map, List.length_reverse, List.length_range]
  · have differ := Distinct.of columns
    rw [of_eq_eraseDups] at differ
    rw [List.pairwise_map, List.pairwise_reverse]
    refine List.pairwise_lt_range.imp_of_mem ?_
    intro i j _ hj less
    have bound := Nat.le_of_lt_succ (List.mem_range.mp hj)
    exact ⟨List.take_prefix_take_left (Nat.le_of_lt less), not_equal_take differ less bound⟩
  · rw [List.getLast?_map, List.getLast?_reverse, List.head?_range]
    rfl

/-- Columns that are given again add no sets, wherever they stand in the list. -/
theorem groupingSets_rollup_repeated :
    let a : Expr := .column (.of 1 9) ⟨["a"]⟩
    let a' : Expr := .column (.of 1 12) ⟨["a"]⟩
    let b : Expr := .column (.of 1 15) ⟨["b"]⟩
    let a'' : Expr := .column (.of 1 18) ⟨["a"]⟩
    let sets : List GroupingSet := [[a, b], [a], []]
    (rollup (.of 1 1) [a, a', b, a'']).groupingSets = .ok sets ∧
      (sets.Pairwise fun a b => b <+: a ∧ ¬ equal a b = true) := by
  intro a a' b a'' sets
  obtain ⟨enumerated, -, chain, -⟩ := groupingSets_rollup (.of 1 1) [a, a', b, a'']
  exact ⟨enumerated, chain⟩

end GroupingElement

end SqlTree
