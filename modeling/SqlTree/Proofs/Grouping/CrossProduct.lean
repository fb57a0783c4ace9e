import SqlTree.Proofs.Grouping.Dedup

/-!
# Grouping sets as a cross product

A clause stands for the unions of one set from each of its elements. Its sets are combined element
by element, and repeated ones are dropped after each step; dropping them only once, at the end,
gives the same sets in the same order.
-/

namespace SqlTree

/-! ## Dropping repeated beginnings -/

namespace GroupingSet

/-- If equal sets are continued by equal ones, it does not matter whether repeated sets are dropped
before they are continued. -/
theorem firstsAfter_flatMap {f : GroupingSet → List GroupingSet}
    (f_congr : ∀ {a b}, equal a b = true → ∀ s ∈ f b, (f a).any (·.equal s) = true) :
    ∀ {sets earlier continued : List GroupingSet},
      (∀ a, earlier.any (·.equal a) = true → ∀ s ∈ f a, continued.any (·.equal s) = true) →
      firstsAfter continued (sets.flatMap f) =
        firstsAfter continued ((firstsAfter earlier sets).flatMap f)
  | [], _, _, _ => rfl
  | set :: sets, earlier, continued, h => by
    rw [List.flatMap_cons, firstsAfter_append, firstsAfter]
    -- what a repeated set continues to, the set that it repeats has already continued to
    by_cases met : earlier.any (·.equal set) = true
    · have known := h set met
      have same : ∀ s, ((f set).reverse ++ continued).any (·.equal s) =
          continued.any (·.equal s) := by
        intro s
        rw [List.any_append, Bool.or_eq_right_iff_imp, List.any_reverse]
        intro hs
        obtain ⟨t, ht, eq⟩ := List.any_eq_true.mp hs
        rw [← any_equal_congr eq]
        exact known t ht
      rw [if_pos met, firstsAfter_eq_nil known, List.nil_append, firstsAfter_congr _ same]
      apply firstsAfter_flatMap f_congr
      intro a ha s hs
      rw [List.any_cons, Bool.or_eq_true] at ha
      rcases ha with eq | ha
      · exact h a (by rwa [← any_equal_congr eq]) s hs
      · exact h a ha s hs
    · rw [if_neg met, List.flatMap_cons, firstsAfter_append]
      congr 1
      apply firstsAfter_flatMap f_congr
      intro a ha s hs
      rw [List.any_cons, Bool.or_eq_true] at ha
      rw [List.any_append, List.any_reverse, Bool.or_eq_true]
      exact ha.imp (fun eq => f_congr eq s hs) fun ha => h a ha s hs

theorem firsts_flatMap {f : GroupingSet → List GroupingSet}
    (f_congr : ∀ {a b}, equal a b = true → ∀ s ∈ f b, (f a).any (·.equal s) = true)
    (sets : List GroupingSet) : firsts ((firsts sets).flatMap f) = firsts (sets.flatMap f) :=
  (firstsAfter_flatMap f_congr fun _ h => Bool.noConfusion h).symm

end GroupingSet

/-! ## Combining the elements -/

namespace GroupBy

open GroupingSet

/-- All ways to choose one member of each list. The choice from the first list changes last. -/
def selections {α : Type} : List (List α) → List (List α)
  | [] => [[]]
  | choices :: rest => choices.flatMap fun a => (selections rest).map (a :: ·)

/-- The union of the sets, from left to right. -/
def unionAll (sets : List GroupingSet) : GroupingSet := sets.foldl GroupingSet.union []

/-- The set followed by one set of each list. -/
def continuations (rest : List (List GroupingSet)) (set : GroupingSet) : List GroupingSet :=
  (selections rest).map fun chosen => chosen.foldl GroupingSet.union set

theorem continuations_cons (sets : List GroupingSet) (rest : List (List GroupingSet))
    (set : GroupingSet) :
    continuations (sets :: rest) set = (sets.map set.union).flatMap (continuations rest) := by
  rw [continuations, selections, List.map_flatMap, List.flatMap_map]
  simp only [List.map_map]
  rfl

theorem foldl_union_congr : ∀ {chosen : List GroupingSet} {a b : GroupingSet},
    equal a b = true →
    equal (chosen.foldl GroupingSet.union a) (chosen.foldl GroupingSet.union b) = true
  | [], _, _, h => h
  | set :: chosen, a, b, h => by
    rw [List.foldl_cons, List.foldl_cons]
    exact foldl_union_congr (union_congr h set)

theorem continuations_congr (rest : List (List GroupingSet)) {a b : GroupingSet}
    (h : equal a b = true) :
    ∀ s ∈ continuations rest b, (continuations rest a).any (·.equal s) = true := by
  intro s hs
  obtain ⟨chosen, hc, rfl⟩ := List.mem_map.mp hs
  exact List.any_eq_true.mpr ⟨_, List.mem_map_of_mem hc, foldl_union_congr h⟩

theorem distinct_of_mem_unions {sets : List GroupingSet} (h : ∀ set ∈ sets, Distinct set)
    (more : List GroupingSet) :
    ∀ set ∈ sets.flatMap fun set => more.map set.union, Distinct set := by
  intro set hs
  obtain ⟨a, ha, hs⟩ := List.mem_flatMap.mp hs
  obtain ⟨b, -, rfl⟩ := List.mem_map.mp hs
  exact (h a ha).union b

/-- A step, when it succeeds, gives the different ones among the unions. -/
theorem combine_eq_firsts {sets more combined : List GroupingSet}
    (h : combine sets more = .ok combined) (hd : ∀ set ∈ sets, Distinct set) :
    combined = firsts (sets.flatMap fun set => more.map set.union) := by
  rw [combine] at h
  split at h
  · contradiction
  · rw [Except.ok.injEq] at h
    rw [← h]
    exact dedup_eq_firsts (distinct_of_mem_unions hd more)

theorem distinct_of_combine {sets more combined : List GroupingSet}
    (h : combine sets more = .ok combined) (hd : ∀ set ∈ sets, Distinct set) :
    ∀ set ∈ combined, Distinct set := by
  intro set hs
  rw [combine_eq_firsts h hd] at hs
  exact distinct_of_mem_unions hd more set (mem_of_mem_firstsAfter hs)

theorem combineAll_eq_firsts : ∀ {elements : List GroupingElement}
    {sets result : List GroupingSet}, combineAll sets elements = .ok result →
    (∀ set ∈ sets, Distinct set) → firsts sets = sets →
    ∃ elementSets, elements.mapM GroupingElement.groupingSets = .ok elementSets ∧
      result = firsts (sets.flatMap (continuations elementSets))
  | [], sets, result, h, _, hf => by
    rw [combineAll, Except.ok.injEq] at h
    refine ⟨[], rfl, ?_⟩
    have single : continuations [] = fun set => [set] := rfl
    rw [single, List.flatMap_singleton', hf, h]
  | element :: elements, sets, result, h, hd, _ => by
    rw [combineAll] at h
    cases hm : element.groupingSets with
    | error v =>
      rw [hm] at h
      contradiction
    | ok more =>
      rw [hm] at h
      cases hc : combine sets more with
      | error v =>
        have failed : (combine sets more >>= fun combined => combineAll combined elements) =
            .ok result := h
        rw [hc] at failed
        contradiction
      | ok combined =>
        have rest : combineAll combined elements = .ok result := by
          have passed : (combine sets more >>= fun combined => combineAll combined elements) =
              .ok result := h
          rwa [hc] at passed
        -- the step has dropped repeated unions, which would only be continued to repeated ones
        have unions := combine_eq_firsts hc hd
        obtain ⟨elementSets, hes, hr⟩ := combineAll_eq_firsts rest (distinct_of_combine hc hd)
          (by rw [unions, firsts_firsts])
        refine ⟨more :: elementSets, ?_, ?_⟩
        · rw [List.mapM_cons, hm, hes]
          rfl
        · rw [hr, unions, firsts_flatMap (continuations_congr elementSets), List.flatMap_assoc]
          congr 2
          funext set
          rw [continuations_cons]

theorem distinct_of_mem_start : ∀ set ∈ ([[]] : List GroupingSet), Distinct set :=
  List.forall_mem_singleton.mpr .nil

theorem groupingSets_eq_firsts {g : GroupBy} {sets : List GroupingSet}
    (h : g.groupingSets = .ok sets) :
    ∃ elementSets, g.elements.mapM GroupingElement.groupingSets = .ok elementSets ∧
      sets = firsts ((selections elementSets).map unionAll) := by
  obtain ⟨elementSets, hes, hr⟩ := combineAll_eq_firsts h distinct_of_mem_start rfl
  rw [List.flatMap_singleton] at hr
  exact ⟨elementSets, hes, hr⟩

/-- Without a set from one of the lists there is nothing to choose. -/
theorem selections_eq_nil {α : Type} : ∀ {lists : List (List α)}, [] ∈ lists → selections lists = []
  | choices :: rest, h => by
    rw [selections, List.flatMap_eq_nil_iff]
    intro a ha
    rcases List.mem_cons.mp h with rfl | h
    · exact absurd ha List.not_mem_nil
    · rw [selections_eq_nil h, List.map_nil]

/-- The sets of a clause are the unions of all choices of one set from each element, in the order of
the choices, without those that equal an earlier one. -/
theorem groupingSets_eq_crossProduct {g : GroupBy} {sets : List GroupingSet}
    (h : g.groupingSets = .ok sets) :
    ∃ elementSets, g.elements.mapM GroupingElement.groupingSets = .ok elementSets ∧
      sets = firsts ((selections elementSets).map unionAll) ∧
      (g.elements = [] → sets = [[]]) ∧
      ([] ∈ elementSets → sets = []) := by
  have distinct : ∀ set ∈ ([[]] : List GroupingSet), Distinct set := by
    intro set hs
    rw [List.mem_singleton.mp hs]
    exact Distinct.nil
  obtain ⟨elementSets, hes, hr⟩ := combineAll_eq_firsts h distinct rfl
  rw [List.flatMap_singleton] at hr
  refine ⟨elementSets, hes, hr, ?_, ?_⟩
  · intro none
    rw [none] at hes
    obtain rfl := Except.ok.inj hes
    exact hr
  · intro empty
    rw [hr, continuations, selections_eq_nil empty]
    rfl

/-- Of two equal unions the first one stays, with its order and its instances of the columns. -/
theorem groupingSets_crossProduct_overlap :
    let a : Expr := .column (.of 1 1) ⟨["a"]⟩
    let b : Expr := .column (.of 1 3) ⟨["b"]⟩
    let a' : Expr := .column (.of 2 1) ⟨["a"]⟩
    let b' : Expr := .column (.of 2 3) ⟨["b"]⟩
    let g : GroupBy := ⟨.unknown, [.sets .unknown [[a], [b]], .simple .unknown [b', a']]⟩
    g.groupingSets = .ok [[a, b']] ∧
      ∃ elementSets, g.elements.mapM GroupingElement.groupingSets = .ok elementSets ∧
        [[a, b']] = firsts ((selections elementSets).map unionAll) := by
  intro a b a' b' g
  have columns : ∀ sets ∈ [[a], [b], [a, b'], [b, a']], Distinct sets := by
    simp [Distinct, keys, Expr.canonical, a, b, a', b']
  have sets : (GroupingElement.sets .unknown [[a], [b]]).groupingSets = .ok [[a], [b]] := by
    show Except.ok (dedup [[a], [b]]) = _
    rw [dedup_eq_firsts fun set hs => columns set (List.mem_append_left [[a, b'], [b, a']] hs)]
    rfl
  have first : combine [[]] [[a], [b]] = .ok [[a], [b]] := by
    show Except.ok (dedup [[a], [b]]) = _
    rw [dedup_eq_firsts fun set hs => columns set (List.mem_append_left [[a, b'], [b, a']] hs)]
    rfl
  have second : combine [[a], [b]] [[b', a']] = .ok [[a, b']] := by
    show Except.ok (dedup [[a, b'], [b, a']]) = _
    rw [dedup_eq_firsts fun set hs => columns set (List.mem_append_right [[a], [b]] hs)]
    rfl
  have h : g.groupingSets = .ok [[a, b']] := by
    rw [groupingSets, combineAll, sets]
    show (do combineAll (← combine [[]] [[a], [b]]) [.simple .unknown [b', a']]) = _
    rw [first]
    show (do combineAll (← combine [[a], [b]] [[b', a']]) []) = _
    rw [second]
    rfl
  obtain ⟨elementSets, he, hr, -⟩ := groupingSets_eq_crossProduct h
  exact ⟨h, elementSets, he, hr⟩

end GroupBy

end SqlTree
