import SqlTree.Proofs.Grouping.Sets

/-!
# Dropping repeated sets

Only sets of equal hash are compared when repeated sets are dropped. As equal sets have equal
hashes, what is kept is what a comparison with every earlier set would keep.
-/

namespace SqlTree.GroupingSet

/-- The sets that equal no earlier one, where the sets in `earlier` come before all. -/
def firstsAfter (earlier : List GroupingSet) : List GroupingSet → List GroupingSet
  | [] => []
  | set :: sets =>
    if earlier.any (·.equal set) then firstsAfter (set :: earlier) sets
    else set :: firstsAfter (set :: earlier) sets

/-- The sets without those that equal an earlier one. -/
def firsts (sets : List GroupingSet) : List GroupingSet := firstsAfter [] sets

variable {earlier : List GroupingSet}

theorem firstsAfter_cons (set : GroupingSet) (sets : List GroupingSet) :
    firstsAfter earlier (set :: sets) =
      if earlier.any (·.equal set) then firstsAfter (set :: earlier) sets
      else set :: firstsAfter (set :: earlier) sets :=
  rfl

/-! ## What came earlier -/

theorem any_equal_congr {a b : GroupingSet} (h : equal a b = true) :
    earlier.any (·.equal a) = earlier.any (·.equal b) := by
  have step : ∀ c : GroupingSet, c.equal a = c.equal b := by
    intro c
    rw [Bool.eq_iff_iff]
    exact ⟨fun hc => equal_trans hc h, fun hc => equal_trans hc (equal_symm h)⟩
  simp only [step]

/-- It only matters which sets have an equal among the earlier ones. -/
theorem firstsAfter_congr : ∀ (sets : List GroupingSet) {earlier earlier' : List GroupingSet},
    (∀ set, earlier.any (·.equal set) = earlier'.any (·.equal set)) →
    firstsAfter earlier sets = firstsAfter earlier' sets
  | [], _, _, _ => rfl
  | set :: sets, earlier, earlier', h => by
    have rest : firstsAfter (set :: earlier) sets = firstsAfter (set :: earlier') sets :=
      firstsAfter_congr sets fun t => by rw [List.any_cons, List.any_cons, h t]
    rw [firstsAfter_cons, firstsAfter_cons, h set, rest]

theorem firstsAfter_append (ys : List GroupingSet) : ∀ (earlier xs : List GroupingSet),
    firstsAfter earlier (xs ++ ys) =
      firstsAfter earlier xs ++ firstsAfter (xs.reverse ++ earlier) ys
  | _, [] => rfl
  | earlier, x :: xs => by
    rw [List.cons_append, firstsAfter_cons, firstsAfter_cons,
      firstsAfter_append ys (x :: earlier) xs]
    rw [List.reverse_cons, List.append_assoc, List.singleton_append]
    split
    · rfl
    · rfl

theorem firstsAfter_eq_nil : ∀ {earlier sets : List GroupingSet},
    (∀ set ∈ sets, earlier.any (·.equal set) = true) → firstsAfter earlier sets = []
  | _, [], _ => rfl
  | earlier, set :: sets, h => by
    rw [firstsAfter_cons, if_pos (h set List.mem_cons_self)]
    apply firstsAfter_eq_nil
    intro t ht
    rw [List.any_cons, h t (List.mem_cons_of_mem set ht), Bool.or_true]

theorem mem_of_mem_firstsAfter {set : GroupingSet} : ∀ {earlier sets : List GroupingSet},
    set ∈ firstsAfter earlier sets → set ∈ sets
  | _, x :: xs, h => by
    rw [firstsAfter_cons] at h
    split at h
    · exact List.mem_cons_of_mem x (mem_of_mem_firstsAfter h)
    · rcases List.mem_cons.mp h with rfl | h
      · exact List.mem_cons_self
      · exact List.mem_cons_of_mem x (mem_of_mem_firstsAfter h)

/-- Every set has an equal one among the earlier ones or among those that are kept. -/
theorem exists_equal_firstsAfter {set : GroupingSet} : ∀ (earlier : List GroupingSet)
    {sets : List GroupingSet}, set ∈ sets →
      earlier.any (·.equal set) = true ∨ ∃ t ∈ firstsAfter earlier sets, t.equal set = true
  | earlier, x :: xs, h => by
    rw [firstsAfter_cons]
    by_cases met : earlier.any (·.equal x) = true
    · rw [if_pos met]
      rcases List.mem_cons.mp h with rfl | h
      · exact .inl met
      · rcases exists_equal_firstsAfter (x :: earlier) h with known | kept
        · rw [List.any_cons, Bool.or_eq_true] at known
          rcases known with eq | known
          · exact .inl (any_equal_congr eq ▸ met)
          · exact .inl known
        · exact .inr kept
    · rw [if_neg met]
      rcases List.mem_cons.mp h with rfl | h
      · exact .inr ⟨set, List.mem_cons_self, equal_refl set⟩
      · rcases exists_equal_firstsAfter (x :: earlier) h with known | ⟨t, ht, eq⟩
        · rw [List.any_cons, Bool.or_eq_true] at known
          exact known.symm.imp_right fun eq => ⟨x, List.mem_cons_self, eq⟩
        · exact .inr ⟨t, List.mem_cons_of_mem x ht, eq⟩

theorem exists_equal_firsts {set : GroupingSet} {sets : List GroupingSet} (h : set ∈ sets) :
    ∃ t ∈ firsts sets, t.equal set = true :=
  (exists_equal_firstsAfter [] h).resolve_left Bool.false_ne_true

/-- What is kept equals nothing earlier. -/
theorem unmet_of_mem_firstsAfter {set : GroupingSet} : ∀ {earlier sets : List GroupingSet},
    set ∈ firstsAfter earlier sets → ¬ earlier.any (·.equal set) = true
  | earlier, x :: xs, h => by
    have later : set ∈ firstsAfter (x :: earlier) xs → ¬ earlier.any (·.equal set) = true := by
      intro h met
      exact unmet_of_mem_firstsAfter h (by rw [List.any_cons, met, Bool.or_true])
    rw [firstsAfter_cons] at h
    split at h
    case isTrue => exact later h
    case isFalse unmet =>
      rcases List.mem_cons.mp h with rfl | h
      · exact unmet
      · exact later h

/-- No two of the kept sets are equal. -/
theorem pairwise_firstsAfter : ∀ (sets earlier : List GroupingSet),
    (firstsAfter earlier sets).Pairwise fun a b => ¬ a.equal b = true
  | [], _ => .nil
  | x :: xs, earlier => by
    have rest := pairwise_firstsAfter xs (x :: earlier)
    rw [firstsAfter_cons]
    split
    · exact rest
    · refine .cons (fun t ht eq => ?_) rest
      exact unmet_of_mem_firstsAfter ht (by rw [List.any_cons, eq, Bool.true_or])

theorem firstsAfter_sublist : ∀ (sets earlier : List GroupingSet),
    (firstsAfter earlier sets).Sublist sets
  | [], _ => .slnil
  | x :: xs, earlier => by
    have rest := firstsAfter_sublist xs (x :: earlier)
    rw [firstsAfter_cons]
    split
    · exact rest.cons x
    · exact rest.cons_cons x

/-- Sets that equal nothing earlier and none of each other are all kept. -/
theorem firstsAfter_eq_self : ∀ {sets earlier : List GroupingSet},
    (∀ set ∈ sets, ¬ earlier.any (·.equal set) = true) →
    (sets.Pairwise fun a b => ¬ a.equal b = true) → firstsAfter earlier sets = sets
  | [], _, _, _ => rfl
  | x :: xs, earlier, unmet, differ => by
    rw [List.forall_mem_cons] at unmet
    rw [List.pairwise_cons] at differ
    rw [firstsAfter_cons, if_neg unmet.1, firstsAfter_eq_self ?_ differ.2]
    intro set hs met
    rw [List.any_cons, Bool.or_eq_true] at met
    exact met.elim (differ.1 set hs) (unmet.2 set hs)

theorem firsts_firsts (sets : List GroupingSet) : firsts (firsts sets) = firsts sets :=
  firstsAfter_eq_self (fun _ _ => Bool.false_ne_true) (pairwise_firstsAfter sets [])

/-- If no two members are equal, a set equals one of them at most. -/
theorem countP_equal {a b : GroupingSet} {sets : List GroupingSet}
    (distinct : sets.Pairwise fun s t => ¬ s.equal t = true) (hb : b ∈ sets)
    (h : a.equal b = true) : sets.countP a.equal = 1 := by
  induction distinct with
  | nil => exact absurd hb List.not_mem_nil
  | @cons s sets first rest ih =>
    rcases List.mem_cons.mp hb with rfl | hb
    · have others : sets.countP a.equal = 0 := by
        rw [List.countP_eq_zero]
        intro t ht eq
        exact first t ht (equal_trans (equal_symm h) eq)
      rw [List.countP_cons_of_pos h, others]
    · have differ : ¬ a.equal s = true := fun eq =>
        first b hb (equal_trans (equal_symm eq) h)
      rw [List.countP_cons_of_neg differ]
      exact ih hb

/-- What is kept, told by the places in the list: a set is kept if none before it equals it. -/
theorem firstsAfter_eq_filter : ∀ (sets earlier : List GroupingSet) (start : Nat),
    firstsAfter earlier sets = ((sets.zipIdx start).filter fun p =>
      !(earlier.any (·.equal p.1) || (sets.take (p.2 - start)).any (·.equal p.1))).map Prod.fst
  | [], _, _ => rfl
  | x :: xs, earlier, start => by
    have later : ∀ p ∈ xs.zipIdx (start + 1),
        (!((x :: earlier).any (·.equal p.1) || (xs.take (p.2 - (start + 1))).any (·.equal p.1))) =
          !(earlier.any (·.equal p.1) || ((x :: xs).take (p.2 - start)).any (·.equal p.1)) := by
      intro p hp
      have behind : p.2 - start = p.2 - (start + 1) + 1 := by
        have := List.le_snd_of_mem_zipIdx hp
        omega
      rw [behind, List.take_succ_cons, List.any_cons, List.any_cons, Bool.or_left_comm,
        Bool.or_assoc]
    have first : (x :: xs).take (start - start) = [] := by rw [Nat.sub_self, List.take_zero]
    rw [firstsAfter_cons, firstsAfter_eq_filter xs (x :: earlier) (start + 1), List.zipIdx_cons,
      List.filter_cons, List.filter_congr later, first, List.any_nil, Bool.or_false]
    cases earlier.any (·.equal x) <;> rfl

theorem firsts_eq_filter (sets : List GroupingSet) :
    firsts sets =
      (sets.zipIdx.filter fun p => !(sets.take p.2).any (·.equal p.1)).map Prod.fst :=
  firstsAfter_eq_filter sets [] 0

/-! ## Buckets -/

section Buckets

variable {columnHash : Expr → UInt64}

/-- The hash of a set is that of its canonical columns, in whatever order they are. -/
theorem hash_eq_of_equal
    (hash_congr : ∀ {a b : Expr}, (a == b) = true → columnHash a = columnHash b)
    {a b : GroupingSet} (ha : Distinct a) (hb : Distinct b) (h : equal a b = true) :
    hash columnHash a = hash columnHash b := by
  -- equal columns hash alike, so the hash is one of the canonical columns
  have factors : columnHash.FactorsThrough Expr.canonical := by
    intro a b h
    exact hash_congr (Expr.beq_iff.mpr h)
  obtain ⟨keyHash, rfl⟩ := (Function.factorsThrough_iff _).mp factors
  have keyed : ∀ set : GroupingSet, hash (keyHash ∘ Expr.canonical) set =
      set.keys.foldl (fun h k => h + keyHash k) 0 := by
    intro set
    rw [keys, List.foldl_map]
    rfl
  -- equal sets have the same canonical columns in some order, and sums do not depend on order
  rw [keyed, keyed]
  refine (perm_of_equal ha hb h).foldl_eq' (fun x _ y _ h => ?_) 0
  rw [UInt64.add_assoc, UInt64.add_comm (keyHash x), ← UInt64.add_assoc]

/-- The buckets hold places of kept sets, and looking into the bucket of a set finds an equal one
exactly when there was one. -/
structure Seen.Sound (columnHash : Expr → UInt64) (seen : Seen) (earlier : List GroupingSet) :
    Prop where
  places : ∀ h, ∀ place ∈ seen.buckets.getD h [], place < seen.kept.size
  finds : ∀ set : GroupingSet, Distinct set →
    seen.keepsAt (seen.buckets.getD (hash columnHash set) []) set = earlier.any (·.equal set)

theorem Seen.Sound.init : Seen.Sound columnHash ⟨∅, #[]⟩ [] := by
  constructor
  · intro h place hp
    rw [Std.HashMap.getD_empty] at hp
    exact absurd hp List.not_mem_nil
  · intro set _
    rw [Std.HashMap.getD_empty]
    rfl

/-- What is kept later does not change what is kept at earlier places. -/
theorem Seen.keepsAt_push {seen : Seen} {buckets : Std.HashMap UInt64 (List Nat)}
    {places : List Nat} (h : ∀ place ∈ places, place < seen.kept.size) (set t : GroupingSet) :
    Seen.keepsAt ⟨buckets, seen.kept.push set⟩ places t = seen.keepsAt places t := by
  rw [keepsAt, keepsAt, Bool.eq_iff_iff, List.any_eq_true, List.any_eq_true]
  refine exists_congr fun place => and_congr_right fun hp => ?_
  rw [Array.getElem?_push_lt (h place hp), Array.getElem?_eq_getElem (h place hp)]

theorem Seen.Sound.add
    (hash_congr : ∀ {a b : Expr}, (a == b) = true → columnHash a = columnHash b)
    {seen : Seen} (h : seen.Sound columnHash earlier) {set : GroupingSet} (hs : Distinct set) :
    (seen.add columnHash set).Sound columnHash (set :: earlier) := by
  by_cases met : earlier.any (·.equal set) = true
  · have kept : seen.add columnHash set = seen := if_pos ((h.finds set hs).trans met)
    rw [kept]
    refine ⟨h.places, fun t ht => ?_⟩
    rw [h.finds t ht, List.any_cons]
    by_cases eq : set.equal t = true
    · rw [eq, ← any_equal_congr eq, met]
      rfl
    · rw [Bool.eq_false_iff.mpr eq, Bool.false_or]
  · have kept : seen.add columnHash set = ⟨seen.buckets.insert (hash columnHash set)
        (seen.kept.size :: seen.buckets.getD (hash columnHash set) []), seen.kept.push set⟩ :=
      if_neg (by rwa [h.finds set hs])
    rw [kept]
    constructor
    · intro k place hp
      rw [Array.size_push]
      rw [Std.HashMap.getD_insert] at hp
      split at hp
      · rcases List.mem_cons.mp hp with rfl | hp
        · exact Nat.lt_succ_self _
        · exact Nat.lt_succ_of_lt (h.places _ place hp)
      · exact Nat.lt_succ_of_lt (h.places _ place hp)
    · intro t ht
      rw [Std.HashMap.getD_insert, List.any_cons]
      -- a new set joins the bucket of its hash, and no other bucket can hold an equal of it
      by_cases hash_eq : hash columnHash set = hash columnHash t
      · have first (places : List Nat) : Seen.keepsAt ⟨seen.buckets, seen.kept.push set⟩
            (seen.kept.size :: places) t =
              (set.same t || Seen.keepsAt ⟨seen.buckets, seen.kept.push set⟩ places t) := by
          rw [Seen.keepsAt, List.any_cons, Array.getElem?_push_size]
          rfl
        rw [if_pos (beq_iff_eq.mpr hash_eq), hash_eq]
        show Seen.keepsAt ⟨seen.buckets, seen.kept.push set⟩ _ t = _
        rw [first, Seen.keepsAt_push (h.places _), h.finds t ht, same_eq_equal hs ht]
      · have differ : set.equal t = false :=
          Bool.eq_false_iff.mpr fun eq => hash_eq (hash_eq_of_equal hash_congr hs ht eq)
        rw [if_neg (by rwa [beq_iff_eq]), Seen.keepsAt_push (h.places _), h.finds t ht, differ,
          Bool.false_or]

theorem Seen.kept_foldl
    (hash_congr : ∀ {a b : Expr}, (a == b) = true → columnHash a = columnHash b) :
    ∀ {sets earlier : List GroupingSet} {seen : Seen}, seen.Sound columnHash earlier →
      (∀ set ∈ sets, Distinct set) →
      (sets.foldl (Seen.add columnHash) seen).kept.toList =
        seen.kept.toList ++ firstsAfter earlier sets
  | [], _, seen, _, _ => (List.append_nil seen.kept.toList).symm
  | set :: sets, earlier, seen, h, hd => by
    have hs := hd set List.mem_cons_self
    rw [List.foldl_cons, Seen.kept_foldl hash_congr (h.add hash_congr hs)
      fun t ht => hd t (List.mem_cons_of_mem set ht)]
    rw [firstsAfter_cons, Seen.add, h.finds set hs]
    split
    · rfl
    · rw [Array.toList_push, List.append_assoc, List.singleton_append]

/-- With any hash that does not tell equal columns apart, only sets that equal an earlier one are
dropped. -/
theorem dedupBy_eq_firsts
    (hash_congr : ∀ {a b : Expr}, (a == b) = true → columnHash a = columnHash b)
    {sets : List GroupingSet} (h : ∀ set ∈ sets, Distinct set) :
    dedupBy columnHash sets = firsts sets := by
  rw [dedupBy, Seen.kept_foldl hash_congr Seen.Sound.init h]
  rfl

/-- With any hash that does not tell equal columns apart, dropping repeated sets keeps exactly the
sets that equal none before them, in their order and as they are. So no two kept sets are equal,
every set equals exactly one that is kept, and doing it again drops nothing. -/
theorem dedupBy_eq_filter
    (hash_congr : ∀ {a b : Expr}, (a == b) = true → columnHash a = columnHash b)
    {sets : List GroupingSet} (h : ∀ set ∈ sets, Distinct set) :
    dedupBy columnHash sets =
        (sets.zipIdx.filter fun p => !(sets.take p.2).any (·.equal p.1)).map Prod.fst ∧
      (dedupBy columnHash sets).Sublist sets ∧
      ((dedupBy columnHash sets).Pairwise fun a b => ¬ a.equal b = true) ∧
      (∀ set ∈ sets, (dedupBy columnHash sets).countP set.equal = 1) ∧
      dedupBy columnHash (dedupBy columnHash sets) = dedupBy columnHash sets := by
  have kept := dedupBy_eq_firsts hash_congr h
  have differ := pairwise_firstsAfter sets []
  have distinct : ∀ set ∈ firsts sets, Distinct set := fun set hs =>
    h set (mem_of_mem_firstsAfter hs)
  rw [kept]
  refine ⟨firsts_eq_filter sets, firstsAfter_sublist sets [], differ, ?_, ?_⟩
  · intro set hs
    obtain ⟨t, ht, eq⟩ := exists_equal_firsts hs
    exact countP_equal differ ht (equal_symm eq)
  · rw [dedupBy_eq_firsts hash_congr distinct, firsts_firsts]

/-- All hashes collide, and one of the sets is given again in another order and from other
places. -/
theorem dedupBy_eq_filter_collision :
    let a : Expr := .column (.of 1 1) ⟨["a"]⟩
    let b : Expr := .column (.of 1 3) ⟨["b"]⟩
    let a' : Expr := .column (.of 2 3) ⟨["a"]⟩
    let b' : Expr := .column (.of 2 1) ⟨["b"]⟩
    let sets : List GroupingSet := [[a, b], [a], [b', a'], []]
    let kept : List GroupingSet := [[a, b], [a], []]
    (∀ set ∈ sets, Distinct set) ∧ dedupBy (fun _ => 0) sets = kept ∧ kept.Sublist sets ∧
      (kept.Pairwise fun a b => ¬ a.equal b = true) ∧
      (∀ set ∈ sets, kept.countP set.equal = 1) ∧ dedupBy (fun _ => 0) kept = kept := by
  intro a b a' b' sets kept
  have distinct : ∀ set ∈ sets, Distinct set := by
    simp [Distinct, keys, Expr.canonical, sets, a, b, a', b']
  have collide {a b : Expr} (_ : (a == b) = true) :
      (fun _ => 0 : Expr → UInt64) a = (fun _ => 0 : Expr → UInt64) b := rfl
  obtain ⟨all, rest⟩ := dedupBy_eq_filter collide distinct
  have given : dedupBy (fun _ => 0) sets = kept := all
  rw [given] at rest
  exact ⟨distinct, given, rest⟩

end Buckets

theorem dedup_eq_firsts {sets : List GroupingSet} (h : ∀ set ∈ sets, Distinct set) :
    dedup sets = firsts sets :=
  dedupBy_eq_firsts (fun h => by rw [Expr.feed_congr h]) h

end SqlTree.GroupingSet
