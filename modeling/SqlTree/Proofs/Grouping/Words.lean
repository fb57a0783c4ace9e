import SqlTree.Proofs.Except
import SqlTree.Proofs.Grouping.Cube
import SqlTree.Proofs.Grouping.Reordered

/-!
# Grouping sets on machine words

The sets of a clause as a machine with words of 64 bits comes to them: the choices of a `CUBE` are
numbered by the words below a shifted one, and the combinations of a step are counted by a product
of words. A meter keeps the widest shift and the longest list of combinations on the way. In the end
there are the same sets, or the same violation, as without words, so that no bit is ever lost, and
the meter stays within the limits whatever the clause is. The steps of the enumeration without words
are bounded as well, behind every beginning of the clause.
-/

namespace SqlTree

/-- Why there are no sets in the end. -/
inductive Halt where
  | violation (v : Violation)
  /-- A shift has lost all bits. -/
  | overflow
deriving DecidableEq

/-- How far a computation has gone. -/
structure Meter where
  /-- The most bits by which a word was shifted. -/
  shift : Nat
  /-- The length of the longest list of combinations. -/
  combinations : Nat

/-- A computation with a meter, which goes on when the computation halts. -/
abbrev Metered := ExceptT Halt (StateM Meter)

namespace Metered

variable {α β : Type}

def halt (v : Violation) : Metered α := throw (.violation v)

/-- A one, shifted by so many bits. -/
def shifted (bits : Nat) : Metered (BitVec 64) := do
  modify fun m => { m with shift := max m.shift bits }
  if bits < 64 then return 1#64 <<< bits else throw .overflow

/-- The product of two counts, if a word can hold it. -/
def product? (a b : Nat) : Option (BitVec 64) :=
  if a * b < 2 ^ 64 then some (BitVec.ofNat 64 a * BitVec.ofNat 64 b) else none

/-- The combinations, all of them there at once. -/
def built (combinations : List GroupingSet) : Metered (List GroupingSet) := do
  modify fun m => { m with combinations := max m.combinations combinations.length }
  return combinations

end Metered

open Metered

namespace GroupingSet

/-- The columns whose bits are set in the mask, the first of them having the bit `bit`. -/
def masked (mask : BitVec 64) : Nat → List Expr → Metered GroupingSet
  | _, [] => return []
  | bit, column :: columns => do
    let one ← shifted bit
    let others ← masked mask (bit + 1) columns
    return if mask &&& one ≠ 0#64 then column :: others else others

/-- All choices among the columns, by the masks below a shifted one. -/
def choicesOnWords (columns : List Expr) : Metered (List GroupingSet) := do
  let bound ← shifted columns.length
  let masks := (List.range bound.toNat).map (BitVec.ofNat 64)
  masks.mapM fun mask => masked mask 0 columns

end GroupingSet

/-- The sets of an element. Only a `CUBE` needs words for them. -/
def GroupingElement.setsOnWords : GroupingElement → Metered (List GroupingSet)
  | cube _ columns =>
    let distinct := GroupingSet.of columns
    if cubeLimit < distinct.length then halt (.tooManyCubeColumns distinct.length)
    else GroupingSet.choicesOnWords distinct
  | simple _ columns => return [GroupingSet.of columns]
  | rollup _ columns => return GroupingSet.dedup (GroupingSet.growing [] columns).reverse
  | sets _ ss => return GroupingSet.dedup (ss.map GroupingSet.of)

namespace GroupBy

/-- Every set so far united with every set of one more element. -/
def combineOnWords (sets more : List GroupingSet) : Metered (List GroupingSet) :=
  match product? sets.length more.length with
  | none => halt .tooManyGroupingSets
  | some total =>
    if limit < total.toNat then halt .tooManyGroupingSets
    else do return GroupingSet.dedup (← built (sets.flatMap fun a => more.map a.union))

def combineAllOnWords (sets : List GroupingSet) :
    List GroupingElement → Metered (List GroupingSet)
  | [] => return sets
  | element :: elements => do
    combineAllOnWords (← combineOnWords sets (← element.setsOnWords)) elements

def setsOnWords (g : GroupBy) : Metered (List GroupingSet) := combineAllOnWords [[]] g.elements

end GroupBy

/-! ## Within the limits -/

/-- The meter is within the limits. -/
structure Meter.Within (m : Meter) : Prop where
  shift : m.shift ≤ GroupingElement.cubeLimit
  combinations : m.combinations ≤ GroupBy.limit

namespace Metered

variable {α β : Type} {x : Metered α} {r : Except Violation α}

/-- Within the limits, the computation comes to the outcome and loses no bits. -/
def Yields (x : Metered α) (r : Except Violation α) : Prop :=
  ∀ m : Meter, m.Within → ∃ m' : Meter, x.run.run m = (r.mapError .violation, m') ∧ m'.Within

namespace Yields

theorem pure (a : α) : Yields (pure a : Metered α) (.ok a) := fun m hm => ⟨m, rfl, hm⟩

theorem halt (v : Violation) : Yields (halt v : Metered α) (.error v) := fun m hm => ⟨m, rfl, hm⟩

theorem bind {f : α → Metered β} {s : α → Except Violation β} (hx : Yields x r)
    (hf : ∀ a, r = .ok a → Yields (f a) (s a)) : Yields (x >>= f) (r >>= s) := by
  intro m hm
  obtain ⟨m', run, hm'⟩ := hx m hm
  cases r with
  | error v =>
    refine ⟨m', ?_, hm'⟩
    rw [ExceptT.run_bind, StateT.run_bind, run]
    rfl
  | ok a =>
    obtain ⟨m'', rest, hm''⟩ := hf a rfl m' hm'
    refine ⟨m'', ?_, hm''⟩
    rw [ExceptT.run_bind, StateT.run_bind, run]
    exact rest

theorem mapM {f : β → Metered α} {g : β → α} {bs : List β}
    (h : ∀ b ∈ bs, Yields (f b) (.ok (g b))) : Yields (bs.mapM f) (.ok (bs.map g)) := by
  induction bs with
  | nil => exact pure []
  | cons b bs ih =>
    obtain ⟨first, rest⟩ := List.forall_mem_cons.mp h
    rw [List.mapM_cons]
    refine bind (s := fun a => .ok (a :: bs.map g)) first fun a ha => ?_
    refine bind (s := fun as => .ok (a :: as)) (ih rest) fun as has => ?_
    exact pure (a :: as)

theorem shifted {bits : Nat} (h : bits ≤ GroupingElement.cubeLimit) :
    Yields (shifted bits) (.ok (1#64 <<< bits)) := by
  have fits : bits < 64 := Nat.lt_of_le_of_lt h (by decide)
  intro m hm
  have within : max m.shift bits ≤ GroupingElement.cubeLimit := Nat.max_le.mpr ⟨hm.shift, h⟩
  refine ⟨{ m with shift := max m.shift bits }, ?_, ⟨within, hm.combinations⟩⟩
  unfold Metered.shifted
  rw [if_pos fits]
  rfl

theorem built {combinations : List GroupingSet} (h : combinations.length ≤ GroupBy.limit) :
    Yields (built combinations) (.ok combinations) := by
  intro m hm
  exact ⟨{ m with combinations := max m.combinations combinations.length }, rfl,
    ⟨hm.shift, Nat.max_le.mpr ⟨hm.combinations, h⟩⟩⟩

end Yields

theorem toNat_shifted {bits : Nat} (h : bits < 64) : (1#64 <<< bits).toNat = 2 ^ bits := by
  rw [← BitVec.twoPow_eq, BitVec.toNat_twoPow_of_lt h]

theorem and_shifted_ne_zero {mask : BitVec 64} {bit : Nat} (h : bit < 64) :
    mask &&& 1#64 <<< bit ≠ 0#64 ↔ mask.toNat.testBit bit = true := by
  rw [← BitVec.twoPow_eq, BitVec.and_twoPow, BitVec.testBit_toNat]
  split
  case isTrue set =>
    refine iff_of_true (fun none => ?_) set
    have value := congrArg BitVec.toNat none
    rw [BitVec.toNat_twoPow_of_lt h] at value
    exact absurd value (Nat.ne_of_gt (Nat.two_pow_pos bit))
  case isFalse unset => exact iff_of_false (fun some => some rfl) unset

theorem limit_lt_of_product?_eq_none {a b : Nat} (h : product? a b = none) :
    GroupBy.limit < a * b := by
  unfold product? at h
  split at h
  · contradiction
  case isFalse large => exact Nat.lt_of_lt_of_le (by decide) (Nat.not_lt.mp large)

theorem toNat_of_product?_eq_some {a b : Nat} {total : BitVec 64} (h : product? a b = some total) :
    total.toNat = a * b := by
  unfold product? at h
  split at h
  case isTrue small =>
    rw [← Option.some.inj h, BitVec.toNat_mul, BitVec.toNat_ofNat, BitVec.toNat_ofNat,
      ← Nat.mul_mod, Nat.mod_eq_of_lt small]
  · contradiction

end Metered

/-! ## The enumeration -/

open Metered (Yields)

namespace GroupingSet

theorem yields_masked (mask : BitVec 64) {bit : Nat} {columns : List Expr}
    (h : bit + columns.length ≤ GroupingElement.cubeLimit) :
    Yields (masked mask bit columns)
      (.ok (((columns.zipIdx bit).filter fun p => mask.toNat.testBit p.2).map Prod.fst)) := by
  induction columns generalizing bit with
  | nil => exact .pure []
  | cons column columns ih =>
    rw [List.length_cons] at h
    have room : bit + 1 + columns.length ≤ GroupingElement.cubeLimit := by omega
    have fits : bit < 64 := by
      have small : GroupingElement.cubeLimit < 64 := by decide
      omega
    refine Yields.bind (s := fun _ => .ok _) (.shifted (by omega)) fun one ho => ?_
    refine Yields.bind (s := fun _ => .ok _) (ih room) fun rest hr => ?_
    rw [← Except.ok.inj ho, ← Except.ok.inj hr, List.zipIdx_cons, List.filter_cons]
    simp only [Metered.and_shifted_ne_zero fits]
    split
    · exact .pure _
    · exact .pure _

theorem yields_choices {columns : List Expr} (h : columns.length ≤ GroupingElement.cubeLimit) :
    Yields (choicesOnWords columns) (.ok (choices columns)) := by
  have fits : columns.length < 64 := Nat.lt_of_le_of_lt h (by decide)
  refine Yields.bind (s := fun _ => .ok _) (.shifted h) fun bound hb => ?_
  have chosen (mask : BitVec 64) :
      Yields (masked mask 0 columns) (.ok (selected columns mask.toNat)) :=
    yields_masked mask (by rwa [Nat.zero_add])
  have all : ((List.range bound.toNat).map (BitVec.ofNat 64)).map
      (fun mask => selected columns mask.toNat) = choices columns := by
    rw [← Except.ok.inj hb, Metered.toNat_shifted fits, choices_eq_map_selected, List.map_map]
    apply List.map_congr_left
    intro i hi
    have below : 2 ^ columns.length < 2 ^ 64 := Nat.pow_lt_pow_right (by decide) fits
    have small : i < 2 ^ 64 := Nat.lt_trans (List.mem_range.mp hi) below
    rw [Function.comp_apply, BitVec.toNat_ofNat, Nat.mod_eq_of_lt small]
  rw [← all]
  exact Yields.mapM fun mask _ => chosen mask

end GroupingSet

theorem GroupingElement.yields_sets (e : GroupingElement) :
    Yields e.setsOnWords e.groupingSets := by
  cases e with
  | simple l columns => exact .pure _
  | rollup l columns => exact .pure _
  | sets l ss => exact .pure _
  | cube l columns =>
    simp only [setsOnWords, groupingSets, cubeColumns]
    split
    case isTrue many => exact .halt _
    case isFalse few => exact GroupingSet.yields_choices (Nat.not_lt.mp few)

namespace GroupBy

theorem length_unions (sets more : List GroupingSet) :
    (sets.flatMap fun a => more.map a.union).length = sets.length * more.length := by
  simp [List.length_flatMap]

theorem yields_combine (sets more : List GroupingSet) :
    Yields (combineOnWords sets more) (combine sets more) := by
  unfold combineOnWords combine
  split
  case h_1 lost =>
    rw [if_pos (Metered.limit_lt_of_product?_eq_none lost)]
    exact .halt _
  case h_2 total fits =>
    rw [Metered.toNat_of_product?_eq_some fits]
    split
    case isTrue many => exact .halt _
    case isFalse few =>
      have room := length_unions sets more ▸ Nat.not_lt.mp few
      refine Yields.bind (s := fun _ => .ok _) (.built room) fun unions hu => ?_
      rw [← Except.ok.inj hu]
      exact .pure _

theorem yields_combineAll (elements : List GroupingElement) (sets : List GroupingSet) :
    Yields (combineAllOnWords sets elements) (combineAll sets elements) := by
  induction elements generalizing sets with
  | nil => exact .pure sets
  | cons element elements ih =>
    refine Yields.bind element.yields_sets fun more _ => ?_
    exact Yields.bind (yields_combine sets more) fun unions _ => ih unions

/-- A clause has at once the sets that it has on words, and the meter stays within the limits. -/
theorem yields_sets (g : GroupBy) : Yields g.setsOnWords g.groupingSets :=
  yields_combineAll g.elements [[]]

end GroupBy

/-! ## The columns of the sets -/

namespace GroupingSet

theorem mem_of_mem_union {c : Expr} {columns : List Expr} {set : GroupingSet}
    (h : c ∈ set.union columns) : c ∈ set ∨ c ∈ columns := by
  induction columns generalizing set with
  | nil => exact .inl h
  | cons column columns ih =>
    have step : c ∈ (set.insert column).union columns := h
    rcases ih step with old | new
    · unfold insert at old
      split at old
      · exact .inl old
      · rw [List.mem_append, List.mem_singleton] at old
        rw [List.mem_cons]
        exact old.imp_right .inl
    · exact .inr (List.mem_cons_of_mem column new)

theorem mem_of_mem_of {c : Expr} {columns : List Expr} (h : c ∈ of columns) : c ∈ columns :=
  (mem_of_mem_union h).resolve_left List.not_mem_nil

theorem mem_of_mem_selected {c : Expr} {columns : List Expr} {number : Nat}
    (h : c ∈ selected columns number) : c ∈ columns := by
  obtain ⟨p, hp, rfl⟩ := List.mem_map.mp h
  exact List.fst_mem_of_mem_zipIdx (List.mem_filter.mp hp).1

theorem mem_of_mem_dedup {set : GroupingSet} {sets : List GroupingSet}
    (distinct : ∀ set ∈ sets, Distinct set) (h : set ∈ dedup sets) : set ∈ sets := by
  rw [dedup_eq_firsts distinct] at h
  exact mem_of_mem_firstsAfter h

end GroupingSet

open GroupingSet

namespace GroupingElement

/-- The columns that are given in an element, in whatever list. -/
def listed : GroupingElement → List Expr
  | simple _ columns | rollup _ columns | cube _ columns => columns
  | sets _ ss => ss.flatten

theorem mem_listed {e : GroupingElement} {enumerated : List GroupingSet}
    (h : e.groupingSets = .ok enumerated) {set : GroupingSet} (hs : set ∈ enumerated) {c : Expr}
    (hc : c ∈ set) : c ∈ e.listed := by
  cases e with
  | simple l columns =>
    obtain rfl := Except.ok.inj h
    obtain rfl := List.mem_singleton.mp hs
    exact mem_of_mem_of hc
  | rollup l columns =>
    obtain rfl := Except.ok.inj h
    have grown := mem_of_mem_dedup (fun set hs =>
      distinct_of_mem_growing .nil (List.mem_reverse.mp hs)) hs
    rw [List.mem_reverse, growing_eq_map_union] at grown
    obtain ⟨beginning, hb, rfl⟩ := List.mem_map.mp grown
    exact ((List.mem_inits ..).mp hb).subset (mem_of_mem_of hc)
  | cube l columns =>
    obtain ⟨checked, few, rfl⟩ := Except.map_eq_ok.mp h
    have same : checked = columns := by
      simp only [cubeColumns] at few
      split at few
      · contradiction
      · exact (Except.ok.inj few).symm
    rw [choices_eq_map_selected, same] at hs
    obtain ⟨number, -, rfl⟩ := List.mem_map.mp hs
    exact mem_of_mem_of (mem_of_mem_selected hc)
  | sets l ss =>
    obtain rfl := Except.ok.inj h
    have given := mem_of_mem_dedup (List.forall_mem_map.mpr fun columns _ => Distinct.of columns) hs
    obtain ⟨columns, hl, rfl⟩ := List.mem_map.mp given
    exact List.mem_flatten.mpr ⟨columns, hl, mem_of_mem_of hc⟩

end GroupingElement

namespace GroupBy

/-- What the sets of a clause have in common with those after each step: they are no more than may
be, differ from each other, and have different columns, all of them from the list. -/
structure Kept (listed : List Expr) (sets : List GroupingSet) : Prop where
  few : sets.length ≤ limit
  differ : sets.Pairwise fun a b => ¬ a.same b = true
  distinct : ∀ set ∈ sets, Distinct set
  among : ∀ set ∈ sets, ∀ c ∈ set, c ∈ listed

theorem Kept.start : Kept [] [[]] where
  few := by decide
  differ := List.pairwise_singleton ..
  distinct := distinct_of_mem_start
  among := List.forall_mem_singleton.mpr nofun

/-- A step that succeeds keeps what the sets have in common. -/
theorem Kept.combine {listed columns : List Expr} {sets more unions : List GroupingSet}
    (h : Kept listed sets) (combined : combine sets more = .ok unions)
    (given : ∀ set ∈ more, ∀ c ∈ set, c ∈ columns) : Kept (listed ++ columns) unions := by
  have distinct := distinct_of_combine combined h.distinct
  have firsts := combine_eq_firsts combined h.distinct
  refine ⟨?_, ?_, distinct, ?_⟩
  · have room : sets.length * more.length ≤ limit := by
      unfold GroupBy.combine at combined
      split at combined
      · contradiction
      case isFalse few => exact Nat.not_lt.mp few
    rw [firsts]
    exact Nat.le_trans (firstsAfter_sublist _ []).length_le (length_unions sets more ▸ room)
  · have differ : unions.Pairwise fun a b => ¬ a.equal b = true :=
      firsts ▸ pairwise_firstsAfter _ []
    refine differ.imp_of_mem fun ha hb other => ?_
    rwa [same_eq_equal (distinct _ ha) (distinct _ hb)]
  · intro set hs c hc
    rw [firsts] at hs
    obtain ⟨a, ha, hs⟩ := List.mem_flatMap.mp (mem_of_mem_firstsAfter hs)
    obtain ⟨b, hb, rfl⟩ := List.mem_map.mp hs
    rw [List.mem_append]
    exact (mem_of_mem_union hc).imp (h.among a ha c) (given b hb c)

theorem Kept.combineAll {listed : List Expr} {elements : List GroupingElement}
    {sets result : List GroupingSet} (h : Kept listed sets)
    (combined : combineAll sets elements = .ok result) :
    Kept (listed ++ elements.flatMap GroupingElement.listed) result := by
  induction elements generalizing listed sets with
  | nil =>
    rw [List.flatMap_nil, List.append_nil]
    exact Except.ok.inj combined ▸ h
  | cons element elements ih =>
    obtain ⟨more, enumerated, rest⟩ := Except.bind_eq_ok.mp combined
    obtain ⟨unions, step, rest⟩ := Except.bind_eq_ok.mp rest
    have next := h.combine step fun set hs c hc => element.mem_listed enumerated hs hc
    rw [List.flatMap_cons, ← List.append_assoc]
    exact ih next rest

/-! ## At every step -/

theorem combineAll_append (before after : List GroupingElement) (sets : List GroupingSet) :
    combineAll sets (before ++ after) =
      (combineAll sets before >>= fun reached => combineAll reached after) := by
  induction before generalizing sets with
  | nil => rfl
  | cons element before ih => simp only [List.cons_append, combineAll, bind_assoc, ih]

/-- Where the sets of one more element come to those of the elements before it, the combinations are
no more than allowed and the step keeps them but for repetitions, or they are more and there are no
sets at all. -/
theorem step_bounded {before after : List GroupingElement} {element : GroupingElement}
    {sets more : List GroupingSet} (reached : combineAll [[]] before = .ok sets)
    (enumerated : element.groupingSets = .ok more) :
    let combinations := sets.flatMap fun a => more.map a.union
    combinations.length ≤ limit ∧
        combineAll [[]] (before ++ [element]) = .ok (dedup combinations) ∨
      limit < combinations.length ∧
        combineAll [[]] (before ++ element :: after) = .error .tooManyGroupingSets := by
  intro combinations
  have continued (elements : List GroupingElement) :
      combineAll [[]] (before ++ element :: elements) =
        (combine sets more >>= fun unions => combineAll unions elements) := by
    rw [combineAll_append, reached]
    show combineAll sets (element :: elements) = _
    rw [combineAll, enumerated]
    rfl
  rw [length_unions, continued, continued]
  unfold combine
  split
  case isTrue many => exact .inr ⟨many, rfl⟩
  case isFalse few => exact .inl ⟨Nat.not_lt.mp few, rfl⟩

/-- Whatever a clause is, the enumeration of its sets on words of 64 bits gives the same sets or the
same violation as the one without words, so that no bits are lost on the way. No word is shifted by
more bits than a `CUBE` may have columns, and no list of combinations is built that is longer than
allowed, also where there are no sets in the end. Nor is one built without words: wherever the sets
of an element come to those of the elements before it, the combinations are no more than allowed, or
there are no sets at all. If there are sets, they are no more than allowed,
no two of them are the same, and each has different columns, which are given in some element. -/
theorem groupingSets_bounded (g : GroupBy) :
    (∃ m : Meter, g.setsOnWords.run.run ⟨0, 0⟩ = (g.groupingSets.mapError .violation, m) ∧
      m.shift ≤ 16 ∧ m.combinations ≤ 65536) ∧
    (∀ before element after, g.elements = before ++ element :: after →
      ∀ sets more, combineAll [[]] before = .ok sets → element.groupingSets = .ok more →
        let combinations := sets.flatMap fun a => more.map a.union
        combinations.length ≤ 65536 ∧
            combineAll [[]] (before ++ [element]) = .ok (dedup combinations) ∨
          65536 < combinations.length ∧ g.groupingSets = .error .tooManyGroupingSets) ∧
    ∀ sets, g.groupingSets = .ok sets →
      sets.length ≤ 65536 ∧
      (sets.Pairwise fun a b => ¬ a.same b = true) ∧
      (∀ set ∈ sets, Distinct set) ∧
      ∀ set ∈ sets, ∀ c ∈ set, ∃ e ∈ g.elements, c ∈ e.listed := by
  refine ⟨?_, ?_, ?_⟩
  · obtain ⟨m, run, within⟩ := g.yields_sets ⟨0, 0⟩ ⟨Nat.zero_le _, Nat.zero_le _⟩
    exact ⟨m, run, within.shift, within.combinations⟩
  · intro before element after split sets more reached enumerated
    rw [groupingSets, split]
    exact step_bounded reached enumerated
  · intro sets h
    have kept := Kept.start.combineAll h
    refine ⟨kept.few, kept.differ, kept.distinct, fun set hs c hc => ?_⟩
    exact List.mem_flatMap.mp (kept.among set hs c hc)

/-- A `CUBE` of 17 columns, which no constructor has checked, has no sets, and nothing is shifted
for it; a `CUBE` of columns one of which is given twice, followed by one set, has two. -/
theorem groupingSets_bounded_overlap :
    let wide : List Expr := ["a", "b", "c", "d", "e", "f", "g", "h", "i", "j", "k", "l", "m", "n",
      "o", "p", "q"].map fun name => .ofColumn ⟨[name]⟩
    let unchecked : GroupBy := ⟨.unknown, [.cube .unknown wide]⟩
    let a : Expr := .column (.of 1 1) ⟨["a"]⟩
    let b : Expr := .column (.of 1 4) ⟨["b"]⟩
    let a' : Expr := .column (.of 1 7) ⟨["a"]⟩
    let b' : Expr := .column (.of 2 1) ⟨["b"]⟩
    let g : GroupBy := ⟨.unknown, [.cube .unknown [a, b, a'], .simple .unknown [b']]⟩
    let sets : List GroupingSet := [[b'], [a, b']]
    unchecked.setsOnWords.run.run ⟨0, 0⟩ =
        (unchecked.groupingSets.mapError .violation, ⟨0, 0⟩) ∧
      unchecked.groupingSets = .error (.tooManyCubeColumns 17) ∧
      g.groupingSets = .ok sets ∧
      (∃ m : Meter, g.setsOnWords.run.run ⟨0, 0⟩ = (.ok sets, m) ∧
        m.shift ≤ 16 ∧ m.combinations ≤ 65536) ∧
      sets.length ≤ 65536 ∧
      (sets.Pairwise fun a b => ¬ a.same b = true) ∧
      (∀ set ∈ sets, Distinct set) ∧
      ∀ set ∈ sets, ∀ c ∈ set, ∃ e ∈ g.elements, c ∈ e.listed := by
  intro wide unchecked a b a' b' g sets
  have choices : (GroupingElement.cube .unknown [a, b, a']).groupingSets =
      .ok [[], [a], [b], [a, b]] := rfl
  have distinct : ∀ set ∈ [[], [a], [b], [a, b]], Distinct set := by
    simp [Distinct, keys, Expr.canonical, a, b]
  have first : combine [[]] [[], [a], [b], [a, b]] = .ok [[], [a], [b], [a, b]] :=
    combine_of_le (by decide) distinct_of_mem_start
  have second : combine [[], [a], [b], [a, b]] [[b']] = .ok sets :=
    combine_of_le (by decide) distinct
  have h : g.groupingSets = .ok sets := by
    rw [groupingSets, combineAll_of_ok choices first, combineAll_of_ok rfl second]
    rfl
  obtain ⟨⟨m, run, shift, combinations⟩, -, bounds⟩ := groupingSets_bounded g
  rw [h] at run
  exact ⟨rfl, rfl, h, ⟨m, run, shift, combinations⟩, bounds sets h⟩

end GroupBy

end SqlTree
