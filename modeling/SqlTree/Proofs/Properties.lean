import Mathlib.Data.List.Nodup
import Mathlib.Data.List.Sort
import SqlTree.Proofs.Expr.Canonical
import SqlTree.Proofs.Lookup
import SqlTree.Properties

/-!
# Canonical settings

The canonical form of settings has their entries in the order of the keys and their values in
canonical form. Settings that give no key twice are the same exactly when their canonical forms are
equal.
-/

namespace SqlTree

namespace Properties

variable {p q : Properties}

/-! ## In the order of the keys -/

theorem sorted_perm (p : Properties) : p.sorted.Perm p.entries := List.mergeSort_perm _ _

theorem sorted_ordered (p : Properties) :
    p.sorted.Pairwise fun a b => (compare a.1 b.1).isLE = true := by
  refine List.pairwise_mergeSort ?_ ?_ p.entries
  · intro a b c hab hbc
    exact Std.TransOrd.isLE_trans hab hbc
  · intro a b
    show ((compare a.1 b.1).isLE || (compare b.1 a.1).isLE) = true
    rw [@Std.OrientedCmp.eq_swap _ compare _ b.1]
    cases compare a.1 b.1 <;> rfl

/-- An entry with its value in canonical form. -/
def canonicalEntry (entry : String × Literal) : String × Literal := (entry.1, entry.2.canonical)

/-- The settings in the order of their keys, with values that stand for all that are the same. -/
def canonical (p : Properties) : Properties := ⟨p.sorted.map canonicalEntry⟩

theorem entries_canonical_perm (p : Properties) :
    p.canonical.entries.Perm (p.entries.map canonicalEntry) := p.sorted_perm.map _

theorem entries_canonical_ordered (p : Properties) :
    p.canonical.entries.Pairwise fun a b => (compare a.1 b.1).isLE = true :=
  List.pairwise_map.mpr p.sorted_ordered

theorem keys_canonical_perm (p : Properties) : p.canonical.keys.Perm p.keys := by
  have perm := p.entries_canonical_perm.map Prod.fst
  rwa [List.map_map] at perm

@[simp]
theorem canonical_canonical (p : Properties) : p.canonical.canonical = p.canonical := by
  have ordered : p.canonical.sorted = p.canonical.entries :=
    List.mergeSort_of_pairwise p.entries_canonical_ordered
  have values : canonicalEntry ∘ canonicalEntry = canonicalEntry := by
    funext entry
    simp [canonicalEntry]
  rw [canonical, ordered, canonical, List.map_map, values]

/-- Canonical forms are equal when they have the same entries. -/
theorem canonical_eq_iff_perm (hp : p.keys.Nodup) :
    p.canonical = q.canonical ↔
      (p.entries.map canonicalEntry).Perm (q.entries.map canonicalEntry) := by
  constructor
  · intro h
    have perm := p.entries_canonical_perm.symm
    rw [h] at perm
    exact perm.trans q.entries_canonical_perm
  · intro h
    have unique : p.canonical.keys.Nodup := p.keys_canonical_perm.nodup_iff.mpr hp
    have perm : p.canonical.entries.Perm q.canonical.entries :=
      (p.entries_canonical_perm.trans h).trans q.entries_canonical_perm.symm
    have equal : p.canonical.entries = q.canonical.entries := by
      refine perm.eq_of_pairwise ?_ p.entries_canonical_ordered q.entries_canonical_ordered
      -- entries that stand in either order have one key, and that key has one entry
      intro a b ha hb hab hba
      have key : a.1 = b.1 :=
        Std.LawfulEqOrd.eq_of_compare (Std.OrientedCmp.isLE_antisymm hab hba)
      exact List.inj_on_of_nodup_map unique ha (perm.mem_iff.mpr hb) key
    exact congrArg Properties.mk equal

/-- Settings are the same when they have the same entries, up to their order. -/
theorem same_iff_perm (hp : p.keys.Nodup) (hq : q.keys.Nodup) :
    (p == q) = true ↔ (p.entries.map canonicalEntry).Perm (q.entries.map canonicalEntry) := by
  show same p q = true ↔ _
  unfold same
  rw [Bool.and_eq_true, beq_iff_eq, List.all_eq_true]
  constructor
  · rintro ⟨size, found⟩
    have unique : (p.entries.map canonicalEntry).Nodup := by
      apply List.Nodup.of_map Prod.fst
      rwa [List.map_map]
    have listed : p.entries.map canonicalEntry ⊆ q.entries.map canonicalEntry := by
      rw [List.subset_def, List.forall_mem_map]
      rintro ⟨key, value⟩ hm
      have hf : (q.get? key == some value) = true := found _ hm
      obtain ⟨w, hw⟩ : ∃ w, q.get? key = some w := by
        rw [← Option.isSome_iff_exists]
        cases hget : q.get? key with
        | none => rw [hget] at hf; exact absurd hf Bool.false_ne_true
        | some => rfl
      rw [hw] at hf
      have value_eq : w.canonical = value.canonical := Literal.same_iff.mp hf
      refine List.mem_map.mpr ⟨(key, w), mem_of_lookup hw, ?_⟩
      rw [canonicalEntry, value_eq, canonicalEntry]
    refine (List.subperm_of_subset unique listed).perm_of_length_le ?_
    rw [List.length_map, List.length_map]
    exact size.ge
  · intro h
    constructor
    · have length := h.length_eq
      rwa [List.length_map, List.length_map] at length
    · rintro ⟨key, value⟩ hm
      obtain ⟨⟨key', w⟩, hw, he⟩ := List.mem_map.mp (h.subset (List.mem_map_of_mem hm))
      obtain ⟨rfl, value_eq⟩ := Prod.mk.inj he
      show (q.entries.lookup key' == some value) = true
      rw [lookup_of_mem hq hw]
      exact Literal.same_iff.mpr value_eq

/-- Settings are the same exactly when their canonical forms are equal. -/
theorem same_iff (hp : p.keys.Nodup) (hq : q.keys.Nodup) :
    (p == q) = true ↔ p.canonical = q.canonical :=
  (same_iff_perm hp hq).trans (canonical_eq_iff_perm hp).symm

end Properties

end SqlTree
