import Mathlib.Data.List.Infix
import Mathlib.Data.List.Nodup
import Mathlib.Data.List.Perm.Subperm
import SqlTree.Grouping.Enumeration
import SqlTree.Proofs.Expr.Canonical

/-!
# Sets of columns

A grouping set is a list of columns that are pairwise different. What counts for the equality of
sets are the canonical forms of the columns and not their order; comparing the lengths and one
inclusion is enough for that.
-/

namespace SqlTree.GroupingSet

variable {a b c : GroupingSet} {column : Expr} {columns : List Expr}

/-- The canonical forms of the columns. -/
def keys (set : GroupingSet) : List Expr := set.map Expr.canonical

/-- No two columns are the same. -/
def Distinct (set : GroupingSet) : Prop := set.keys.Nodup

theorem contains_iff : a.contains column = true ↔ column.canonical ∈ a.keys := by
  rw [List.contains_iff_exists_mem_beq, keys, List.mem_map]
  constructor
  · rintro ⟨x, hx, h⟩
    exact ⟨x, hx, (Expr.beq_iff.mp h).symm⟩
  · rintro ⟨x, hx, h⟩
    exact ⟨x, hx, Expr.beq_iff.mpr h.symm⟩

/-! ## Adding columns -/

theorem insert_of_mem (h : column.canonical ∈ a.keys) : a.insert column = a :=
  if_pos (contains_iff.mpr h)

theorem insert_of_not_mem (h : column.canonical ∉ a.keys) : a.insert column = a ++ [column] :=
  if_neg fun hc => h (contains_iff.mp hc)

theorem mem_keys_insert {x : Expr} :
    x ∈ (a.insert column).keys ↔ x ∈ a.keys ∨ x = column.canonical := by
  by_cases h : column.canonical ∈ a.keys
  · rw [insert_of_mem h]
    exact ⟨Or.inl, fun hx => hx.elim id fun hx => hx ▸ h⟩
  · rw [insert_of_not_mem h]
    simp [keys]

theorem Distinct.nil : Distinct [] := List.nodup_nil

theorem Distinct.insert (h : Distinct a) (column : Expr) : Distinct (a.insert column) := by
  by_cases hc : column.canonical ∈ a.keys
  · rwa [insert_of_mem hc]
  · rw [insert_of_not_mem hc, Distinct, keys, List.map_append]
    refine List.nodup_append.mpr ⟨h, List.nodup_singleton _, ?_⟩
    rintro x hx y hy rfl
    rw [List.map_singleton, List.mem_singleton] at hy
    exact hc (hy ▸ hx)

theorem mem_keys_union {x : Expr} : ∀ {a : GroupingSet} {columns : List Expr},
    x ∈ (a.union columns).keys ↔ x ∈ a.keys ∨ x ∈ columns.map Expr.canonical
  | a, [] => by simp [union]
  | a, column :: columns => by
    have step : x ∈ ((a.insert column).union columns).keys ↔
        x ∈ (a.insert column).keys ∨ x ∈ columns.map Expr.canonical := mem_keys_union
    rw [mem_keys_insert, or_assoc] at step
    rw [List.map_cons, List.mem_cons]
    exact step

theorem Distinct.union : ∀ {a : GroupingSet}, Distinct a → ∀ columns, Distinct (a.union columns)
  | _, h, [] => h
  | _, h, column :: columns => Distinct.union (h.insert column) columns

theorem Distinct.of (columns : List Expr) : Distinct (of columns) := Distinct.nil.union columns

/-- A set that grows column by column is, at each step, united with one more of the beginnings of
the columns. -/
theorem growing_eq_map_union (columns : List Expr) (set : GroupingSet) :
    growing set columns = columns.inits.map set.union := by
  induction columns generalizing set with
  | nil => rfl
  | cons column columns ih =>
    rw [growing, ih, List.inits_cons, List.map_cons, List.map_map]
    rfl

theorem distinct_of_mem_growing {set : GroupingSet} (ha : Distinct a)
    (h : set ∈ growing a columns) : Distinct set := by
  rw [growing_eq_map_union] at h
  obtain ⟨beginning, -, rfl⟩ := List.mem_map.mp h
  exact ha.union beginning

/-! ## The distinct columns -/

theorem union_eq_append (columns : List Expr) (set : GroupingSet) :
    set.union columns = set ++ (columns.filter fun c => !set.contains c).eraseDups := by
  induction columns generalizing set with
  | nil => exact (List.append_nil set).symm
  | cons column columns ih =>
    show (set.insert column).union columns = _
    rw [ih, insert]
    by_cases known : set.contains column = true
    · rw [if_pos known, List.filter_cons_of_neg (by rw [known]; exact Bool.false_ne_true)]
    · have others : (columns.filter fun c => !(set ++ [column]).contains c) =
          (columns.filter fun c => !set.contains c).filter fun c => !c == column := by
        rw [List.filter_filter]
        apply List.filter_congr
        intro c _
        simp [Bool.and_comm]
      rw [if_neg known, List.filter_cons_of_pos (by simpa using known), List.eraseDups_cons, others,
        List.append_assoc, List.singleton_append]

/-- The set of the columns has the first of those that are the same, in their order. -/
theorem of_eq_eraseDups (columns : List Expr) : of columns = columns.eraseDups := by
  have all : (columns.filter fun c => !([] : GroupingSet).contains c) = columns :=
    List.filter_eq_self.mpr fun _ _ => rfl
  rw [of, union_eq_append, List.nil_append, all]

/-! ## Equality of sets -/

/-- Is every column of one set in the other one? -/
def equal (a b : GroupingSet) : Bool := a.all b.contains && b.all a.contains

theorem equal_iff : equal a b = true ↔ ∀ x, x ∈ a.keys ↔ x ∈ b.keys := by
  have half : ∀ a b : GroupingSet, a.all b.contains = true ↔ ∀ x ∈ a.keys, x ∈ b.keys := by
    intro a b
    simp only [List.all_eq_true, contains_iff, keys, List.forall_mem_map]
  rw [equal, Bool.and_eq_true, half, half]
  exact ⟨fun h x => ⟨h.1 x, h.2 x⟩, fun h => ⟨fun x => (h x).mp, fun x => (h x).mpr⟩⟩

theorem equal_refl (a : GroupingSet) : equal a a = true := equal_iff.mpr fun _ => Iff.rfl

theorem equal_symm (h : equal a b = true) : equal b a = true :=
  equal_iff.mpr fun x => (equal_iff.mp h x).symm

theorem equal_trans (h : equal a b = true) (h' : equal b c = true) : equal a c = true :=
  equal_iff.mpr fun x => (equal_iff.mp h x).trans (equal_iff.mp h' x)

theorem perm_of_equal (ha : Distinct a) (hb : Distinct b) (h : equal a b = true) :
    a.keys.Perm b.keys :=
  (List.perm_ext_iff_of_nodup ha hb).mpr (equal_iff.mp h)

/-- For sets without repeated columns, as many columns and one inclusion make them equal. -/
theorem same_eq_equal (ha : Distinct a) (hb : Distinct b) : a.same b = equal a b := by
  rw [Bool.eq_iff_iff]
  constructor
  · intro h
    rw [same, Bool.and_eq_true, beq_iff_eq] at h
    have sub : a.keys ⊆ b.keys := by
      intro x hx
      obtain ⟨column, hc, rfl⟩ := List.mem_map.mp hx
      exact contains_iff.mp (List.all_eq_true.mp h.2 column hc)
    -- without repeated columns, an inclusion of as many columns leaves none out
    have perm : a.keys.Perm b.keys := by
      refine (ha.subperm sub).perm_of_length_le ?_
      rw [keys, keys, List.length_map, List.length_map]
      exact Nat.le_of_eq h.1.symm
    exact equal_iff.mpr fun x => perm.mem_iff
  · intro h
    have length := (perm_of_equal ha hb h).length_eq
    rw [keys, keys, List.length_map, List.length_map] at length
    rw [equal, Bool.and_eq_true] at h
    rw [same, Bool.and_eq_true, beq_iff_eq]
    exact ⟨length, h.1⟩

/-- Uniting with the same columns keeps sets equal. -/
theorem union_congr (h : equal a b = true) (columns : List Expr) :
    equal (a.union columns) (b.union columns) = true :=
  equal_iff.mpr fun x => by rw [mem_keys_union, mem_keys_union, equal_iff.mp h x]

/-! ## Mapped columns -/

theorem mem_keys_of {x : Expr} : x ∈ (of columns).keys ↔ x ∈ columns.map Expr.canonical := by
  rw [of, mem_keys_union]
  exact or_iff_right List.not_mem_nil

/-- A map that keeps columns the same that are the same makes no more distinct columns of them. -/
theorem length_of_map_le {f : Expr → Expr}
    (hf : ∀ a b : Expr, (a == b) = true → (f a == f b) = true) (columns : List Expr) :
    (of (columns.map f)).length ≤ (of columns).length := by
  have sub : (of (columns.map f)).keys ⊆ (of columns).map fun c => (f c).canonical := by
    intro x hx
    rw [mem_keys_of, List.map_map] at hx
    obtain ⟨c, hc, rfl⟩ := List.mem_map.mp hx
    -- the set has a column that is the same as `c`, though perhaps not `c` itself
    have known : c.canonical ∈ (of columns).keys := mem_keys_of.mpr (List.mem_map_of_mem hc)
    obtain ⟨d, hd, same⟩ := List.mem_map.mp known
    exact List.mem_map.mpr ⟨d, hd, Expr.beq_iff.mp (hf d c (Expr.beq_iff.mpr same))⟩
  have bound := ((Distinct.of (columns.map f)).subperm sub).length_le
  rwa [keys, List.length_map, List.length_map] at bound

end SqlTree.GroupingSet
