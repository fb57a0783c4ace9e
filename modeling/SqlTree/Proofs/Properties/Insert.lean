import Mathlib.Data.List.Nodup
import SqlTree.Properties

/-!
# Settings given one after the other

A setting that is given anew comes last, and one that is given again changes the value of its key.
So no key is ever there twice, and settings that give no key twice are what giving them one after
the other comes to.
-/

namespace SqlTree

namespace Properties

variable {key : String} {value : Literal}

theorem put_of_not_mem : ∀ {entries : List (String × Literal)},
    key ∉ entries.map Prod.fst → put key value entries = entries ++ [(key, value)]
  | [], _ => rfl
  | (k, v) :: entries, h => by
    rw [List.map_cons, List.mem_cons, not_or] at h
    rw [put, if_neg (Ne.symm h.1), put_of_not_mem h.2]
    rfl

theorem keys_put (entries : List (String × Literal)) :
    (put key value entries).map Prod.fst =
      if key ∈ entries.map Prod.fst then entries.map Prod.fst
      else entries.map Prod.fst ++ [key] := by
  induction entries with
  | nil => rfl
  | cons e entries ih =>
    rcases e with ⟨k, v⟩
    unfold put
    by_cases hk : k = key
    · simp [hk]
    · have hk' : key ≠ k := Ne.symm hk
      by_cases hm : key ∈ entries.map Prod.fst
      · simp [hk, hk', hm, ih]
      · simp [hk, hk', hm, ih]

theorem mem_put {e : String × Literal} :
    ∀ {entries : List (String × Literal)}, e ∈ put key value entries →
      e = (key, value) ∨ e ∈ entries
  | [], h => .inl (List.mem_singleton.mp h)
  | (k, v) :: entries, h => by
    unfold put at h
    split at h
    · rcases List.mem_cons.mp h with first | rest
      · exact .inl first
      · exact .inr (List.mem_cons_of_mem _ rest)
    · rcases List.mem_cons.mp h with first | rest
      · exact .inr (first ▸ List.mem_cons_self)
      · rcases mem_put rest with first | old
        · exact .inl first
        · exact .inr (List.mem_cons_of_mem _ old)

theorem nodup_keys_insert {p : Properties} (h : p.keys.Nodup) :
    (p.insert key value).keys.Nodup := by
  show ((put key value p.entries).map Prod.fst).Nodup
  rw [keys_put]
  split
  · exact h
  case isFalse fresh =>
    refine List.nodup_append.mpr ⟨h, List.nodup_singleton key, ?_⟩
    rintro k hk k' hk' rfl
    rw [List.mem_singleton.mp hk'] at hk
    exact fresh hk

/-- A key that is not among those before gets the last place. -/
theorem insert_of_nodup {done entries : List (String × Literal)}
    (unique : ((done ++ (key, value) :: entries).map Prod.fst).Nodup) :
    (⟨done⟩ : Properties).insert key value = ⟨done ++ [(key, value)]⟩ := by
  have fresh : key ∉ done.map Prod.fst := by
    rw [List.map_append, List.map_cons, List.nodup_append] at unique
    intro hk
    exact unique.2.2 key hk key List.mem_cons_self rfl
  rw [insert, put_of_not_mem fresh]

/-! ## All of them -/

theorem foldl_insert : ∀ {entries done : List (String × Literal)},
    ((done ++ entries).map Prod.fst).Nodup →
      entries.foldl (fun (p : Properties) (key, value) => p.insert key value) ⟨done⟩ =
        ⟨done ++ entries⟩
  | [], done, _ => by rw [List.append_nil, List.foldl_nil]
  | (key, value) :: entries, done, unique => by
    show entries.foldl _ ((⟨done⟩ : Properties).insert key value) = _
    rw [insert_of_nodup unique, foldl_insert (by rwa [List.append_assoc]), List.append_assoc]
    rfl

theorem nodup_keys_of (pairs : List (String × Literal)) : (of pairs).keys.Nodup := by
  suffices h : ∀ p : Properties, p.keys.Nodup →
      (pairs.foldl (fun p (key, value) => p.insert key value) p).keys.Nodup from
    h empty List.nodup_nil
  induction pairs with
  | nil => exact fun p hp => hp
  | cons pair pairs ih => exact fun p hp => ih _ (nodup_keys_insert hp)

/-- Given one after the other, the entries come to the settings if these give no key twice. -/
theorem of_entries_iff {p : Properties} : of p.entries = p ↔ p.keys.Nodup := by
  constructor
  · intro h
    rw [← h]
    exact nodup_keys_of p.entries
  · exact fun unique => foldl_insert (List.nil_append p.entries ▸ unique)

end Properties

end SqlTree
