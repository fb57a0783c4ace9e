import Mathlib.Data.List.Basic

/-!
# Finding by a key

What a list of keys with values holds is what is found in it, as long as no key stands there twice.
-/

namespace SqlTree

variable {β : Type} {k : String} {b : β}

theorem lookup_cons_eq (k k' : String) (b : β) (l : List (String × β)) :
    ((k', b) :: l).lookup k = if k = k' then some b else l.lookup k := by
  by_cases h : k = k'
  · rw [List.lookup_cons, beq_iff_eq.mpr h, if_pos h]
  · rw [List.lookup_cons, beq_eq_false_iff_ne.mpr h, if_neg h]

theorem mem_of_lookup {l : List (String × β)} (h : l.lookup k = some b) : (k, b) ∈ l := by
  obtain ⟨before, after, rfl, -⟩ := List.lookup_eq_some_iff.mp h
  exact List.mem_append_right before List.mem_cons_self

theorem lookup_of_mem : ∀ {l : List (String × β)},
    (l.map Prod.fst).Nodup → (k, b) ∈ l → l.lookup k = some b
  | (k', b') :: l, unique, hm => by
    rw [List.map_cons, List.nodup_cons] at unique
    rw [List.lookup_cons]
    rcases List.mem_cons.mp hm with first | hm
    · rw [← (Prod.mk.inj first).1, ← (Prod.mk.inj first).2, beq_self_eq_true]
    · have later : (k == k') = false := by
        rw [beq_eq_false_iff_ne]
        intro same
        have listed : k ∈ l.map Prod.fst := List.mem_map_of_mem hm
        exact unique.1 (same ▸ listed)
      rw [later]
      exact lookup_of_mem unique.2 hm

theorem lookup_filter (kept : String → Bool) (k : String) (l : List (String × β)) :
    (l.filter fun e => kept e.1).lookup k = if kept k = true then l.lookup k else none := by
  induction l with
  | nil => exact (ite_self none).symm
  | cons e l ih =>
    obtain ⟨k', b⟩ := e
    rw [List.filter_cons]
    split
    case isTrue there =>
      rw [lookup_cons_eq, lookup_cons_eq, ih]
      by_cases same : k = k'
      · rw [if_pos same, if_pos same, if_pos (same ▸ there)]
      · rw [if_neg same, if_neg same]
    case isFalse gone =>
      rw [ih, lookup_cons_eq]
      by_cases same : k = k'
      · rw [if_neg (same ▸ gone), if_neg (same ▸ gone)]
      · rw [if_neg same]

end SqlTree
