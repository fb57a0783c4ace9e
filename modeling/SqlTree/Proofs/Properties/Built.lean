import Mathlib.Data.List.Induction
import SqlTree.Proofs.Codec.Gives
import SqlTree.Proofs.Codec.Spelling

/-!
# Settings built from pairs

Settings that are built from pairs have the keys of the pairs in the order in which they first come,
and each key has the value that it is given last. Where two lists of pairs follow each other, each
of them may be settled before. The members of a document are read in the same way: the settings that
are decoded from it are those built from the pairs that its members spell.
-/

namespace SqlTree

/-! ## Lists without repetitions -/

section EraseDups

variable {α : Type} [BEq α] [LawfulBEq α]

theorem eraseDups_concat (as : List α) (a : α) :
    (as ++ [a]).eraseDups = if as.contains a then as.eraseDups else as.eraseDups ++ [a] := by
  have single : [a].removeAll as = if as.contains a then [] else [a] := by
    cases known : as.contains a <;> simp_all [List.removeAll]
  rw [List.eraseDups_append, single]
  split
  · exact List.append_nil _
  · rfl

theorem eraseDups_append_eraseDups (as bs : List α) :
    (as ++ bs.eraseDups).eraseDups = (as ++ bs).eraseDups := by
  induction bs using List.reverseRecOn with
  | nil => rfl
  | append_singleton bs b ih =>
    have there : (as ++ bs.eraseDups).contains b = (as ++ bs).contains b := by simp
    rw [eraseDups_concat, ← List.append_assoc, eraseDups_concat, ← ih]
    by_cases known : bs.contains b = true
    · have both : (as ++ bs).contains b = true := by simp_all
      rw [if_pos known, if_pos both]
    · rw [if_neg known, ← List.append_assoc, eraseDups_concat, there]

theorem eraseDups_eraseDups_append (as bs : List α) :
    (as.eraseDups ++ bs).eraseDups = (as ++ bs).eraseDups := by
  induction bs using List.reverseRecOn with
  | nil => simpa using eraseDups_append_eraseDups [] as
  | append_singleton bs b ih =>
    have there : (as.eraseDups ++ bs).contains b = (as ++ bs).contains b := by simp
    rw [← List.append_assoc, ← List.append_assoc, eraseDups_concat, eraseDups_concat, ih, there]

end EraseDups

namespace Properties

variable {key : String} {value : Literal}

/-! ## Keys and values -/

theorem of_concat (pairs : List (String × Literal)) (key : String) (value : Literal) :
    of (pairs ++ [(key, value)]) = (of pairs).insert key value :=
  List.foldl_append

theorem keys_of (pairs : List (String × Literal)) :
    (of pairs).keys = (pairs.map Prod.fst).eraseDups := by
  induction pairs using List.reverseRecOn with
  | nil => rfl
  | append_singleton pairs pair ih =>
    have known : (pairs.map Prod.fst).contains pair.1 = true ↔ pair.1 ∈ (of pairs).keys := by
      rw [ih, List.mem_eraseDups, List.contains_iff_mem]
    rw [of_concat, List.map_append, List.map_singleton, eraseDups_concat, ← ih]
    simp only [known]
    exact keys_put (of pairs).entries

theorem lookup_put (entries : List (String × Literal)) (k : String) :
    (put key value entries).lookup k = if k = key then some value else entries.lookup k := by
  induction entries with
  | nil => rw [put, lookup_cons_eq]
  | cons e entries ih =>
    rcases e with ⟨k', v⟩
    rw [put]
    split
    case isTrue same =>
      rw [lookup_cons_eq, lookup_cons_eq, same]
      split <;> rfl
    case isFalse other =>
      rw [lookup_cons_eq, lookup_cons_eq, ih]
      by_cases hk : k = k'
      · rw [if_pos hk, if_pos hk, if_neg (hk ▸ other)]
      · rw [if_neg hk, if_neg hk]

/-- A key has the value that it is given last. -/
theorem get?_of (pairs : List (String × Literal)) (k : String) :
    (of pairs).get? k = pairs.reverse.lookup k := by
  induction pairs using List.reverseRecOn with
  | nil => rfl
  | append_singleton pairs pair ih =>
    rw [of_concat, List.reverse_append, List.reverse_singleton, List.singleton_append,
      lookup_cons_eq, ← ih]
    exact lookup_put (of pairs).entries k

theorem entries_eq_filterMap {p : Properties} (unique : p.keys.Nodup) :
    p.entries = p.keys.filterMap fun k => (p.get? k).map (k, ·) := by
  have found : ∀ e ∈ p.entries, (p.get? e.1).map (e.1, ·) = some e := by
    intro e he
    rw [get?, lookup_of_mem unique he, Option.map_some]
  rw [keys, List.filterMap_map]
  exact (List.filterMap_congr found ▸ List.filterMap_some).symm

/-- Settings are given by their keys, in order, and the value of each of them. -/
theorem eq_of_get?_eq {p q : Properties} (unique : p.keys.Nodup) (keys : p.keys = q.keys)
    (values : ∀ k, p.get? k = q.get? k) : p = q := by
  have entries : p.entries = q.entries := by
    rw [entries_eq_filterMap unique, entries_eq_filterMap (keys ▸ unique), keys]
    simp only [values]
  cases p
  cases q
  exact congrArg mk entries

/-- Pairs that follow each other may be settled in each of two lists before. -/
theorem of_append (xs ys : List (String × Literal)) :
    of (xs ++ ys) = of ((of xs).entries ++ (of ys).entries) := by
  refine eq_of_get?_eq (nodup_keys_of _) ?_ fun k => ?_
  · rw [keys_of, keys_of, List.map_append, List.map_append]
    show _ = ((of xs).keys ++ (of ys).keys).eraseDups
    rw [keys_of, keys_of, eraseDups_append_eraseDups, eraseDups_eraseDups_append]
  · have settled (pairs : List (String × Literal)) :
        (of pairs).entries.reverse.lookup k = pairs.reverse.lookup k := by
      rw [← get?_of, of_entries_iff.mpr (nodup_keys_of pairs), get?_of]
    rw [get?_of, get?_of, List.reverse_append, List.reverse_append, List.lookup_append,
      List.lookup_append, settled, settled]

/-! ## Members of a document -/

theorem depth_encode_le (a : Literal) : a.encode.depth ≤ 0 + 1 := by
  cases a with
  | null => exact Nat.zero_le _
  | double d =>
    rw [Literal.encode, Json.depth_tagged_le]
    split <;> exact Nat.le_refl 0
  | _ => exact Json.depth_tagged_le.mpr (Nat.le_refl 0)

section Reader

variable [Double.Reader]

/-- The member spells the pair: its name is the key, and its document is read as the value. -/
structure Spells (levels : Nat) (m : JsonText × Json) (pair : String × Literal) : Prop where
  name : m.1 = .plain pair.1
  value : Literal.decoder levels m.2 = .ok pair.2

theorem decodeMembers_of_spells {levels : Nat} {ms : List (JsonText × Json)}
    {pairs : List (String × Literal)} (h : List.Forall₂ (Spells levels) ms pairs)
    (p : Properties) :
    decodeMembers levels ms p = .ok (pairs.foldl (fun p (key, value) => p.insert key value) p) := by
  induction h generalizing p with
  | nil => rfl
  | @cons m pair ms pairs first rest ih =>
    obtain ⟨name, j⟩ := m
    obtain rfl : name = .plain pair.1 := first.name
    show (Literal.decoder levels j >>= fun a => decodeMembers levels ms (p.insert pair.1 a)) = _
    rw [first.value]
    exact ih (p.insert pair.1 pair.2)

theorem decoder_of_spells {levels : Nat} {ms : List (JsonText × Json)}
    {pairs : List (String × Literal)} (h : List.Forall₂ (Spells levels) ms pairs) :
    decoder (levels + 1) (.object ms) = .ok (of pairs) :=
  decodeMembers_of_spells h empty

theorem decode_of_spells {ms : List (JsonText × Json)} {pairs : List (String × Literal)}
    (h : List.Forall₂ (Spells (Decoder.nesting - 1)) ms pairs) {text : String}
    (read : (Json.object ms).IsReadFrom text) : decoder.decode text = .ok (of pairs) :=
  (Decoder.decode_of_isReadFrom read).mpr (decoder_of_spells h)

/-- The members that are written for pairs spell them, if the values can be written at all and their
doubles are read back. -/
theorem spells_members {levels : Nat} (room : 1 ≤ levels) {pairs : List (String × Literal)}
    (h : ∀ e ∈ pairs, e.2.Valid ∧ e.2.Finite ∧ e.2.encode.ReadBack) :
    List.Forall₂ (Spells levels) (members pairs) pairs := by
  induction pairs with
  | nil => exact .nil
  | cons pair pairs ih =>
    obtain ⟨⟨valid, finite, readBack⟩, others⟩ := List.forall_mem_cons.mp h
    have restored : Literal.decoder.Restores (levels + 1) pair.2.encode pair.2 pair.2.Finite :=
      Literal.restores valid
    exact .cons ⟨rfl, restored.ok finite readBack levels (Nat.lt_succ_self _)
      (Nat.le_trans (depth_encode_le pair.2) room)⟩ (ih others)

/-- Settings built from pairs give no key twice. Their keys are those of the pairs in the order in
which they first come, and each has the value that it is given last. Pairs that follow each other
may be settled in each of two lists before. The same settings are decoded from any object whose
members spell the pairs, wherever it stands in a document or as a text of its own, and so they are
from what is written for the pairs, if their doubles are read back. -/
theorem of_first_keys_last_values (pairs : List (String × Literal)) :
    (of pairs).keys.Nodup ∧
      (of pairs).keys = (pairs.map Prod.fst).eraseDups ∧
      (∀ key, (of pairs).get? key = pairs.reverse.lookup key) ∧
      (∀ more, of (pairs ++ more) = of ((of pairs).entries ++ (of more).entries)) ∧
      (∀ levels ms, List.Forall₂ (Spells levels) ms pairs →
        decoder (levels + 1) (.object ms) = .ok (of pairs)) ∧
      (∀ ms text, List.Forall₂ (Spells (Decoder.nesting - 1)) ms pairs →
        (Json.object ms).IsReadFrom text → decoder.decode text = .ok (of pairs)) ∧
      ((∀ e ∈ pairs, e.2.Valid ∧ e.2.Finite ∧ e.2.encode.ReadBack) →
        decoder.decode (Json.object (members pairs)).text = .ok (of pairs)) := by
  refine ⟨nodup_keys_of pairs, keys_of pairs, get?_of pairs, of_append pairs, ?_, ?_, ?_⟩
  · exact fun levels ms spelled => decoder_of_spells spelled
  · exact fun ms text spelled read => decode_of_spells spelled read
  · intro written
    have proper : (Json.object (members pairs)).Proper := by
      refine Json.proper_record (List.forall_mem_map.mpr fun e he => ?_)
      have restored : Literal.decoder.Restores 0 e.2.encode e.2 e.2.Finite :=
        Literal.restores (written e he).1
      exact restored.proper
    exact decode_of_spells (spells_members (by decide) written) proper.isReadFrom

end Reader

/-- A key that is given again keeps its place and changes its value. -/
theorem of_first_keys_last_values_again :
    let pairs : List (String × Literal) :=
      [("k", .long 1), ("j", .null), ("k", .string "\n"), ("i", .boolean true),
        ("j", .decimal "0.5")]
    let built : Properties := ⟨[("k", .string "\n"), ("j", .decimal "0.5"), ("i", .boolean true)]⟩
    of pairs = built ∧ built.keys = (pairs.map Prod.fst).eraseDups ∧
      (∀ key, built.get? key = pairs.reverse.lookup key) ∧
      List.Forall₂ (Spells (Decoder.nesting - 1)) (members pairs) pairs ∧
      (Json.object (members pairs)).IsReadFrom (Json.object (members pairs)).text ∧
      decoder.decode (Json.object (members pairs)).text = .ok built := by
  intro pairs built
  have values : ∀ e ∈ pairs, e.2.Valid ∧ e.2.Finite ∧ e.2.encode.ReadBack := by
    have readBack (a : Literal) : a.encode.ReadBack := Json.readBack_nearest _
    simp only [pairs, List.forall_mem_cons]
    exact ⟨⟨trivial, trivial, readBack _⟩, ⟨trivial, trivial, readBack _⟩,
      ⟨trivial, trivial, readBack _⟩, ⟨trivial, trivial, readBack _⟩, ⟨rfl, trivial, readBack _⟩,
      nofun⟩
  have spelled : List.Forall₂ (Spells (Decoder.nesting - 1)) (members pairs) pairs :=
    spells_members (by decide) values
  have proper : (Json.object (members pairs)).Proper := by
    simp [pairs, members, Json.named, Literal.encode, Json.tagged, Json.record, Json.ofString,
      Json.ofInt, Json.Proper, Json.ProperMembers, Numeral.ofInt_proper]
  have whole : of pairs = built := rfl
  obtain ⟨-, keys, values, -, -, decoded, -⟩ := of_first_keys_last_values pairs
  rw [whole] at keys values decoded
  exact ⟨whole, keys, values, spelled, proper.isReadFrom, decoded _ _ spelled proper.isReadFrom⟩

end Properties

end SqlTree
