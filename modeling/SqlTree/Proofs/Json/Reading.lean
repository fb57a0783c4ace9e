import SqlTree.Proofs.Json.Numerals
import SqlTree.Proofs.Json.Strings

/-!
# Written values

A proper value is JSON to its end: nothing in it is broken, its strings are texts and its numbers
are proper. Reading the text of such a value gives the value back and leaves what follows it.
-/

namespace SqlTree.Json

mutual

/-- Is there a text that is read back as the value? -/
def Proper : Json → Prop
  | null | bool _ => True
  | number n => n.Proper
  | string s => s ≠ .unpaired
  | array items => ProperItems items
  | object members => ProperMembers members
  | broken => False
termination_by structural j => j

def ProperItems : List Json → Prop
  | [] => True
  | j :: js => j.Proper ∧ ProperItems js
termination_by structural js => js

def ProperMembers : List (JsonText × Json) → Prop
  | [] => True
  | (name, j) :: ms => name ≠ .unpaired ∧ j.Proper ∧ ProperMembers ms
termination_by structural ms => ms

end

theorem properItems_iff {js : List Json} : ProperItems js ↔ ∀ j ∈ js, j.Proper := by
  induction js with
  | nil => simp [ProperItems]
  | cons j js ih => simp [ProperItems, ih]

theorem proper_record {ms : List (String × Json)} (h : ∀ m ∈ ms, m.2.Proper) :
    (record ms).Proper := by
  show ProperMembers (ms.map fun m => (.plain m.1, m.2))
  induction ms with
  | nil => exact True.intro
  | cons m ms ih =>
    exact ⟨JsonText.noConfusion, h m List.mem_cons_self,
      ih fun m' hm => h m' (List.mem_cons_of_mem m hm)⟩

open Reader

/-! ## Scalars -/

theorem skipBlanks_cons {c : Char} (h : isBlank c = false) (cs : List Char) :
    skipBlanks (c :: cs) = c :: cs := by
  rw [skipBlanks, List.dropWhile_cons, h]
  rfl

theorem value_string (s : String) (fuel : Nat) (rest : List Char) :
    value (fuel + 1) ((stringText s).toList ++ rest) = (.string s, rest) := by
  rw [toList_stringText, List.cons_append, List.append_assoc, List.singleton_append]
  rw [value, skipBlanks_cons rfl]
  simp only [word_escapedChars]

/-- The first character of a proper numeral is a digit or a sign. -/
theorem head_numeral {n : Numeral} (hn : n.Proper) :
    ∃ c cs, n.text.toList = c :: cs ∧ (c.isDigit = true ∨ c = '-') := by
  obtain ⟨c, cs, hw⟩ := List.exists_cons_of_ne_nil hn.whole_ne_nil
  have digit : c.isDigit = true := hn.whole_digits c (hw ▸ List.mem_cons_self)
  rw [Numeral.toList_text, hw]
  cases n.negative with
  | true => exact ⟨'-', _, rfl, Or.inr rfl⟩
  | false => exact ⟨c, _, rfl, Or.inl digit⟩

theorem solid_of_head {c : Char} (head : c.isDigit = true ∨ c = '-') :
    isBlank c = false ∧ c ≠ ']' := by
  constructor
  · apply Bool.eq_false_iff.mpr
    intro blank
    simp only [isBlank, Bool.or_eq_true, beq_iff_eq] at blank
    rcases blank with ((rfl | rfl) | rfl) | rfl <;> exact absurd head (by decide)
  · rintro rfl
    exact absurd head (by decide)

theorem value_number {n : Numeral} (hn : n.Proper) (fuel : Nat) {rest : List Char}
    (hr : Numeral.Ends rest) : value (fuel + 1) (n.text.toList ++ rest) = (.number n, rest) := by
  obtain ⟨c, cs, text, head⟩ := head_numeral hn
  have read := Numeral.numeral?_text hn hr
  have other : ∀ {d : Char} {cs' ds : List Char}, c :: cs' = d :: ds →
      (d.isDigit = true ∨ d = '-') := by
    intro d cs' ds h
    exact (List.cons.inj h).1 ▸ head
  rw [text, List.cons_append] at read ⊢
  rw [value, skipBlanks_cons (solid_of_head head).1]
  -- the six other forms of a value start with a character that no number starts with
  split
  · rename_i h
    exact absurd (other h) (by decide)
  · rename_i h
    exact absurd (other h) (by decide)
  · rename_i h
    exact absurd (other h) (by decide)
  · rename_i h
    exact absurd (other h) (by decide)
  · rename_i h
    exact absurd (other h) (by decide)
  · rename_i h
    exact absurd (other h) (by decide)
  · rw [read]

/-! ## Arrays and objects -/

/-- The texts of the items, with commas between them. -/
def itemsChars : List Json → List Char
  | [] => []
  | [j] => j.text.toList
  | j :: k :: js => j.text.toList ++ ',' :: itemsChars (k :: js)

/-- The texts of the members, with commas between them. -/
def membersChars : List (JsonText × Json) → List Char
  | [] => []
  | [(name, j)] => (wordText name).toList ++ ':' :: j.text.toList
  | (name, j) :: m :: ms =>
    (wordText name).toList ++ ':' :: (j.text.toList ++ ',' :: membersChars (m :: ms))

theorem toList_itemTexts : ∀ js : List Json,
    (",".intercalate (itemTexts js)).toList = itemsChars js
  | [] => rfl
  | [j] => by rw [itemTexts, itemTexts, String.intercalate_singleton, itemsChars]
  | j :: k :: js => by
    have rest := toList_itemTexts (k :: js)
    rw [itemTexts] at rest ⊢
    rw [itemTexts, String.intercalate_cons_cons, String.toList_append, String.toList_append,
      rest, itemsChars, List.append_assoc]
    rfl

theorem toList_memberTexts : ∀ ms : List (JsonText × Json),
    (",".intercalate (memberTexts ms)).toList = membersChars ms
  | [] => rfl
  | [(name, j)] => by
    rw [memberTexts, memberTexts, String.intercalate_singleton, membersChars]
    simp
  | (name, j) :: (name', j') :: ms => by
    have rest := toList_memberTexts ((name', j') :: ms)
    rw [memberTexts] at rest ⊢
    rw [memberTexts, String.intercalate_cons_cons, String.toList_append, String.toList_append,
      rest, membersChars]
    simp

theorem toList_text_array (js : List Json) :
    (array js).text.toList = '[' :: (itemsChars js ++ [']']) := by
  rw [text, String.toList_append, String.toList_append, toList_itemTexts]
  rfl

theorem toList_text_object (ms : List (JsonText × Json)) :
    (object ms).text.toList = '\x7b' :: (membersChars ms ++ ['\x7d']) := by
  rw [text, String.toList_append, String.toList_append, toList_memberTexts]
  rfl

/-- The text of a proper value starts with something. -/
theorem head_text {j : Json} (hj : j.Proper) :
    ∃ c cs, j.text.toList = c :: cs ∧ isBlank c = false ∧ c ≠ ']' := by
  cases j with
  | null => exact ⟨'n', _, rfl, rfl, by decide⟩
  | bool b => cases b <;> exact ⟨_, _, rfl, rfl, by decide⟩
  | number n =>
    obtain ⟨c, cs, text, head⟩ := head_numeral hj
    exact ⟨c, cs, text, solid_of_head head⟩
  | string s =>
    cases s with
    | plain s => exact ⟨'"', _, toList_stringText s, rfl, by decide⟩
    | unpaired => exact absurd rfl hj
  | array js => exact ⟨'[', _, toList_text_array js, rfl, by decide⟩
  | object ms => exact ⟨'\x7b', _, toList_text_object ms, rfl, by decide⟩
  | broken => exact hj.elim

theorem head_itemsChars {j : Json} (hj : j.Proper) (js : List Json) :
    ∃ c cs, itemsChars (j :: js) = c :: cs ∧ isBlank c = false ∧ c ≠ ']' := by
  obtain ⟨c, cs, text, solid⟩ := head_text hj
  cases js with
  | nil => exact ⟨c, cs, text, solid⟩
  | cons k js =>
    rw [itemsChars, text]
    exact ⟨c, _, rfl, solid⟩

theorem head_membersChars (s : String) (j : Json) (ms : List (JsonText × Json)) :
    ∃ cs, membersChars ((.plain s, j) :: ms) = '"' :: cs := by
  cases ms with
  | nil =>
    rw [membersChars, wordText, toList_stringText]
    exact ⟨_, rfl⟩
  | cons m ms =>
    rw [membersChars, wordText, toList_stringText]
    exact ⟨_, rfl⟩

theorem length_text_pos {j : Json} (hj : j.Proper) : 0 < j.text.toList.length := by
  obtain ⟨c, cs, text, _⟩ := head_text hj
  rw [text]
  exact Nat.succ_pos _

theorem ends_comma (rest : List Char) : Numeral.Ends (',' :: rest) :=
  Numeral.Ends.cons (by decide) rest

theorem ends_bracket (rest : List Char) : Numeral.Ends (']' :: rest) :=
  Numeral.Ends.cons (by decide) rest

theorem ends_brace (rest : List Char) : Numeral.Ends ('\x7d' :: rest) :=
  Numeral.Ends.cons (by decide) rest

/-! ## Reading what was written -/

mutual

/-- With twice as many steps as the text has characters, a value is read to its end. -/
theorem value_text : ∀ {j : Json}, j.Proper → ∀ {fuel : Nat}, 2 * j.text.toList.length ≤ fuel →
    ∀ {rest : List Char}, Numeral.Ends rest → value fuel (j.text.toList ++ rest) = (j, rest)
  | j, hj, 0, hf, _, _ => by
    have := length_text_pos hj
    omega
  | .null, _, _ + 1, _, _, _ => rfl
  | .bool true, _, _ + 1, _, _, _ => rfl
  | .bool false, _, _ + 1, _, _, _ => rfl
  | .number _, hj, fuel + 1, _, _, hr => value_number hj fuel hr
  | .string (.plain s), _, fuel + 1, _, rest, _ => value_string s fuel rest
  | .string .unpaired, hj, _ + 1, _, _, _ => absurd rfl hj
  | .array [], _, _ + 1, _, _, _ => rfl
  | .array (j :: js), hj, fuel + 1, hf, rest, _ => by
    obtain ⟨c, cs, head, solid, close⟩ := head_itemsChars hj.1 js
    have items : Reader.items fuel (itemsChars (j :: js) ++ ']' :: rest) = (j :: js, rest) := by
      rw [toList_text_array] at hf
      simp only [List.length_cons, List.length_append, List.length_nil] at hf
      exact items_text hj.1 hj.2 (by omega)
    rw [toList_text_array, List.cons_append, List.append_assoc, List.singleton_append]
    rw [head, List.cons_append] at items ⊢
    simp only [value, skipBlanks_cons (show isBlank '[' = false from rfl), skipBlanks_cons solid]
    -- no item starts with the bracket that would close the array
    split
    · rename_i h
      exact absurd (List.cons.inj h).1 close
    · rw [items]
  | .object [], _, _ + 1, _, _, _ => rfl
  | .object ((.plain s, j) :: ms), hj, fuel + 1, hf, rest, _ => by
    obtain ⟨cs, head⟩ := head_membersChars s j ms
    have members : Reader.members fuel (membersChars ((.plain s, j) :: ms) ++ '\x7d' :: rest) =
        ((.plain s, j) :: ms, rest) := by
      rw [toList_text_object] at hf
      simp only [List.length_cons, List.length_append, List.length_nil] at hf
      exact members_text s hj.2.1 hj.2.2 (by omega)
    rw [toList_text_object, List.cons_append, List.append_assoc, List.singleton_append]
    rw [head, List.cons_append] at members ⊢
    simp only [value, skipBlanks_cons (show isBlank '\x7b' = false from rfl),
      skipBlanks_cons (show isBlank '"' = false from rfl)]
    -- a member starts with a quote and not with the brace that would close the object
    split
    · rename_i h
      exact absurd (List.cons.inj h).1 (by decide)
    · rw [members]
  | .object ((.unpaired, _) :: _), hj, _ + 1, _, _, _ => absurd rfl hj.1
  | .broken, hj, _ + 1, _, _, _ => hj.elim

theorem items_text : ∀ {j : Json} {js : List Json}, j.Proper → ProperItems js →
    ∀ {fuel : Nat}, 2 * (itemsChars (j :: js)).length + 1 ≤ fuel →
    ∀ {rest : List Char}, items fuel (itemsChars (j :: js) ++ ']' :: rest) = (j :: js, rest)
  | j, [], hj, _, fuel + 1, hf, rest => by
    rw [itemsChars] at hf ⊢
    rw [items, value_text hj (by omega) (ends_bracket rest)]
    simp only [skipBlanks_cons (show isBlank ']' = false from rfl)]
  | j, k :: js, hj, hjs, fuel + 1, hf, rest => by
    rw [itemsChars] at hf ⊢
    simp only [List.length_cons, List.length_append] at hf
    rw [List.append_assoc, List.cons_append]
    rw [items, value_text hj (by omega) (ends_comma _)]
    simp only [skipBlanks_cons (show isBlank ',' = false from rfl),
      items_text hjs.1 hjs.2 (show 2 * (itemsChars (k :: js)).length + 1 ≤ fuel by omega)]

theorem members_text (s : String) : ∀ {j : Json} {ms : List (JsonText × Json)}, j.Proper →
    ProperMembers ms → ∀ {fuel : Nat},
    2 * (membersChars ((.plain s, j) :: ms)).length + 1 ≤ fuel → ∀ {rest : List Char},
    members fuel (membersChars ((.plain s, j) :: ms) ++ '\x7d' :: rest) =
      ((.plain s, j) :: ms, rest)
  | j, [], hj, _, fuel + 1, hf, rest => by
    rw [membersChars, wordText, toList_stringText] at hf ⊢
    simp only [List.length_cons, List.length_append] at hf
    rw [List.cons_append, List.cons_append, List.append_assoc, List.append_assoc,
      List.singleton_append, List.cons_append]
    simp only [members, skipBlanks_cons (show isBlank '"' = false from rfl), word_escapedChars,
      skipBlanks_cons (show isBlank ':' = false from rfl),
      value_text hj (show 2 * j.text.toList.length ≤ fuel by omega) (ends_brace rest),
      skipBlanks_cons (show isBlank '\x7d' = false from rfl)]
  | j, (.plain s', k) :: ms, hj, hms, fuel + 1, hf, rest => by
    rw [membersChars, wordText, toList_stringText] at hf ⊢
    simp only [List.length_cons, List.length_append] at hf
    rw [List.cons_append, List.cons_append, List.append_assoc, List.append_assoc,
      List.singleton_append, List.cons_append, List.append_assoc, List.cons_append]
    simp only [members, skipBlanks_cons (show isBlank '"' = false from rfl), word_escapedChars,
      skipBlanks_cons (show isBlank ':' = false from rfl),
      value_text hj (show 2 * j.text.toList.length ≤ fuel by omega) (ends_comma _),
      skipBlanks_cons (show isBlank ',' = false from rfl),
      members_text s' hms.2.1 hms.2.2
        (show 2 * (membersChars ((.plain s', k) :: ms)).length + 1 ≤ fuel by omega)]
  | _, (.unpaired, _) :: _, _, hms, _ + 1, _, _ => absurd rfl hms.1

end

/-- The text of a proper value is read back to its end. -/
theorem read_text {j : Json} (hj : j.Proper) : read j.text = (j, []) := by
  have whole : value (2 * j.text.toList.length + 2) (j.text.toList ++ []) = (j, []) :=
    value_text hj (by omega) Numeral.Ends.nil
  rwa [List.append_nil] at whole

end SqlTree.Json
