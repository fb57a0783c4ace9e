import SqlTree.Json.Reader
import SqlTree.Json.Text

/-!
# Written strings

Between its quotes a string is written character by character, some of them escaped; reading takes
the characters back, whichever they are.
-/

namespace SqlTree.Json

open Reader

/-! ## Characters -/

/-- The code of one character, and the codes that follow it. -/
def followed (code : Nat) (more : Option (List Nat × List Char)) : Option (List Nat × List Char) :=
  more.map fun (codes, rest) => (code :: codes, rest)

theorem codes_unicode {a b c d : Char} {code : Nat} (h : Text.hexValue? [a, b, c, d] = some code)
    (rest : List Char) : codes ('\\' :: 'u' :: a :: b :: c :: d :: rest) =
      followed code (codes rest) := by
  rw [codes, h]
  cases codes rest <;> rfl

theorem codes_escape {e c : Char} (h : escape? e = some c) (rest : List Char) :
    codes ('\\' :: e :: rest) = followed c.toNat (codes rest) := by
  have letter : e ≠ 'u' := by
    rintro rfl
    exact nomatch (show none = some c from h)
  rw [codes, h]
  · cases codes rest <;> rfl
  · rintro _ _ _ _ _ h' -
    exact letter h'

theorem codes_plain {c : Char} (hq : c ≠ '"') (hb : c ≠ '\\') (hc : ¬ c.toNat < 0x20)
    (rest : List Char) : codes (c :: rest) = followed c.toNat (codes rest) := by
  rw [codes.eq_def]
  split
  · contradiction
  · rename_i h
    exact absurd (List.cons.inj h).1 hq
  · rename_i h
    exact absurd (List.cons.inj h).1 hb
  · rename_i h
    exact absurd (List.cons.inj h).1 hb
  · rename_i h
    obtain ⟨rfl, rfl⟩ := List.cons.inj h
    rw [if_neg (not_or.mpr ⟨hc, hb⟩)]
    cases codes rest <;> rfl

/-- A control character without a letter of its own is escaped by its code in four digits. -/
theorem hexadecimal4_control : ∀ n < 0x20, ∃ a b c d,
    (Text.hexadecimal4 n).toList = [a, b, c, d] ∧ Text.hexValue? [a, b, c, d] = some n := by
  have digits : ∀ n < 0x20, (Text.hexadecimal4 n).toList.length = 4 ∧
      Text.hexValue? (Text.hexadecimal4 n).toList = some n := by decide
  intro n hn
  obtain ⟨length, value⟩ := digits n hn
  match (Text.hexadecimal4 n).toList, length, value with
  | [a, b, c, d], _, value => exact ⟨a, b, c, d, rfl, value⟩

theorem codes_escaped (c : Char) (rest : List Char) :
    codes ((escaped c).toList ++ rest) = followed c.toNat (codes rest) := by
  unfold escaped
  -- seven characters have a letter for their escape
  split
  · have letter : escape? '"' = some '"' := rfl
    simpa using codes_escape letter rest
  · have letter : escape? '\\' = some '\\' := rfl
    simpa using codes_escape letter rest
  · have letter : escape? 'b' = some '\x08' := rfl
    simpa using codes_escape letter rest
  · have letter : escape? 'f' = some '\x0c' := rfl
    simpa using codes_escape letter rest
  · have letter : escape? 'n' = some '\n' := rfl
    simpa using codes_escape letter rest
  · have letter : escape? 'r' = some '\r' := rfl
    simpa using codes_escape letter rest
  · have letter : escape? 't' = some '\t' := rfl
    simpa using codes_escape letter rest
  · rename_i hq hb _ _ _ _ _
    split
    · rename_i control
      obtain ⟨a, b, c, d, text, value⟩ := hexadecimal4_control _ control
      rw [String.toList_append, text]
      exact codes_unicode value rest
    · rename_i visible
      rw [Char.toString, String.toList_singleton]
      exact codes_plain hq hb visible rest

/-! ## Whole strings -/

/-- How the characters stand between the quotes. -/
def escapedChars (cs : List Char) : List Char := cs.flatMap fun c => (escaped c).toList

theorem codes_escapedChars (rest : List Char) : ∀ cs : List Char,
    codes (escapedChars cs ++ '"' :: rest) = some (cs.map Char.toNat, rest)
  | [] => rfl
  | c :: cs => by
    rw [escapedChars, List.flatMap_cons, List.append_assoc, codes_escaped]
    rw [← escapedChars, codes_escapedChars rest cs]
    rfl

/-- No character is half a surrogate pair. -/
theorem not_half (c : Char) : isHighHalf c.toNat = false ∧ isLowHalf c.toNat = false := by
  have valid : c.toNat.isValidChar := c.valid
  simp only [Nat.isValidChar] at valid
  simp only [isHighHalf, isLowHalf, Bool.and_eq_false_iff, decide_eq_false_iff_not]
  omega

theorem paired_toNat : ∀ cs : List Char, paired (cs.map Char.toNat) = some cs
  | [] => rfl
  | [c] => by
    rw [List.map_singleton, paired, (not_half c).1, (not_half c).2, Char.ofNat_toNat]
    rfl
  | c :: d :: cs => by
    have rest : paired (d.toNat :: cs.map Char.toNat) = some (d :: cs) := paired_toNat (d :: cs)
    rw [List.map_cons, List.map_cons, paired, rest, (not_half c).1, (not_half c).2,
      Char.ofNat_toNat]
    rfl

theorem word_escapedChars (s : String) (rest : List Char) :
    word (escapedChars s.toList ++ '"' :: rest) = some (.plain s, rest) := by
  rw [word, codes_escapedChars]
  simp only [paired_toNat, String.ofList_toList]

theorem toList_stringText (s : String) :
    (stringText s).toList = '"' :: (escapedChars s.toList ++ ['"']) := by
  rw [stringText, String.toList_append, String.toList_append, String.toList_join, List.flatMap_map]
  rfl

end SqlTree.Json
