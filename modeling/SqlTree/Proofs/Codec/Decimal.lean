import SqlTree.Proofs.Codec.RoundTrip
import SqlTree.Proofs.Literal.Decimal

/-!
# Made and decoded decimals

A decimal is made from a text, or decoded from a document that holds the text. Either way the texts
of the grammar are taken, they are kept as they are, and every other text is refused for the same
cause.
-/

namespace SqlTree.Literal

open Json.Reader (isBlank members skipBlanks value word)

/-! ## Making -/

theorem decimalOf_eq_ok_iff {s : String} {a : Literal} :
    decimalOf s = .ok a ↔ a = decimal s ∧ DecimalText s.toList :=
  decimalOf_eq_ok.trans (and_congr_right' isDecimalText_iff)

theorem exists_decimalOf_iff {s : String} :
    (∃ a, decimalOf s = .ok a) ↔ DecimalText s.toList := by
  simp only [decimalOf_eq_ok_iff, exists_eq_left]

theorem decimalOf_eq_error {s : String} (h : ¬ DecimalText s.toList) :
    decimalOf s = .error (.malformedDecimal s) :=
  if_neg fun passes => h (isDecimalText_iff.mp passes)

/-! ## Decoding -/

theorem proper_decimalDocument (s : String) : (Json.tagged "Decimal" (.ofString s)).Proper :=
  Json.proper_record (by simp [Json.ofString, Json.Proper])

section Reader

variable [Double.Reader]

/-- The document with the text is decoded as the decimal is made. -/
theorem decoder_decimal (levels : Nat) (s : String) :
    decoder (levels + 1) (.tagged "Decimal" (.ofString s)) = (decimalOf s).mapError .invalid := by
  have behind : alternatives.lookup "Decimal" = some (.value (Decoder.string.map decimal)) := rfl
  have given : Decoder.tagged alternatives (levels + 1) (.tagged "Decimal" (.ofString s)) =
      .ok (decimal s) := Decoder.tagged_value behind levels (.ofString s)
  exact Decoder.checked_of_ok given

theorem decode_decimal {s text : String}
    (read : (Json.tagged "Decimal" (.ofString s)).IsReadFrom text) :
    decoder.decode text = (decimalOf s).mapError .invalid := by
  rw [Decoder.decode_eq_of_isReadFrom read]
  exact decoder_decimal _ s

theorem exists_decode_decimal_iff {s text : String}
    (read : (Json.tagged "Decimal" (.ofString s)).IsReadFrom text) :
    (∃ a, decoder.decode text = .ok a) ↔ DecimalText s.toList := by
  rw [decode_decimal read]
  simp only [Except.mapError_eq_ok, exists_decimalOf_iff]

/-! ## The same texts -/

/-- A decimal is made from the texts of the grammar and from no others, and it is written as its
text. A document that holds the text is decoded from the same texts: wherever it stands, and
however it is spelled as a text of its own, it gives the decimal that is made from the text, or is
refused for the cause for which none is made. -/
theorem decimalOf_iff_grammar (s : String) :
    ((∃ a, decimalOf s = .ok a) ↔ DecimalText s.toList) ∧
      (∀ a, decimalOf s = .ok a → a = decimal s ∧ a.text = s) ∧
      (¬ DecimalText s.toList → decimalOf s = .error (.malformedDecimal s)) ∧
      (∀ levels, decoder (levels + 1) (.tagged "Decimal" (.ofString s)) =
        (decimalOf s).mapError .invalid) ∧
      (∀ text, (Json.tagged "Decimal" (.ofString s)).IsReadFrom text →
        ((∃ a, decoder.decode text = .ok a) ↔ DecimalText s.toList) ∧
          decoder.decode text = (decimalOf s).mapError .invalid) ∧
      (Json.tagged "Decimal" (.ofString s)).IsReadFrom
        (Json.tagged "Decimal" (.ofString s)).text := by
  refine ⟨exists_decimalOf_iff, ?_, decimalOf_eq_error, fun levels => decoder_decimal levels s,
    fun text read => ⟨exists_decode_decimal_iff read, decode_decimal read⟩,
    (proper_decimalDocument s).isReadFrom⟩
  intro a made
  obtain ⟨rfl, -⟩ := decimalOf_eq_ok_iff.mp made
  exact ⟨rfl, rfl⟩

end Reader

/-- A sign, which the document spells by its code, and no digit before the point; and a second sign,
which is one too many. -/
theorem decimalOf_iff_grammar_signs :
    let spelled : String := "\x7b \"Decimal\" : \"\\u002d.50\" \x7d\n"
    let twice : String := "\x7b\"Decimal\":\"-+1.\"\x7d"
    (Json.tagged "Decimal" (.ofString "-.50")).IsReadFrom spelled ∧
      DecimalText "-.50".toList ∧ decimalOf "-.50" = .ok (decimal "-.50") ∧
      decoder.decode spelled = .ok (decimal "-.50") ∧
      (Json.tagged "Decimal" (.ofString "-+1.")).IsReadFrom twice ∧
      ¬ DecimalText "-+1.".toList ∧
      decoder.decode twice = .error (.invalid (.malformedDecimal "-+1.")) := by
  intro spelled twice
  have read : (Json.tagged "Decimal" (.ofString "-.50")).IsReadFrom spelled := by
    have name (cs : List Char) :
        word ('D' :: 'e' :: 'c' :: 'i' :: 'm' :: 'a' :: 'l' :: '"' :: cs) =
          some (.plain "Decimal", cs) := rfl
    have number (cs : List Char) :
        word ('\\' :: 'u' :: '0' :: '0' :: '2' :: 'd' :: '.' :: '5' :: '0' :: '"' :: cs) =
          some (.plain "-.50", cs) := rfl
    have chars : spelled.toList = ['\x7b', ' ', '"', 'D', 'e', 'c', 'i', 'm', 'a', 'l', '"', ' ',
        ':', ' ', '"', '\\', 'u', '0', '0', '2', 'd', '.', '5', '0', '"', ' ', '\x7d', '\n'] := by
      decide
    have whole : Json.read spelled = (.tagged "Decimal" (.ofString "-.50"), ['\n']) := by
      simp [Json.read, chars, value, members, skipBlanks, isBlank, name, number, Json.tagged,
        Json.record, Json.ofString]
    exact .of_read whole rfl
  have readTwice : (Json.tagged "Decimal" (.ofString "-+1.")).IsReadFrom twice :=
    (proper_decimalDocument "-+1.").isReadFrom
  have grammar : DecimalText "-.50".toList :=
    .signed (.inr rfl) (.fraction (List.cons_ne_nil '5' ['0']) (all_isDigit_iff.mp rfl))
  have refused : ¬ DecimalText "-+1.".toList := fun h =>
    absurd (isDecimalText_iff.mpr h) (by decide)
  obtain ⟨made, same, -, -, decoded, -⟩ := decimalOf_iff_grammar "-.50"
  obtain ⟨-, -, notMade, -, decodedTwice, -⟩ := decimalOf_iff_grammar "-+1."
  obtain ⟨a, ha⟩ := made.mpr grammar
  obtain rfl := (same a ha).1
  have given := (decoded spelled read).2
  have notGiven := (decodedTwice twice readTwice).2
  rw [ha] at given
  rw [notMade refused] at notGiven
  exact ⟨read, grammar, ha, given, readTwice, refused, notGiven⟩

end SqlTree.Literal
