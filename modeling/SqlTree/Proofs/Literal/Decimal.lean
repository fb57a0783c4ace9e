import Mathlib.Data.List.TakeWhile
import SqlTree.Literal

/-!
# The grammar of decimals

A decimal is a sign or none, and then digits that a point may follow or divide, or a point and
digits. The check of a text takes away one sign and cuts at the first point; it passes exactly the
texts of the grammar.
-/

namespace SqlTree.Literal

/-! ## The grammar -/

/-- Decimal digits and nothing else, or no character at all. -/
def Digits (cs : List Char) : Prop := ∀ c ∈ cs, '0' ≤ c ∧ c ≤ '9'

/-- A decimal without a sign. -/
inductive DecimalBody : List Char → Prop
  | whole {ds : List Char} : ds ≠ [] → Digits ds → DecimalBody ds
  /-- Digits stand before the point, and perhaps behind it. -/
  | pointed {ds es : List Char} : ds ≠ [] → Digits ds → Digits es → DecimalBody (ds ++ '.' :: es)
  /-- No digit stands before the point, so one has to stand behind it. -/
  | fraction {es : List Char} : es ≠ [] → Digits es → DecimalBody ('.' :: es)

/-- A decimal with one sign at most. -/
inductive DecimalText : List Char → Prop
  | unsigned {cs : List Char} : DecimalBody cs → DecimalText cs
  | signed {sign : Char} {cs : List Char} : sign = '+' ∨ sign = '-' → DecimalBody cs →
      DecimalText (sign :: cs)

/-! ## Its characters -/

theorem isDigit_iff {c : Char} : c.isDigit = true ↔ '0' ≤ c ∧ c ≤ '9' := by
  simp [Char.isDigit, Char.le_def]

theorem all_isDigit_iff {cs : List Char} : cs.all Char.isDigit = true ↔ Digits cs := by
  simp only [List.all_eq_true, isDigit_iff, Digits]

theorem Digits.point_notMem {cs : List Char} (h : Digits cs) : '.' ∉ cs := by
  intro point
  exact absurd (h '.' point) (by decide)

theorem DecimalBody.mem {cs : List Char} (h : DecimalBody cs) {c : Char} (hc : c ∈ cs) :
    c = '.' ∨ c.isDigit = true := by
  cases h with
  | whole _ digits => exact .inr (isDigit_iff.mpr (digits c hc))
  | pointed _ before behind =>
    rcases List.mem_append.mp hc with hc | hc
    · exact .inr (isDigit_iff.mpr (before c hc))
    · exact (List.mem_cons.mp hc).imp_right fun hc => isDigit_iff.mpr (behind c hc)
  | fraction _ behind =>
    exact (List.mem_cons.mp hc).imp_right fun hc => isDigit_iff.mpr (behind c hc)

theorem DecimalText.mem {cs : List Char} (h : DecimalText cs) {c : Char} (hc : c ∈ cs) :
    (c = '+' ∨ c = '-') ∨ c = '.' ∨ c.isDigit = true := by
  cases h with
  | unsigned body => exact .inr (body.mem hc)
  | signed sign body =>
    rcases List.mem_cons.mp hc with rfl | hc
    · exact .inl sign
    · exact .inr (body.mem hc)

/-- A sign is none of the characters that may follow it. -/
theorem DecimalBody.not_signed {sign : Char} {cs : List Char} (h : sign = '+' ∨ sign = '-') :
    ¬ DecimalBody (sign :: cs) := by
  intro body
  have first := body.mem List.mem_cons_self
  rcases h with rfl | rfl <;> exact absurd first (by decide)

theorem decimalText_cons_iff {sign : Char} {cs : List Char} (h : sign = '+' ∨ sign = '-') :
    DecimalText (sign :: cs) ↔ DecimalBody cs := by
  refine ⟨fun text => ?_, .signed h⟩
  cases text with
  | unsigned body => exact absurd body (DecimalBody.not_signed h)
  | signed _ body => exact body

theorem decimalText_iff_of_unsigned {cs : List Char} (plus : ∀ rest, cs ≠ '+' :: rest)
    (minus : ∀ rest, cs ≠ '-' :: rest) : DecimalText cs ↔ DecimalBody cs := by
  refine ⟨fun text => ?_, .unsigned⟩
  cases text with
  | unsigned body => exact body
  | @signed sign rest h =>
    rcases h with rfl | rfl
    · exact absurd rfl (plus rest)
    · exact absurd rfl (minus rest)

/-! ## The check -/

theorem ne_point_of_notMem {cs : List Char} (h : '.' ∉ cs) : ∀ c ∈ cs, decide (c ≠ '.') = true := by
  intro c hc
  exact decide_eq_true fun same => h (same ▸ hc)

theorem isDecimalBody_of_point_notMem {cs : List Char} (h : '.' ∉ cs) :
    isDecimalBody cs = true ↔ cs ≠ [] ∧ Digits cs := by
  have passes := ne_point_of_notMem h
  unfold isDecimalBody
  rw [List.takeWhile_eq_self_iff.mpr passes, List.dropWhile_eq_nil_iff.mpr passes]
  simp [← all_isDigit_iff]

/-- The point is the first one, so what stands before it holds none. -/
theorem isDecimalBody_append {whole fraction : List Char} (h : '.' ∉ whole) :
    isDecimalBody (whole ++ '.' :: fraction) = true ↔
      (whole ≠ [] ∨ fraction ≠ []) ∧ Digits whole ∧ Digits fraction := by
  have passes := ne_point_of_notMem h
  unfold isDecimalBody
  rw [List.takeWhile_append_of_pos passes, List.dropWhile_append_of_pos passes]
  simp [← all_isDigit_iff, and_assoc]

theorem isDecimalBody_iff {cs : List Char} : isDecimalBody cs = true ↔ DecimalBody cs := by
  constructor
  · intro h
    -- later points stand behind the first one, where the check of the digits refuses them
    by_cases point : '.' ∈ cs
    · obtain ⟨whole, fraction, rfl, first⟩ := List.eq_append_cons_of_mem point
      obtain ⟨given, before, behind⟩ := (isDecimalBody_append first).mp h
      by_cases empty : whole = []
      · subst empty
        exact .fraction (given.resolve_left fun h => h rfl) behind
      · exact .pointed empty before behind
    · obtain ⟨given, digits⟩ := (isDecimalBody_of_point_notMem point).mp h
      exact .whole given digits
  · intro h
    cases h with
    | whole given digits =>
      exact (isDecimalBody_of_point_notMem digits.point_notMem).mpr ⟨given, digits⟩
    | pointed given before behind =>
      exact (isDecimalBody_append before.point_notMem).mpr ⟨.inl given, before, behind⟩
    | fraction given behind =>
      exact (isDecimalBody_append List.not_mem_nil).mpr ⟨.inr given, nofun, behind⟩

/-- The check of a text passes exactly the texts of the grammar. -/
theorem isDecimalText_iff {text : String} :
    isDecimalText text = true ↔ DecimalText text.toList := by
  unfold isDecimalText
  generalize text.toList = cs
  split
  case h_1 cs => exact isDecimalBody_iff.trans (decimalText_cons_iff (.inr rfl)).symm
  case h_2 cs => exact isDecimalBody_iff.trans (decimalText_cons_iff (.inl rfl)).symm
  case h_3 cs minus plus =>
    exact isDecimalBody_iff.trans (decimalText_iff_of_unsigned plus minus).symm

end SqlTree.Literal
