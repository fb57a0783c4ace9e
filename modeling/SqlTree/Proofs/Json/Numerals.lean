import SqlTree.Json.Reader

/-!
# Written numerals

A proper numeral has digits before its point, no zero before other digits, and digits behind the
point if it has one. Such a numeral, written, is read back, whatever follows it; what follows must
only not go on with it.
-/

namespace SqlTree.Numeral

/-! ## Digits -/

theorem natOfDigits_eq (ds : List Char) : natOfDigits ds = Nat.ofDigitChars 10 ds 0 :=
  Nat.ofDigitChars_eq_foldl.symm

@[simp]
theorem natOfDigits_digitsOfNat (n : Nat) : natOfDigits (digitsOfNat n) = n := by
  rw [natOfDigits_eq, digitsOfNat, Nat.ofDigitChars_ten_toDigits]

theorem isDigit_of_mem_digitsOfNat {n : Nat} {c : Char} (h : c ∈ digitsOfNat n) :
    c.isDigit = true :=
  Nat.isDigit_of_mem_toDigits (by decide) (by decide) h

theorem digitsOfNat_ne_nil (n : Nat) : digitsOfNat n ≠ [] := Nat.toDigits_ne_nil

/-- Only zero itself starts with a zero. -/
theorem head_digitsOfNat {n : Nat} (h : 0 < n) : (digitsOfNat n).head? ≠ some '0' := by
  rw [digitsOfNat]
  by_cases small : n < 10
  · rw [Nat.toDigits_of_lt_base small]
    have digit : ∀ n < 10, 0 < n → [n.digitChar].head? ≠ some '0' := by decide
    exact digit n small h
  · have fewer := head_digitsOfNat (Nat.div_pos (Nat.le_of_not_lt small) (by decide : 0 < 10))
    rw [Nat.toDigits_of_base_le (by decide) (Nat.le_of_not_lt small)]
    rw [digitsOfNat] at fewer
    rcases hd : Nat.toDigits 10 (n / 10) with _ | ⟨d, ds⟩
    · exact absurd hd Nat.toDigits_ne_nil
    · rwa [hd] at fewer

/-! ## What may follow -/

/-- The text does not go on with a numeral that stands before it. -/
def Ends (rest : List Char) : Prop :=
  ∀ c ∈ rest.head?, c.isDigit = false ∧ c ≠ '.' ∧ c ≠ 'e' ∧ c ≠ 'E'

theorem Ends.nil : Ends [] := fun _ h => absurd h (Option.not_mem_none _)

theorem Ends.cons {c : Char} (h : c.isDigit = false ∧ c ≠ '.' ∧ c ≠ 'e' ∧ c ≠ 'E')
    (rest : List Char) : Ends (c :: rest) := by
  intro c' hc
  rw [List.head?_cons, Option.mem_some_iff] at hc
  exact hc ▸ h

theorem splitDigits_append {ds rest : List Char} (hd : ∀ c ∈ ds, c.isDigit = true)
    (hr : ∀ c ∈ rest.head?, c.isDigit = false) : splitDigits (ds ++ rest) = (ds, rest) := by
  have none : rest.takeWhile Char.isDigit = [] ∧ rest.dropWhile Char.isDigit = rest := by
    cases rest with
    | nil => exact ⟨rfl, rfl⟩
    | cons c cs =>
      have hc := hr c rfl
      simp [hc]
  rw [splitDigits, List.takeWhile_append_of_pos hd, List.dropWhile_append_of_pos hd, none.1, none.2,
    List.append_nil]

/-! ## Reading what was written -/

theorem readExponent?_text (e : Int) {rest : List Char} (hr : ∀ c ∈ rest.head?, c.isDigit = false) :
    readExponent? ((if e < 0 then '-' else '+') :: (digitsOfNat e.natAbs ++ rest)) =
      some (e, rest) := by
  have split := splitDigits_append (fun _ => isDigit_of_mem_digitsOfNat (n := e.natAbs)) hr
  have value := natOfDigits_digitsOfNat e.natAbs
  have some_digits := digitsOfNat_ne_nil e.natAbs
  rcases hd : digitsOfNat e.natAbs with _ | ⟨d, ds⟩
  · exact absurd hd some_digits
  · rw [hd] at split value
    by_cases negative : e < 0
    · rw [if_pos negative, readExponent?]
      simp only [split, if_true, value]
      rw [show -(e.natAbs : Int) = e by omega]
    · rw [if_neg negative, readExponent?]
      simp only [split, Bool.false_eq_true, if_false, value]
      rw [show (e.natAbs : Int) = e by omega]

/-- Digits before the point, no zero before other digits, and digits behind a point. -/
structure Proper (n : Numeral) : Prop where
  whole_ne_nil : n.whole ≠ []
  whole_digits : ∀ c ∈ n.whole, c.isDigit = true
  zero_alone : ∀ c cs, n.whole ≠ '0' :: c :: cs
  fraction_ne_nil : n.fraction? ≠ some []
  fraction_digits : ∀ ds ∈ n.fraction?, ∀ c ∈ ds, c.isDigit = true

/-- The point and the digits behind it. -/
def fractionChars : Option (List Char) → List Char
  | none => []
  | some digits => '.' :: digits

def exponentChars : Option Int → List Char
  | none => []
  | some e => 'e' :: (if e < 0 then '-' else '+') :: digitsOfNat e.natAbs

theorem toList_exponentText (e : Int) :
    (exponentText e).toList = exponentChars (some e) := by
  by_cases h : e < 0 <;> simp [exponentChars, exponentText, digitsOfNat, h]

theorem toList_text (n : Numeral) :
    n.text.toList = (if n.negative then ['-'] else []) ++
      (n.whole ++ (fractionChars n.fraction? ++ exponentChars n.exponent?)) := by
  rcases n with ⟨negative, whole, fraction?, exponent?⟩
  have sign : (signText negative).toList = if negative then ['-'] else [] := by
    cases negative <;> rfl
  cases fraction? <;> cases exponent? <;>
    simp [text, sign, fractionChars, toList_exponentText, exponentChars]

theorem exponent_ends (exponent? : Option Int) {rest : List Char} (hr : Ends rest) :
    ∀ c ∈ (exponentChars exponent? ++ rest).head?, c.isDigit = false ∧ c ≠ '.' := by
  cases exponent? with
  | none => exact fun c hc => ⟨(hr c hc).1, (hr c hc).2.1⟩
  | some e =>
    intro c hc
    obtain rfl : 'e' = c := by simpa [exponentChars] using hc
    decide

theorem readTail?_text {n : Numeral} (hn : n.Proper) {rest : List Char} (hr : Ends rest) :
    readTail? n.negative n.whole 1
      (fractionChars n.fraction? ++ (exponentChars n.exponent? ++ rest)) = some (n, rest) := by
  rcases n with ⟨negative, whole, fraction?, exponent?⟩
  have digits : ∀ c ∈ rest.head?, c.isDigit = false := fun c hc => (hr c hc).1
  have ends := exponent_ends exponent? hr
  cases fraction? with
  | some ds =>
    have split := splitDigits_append (hn.fraction_digits ds rfl) fun c hc => (ends c hc).1
    have some_digits : ¬ ds = [] := fun h => hn.fraction_ne_nil (congrArg some h)
    cases exponent? with
    | some e =>
      rw [exponentChars, List.cons_append, List.cons_append] at split ⊢
      simp [readTail?, fractionChars, split, some_digits, readExponent?_text e digits]
    | none =>
      rw [exponentChars, List.nil_append] at split ⊢
      cases rest with
      | nil =>
        rw [List.append_nil] at split
        simp [readTail?, fractionChars, split, some_digits]
      | cons c cs =>
        have hc := hr c rfl
        simp [readTail?, fractionChars, split, some_digits, hc]
  | none =>
    rw [fractionChars, List.nil_append]
    cases exponent? with
    | some e =>
      rw [exponentChars, List.cons_append, List.cons_append]
      simp [readTail?, readExponent?_text e digits]
    | none =>
      rw [exponentChars, List.nil_append]
      cases rest with
      | nil => rfl
      | cons c cs =>
        have hc := hr c rfl
        simp [readTail?, hc]

theorem magnitude?_text {n : Numeral} (hn : n.Proper) {rest : List Char} (hr : Ends rest) :
    Json.Reader.magnitude? n.negative
      (n.whole ++ (fractionChars n.fraction? ++ (exponentChars n.exponent? ++ rest))) =
        some (n, rest) := by
  have after : ∀ c ∈ (fractionChars n.fraction? ++ (exponentChars n.exponent? ++ rest)).head?,
      c.isDigit = false := by
    cases n.fraction? with
    | none => exact fun c hc => (exponent_ends n.exponent? hr c hc).1
    | some ds =>
      intro c hc
      obtain rfl : '.' = c := by simpa [fractionChars] using hc
      decide
  have tail := readTail?_text hn hr
  have some_digits := hn.whole_ne_nil
  have alone := hn.zero_alone
  rw [Json.Reader.magnitude?, splitDigits_append hn.whole_digits after]
  split
  · rename_i h
    exact absurd (congrArg Prod.fst h) some_digits
  · rename_i h
    exact absurd (congrArg Prod.fst h) (alone _ _)
  · rename_i h
    obtain ⟨rfl, rfl⟩ := Prod.mk.inj h
    exact tail

/-- A proper numeral is read back, whatever follows it. -/
theorem numeral?_text {n : Numeral} (hn : n.Proper) {rest : List Char} (hr : Ends rest) :
    Json.Reader.numeral? (n.text.toList ++ rest) = some (n, rest) := by
  have read := magnitude?_text hn hr
  rw [toList_text, List.append_assoc, List.append_assoc, List.append_assoc]
  -- a sign can only be the first character, as the whole part has digits alone
  cases hs : n.negative with
  | true =>
    rw [hs] at read
    exact read
  | false =>
    rw [hs] at read
    obtain ⟨c, cs, hw⟩ := List.exists_cons_of_ne_nil hn.whole_ne_nil
    have digit : c.isDigit = true := hn.whole_digits c (hw ▸ List.mem_cons_self)
    have no_sign : c ≠ '-' := by
      rintro rfl
      exact absurd digit (by decide)
    rw [if_neg Bool.false_ne_true, List.nil_append, hw, List.cons_append, Json.Reader.numeral?]
    · rwa [← List.cons_append, ← hw]
    · rintro cs' h
      exact no_sign (List.cons.inj h).1

/-! ## Whole numbers -/

theorem digits_proper (negative : Bool) (n : Nat) :
    Proper ⟨negative, digitsOfNat n, none, none⟩ where
  whole_ne_nil := digitsOfNat_ne_nil n
  whole_digits _ := isDigit_of_mem_digitsOfNat
  zero_alone c cs h := by
    rcases Nat.eq_zero_or_pos n with rfl | pos
    · exact absurd (congrArg List.length h) (by simp [digitsOfNat])
    · exact head_digitsOfNat pos (congrArg List.head? h)
  fraction_ne_nil := by simp
  fraction_digits := by simp

theorem ofNat_proper (n : Nat) : (ofNat n).Proper := digits_proper false n

theorem ofInt_proper (n : Int) : (ofInt n).Proper := digits_proper (n < 0) n.natAbs

@[simp]
theorem int?_ofNat (n : Nat) : (ofNat n).int? = some (n : Int) := by
  simp [ofNat, int?]

@[simp]
theorem int?_ofInt (n : Int) : (ofInt n).int? = some n := by
  unfold ofInt int?
  dsimp only
  rw [natOfDigits_digitsOfNat]
  by_cases h : n < 0
  · have nonzero : n.natAbs ≠ 0 := by omega
    have value : -(n.natAbs : Int) = n := by omega
    rw [decide_eq_true h, if_neg (by decide), if_neg nonzero, value]
  · have value : (n.natAbs : Int) = n := by omega
    rw [decide_eq_false h, if_pos (by decide), value]

end SqlTree.Numeral
