import SqlTree.Double.Text
import SqlTree.Proofs.Double.Shortest
import SqlTree.Proofs.Json.Numerals

/-!
# Written doubles, read

Every finite double has a numeral, and the numeral is read as that very double: the digits of the
shortest decimal are only moved about its point.
-/

namespace SqlTree

open Numeral (digitsOfNat natOfDigits)

/-! ## Zeros around digits -/

namespace Numeral

theorem natOfDigits_append (ds es : List Char) :
    natOfDigits (ds ++ es) = 10 ^ es.length * natOfDigits ds + natOfDigits es := by
  rw [natOfDigits_eq, natOfDigits_eq, natOfDigits_eq, Nat.ofDigitChars_append,
    Nat.ofDigitChars_eq_ofDigitChars_zero]

theorem natOfDigits_replicate (n : ℕ) : natOfDigits (List.replicate n '0') = 0 := by
  rw [natOfDigits_eq, Nat.ofDigitChars_replicate_zero, Nat.mul_zero]

theorem natOfDigits_zeros_append (n : ℕ) (ds : List Char) :
    natOfDigits (List.replicate n '0' ++ ds) = natOfDigits ds := by
  rw [natOfDigits_append, natOfDigits_replicate, Nat.mul_zero, Nat.zero_add]

theorem natOfDigits_append_zeros (ds : List Char) (n : ℕ) :
    natOfDigits (ds ++ List.replicate n '0') = 10 ^ n * natOfDigits ds := by
  rw [natOfDigits_append, natOfDigits_replicate, List.length_replicate, Nat.add_zero]

/-- The number that the numeral stands for, up to its sign. -/
def value (n : Numeral) : ℚ := n.digits * 10 ^ n.exponent

end Numeral

namespace Double

/-! ## The numeral of a decimal -/

namespace Decimal

variable {s : Decimal}

/-- The digits stand on one side of the point or on both, with zeros in places without a digit. -/
theorem positional_cases (s : Decimal) :
    (s.wholeCount ≤ 0 ∧ s.positional =
      (['0'], List.replicate (-s.wholeCount).toNat '0' ++ digitsOfNat s.digits)) ∨
    (0 ≤ s.exponent ∧ s.positional =
      (digitsOfNat s.digits ++ List.replicate s.exponent.toNat '0', ['0'])) ∨
    (0 < s.wholeCount ∧ s.wholeCount < (digitsOfNat s.digits).length ∧ s.positional =
      ((digitsOfNat s.digits).take s.wholeCount.toNat,
        (digitsOfNat s.digits).drop s.wholeCount.toNat)) := by
  unfold positional
  dsimp only
  by_cases none : s.wholeCount ≤ 0
  · exact .inl ⟨none, if_pos none⟩
  · rw [if_neg none]
    by_cases all : (digitsOfNat s.digits).length ≤ s.wholeCount
    · have zeros : s.wholeCount - (digitsOfNat s.digits).length = s.exponent := by
        rw [wholeCount]
        omega
      rw [if_pos all, zeros]
      exact .inr (.inl ⟨by omega, rfl⟩)
    · rw [if_neg all]
      exact .inr (.inr ⟨by omega, by omega, rfl⟩)

theorem value_positional (s : Decimal) (negative : Bool) :
    (⟨negative, s.positional.1, some s.positional.2, none⟩ : Numeral).value = s.value := by
  rw [Numeral.value, Decimal.value, Numeral.digits, Numeral.exponent]
  simp only [Option.getD_none, Option.getD_some]
  rcases s.positional_cases with ⟨none, eq⟩ | ⟨whole, eq⟩ | ⟨some, fewer, eq⟩
  · have zeros : ['0'] = List.replicate 1 '0' := rfl
    have digits : natOfDigits (['0'] ++ (List.replicate (-s.wholeCount).toNat '0' ++
        digitsOfNat s.digits)) = s.digits := by
      rw [zeros, Numeral.natOfDigits_zeros_append, Numeral.natOfDigits_zeros_append,
        Numeral.natOfDigits_digitsOfNat]
    have exponent : (0 : ℤ) - (List.replicate (-s.wholeCount).toNat '0' ++
        digitsOfNat s.digits).length = s.exponent := by
      rw [List.length_append, List.length_replicate]
      rw [wholeCount] at none ⊢
      omega
    rw [eq, digits, exponent]
  · have digits : natOfDigits (digitsOfNat s.digits ++ List.replicate s.exponent.toNat '0' ++
        ['0']) = 10 ^ (s.exponent.toNat + 1) * s.digits := by
      rw [List.append_assoc, ← List.replicate_succ', Numeral.natOfDigits_append_zeros,
        Numeral.natOfDigits_digitsOfNat]
    have power : ((10 : ℚ) ^ s.exponent.toNat) = 10 ^ s.exponent := by
      rw [← zpow_natCast, Int.toNat_of_nonneg whole]
    rw [eq, digits, List.length_singleton, Nat.cast_mul, Nat.cast_pow, pow_succ]
    push_cast
    rw [power, zpow_neg_one]
    field_simp
  · have exponent : (0 : ℤ) - ((digitsOfNat s.digits).drop s.wholeCount.toNat).length =
        s.exponent := by
      rw [List.length_drop]
      rw [wholeCount] at some fewer ⊢
      omega
    rw [eq, List.take_append_drop, Numeral.natOfDigits_digitsOfNat, exponent]

/-- The digits of a number but zero, or some at their head, make a whole part. -/
theorem head_ne_zero {ds : List Char} (hs : 0 < s.digits) (whole_ne_nil : ds ≠ [])
    (hd : ds <+: digitsOfNat s.digits) (rest : List Char) (c : Char) (cs : List Char) :
    ds ++ rest ≠ '0' :: c :: cs := by
  intro h
  obtain ⟨d, ds, rfl⟩ := List.exists_cons_of_ne_nil whole_ne_nil
  obtain ⟨others, ho⟩ := hd
  apply Numeral.head_digitsOfNat hs
  rw [← ho, List.cons_append, List.head?_cons, (List.cons.inj h).1]

theorem isDigit_of_mem_zeros {n : ℕ} {c : Char} (h : c ∈ List.replicate n '0') :
    c.isDigit = true := by
  rw [List.eq_of_mem_replicate h]
  decide

theorem isDigit_of_mem_positional {c : Char} (h : c ∈ s.positional.1 ∨ c ∈ s.positional.2) :
    c.isDigit = true := by
  have digit {c : Char} : c ∈ digitsOfNat s.digits → c.isDigit = true :=
    Numeral.isDigit_of_mem_digitsOfNat
  have zero : '0'.isDigit = true := by decide
  rcases s.positional_cases with ⟨-, eq⟩ | ⟨-, eq⟩ | ⟨-, -, eq⟩
  all_goals
    rw [eq] at h
    rcases h with whole | fraction
  · exact List.mem_singleton.mp whole ▸ zero
  · exact (List.mem_append.mp fraction).elim isDigit_of_mem_zeros digit
  · exact (List.mem_append.mp whole).elim digit isDigit_of_mem_zeros
  · exact List.mem_singleton.mp fraction ▸ zero
  · exact digit (List.mem_of_mem_take whole)
  · exact digit (List.mem_of_mem_drop fraction)

theorem proper_positional (hs : 0 < s.digits) (negative : Bool) :
    (⟨negative, s.positional.1, some s.positional.2, none⟩ : Numeral).Proper := by
  have some_digits := Numeral.digitsOfNat_ne_nil s.digits
  have whole (c : Char) (hc : c ∈ s.positional.1) := isDigit_of_mem_positional (.inl hc)
  have fraction (ds : List Char) (h : some s.positional.2 = some ds) (c : Char) (hc : c ∈ ds) :=
    isDigit_of_mem_positional (.inr (Option.some_inj.mp h ▸ hc))
  rcases s.positional_cases with ⟨-, eq⟩ | ⟨-, eq⟩ | ⟨some, fewer, eq⟩
  · rw [eq] at whole fraction ⊢
    exact ⟨by simp, whole, by simp, by simpa using fun _ => some_digits, fraction⟩
  · rw [eq] at whole fraction ⊢
    exact ⟨by simpa using fun h => absurd h some_digits, whole,
      head_ne_zero hs some_digits (List.prefix_refl _) _, by simp, fraction⟩
  · rw [eq] at whole fraction ⊢
    have before : (digitsOfNat s.digits).take s.wholeCount.toNat ≠ [] := by
      rw [Ne, List.take_eq_nil_iff]
      exact fun h => h.elim (by omega) some_digits
    have behind : (digitsOfNat s.digits).drop s.wholeCount.toNat ≠ [] := by
      rw [Ne, List.drop_eq_nil_iff]
      omega
    refine ⟨before, whole, fun c cs => ?_, fun h => behind (Option.some_inj.mp h), fraction⟩
    have := head_ne_zero hs before (List.take_prefix _ _) [] c cs
    rwa [List.append_nil] at this

/-- One digit before the point, and an exponent. -/
theorem value_scientific (s : Decimal) (negative : Bool) :
    (⟨negative, (digitsOfNat s.digits).take 1,
      if (digitsOfNat s.digits).drop 1 = [] then none else some ((digitsOfNat s.digits).drop 1),
      some (s.wholeCount - 1)⟩ : Numeral).value = s.value := by
  have behind : (if (digitsOfNat s.digits).drop 1 = [] then none
      else some ((digitsOfNat s.digits).drop 1)).getD [] = (digitsOfNat s.digits).drop 1 := by
    split
    · rename_i none
      rw [none]
      rfl
    · rfl
  have some_digits := List.length_pos_of_ne_nil (Numeral.digitsOfNat_ne_nil s.digits)
  have exponent : s.wholeCount - 1 - ((digitsOfNat s.digits).drop 1).length = s.exponent := by
    rw [List.length_drop, wholeCount]
    omega
  rw [Numeral.value, Decimal.value, Numeral.digits, Numeral.exponent]
  simp only [Option.getD_some]
  rw [behind, List.take_append_drop, Numeral.natOfDigits_digitsOfNat, exponent]

theorem proper_scientific (hs : 0 < s.digits) (negative : Bool) :
    (⟨negative, (digitsOfNat s.digits).take 1,
      if (digitsOfNat s.digits).drop 1 = [] then none else some ((digitsOfNat s.digits).drop 1),
      some (s.wholeCount - 1)⟩ : Numeral).Proper := by
  have digit {c : Char} : c ∈ digitsOfNat s.digits → c.isDigit = true :=
    Numeral.isDigit_of_mem_digitsOfNat
  have before : (digitsOfNat s.digits).take 1 ≠ [] := by
    rw [Ne, List.take_eq_nil_iff]
    exact fun h => h.elim (by decide) (Numeral.digitsOfNat_ne_nil s.digits)
  refine ⟨before, fun c hc => digit (List.mem_of_mem_take hc), ?_, ?_, ?_⟩
  · intro c cs
    have := head_ne_zero hs before (List.take_prefix _ _) [] c cs
    rwa [List.append_nil] at this
  · split
    · exact nofun
    · rename_i behind
      exact fun h => behind (Option.some_inj.mp h)
  · split
    · exact nofun
    · rintro _ ⟨⟩ c hc
      exact digit (List.mem_of_mem_drop hc)

theorem value_numeral (s : Decimal) (negative : Bool) : (s.numeral negative).value = s.value := by
  unfold numeral
  dsimp only
  split
  · exact s.value_positional negative
  · exact s.value_scientific negative

theorem proper_numeral (hs : 0 < s.digits) (negative : Bool) : (s.numeral negative).Proper := by
  unfold numeral
  dsimp only
  split
  · exact proper_positional hs negative
  · exact proper_scientific hs negative

theorem negative_numeral (s : Decimal) (negative : Bool) :
    (s.numeral negative).negative = negative := by
  unfold numeral
  dsimp only
  split <;> rfl

end Decimal

/-! ## Reading what was written -/

theorem zero_proper (negative : Bool) : (⟨negative, ['0'], some ['0'], none⟩ : Numeral).Proper := by
  refine ⟨by simp, by simp, by simp, by simp, ?_⟩
  rintro _ ⟨⟩ c hc
  rw [List.mem_singleton.mp hc]
  decide

/-- A finite double has a numeral, which is read as the double. -/
theorem exists_numeral {d : Double} (hd : d.isFinite = true) :
    ∃ n, d.numeral? = some n ∧ n.Proper ∧ ofNumeral? n = some d := by
  unfold numeral?
  rw [hd]
  by_cases hz : d.isZero = true
  · rw [if_pos hz]
    refine ⟨_, rfl, zero_proper _, ?_⟩
    have magnitude : d.magnitude = 0 := beq_iff_eq.mp hz
    have zero := d.ofFields_eq
    rw [magnitude] at zero
    show some (ofFields d.isNegative 0) = some d
    rw [zero]
  · have hz := Bool.eq_false_iff.mpr hz
    rw [hz]
    have rounds := rounds_shortest .toEven hz
    refine ⟨_, rfl, Decimal.proper_numeral (rounds.digits_pos hz) _, ?_⟩
    rw [ofNumeral?, Decimal.negative_numeral]
    apply nearest?_eq hd hz
    rwa [← Numeral.value, Decimal.value_numeral]

/-- The nearest double to the numeral of a double is that double. -/
theorem ofNumeral?_numeral? {d : Double} {n : Numeral} (h : d.numeral? = some n) :
    ofNumeral? n = some d := by
  have finite : d.isFinite = true := by
    by_contra infinite
    simp [numeral?, infinite] at h
  obtain ⟨n', written, -, read⟩ := exists_numeral finite
  rw [written] at h
  exact Option.some_inj.mp h ▸ read

end Double

end SqlTree
