import SqlTree.Proofs.Double.Written
import SqlTree.Proofs.Literal.Decimal
import SqlTree.Proofs.Text.Reading
import SqlTree.Properties

/-!
# Written properties

The text of properties can be read back, whatever the keys and the strings among the values are: a
key that is no word stands in quotes, and so does a string, and no other literal holds a character
that ends an entry. So properties with one text have the same keys in the same order, and values
that are written the same.
-/

namespace SqlTree

/-! ## Bare literals -/

namespace Literal

/-- May the character stand in a literal without quotes? -/
def isBareChar (c : Char) : Bool := c.isAlphanum || c == '.' || c == '-' || c == '+'

def Bare (s : String) : Prop := ∀ c ∈ s.toList, isBareChar c = true

instance (s : String) : Decidable (Bare s) := List.decidableBAll _ _

namespace Bare

variable {s t : String}

theorem append (hs : Bare s) (ht : Bare t) : Bare (s ++ t) := by
  intro c hc
  rw [String.toList_append] at hc
  exact (List.mem_append.mp hc).elim (hs c) (ht c)

theorem isBareChar_of_isDigit {c : Char} (h : c.isDigit = true) : isBareChar c = true := by
  simp [isBareChar, Char.isAlphanum, h]

theorem ofList {cs : List Char} (h : ∀ c ∈ cs, c.isDigit = true) : Bare (String.ofList cs) := by
  intro c hc
  rw [String.toList_ofList] at hc
  exact isBareChar_of_isDigit (h c hc)

theorem nat (n : Nat) : Bare (toString n) := by
  rw [Nat.toString_eq_repr, Nat.repr_eq_ofList_toDigits]
  exact ofList fun _ => Numeral.isDigit_of_mem_digitsOfNat

theorem int (n : Int) : Bare (toString n) := by
  rw [Int.toString_eq_repr, Int.repr_eq_if]
  split
  · exact nat _
  · exact append (s := "-") (by decide) (nat _)

theorem sign (negative : Bool) : Bare (Numeral.signText negative) := by
  cases negative <;> decide

theorem double (d : Double) : Bare d.sqlText := by
  unfold Double.sqlText
  split
  · decide
  split
  · exact append (sign _) (by decide)
  split
  · exact append (append (sign _) (nat _)) (by decide)
  · have whole := fun c hc =>
      (d.shortest .up).isDigit_of_mem_positional (c := c) (.inl hc)
    have fraction := fun c hc =>
      (d.shortest .up).isDigit_of_mem_positional (c := c) (.inr hc)
    exact append (append (append (sign _) (ofList whole)) (by decide)) (ofList fraction)

theorem decimal {text : String} (h : isDecimalText text = true) : Bare text := by
  intro c hc
  rcases (isDecimalText_iff.mp h).mem hc with (rfl | rfl) | rfl | digit
  · decide
  · decide
  · decide
  · exact isBareChar_of_isDigit digit

end Bare

theorem Valid.bare {v : Literal} (hv : v.Valid) (other : ∀ s, v ≠ string s) : Bare v.text := by
  cases v with
  | null => decide
  | boolean b => cases b <;> decide
  | integer n => exact Bare.int _
  | long n => exact Bare.int _
  | double d => exact Bare.double d
  | decimal text => exact Bare.decimal hv
  | string s => exact absurd rfl (other s)

end Literal

namespace Properties

open Text

/-! ## Keys and values -/

def isWordChar (c : Char) : Bool := c.isAlphanum || c == '_'

/-- Takes a key, with or without quotes. -/
def readKey : Reading String := Sum.elim id id <$> Reading.closedOr '"' isWordChar

/-- Takes a string, or the text of another literal. -/
def readValue : Reading (String ⊕ String) := Reading.closedOr '\'' Literal.isBareChar

/-- What of a value can be read back: a string, or the text of another literal. -/
def valuePiece : Literal → String ⊕ String
  | .string s => .inl s
  | v => .inr v.text

theorem isWordChar_of_mem {key : String} (h : isWord key = true) {c : Char}
    (hc : c ∈ key.toList) : isWordChar c = true := by
  unfold isWord at h
  split at h
  case h_1 => contradiction
  case h_2 d ds chars =>
    simp only [Bool.and_eq_true, Bool.or_eq_true, List.all_eq_true] at h
    rw [chars] at hc
    rcases List.mem_cons.mp hc with rfl | hc
    · rcases h.1 with alpha | line
      · simp [isWordChar, Char.isAlphanum, alpha]
      · simp [isWordChar, line]
    · exact (Bool.or_eq_true ..).mpr (h.2 c hc)

/-- A word holds none of the characters that are not for words. -/
theorem not_mem_of_isWord {key : String} (h : isWord key = true) {c : Char}
    (hc : isWordChar c = false) : c ∉ key.toList :=
  fun mem => Bool.false_ne_true (hc.symm.trans (isWordChar_of_mem h mem))

theorem reads_readKey (key : String) : Reads readKey ['='] (keyText key) key := by
  unfold keyText
  split
  case isTrue word =>
    have bare : Reads (Reading.closedOr '"' isWordChar) ['='] key (.inr key) :=
      .bare (fun _ => isWordChar_of_mem word) rfl (not_mem_of_isWord word rfl) (by decide)
    exact bare.map (Sum.elim id id)
  case isFalse =>
    have closed : Reads (Reading.closedOr '"' isWordChar) ['='] (delimited '"' key) (.inl key) :=
      .closed (by decide) key
    exact closed.map (Sum.elim id id)

theorem avoids_keyText (key : String) : Avoids ['='] (keyText key) ")" := by
  unfold keyText
  split
  case isTrue word => exact .of_not_mem rfl (not_mem_of_isWord word rfl) (by decide)
  case isFalse =>
    rw [delimited_eq]
    exact Apart.avoids (by decide) _

theorem reads_readValue {v : Literal} (hv : v.Valid) :
    Reads readValue [',', ')'] v.text (valuePiece v) := by
  by_cases h : ∃ s, v = .string s
  · obtain ⟨s, rfl⟩ := h
    exact .closed (by decide) s
  · have bare := hv.bare fun s hs => h ⟨s, hs⟩
    have piece : valuePiece v = .inr v.text := by
      cases v with
      | string s => exact absurd ⟨s, rfl⟩ h
      | _ => rfl
    have plain : '\'' ∉ v.text.toList := fun quote => absurd (bare _ quote) (by decide)
    rw [piece]
    exact .bare bare rfl plain (by decide)

/-! ## Entries -/

def readEntry : Reading (String × (String ⊕ String)) := do
  let key ← readKey
  Reading.word "="
  let value ← readValue
  return (key, value)

def readEntries (fuel : Nat) : Reading (List (String × (String ⊕ String))) := do
  Reading.word "("
  Reading.listed readEntry ")" fuel

/-- What of an entry can be read back. -/
def entryPiece (entry : String × Literal) : String × (String ⊕ String) :=
  (entry.1, valuePiece entry.2)

theorem startsIn_equals (s : String) : StartsIn ['='] ("=" ++ s) := .append (by decide) s

theorem reads_readEntry {entry : String × Literal} (hv : entry.2.Valid) :
    Reads readEntry [',', ')'] (entryText entry) (entryPiece entry) := by
  rw [entryText, String.append_assoc]
  have value := (reads_readValue hv).map (entry.1, ·)
  exact (reads_readKey entry.1).bind (.word_bind value) (startsIn_equals _)

theorem avoids_entryText (entry : String × Literal) : Avoids [',', ')'] (entryText entry) ")" := by
  rw [entryText, String.append_assoc]
  exact (avoids_keyText entry.1).append (startsIn_equals _)

theorem reads_readEntries {p : Properties} (hp : ∀ e ∈ p.entries, e.2.Valid) {fuel : Nat}
    (enough : p.size ≤ fuel) : Reads (readEntries fuel) [] p.text (p.entries.map entryPiece) := by
  have closes : Closes [',', ')'] ")" := ⟨by decide, by decide, by decide⟩
  rw [text, String.append_assoc]
  exact .word_bind (closes.reads_listed (fun e he => reads_readEntry (hp e he))
    (fun e _ => avoids_entryText e) enough)

/-- Of the literals that are written the same, only strings are told apart from all others. -/
theorem of_valuePiece_eq {v w : Literal} (h : valuePiece v = valuePiece w) :
    v.text = w.text ∧ ∀ s, v = .string s ∨ w = .string s → v = w := by
  cases v with
  | string s =>
    cases w with
    | string t =>
      obtain rfl := Sum.inl.inj h
      exact ⟨rfl, fun _ _ => rfl⟩
    | _ => contradiction
  | _ =>
    cases w with
    | string => contradiction
    | _ => exact ⟨Sum.inr.inj h, fun _ string => string.elim nofun nofun⟩

/-- Properties with one text have as many entries, the same keys in the same order, and values that
are written the same. Where one of two values is a string, they are the same. -/
theorem entries_of_text_eq {p q : Properties} (hp : ∀ e ∈ p.entries, e.2.Valid)
    (hq : ∀ e ∈ q.entries, e.2.Valid) (h : p.text = q.text) :
    p.size = q.size ∧ p.keys = q.keys ∧
      List.Forall₂ (fun e e' => e.2.text = e'.2.text ∧
        ∀ s, e.2 = .string s ∨ e'.2 = .string s → e.2 = e'.2) p.entries q.entries := by
  have read := reads_readEntries hp (Nat.le_add_right p.size q.size)
  have read' := reads_readEntries hq (Nat.le_add_left q.size p.size)
  have pieces : p.entries.map entryPiece = q.entries.map entryPiece := (h ▸ read).unique read'
  have sizes := congrArg List.length pieces
  have keys := congrArg (List.map Prod.fst) pieces
  rw [List.length_map, List.length_map] at sizes
  rw [List.map_map, List.map_map] at keys
  refine ⟨sizes, keys, ?_⟩
  rw [← List.forall₂_eq_eq_eq, List.forall₂_map_left_iff, List.forall₂_map_right_iff] at pieces
  exact pieces.imp fun e e' same => of_valuePiece_eq (congrArg Prod.snd same)

/-- A number of either width is written the same, and a key and a string may hold what looks like
the end of an entry. -/
theorem entries_of_text_eq_widths :
    let odd : String × Literal := ("a=\"1\", b", .string "c', d='e")
    let p : Properties := ⟨[odd, ("n", .integer 1)]⟩
    let q : Properties := ⟨[odd, ("n", .long 1)]⟩
    (∀ e ∈ p.entries, e.2.Valid) ∧ (∀ e ∈ q.entries, e.2.Valid) ∧ p.text = q.text ∧
      p.keys = q.keys := by
  intro odd p q
  have hp : ∀ e ∈ p.entries, e.2.Valid := by simp [p, odd, Literal.Valid]
  have hq : ∀ e ∈ q.entries, e.2.Valid := by simp [q, odd, Literal.Valid]
  have same : p.text = q.text := rfl
  exact ⟨hp, hq, same, (entries_of_text_eq hp hq same).2.1⟩

end Properties

end SqlTree
