import SqlTree.Name
import SqlTree.Proofs.Json.Numerals
import SqlTree.Proofs.Text.Reading
import SqlTree.SqlType

/-!
# Written names and types

A plain word has lower-case letters, digits and underscores only. So it holds no word of the
language, which are in upper case, and none of the signs that stand between words. Names of plain
words and types with such words as names of fields can be read back.
-/

namespace SqlTree

open Text

def isPlainChar (c : Char) : Bool := c.isLower || c.isDigit || c == '_'

/-- Lower-case letters, digits and underscores, and at least one of them. -/
def PlainWord (s : String) : Prop := s ≠ "" ∧ ∀ c ∈ s.toList, isPlainChar c = true

instance (s : String) : Decidable (PlainWord s) :=
  have := List.decidableBAll (fun c => isPlainChar c = true) s.toList
  inferInstanceAs (Decidable (_ ∧ _))

/-- The text starts with a character of plain words. -/
def StartsPlain (s : String) : Prop := ∃ c ∈ s.toList.head?, isPlainChar c = true

/-- The text starts with a character that is not for plain words. -/
def StartsOutside (s : String) : Prop := ∃ c ∈ s.toList.head?, isPlainChar c = false

instance (s : String) : Decidable (StartsOutside s) :=
  decidable_of_iff (s.toList.head?.any fun c => !isPlainChar c)
    (by simp [StartsOutside, Option.any_eq_true])

theorem StartsPlain.append {s : String} (h : StartsPlain s) (t : String) :
    StartsPlain (s ++ t) := by
  obtain ⟨c, head, plain⟩ := h
  exact ⟨c, by rw [String.toList_append, List.head?_append, head, Option.some_or]; rfl, plain⟩

theorem StartsPlain.avoids {s w : String} (hs : StartsPlain s) (hw : StartsOutside w)
    (marks : List Char) : Avoids marks s w := by
  obtain ⟨c, head, plain⟩ := hs
  obtain ⟨d, head', outside⟩ := hw
  intro rest _
  refine not_starts_of_head head' ?_
  rw [List.head?_append, head, Option.some_or]
  rintro ⟨⟩
  exact Bool.false_ne_true (outside.symm.trans plain)

theorem PlainWord.startsPlain {s : String} (h : PlainWord s) : StartsPlain s := by
  obtain ⟨c, cs, chars⟩ := List.exists_cons_of_ne_nil (mt String.toList_eq_nil_iff.mp h.1)
  exact ⟨c, by rw [chars]; rfl, h.2 c (chars ▸ List.mem_cons_self)⟩

/-! ## Names -/

namespace Name

/-- There are parts, and all of them are plain words. -/
def Plain (n : Name) : Prop := n.parts ≠ [] ∧ ∀ p ∈ n.parts, PlainWord p

instance (n : Name) : Decidable n.Plain := inferInstanceAs (Decidable (_ ∧ ∀ p ∈ n.parts, _))

/-- May the character stand in a name of plain words? -/
def isNameChar (c : Char) : Bool := isPlainChar c || c == '.'

def readName : Reading Name :=
  (fun s => ⟨(s.toList.splitOn '.').map String.ofList⟩) <$> Reading.span isNameChar

variable {n : Name}

theorem Plain.startsPlain (hn : n.Plain) : StartsPlain n.text := by
  rcases n with ⟨parts⟩
  obtain ⟨p, ps, rfl⟩ := List.exists_cons_of_ne_nil hn.1
  have first := (hn.2 p List.mem_cons_self).startsPlain
  cases ps with
  | nil => rwa [text, String.intercalate_singleton]
  | cons q qs =>
    rw [text, String.intercalate_cons_cons, String.append_assoc]
    exact first.append _

theorem isNameChar_of_mem_intercalate {c : Char} : ∀ {ps : List String},
    (∀ p ∈ ps, PlainWord p) → c ∈ (".".intercalate ps).toList → isNameChar c = true
  | [], _, hc => by simp at hc
  | [p], h, hc => by
    rw [String.intercalate_singleton] at hc
    exact (Bool.or_eq_true ..).mpr (.inl ((h p List.mem_cons_self).2 c hc))
  | p :: q :: ps, h, hc => by
    obtain ⟨hp, hs⟩ := List.forall_mem_cons.mp h
    rw [String.intercalate_cons_cons, String.toList_append, String.toList_append,
      List.mem_append, List.mem_append] at hc
    rcases hc with (part | point) | rest
    · exact (Bool.or_eq_true ..).mpr (.inl (hp.2 c part))
    · obtain rfl := List.mem_singleton.mp point
      decide
    · exact isNameChar_of_mem_intercalate hs rest

/-- No part holds a point. -/
theorem Plain.splitOn_text (hn : n.Plain) :
    n.text.toList.splitOn '.' = n.parts.map String.toList := by
  rw [text, String.toList_intercalate]
  refine List.splitOn_intercalate '.' ?_ (mt List.map_eq_nil_iff.mp hn.1)
  rintro _ hl point
  obtain ⟨p, hp, rfl⟩ := List.mem_map.mp hl
  exact absurd ((hn.2 p hp).2 '.' point) (by decide)

theorem Plain.reads_readName (hn : n.Plain) : Reads readName [' ', ')', ',', '('] n.text n := by
  have chars : Reads (Reading.span isNameChar) [' ', ')', ',', '('] n.text n.text :=
    .span (fun _ => isNameChar_of_mem_intercalate hn.2) (by decide)
  have parts : (n.text.toList.splitOn '.').map String.ofList = n.parts := by
    rw [hn.splitOn_text, List.map_map]
    exact List.map_id'' (fun _ => String.ofList_toList) _
  have read := chars.map fun s => (⟨(s.toList.splitOn '.').map String.ofList⟩ : Name)
  rwa [parts] at read

end Name

/-! ## Types -/

namespace SqlType

mutual

/-- The names of all fields are plain words. -/
def Plain : SqlType → Prop
  | array t | map t => t.Plain
  | struct fs => PlainFields fs
  | _ => True
termination_by structural t => t

def PlainFields : List StructField → Prop
  | [] => True
  | ⟨n, t⟩ :: fs => PlainWord n ∧ t.Plain ∧ PlainFields fs
termination_by structural fs => fs

end

/-! ### Reading types -/

def readNumber : Reading UInt32 :=
  (fun s => .ofNat (Numeral.natOfDigits s.toList)) <$> Reading.span Char.isDigit

/-- Takes the numbers of a `DECIMAL`. -/
def readDecimal : Reading SqlType := do
  let precision ← readNumber
  Reading.word ", "
  let scale ← readNumber
  Reading.word ")"
  return .decimal precision scale

def readField (type : Reading SqlType) : Reading StructField := do
  let name ← Reading.span isPlainChar
  Reading.word " "
  StructField.mk name <$> type

def typeTable (type : Reading SqlType) (fuel : Nat) : List (String × Reading SqlType) :=
  [("BOOLEAN", pure .boolean), ("INT", pure .integer), ("BIGINT", pure .bigint),
    ("DOUBLE", pure .double), ("STRING", pure .string),
    ("DECIMAL(", readDecimal),
    ("ARRAY<", do
      let t ← type
      Reading.word ">"
      return .array t),
    ("MAP<STRING, ", do
      let t ← type
      Reading.word ">"
      return .map t),
    ("STRUCT<", .struct <$> Reading.listed (readField type) ">" fuel)]

def readType : Nat → Reading SqlType
  | 0 => failure
  | fuel + 1 => Reading.choose (typeTable (readType fuel) fuel) failure

theorem typeWords_apart : ["BOOLEAN", "INT", "BIGINT", "DOUBLE", "STRING", "DECIMAL(", "ARRAY<",
    "MAP<STRING, ", "STRUCT<"].Pairwise Apart := by decide

theorem reads_readNumber (n : UInt32) : Reads readNumber [',', ')'] (toString n) n := by
  have digits : (toString n).toList = Numeral.digitsOfNat n.toNat := Nat.toList_repr
  have chars : Reads (Reading.span Char.isDigit) [',', ')'] (toString n) (toString n) := by
    refine .span (fun c hc => ?_) (by decide)
    rw [digits] at hc
    exact Numeral.isDigit_of_mem_digitsOfNat hc
  have read := chars.map fun s => UInt32.ofNat (Numeral.natOfDigits s.toList)
  rwa [digits, Numeral.natOfDigits_digitsOfNat, UInt32.ofNat_toNat] at read

theorem reads_readDecimal (precision scale : UInt32) (marks : List Char) :
    Reads readDecimal marks (toString precision ++ (", " ++ (toString scale ++ ")")))
      (.decimal precision scale) := by
  have comma : StartsIn [',', ')'] ", " := by decide
  have close : StartsIn [',', ')'] ")" := by decide
  refine (reads_readNumber precision).bind (.word_bind ?_) (comma.append _)
  exact (reads_readNumber scale).before close (decimal precision)

variable {type : Reading SqlType} {fuel : ℕ}

def fieldText (f : StructField) : String := f.name ++ " " ++ f.type.text

theorem fieldTexts_eq (fs : List StructField) : fieldTexts fs = fs.map fieldText := by
  induction fs with
  | nil => rfl
  | cons f fs ih =>
    cases f
    rw [fieldTexts, ih, List.map_cons, fieldText]

theorem names_plain : ∀ {fs : List StructField}, PlainFields fs → ∀ f ∈ fs, PlainWord f.name
  | ⟨_, _⟩ :: _, h, f, hf => by
    rcases List.mem_cons.mp hf with rfl | hf
    · exact h.1
    · exact names_plain h.2.2 f hf

theorem startsPlain_fieldText {f : StructField} (name : PlainWord f.name) :
    StartsPlain (fieldText f) := by
  rw [fieldText, String.append_assoc]
  exact name.startsPlain.append _

theorem reads_readField {f : StructField} (name : PlainWord f.name)
    (ht : Reads type [',', '>'] f.type.text f.type) :
    Reads (readField type) [',', '>'] (fieldText f) f := by
  cases f
  rw [fieldText, String.append_assoc]
  have read : Reads (Reading.span isPlainChar) [' '] _ _ := .span name.2 (by decide)
  exact read.bind (.word_bind (ht.map (StructField.mk _))) (.append (by decide) _)

theorem readType_eq {t : SqlType} (h : sizeOf t ≤ fuel) :
    readType fuel = Reading.choose (typeTable (readType (fuel - 1)) (fuel - 1)) failure := by
  cases fuel with
  | zero => cases t <;> simp at h
  | succ => rfl

mutual

/-- With as many steps as the type is large, it is read back. -/
theorem reads_readType : ∀ {t : SqlType}, t.Plain → ∀ fuel : ℕ, sizeOf t ≤ fuel →
    Reads (readType fuel) [',', '>', ')'] t.text t
  | .boolean, _, fuel, hf | .integer, _, fuel, hf | .bigint, _, fuel, hf | .double, _, fuel, hf
  | .string, _, fuel, hf => by
    rw [readType_eq hf]
    exact .choose_pure (by simp [typeTable, text]) rfl typeWords_apart
  | .decimal p s, _, fuel, hf => by
    rw [readType_eq hf, text, String.append_assoc, String.append_assoc, String.append_assoc]
    exact .choose (by simp [typeTable]) (reads_readDecimal p s _) rfl typeWords_apart
  | .array t, h, fuel, hf => by
    have size : sizeOf t ≤ fuel - 1 := by
      simp only [array.sizeOf_spec] at hf
      omega
    have element := reads_readType (t := t) h (fuel - 1) size
    rw [readType_eq hf, text, String.append_assoc]
    refine .choose ?_ (element.before (w := ">") (by decide) array) rfl typeWords_apart
    simp [typeTable]
  | .map t, h, fuel, hf => by
    have size : sizeOf t ≤ fuel - 1 := by
      simp only [map.sizeOf_spec] at hf
      omega
    have value := reads_readType (t := t) h (fuel - 1) size
    rw [readType_eq hf, text, String.append_assoc]
    refine .choose ?_ (value.before (w := ">") (by decide) map) rfl typeWords_apart
    simp [typeTable]
  | .struct fs, h, fuel, hf => by
    have size : sizeOf fs ≤ fuel - 1 := by
      simp only [struct.sizeOf_spec] at hf
      omega
    have closes : Closes [',', '>'] ">" := ⟨by decide, by decide, by decide⟩
    have fields : Reads (Reading.listed (readField (readType (fuel - 1))) ">" (fuel - 1))
        [',', '>', ')'] (", ".intercalate (fs.map fieldText) ++ ">") (fs.map id) :=
      closes.reads_listed (reads_readFields h (fuel - 1) size)
        (fun f hf => (startsPlain_fieldText (names_plain h f hf)).avoids ⟨'>', rfl, rfl⟩ _)
        ((length_le_sizeOf fs).trans size)
    rw [List.map_id] at fields
    rw [readType_eq hf, text, fieldTexts_eq, String.append_assoc]
    refine .choose ?_ (fields.map struct) rfl typeWords_apart
    simp [typeTable]

theorem reads_readFields : ∀ {fs : List StructField}, PlainFields fs → ∀ fuel : ℕ,
    sizeOf fs ≤ fuel → ∀ f ∈ fs, Reads (readField (readType fuel)) [',', '>'] (fieldText f) f
  | [], _, _, _, f, hm => absurd hm List.not_mem_nil
  | ⟨n, t⟩ :: fs, ⟨name, type, plain⟩, fuel, hf, f, hm => by
    simp only [List.cons.sizeOf_spec, StructField.mk.sizeOf_spec] at hf
    rcases List.mem_cons.mp hm with rfl | hm
    · exact reads_readField name ((reads_readType type fuel (by omega)).mono (by decide))
    · exact reads_readFields plain fuel (by omega) f hm

end

end SqlType

end SqlTree
