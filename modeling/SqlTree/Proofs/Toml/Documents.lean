import Mathlib.Data.List.Induction
import SqlTree.Proofs.Json.Numerals
import SqlTree.Proofs.Lookup
import SqlTree.Proofs.Toml.Strings

/-!
# Documents of plain lines

A plain line opens a table by a header of one key, gives a key a string, a number or a truth value,
or is empty. A document of such lines is read line by line: what it holds is what the lines, one
after the other, make of the empty table, and it is malformed if one of them cannot be entered.
-/

namespace SqlTree.Toml

open Reader

/-- A key that needs no quotes. -/
structure BareKey where
  text : String
  nonempty : text ≠ ""
  bare : text.toList.all isBare = true

/-- A value without brackets. -/
inductive Scalar where
  | string (s : String)
  | number (n : UInt64)
  | boolean (b : Bool)

def Scalar.value : Scalar → Toml
  | string s => .string s
  | number n => .integer n.toNat
  | boolean b => .boolean b

def Scalar.text : Scalar → String
  | string s => stringText s
  | number n => toString n.toNat
  | boolean b => if b then "true" else "false"

/-- A plain line. -/
inductive Line where
  | header (name : BareKey)
  | setting (key : BareKey) (v : Scalar)
  | empty

namespace Line

def text : Line → String
  | header name => "[" ++ name.text ++ "]\n"
  | setting key v => key.text ++ " = " ++ v.text ++ "\n"
  | empty => "\n"

/-- What the line makes of the document before it. -/
def enter (doc : Progress) : Line → Option Progress
  | header name => (doc.entries.openTable name.text).map (⟨·, [name.text]⟩)
  | setting key v =>
    (doc.entries.modifyAt (·.addNew key.text v.value) doc.header).map (⟨·, doc.header⟩)
  | empty => some doc

def isEmpty : Line → Bool
  | empty => true
  | _ => false

/-- The text of a document of plain lines. -/
def documentText (ls : List Line) : String := String.join (ls.map text)

end Line

/-! ## Keys -/

theorem skipBlanks_of_head {c : Char} (h : isBlank c = false) (cs : List Char) :
    skipBlanks (c :: cs) = c :: cs := by
  simp [skipBlanks, h]

section Passes

variable {p : Char → Bool} {c d : Char}

theorem ne_of_passes (hc : p c = true) (hd : p d = false) : c ≠ d := by
  rintro rfl
  rw [hc] at hd
  contradiction

theorem cons_ne_of_passes (hc : p c = true) (hd : p d = false) {cs ds : List Char} :
    c :: cs ≠ d :: ds :=
  fun h => ne_of_passes hc hd (List.cons.inj h).1

theorem skipBlanks_of_passes (hc : p c = true) (space : p ' ' = false) (tab : p '\t' = false)
    (cs : List Char) : skipBlanks (c :: cs) = c :: cs := by
  apply skipBlanks_of_head
  simp [isBlank, ne_of_passes hc space, ne_of_passes hc tab]

end Passes

theorem BareKey.isBare_of_mem (k : BareKey) : ∀ c ∈ k.text.toList, isBare c = true :=
  List.all_eq_true.mp k.bare

theorem BareKey.toList_eq_cons (k : BareKey) :
    ∃ c cs, k.text.toList = c :: cs ∧ isBare c = true := by
  obtain ⟨c, cs, chars⟩ := List.exists_cons_of_ne_nil (mt String.toList_eq_nil_iff.mp k.nonempty)
  exact ⟨c, cs, chars, k.isBare_of_mem c (chars ▸ List.mem_cons_self)⟩

theorem BareKey.skipBlanks_append (k : BareKey) (rest : List Char) :
    skipBlanks (k.text.toList ++ rest) = k.text.toList ++ rest := by
  obtain ⟨c, cs, chars, first⟩ := k.toList_eq_cons
  rw [chars]
  exact skipBlanks_of_passes first rfl rfl _

theorem key_bareKey (k : BareKey) {rest : List Char} (ends : ∀ c ∈ rest.head?, isBare c = false) :
    key (k.text.toList ++ rest) = some (k.text, rest) := by
  obtain ⟨c, cs, chars, first⟩ := k.toList_eq_cons
  have taken := takeWhile_append_of_ends k.isBare_of_mem ends
  have left := dropWhile_append_of_ends k.isBare_of_mem ends
  have whole : String.ofList k.text.toList = k.text := String.ofList_toList
  rw [key, taken, left, chars]
  · show some (String.ofList (c :: cs), rest) = _
    rw [← chars, whole]
  · rw [chars]
    exact fun _ => cons_ne_of_passes first rfl
  · rw [chars]
    exact fun _ => cons_ne_of_passes first rfl

/-- A bare key is the whole path if no dot follows it behind blanks. -/
theorem keys_bareKey (k : BareKey) {rest : List Char} (ends : ∀ c ∈ rest.head?, isBare c = false)
    {c : Char} {more : List Char} (next : skipBlanks rest = c :: more) (last : c ≠ '.') :
    keys (k.text.toList ++ rest) = some ([k.text], c :: more) := by
  rw [keys, limit, keysUpTo, k.skipBlanks_append, key_bareKey k ends]
  simp only [Option.bind_eq_bind, Option.bind_some, next]
  split
  · rename_i h
    exact absurd (List.cons.inj h).1 last
  · rfl

/-! ## Values -/

/-- A word before the end of a line. -/
theorem value_word {c : Char} {cs : List Char} (chars : ∀ d ∈ c :: cs, isWordChar d = true)
    (fuel levels : Nat) (rest : List Char) :
    value (fuel + 1) levels (c :: cs ++ '\n' :: rest) =
      (ofWord? (c :: cs)).map (·, '\n' :: rest) := by
  have first : isWordChar c = true := chars c List.mem_cons_self
  have split : word (c :: cs ++ '\n' :: rest) = (c :: cs, '\n' :: rest) := by
    have ends : ∀ d ∈ ('\n' :: rest).head?, isWordChar d = false := fun _ hd =>
      Option.some.inj hd ▸ rfl
    rw [word, takeWhile_append_of_ends chars ends, dropWhile_append_of_ends chars ends]
    split
    · rename_i h
      exact absurd (List.cons.inj h).1 (by decide)
    · rfl
  rw [List.cons_append] at split ⊢
  rw [value, split]
  · exact fun _ h => cons_ne_of_passes first rfl h
  · exact fun _ h => cons_ne_of_passes first rfl h
  · exact fun _ h _ => cons_ne_of_passes first rfl h
  · exact fun _ h _ => cons_ne_of_passes first rfl h
  · exact fun _ _ h _ => cons_ne_of_passes first rfl h
  · exact fun _ _ h _ => cons_ne_of_passes first rfl h

theorem digits?_of_isDigit {cs : List Char} (some : cs ≠ [])
    (chars : ∀ c ∈ cs, c.isDigit = true) : digits? Char.isDigit cs = .some cs := by
  induction cs with
  | nil => contradiction
  | cons c cs ih =>
    obtain ⟨first, others⟩ := List.forall_mem_cons.mp chars
    cases cs with
    | nil => rw [digits?, if_pos first]
    | cons d cs =>
      have digit : d.isDigit = true := others d List.mem_cons_self
      rw [digits?, if_pos first, ih (List.cons_ne_nil d cs) others]
      · rfl
      · exact fun h => absurd h (List.cons_ne_nil d cs)
      · exact fun _ h => cons_ne_of_passes digit rfl h

theorem hexDigit?_of_isDigit {c : Char} (h : c.isDigit = true) :
    Text.hexDigit? c = some (c.toNat - '0'.toNat) := by
  have range : '0' ≤ c ∧ c ≤ '9' := by
    rw [Char.isDigit, Bool.and_eq_true, decide_eq_true_eq, decide_eq_true_eq] at h
    exact h
  rw [Text.hexDigit?, if_pos range]

theorem ofDigits_digitsOfNat (n : Nat) : ofDigits 10 (Numeral.digitsOfNat n) = n := by
  have same : ofDigits 10 (Numeral.digitsOfNat n) =
      Numeral.natOfDigits (Numeral.digitsOfNat n) := by
    refine List.foldl_ext _ _ _ fun a c hc => ?_
    rw [hexDigit?_of_isDigit (Numeral.isDigit_of_mem_digitsOfNat hc)]
    rfl
  rw [same, Numeral.natOfDigits_digitsOfNat]

theorem integer?_digitsOfNat (n : Nat) : integer? (Numeral.digitsOfNat n) = some (n : Int) := by
  have chars : ∀ c ∈ Numeral.digitsOfNat n, c.isDigit = true := fun _ =>
    Numeral.isDigit_of_mem_digitsOfNat
  have digits := digits?_of_isDigit (Numeral.digitsOfNat_ne_nil n) chars
  -- A zero in front of other digits would begin `0x`, `0o` or `0b`, or be refused.
  have alone := (Numeral.ofNat_proper n).zero_alone
  have value := ofDigits_digitsOfNat n
  change ∀ c cs, Numeral.digitsOfNat n ≠ '0' :: c :: cs at alone
  obtain ⟨c, cs, hd⟩ := List.exists_cons_of_ne_nil (Numeral.digitsOfNat_ne_nil n)
  rw [hd] at chars digits alone value ⊢
  have first := chars c List.mem_cons_self
  have unsigned : splitSign (c :: cs) = (false, c :: cs) := by
    rw [splitSign]
    · exact fun _ h => cons_ne_of_passes first rfl h
    · exact fun _ h => cons_ne_of_passes first rfl h
  have plain : plainDigits? (c :: cs) = some (c :: cs) := by
    rw [plainDigits?, digits]
    split
    · rename_i h
      exact absurd (Option.some.inj h) (alone _ _)
    · rfl
  rw [integer?, unsigned]
  · simp [plain, value]
  · exact fun _ => alone _ _
  · exact fun _ => alone _ _
  · exact fun _ => alone _ _

/-- The digits of a number of 64 bits are a word for it. -/
theorem ofWord?_digitsOfNat (n : UInt64) :
    ofWord? (Numeral.digitsOfNat n.toNat) = some (.integer n.toNat) := by
  have letter {c : Char} (hc : c.isDigit = false) (cs : List Char) :
      Numeral.digitsOfNat n.toNat ≠ c :: cs := by
    intro h
    exact ne_of_passes (Numeral.isDigit_of_mem_digitsOfNat (h ▸ List.mem_cons_self)) hc rfl
  have small : isInRange (n.toNat : Int) = true := by
    have bound := n.toNat_lt
    simp only [isInRange, Bool.and_eq_true, decide_eq_true_eq]
    omega
  have notTrue : ¬ Numeral.digitsOfNat n.toNat = "true".toList := letter (c := 't') rfl _
  have notFalse : ¬ Numeral.digitsOfNat n.toNat = "false".toList := letter (c := 'f') rfl _
  rw [ofWord?, if_neg notTrue, if_neg notFalse, integer?_digitsOfNat]
  simp only [small, if_true]

theorem quoted_of_string {cs rest : List Char} {s : String}
    (h : Reader.string cs = some (s, rest)) :
    ∃ quote more, cs = quote :: more ∧ (quote = '"' ∨ quote = '\'') := by
  rw [Reader.string.eq_def] at h
  split at h
  · exact ⟨_, _, rfl, .inl rfl⟩
  · exact ⟨_, _, rfl, .inr rfl⟩
  · exact ⟨_, _, rfl, .inl rfl⟩
  · exact ⟨_, _, rfl, .inr rfl⟩
  · contradiction

theorem value_of_string {cs rest : List Char} {s : String}
    (h : Reader.string cs = some (s, rest)) (fuel levels : Nat) :
    value (fuel + 1) levels cs = some (.string s, rest) := by
  obtain ⟨quote, more, rfl, rfl | rfl⟩ := quoted_of_string h
  · rw [value, h]
    rfl
  · rw [value, h]
    rfl

/-- A value starts where its text does, and ends with the line. -/
theorem value_scalar (v : Scalar) (fuel levels : Nat) (rest : List Char) :
    skipBlanks (v.text.toList ++ '\n' :: rest) = v.text.toList ++ '\n' :: rest ∧
      value (fuel + 1) levels (v.text.toList ++ '\n' :: rest) = some (v.value, '\n' :: rest) := by
  cases v with
  | string s =>
    have ends : ∀ c ∈ ('\n' :: rest).head?, c ≠ '"' ∧ c ≠ '\'' := by simp
    have read := string_stringText s ends
    refine ⟨?_, value_of_string read fuel levels⟩
    obtain ⟨quote, more, text, rfl | rfl⟩ := quoted_of_string read
    · exact text ▸ skipBlanks_of_head rfl more
    · exact text ▸ skipBlanks_of_head rfl more
  | number n =>
    have digits : (toString n.toNat).toList = Numeral.digitsOfNat n.toNat := Nat.toList_repr
    have chars : ∀ c ∈ Numeral.digitsOfNat n.toNat, isWordChar c = true := by
      intro c hc
      simp [isWordChar, isBare, Char.isAlphanum, Numeral.isDigit_of_mem_digitsOfNat hc]
    have word := ofWord?_digitsOfNat n
    have digit {c : Char} : c ∈ Numeral.digitsOfNat n.toNat → c.isDigit = true :=
      Numeral.isDigit_of_mem_digitsOfNat
    obtain ⟨c, cs, hd⟩ := List.exists_cons_of_ne_nil (Numeral.digitsOfNat_ne_nil n.toNat)
    rw [hd] at chars word digit
    rw [Scalar.text, digits, hd, value_word chars, word]
    exact ⟨skipBlanks_of_passes (digit List.mem_cons_self) rfl rfl _, rfl⟩
  | boolean b =>
    cases b with
    | false =>
      have chars : ∀ c ∈ ['f', 'a', 'l', 's', 'e'], isWordChar c = true :=
        List.all_eq_true.mp rfl
      exact ⟨rfl, value_word chars fuel levels rest⟩
    | true =>
      have chars : ∀ c ∈ ['t', 'r', 'u', 'e'], isWordChar c = true := List.all_eq_true.mp rfl
      exact ⟨rfl, value_word chars fuel levels rest⟩

/-! ## Lines -/

theorem keys_before_bracket (k : BareKey) (rest : List Char) :
    keys (k.text.toList ++ ']' :: rest) = some ([k.text], ']' :: rest) := by
  have ends : ∀ c ∈ (']' :: rest).head?, isBare c = false := fun _ h => Option.some.inj h ▸ rfl
  exact keys_bareKey k ends (skipBlanks_of_head rfl rest) (by decide)

theorem keys_before_equals (k : BareKey) (rest : List Char) :
    keys (k.text.toList ++ ' ' :: '=' :: rest) = some ([k.text], '=' :: rest) := by
  have ends : ∀ c ∈ (' ' :: '=' :: rest).head?, isBare c = false := fun _ h =>
    Option.some.inj h ▸ rfl
  exact keys_bareKey k ends rfl (by decide)

theorem line_header (name : BareKey) (doc : Progress) (rest : List Char) :
    line doc ('[' :: (name.text.toList ++ ']' :: rest)) =
      ((Line.header name).enter doc).map (·, rest) := by
  have path := keys_before_bracket name rest
  obtain ⟨c, cs, chars, first⟩ := name.toList_eq_cons
  rw [chars] at path ⊢
  rw [line]
  · rw [path]
    simp [Line.enter, Entries.modifyAt]
    cases doc.entries.openTable name.text <;> rfl
  · exact fun _ h => cons_ne_of_passes first rfl h

theorem line_setting (key : BareKey) (v : Scalar) (doc : Progress) (rest : List Char) :
    line doc (key.text.toList ++ ' ' :: '=' :: ' ' :: (v.text.toList ++ '\n' :: rest)) =
      ((Line.setting key v).enter doc).map (·, '\n' :: rest) := by
  have path := keys_before_equals key (' ' :: (v.text.toList ++ '\n' :: rest))
  have spaced : skipBlanks (' ' :: (v.text.toList ++ '\n' :: rest)) =
      v.text.toList ++ '\n' :: rest := (value_scalar v 0 0 rest).1
  have read (fuel : Nat) : value (fuel + 2) limit (v.text.toList ++ '\n' :: rest) =
      some (v.value, '\n' :: rest) := (value_scalar v (fuel + 1) limit rest).2
  have single (entries : Entries) : entries.addDotted v.value [key.text] =
      entries.addNew key.text v.value := rfl
  obtain ⟨c, cs, chars, first⟩ := key.toList_eq_cons
  rw [chars, List.cons_append] at path ⊢
  rw [line]
  · rw [path]
    simp only [Option.bind_eq_bind, Option.bind_some, spaced, read, Line.enter, single]
    cases doc.entries.modifyAt (·.addNew key.text v.value) doc.header <;> rfl
  · exact fun _ => cons_ne_of_passes first rfl
  · exact fun _ => cons_ne_of_passes first rfl
  · exact List.cons_ne_nil _ _
  · exact fun _ => cons_ne_of_passes first rfl
  · exact fun _ => cons_ne_of_passes first rfl
  · exact fun _ => cons_ne_of_passes first rfl

theorem line_text (l : Line) (doc : Progress) (rest : List Char) :
    line doc (skipBlanks (l.text.toList ++ rest)) = (l.enter doc).map (·, '\n' :: rest) := by
  cases l with
  | header name =>
    have text : (Line.header name).text.toList ++ rest =
        '[' :: (name.text.toList ++ ']' :: '\n' :: rest) := by
      simp [Line.text]
    rw [text, skipBlanks_of_head rfl, line_header]
  | setting key v =>
    have text : (Line.setting key v).text.toList ++ rest =
        key.text.toList ++ ' ' :: '=' :: ' ' :: (v.text.toList ++ '\n' :: rest) := by
      simp [Line.text]
    rw [text, key.skipBlanks_append, line_setting]
  | empty => rfl

/-! ## Documents -/

namespace Line

theorem toList_documentText_cons (l : Line) (ls : List Line) :
    (documentText (l :: ls)).toList = l.text.toList ++ (documentText ls).toList := by
  simp [documentText, String.toList_join]

theorem exists_head_text (l : Line) :
    ∃ c cs, l.text.toList = c :: cs ∧ (isBare c = true ∨ c = '[' ∨ c = '\n') := by
  cases l with
  | header name => exact ⟨'[', name.text.toList ++ [']', '\n'], by simp [text], .inr (.inl rfl)⟩
  | setting key v =>
    obtain ⟨c, cs, chars, first⟩ := key.toList_eq_cons
    exact ⟨c, cs ++ (" = " ++ v.text ++ "\n").toList, by simp [text, chars], .inl first⟩
  | empty => exact ⟨'\n', [], rfl, .inr (.inr rfl)⟩

/-- A line is entered, and reading goes on behind its end. -/
theorem lines_documentText (ls : List Line) (doc : Progress) {fuel : Nat}
    (enough : (documentText ls).toList.length < fuel) :
    lines fuel doc (documentText ls).toList = (ls.foldlM enter doc).map (·.entries) := by
  obtain ⟨fuel, rfl⟩ := Nat.exists_eq_add_one_of_ne_zero (Nat.ne_zero_of_lt enough)
  induction ls generalizing doc fuel with
  | nil => rfl
  | cons l ls ih =>
    obtain ⟨c, cs, chars, -⟩ := l.exists_head_text
    rw [toList_documentText_cons, List.length_append, chars, List.length_cons] at enough
    -- Every line has a character, so the fuel left is more than the text left.
    obtain ⟨fuel, rfl⟩ := Nat.exists_eq_add_one_of_ne_zero (show fuel ≠ 0 by omega)
    rw [toList_documentText_cons, lines, line_text, List.foldlM_cons]
    cases l.enter doc with
    | none => rfl
    | some doc => exact ih doc fuel (by omega)

/-- A document of plain lines holds what the lines make, one after the other, of nothing. -/
theorem read?_documentText (ls : List Line) :
    read? (documentText ls) = (ls.foldlM enter ⟨[], []⟩).map (·.entries) := by
  have unmarked : ∀ cs, (documentText ls).toList ≠ '\uFEFF' :: cs := by
    intro cs h
    cases ls with
    | nil => contradiction
    | cons l ls =>
      obtain ⟨c, cs, chars, first⟩ := l.exists_head_text
      rw [toList_documentText_cons, chars] at h
      obtain rfl := (List.cons.inj h).1
      revert first
      decide
  have start : read? (documentText ls) = lines ((documentText ls).toList.length + 1) ⟨[], []⟩
      (documentText ls).toList := by
    rw [read?]
    split
    · rename_i h
      exact absurd h (unmarked _)
    · rfl
  rw [start, lines_documentText ls _ (Nat.lt_succ_self _)]

/-- Empty lines make nothing. -/
theorem foldlM_enter_filter (ls : List Line) (doc : Progress) :
    (ls.filter fun l => !l.isEmpty).foldlM enter doc = ls.foldlM enter doc := by
  induction ls generalizing doc with
  | nil => rfl
  | cons l ls ih =>
    have step : (do ls.foldlM enter (← l.enter doc)) =
        (do (ls.filter fun l => !l.isEmpty).foldlM enter (← l.enter doc)) := by
      simp only [ih]
    rw [List.foldlM_cons, step]
    cases l <;> rfl

end Line

/-! ## Sections -/

/-- The lines of a section: its header and its settings. -/
def sectionLines (name : BareKey) (settings : List (BareKey × Scalar)) : List Line :=
  .header name :: settings.map fun s => .setting s.1 s.2

/-- The entries that settings make. -/
def entriesOf (settings : List (BareKey × Scalar)) : Entries :=
  settings.map fun s => (s.1.text, s.2.value)

theorem replace_append {others : Entries} {key : String} (new : others.lookup key = none)
    (v v' : Toml) : Entries.replace key v' (others ++ [(key, v)]) = others ++ [(key, v')] := by
  induction others with
  | nil => exact if_pos rfl
  | cons e others ih =>
    obtain ⟨k, w⟩ := e
    rw [lookup_cons_eq] at new
    split at new
    case isTrue => contradiction
    case isFalse other =>
      rw [List.cons_append, Entries.replace, if_neg (Ne.symm other), ih new, List.cons_append]

/-- A setting with a new key goes to the end of the last section. -/
theorem enter_setting {others entries : Entries} {name : String} (new : others.lookup name = none)
    {key : BareKey} (newKey : entries.lookup key.text = none) (v : Scalar) :
    (Line.setting key v).enter ⟨others ++ [(name, .table .headed entries)], [name]⟩ =
      some ⟨others ++ [(name, .table .headed (entries ++ [(key.text, v.value)]))], [name]⟩ := by
  have found : (others ++ [(name, Toml.table .headed entries)]).lookup name =
      some (.table .headed entries) := by
    rw [List.lookup_append, new, Option.none_or, lookup_cons_eq, if_pos rfl]
  rw [Line.enter, Entries.modifyAt, found]
  simp [Entries.modifyAt, Entries.addNew, newKey, replace_append new]

/-- A section whose name is new and whose keys differ becomes a table with its settings. -/
theorem foldlM_sectionLines {others : Entries} (header : List String) {name : BareKey}
    (new : others.lookup name.text = none) {settings : List (BareKey × Scalar)}
    (unique : (settings.map fun s => s.1.text).Nodup) :
    (sectionLines name settings).foldlM Line.enter ⟨others, header⟩ =
      some ⟨others ++ [(name.text, .table .headed (entriesOf settings))], [name.text]⟩ := by
  induction settings using List.reverseRecOn with
  | nil =>
    have opened : others.openTable name.text =
        some (others ++ [(name.text, .table .headed [])]) := by
      rw [Entries.openTable, new]
    show (Line.header name).enter ⟨others, header⟩ >>= (fun doc => some doc) = _
    rw [Line.enter, opened]
    rfl
  | append_singleton settings s ih =>
    rw [List.map_append, List.nodup_append] at unique
    have newKey : (entriesOf settings).lookup s.1.text = none := by
      rw [List.lookup_eq_none_iff]
      intro e he
      obtain ⟨s', hs, rfl⟩ := List.mem_map.mp he
      have apart := unique.2.2 _ (List.mem_map_of_mem hs) _ List.mem_cons_self
      exact bne_iff_ne.mpr (Ne.symm apart)
    have split : sectionLines name (settings ++ [s]) =
        sectionLines name settings ++ [.setting s.1 s.2] := by
      simp [sectionLines]
    have entries : entriesOf (settings ++ [s]) = entriesOf settings ++ [(s.1.text, s.2.value)] :=
      List.map_append
    rw [split, List.foldlM_append, ih unique.1, entries]
    show (Line.setting s.1 s.2).enter _ >>= (fun doc => some doc) = _
    rw [enter_setting new newKey]
    rfl

end SqlTree.Toml
