import SqlTree.Toml.Reader
import SqlTree.Toml.Text

/-!
# Written TOML strings

Whatever a string is, it is read back from the text that is written for it, in each of the four
forms. In a string with escapes every character stands for itself or has an escape that names it. In
a string of several lines quotes stand for themselves as well, at most two in a row, so that the
three that close it are only met at its end; up to two before them still belong to the string.
-/

namespace SqlTree.Toml

open Reader

/-! ## Spans -/

section Spans

variable {p : Char → Bool} {cs rest : List Char}

/-- A span of characters that pass is over where the first other one comes. -/
theorem takeWhile_append_of_ends (inside : ∀ c ∈ cs, p c = true)
    (ends : ∀ c ∈ rest.head?, p c = false) : (cs ++ rest).takeWhile p = cs := by
  have none : rest.takeWhile p = [] := by
    cases rest with
    | nil => rfl
    | cons c rest => simp [ends c rfl]
  rw [List.takeWhile_append_of_pos inside, none, List.append_nil]

theorem dropWhile_append_of_ends (inside : ∀ c ∈ cs, p c = true)
    (ends : ∀ c ∈ rest.head?, p c = false) : (cs ++ rest).dropWhile p = rest := by
  rw [List.dropWhile_append_of_pos inside]
  cases rest with
  | nil => rfl
  | cons c rest => simp [ends c rfl]

end Spans

/-! ## Characters -/

/-- After a backslash the code names the character, and it does not fold the line. -/
structure Codes (code : List Char) (c : Char) : Prop where
  reads : ∀ rest, escape (code ++ rest) = some (c, rest)
  unfolded : ∀ rest, lineEnd? (skipBlanks (code ++ rest)) = none

theorem lineEnd?_eq_none {cs : List Char} (h : ∀ c ∈ cs.head?, c ≠ '\n' ∧ c ≠ '\r') :
    lineEnd? cs = none := by
  unfold lineEnd?
  split
  · exact absurd rfl (h _ rfl).1
  · exact absurd rfl (h _ rfl).2
  · rfl

theorem Codes.of_escape {code : List Char} {letter c : Char} (visible : isBlank letter = false)
    (inside : letter ≠ '\n' ∧ letter ≠ '\r')
    (reads : ∀ rest, escape (letter :: (code ++ rest)) = some (c, rest)) :
    Codes (letter :: code) c := by
  refine ⟨reads, fun rest => ?_⟩
  have kept : skipBlanks (letter :: code ++ rest) = letter :: (code ++ rest) := by
    simp [skipBlanks, visible]
  rw [kept]
  exact lineEnd?_eq_none fun d hd => Option.some.inj hd ▸ inside

theorem Codes.unicode {a b c d e : Char} (h : scalar? [a, b, c, d] = some e) :
    Codes ['u', a, b, c, d] e :=
  .of_escape rfl (by decide) fun rest => by
    show (scalar? [a, b, c, d]).map (·, rest) = _
    rw [h]
    rfl

/-- A control character is named by four digits. -/
theorem hexadecimal4_upper : ∀ n < 0x80, ∃ a b c d,
    (Text.hexadecimal4 n).toList.map Char.toUpper = [a, b, c, d] ∧
      scalar? [a, b, c, d] = some (Char.ofNat n) := by
  have digits : ∀ n < 0x80, ((Text.hexadecimal4 n).toList.map Char.toUpper).length = 4 ∧
      scalar? ((Text.hexadecimal4 n).toList.map Char.toUpper) = some (Char.ofNat n) := by decide
  intro n hn
  obtain ⟨length, value⟩ := digits n hn
  match (Text.hexadecimal4 n).toList.map Char.toUpper, length, value with
  | [a, b, c, d], _, value => exact ⟨a, b, c, d, rfl, value⟩

/-- The text that stands for a character in a string with escapes, if no bare quote does. A line
feed may stand for itself in a string of several lines. -/
inductive Piece (lines : Bool) (c : Char) : List Char → Prop
  | plain : c ≠ '"' → c ≠ '\\' → isControl c = false → Piece lines c [c]
  | lineFeed : lines = true → c = '\n' → Piece lines c [c]
  | escaped {code : List Char} : Codes code c → Piece lines c ('\\' :: code)

theorem piece_escapedChar (lines : Bool) {c : Char} (hq : c ≠ '"') :
    Piece lines c (escapedChar lines c) := by
  unfold escapedChar
  split
  · exact .escaped (.of_escape rfl (by decide) fun _ => rfl)
  · exact .escaped (.of_escape rfl (by decide) fun _ => rfl)
  · split
    case isTrue several => exact .lineFeed several rfl
    case isFalse => exact .escaped (.of_escape rfl (by decide) fun _ => rfl)
  · exact .escaped (.of_escape rfl (by decide) fun _ => rfl)
  · exact .escaped (.of_escape rfl (by decide) fun _ => rfl)
  · exact .escaped (.of_escape rfl (by decide) fun _ => rfl)
  · rename_i hb
    split
    case isTrue control =>
      have small : c.toNat < 0x80 := by
        simp only [Bool.or_eq_true, decide_eq_true_eq, beq_iff_eq] at control
        omega
      obtain ⟨w, x, y, z, digits, value⟩ := hexadecimal4_upper c.toNat small
      rw [Char.ofNat_toNat] at value
      rw [digits]
      exact .escaped (.unicode value)
    case isFalse visible =>
      refine .plain hq hb ?_
      simp only [Bool.or_eq_true, decide_eq_true_eq, beq_iff_eq, not_or] at visible
      simp [isControl, visible]

theorem Piece.head {lines : Bool} {c : Char} {piece : List Char} (h : Piece lines c piece) :
    ∃ d more, piece = d :: more ∧ d ≠ '"' ∧ d ≠ '\r' ∧ (d = '\n' → c = '\n') := by
  cases h with
  | plain hq _ visible =>
    refine ⟨c, [], rfl, hq, ?_, id⟩
    rintro rfl
    contradiction
  | lineFeed _ same => exact ⟨c, [], rfl, same ▸ by decide, same ▸ by decide, id⟩
  | escaped => exact ⟨'\\', _, rfl, by decide, by decide, fun h => absurd h (by decide)⟩

/-- A string with escapes, from one character to the next. -/
theorem escapedChars_cons (lines : Bool) (allowed run : Nat) (c : Char) (cs : List Char) :
    (c = '"' ∧ run < allowed ∧ escapedChars lines allowed run (c :: cs) =
      '"' :: escapedChars lines allowed (run + 1) cs) ∨
    ∃ piece, Piece lines c piece ∧ escapedChars lines allowed run (c :: cs) =
      piece ++ escapedChars lines allowed 0 cs := by
  by_cases hq : c = '"'
  · subst hq
    by_cases few : run < allowed
    · exact .inl ⟨rfl, few, by rw [escapedChars, if_pos few]⟩
    · refine .inr ⟨['\\', '"'], .escaped (.of_escape rfl (by decide) fun _ => rfl), ?_⟩
      rw [escapedChars, if_neg few]
      rfl
  · refine .inr ⟨_, piece_escapedChar lines hq, ?_⟩
    rw [escapedChars]
    exact hq

/-! ## Strings on one line -/

/-- The character before what is read after it. -/
def followed (c : Char) (more : Option (List Char × List Char)) : Option (List Char × List Char) :=
  more.map fun (text, rest) => (c :: text, rest)

theorem basic_piece {c : Char} {piece : List Char} (h : Piece false c piece) (fuel : Nat)
    (rest : List Char) : basic (fuel + 1) (piece ++ rest) = followed c (basic fuel rest) := by
  cases h with
  | plain hq hb visible =>
    rw [List.singleton_append, basic]
    · cases h : basic fuel rest <;> simp [visible, followed]
    · exact hq
    · exact hb
  | lineFeed several => contradiction
  | escaped codes =>
    rw [List.cons_append, basic, codes.reads]
    cases h : basic fuel rest <;> simp [followed, h]

theorem basic_escapedChars (rest : List Char) (cs : List Char) {fuel : Nat}
    (enough : (escapedChars false 0 0 cs).length < fuel) :
    basic fuel (escapedChars false 0 0 cs ++ '"' :: rest) = some (cs, rest) := by
  induction cs generalizing fuel with
  | nil =>
    obtain ⟨fuel, rfl⟩ := Nat.exists_eq_add_one_of_ne_zero (Nat.ne_zero_of_lt enough)
    rfl
  | cons c cs ih =>
    obtain ⟨fuel, rfl⟩ := Nat.exists_eq_add_one_of_ne_zero (Nat.ne_zero_of_lt enough)
    rcases escapedChars_cons false 0 0 c cs with ⟨-, never, -⟩ | ⟨piece, stands, text⟩
    · contradiction
    · have some : 0 < piece.length := by cases stands <;> exact Nat.succ_pos _
      rw [text, List.length_append] at enough
      rw [text, List.append_assoc, basic_piece stands, ih (by omega)]
      rfl

theorem literal_append {cs : List Char} (h : ∀ c ∈ cs, c ≠ '\'' ∧ isControl c = false)
    (rest : List Char) : literal (cs ++ '\'' :: rest) = some (cs, rest) := by
  have inside : ∀ c ∈ cs, (c != '\'' && !isControl c) = true := by
    intro c hc
    simp [h c hc]
  have ends : ∀ c ∈ ('\'' :: rest).head?, (c != '\'' && !isControl c) = false := fun _ hc =>
    Option.some.inj hc ▸ rfl
  rw [literal, dropWhile_append_of_ends inside ends, takeWhile_append_of_ends inside ends]
  rfl

/-! ## Strings of several lines -/

section Lines

/-- The text of a string of several lines, between its triple quotes. Pieces of text stand for
characters; of quotes `run` stand right before the text, and two in a row stand for themselves. -/
inductive Body (quote : Char) (stands : Char → List Char → Prop) :
    Nat → List Char → List Char → Prop
  | nil {run : Nat} : Body quote stands run [] []
  | quote {run : Nat} {text cs : List Char} : run < 2 → Body quote stands (run + 1) text cs →
      Body quote stands run (quote :: text) (quote :: cs)
  | piece {run : Nat} {c : Char} {piece text cs : List Char} : stands c piece →
      Body quote stands 0 text cs → Body quote stands run (piece ++ text) (c :: cs)

/-- What a reader of such strings does: it stops at quotes that close the string, and else takes a
quote or a piece of text, which has no quote at its head and no line end but that which it stands
for. -/
structure ReadsBody (quote : Char) (stands : Char → List Char → Prop)
    (read : Nat → Reader (List Char)) : Prop where
  closes : ∀ {fuel text found}, closing? quote text = some found →
    read (fuel + 1) text = some found
  takesQuote : ∀ {fuel text}, closing? quote (quote :: text) = none →
    read (fuel + 1) (quote :: text) = followed quote (read fuel text)
  takesPiece : ∀ {fuel c piece text}, stands c piece →
    read (fuel + 1) (piece ++ text) = followed c (read fuel text)
  head : ∀ {c piece}, stands c piece → ∃ d more, piece = d :: more ∧ d ≠ quote ∧ d ≠ '\r' ∧
    (d = '\n' → c = '\n')
  visible : quote ≠ '\n' ∧ quote ≠ '\r'

theorem closing?_eq_none {quote : Char} {text : List Char}
    (few : (text.takeWhile (· == quote)).length ≤ 2) : closing? quote text = none := by
  rw [closing?, if_neg]
  rw [List.length_take]
  omega

/-- Up to two quotes before the three that close a string belong to it. -/
theorem closing?_replicate {quote : Char} {count : Nat} (few : count ≤ 2) {rest : List Char}
    (ends : ∀ c ∈ rest.head?, c ≠ quote) :
    closing? quote (List.replicate count quote ++ quote :: quote :: quote :: rest) =
      some (List.replicate count quote, rest) := by
  have whole : List.replicate count quote ++ quote :: quote :: quote :: rest =
      List.replicate (count + 3) quote ++ rest := by
    rw [← List.replicate_append_replicate, List.append_assoc]
    rfl
  have quotes : (List.replicate (count + 3) quote ++ rest).takeWhile (· == quote) =
      List.replicate (count + 3) quote :=
    takeWhile_append_of_ends (by simp) fun c hc => beq_eq_false_iff_ne.mpr (ends c hc)
  have all : (List.replicate (count + 3) quote).take 5 = List.replicate (count + 3) quote :=
    List.take_of_length_le (by simp; omega)
  rw [whole, closing?, quotes, all]
  simp

variable {quote : Char} {stands : Char → List Char → Prop} {read : Nat → Reader (List Char)}
  {run : Nat} {text cs : List Char}

/-- Either nothing is left but quotes of the string, or its text goes on with few of them. -/
theorem Body.all_or_few (h : Body quote stands run text cs) (reads : ReadsBody quote stands read)
    (before : run ≤ 2) (tail : List Char) :
    (∃ count, run + count ≤ 2 ∧ text = List.replicate count quote ∧
      cs = List.replicate count quote) ∨
    ((text ++ tail).takeWhile (· == quote)).length ≤ 2 - run := by
  induction h with
  | nil => exact .inl ⟨0, before, rfl, rfl⟩
  | quote few _ ih =>
    -- one more quote is before the others of the string, or before the few at the head of the text
    rcases ih few with ⟨count, within, rfl, rfl⟩ | less
    · exact .inl ⟨count + 1, by omega, rfl, rfl⟩
    · refine .inr ?_
      simp
      omega
  | piece stood _ ih =>
    obtain ⟨d, more, rfl, other, -⟩ := reads.head stood
    refine .inr ?_
    simp [other]

/-- The string is read from its text and the quotes that close it. -/
theorem Body.read_eq (h : Body quote stands run text cs) (reads : ReadsBody quote stands read)
    (before : run ≤ 2) {rest : List Char} (ends : ∀ c ∈ rest.head?, c ≠ quote) {fuel : Nat}
    (enough : text.length < fuel) :
    read fuel (text ++ quote :: quote :: quote :: rest) = some (cs, rest) := by
  induction h generalizing fuel with
  | nil =>
    obtain ⟨fuel, rfl⟩ := Nat.exists_eq_add_one_of_ne_zero (Nat.ne_zero_of_lt enough)
    exact reads.closes (closing?_replicate (Nat.zero_le 2) ends)
  | @quote run text cs few inside ih =>
    obtain ⟨fuel, rfl⟩ := Nat.exists_eq_add_one_of_ne_zero (Nat.ne_zero_of_lt enough)
    have left := (Body.quote few inside).all_or_few reads before (quote :: quote :: quote :: rest)
    rcases left with ⟨count, within, all, value⟩ | less
    · rw [all, value]
      exact reads.closes (closing?_replicate (by omega) ends)
    · -- too few quotes for an end: the first of them is taken for the string
      rw [List.length_cons] at enough
      have unclosed := closing?_eq_none (Nat.le_trans less (Nat.sub_le 2 run))
      rw [List.cons_append] at unclosed ⊢
      rw [reads.takesQuote unclosed, ih few (by omega)]
      rfl
  | piece stood _ ih =>
    obtain ⟨fuel, rfl⟩ := Nat.exists_eq_add_one_of_ne_zero (Nat.ne_zero_of_lt enough)
    obtain ⟨d, more, rfl, -⟩ := reads.head stood
    rw [List.length_append, List.length_cons] at enough
    rw [List.append_assoc, reads.takesPiece stood, ih (Nat.zero_le 2) (by omega)]
    rfl

end Lines

theorem closing?_of_head {quote d : Char} (h : d ≠ quote) (text : List Char) :
    closing? quote (d :: text) = none :=
  closing?_eq_none (by simp [h])

theorem multiBasic_self {c : Char} {text : List Char} (unclosed : closing? '"' (c :: text) = none)
    (hb : c ≠ '\\') (goes : goesOn (c :: text) = true) (fuel : Nat) :
    multiBasic (fuel + 1) (c :: text) = followed c (multiBasic fuel text) := by
  rw [multiBasic.eq_def]
  simp only [unclosed]
  cases multiBasic fuel text <;> simp [goes, followed]

theorem readsBody_multiBasic : ReadsBody '"' (Piece true) multiBasic where
  closes := by
    intro fuel text found h
    rw [multiBasic.eq_def]
    simp only [h]
  takesQuote := by
    intro fuel text h
    exact multiBasic_self h (by decide) rfl fuel
  takesPiece := by
    intro fuel c piece text h
    cases h with
    | plain hq hb visible =>
      have goes : goesOn (c :: text) = true := by simp [goesOn, visible]
      exact multiBasic_self (closing?_of_head hq text) hb goes fuel
    | lineFeed _ same =>
      subst same
      exact multiBasic_self (closing?_of_head (by decide) text) (by decide) rfl fuel
    | escaped codes =>
      rw [List.cons_append, multiBasic, closing?_of_head (by decide)]
      simp only [codes.unfolded, codes.reads]
      cases h : multiBasic fuel text <;> simp [followed, h]
  head := Piece.head
  visible := by decide

theorem body_escapedChars (cs : List Char) (run : Nat) :
    Body '"' (Piece true) run (escapedChars true 2 run cs) cs := by
  induction cs generalizing run with
  | nil => exact .nil
  | cons c cs ih =>
    rcases escapedChars_cons true 2 run c cs with ⟨rfl, few, text⟩ | ⟨piece, stands, text⟩
    · exact text ▸ .quote few (ih (run + 1))
    · exact text ▸ .piece stands (ih 0)

/-- The character stands for itself in a string of several lines in single quotes. -/
def Itself (c : Char) (piece : List Char) : Prop :=
  piece = [c] ∧ c ≠ '\'' ∧ (isControl c = true → c = '\n')

theorem multiLiteral_self {c : Char} {text : List Char}
    (unclosed : closing? '\'' (c :: text) = none) (goes : goesOn (c :: text) = true) (fuel : Nat) :
    multiLiteral (fuel + 1) (c :: text) = followed c (multiLiteral fuel text) := by
  rw [multiLiteral.eq_def]
  simp only [unclosed]
  cases multiLiteral fuel text <;> simp [goes, followed]

theorem readsBody_multiLiteral : ReadsBody '\'' Itself multiLiteral where
  closes := by
    intro fuel text found h
    rw [multiLiteral.eq_def]
    simp only [h]
  takesQuote := by
    intro fuel text h
    exact multiLiteral_self h rfl fuel
  takesPiece := by
    rintro fuel c piece text ⟨rfl, hq, inLine⟩
    refine multiLiteral_self (closing?_of_head hq text) ?_ fuel
    cases control : isControl c with
    | false => simp [goesOn, control]
    | true =>
      obtain rfl := inLine control
      rfl
  head := by
    rintro c piece ⟨rfl, hq, inLine⟩
    refine ⟨c, [], rfl, hq, ?_, id⟩
    rintro rfl
    exact absurd (inLine rfl) (by decide)
  visible := by decide

/-! ## Runs of quotes -/

/-- No more than `allowed` of the character are in a row, where `run` of them stand right before. -/
def RunsWithin (c : Char) (allowed : Nat) : Nat → List Char → Prop
  | _, [] => True
  | run, d :: ds =>
    if d = c then run < allowed ∧ RunsWithin c allowed (run + 1) ds else RunsWithin c allowed 0 ds

/-- The longest run and the one that is going on, after one more character. -/
def nextRuns (c : Char) (runs : Nat × Nat) (d : Char) : Nat × Nat :=
  let run := if d = c then runs.2 + 1 else 0
  (max runs.1 run, run)

theorem longestRun_eq_foldl (c : Char) (cs : List Char) :
    longestRun c cs = (cs.foldl (nextRuns c) (0, 0)).1 := rfl

theorem foldl_nextRuns_le {c : Char} {allowed : Nat} (cs : List Char) (longest run : Nat) :
    (cs.foldl (nextRuns c) (longest, run)).1 ≤ allowed ↔
      longest ≤ allowed ∧ RunsWithin c allowed run cs := by
  induction cs generalizing longest run with
  | nil => exact (and_iff_left True.intro).symm
  | cons d ds ih =>
    rw [List.foldl_cons, nextRuns, ih, RunsWithin]
    by_cases same : d = c
    · simp only [if_pos same, Nat.max_le, Nat.succ_le_iff, and_assoc]
    · simp only [if_neg same, Nat.max_le, Nat.zero_le, and_true]

theorem longestRun_le {c : Char} {cs : List Char} {allowed : Nat} :
    longestRun c cs ≤ allowed ↔ RunsWithin c allowed 0 cs := by
  rw [longestRun_eq_foldl, foldl_nextRuns_le]
  exact and_iff_right (Nat.zero_le allowed)

theorem RunsWithin.not_mem {c : Char} {cs : List Char} (h : RunsWithin c 0 0 cs) : c ∉ cs := by
  induction cs with
  | nil => exact List.not_mem_nil
  | cons d ds ih =>
    rw [RunsWithin] at h
    split at h
    case isTrue => exact absurd h.1 (Nat.not_lt_zero 0)
    case isFalse other =>
      rw [List.mem_cons, not_or]
      exact ⟨Ne.symm other, ih h⟩

theorem body_itself {cs : List Char} (inLine : ∀ c ∈ cs, isControl c = true → c = '\n')
    {run : Nat} (within : RunsWithin '\'' 2 run cs) : Body '\'' Itself run cs cs := by
  induction cs generalizing run with
  | nil => exact .nil
  | cons c cs ih =>
    obtain ⟨first, others⟩ := List.forall_mem_cons.mp inLine
    rw [RunsWithin] at within
    split at within
    case isTrue same =>
      subst same
      exact .quote within.1 (ih others within.2)
    case isFalse other =>
      have stands : Itself c [c] := ⟨rfl, other, first⟩
      exact .piece stands (ih others within)

/-! ## Whole strings -/

section Whole

variable {cs rest : List Char}

theorem string_of_double {text : List Char} (single : ∀ more, text ≠ '"' :: '"' :: more) :
    Reader.string ('"' :: text) =
      (basic (text.length + 1) text).map fun (t, cs) => (.ofList t, cs) := by
  rw [Reader.string]
  exact single

theorem string_of_single {text : List Char} (single : ∀ more, text ≠ '\'' :: '\'' :: more) :
    Reader.string ('\'' :: text) = (literal text).map fun (t, cs) => (.ofList t, cs) := by
  rw [Reader.string]
  exact single

/-- Behind the quote that closes a string on one line no other follows, so that its first two quotes
are never the beginning of three. -/
theorem ne_quotes {quote : Char} {text : List Char} (inside : ∀ c ∈ text.head?, c ≠ quote)
    (ends : ∀ c ∈ rest.head?, c ≠ quote) (more : List Char) :
    text ++ quote :: rest ≠ quote :: quote :: more := by
  intro h
  cases text with
  | nil => exact ends quote (by rw [(List.cons.inj h).2]; rfl) rfl
  | cons c text => exact inside c rfl (List.cons.inj h).1

theorem string_basicText (ends : ∀ c ∈ rest.head?, c ≠ '"') :
    Reader.string ((basicText cs).toList ++ rest) = some (.ofList cs, rest) := by
  have text : (basicText cs).toList ++ rest =
      '"' :: (escapedChars false 0 0 cs ++ '"' :: rest) := by
    simp [basicText]
  have read : basic ((escapedChars false 0 0 cs ++ '"' :: rest).length + 1)
      (escapedChars false 0 0 cs ++ '"' :: rest) = some (cs, rest) := by
    apply basic_escapedChars
    rw [List.length_append]
    omega
  have inside : ∀ c ∈ (escapedChars false 0 0 cs).head?, c ≠ '"' := by
    cases cs with
    | nil => exact fun _ h => absurd h (Option.not_mem_none _)
    | cons c cs =>
      rcases escapedChars_cons false 0 0 c cs with ⟨-, never, -⟩ | ⟨piece, stands, text⟩
      · contradiction
      · obtain ⟨d, more, rfl, hq, -⟩ := stands.head
        rw [text]
        exact fun _ h => Option.some.inj h ▸ hq
  rw [text, string_of_double (ne_quotes inside ends), read]
  rfl

theorem string_literalText (inside : ∀ c ∈ cs, c ≠ '\'' ∧ isControl c = false)
    (ends : ∀ c ∈ rest.head?, c ≠ '\'') :
    Reader.string ((literalText cs).toList ++ rest) = some (.ofList cs, rest) := by
  have text : (literalText cs).toList ++ rest = '\'' :: (cs ++ '\'' :: rest) := by
    simp [literalText]
  have first : ∀ c ∈ cs.head?, c ≠ '\'' := fun c hc => (inside c (List.mem_of_mem_head? hc)).1
  rw [text, string_of_single (ne_quotes first ends), literal_append inside]
  rfl

theorem Body.unopened {quote : Char} {stands : Char → List Char → Prop}
    {read : Nat → Reader (List Char)} {run : Nat} {text : List Char}
    (h : Body quote stands run text cs) (reads : ReadsBody quote stands read)
    (oneLine : '\n' ∉ cs) (more : List Char) : lineEnd? (text ++ quote :: more) = none := by
  apply lineEnd?_eq_none
  cases h with
  | nil => exact fun _ h => Option.some.inj h ▸ reads.visible
  | quote => exact fun _ h => Option.some.inj h ▸ reads.visible
  | piece stood =>
    obtain ⟨d, _, rfl, -, feed, itself⟩ := reads.head stood
    have line : d ≠ '\n' := fun h => oneLine (itself h ▸ List.mem_cons_self)
    exact fun _ h => Option.some.inj h ▸ ⟨line, feed⟩

/-- A string of several lines is read after its triple quotes. A line end behind them opens it, and
may be left out if the string has no line feed. -/
theorem Body.read_opening {quote : Char} {stands : Char → List Char → Prop}
    {read : Nat → Reader (List Char)} {text : List Char} (h : Body quote stands 0 text cs)
    (reads : ReadsBody quote stands read) (ends : ∀ c ∈ rest.head?, c ≠ quote) {newline : Bool}
    (oneLine : newline = false → '\n' ∉ cs) :
    let whole := (opening newline).toList ++ (text ++ quote :: quote :: quote :: rest)
    read (whole.length + 1) (dropLineEnd whole) = some (cs, rest) := by
  intro whole
  have opened : dropLineEnd whole = text ++ quote :: quote :: quote :: rest := by
    cases newline with
    | true => rfl
    | false =>
      have shut : (opening false).toList = [] := rfl
      simp only [whole, shut, List.nil_append, dropLineEnd]
      rw [h.unopened reads (oneLine rfl)]
      rfl
  have enough : text.length < whole.length + 1 := by
    simp only [whole, List.length_append]
    omega
  rw [opened, h.read_eq reads (Nat.zero_le 2) ends enough]

theorem string_multiBasicText {newline : Bool} (oneLine : newline = false → '\n' ∉ cs)
    (ends : ∀ c ∈ rest.head?, c ≠ '"') :
    Reader.string ((multiBasicText newline cs).toList ++ rest) = some (.ofList cs, rest) := by
  have text : (multiBasicText newline cs).toList ++ rest = '"' :: '"' :: '"' ::
      ((opening newline).toList ++ (escapedChars true 2 0 cs ++ '"' :: '"' :: '"' :: rest)) := by
    simp [multiBasicText]
  have read := (body_escapedChars cs 0).read_opening readsBody_multiBasic ends oneLine
  rw [text, Reader.string, read]
  rfl

theorem string_multiLiteralText (inLine : ∀ c ∈ cs, isControl c = true → c = '\n')
    (within : longestRun '\'' cs ≤ 2) {newline : Bool} (oneLine : newline = false → '\n' ∉ cs)
    (ends : ∀ c ∈ rest.head?, c ≠ '\'') :
    Reader.string ((multiLiteralText newline cs).toList ++ rest) = some (.ofList cs, rest) := by
  have text : (multiLiteralText newline cs).toList ++ rest = '\'' :: '\'' :: '\'' ::
      ((opening newline).toList ++ (cs ++ '\'' :: '\'' :: '\'' :: rest)) := by
    simp [multiLiteralText]
  have body := body_itself inLine (longestRun_le.mp within)
  rw [text, Reader.string, body.read_opening readsBody_multiLiteral ends oneLine]
  rfl

end Whole

/-- Without other control characters, those in a string are its line feeds. -/
theorem StringFeatures.inLine {cs : List Char} (h : (of cs).control = false) :
    ∀ c ∈ cs, isControl c = true → c = '\n' := by
  intro c hc control
  have other := List.any_eq_false.mp h c hc
  simp only [isControl, Bool.or_eq_true, Bool.and_eq_true, decide_eq_true_eq, bne_iff_ne,
    beq_iff_eq] at control other
  refine Decidable.byContradiction fun feed => ?_
  exact other (control.imp_left fun low => ⟨low, feed⟩)

theorem StringFeatures.oneLine {cs : List Char} (h : (of cs).newline = false) : '\n' ∉ cs := by
  intro feed
  rw [of, List.contains_iff_mem.mpr feed] at h
  contradiction

/-- Every string is read back from its text, if no quote follows. -/
theorem string_stringText (s : String) {rest : List Char}
    (ends : ∀ c ∈ rest.head?, c ≠ '"' ∧ c ≠ '\'') :
    Reader.string ((stringText s).toList ++ rest) = some (s, rest) := by
  have double : ∀ c ∈ rest.head?, c ≠ '"' := fun c hc => (ends c hc).1
  have single : ∀ c ∈ rest.head?, c ≠ '\'' := fun c hc => (ends c hc).2
  have whole : String.ofList s.toList = s := String.ofList_toList
  simp only [stringText, Bool.and_eq_true, Bool.not_eq_true', beq_iff_eq, decide_eq_true_eq]
  split
  case isTrue => rw [string_basicText double, whole]
  split
  case isTrue h =>
    obtain ⟨⟨control, none⟩, line⟩ := h
    have inside : ∀ c ∈ s.toList, c ≠ '\'' ∧ isControl c = false := by
      intro c hc
      constructor
      · rintro rfl
        exact (longestRun_le.mp (Nat.le_of_eq none)).not_mem hc
      · rw [Bool.eq_false_iff]
        intro h
        exact StringFeatures.oneLine line (StringFeatures.inLine control c hc h ▸ hc)
    rw [string_literalText inside single, whole]
  split
  case isTrue => rw [string_multiBasicText StringFeatures.oneLine double, whole]
  split
  case isTrue h =>
    rw [string_multiLiteralText (StringFeatures.inLine h.1) h.2 StringFeatures.oneLine single,
      whole]
  split
  · have opened : true = false → '\n' ∉ s.toList := fun h => Bool.noConfusion h
    rw [string_multiBasicText opened double, whole]
  · rw [string_basicText double, whole]

end SqlTree.Toml
