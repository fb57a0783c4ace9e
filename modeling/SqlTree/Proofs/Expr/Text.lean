import SqlTree.Proofs.Expr.Canonical
import SqlTree.Proofs.Expr.Plain

/-!
# Reading expressions back

The text of a plain expression can be read back, up to locations: what stands in brackets is told
by the word that opens them, or by the one that follows the first operand. So plain expressions with
one text are the same.
-/

namespace SqlTree

open Text

namespace Expr

/-! ## Readings -/

section Readings

variable (e : Reading Expr) (fuel : Nat)

def readNot : Reading Expr := do
  let a ← e
  Reading.word ")"
  return .unary .unknown .not a

def readCast : Reading Expr := do
  let a ← e
  Reading.word " AS "
  let type ← SqlType.readType fuel
  Reading.word ")"
  return .unary .unknown (.cast type) a

/-- Takes the right operand of an operator. -/
def readRight (op : BinaryOperator) (left : Expr) : Reading Expr := do
  let right ← e
  Reading.word ")"
  return .binary .unknown op left right

def readBounds (value : Expr) : Reading Expr := do
  let low ← e
  Reading.word " AND "
  let high ← e
  Reading.word ")"
  return .between .unknown value low high

def readIn (value : Expr) : Reading Expr := do
  let values ← Reading.listed e ")" fuel
  Reading.word ")"
  return .isIn .unknown value ⟨.unknown, values⟩

/-- What follows the first operand in brackets. -/
def operandTable (a : Expr) : List (String × Reading Expr) :=
  [(" IS NULL)", pure (.unary .unknown .isNull a)),
    (" IS NOT NULL)", pure (.unary .unknown .isNotNull a)),
    (" BETWEEN ", readBounds e a),
    (" IN (", readIn e fuel a)] ++
  BinaryOperator.spaced.map fun op => (op.word, readRight e op a)

/-- Takes the first operand in brackets and what follows it. -/
def readOperation : Reading Expr := do
  let a ← e
  Reading.choose (operandTable e fuel a) failure

/-- Takes a branch, and then more of them. -/
def readBranch {α : Type} (k : List Branch → Option Expr → α)
    (more : Reading (List Branch × Option Expr)) : Reading α := do
  let condition ← e
  Reading.word " THEN "
  let result ← e
  (fun (bs, otherwise?) => k (⟨.unknown, condition, result⟩ :: bs) otherwise?) <$> more

def readElse {α : Type} (k : List Branch → Option Expr → α) : Reading α := do
  let otherwise ← e
  Reading.word " END)"
  return k [] (some otherwise)

/-- Takes the branches and what is after `ELSE`, and puts them together. -/
def clauseTable {α : Type} (k : List Branch → Option Expr → α)
    (more : Reading (List Branch × Option Expr)) : List (String × Reading α) :=
  [(" WHEN ", readBranch e k more), (" ELSE ", readElse e k), (" END)", pure (k [] none))]

def readClauses : Nat → Reading (List Branch × Option Expr)
  | 0 => failure
  | fuel + 1 => Reading.choose (clauseTable e Prod.mk (readClauses fuel)) failure

def readOperandCase : Reading Expr := do
  Reading.word " "
  let o ← e
  Reading.choose (clauseTable e (.case .unknown (some o)) (readClauses e fuel)) failure

def readCase : Reading Expr :=
  Reading.choose (clauseTable e (.case .unknown none) (readClauses e fuel))
    (readOperandCase e fuel)

/-- Takes what is in brackets. -/
def readBracket : Reading Expr :=
  Reading.choose [("NOT ", readNot e), ("CASE", readCase e fuel)] (readOperation e fuel)

/-- Takes a name, and the arguments if it is the name of a function. -/
def readNamed : Reading Expr := do
  let n ← Name.readName
  Reading.choose [("(", .call .unknown n <$> Reading.listed e ")" fuel)] (pure (.column .unknown n))

def readString : Reading Expr := (fun s => .literal .unknown (.string s)) <$> Reading.closedBy '\''

/-- Takes an expression whose parts are taken by `e`. -/
def readForm : Reading Expr :=
  Reading.choose [("'", readString), ("(", readBracket e fuel), ("CAST(", readCast e fuel)]
    (readNamed e fuel)

end Readings

def readExpr : Nat → Reading Expr
  | 0 => failure
  | fuel + 1 => readForm (readExpr fuel) fuel

/-! ## Forms of expressions

A form is read back if its parts are. -/

section Forms

variable {e : Reading Expr} {fuel : ℕ} {s t u w : String} {a b c : Expr} {x : Reading Expr}

theorem formWords_apart : ["'", "(", "CAST("].Pairwise Apart := by decide

theorem bracketWords_apart : ["NOT ", "CASE"].Pairwise Apart := by decide

theorem reads_string (s : String) :
    Reads (readForm e fuel) marks (Literal.string s).text (.literal .unknown (.string s)) := by
  have quoted : (Literal.string s).text = "'" ++ closing '\'' s := delimited_eq '\'' s
  have read : Reads (Reading.closedBy '\'') marks (closing '\'' s) s := .closedBy (by decide) s
  rw [quoted]
  exact .choose List.mem_cons_self (read.map _) rfl formWords_apart

theorem reads_bracket (h : Reads (readBracket e fuel) marks s a) :
    Reads (readForm e fuel) marks ("(" ++ s) a :=
  .choose (by simp) h rfl formWords_apart

theorem reads_not (ha : Reads e marks s a) :
    Reads (readForm e fuel) marks ("(NOT " ++ (s ++ ")")) (.unary .unknown .not a) := by
  have close : Reads (readNot e) marks (s ++ ")") (.unary .unknown .not a) :=
    ha.before (by decide) _
  have bracket : Reads (readBracket e fuel) marks ("NOT " ++ (s ++ ")")) (.unary .unknown .not a) :=
    .choose List.mem_cons_self close rfl bracketWords_apart
  have opening : "(NOT " = "(" ++ "NOT " := rfl
  rw [opening, String.append_assoc]
  exact reads_bracket bracket

theorem reads_cast (ha : Reads e marks s a) {type : SqlType} (plain : type.Plain)
    (enough : sizeOf type ≤ fuel) :
    Reads (readForm e fuel) marks ("CAST(" ++ (s ++ (" AS " ++ (type.text ++ ")"))))
      (.unary .unknown (.cast type) a) := by
  have ht := SqlType.reads_readType plain fuel enough
  have as : StartsIn marks (" AS " ++ (type.text ++ ")")) := .append (by decide) _
  have cast : Reads (readCast e fuel) marks (s ++ (" AS " ++ (type.text ++ ")")))
      (.unary .unknown (.cast type) a) :=
    ha.bind (.word_bind (ht.before (by decide) _)) as
  exact .choose (by simp) cast rfl formWords_apart

/-! ### Operations in brackets -/

def operandWords : List String :=
  [" IS NULL)", " IS NOT NULL)", " BETWEEN ", " IN ("] ++
    BinaryOperator.spaced.map BinaryOperator.word

theorem operandTable_words (a : Expr) : (operandTable e fuel a).map Prod.fst = operandWords := by
  simp [operandTable, operandWords, Function.comp_def]

theorem operandWords_apart : operandWords.Pairwise Apart := by decide

theorem startsIn_of_mem_operandWords : ∀ w ∈ operandWords, StartsIn marks w := by decide

theorem reads_operation (ha : Reads e marks s a) (opens : Opens s)
    (mem : (w, x) ∈ operandTable e fuel a) (hx : Reads x marks t b) :
    Reads (readForm e fuel) marks ("(" ++ (s ++ (w ++ t))) b := by
  have isWord : w ∈ operandWords := operandTable_words a ▸ List.mem_map_of_mem mem
  have starts := (startsIn_of_mem_operandWords w isWord).append t
  have rest : Reads (Reading.choose (operandTable e fuel a) failure) marks (w ++ t) b :=
    .choose mem hx (operandTable_words a) operandWords_apart
  have operation : Reads (readOperation e fuel) marks (s ++ (w ++ t)) b := ha.bind rest starts
  have words : ["NOT ", "CASE"] ⊆ stops := by decide
  exact reads_bracket (.otherwise operation rfl fun v hv => (opens v (words hv)).append starts)

/-- An operation that is over with its word. -/
theorem reads_test (ha : Reads e marks s a) (opens : Opens s)
    (mem : (w, pure b) ∈ operandTable e fuel a) :
    Reads (readForm e fuel) marks ("(" ++ (s ++ w)) b := by
  have read := reads_operation ha opens mem (.pure b)
  rwa [String.append_empty] at read

theorem reads_binary (ha : Reads e marks s a) (opens : Opens s) (hb : Reads e marks t b)
    {op : BinaryOperator} (h : op ≠ .subscript) :
    Reads (readForm e fuel) marks ("(" ++ (s ++ (op.word ++ (t ++ ")"))))
      (.binary .unknown op a b) := by
  have right : Reads (readRight e op a) marks (t ++ ")") (.binary .unknown op a b) :=
    hb.before (by decide) _
  refine reads_operation ha opens (List.mem_append_right _ ?_) right
  exact List.mem_map.mpr ⟨op, BinaryOperator.mem_spaced h, rfl⟩

theorem reads_between (ha : Reads e marks s a) (opens : Opens s) (hb : Reads e marks t b)
    (hc : Reads e marks u c) :
    Reads (readForm e fuel) marks ("(" ++ (s ++ (" BETWEEN " ++ (t ++ (" AND " ++ (u ++ ")"))))))
      (.between .unknown a b c) := by
  have and : StartsIn marks (" AND " ++ (u ++ ")")) := .append (by decide) _
  have bounds : Reads (readBounds e a) marks (t ++ (" AND " ++ (u ++ ")")))
      (.between .unknown a b c) :=
    hb.bind (.word_bind (hc.before (by decide) _)) and
  exact reads_operation ha opens (by simp [operandTable]) bounds

theorem closes_bracket : Closes marks ")" := ⟨by decide, by decide, by decide⟩

theorem reads_list {xs : List Expr} (hxs : ∀ x ∈ xs, Reads e marks x.text x.canonical)
    (opens : ∀ x ∈ xs, Opens x.text) (enough : xs.length ≤ fuel) :
    Reads (Reading.listed e ")" fuel) marks (", ".intercalate (xs.map text) ++ ")")
      (xs.map canonical) :=
  closes_bracket.reads_listed hxs (fun x hx => opens x hx ")" (by decide)) enough

theorem reads_isIn (ha : Reads e marks s a) (opens : Opens s) {xs : List Expr}
    (hxs : Reads (Reading.listed e ")" fuel) marks (t ++ ")") xs) :
    Reads (readForm e fuel) marks ("(" ++ (s ++ (" IN (" ++ (t ++ (")" ++ ")")))))
      (.isIn .unknown a ⟨.unknown, xs⟩) := by
  have values : Reads (readIn e fuel a) marks (t ++ ")" ++ ")")
      (.isIn .unknown a ⟨.unknown, xs⟩) :=
    hxs.before (by decide) fun xs => isIn .unknown a ⟨.unknown, xs⟩
  rw [String.append_assoc] at values
  exact reads_operation ha opens (by simp [operandTable]) values

/-! ### Names and calls -/

theorem reads_named (h : Reads (readNamed e fuel) marks s a) (hs : StartsPlain s) :
    Reads (readForm e fuel) marks s a := by
  have outside : ∀ w ∈ ["'", "(", "CAST("], StartsOutside w := by decide
  exact .otherwise h rfl fun w hw => hs.avoids (outside w hw) marks

theorem reads_column {n : Name} (hn : n.Plain) :
    Reads (readForm e fuel) marks n.text (.column .unknown n) := by
  refine reads_named (hn.reads_readName.bind_nothing (.otherwise (.pure _) rfl ?_) (by decide))
    hn.startsPlain
  have bracket : Avoids marks "" "(" := .of_not_mem (c := '(') rfl (by decide) (by decide)
  exact List.forall_mem_singleton.mpr bracket

theorem reads_call {n : Name} (hn : n.Plain) {xs : List Expr}
    (hxs : Reads (Reading.listed e ")" fuel) marks (t ++ ")") xs) :
    Reads (readForm e fuel) marks (n.text ++ ("(" ++ (t ++ ")"))) (.call .unknown n xs) := by
  have named : Reads (readNamed e fuel) marks (n.text ++ ("(" ++ (t ++ ")")))
      (.call .unknown n xs) :=
    hn.reads_readName.bind
      (.choose List.mem_cons_self (hxs.map _) rfl (List.pairwise_singleton ..))
      (.append (by decide) _)
  exact reads_named named (hn.startsPlain.append _)

end Forms

/-! ### Branches -/

/-- The branches and what is after `ELSE`, up to the end. -/
def clausesText (bs : List Branch) (o? : Option Expr) : String :=
  Branch.texts bs ++ (optionText " ELSE " o? ++ " END)")

theorem clausesText_cons (b : Branch) (bs : List Branch) (o? : Option Expr) :
    clausesText (b :: bs) o? = " WHEN " ++ (b.condition.text ++ (" THEN " ++
      (b.result.text ++ clausesText bs o?))) := by
  have opening : " WHEN " = " " ++ "WHEN " := rfl
  cases b
  simp only [clausesText, Branch.texts, Branch.text, opening, String.append_assoc]

theorem clausesText_else (o : Expr) :
    clausesText [] (some o) = " ELSE " ++ (o.text ++ " END)") := by
  simp only [clausesText, Branch.texts, optionText, String.empty_append, String.append_assoc]

theorem clausesText_end : clausesText [] none = " END)" := rfl

theorem startsIn_clausesText (bs : List Branch) (o? : Option Expr) :
    StartsIn marks (clausesText bs o?) := by
  match bs, o? with
  | [], none => decide
  | [], some o =>
    rw [clausesText_else]
    exact .append (by decide) _
  | b :: bs, o? =>
    rw [clausesText_cons]
    exact .append (by decide) _

theorem clauseWords_apart : [" WHEN ", " ELSE ", " END)"].Pairwise Apart := by decide

section Clauses

variable {e : Reading Expr} {fuel : ℕ} {s : String} {a : Expr} {bs : List Branch} {o? : Option Expr}
  (hbs : ∀ b ∈ bs, Reads e marks b.condition.text b.condition.canonical ∧
    Reads e marks b.result.text b.result.canonical)
  (ho : ∀ o ∈ o?, Reads e marks o.text o.canonical) (enough : bs.length ≤ fuel)

include hbs ho enough

theorem reads_clauses {α : Type} (k : List Branch → Option Expr → α) (other : Reading α) :
    Reads (Reading.choose (clauseTable e k (readClauses e fuel)) other) marks (clausesText bs o?)
      (k (bs.map Branch.canonical) (o?.map canonical)) := by
  induction bs generalizing α fuel with
  | nil =>
    cases o? with
    | none => exact .choose_pure (by simp [clauseTable, clausesText_end]) rfl clauseWords_apart
    | some o =>
      have last : Reads (readElse e k) marks (o.text ++ " END)") (k [] (some o.canonical)) :=
        (ho o rfl).before (by decide) fun r => k [] (some r)
      rw [clausesText_else]
      exact .choose (by simp [clauseTable]) last rfl clauseWords_apart
  | cons b bs ih =>
    obtain ⟨fuel, rfl⟩ := Nat.exists_eq_succ_of_ne_zero (Nat.ne_zero_of_lt enough)
    obtain ⟨⟨hc, hr⟩, hbs⟩ := List.forall_mem_cons.mp hbs
    have more : Reads (readClauses e (fuel + 1)) marks (clausesText bs o?) _ :=
      ih hbs (Nat.le_of_succ_le_succ enough) Prod.mk failure
    have branch : Reads (readBranch e k (readClauses e (fuel + 1))) marks (b.condition.text ++
        (" THEN " ++ (b.result.text ++ clausesText bs o?))) _ :=
      hc.bind (.word_bind (hr.bind (more.map _) (startsIn_clausesText bs o?)))
        (.append (by decide) _)
    rw [clausesText_cons]
    cases b
    exact .choose List.mem_cons_self branch rfl clauseWords_apart

theorem reads_case :
    Reads (readForm e fuel) marks ("(CASE" ++ clausesText bs o?)
      (.case .unknown none (bs.map Branch.canonical) (o?.map canonical)) := by
  have opening : "(CASE" = "(" ++ "CASE" := rfl
  have clauses : Reads (readCase e fuel) marks (clausesText bs o?) _ :=
    reads_clauses hbs ho enough (Expr.case .unknown none) _
  rw [opening, String.append_assoc]
  exact reads_bracket (.choose (by simp) clauses rfl bracketWords_apart)

theorem reads_operandCase (ha : Reads e marks s a) (opens : Opens s) :
    Reads (readForm e fuel) marks ("(CASE" ++ (" " ++ (s ++ clausesText bs o?)))
      (.case .unknown (some a) (bs.map Branch.canonical) (o?.map canonical)) := by
  have opening : "(CASE" = "(" ++ "CASE" := rfl
  have starts := startsIn_clausesText bs o?
  have operand : Reads (readOperandCase e fuel) marks (" " ++ (s ++ clausesText bs o?)) _ :=
    .word_bind (ha.bind (reads_clauses hbs ho enough (Expr.case .unknown (some a)) _) starts)
  have words : ["WHEN ", "ELSE ", "END)"] ⊆ stops := by decide
  have avoids : ∀ w ∈ ["WHEN ", "ELSE ", "END)"].map (" " ++ ·),
      Avoids marks (" " ++ (s ++ clausesText bs o?)) w :=
    List.forall_mem_map.mpr fun w hw => ((opens w (words hw)).append starts).prepend " "
  have clauses : Reads (readCase e fuel) marks (" " ++ (s ++ clausesText bs o?)) _ :=
    .otherwise operand rfl avoids
  rw [opening, String.append_assoc]
  exact reads_bracket (.choose (by simp) clauses rfl bracketWords_apart)

end Clauses

/-! ## Reading what was written -/

theorem texts_eq (es : List Expr) : texts es = es.map text := by
  induction es with
  | nil => rfl
  | cons e es ih => rw [texts, ih, List.map_cons]

theorem readExpr_eq {e : Expr} {fuel : ℕ} (h : sizeOf e ≤ fuel) :
    readExpr fuel = readForm (readExpr (fuel - 1)) (fuel - 1) := by
  cases fuel with
  | zero => cases e <;> simp at h
  | succ => rfl

mutual

/-- With as many steps as the expression is large, it is read back up to locations. -/
theorem reads_text : ∀ {e : Expr}, e.Plain → ∀ fuel : ℕ, sizeOf e ≤ fuel →
    Reads (readExpr fuel) marks e.text e.canonical
  | .literal l v, h, fuel, hf => by
    obtain ⟨s, rfl⟩ := h
    rw [readExpr_eq hf]
    exact reads_string s
  | .column l n, h, fuel, hf => by
    rw [readExpr_eq hf]
    exact reads_column h
  | .unary l op a, h, fuel, hf => by
    have size := hf
    simp only [unary.sizeOf_spec] at size
    have operand := reads_text h.2 (fuel - 1) (by omega)
    rw [readExpr_eq hf]
    cases op with
    | isNull | isNotNull =>
      simp only [text, UnaryOperator.around, String.append_assoc]
      exact reads_test operand h.2.opens_text (by simp [operandTable, canonical])
    | not =>
      simp only [text, UnaryOperator.around, String.append_assoc]
      exact reads_not operand
    | cast type =>
      simp only [UnaryOperator.cast.sizeOf_spec] at size
      simp only [text, UnaryOperator.around, String.append_assoc]
      exact reads_cast operand h.1 (by omega)
    | sign | field => exact h.1.elim
  | .binary l op a b, h, fuel, hf => by
    have size := hf
    simp only [binary.sizeOf_spec] at size
    have left := reads_text h.2.1 (fuel - 1) (by omega)
    have right := reads_text h.2.2 (fuel - 1) (by omega)
    rw [readExpr_eq hf, text, BinaryOperator.between_eq h.1]
    exact reads_binary left h.2.1.opens_text right h.1
  | .between l v a b, h, fuel, hf => by
    have size := hf
    simp only [between.sizeOf_spec] at size
    have value := reads_text h.1 (fuel - 1) (by omega)
    have low := reads_text h.2.1 (fuel - 1) (by omega)
    have high := reads_text h.2.2 (fuel - 1) (by omega)
    rw [readExpr_eq hf]
    simp only [text, String.append_assoc]
    exact reads_between value h.1.opens_text low high
  | .isIn l v ⟨l', xs⟩, h, fuel, hf => by
    have size := hf
    simp only [isIn.sizeOf_spec, InList.mk.sizeOf_spec] at size
    have value := reads_text h.1 (fuel - 1) (by omega)
    have values := reads_list (reads_texts h.2 (fuel - 1) (by omega))
      (fun x hx => (plainList_iff.mp h.2 x hx).opens_text)
      ((length_le_sizeOf xs).trans (by omega : _ ≤ fuel - 1))
    rw [readExpr_eq hf]
    simp only [text, InList.text, canonical, InList.canonical, texts_eq, canonicalList_eq,
      String.append_assoc]
    exact reads_isIn value h.1.opens_text values
  | .call l n xs, h, fuel, hf => by
    have size := hf
    simp only [call.sizeOf_spec] at size
    have arguments := reads_list (reads_texts h.2 (fuel - 1) (by omega))
      (fun x hx => (plainList_iff.mp h.2 x hx).opens_text)
      ((length_le_sizeOf xs).trans (by omega : _ ≤ fuel - 1))
    rw [readExpr_eq hf]
    simp only [text, canonical, texts_eq, canonicalList_eq, String.append_assoc]
    exact reads_call h.1 arguments
  | .case l o? bs r?, h, fuel, hf => by
    have size := hf
    simp only [case.sizeOf_spec] at size
    have branches := reads_branches h.2.1 (fuel - 1) (by omega)
    have last := reads_otherwise h.2.2 (fuel - 1) (by omega)
    have enough : bs.length ≤ fuel - 1 := (length_le_sizeOf bs).trans (by omega)
    have tail : Branch.texts bs ++ (optionText " ELSE " r? ++ " END)") = clausesText bs r? := rfl
    rw [readExpr_eq hf]
    simp only [text, canonical, canonicalOption_eq, Branch.canonicalList_eq, String.append_assoc,
      tail]
    cases o? with
    | none =>
      rw [optionText, String.empty_append]
      exact reads_case branches last enough
    | some o =>
      simp only [Option.some.sizeOf_spec] at size
      have operand := reads_text (e := o) h.1 (fuel - 1) (by omega)
      rw [optionText, String.append_assoc]
      exact reads_operandCase branches last enough operand (Plain.opens_text (e := o) h.1)
  | .list _, h, _, _ => h.elim
  | .branch _, h, _, _ => h.elim

theorem reads_texts : ∀ {es : List Expr}, PlainList es → ∀ fuel : ℕ, sizeOf es ≤ fuel →
    ∀ e ∈ es, Reads (readExpr fuel) marks e.text e.canonical
  | [], _, _, _ => nofun
  | e :: es, h, fuel, hf => by
    simp only [List.cons.sizeOf_spec] at hf
    exact List.forall_mem_cons.mpr
      ⟨reads_text h.1 fuel (by omega), reads_texts h.2 fuel (by omega)⟩

theorem reads_otherwise : ∀ {e? : Option Expr}, PlainOption e? → ∀ fuel : ℕ, sizeOf e? ≤ fuel →
    ∀ e ∈ e?, Reads (readExpr fuel) marks e.text e.canonical
  | none, _, _, _ => nofun
  | some e, h, fuel, hf => by
    simp only [Option.some.sizeOf_spec] at hf
    have read := reads_text (e := e) h fuel (by omega)
    exact fun e' he => Option.mem_some_iff.mp he ▸ read

theorem reads_branches : ∀ {bs : List Branch}, Branch.PlainList bs → ∀ fuel : ℕ,
    sizeOf bs ≤ fuel → ∀ b ∈ bs,
      Reads (readExpr fuel) marks b.condition.text b.condition.canonical ∧
        Reads (readExpr fuel) marks b.result.text b.result.canonical
  | [], _, _, _ => nofun
  | ⟨_, c, r⟩ :: bs, h, fuel, hf => by
    simp only [List.cons.sizeOf_spec, Branch.mk.sizeOf_spec] at hf
    exact List.forall_mem_cons.mpr
      ⟨⟨reads_text h.1.1 fuel (by omega), reads_text h.1.2 fuel (by omega)⟩,
        reads_branches h.2 fuel (by omega)⟩

end

/-- Plain expressions with one text are the same. -/
theorem same_of_text_eq {a b : Expr} (ha : a.Plain) (hb : b.Plain) (h : a.text = b.text) :
    (a == b) = true := by
  have read := reads_text ha (sizeOf a + sizeOf b) (Nat.le_add_right ..)
  have read' := reads_text hb (sizeOf a + sizeOf b) (Nat.le_add_left ..)
  rw [h] at read
  exact beq_iff.mpr (read.unique read')

/-- The bounds of a `BETWEEN` are found, though the lower one looks like both of them and more. -/
theorem same_of_text_eq_bounds :
    let e (l : Location) : Expr := .binary l (.logical .and)
      (.between l (.column l ⟨["t", "a"]⟩) (.literal l (.string "b' AND c) AND (d"))
        (.call l ⟨["now"]⟩ []))
      (.unary l (.cast (.struct [⟨"x", .map .double⟩]))
        (.case l none [⟨l, .column l ⟨["e"]⟩, .isIn l (.column l ⟨["f"]⟩) ⟨l, []⟩⟩] none))
    (e (.of 3 7)).Plain ∧ (e .unknown).Plain ∧
    (e (.of 3 7)).text = "((t.a BETWEEN 'b'' AND c) AND (d' AND now()) AND " ++
      "CAST((CASE WHEN e THEN (f IN ()) END) AS STRUCT<x MAP<STRING, DOUBLE>>))" ∧
    (e (.of 3 7) == e .unknown) = true := by
  intro e
  have plain (l : Location) : (e l).Plain := by
    have words : ∀ w ∈ ["t", "a", "now", "x", "e", "f"], PlainWord w := by decide
    simp at words
    simp [e, Expr.Plain, PlainList, PlainOption, Branch.PlainList, Branch.Plain, InList.Plain,
      UnaryOperator.Plain, SqlType.Plain, SqlType.PlainFields, Name.Plain, words]
  have same : (e (.of 3 7)).text = (e .unknown).text := rfl
  exact ⟨plain _, plain _, by decide, same_of_text_eq (plain _) (plain _) same⟩

end Expr

end SqlTree
