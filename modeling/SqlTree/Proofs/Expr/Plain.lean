import SqlTree.Expr.Text
import SqlTree.Proofs.Text.Types

/-!
# Plain expressions

Plain expressions have names of plain words and no literals but strings. Their operators stand in
brackets or between words in upper case, so it can be seen from the start of the text of a plain
expression that it is one.
-/

namespace SqlTree

open Text

/-! ## Plain expressions -/

/-- An operator that stands in brackets or behind a word, with plain words in its type. -/
def UnaryOperator.Plain : UnaryOperator → Prop
  | isNull | isNotNull | not => True
  | cast type => type.Plain
  | sign _ | field _ => False

mutual

/-- Names have plain words, literals are strings, and lists and branches stand in their places
only. -/
def Expr.Plain : Expr → Prop
  | .literal _ v => ∃ s, v = .string s
  | .column _ n => n.Plain
  | .unary _ op e => op.Plain ∧ e.Plain
  | .binary _ op a b => op ≠ .subscript ∧ a.Plain ∧ b.Plain
  | .between _ v a b => v.Plain ∧ a.Plain ∧ b.Plain
  | .isIn _ v xs => v.Plain ∧ xs.Plain
  | .call _ f xs => f.Plain ∧ Expr.PlainList xs
  | .case _ o bs e => Expr.PlainOption o ∧ Branch.PlainList bs ∧ Expr.PlainOption e
  | .list _ | .branch _ => False
termination_by structural e => e

def InList.Plain : InList → Prop
  | ⟨_, xs⟩ => Expr.PlainList xs
termination_by structural xs => xs

def Branch.Plain : Branch → Prop
  | ⟨_, c, r⟩ => c.Plain ∧ r.Plain
termination_by structural b => b

def Expr.PlainOption : Option Expr → Prop
  | none => True
  | some e => e.Plain
termination_by structural e => e

def Expr.PlainList : List Expr → Prop
  | [] => True
  | e :: es => e.Plain ∧ Expr.PlainList es
termination_by structural es => es

def Branch.PlainList : List Branch → Prop
  | [] => True
  | b :: bs => b.Plain ∧ Branch.PlainList bs
termination_by structural bs => bs

end

theorem Expr.plainList_iff {es : List Expr} : PlainList es ↔ ∀ e ∈ es, e.Plain := by
  induction es with
  | nil => simp [PlainList]
  | cons e es ih => simp [PlainList, ih]

/-! ## Operators between operands -/

namespace BinaryOperator

/-- The operators that stand between their operands. -/
def spaced : List BinaryOperator :=
  ArithmeticOperator.all.map arithmetic ++ ComparisonOperator.all.map comparison ++
    LogicalOperator.all.map logical ++ [like]

/-- The operator with the blanks around it. -/
def word : BinaryOperator → String
  | arithmetic op => " " ++ op.text ++ " "
  | comparison op => " " ++ op.text ++ " "
  | logical op => " " ++ op.text ++ " "
  | like => " LIKE "
  | subscript => ""

variable {op : BinaryOperator}

theorem mem_spaced (h : op ≠ subscript) : op ∈ spaced := by
  cases op with
  | arithmetic op => cases op <;> decide
  | comparison op => cases op <;> decide
  | logical op => cases op <;> decide
  | like => decide
  | subscript => exact absurd rfl h

theorem between_eq (h : op ≠ subscript) (left right : String) :
    op.between left right = "(" ++ (left ++ (op.word ++ (right ++ ")"))) := by
  cases op with
  | subscript => exact absurd rfl h
  | _ => simp only [between, word, String.append_assoc]

end BinaryOperator

namespace Expr

/-! ## What starts an expression -/

/-- What may follow an expression. -/
def marks : List Char := [' ', ')', ',']

/-- The words that may stand in the place of an expression. -/
def stops : List String := ["NOT ", "CASE", "WHEN ", "ELSE ", "END)", ")"]

/-- The text starts with none of these words. -/
def Opens (s : String) : Prop := ∀ w ∈ stops, Avoids marks s w

theorem opens_of_word {v : String} (h : ∀ w ∈ stops, Apart w v) (s : String) : Opens (v ++ s) :=
  fun w hw => (h w hw).avoids s

theorem opens_of_startsPlain {s : String} (h : StartsPlain s) : Opens s := by
  have outside : ∀ w ∈ stops, StartsOutside w := by decide
  exact fun w hw => h.avoids (outside w hw) marks

theorem Plain.opens_text {e : Expr} (h : e.Plain) : Opens e.text := by
  have bracket (s : String) : Opens ("(" ++ s) := opens_of_word (by decide) s
  cases e with
  | literal l v =>
    obtain ⟨s, rfl⟩ := h
    rw [text, Literal.text, delimited_eq]
    exact opens_of_word (by decide) _
  | column l n => exact opens_of_startsPlain h.startsPlain
  | unary l op e =>
    cases op with
    | isNull | isNotNull =>
      simp only [text, UnaryOperator.around, String.append_assoc]
      exact bracket _
    | not =>
      simp only [text, UnaryOperator.around, String.append_assoc]
      exact opens_of_word (by decide) _
    | cast type =>
      simp only [text, UnaryOperator.around, String.append_assoc]
      exact opens_of_word (by decide) _
    | sign | field => exact h.1.elim
  | binary l op a b =>
    rw [text, BinaryOperator.between_eq h.1]
    exact bracket _
  | between l v a b =>
    simp only [text, String.append_assoc]
    exact bracket _
  | isIn l v xs =>
    simp only [text, String.append_assoc]
    exact bracket _
  | call l f xs =>
    simp only [text, String.append_assoc]
    exact opens_of_startsPlain (h.1.startsPlain.append _)
  | case l o bs e =>
    simp only [text, String.append_assoc]
    exact opens_of_word (by decide) _
  | list | branch => exact h.elim

end Expr

end SqlTree
