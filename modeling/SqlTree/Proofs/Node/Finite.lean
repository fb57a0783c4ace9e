import Mathlib.Data.List.Basic
import SqlTree.Node

/-!
# Nodes with finite doubles

A double that is not finite has no place in a document. A node is finite when none of the doubles in
it, at any depth, is infinite or not a number.
-/

namespace SqlTree

/-- A double, if the literal is one, is finite. -/
def Literal.Finite : Literal → Prop
  | double d => d.isFinite = true
  | _ => True

def Properties.Finite (p : Properties) : Prop := ∀ e ∈ p.entries, e.2.Finite

/-! ## Expressions -/

mutual

def Expr.Finite : Expr → Prop
  | .literal _ v => v.Finite
  | .column .. => True
  | .unary _ _ e => e.Finite
  | .binary _ _ a b => a.Finite ∧ b.Finite
  | .between _ v a b => v.Finite ∧ a.Finite ∧ b.Finite
  | .isIn _ v xs => v.Finite ∧ xs.Finite
  | .call _ _ xs => Expr.FiniteList xs
  | .case _ o bs e => Expr.FiniteOption o ∧ Branch.FiniteList bs ∧ Expr.FiniteOption e
  | .list xs => xs.Finite
  | .branch b => b.Finite
termination_by structural e => e

def InList.Finite : InList → Prop
  | ⟨_, xs⟩ => Expr.FiniteList xs
termination_by structural xs => xs

def Branch.Finite : Branch → Prop
  | ⟨_, c, r⟩ => c.Finite ∧ r.Finite
termination_by structural b => b

def Expr.FiniteOption : Option Expr → Prop
  | none => True
  | some e => e.Finite
termination_by structural e => e

def Expr.FiniteList : List Expr → Prop
  | [] => True
  | e :: es => e.Finite ∧ Expr.FiniteList es
termination_by structural es => es

def Branch.FiniteList : List Branch → Prop
  | [] => True
  | b :: bs => b.Finite ∧ Branch.FiniteList bs
termination_by structural bs => bs

end

theorem Expr.finiteOption_iff {e? : Option Expr} : FiniteOption e? ↔ ∀ e ∈ e?, e.Finite := by
  cases e? <;> simp [FiniteOption]

theorem Expr.finiteList_iff {es : List Expr} : FiniteList es ↔ ∀ e ∈ es, e.Finite := by
  induction es with
  | nil => simp [FiniteList]
  | cons e es ih => rw [FiniteList, ih, List.forall_mem_cons]

theorem Branch.finiteList_iff {bs : List Branch} : FiniteList bs ↔ ∀ b ∈ bs, b.Finite := by
  induction bs with
  | nil => simp [FiniteList]
  | cons b bs ih => rw [FiniteList, ih, List.forall_mem_cons]

/-! ## Relations and queries -/

def JoinCriteria.Finite : JoinCriteria → Prop
  | on condition => condition.Finite

def Relation.Finite : Relation → Prop
  | table .. => True
  | aliased _ r _ => r.Finite
  | join _ _ a b criteria _ => a.Finite ∧ b.Finite ∧ criteria.Finite

def SelectItem.Finite : SelectItem → Prop
  | single _ e _ => e.Finite
  | all .. => True

def Select.Finite (s : Select) : Prop := ∀ i ∈ s.items, i.Finite

def GroupingElement.Finite : GroupingElement → Prop
  | simple _ columns | rollup _ columns | cube _ columns => ∀ c ∈ columns, c.Finite
  | sets _ ss => ∀ s ∈ ss, ∀ c ∈ s, c.Finite

def GroupBy.Finite (g : GroupBy) : Prop := ∀ e ∈ g.elements, e.Finite

structure Query.Finite (q : Query) : Prop where
  select : q.select.Finite
  source : q.source.Finite
  filter : ∀ e ∈ q.filter?, e.Finite
  groupBy : ∀ g ∈ q.groupBy?, g.Finite
  having : ∀ e ∈ q.having?, e.Finite

/-! ## Statements and nodes -/

mutual

def Statement.Finite : Statement → Prop
  | .several _ ss => Statement.FiniteList ss
  | .create _ _ _ _ _ p => p.Finite
  | .createStreamAs _ _ q _ p e? => q.Finite ∧ p.Finite ∧ ∀ e ∈ e?, e.Finite
  | .createTableAs _ _ q _ p => q.Finite ∧ p.Finite
  | .insertInto _ _ q e? => q.Finite ∧ ∀ e ∈ e?, e.Finite
  | .dropTable .. => True
  | .createConnector _ _ p _ => p.Finite
  | .query q => q.Finite
termination_by structural s => s

def Statement.FiniteList : List Statement → Prop
  | [] => True
  | s :: ss => s.Finite ∧ Statement.FiniteList ss
termination_by structural ss => ss

end

theorem Statement.finiteList_iff {ss : List Statement} :
    FiniteList ss ↔ ∀ s ∈ ss, s.Finite := by
  induction ss with
  | nil => simp [FiniteList]
  | cons s ss ih => rw [FiniteList, ih, List.forall_mem_cons]

def Node.Finite : Node → Prop
  | statement s => s.Finite
  | expression e => e.Finite
  | relation r => r.Finite
  | select s => s.Finite
  | selectItem i => i.Finite
  | groupBy g => g.Finite
  | groupingElement g => g.Finite
  | window _ | ksqlWindow _ | within _ | tableElement _ => True

end SqlTree
