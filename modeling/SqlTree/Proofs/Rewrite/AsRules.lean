import SqlTree.Proofs.Rewrite.Agreement
import SqlTree.Proofs.Rewrite.ByReplacement
import SqlTree.Proofs.Rewrite.DepthLimit

/-!
# Replacements as rules

What a replacement does can be said by rules: an enter rule, the same for all kinds of expressions.
Where the limit is no obstacle, the rules and the replacement give the same.
-/

namespace SqlTree

open Rewrite

/-- The kinds of expressions. -/
def Kind.expressions : List Kind := [
  arithmeticBinary, arithmeticUnary, comparison, logicalBinary, between, inPredicate, inList, like,
  isNull, isNotNull, not, functionCall, cast, dereference, subscript, simpleCase, searchedCase,
  whenClause, qualifiedNameReference, literal]

theorem Expr.kind_mem_expressions (e : Expr) : e.kind ∈ Kind.expressions := by
  cases e with
  | unary _ operator => cases operator <;> simp [kind, UnaryOperator.kind, Kind.expressions]
  | binary _ operator => cases operator <;> simp [kind, BinaryOperator.kind, Kind.expressions]
  | case _ operand? => cases operand? <;> simp [kind, Kind.expressions]
  | _ => simp [kind, Kind.expressions]

theorem Statement.kind_not_mem_expressions (s : Statement) : s.kind ∉ Kind.expressions := by
  cases s with
  | create _ collection => cases collection <;> simp [kind, Kind.expressions]
  | _ => simp [kind, Kind.expressions]

theorem Node.kind_mem_expressions {n : Node} :
    n.kind ∈ Kind.expressions ↔ ∃ e, n = .expression e := by
  constructor
  · intro h
    cases n with
    | expression e => exact ⟨e, rfl⟩
    | statement s => exact absurd h s.kind_not_mem_expressions
    | relation r => cases r <;> simp [kind, Relation.kind, Kind.expressions] at h
    | selectItem i => cases i <;> simp [kind, SelectItem.kind, Kind.expressions] at h
    | groupingElement g => cases g <;> simp [kind, GroupingElement.kind, Kind.expressions] at h
    | _ => simp [kind, Kind.expressions] at h
  · rintro ⟨e, rfl⟩
    exact e.kind_mem_expressions

/-! ## Rules that are given together -/

namespace Rules

variable {γ : Type}

/-- One enter rule for each of the kinds, given one after the other. -/
def entering (kinds : List Kind) (rule : EnterRule γ) : Rules γ :=
  (ofList (kinds.map fun kind => .enter kind rule)).1

theorem foldl_register (registrations : List (Registration γ)) (t : Rules γ)
    (events : Array Event) :
    (registrations.foldl
      (fun (t, events) registration =>
        let (t, more) := t.register registration
        (t, events ++ more.toArray))
      (t, events)).1 =
      registrations.foldl (fun t registration => (t.register registration).1) t := by
  induction registrations generalizing t events with
  | nil => rfl
  | cons registration registrations ih => exact ih _ _

theorem foldl_onEnter (kinds : List Kind) (rule : EnterRule γ) (t : Rules γ) :
    kinds.foldl (fun t kind => t.onEnter kind rule) t =
      ⟨fun kind => if kind ∈ kinds then some rule else t.enter kind, t.exit⟩ := by
  induction kinds generalizing t with
  | nil => simp
  | cons first kinds ih =>
    rw [List.foldl_cons, ih]
    simp only [onEnter, List.mem_cons]
    congr 1
    funext kind
    by_cases later : kind ∈ kinds <;> by_cases same : kind = first <;> simp [later, same]

theorem entering_eq (kinds : List Kind) (rule : EnterRule γ) :
    entering kinds rule =
      ⟨fun kind => if kind ∈ kinds then some rule else none, fun _ => none⟩ := by
  rw [entering, ofList, foldl_register, List.foldl_map]
  exact foldl_onEnter kinds rule empty

end Rules

/-! ## The rules of a replacement -/

namespace Replacement

variable {γ : Type} {n : Node}

/-- Replaces an expression that passes the test. -/
def enterRule (p : Replacement) : EnterRule γ := fun n _ =>
  match n with
  | .expression e => if p.matching e then some (.expression (p.result e)) else none
  | _ => none

/-- The enter rule of the replacement for every kind of expressions, and no other rule. -/
def rules (p : Replacement) : Rules γ := .entering Kind.expressions p.enterRule

theorem enter_rules (p : Replacement) (kind : Kind) :
    (p.rules : Rules γ).enter kind =
      if kind ∈ Kind.expressions then some p.enterRule else none := by
  rw [rules, Rules.entering_eq]

theorem exit_rules (p : Replacement) (kind : Kind) : (p.rules : Rules γ).exit kind = none := by
  rw [rules, Rules.entering_eq]

theorem replacement?_rules (p : Replacement) (context : γ) (n : Node) :
    p.rules.replacement? context n = if p.hits n then some (p.put n) else none := by
  rw [Rules.replacement?, enter_rules]
  by_cases h : n.kind ∈ Kind.expressions
  · rw [if_pos h, Option.bind_some]
    obtain ⟨e, rfl⟩ := Node.kind_mem_expressions.mp h
    rfl
  · have missed : ¬ p.hits n = true := by
      intro hits
      obtain ⟨e, rfl, -⟩ := exists_of_hits hits
      exact h (Node.kind_mem_expressions.mpr ⟨e, rfl⟩)
    rw [if_neg h, if_neg missed, Option.bind_none]

theorem left_rules (p : Replacement) (context : γ) (kind : Kind) :
    p.rules.left context kind = pure := by
  funext rebuilt
  rw [Rules.left, exit_rules]
  rfl

/-- Where the limit is no obstacle, treating a node by the rules and by the replacement gives the
same. The depth is what the limit is held against; the count does not matter. -/
theorem agree_process (p : Replacement) (context : γ) {limit depth : Nat}
    (h : depth + n.height ≤ limit) :
    Agree (fun s _ => s.data = depth) Eq ((p.rules.rewriter limit context).process n)
      (p.rewriter.process n) := by
  induction n using Node.childInduction generalizing depth with
  | step n ih =>
    have descend : Agree (fun s _ => s.data = depth + 1) Eq
        ((p.rules.rewriter limit context).descend n) (p.rewriter.descend n) := by
      refine Rewriter.agree_descend ?_ ?_ (List.forall₂_same.mpr fun c hc => ⟨rfl, ?_⟩)
      · rintro slot m _ rfl
        exact .refl _
      · intro ms ms' _ _ same
        rw [List.forall₂_eq_eq_eq] at same
        rw [same]
        exact .refl _
      · have := Node.height_child_lt hc
        exact ih c hc (by omega)
    have room : depth < limit := by
      rw [n.height_eq] at h
      omega
    have replacement := replacement?_rules p context n
    rintro s t rfl
    cases hits : p.hits n with
    | true =>
      rw [hits, if_pos rfl] at replacement
      rw [Rules.process_of_replaced replacement, process_of_hits hits]
      exact ⟨rfl, rfl⟩
    | false =>
      rw [hits, if_neg (by decide)] at replacement
      refine ⟨?_, Rules.keepsData_process _ _ _ _ s⟩
      obtain ⟨outcomes, -⟩ := descend ⟨p.rules.asked n s.journal, s.data + 1⟩
        { t with journal := compared n t.journal } rfl
      rw [Rules.outcome_of_descend replacement room, left_rules, bind_pure, process_of_missed hits,
        outcomes.eq]
      exact .refl _

/-- The rules that replace the matches of `p`, and nothing else, lead to what `p` leads to, whatever
the journals and the count are before: to the same node, or to the same error. -/
theorem run_rules_eq_rewrite (p : Replacement) (context : γ) (root : Node) (journal : Array Event)
    {limit : Nat} (h : root.height ≤ limit) (s : Session Nat) :
    (p.rules.run context root journal limit).1 = ((p.rewriter.rewrite root).runFrom s).1 := by
  rw [Rules.run, Rewriter.outcome_rewrite, Rewriter.outcome_rewrite]
  obtain ⟨outcomes, -⟩ := agree_process p context (by simpa using h)
    ⟨journal.push (.started root.kind), 0⟩ { s with journal := s.journal.push (.started root.kind) }
    rfl
  exact outcomes.eq

/-- In `a IN (b)`, which the limit just allows, the list can be replaced by another one but not by a
number. -/
theorem run_rules_eq_rewrite_list :
    let a : Expr := .ofColumn ⟨["a"]⟩
    let one : Expr := .ofLiteral (.integer 1)
    let list : InList := ⟨.unknown, [.ofColumn ⟨["b"]⟩]⟩
    let root : Node := .expression (.isIn .unknown a list)
    let lists (e : Expr) : Replacement := ⟨fun e => e.kind == .inList, fun _ => e⟩
    root.height = 3 ∧
    ((lists (.list ⟨.unknown, [one]⟩)).rules.run () root #[] 3).1 =
      .ok (.expression (.isIn .unknown a ⟨.unknown, [one]⟩)) ∧
    ((lists one).rules.run () root #[] 3).1 =
      .error (.unexpectedNode "InListExpression" .literal) := by
  intro a one list root lists
  have column (name : String) : (Node.expression (.ofColumn ⟨[name]⟩)).height = 1 := by
    rw [Node.height_eq]
    rfl
  have height : root.height = 3 := by
    rw [Node.height_eq]
    show max (Node.expression a).height (max (Node.expression (.list list)).height 0) + 1 = 3
    rw [Node.height_eq (.expression (.list list)), column]
    show max 1 (max (max (Node.expression (.ofColumn ⟨["b"]⟩)).height 0 + 1) 0) + 1 = 3
    rw [column]
    rfl
  have outcome (e : Expr) : ((lists e).rules.run () root #[] 3).1 =
      Slot.list.check (.expression e) >>= fun m =>
        (root.withChildren [.expression a, m]).recounted := by
    have left (s : Session Nat) : ((lists e).rewriter.visit (.ofExpr a)).runFrom s =
        (.ok (.expression a), { s with journal := s.journal.push (.compared a) }) :=
      Rewriter.visit_eq_ok.mpr ⟨process_of_missed rfl s, rfl⟩
    have right (s : Session Nat) : ((lists e).rewriter.visit (.ofList list)).runFrom s =
        (Slot.list.check (.expression e),
          ⟨s.journal.push (.compared (.list list)), s.data + 1⟩) := by
      rw [Rewriter.visit, runFrom_bind, Child.ofList, process_of_hits rfl]
      exact runFrom_ofExcept _ _
    rw [run_rules_eq_rewrite (lists e) () root #[] height.le ⟨#[], 0⟩, Rewriter.outcome_rewrite,
      process_of_missed rfl]
    show (([Child.ofExpr a, .ofList list].mapM (lists e).rewriter.visit >>= fun nodes =>
      (ofExcept (root.withChildren nodes).recounted : Rewrite Nat Node)).runFrom _).1 = _
    simp only [List.mapM_cons, List.mapM_nil, runFrom_bind, left, right, runFrom_ofExcept]
    rcases Slot.list.check (.expression e) with _ | m <;> rfl
  exact ⟨height, outcome _, outcome _⟩

end Replacement

end SqlTree
