import SqlTree.Proofs.Rewrite.Outcome
import SqlTree.Rewrite.Replacement

/-!
# Rewriting keeps nodes valid

If the rules, or the replacement, give valid nodes for valid ones, then a rewrite that succeeds
gives a valid tree for a valid one: every rule of well-formedness holds at every depth of it.
-/

namespace SqlTree

open Rewrite

variable {σ γ : Type}

/-- If the computation succeeds, it gives a valid node. -/
def Rewrite.GivesValid (x : Rewrite σ Node) : Prop :=
  ∀ s m, (x.runFrom s).1 = .ok m → m.Valid

namespace Rewriter

variable {r : Rewriter σ}

theorem descend_valid {n : Node} (hn : n.Valid)
    (h : ∀ c ∈ n.children, GivesValid (r.process c.node)) : GivesValid (r.descend n) := by
  intro s m descended
  obtain ⟨ms, around, counted, treated⟩ := descend_eq_ok (I := fun _ => True)
    (fun _ _ _ _ _ _ _ => trivial) trivial descended
  refine around.valid hn ?_ counted
  intro b hb
  obtain ⟨i, hi, rfl⟩ := List.mem_iff_getElem.mp hb
  have hc : i < n.children.length := treated.length_eq ▸ hi
  obtain ⟨t, t', -, given⟩ := treated.get hc hi
  exact h _ (List.getElem_mem hc) t _ (congrArg Prod.fst given)

theorem rewrite_givesValid {root : Node} (h : GivesValid (r.process root)) :
    GivesValid (r.rewrite root) := by
  intro s m rewritten
  rw [outcome_rewrite] at rewritten
  exact h _ m rewritten

end Rewriter

namespace Rules

/-- All rules give valid nodes for valid ones. -/
structure KeepValid (t : Rules γ) (context : γ) : Prop where
  enter : ∀ kind rule, t.enter kind = some rule →
    ∀ n m, n.Valid → rule n context = some m → m.Valid
  exit : ∀ kind rule, t.exit kind = some rule →
    ∀ n m, n.Valid → rule n context = .ok m → m.Valid

variable {t : Rules γ} {context : γ} {n m : Node}

theorem KeepValid.replacement? (h : t.KeepValid context) (hn : n.Valid)
    (hm : t.replacement? context n = some m) : m.Valid := by
  obtain ⟨rule, given, made⟩ := Option.bind_eq_some_iff.mp hm
  exact h.enter n.kind rule given n m hn made

theorem KeepValid.left (h : t.KeepValid context) (hn : n.Valid) {kind : Kind}
    (hm : t.left context kind n = .ok m) : m.Valid := by
  unfold Rules.left at hm
  split at hm
  case h_1 => rwa [← Except.ok.inj hm]
  case h_2 rule given => exact h.exit kind rule given n m hn hm

theorem process_valid (h : t.KeepValid context) (limit : Nat) (hn : n.Valid) :
    GivesValid ((t.rewriter limit context).process n) := by
  induction n using Node.childInduction with
  | step n ih =>
    intro s m treated
    rcases process_eq_ok treated with replaced | ⟨rebuilt, -, descended, left⟩
    · exact h.replacement? hn replaced
    · have descend := Rewriter.descend_valid hn fun c hc => ih c hc (hn.child hc)
      exact h.left (descend _ rebuilt descended) left

end Rules

namespace Replacement

variable {p : Replacement}

/-- What takes the place of valid expressions is valid. -/
def KeepsValid (p : Replacement) : Prop :=
  ∀ e, e.Valid → p.matching e = true → (p.result e).Valid

theorem process_valid (h : p.KeepsValid) {n : Node} (hn : n.Valid) :
    GivesValid (p.rewriter.process n) := by
  induction n using Node.childInduction with
  | step n ih =>
    have descend := Rewriter.descend_valid (r := p.rewriter) hn fun c hc => ih c hc (hn.child hc)
    rw [Rewriter.process_eq]
    cases n with
    | expression e =>
      intro s m treated
      obtain ⟨_, _, -, treated⟩ := bind_eq_ok.mp (Prod.ext treated rfl)
      split at treated
      case isTrue passed =>
        obtain ⟨_, _, -, treated⟩ := bind_eq_ok.mp treated
        obtain ⟨_, _, -, treated⟩ := bind_eq_ok.mp treated
        rw [← Except.ok.inj (congrArg Prod.fst treated)]
        exact h e hn passed
      case isFalse => exact descend _ m (congrArg Prod.fst treated)
    | _ => exact descend

end Replacement

/-- A rewrite of a valid tree by rules that keep nodes valid gives a valid tree if it succeeds,
under every limit; and so does a replacement whose results are valid, in a tree or in a single
expression. -/
theorem rewrite_valid {root : Node} (valid : root.Valid) :
    (∀ (t : Rules γ) (context : γ) (limit : Nat), t.KeepValid context →
      GivesValid ((t.rewriter limit context).rewrite root)) ∧
    (∀ p : Replacement, p.KeepsValid → GivesValid (p.rewriter.rewrite root) ∧
      ∀ e : Expr, e.Valid → GivesValid (p.transform e)) := by
  refine ⟨fun t context limit h => ?_, fun p h => ⟨?_, fun e he => ?_⟩⟩
  · exact Rewriter.rewrite_givesValid (Rules.process_valid h limit valid)
  · exact Rewriter.rewrite_givesValid (Replacement.process_valid h valid)
  · intro s m transformed
    obtain ⟨m', t, rewritten, checked⟩ := bind_eq_ok.mp (Prod.ext transformed rfl)
    obtain ⟨rfl, -⟩ := Slot.check_eq_ok.mp (ofExcept_eq_ok.mp checked).1
    have expression : (Node.expression e).Valid := he
    exact Rewriter.rewrite_givesValid (Replacement.process_valid h expression) s m'
      (congrArg Prod.fst rewritten)

/-- Tells the place in the first line and column from all others. -/
def atStart (n : Node) : Bool := n.location.position? = some ⟨1, 1⟩

/-- Two columns that are the same become different by their places, and the `CUBE` of one distinct
column becomes one of two. -/
theorem rewrite_valid_cube :
    let column (l : Location) : Expr := .column l ⟨["a"]⟩
    let truth (b : Bool) : Node := .expression (.ofLiteral (.boolean b))
    let t : Rules Unit :=
      Rules.empty.onEnter .qualifiedNameReference fun n _ => some (truth (atStart n))
    let p : Replacement := ⟨fun _ => true, Expr.negation⟩
    let root : Node := .groupingElement (.cube .unknown [column (.of 1 1), column (.of 1 2)])
    let m : Node :=
      .groupingElement (.cube .unknown [.ofLiteral (.boolean true), .ofLiteral (.boolean false)])
    root.Valid ∧ t.KeepValid () ∧ p.KeepsValid ∧
      (((t.rewriter 1 ()).rewrite root).runFrom ⟨#[], 0⟩).1 = .ok m ∧ m.Valid ∧
      GivesValid (p.rewriter.rewrite root) := by
  intro column truth t p root m
  have valid : root.Valid := by
    have few : (GroupingSet.of [column (.of 1 1), column (.of 1 2)]).length ≤
        GroupingElement.cubeLimit := by decide
    simp [root, Node.Valid, GroupingElement.Valid, few, column, Expr.Valid, Name.Valid]
  have rules : t.KeepValid () := by
    refine ⟨fun kind rule given n m _ made => ?_, fun kind rule given =>
      absurd given (Option.some_ne_none rule).symm⟩
    replace given : (if kind = .qualifiedNameReference then
      some fun n (_ : Unit) => some (truth (atStart n)) else none) = some rule := given
    split at given
    · rw [← Option.some_inj.mp given] at made
      rw [← Option.some_inj.mp made]
      exact trivial
    · contradiction
  have replacement : p.KeepsValid := fun e he _ => ⟨trivial, he⟩
  have replaced (l : Location) (s : Session Nat) :
      ((t.rewriter 1 ()).process (.expression (column l))).runFrom s = _ :=
    Rules.process_of_replaced (m := truth (atStart (.expression (column l)))) rfl s
  have visited (l : Location) (s : Session Nat) :=
    Rewriter.visit_eq_ok (c := .ofExpr (column l)).mpr ⟨replaced l s, rfl⟩
  have outcome : (((t.rewriter 1 ()).rewrite root).runFrom ⟨#[], 0⟩).1 = .ok m := by
    rw [Rewriter.outcome_rewrite, Rules.outcome_of_descend rfl Nat.zero_lt_one]
    show (([Child.ofExpr (column (.of 1 1)), .ofExpr (column (.of 1 2))].mapM
      (t.rewriter 1 ()).visit >>= fun nodes =>
        (ofExcept (root.withChildren nodes).recounted : Rewrite Nat Node)).runFrom _).1 >>= _ = _
    simp only [List.mapM_cons, List.mapM_nil, runFrom_bind, visited, runFrom_pure, runFrom_ofExcept]
    rfl
  obtain ⟨by_rules, by_replacement⟩ := rewrite_valid valid
  exact ⟨valid, rules, replacement, outcome, by_rules t () 1 rules _ m outcome,
    (by_replacement p replacement).1⟩

end SqlTree
