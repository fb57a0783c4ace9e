import SqlTree.Proofs.Node.Alike
import SqlTree.Proofs.Rewrite.Agreement
import SqlTree.Proofs.Rewrite.ByReplacement
import SqlTree.Proofs.Rewrite.DepthLimit

/-!
# Rewrites of alike roots

If rules, or a test and what it replaces, treat alike nodes alike, then so does the whole rewrite:
it ends in alike nodes or in the same error, and it logs the same lines. Neither the places that
nodes were read from, nor the order of settings, nor which of several equal numbers was given has a
part in it.
-/

namespace SqlTree

open Rewrite

/-- The lines of the log. -/
def logLines (journal : Array Event) : List String := journal.toList.filterMap Event.logLine?

@[simp]
theorem logLines_push (journal : Array Event) (e : Event) :
    logLines (journal.push e) = logLines journal ++ e.logLine?.toList := by
  rw [logLines, Array.toList_push, List.filterMap_append]
  rfl

/-- The sessions have the same data and the same log. -/
structure Session.Alike {σ : Type} (s t : Session σ) : Prop where
  data : s.data = t.data
  log : logLines s.journal = logLines t.journal

theorem Rewrite.Agree.note {σ : Type} {e e' : Event} (h : e.logLine? = e'.logLine?) :
    Agree (Session.Alike (σ := σ)) Eq (note e) (note e') := by
  intro s t alike
  refine ⟨rfl, alike.data, ?_⟩
  simp only [runFrom_note, logLines_push, h, alike.log]

section Rewriter

variable {σ : Type} {r : Rewriter σ} {a b : Node}

/-- Treating alike nodes by default gives alike nodes if treating alike children does. -/
theorem Rewriter.agree_descend_of_alike (h : a.Alike b)
    (ih : ∀ c ∈ a.children, ∀ {b : Node}, c.node.Alike b →
      Agree Session.Alike Node.Alike (r.process c.node) (r.process b)) :
    Agree Session.Alike Node.Alike (r.descend a) (r.descend b) := by
  refine agree_descend (fun slot _ _ hm => hm.check slot) ?_ ?_
  · exact fun ms ms' fit fit' alike => (h.withChildren fit fit' alike).recounted
  · have children := forall₂_and_iff.mpr ⟨fun _ => id, fun _ => id, h.children⟩
    exact children.imp fun c c' ⟨hc, _, slot, alike⟩ => ⟨slot, ih c hc alike⟩

theorem Rewriter.agree_rewrite_of_alike (h : a.Alike b)
    (processed : Agree Session.Alike Node.Alike (r.process a) (r.process b)) :
    Agree Session.Alike Node.Alike (r.rewrite a) (r.rewrite b) := by
  refine (Agree.note (by rw [h.kind])).bind fun _ _ _ => processed.bind fun m m' hm => ?_
  exact (Agree.note (by rw [hm.kind])).bind fun _ _ _ => .pure hm

end Rewriter

/-! ## Rules -/

namespace Rules

variable {γ : Type} {t : Rules γ} {context : γ} {limit : Nat} {a b : Node}

/-- Shown alike nodes, an enter rule gives alike nodes or none, and an exit rule gives alike nodes
or fails with the same error. -/
structure Respects (t : Rules γ) (context : γ) : Prop where
  enter : ∀ kind rule, t.enter kind = some rule → ∀ a b : Node, a.Alike b →
    Option.Rel Node.Alike (rule a context) (rule b context)
  exit : ∀ kind rule, t.exit kind = some rule → ∀ a b : Node, a.Alike b →
    Except.Agree Node.Alike (rule a context) (rule b context)

theorem Respects.replacement? (respects : t.Respects context) (h : a.Alike b) :
    Option.Rel Node.Alike (t.replacement? context a) (t.replacement? context b) := by
  rw [Rules.replacement?, Rules.replacement?, h.kind]
  cases given : t.enter b.kind with
  | none => exact .none
  | some rule => exact respects.enter b.kind rule given a b h

theorem Respects.agree_leave (respects : t.Respects context) (h : a.Alike b) (kind : Kind) :
    Agree Session.Alike Node.Alike (t.leave context kind a) (t.leave context kind b) := by
  cases given : t.exit kind with
  | none =>
    simp only [leave, given]
    exact .pure h
  | some rule =>
    simp only [leave, given]
    refine (Agree.note (by rfl)).bind fun _ _ _ => ?_
    refine (Agree.ofExcept (respects.exit kind rule given a b h)).bind fun m m' hm => ?_
    exact (Agree.note (by rw [hm.kind])).bind fun _ _ _ => .pure hm

theorem logLines_asked (n : Node) (journal : Array Event) :
    logLines (t.asked n journal) = logLines journal := by
  unfold asked
  split
  · rw [logLines_push]
    exact List.append_nil _
  · rfl

/-- Nodes that no rule replaces are treated alike if their children are. -/
theorem Respects.agree_process_of_descend (respects : t.Respects context) (h : a.Alike b)
    (ha : t.replacement? context a = none) (hb : t.replacement? context b = none)
    (descend : Agree Session.Alike Node.Alike ((t.rewriter limit context).descend a)
      ((t.rewriter limit context).descend b)) :
    Agree Session.Alike Node.Alike ((t.rewriter limit context).process a)
      ((t.rewriter limit context).process b) := by
  intro s s' alike
  by_cases hs : limit ≤ s.data
  · rw [process_of_limit ha hs, process_of_limit hb (alike.data ▸ hs)]
    refine ⟨rfl, alike.data, ?_⟩
    simp only [logLines_push, logLines_asked, alike.log, h.kind]
  · have hs := Nat.lt_of_not_le hs
    obtain ⟨outcomes, left⟩ := descend ⟨t.asked a s.journal, s.data + 1⟩
      ⟨t.asked b s'.journal, s'.data + 1⟩
      ⟨congrArg Nat.succ alike.data, by simp only [logLines_asked, alike.log]⟩
    rw [process_of_descend ha hs, process_of_descend hb (alike.data ▸ hs)]
    rcases hx : ((t.rewriter limit context).descend a).runFrom
        ⟨t.asked a s.journal, s.data + 1⟩ with ⟨e | m, u⟩ <;>
      rcases hy : ((t.rewriter limit context).descend b).runFrom
        ⟨t.asked b s'.journal, s'.data + 1⟩ with ⟨e' | m', u'⟩ <;>
      rw [hx, hy] at outcomes left
    case error.error => exact ⟨outcomes, congrArg Nat.pred left.data, left.log⟩
    case ok.ok =>
      rw [h.kind]
      exact respects.agree_leave outcomes b.kind _ _ ⟨congrArg Nat.pred left.data, left.log⟩
    all_goals contradiction

theorem Respects.agree_process (respects : t.Respects context) (limit : Nat) (h : a.Alike b) :
    Agree Session.Alike Node.Alike ((t.rewriter limit context).process a)
      ((t.rewriter limit context).process b) := by
  induction a using Node.childInduction generalizing b with
  | step a ih =>
    have replaced := respects.replacement? h
    cases ha : t.replacement? context a <;> cases hb : t.replacement? context b <;>
      rw [ha, hb] at replaced
    case some.some m m' =>
      obtain ⟨hm⟩ := replaced
      intro s s' alike
      rw [process_of_replaced ha, process_of_replaced hb]
      refine ⟨hm, alike.data, ?_⟩
      simp only [logLines_push, logLines_asked, alike.log, h.kind, hm.kind]
    case none.none =>
      have descend := Rewriter.agree_descend_of_alike h ih
      exact respects.agree_process_of_descend h ha hb descend
    all_goals contradiction

end Rules

/-! ## Replacements -/

namespace Replacement

variable {p : Replacement} {a b : Node}

/-- The test does not tell equal expressions apart, and what takes their place is equal. -/
structure Respects (p : Replacement) : Prop where
  matching : ∀ e e' : Expr, (e == e') = true → p.matching e = p.matching e'
  result : ∀ e e' : Expr, (e == e') = true → p.matching e = true →
    (p.result e == p.result e') = true

theorem logLines_compared (n : Node) (journal : Array Event) :
    logLines (compared n journal) = logLines journal := by
  cases n with
  | expression e =>
    rw [compared, logLines_push]
    exact List.append_nil _
  | _ => rfl

theorem Respects.hits (respects : p.Respects) (h : a.Alike b) : p.hits a = p.hits b := by
  have same := h.same
  cases a with
  | expression e =>
    cases b with
    | expression e' => exact respects.matching e e' same
    | _ => contradiction
  | _ =>
    cases b with
    | expression e' => contradiction
    | _ => rfl

theorem Respects.put (respects : p.Respects) (h : a.Alike b) (hits : p.hits a = true) :
    (p.put a).Alike (p.put b) := by
  have hits' := respects.hits h ▸ hits
  obtain ⟨e, rfl, matching⟩ := exists_of_hits hits
  obtain ⟨e', rfl, -⟩ := exists_of_hits hits'
  exact ⟨trivial, trivial, respects.result e e' h.same matching⟩

theorem Respects.agree_process (respects : p.Respects) (h : a.Alike b) :
    Agree Session.Alike Node.Alike (p.rewriter.process a) (p.rewriter.process b) := by
  induction a using Node.childInduction generalizing b with
  | step a ih =>
    intro s s' alike
    cases ha : p.hits a with
    | true =>
      have hb := respects.hits h ▸ ha
      rw [process_of_hits ha, process_of_hits hb]
      refine ⟨respects.put h ha, congrArg Nat.succ alike.data, ?_⟩
      simp only [logLines_compared, alike.log]
    | false =>
      have hb := respects.hits h ▸ ha
      rw [process_of_missed ha, process_of_missed hb]
      refine Rewriter.agree_descend_of_alike h ih _ _ ⟨alike.data, ?_⟩
      simp only [logLines_compared, alike.log]

end Replacement

/-! ## Both ways of rewriting -/

/-- From alike roots both ways of rewriting end in alike nodes or in the same error, with the same
lines in the log and, if expressions are replaced, the same number of replacements. -/
theorem rewrite_congr {a b : Node} (h : a.Alike b) :
    (∀ (γ : Type) (t : Rules γ) (context : γ), t.Respects context →
      ∀ (journal : Array Event) (limit : Nat),
        let x := t.run context a journal limit
        let y := t.run context b journal limit
        Except.Agree Node.Alike x.1 y.1 ∧ logLines x.2.journal = logLines y.2.journal) ∧
    ∀ p : Replacement, p.Respects → ∀ s : Session Nat,
      let x := (p.rewriter.rewrite a).runFrom s
      let y := (p.rewriter.rewrite b).runFrom s
      Except.Agree Node.Alike x.1 y.1 ∧ x.2.data = y.2.data ∧
        logLines x.2.journal = logLines y.2.journal := by
  constructor
  · intro γ t context respects journal limit
    obtain ⟨outcomes, left⟩ := Rewriter.agree_rewrite_of_alike h
      (respects.agree_process limit h) ⟨journal, 0⟩ ⟨journal, 0⟩ ⟨rfl, rfl⟩
    exact ⟨outcomes, left.log⟩
  · intro p respects s
    obtain ⟨outcomes, left⟩ := Rewriter.agree_rewrite_of_alike h (respects.agree_process h) s s
      ⟨rfl, rfl⟩
    exact ⟨outcomes, left.data, left.log⟩

/-- Two `CUBE`s from different places, in which zero with a sign and zero without one have changed
places: every number becomes one, or is negated. -/
theorem rewrite_congr_cubes :
    let zero : Expr := .literal (.of 1 7) (.double .zero)
    let minusZero : Expr := .literal (.of 2 9) (.double ⟨0x8000000000000000⟩)
    let a : Node := .groupingElement (.cube (.of 1 1) [zero, minusZero])
    let b : Node := .groupingElement (.cube .unknown [minusZero, zero])
    let one : Expr := .ofLiteral (.integer 1)
    let t : Rules Unit :=
      (Rules.empty.onEnter .literal fun _ _ => some (.expression one)).onExit .cube fun n _ => .ok n
    let p : Replacement := ⟨fun e => e.kind == .literal, Expr.negation⟩
    a.Alike b ∧ t.Respects () ∧ p.Respects ∧
    (t.run () a #[] 1).1 = .ok (.groupingElement (.cube (.of 1 1) [one, one])) ∧
    Except.Agree Node.Alike (t.run () a #[] 1).1 (t.run () b #[] 1).1 ∧
    logLines (t.run () a #[] 1).2.journal = logLines (t.run () b #[] 1).2.journal ∧
    ((p.rewriter.rewrite a).runFrom ⟨#[], 0⟩).2.data =
      ((p.rewriter.rewrite b).runFrom ⟨#[], 0⟩).2.data := by
  intro zero minusZero a b one t p
  have alike : a.Alike b := ⟨trivial, trivial, by decide⟩
  have rules : t.Respects () := by
    constructor
    · intro kind rule given n m _
      simp only [t, Rules.onExit, Rules.onEnter] at given
      split at given
      · obtain rfl := Option.some.inj given
        exact .some ⟨trivial, trivial, by decide⟩
      · contradiction
    · intro kind rule given n m h
      simp only [t, Rules.onExit] at given
      split at given
      · obtain rfl := Option.some.inj given
        exact h
      · contradiction
  have negations : p.Respects := by
    constructor
    · intro e e' same
      have kinds := Node.Alike.kind (a := .expression e) (b := .expression e')
        ⟨trivial, trivial, same⟩
      exact congrArg (· == Kind.literal) kinds
    · intro e e' same _
      rw [Expr.beq_iff] at same ⊢
      simp only [p, Expr.negation, Expr.canonical, same]
  have replaced (l : Location) (v : Literal) (s : Session Nat) :
      ((t.rewriter 1 ()).process (.expression (.literal l v))).runFrom s = _ :=
    Rules.process_of_replaced (m := .expression one) rfl s
  have visited (l : Location) (v : Literal) (s : Session Nat) :=
    Rewriter.visit_eq_ok (c := .ofExpr (.literal l v)).mpr ⟨replaced l v s, rfl⟩
  have outcome : (t.run () a #[] 1).1 = .ok (.groupingElement (.cube (.of 1 1) [one, one])) := by
    rw [Rules.run, Rewriter.outcome_rewrite, Rules.outcome_of_descend rfl Nat.zero_lt_one]
    show (([Child.ofExpr zero, .ofExpr minusZero].mapM (t.rewriter 1 ()).visit >>= fun nodes =>
      (ofExcept (a.withChildren nodes).recounted : Rewrite Nat Node)).runFrom _).1 >>= _ = _
    simp only [List.mapM_cons, List.mapM_nil, runFrom_bind, zero, minusZero, visited, runFrom_pure,
      runFrom_ofExcept]
    rfl
  obtain ⟨byRules, byReplacement⟩ := rewrite_congr alike
  obtain ⟨outcomes, log⟩ := byRules Unit t () rules #[] 1
  obtain ⟨-, count, -⟩ := byReplacement p negations ⟨#[], 0⟩
  exact ⟨alike, rules, negations, outcome, outcomes, log, count⟩

end SqlTree
