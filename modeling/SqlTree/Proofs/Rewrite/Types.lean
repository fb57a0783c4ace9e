import SqlTree.Proofs.Grouping.Sets
import SqlTree.Proofs.Rewrite.AsRules
import SqlTree.Proofs.Rewrite.DepthLimit
import SqlTree.Proofs.Rewrite.Treatment

/-!
# Rules that keep the types of nodes

Slots admit nodes by their family, and some slots nodes of a single kind. Rules that keep both put
no node in a slot that does not admit it: a node that is rebuilt keeps its kind, so that exit rules
too are shown nodes of their kinds. What is left to go wrong is the depth, and the number of columns
of a `CUBE`.
-/

namespace SqlTree

open Rewrite

/-! ## Families -/

/-- The widest slot in which the node may stand. -/
def Node.family : Node → Slot
  | statement _ => .statement
  | expression _ => .expression
  | relation _ => .relation
  | select _ => .select
  | selectItem _ => .selectItem
  | groupBy _ => .groupBy
  | groupingElement _ => .groupingElement
  | window _ => .window
  | ksqlWindow _ => .ksqlWindow
  | within _ => .within
  | tableElement _ => .tableElement

/-- The kinds that have slots of their own. -/
def Kind.narrow : List Kind := [.query, .inList, .whenClause]

/-- The nodes are of the same family, and of the same kind if that kind has slots of its own. -/
structure Node.SameType (n m : Node) : Prop where
  family : m.family = n.family
  kind : n.kind ∈ Kind.narrow → m.kind = n.kind

namespace Slot

theorem admits_query {n : Node} : query.admits n = true ↔ n.kind = .query := by
  constructor
  · intro h
    obtain ⟨q, rfl⟩ := holds_query.exists_of_admits n h
    rfl
  · intro h
    cases n with
    | statement s =>
      cases s with
      | query q => rfl
      | create _ collection => cases collection <;> contradiction
      | _ => contradiction
    | expression e =>
      have listed := e.kind_mem_expressions
      rw [show e.kind = .query from h] at listed
      exact absurd listed (by decide)
    | relation r => cases r <;> contradiction
    | selectItem i => cases i <;> contradiction
    | groupingElement g => cases g <;> contradiction
    | _ => contradiction

theorem admits_list {n : Node} : list.admits n = true ↔ n.kind = .inList := by
  constructor
  · intro h
    obtain ⟨xs, rfl⟩ := holds_list.exists_of_admits n h
    rfl
  · intro h
    obtain ⟨e, rfl⟩ := Node.kind_mem_expressions.mp (h ▸ by decide : n.kind ∈ Kind.expressions)
    cases e with
    | list xs => rfl
    | unary _ operator => cases operator <;> contradiction
    | binary _ operator => cases operator <;> contradiction
    | case _ operand? => cases operand? <;> contradiction
    | _ => contradiction

theorem admits_branch {n : Node} : branch.admits n = true ↔ n.kind = .whenClause := by
  constructor
  · intro h
    obtain ⟨b, rfl⟩ := holds_branch.exists_of_admits n h
    rfl
  · intro h
    obtain ⟨e, rfl⟩ := Node.kind_mem_expressions.mp (h ▸ by decide : n.kind ∈ Kind.expressions)
    cases e with
    | branch b => rfl
    | unary _ operator => cases operator <;> contradiction
    | binary _ operator => cases operator <;> contradiction
    | case _ operand? => cases operand? <;> contradiction
    | _ => contradiction

theorem admits_wide {slot : Slot} (wide : slot ∉ [query, list, branch]) (n : Node) :
    slot.admits n = (n.family == slot) := by
  cases slot with
  | query | list | branch => exact absurd (by decide) wide
  | _ => cases n <;> rfl

end Slot

namespace Node.SameType

variable {n m k : Node}

theorem trans (h : n.SameType m) (h' : m.SameType k) : n.SameType k := by
  constructor
  · rw [h'.family, h.family]
  · intro narrow
    have kept := h.kind narrow
    rw [h'.kind (kept ▸ narrow), kept]

/-- Slots do not tell nodes of the same type apart. -/
theorem admits (h : n.SameType m) (slot : Slot) (fits : slot.admits n = true) :
    slot.admits m = true := by
  cases slot with
  | query =>
    have narrow := Slot.admits_query.mp fits
    exact Slot.admits_query.mpr ((h.kind (narrow ▸ by decide)).trans narrow)
  | list =>
    have narrow := Slot.admits_list.mp fits
    exact Slot.admits_list.mpr ((h.kind (narrow ▸ by decide)).trans narrow)
  | branch =>
    have narrow := Slot.admits_branch.mp fits
    exact Slot.admits_branch.mpr ((h.kind (narrow ▸ by decide)).trans narrow)
  | _ =>
    rw [Slot.admits_wide (by decide)] at fits ⊢
    rw [h.family, fits]

end Node.SameType

/-- A rebuilt node is of the same type. -/
theorem Node.Rebuilt.sameType {n m : Node} {ms : List Node} (h : n.Rebuilt ms m) :
    n.SameType m := by
  refine ⟨?_, fun _ => h.kind⟩
  cases h <;> rfl

/-- Only a `CUBE` can be refused when its columns are counted. -/
theorem Node.cube_of_recounted_error {n : Node} {e : RewriteError} (h : n.recounted = .error e) :
    ∃ l columns, n = .groupingElement (.cube l columns) ∧
      e = .invalidNode (.tooManyCubeColumns columns.eraseDups.length) ∧
      GroupingElement.cubeLimit < columns.eraseDups.length := by
  cases n with
  | groupingElement g =>
    cases g with
    | cube l columns =>
      refine ⟨l, columns, rfl, ?_⟩
      rw [← GroupingSet.of_eq_eraseDups]
      unfold recounted GroupingElement.cubeColumns at h
      by_cases many : GroupingElement.cubeLimit < (GroupingSet.of columns).length
      · simp only [if_pos many, Except.error.injEq] at h
        exact ⟨h.symm, many⟩
      · simp only [if_neg many] at h
        contradiction
    | _ => contradiction
  | _ => contradiction

/-! ## Rewrites -/

namespace Rules

variable {γ : Type} {t : Rules γ} {context : γ} {limit depth : Nat} {root n m : Node}

/-- Shown a node of its kind, a rule gives a node of the same type, and an exit rule does give one.
-/
structure KeepsTypes (t : Rules γ) (context : γ) : Prop where
  enter : ∀ kind rule, t.enter kind = some rule → ∀ n m : Node, n.kind = kind →
    rule n context = some m → n.SameType m
  exit : ∀ kind rule, t.exit kind = some rule → ∀ n : Node, n.kind = kind →
    ∃ m, rule n context = .ok m ∧ n.SameType m

/-- On the way through the root a `CUBE` is met, and its columns become ones of which so many are
distinct, more than it may have. -/
def Overfull (t : Rules γ) (context : γ) (limit : Nat) (root : Node) (count : Nat) : Prop :=
  ∃ depth l columns columns',
    Visited t context root (depth + 1) (.groupingElement (.cube l columns)) ∧
    t.replacement? context (.groupingElement (.cube l columns)) = none ∧
    List.Forall₂ (fun c c' => (t.treat context limit (depth + 1) (.expression c)).1 =
      .ok (.expression c')) columns columns' ∧
    columns'.eraseDups.length = count ∧ GroupingElement.cubeLimit < count

/-- What can come of a node in the rewrite of a root by rules that keep types. -/
inductive Typed (t : Rules γ) (context : γ) (limit : Nat) (root n : Node) :
    Except RewriteError Node → Prop where
  | same {m : Node} (h : n.SameType m) : Typed t context limit root n (.ok m)
  | tooDeep : Typed t context limit root n (.error (.depthLimitExceeded limit))
  | overfull {count : Nat} (h : t.Overfull context limit root count) :
    Typed t context limit root n (.error (.invalidNode (.tooManyCubeColumns count)))

theorem Typed.error {e : RewriteError} (h : t.Typed context limit root n (.error e)) :
    t.Typed context limit root m (.error e) := by
  cases h with
  | tooDeep => exact .tooDeep
  | overfull h => exact .overfull h

theorem Typed.cases {outcome : Except RewriteError Node}
    (h : t.Typed context limit root n outcome) :
    (∃ m, outcome = .ok m ∧ n.SameType m) ∨
      outcome = .error (.depthLimitExceeded limit) ∨
      ∃ count e, outcome = .error e ∧ e = .invalidNode (.tooManyCubeColumns count) ∧
        e.message = "重写生成了非法节点: 非法参数: CUBE 最多支持 16 个不同的列, 实际为 " ++ toString count ∧
        t.Overfull context limit root count := by
  cases h with
  | same h => exact .inl ⟨_, rfl, h⟩
  | tooDeep => exact .inr (.inl rfl)
  | @overfull count h =>
    have message : (RewriteError.invalidNode (.tooManyCubeColumns count)).message =
        "重写生成了非法节点: " ++ ("非法参数: " ++ ("CUBE 最多支持 16 个不同的列, 实际为 " ++
          toString count)) := rfl
    rw [← String.append_assoc, ← String.append_assoc] at message
    exact .inr (.inr ⟨count, _, rfl, rfl, message, h⟩)

theorem Typed.ne_unexpectedNode {outcome : Except RewriteError Node}
    (h : t.Typed context limit root n outcome) (expected : String) (actual : Kind) :
    outcome ≠ .error (.unexpectedNode expected actual) := by
  rintro rfl
  cases h

theorem KeepsTypes.replacement? (h : t.KeepsTypes context)
    (replaced : t.replacement? context n = some m) : n.SameType m := by
  rw [Rules.replacement?] at replaced
  obtain ⟨rule, given, answer⟩ := Option.bind_eq_some_iff.mp replaced
  exact h.enter n.kind rule given n m rfl answer

/-- The exit rule is shown a node of its kind, because rebuilding keeps kinds. -/
theorem KeepsTypes.left (h : t.KeepsTypes context) (n : Node) :
    ∃ m, t.left context n.kind n = .ok m ∧ n.SameType m := by
  unfold Rules.left
  cases given : t.exit n.kind with
  | none => exact ⟨n, rfl, rfl, fun _ => rfl⟩
  | some rule => exact h.exit n.kind rule given n rfl

theorem KeepsTypes.typed_treat (h : t.KeepsTypes context) (limit : Nat)
    (visited : Visited t context root (depth + 1) n) :
    t.Typed context limit root n (t.treat context limit depth n).1 := by
  induction n using Node.childInduction generalizing depth with
  | step n ih =>
    rcases t.treat_cases context limit depth n with ⟨m, replaced⟩ | ⟨unreplaced, deep⟩ |
      ⟨before, c, after, e, first⟩ | ⟨unreplaced, within, passed⟩
    · rw [treat_of_replaced replaced]
      exact .same (h.replacement? replaced)
    · rw [treat_of_limit unreplaced deep]
      exact .tooDeep
    · have hc : c ∈ n.children := first.children ▸ List.mem_append_right _ List.mem_cons_self
      have inside := ih c hc (visited.child first.unreplaced hc)
      rw [treat_of_firstFault first]
      cases first.fault with
      | failed failed =>
        rw [failed] at inside
        exact inside.error
      | misplaced given unfit =>
        -- what came of the child is of its type, and its slot admits that
        rw [given] at inside
        cases inside with
        | same same =>
          rw [same.admits c.slot (Node.admits_child hc)] at unfit
          contradiction
    · obtain ⟨ms, become⟩ := exists_become passed
      obtain ⟨m, rebuilt⟩ := become.exists_rebuilt
      rw [treat_of_become unreplaced within become, rebuilt.withChildren_eq]
      rcases counted : m.recounted with e | m'
      · -- a `CUBE` is only rebuilt from a `CUBE`, whose columns have become the new ones
        obtain ⟨l, columns', rfl, rfl, many⟩ := Node.cube_of_recounted_error counted
        cases rebuilt with
        | groupingElement rebuilt =>
          cases rebuilt with
          | @cube _ columns _ _ =>
            have each := List.forall₂_map_left_iff.mp (List.forall₂_map_right_iff.mp become)
            exact .overfull ⟨depth, l, columns, columns', visited, unreplaced,
              each.imp fun _ _ h => h.1, rfl, many⟩
      · obtain rfl := Node.eq_of_recounted counted
        obtain ⟨m'', left, same⟩ := h.left m'
        rw [rebuilt.kind] at left
        show t.Typed context limit root n (t.left context n.kind m')
        rw [left]
        exact .same (rebuilt.sameType.trans same)

theorem KeepsTypes.typed_run (h : t.KeepsTypes context) (root : Node) (journal : Array Event)
    (limit : Nat) : t.Typed context limit root root (t.run context root journal limit).1 := by
  rw [run_eq_treat]
  exact h.typed_treat limit .root

/-- The cast at the end of the rewrite of a statement does not fail. -/
theorem KeepsTypes.runFrom_rewriteStatement (h : t.KeepsTypes context) (s : Statement)
    (journal : Array Event) (limit : Nat) :
    ((t.rewriter limit context).rewriteStatement s).runFrom ⟨journal, 0⟩ =
      t.run context (.statement s) journal limit := by
  have typed := h.typed_run (.statement s) journal limit
  rcases result : t.run context (.statement s) journal limit with ⟨e | m, s'⟩ <;>
    rw [result] at typed <;> rw [run] at result <;>
    rw [Rewriter.rewriteStatement, runFrom_bind, result]
  cases typed with
  | same same =>
    have fits := same.admits .statement rfl
    simp only [runFrom_ofExcept, Slot.check_eq_ok.mpr ⟨rfl, fits⟩]

/-- Rules that keep types never put a node where it must not stand. A rewrite by them succeeds with
a node of the type of the root, or goes too deep, or fails at a `CUBE` whose columns have become too
many distinct ones, and says how many. A statement becomes a statement. -/
theorem KeepsTypes.run_typed (h : t.KeepsTypes context) (root : Node) (journal : Array Event)
    (limit : Nat) :
    let outcome := (t.run context root journal limit).1
    ((∃ m, outcome = .ok m ∧ root.SameType m) ∨
      outcome = .error (.depthLimitExceeded limit) ∨
      ∃ count e, outcome = .error e ∧ e = .invalidNode (.tooManyCubeColumns count) ∧
        e.message = "重写生成了非法节点: 非法参数: CUBE 最多支持 16 个不同的列, 实际为 " ++ toString count ∧
        t.Overfull context limit root count) ∧
    (∀ expected actual, outcome ≠ .error (.unexpectedNode expected actual)) ∧
    ∀ s, root = .statement s →
      ((t.rewriter limit context).rewriteStatement s).runFrom ⟨journal, 0⟩ =
        t.run context root journal limit := by
  intro outcome
  have typed := h.typed_run root journal limit
  refine ⟨typed.cases, typed.ne_unexpectedNode, ?_⟩
  rintro s rfl
  exact h.runFrom_rewriteStatement s journal limit

/-- Literals become columns, and lists stay lists: `a IN (1)` becomes `a IN (b)`, or is too deep. -/
theorem KeepsTypes.run_typed_list :
    let a : Expr := .ofColumn ⟨["a"]⟩
    let b : Expr := .ofColumn ⟨["b"]⟩
    let one : Expr := .ofLiteral (.integer 1)
    let root : Node := .expression (.isIn .unknown a ⟨.unknown, [one]⟩)
    let t : Rules Unit := (empty.onEnter .literal fun _ _ => some (.expression b)).onExit .inList
      fun n _ => .ok n
    t.KeepsTypes () ∧
    (t.run () root #[] 2).1 = .ok (.expression (.isIn .unknown a ⟨.unknown, [b]⟩)) ∧
    ∀ limit expected actual,
      (t.run () root #[] limit).1 ≠ .error (.unexpectedNode expected actual) := by
  intro a b one root t
  have keeps : t.KeepsTypes () := by
    constructor
    · intro kind rule given n m hn answer
      by_cases literal : kind = .literal
      · subst literal
        obtain rfl := Option.some.inj given
        obtain rfl := Option.some.inj answer
        have listed : n.kind ∈ Kind.expressions := hn ▸ by decide
        obtain ⟨e, rfl⟩ := Node.kind_mem_expressions.mp listed
        exact ⟨rfl, fun narrow => absurd (hn ▸ narrow) (by decide)⟩
      · simp [t, onExit, onEnter, empty, literal] at given
    · intro kind rule given n hn
      by_cases list : kind = .inList
      · subst list
        obtain rfl := Option.some.inj given
        exact ⟨n, rfl, rfl, fun _ => rfl⟩
      · simp [t, onExit, onEnter, empty, list] at given
  have outcome : (t.run () root #[] 2).1 =
      .ok (.expression (.isIn .unknown a ⟨.unknown, [b]⟩)) := by
    have column : (t.treat () 2 1 (.expression a)).1 = .ok (.expression a) :=
      congrArg Prod.fst (treat_of_leaf rfl (by decide) rfl)
    have literal : (t.treat () 2 2 (.expression one)).1 = .ok (.expression b) :=
      congrArg Prod.fst (treat_of_replaced rfl)
    have values : (t.treat () 2 1 (.expression (.list ⟨.unknown, [one]⟩))).1 =
        .ok (.expression (.list ⟨.unknown, [b]⟩)) := by
      have become : t.Become () 2 2 [.ofExpr one] [.expression b] := .cons ⟨literal, rfl⟩ .nil
      have treated := treat_of_become (n := .expression (.list ⟨.unknown, [one]⟩)) rfl
        (Nat.lt_succ_self 1) become
      exact congrArg Prod.fst treated
    have become : t.Become () 2 1 root.children
        [.expression a, .expression (.list ⟨.unknown, [b]⟩)] :=
      .cons ⟨column, rfl⟩ (.cons ⟨values, rfl⟩ .nil)
    have treated := treat_of_become (n := root) rfl Nat.zero_lt_two become
    rw [run_eq_treat]
    exact congrArg Prod.fst treated
  refine ⟨keeps, outcome, ?_⟩
  intro limit
  exact (keeps.run_typed root #[] limit).2.1

end Rules

end SqlTree
