import SqlTree.Proofs.Rewrite.AsRules
import SqlTree.Proofs.Rewrite.DepthLimit
import SqlTree.Proofs.Rewrite.Treatment

/-!
# Which rules have a part in a rewrite

Of the rules that are given for a kind and a phase only the last one is in force, and only the kinds
of the nodes in the slots of a tree are ever looked up. So the other rules may be given or left out,
and rules for different kinds or phases may be given in any order: the rewrite is the same, step by
step.
-/

namespace SqlTree

open Rewrite

variable {γ : Type}

namespace Registration

def kind : Registration γ → Kind
  | enter kind _ | exit kind _ => kind

def phase : Registration γ → Phase
  | enter .. => .enter
  | exit .. => .exit

/-- Is the rule given for this phase and this kind? -/
def isFor (phase : Phase) (kind : Kind) (r : Registration γ) : Bool :=
  r.phase == phase && r.kind == kind

theorem isFor_iff {phase : Phase} {kind : Kind} {r : Registration γ} :
    r.isFor phase kind = true ↔ r.phase = phase ∧ r.kind = kind := by
  simp [isFor]

/-- The last rule that is given for a phase and a kind. -/
def last? (rs : List (Registration γ)) (phase : Phase) (kind : Kind) : Option (Registration γ) :=
  (rs.filter (isFor phase kind)).getLast?

theorem last?_append (rs rs' : List (Registration γ)) (phase : Phase) (kind : Kind) :
    last? (rs ++ rs') phase kind = (last? rs' phase kind).or (last? rs phase kind) := by
  rw [last?, List.filter_append, List.getLast?_append]
  rfl

theorem last?_cons (r : Registration γ) (rs : List (Registration γ)) (phase : Phase)
    (kind : Kind) : last? (r :: rs) phase kind =
      (last? rs phase kind).or (if r.isFor phase kind then some r else none) := by
  rw [← List.singleton_append, last?_append]
  cases given : r.isFor phase kind with
  | true => simp [last?, given]
  | false => simp [last?, given]

theorem isSome_last? {rs : List (Registration γ)} {r : Registration γ} {phase : Phase}
    {kind : Kind} (h : r ∈ rs) (given : r.isFor phase kind = true) :
    (last? rs phase kind).isSome = true := by
  rw [last?, List.getLast?_isSome]
  exact List.ne_nil_of_mem (List.mem_filter.mpr ⟨h, given⟩)

variable {before after : List (Registration γ)} {r r' : Registration γ}

theorem last?_swap (differ : ¬ (r.phase = r'.phase ∧ r.kind = r'.kind)) (phase : Phase)
    (kind : Kind) : last? (before ++ r :: r' :: after) phase kind =
      last? (before ++ r' :: r :: after) phase kind := by
  simp only [last?_append, last?_cons]
  cases given : r.isFor phase kind <;> cases given' : r'.isFor phase kind
  case true.true =>
    obtain ⟨rfl, rfl⟩ := isFor_iff.mp given
    obtain ⟨samePhase, sameKind⟩ := isFor_iff.mp given'
    exact absurd ⟨samePhase.symm, sameKind.symm⟩ differ
  all_goals simp

/-- A rule that is overwritten later may be left out. -/
theorem last?_of_overwritten (later : ∃ r' ∈ after, r'.phase = r.phase ∧ r'.kind = r.kind)
    (phase : Phase) (kind : Kind) :
    last? (before ++ r :: after) phase kind = last? (before ++ after) phase kind := by
  simp only [last?_append, last?_cons]
  cases given : r.isFor phase kind with
  | false => simp
  | true =>
    obtain ⟨rfl, rfl⟩ := isFor_iff.mp given
    obtain ⟨r', hr', same⟩ := later
    have overwritten := isSome_last? hr' (isFor_iff.mpr same)
    obtain ⟨last, hlast⟩ := Option.isSome_iff_exists.mp overwritten
    rw [hlast]
    rfl

/-- For another kind a rule may be left out. -/
theorem last?_of_ne {kind : Kind} (other : r.kind ≠ kind) (phase : Phase) :
    last? (before ++ r :: after) phase kind = last? (before ++ after) phase kind := by
  have no : ¬ r.isFor phase kind = true := fun given => other (isFor_iff.mp given).2
  simp only [last?_append, last?_cons, if_neg no, Option.or_none]

end Registration

/-! ## The rules in force -/

namespace Rules

/-- The rule in force for a phase and a kind, as it was given. -/
def inForce? (t : Rules γ) (phase : Phase) (kind : Kind) : Option (Registration γ) :=
  match phase with
  | .enter => (t.enter kind).map (.enter kind)
  | .exit => (t.exit kind).map (.exit kind)

theorem inForce?_register (t : Rules γ) (r : Registration γ) (phase : Phase) (kind : Kind) :
    (t.register r).1.inForce? phase kind =
      if r.isFor phase kind then some r else t.inForce? phase kind := by
  cases r with
  | enter k rule =>
    cases phase with
    | enter =>
      by_cases h : kind = k
      · simp [inForce?, register, onEnter, Registration.isFor, Registration.phase,
          Registration.kind, h]
      · simp [inForce?, register, onEnter, Registration.isFor, Registration.kind, h, Ne.symm h]
    | exit => rfl
  | exit k rule =>
    cases phase with
    | enter => rfl
    | exit =>
      by_cases h : kind = k
      · simp [inForce?, register, onExit, Registration.isFor, Registration.phase,
          Registration.kind, h]
      · simp [inForce?, register, onExit, Registration.isFor, Registration.kind, h, Ne.symm h]

theorem inForce?_ofList (rs : List (Registration γ)) (phase : Phase) (kind : Kind) :
    (ofList rs).1.inForce? phase kind = Registration.last? rs phase kind := by
  rw [ofList, foldl_register]
  -- the rule given last decides, so the induction takes rules from the end
  induction rs using List.reverseRecOn with
  | nil => cases phase <;> rfl
  | append_singleton rs r ih =>
    rw [List.foldl_append, List.foldl_cons, List.foldl_nil, inForce?_register, ih,
      Registration.last?_append, Registration.last?_cons]
    cases r.isFor phase kind <;> rfl

theorem eq_of_inForce?_eq {t t' : Rules γ} {kind : Kind}
    (h : ∀ phase, t.inForce? phase kind = t'.inForce? phase kind) :
    t.enter kind = t'.enter kind ∧ t.exit kind = t'.exit kind := by
  constructor
  · refine Option.map_injective ?_ (h .enter)
    intro rule rule' same
    exact (Registration.enter.inj same).2
  · refine Option.map_injective ?_ (h .exit)
    intro rule rule' same
    exact (Registration.exit.inj same).2

end Rules

/-! ## The kinds that are looked up -/

/-- The kind is that of a node of the tree, its root or one in a slot. -/
inductive Node.HasKind (kind : Kind) : Node → Prop
  | root {n : Node} (h : n.kind = kind) : HasKind kind n
  | child {n : Node} {c : Child} (hc : c ∈ n.children) (h : HasKind kind c.node) : HasKind kind n

namespace Rules

variable {t t' : Rules γ} {context : γ} {n root : Node}

theorem visits_eq {r r' : Rewriter Nat} {cs : List Child}
    (h : ∀ c ∈ cs, r.process c.node = r'.process c.node) : cs.mapM r.visit = cs.mapM r'.visit := by
  induction cs with
  | nil => rfl
  | cons c cs ih =>
    obtain ⟨first, others⟩ := List.forall_mem_cons.mp h
    have visit : r.visit c = r'.visit c := by
      rw [Rewriter.visit, Rewriter.visit, first]
    rw [List.mapM_cons, List.mapM_cons, visit, ih others]

/-- Tables that are the same for the kinds in a tree treat it in the same way. -/
theorem process_congr (limit : Nat)
    (h : ∀ kind, n.HasKind kind → t.enter kind = t'.enter kind ∧ t.exit kind = t'.exit kind) :
    (t.rewriter limit context).process n = (t'.rewriter limit context).process n := by
  induction n using Node.childInduction with
  | step n ih =>
    obtain ⟨enter, exit⟩ := h n.kind (.root rfl)
    have around : (t.rewriter limit context).around n = (t'.rewriter limit context).around n := by
      simp only [rewriter, enter, exit]
    -- no more is looked up for a child than what stands in it
    have children : ∀ c ∈ n.children, (t.rewriter limit context).process c.node =
        (t'.rewriter limit context).process c.node :=
      fun c hc => ih c hc fun kind inside => h kind (.child hc inside)
    rw [Rewriter.process_eq, Rewriter.process_eq, around, Rewriter.descend, Rewriter.descend,
      visits_eq children]

/-- By the rules of the one list and by those of the other, the root is rewritten with the same
outcome and the same reports, whatever the limit is. -/
def ActAlike (context : γ) (root : Node) (rs rs' : List (Registration γ)) : Prop :=
  ∀ limit, ∃ outcome events, ∀ journal,
    (ofList rs).1.run context root journal limit = (outcome, ⟨journal ++ events, 0⟩) ∧
    (ofList rs').1.run context root journal limit = (outcome, ⟨journal ++ events, 0⟩)

theorem actAlike_of_last?_eq {rs rs' : List (Registration γ)} (h : ∀ kind, root.HasKind kind →
      ∀ phase, Registration.last? rs phase kind = Registration.last? rs' phase kind) :
    ActAlike context root rs rs' := by
  intro limit
  have same : ((ofList rs).1.rewriter limit context).process root =
      ((ofList rs').1.rewriter limit context).process root := by
    refine process_congr limit fun kind occurs => eq_of_inForce?_eq fun phase => ?_
    rw [inForce?_ofList, inForce?_ofList, h kind occurs phase]
  refine ⟨_, _, fun journal => ⟨run_eq_treat (ofList rs).1 context root journal limit, ?_⟩⟩
  rw [run_eq_treat, allReports, allReports, treat, treat, same]

/-- Only the last rules of the kinds in a tree have a part in its rewrite. The order of rules for
different kinds or phases, rules that are overwritten, and rules for other kinds have none. -/
theorem run_of_latest (context : γ) (root : Node) :
    (∀ rs rs' : List (Registration γ), (∀ kind, root.HasKind kind → ∀ phase,
      Registration.last? rs phase kind = Registration.last? rs' phase kind) →
      ActAlike context root rs rs') ∧
    (∀ before after : List (Registration γ), ∀ r r' : Registration γ,
      ¬ (r.phase = r'.phase ∧ r.kind = r'.kind) →
      ActAlike context root (before ++ r :: r' :: after) (before ++ r' :: r :: after)) ∧
    (∀ before after : List (Registration γ), ∀ r : Registration γ,
      (∃ r' ∈ after, r'.phase = r.phase ∧ r'.kind = r.kind) →
      ActAlike context root (before ++ r :: after) (before ++ after)) ∧
    ∀ before after : List (Registration γ), ∀ r : Registration γ, ¬ root.HasKind r.kind →
      ActAlike context root (before ++ r :: after) (before ++ after) := by
  refine ⟨fun _ _ => actAlike_of_last?_eq, ?_, ?_, ?_⟩
  · intro before after r r' differ
    exact actAlike_of_last?_eq fun kind _ phase => Registration.last?_swap differ phase kind
  · intro before after r later
    exact actAlike_of_last?_eq fun kind _ phase =>
      Registration.last?_of_overwritten later phase kind
  · intro before after r absent
    refine actAlike_of_last?_eq fun kind occurs phase => Registration.last?_of_ne ?_ phase
    rintro rfl
    exact absent occurs

/-- Tables are renamed in `a JOIN a ON TRUE`. What was to be done with tables before, and what is to
be done with literals, has no part in it, and joins may come first or last. -/
theorem run_of_latest_join :
    let a : Relation := .table .unknown ⟨["a"]⟩
    let b : Relation := .table .unknown ⟨["b"]⟩
    let no : Expr := .ofLiteral (.boolean false)
    let join (r : Relation) : Node :=
      .relation (.join .unknown .inner r r ⟨.ofLiteral (.boolean true)⟩ none)
    let rename : Registration Unit := .enter .table fun _ _ => some (.relation b)
    let keep : Registration Unit := .exit .join fun n _ => .ok n
    let rs := [.enter .table fun _ _ => none, rename,
      .exit .literal fun _ _ => .ok (.expression no), keep]
    ¬ (join a).HasKind .literal ∧
    ActAlike () (join a) rs [keep, rename] ∧
    ∀ journal, ((ofList rs).1.run () (join a) journal 1).1 = .ok (join b) := by
  intro a b no join rename keep rs
  have kinds : ∀ {kind}, (join a).HasKind kind → kind = .join ∨ kind = .table := by
    intro kind occurs
    cases occurs with
    | root h => exact .inl h.symm
    | @child _ c hc inside =>
      -- the condition of the join is none of its children
      obtain rfl : c = .ofRelation a := by simpa [join, Node.children, Relation.children] using hc
      cases inside with
      | root h => exact .inr h.symm
      | child hc => contradiction
  have alike : ActAlike () (join a) rs [keep, rename] := by
    refine (run_of_latest () (join a)).1 _ _ ?_
    intro kind occurs phase
    rcases kinds occurs with rfl | rfl <;> cases phase <;> rfl
  refine ⟨?_, alike, ?_⟩
  · intro literal
    rcases kinds literal with h | h <;> contradiction
  · intro journal
    have table : ((ofList rs).1.treat () 1 1 (.relation a)).1 = .ok (.relation b) :=
      congrArg Prod.fst (treat_of_replaced rfl)
    have become : (ofList rs).1.Become () 1 1 (join a).children [.relation b, .relation b] :=
      .cons ⟨table, rfl⟩ (.cons ⟨table, rfl⟩ .nil)
    have treated := treat_of_become (n := join a) rfl Nat.zero_lt_one become
    rw [run_eq_treat]
    exact congrArg Prod.fst treated

end Rules

end SqlTree
