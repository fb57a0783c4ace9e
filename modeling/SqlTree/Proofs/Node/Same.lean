import SqlTree.Proofs.Node.Revised
import SqlTree.Proofs.Node.Validity
import SqlTree.Proofs.Properties

/-!
# What equality means

The canonical form of a node has no locations, its settings are in the order of their keys, and its
doubles stand for all that are the same. Nodes are the same exactly when their canonical forms are
equal. So being the same is an equivalence, and it does not see where in a text anything stands.
-/

namespace SqlTree

/-- To canonical forms: no location is known, and one value stands for all that are the same. -/
def Revision.canonical : Revision := ⟨fun _ => .unknown, Literal.canonical, Properties.canonical⟩

/-- To nodes without a place: no location is known. -/
def Revision.unplaced : Revision := ⟨fun _ => .unknown, id, id⟩

/-! ## Lists and options -/

section

variable {α β : Type} {f : α → β}

/-- Lists are the same when what decides about their members is equal one by one. -/
theorem list_beq_iff [BEq α] (h : ∀ {a b : α}, (a == b) = true ↔ f a = f b) {as bs : List α} :
    (as == bs) = true ↔ as.map f = bs.map f := by
  induction as generalizing bs with
  | nil => cases bs <;> simp
  | cons a as ih =>
    cases bs with
    | nil => simp
    | cons b bs =>
      rw [List.cons_beq_cons, Bool.and_eq_true, h, ih, List.map_cons, List.map_cons,
        List.cons.injEq]

/-- Members at the same place correspond when what decides about them is equal. -/
theorem forall₂_iff_map_eq {γ : Type} {g : γ → β} {as : List α} {cs : List γ} :
    List.Forall₂ (fun a c => f a = g c) as cs ↔ as.map f = cs.map g := by
  rw [← List.forall₂_eq_eq_eq, List.forall₂_map_left_iff, List.forall₂_map_right_iff]

/-- Side by side the members have what they have on either side. -/
theorem forall₂_and_iff {γ : Type} {p : α → Prop} {q : γ → Prop} {R : α → γ → Prop} {as : List α}
    {cs : List γ} : List.Forall₂ (fun a c => p a ∧ q c ∧ R a c) as cs ↔
      (∀ a ∈ as, p a) ∧ (∀ c ∈ cs, q c) ∧ List.Forall₂ R as cs := by
  constructor
  · intro h
    induction h with
    | nil => exact ⟨List.forall_mem_nil p, List.forall_mem_nil q, .nil⟩
    | cons first _ ih =>
      rw [List.forall_mem_cons, List.forall_mem_cons]
      exact ⟨⟨first.1, ih.1⟩, ⟨first.2.1, ih.2.1⟩, .cons first.2.2 ih.2.2⟩
  · rintro ⟨hp, hq, h⟩
    induction h with
    | nil => exact .nil
    | cons first _ ih =>
      rw [List.forall_mem_cons] at hp hq
      exact .cons ⟨hp.1, hq.1, first⟩ (ih hp.2 hq.2)

theorem option_beq_iff [BEq α] (h : ∀ {a b : α}, (a == b) = true ↔ f a = f b) {a? b? : Option α} :
    (a? == b?) = true ↔ a?.map f = b?.map f := by
  cases a? with
  | none => cases b? <;> simp
  | some a =>
    cases b? with
    | none => simp
    | some b => rw [Option.some_beq_some, h, Option.map_some, Option.map_some, Option.some_inj]

end

/-! ## Expressions -/

mutual

theorem Expr.revise_canonical : ∀ e : Expr, e.revise .canonical = e.canonical
  | .literal .. | .column .. => rfl
  | .unary _ _ e => by
    simp only [Expr.revise, Expr.canonical, Expr.revise_canonical e]
    rfl
  | .binary _ _ a b => by
    simp only [Expr.revise, Expr.canonical, Expr.revise_canonical a, Expr.revise_canonical b]
    rfl
  | .between _ v a b => by
    simp only [Expr.revise, Expr.canonical, Expr.revise_canonical v, Expr.revise_canonical a,
      Expr.revise_canonical b]
    rfl
  | .isIn _ v xs => by
    simp only [Expr.revise, Expr.canonical, Expr.revise_canonical v, InList.revise_canonical xs]
    rfl
  | .call _ _ xs => by
    simp only [Expr.revise, Expr.canonical, Expr.reviseList_canonical xs]
    rfl
  | .case _ o bs e => by
    simp only [Expr.revise, Expr.canonical, Expr.reviseOption_canonical o,
      Branch.reviseList_canonical bs, Expr.reviseOption_canonical e]
    rfl
  | .list xs => by simp only [Expr.revise, Expr.canonical, InList.revise_canonical xs]
  | .branch b => by simp only [Expr.revise, Expr.canonical, Branch.revise_canonical b]

theorem InList.revise_canonical : ∀ xs : InList, xs.revise .canonical = xs.canonical
  | ⟨_, xs⟩ => by
    simp only [InList.revise, InList.canonical, Expr.reviseList_canonical xs]
    rfl

theorem Branch.revise_canonical : ∀ b : Branch, b.revise .canonical = b.canonical
  | ⟨_, c, e⟩ => by
    simp only [Branch.revise, Branch.canonical, Expr.revise_canonical c, Expr.revise_canonical e]
    rfl

theorem Expr.reviseOption_canonical : ∀ e? : Option Expr,
    Expr.reviseOption .canonical e? = Expr.canonicalOption e?
  | none => rfl
  | some e => by simp only [Expr.reviseOption, Expr.canonicalOption, Expr.revise_canonical e]

theorem Expr.reviseList_canonical : ∀ es : List Expr,
    Expr.reviseList .canonical es = Expr.canonicalList es
  | [] => rfl
  | e :: es => by
    simp only [Expr.reviseList, Expr.canonicalList, Expr.revise_canonical e,
      Expr.reviseList_canonical es]

theorem Branch.reviseList_canonical : ∀ bs : List Branch,
    Branch.reviseList .canonical bs = Branch.canonicalList bs
  | [] => rfl
  | b :: bs => by
    simp only [Branch.reviseList, Branch.canonicalList, Branch.revise_canonical b,
      Branch.reviseList_canonical bs]

end

theorem Expr.beq_iff_revise {a b : Expr} :
    (a == b) = true ↔ a.revise .canonical = b.revise .canonical := by
  rw [Expr.revise_canonical, Expr.revise_canonical]
  exact Expr.beq_iff

theorem Revision.canonical_after_canonical : canonical.after canonical = canonical := by
  have literals : Literal.canonical ∘ Literal.canonical = Literal.canonical :=
    funext Literal.canonical_canonical
  have settings : Properties.canonical ∘ Properties.canonical = Properties.canonical :=
    funext Properties.canonical_canonical
  simp only [after, canonical, literals, settings]
  rfl

@[simp]
theorem Expr.canonical_canonical (e : Expr) : e.canonical.canonical = e.canonical := by
  rw [← Expr.revise_canonical, ← Expr.revise_canonical, Expr.revise_revise,
    Revision.canonical_after_canonical]

/-! ## Windows, relations and queries -/

theorem KsqlWindow.same_iff {a b : KsqlWindow} :
    (a == b) = true ↔ a.revise .canonical = b.revise .canonical := by
  show same a b = true ↔ _
  simp [same, revise, Revision.canonical]

theorem Window.same_iff {a b : Window} :
    (a == b) = true ↔ a.revise .canonical = b.revise .canonical := by
  show same a b = true ↔ _
  simp [same, revise, Revision.canonical, KsqlWindow.same_iff]

theorem Within.same_iff {a b : Within} :
    (a == b) = true ↔ a.revise .canonical = b.revise .canonical := by
  show same a b = true ↔ _
  simp [same, revise, Revision.canonical]

theorem JoinCriteria.same_iff {a b : JoinCriteria} :
    (a == b) = true ↔ a.revise .canonical = b.revise .canonical := by
  show same a b = true ↔ _
  cases a
  cases b
  simp [same, revise, Expr.beq_iff_revise]

theorem Relation.same_iff {a b : Relation} :
    (a == b) = true ↔ a.revise .canonical = b.revise .canonical := by
  show same a b = true ↔ _
  induction a generalizing b with
  | table l n => cases b <;> simp [same, revise, Revision.canonical]
  | aliased l a newName ih => cases b <;> simp [same, revise, Revision.canonical, ih]
  | join l t a a' c w? ih ih' =>
    cases b <;> simp [same, revise, Revision.canonical, ih, ih', JoinCriteria.same_iff,
      option_beq_iff Within.same_iff, and_assoc]

theorem SelectItem.same_iff {a b : SelectItem} :
    (a == b) = true ↔ a.revise .canonical = b.revise .canonical := by
  show same a b = true ↔ _
  cases a <;> cases b <;> simp [same, revise, Revision.canonical, Expr.beq_iff_revise]

theorem Select.same_iff {a b : Select} :
    (a == b) = true ↔ a.revise .canonical = b.revise .canonical := by
  show same a b = true ↔ _
  simp [same, revise, Revision.canonical, list_beq_iff SelectItem.same_iff]

theorem GroupingElement.same_iff {a b : GroupingElement} :
    (a == b) = true ↔ a.revise .canonical = b.revise .canonical := by
  have columns := @list_beq_iff _ _ _ _ @Expr.beq_iff_revise
  show same a b = true ↔ _
  cases a <;> cases b <;>
    simp [same, revise, Revision.canonical, columns, list_beq_iff columns]

theorem GroupBy.same_iff {a b : GroupBy} :
    (a == b) = true ↔ a.revise .canonical = b.revise .canonical := by
  show same a b = true ↔ _
  simp [same, revise, Revision.canonical, list_beq_iff GroupingElement.same_iff]

theorem Query.same_iff {a b : Query} :
    (a == b) = true ↔ a.revise .canonical = b.revise .canonical := by
  show same a b = true ↔ _
  simp [same, revise, Revision.canonical, Select.same_iff, Relation.same_iff,
    option_beq_iff Window.same_iff, option_beq_iff @Expr.beq_iff_revise,
    option_beq_iff GroupBy.same_iff, and_assoc]

/-! ## Statements -/

theorem TableElement.same_iff {a b : TableElement} :
    (a == b) = true ↔ a.revise .canonical = b.revise .canonical := by
  show same a b = true ↔ _
  simp [same, revise, Revision.canonical, and_assoc]

mutual

/-- No settings inside give a key twice. -/
def Statement.DistinctKeys : Statement → Prop
  | .several _ ss => Statement.DistinctKeysList ss
  | .create _ _ _ _ _ p | .createStreamAs _ _ _ _ p _ | .createTableAs _ _ _ _ p
  | .createConnector _ _ p _ => p.keys.Nodup
  | .insertInto .. | .dropTable .. | .query _ => True
termination_by structural s => s

def Statement.DistinctKeysList : List Statement → Prop
  | [] => True
  | s :: ss => s.DistinctKeys ∧ Statement.DistinctKeysList ss
termination_by structural ss => ss

end

mutual

theorem Statement.same_iff : ∀ {a b : Statement}, a.DistinctKeys → b.DistinctKeys →
    (a.same b = true ↔ a.revise .canonical = b.revise .canonical)
  | .several .., b, ha, hb => by
    cases b with
    | several => simp [same, revise, Revision.canonical, Statement.sameList_iff ha hb]
    | _ => simp [same, revise]
  | .create .., b, ha, hb => by
    cases b with
    | create =>
      simp [same, revise, Revision.canonical, list_beq_iff TableElement.same_iff,
        Properties.same_iff ha hb, and_assoc]
    | _ => simp [same, revise]
  | .createStreamAs .., b, ha, hb => by
    cases b with
    | createStreamAs =>
      simp [same, revise, Revision.canonical, Query.same_iff, Properties.same_iff ha hb,
        option_beq_iff @Expr.beq_iff_revise, and_assoc]
    | _ => simp [same, revise]
  | .createTableAs .., b, ha, hb => by
    cases b with
    | createTableAs =>
      simp [same, revise, Revision.canonical, Query.same_iff, Properties.same_iff ha hb,
        and_assoc]
    | _ => simp [same, revise]
  | .insertInto .., b, _, _ => by
    cases b with
    | insertInto =>
      simp [same, revise, Revision.canonical, Query.same_iff,
        option_beq_iff @Expr.beq_iff_revise, and_assoc]
    | _ => simp [same, revise]
  | .dropTable .., b, _, _ => by
    cases b with
    | dropTable => simp [same, revise, Revision.canonical, and_assoc]
    | _ => simp [same, revise]
  | .createConnector .., b, ha, hb => by
    cases b with
    | createConnector =>
      simp [same, revise, Revision.canonical, Properties.same_iff ha hb, and_assoc]
    | _ => simp [same, revise]
  | .query _, b, _, _ => by
    cases b with
    | query => simp [same, revise, Query.same_iff]
    | _ => simp [same, revise]

theorem Statement.sameList_iff : ∀ {as bs : List Statement}, Statement.DistinctKeysList as →
    Statement.DistinctKeysList bs → (Statement.sameList as bs = true ↔
      Statement.reviseList .canonical as = Statement.reviseList .canonical bs)
  | [], bs, _, _ => by cases bs <;> simp [sameList, reviseList]
  | a :: as, bs, ha, hb => by
    cases bs with
    | nil => simp [sameList, reviseList]
    | cons b bs =>
      simp [sameList, reviseList, Statement.same_iff ha.1 hb.1, Statement.sameList_iff ha.2 hb.2]

end

mutual

theorem Statement.distinctKeys_unplaced : ∀ s : Statement,
    (s.revise .unplaced).DistinctKeys ↔ s.DistinctKeys
  | .several _ ss => by
    simp only [revise, DistinctKeys, Statement.distinctKeysList_unplaced ss]
  | .create .. | .createStreamAs .. | .createTableAs .. | .createConnector .. => Iff.rfl
  | .insertInto .. | .dropTable .. | .query _ => Iff.rfl

theorem Statement.distinctKeysList_unplaced : ∀ ss : List Statement,
    Statement.DistinctKeysList (Statement.reviseList .unplaced ss) ↔
      Statement.DistinctKeysList ss
  | [] => Iff.rfl
  | s :: ss => by
    simp only [reviseList, DistinctKeysList, Statement.distinctKeys_unplaced s,
      Statement.distinctKeysList_unplaced ss]

end

mutual

theorem Statement.Valid.distinctKeys : ∀ {s : Statement}, s.Valid → s.DistinctKeys
  | .several _ _, h => Statement.distinctKeysList_of_valid h
  | .create .., h => h.2.2.1
  | .createStreamAs .., h => h.2.2.1.1
  | .createTableAs .., h => h.2.2.1
  | .createConnector .., h => h.2.1
  | .insertInto .., _ | .dropTable .., _ | .query _, _ => trivial

theorem Statement.distinctKeysList_of_valid : ∀ {ss : List Statement},
    Statement.ValidList ss → Statement.DistinctKeysList ss
  | [], _ => trivial
  | _ :: _, h => ⟨Statement.Valid.distinctKeys h.1, Statement.distinctKeysList_of_valid h.2⟩

end

/-! ## Nodes -/

namespace Node

/-- The node without locations, with its settings in the order of their keys and doubles that stand
for all that are the same. -/
def canonical (n : Node) : Node := n.revise .canonical

/-- The node without locations. -/
def unplaced (n : Node) : Node := n.revise .unplaced

/-- No settings inside give a key twice. -/
def DistinctKeys : Node → Prop
  | statement s => s.DistinctKeys
  | _ => True

/-- What the checked constructors build gives no key of its settings twice. -/
theorem Valid.distinctKeys {n : Node} (h : n.Valid) : n.DistinctKeys := by
  cases n with
  | statement s => exact Statement.Valid.distinctKeys h
  | _ => trivial

/-- Nodes are the same exactly when their canonical forms are equal. -/
theorem same_iff {a b : Node} (ha : a.DistinctKeys) (hb : b.DistinctKeys) :
    (a == b) = true ↔ a.canonical = b.canonical := by
  show same a b = true ↔ _
  unfold canonical
  cases a with
  | statement x =>
    cases b with
    | statement y =>
      show Statement.same x y = true ↔ statement _ = statement _
      rw [Statement.same_iff ha hb, statement.injEq]
    | _ => simp [same, revise]
  | expression => cases b <;> simp [same, revise, Expr.beq_iff_revise]
  | relation => cases b <;> simp [same, revise, Relation.same_iff]
  | select => cases b <;> simp [same, revise, Select.same_iff]
  | selectItem => cases b <;> simp [same, revise, SelectItem.same_iff]
  | groupBy => cases b <;> simp [same, revise, GroupBy.same_iff]
  | groupingElement => cases b <;> simp [same, revise, GroupingElement.same_iff]
  | window => cases b <;> simp [same, revise, Window.same_iff]
  | ksqlWindow => cases b <;> simp [same, revise, KsqlWindow.same_iff]
  | within => cases b <;> simp [same, revise, Within.same_iff]
  | tableElement => cases b <;> simp [same, revise, TableElement.same_iff]

theorem canonical_unplaced (n : Node) : n.unplaced.canonical = n.canonical :=
  n.revise_revise .canonical .unplaced

theorem distinctKeys_unplaced (n : Node) : n.unplaced.DistinctKeys ↔ n.DistinctKeys := by
  cases n with
  | statement s => exact s.distinctKeys_unplaced
  | _ => exact Iff.rfl

theorem unplaced_withLocation (l : Location) (n : Node) :
    (n.withLocation l).unplaced = n.unplaced := by
  cases n with
  | statement s => cases s <;> rfl
  | expression e =>
    cases e with
    | list xs => cases xs; rfl
    | branch b => cases b; rfl
    | _ => rfl
  | relation x => cases x <;> rfl
  | selectItem i => cases i <;> rfl
  | groupingElement g => cases g <;> rfl
  | _ => rfl

/-- Nodes that differ in locations only, at whatever depth, are the same as the same nodes. -/
theorem same_of_unplaced_eq {a a' b : Node} (ha : a.DistinctKeys) (hb : b.DistinctKeys)
    (h : a.unplaced = a'.unplaced) : (a == b) = (a' == b) ∧ (b == a) = (b == a') := by
  have ha' : a'.DistinctKeys := by
    rw [← distinctKeys_unplaced, ← h]
    exact a.distinctKeys_unplaced.mpr ha
  have canonical_eq : a.canonical = a'.canonical := by
    rw [← canonical_unplaced, h, canonical_unplaced]
  constructor
  · rw [Bool.eq_iff_iff, same_iff ha hb, same_iff ha' hb, canonical_eq]
  · rw [Bool.eq_iff_iff, same_iff hb ha, same_iff hb ha', canonical_eq]

end Node

/-- Equality is equality of canonical forms, of nodes, literals, settings, types and declared
columns. It is an equivalence on nodes, and changing locations anywhere inside a node does not
change what the node is equal to. -/
theorem same_iff_canonical :
    (∀ a b : Node, a.DistinctKeys → b.DistinctKeys →
      ((a == b) = true ↔ a.canonical = b.canonical)) ∧
    (∀ a b : Literal, (a == b) = true ↔ a.canonical = b.canonical) ∧
    (∀ p q : Properties, p.keys.Nodup → q.keys.Nodup →
      ((p == q) = true ↔ p.canonical = q.canonical)) ∧
    (∀ s t : SqlType, (s == t) = true ↔ s = t) ∧
    (∀ es fs : List TableElement, (es == fs) = true ↔
      es.map (TableElement.revise .canonical) = fs.map (TableElement.revise .canonical)) ∧
    (∀ a : Node, a.revise .keep = a) ∧
    (∀ a : Node, a.DistinctKeys → (a == a) = true) ∧
    (∀ a b : Node, a.DistinctKeys → b.DistinctKeys → (a == b) = true → (b == a) = true) ∧
    (∀ a b c : Node, a.DistinctKeys → b.DistinctKeys → c.DistinctKeys →
      (a == b) = true → (b == c) = true → (a == c) = true) ∧
    (∀ a a' b : Node, a.DistinctKeys → b.DistinctKeys → a.unplaced = a'.unplaced →
      (a == b) = (a' == b) ∧ (b == a) = (b == a')) ∧
    ∀ (l : Location) (a : Node), (a.withLocation l).unplaced = a.unplaced := by
  refine ⟨fun _ _ => Node.same_iff, fun _ _ => Literal.same_iff, fun _ _ => Properties.same_iff,
    fun _ _ => SqlType.same_iff_eq, fun _ _ => list_beq_iff TableElement.same_iff,
    Node.revise_keep, ?_, ?_, ?_, fun _ _ _ => Node.same_of_unplaced_eq,
    Node.unplaced_withLocation⟩
  · intro a ha
    exact (Node.same_iff ha ha).mpr rfl
  · intro a b ha hb hab
    exact (Node.same_iff hb ha).mpr ((Node.same_iff ha hb).mp hab).symm
  · intro a b c ha hb hc hab hbc
    exact (Node.same_iff ha hc).mpr
      (((Node.same_iff ha hb).mp hab).trans ((Node.same_iff hb hc).mp hbc))

/-- A connector with two numbers among its settings. -/
def connectorAt (l : Location) (first second : String × Double) : Node :=
  .statement (.createConnector l "c" ⟨[(first.1, .double first.2), (second.1, .double second.2)]⟩
    .source)

/-- Zero comes last. -/
def zeroLast : Node := connectorAt (.of 1 2) ("b", .nan) ("a", .zero)

/-- Zero comes first and has a sign, and it is another not-a-number that comes last. -/
def zeroFirst : Node :=
  connectorAt .unknown ("a", ⟨0x8000000000000000⟩) ("b", ⟨0xFFF0000000000001⟩)

theorem same_iff_canonical_connectors :
    zeroLast.canonical = zeroFirst.canonical ∧ (zeroLast == zeroLast) = true ∧
      (zeroFirst == zeroLast) = true ∧ (zeroFirst == zeroFirst) = true ∧
      (zeroLast.withLocation .unknown == zeroFirst) = (zeroLast == zeroFirst) ∧
      Properties.canonical ⟨[("b", .null), ("a", .null)]⟩ =
        Properties.canonical ⟨[("a", .null), ("b", .null)]⟩ := by
  have last : ["b", "a"].Nodup := by decide
  have first : ["a", "b"].Nodup := by decide
  have same : (zeroLast == zeroFirst) = true := by decide
  obtain ⟨node, -, settings, -, -, -, refl, symm, trans, moved, placed⟩ := same_iff_canonical
  have back := symm zeroLast zeroFirst last first same
  have unplaced := placed .unknown zeroLast
  refine ⟨(node zeroLast zeroFirst last first).mp same, refl zeroLast last, back,
    trans zeroFirst zeroLast zeroFirst first last first back same,
    (moved zeroLast _ zeroFirst last first unplaced.symm).1.symm, ?_⟩
  exact (settings ⟨[("b", .null), ("a", .null)]⟩ ⟨[("a", .null), ("b", .null)]⟩ last first).mp
    (by decide)

end SqlTree
