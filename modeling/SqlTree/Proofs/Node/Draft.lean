import SqlTree.Draft
import SqlTree.Proofs.Expr.Draft
import SqlTree.Proofs.Properties.Insert

/-!
# Nodes built from their drafts

A node of any family comes back from its own draft exactly if it is valid, with all that is in it:
the same places, the same order of settings and of children, the same doubles.
-/

namespace SqlTree

/-! ## Settings, windows and columns -/

namespace Properties

theorem build_iff {p : Properties} : build p.entries = .ok p ↔ p.Valid := by
  have entry (e e' : String × Literal) :
      (e.2.check >>= fun value => pure (e.1, value) : Except Violation _) = .ok e' ↔
        e.2.Valid ∧ e = e' := by
    rcases e with ⟨key, value⟩
    simp only [Except.bind_eq_ok, Except.pure_eq_ok, Literal.check_eq_ok]
    constructor
    · rintro ⟨a, ⟨rfl, valid⟩, rfl⟩
      exact ⟨valid, rfl⟩
    · rintro ⟨valid, rfl⟩
      exact ⟨value, ⟨rfl, valid⟩, rfl⟩
  simp only [build, Except.bind_eq_ok, Except.pure_eq_ok, Except.mapM_eq_ok, entry,
    List.forall₂_and_left, List.forall₂_eq_eq_eq, Properties.Valid, ← of_entries_iff]
  constructor
  · rintro ⟨_, ⟨values, rfl⟩, unique⟩
    exact ⟨unique, values⟩
  · rintro ⟨unique, values⟩
    exact ⟨p.entries, ⟨values, rfl⟩, unique⟩

end Properties

theorem Window.map_build (w? : Option Window) : w?.map build = w? := by
  cases w? <;> rfl

theorem Within.map_build (w? : Option Within) : w?.map build = w? := by
  cases w? <;> rfl

theorem TableElement.build_iff (e : TableElement) : e.build = .ok e ↔ e.Valid := by
  rcases e with ⟨l, role, name, type⟩
  have column := SqlType.build_iff type
  rw [TableElement.Valid, ← column]
  simp [-bind_pure_comp, build, Except.bind_eq_ok, of_eq_ok, and_comm]

/-! ## Relations and queries -/

theorem Relation.build_draft_iff : ∀ r : Relation, r.draft.build = .ok r ↔ r.Valid
  | table l n => by
    rw [Relation.Valid, ← Name.of_parts_iff]
    simp [-bind_pure_comp, draft, Draft.build, Except.bind_eq_ok, withLocation]
  | aliased l r newName => by
    rw [Relation.Valid, ← build_draft_iff r]
    simp [-bind_pure_comp, draft, Draft.build, Except.bind_eq_ok, aliasedOf_eq_ok, withLocation]
  | join l type a b (.on condition) within? => by
    rw [Relation.Valid, JoinCriteria.Valid, ← build_draft_iff a, ← build_draft_iff b,
      ← Expr.build_draft_iff condition]
    simp [-bind_pure_comp, draft, Draft.build, Except.bind_eq_ok, withLocation, Within.map_build]

theorem SelectItem.build_draft_iff (i : SelectItem) : i.draft.build = .ok i ↔ i.Valid := by
  cases i with
  | single l e newName? =>
    rw [SelectItem.Valid, ← Expr.build_draft_iff e]
    simp [-bind_pure_comp, draft, Draft.build, Except.bind_eq_ok, withLocation]
  | all l qualifier? =>
    have qualifier : (qualifier?.map Name.parts).mapM Name.of = .ok qualifier? ↔
        ∀ n ∈ qualifier?, n.Valid := by
      simp only [Except.option_mapM_map_eq_ok, Name.of_parts_iff]
    rw [SelectItem.Valid, ← qualifier]
    simp [-bind_pure_comp, draft, Draft.build, Except.bind_eq_ok, withLocation]

theorem Select.build_draft_iff (s : Select) : s.draft.build = .ok s ↔ s.Valid := by
  rcases s with ⟨l, items⟩
  have each : (items.map SelectItem.draft).mapM SelectItem.Draft.build = .ok items ↔
      ∀ i ∈ items, i.Valid := by
    simp only [Except.mapM_map_eq_ok, SelectItem.build_draft_iff]
  rw [Select.Valid, ← each]
  simp [-bind_pure_comp, draft, Draft.build, Except.bind_eq_ok]

namespace GroupingElement

theorem columns_iff {columns : List Expr} :
    Expr.Draft.buildList (Expr.draftList columns) = .ok columns ↔ ∀ c ∈ columns, c.Valid :=
  (Expr.build_draftList_iff columns).trans Expr.validList_iff

theorem build_draft_iff (g : GroupingElement) : g.draft.build = .ok g ↔ g.Valid := by
  cases g with
  | simple l columns =>
    rw [GroupingElement.Valid, ← columns_iff]
    simp [-bind_pure_comp, draft, Draft.build, Except.bind_eq_ok, withLocation]
  | rollup l columns =>
    rw [GroupingElement.Valid, ← columns_iff]
    simp [-bind_pure_comp, draft, Draft.build, Except.bind_eq_ok, withLocation]
  | cube l columns =>
    rw [GroupingElement.Valid, ← columns_iff]
    simp [-bind_pure_comp, draft, Draft.build, Except.bind_eq_ok, cubeOf_eq_ok, withLocation,
      and_comm]
  | sets l ss =>
    have each : (ss.map Expr.draftList).mapM Expr.Draft.buildList = .ok ss ↔
        ∀ s ∈ ss, ∀ c ∈ s, c.Valid := by
      simp only [Except.mapM_map_eq_ok, columns_iff]
    rw [GroupingElement.Valid, ← each]
    simp [-bind_pure_comp, draft, Draft.build, Except.bind_eq_ok, withLocation]

end GroupingElement

theorem GroupBy.build_draft_iff (g : GroupBy) : g.draft.build = .ok g ↔ g.Valid := by
  rcases g with ⟨l, elements⟩
  have each : (elements.map GroupingElement.draft).mapM GroupingElement.Draft.build =
      .ok elements ↔ ∀ e ∈ elements, e.Valid := by
    simp only [Except.mapM_map_eq_ok, GroupingElement.build_draft_iff]
  rw [GroupBy.Valid, ← each]
  simp [-bind_pure_comp, draft, Draft.build, Except.bind_eq_ok]

theorem Expr.option_build_draft_iff {e? : Option Expr} :
    (e?.map draft).mapM Draft.build = .ok e? ↔ ∀ e ∈ e?, e.Valid := by
  simp only [Except.option_mapM_map_eq_ok, build_draft_iff]

theorem Query.valid_iff {q : Query} : q.Valid ↔ q.select.Valid ∧ q.source.Valid ∧
    (∀ e ∈ q.filter?, e.Valid) ∧ (∀ g ∈ q.groupBy?, g.Valid) ∧ ∀ e ∈ q.having?, e.Valid :=
  ⟨fun h => ⟨h.select, h.source, h.filter, h.groupBy, h.having⟩,
    fun ⟨select, source, filter, groupBy, having⟩ => ⟨select, source, filter, groupBy, having⟩⟩

theorem Query.build_draft_iff (q : Query) : q.draft.build = .ok q ↔ q.Valid := by
  rcases q with ⟨l, select, source, window?, filter?, groupBy?, having?, limit?⟩
  have grouping : (groupBy?.map GroupBy.draft).mapM GroupBy.Draft.build = .ok groupBy? ↔
      ∀ g ∈ groupBy?, g.Valid := by
    simp only [Except.option_mapM_map_eq_ok, GroupBy.build_draft_iff]
  rw [Query.valid_iff, ← Select.build_draft_iff, ← Relation.build_draft_iff,
    ← Expr.option_build_draft_iff, ← Expr.option_build_draft_iff, ← grouping]
  simp [-bind_pure_comp, draft, Draft.build, Except.bind_eq_ok, Window.map_build]

/-! ## Statements and nodes -/

namespace Statement

theorem buildCollection_iff {collection : Collection} {l : Location} {n : Name}
    {elements : List TableElement} {notExists : Bool} {p : Properties} :
    buildCollection collection l n.parts elements notExists p.entries =
        .ok (create l collection n elements notExists p) ↔
      n.Valid ∧ (∀ e ∈ elements, e.Valid) ∧ p.Valid := by
  have columns : elements.mapM TableElement.build = .ok elements ↔ ∀ e ∈ elements, e.Valid := by
    simp only [Except.mapM_eq_ok, List.forall₂_same, TableElement.build_iff]
  rw [← Name.of_parts_iff, ← columns, ← Properties.build_iff]
  simp [-bind_pure_comp, buildCollection, Except.bind_eq_ok, withLocation]

mutual

theorem build_draft_iff : ∀ s : Statement, s.draft.build = .ok s ↔ s.Valid
  | several l ss => by
    rw [Statement.Valid, ← build_draftList_iff ss]
    simp [-bind_pure_comp, draft, Draft.build, Except.bind_eq_ok, withLocation]
  | create l .stream n es i p => by
    rw [draft, Draft.build, buildCollection_iff, Statement.Valid]
  | create l .table n es i p => by
    rw [draft, Draft.build, buildCollection_iff, Statement.Valid]
  | createStreamAs l n q i p e? => by
    rw [Statement.Valid, ← Name.of_parts_iff, ← Query.build_draft_iff, ← Properties.build_iff,
      ← Expr.option_build_draft_iff]
    simp [-bind_pure_comp, draft, Draft.build, Except.bind_eq_ok, withLocation]
  | createTableAs l n q i p => by
    rw [Statement.Valid, ← Name.of_parts_iff, ← Query.build_draft_iff, ← Properties.build_iff]
    simp [-bind_pure_comp, draft, Draft.build, Except.bind_eq_ok, withLocation]
  | insertInto l t q e? => by
    rw [Statement.Valid, ← Name.of_parts_iff, ← Query.build_draft_iff,
      ← Expr.option_build_draft_iff]
    simp [-bind_pure_comp, draft, Draft.build, Except.bind_eq_ok, withLocation]
  | dropTable l n i d => by
    rw [Statement.Valid, ← Name.of_parts_iff]
    simp [-bind_pure_comp, draft, Draft.build, Except.bind_eq_ok, withLocation]
  | createConnector l n p t => by
    rw [Statement.Valid, ← Properties.build_iff]
    simp [-bind_pure_comp, draft, Draft.build, Except.bind_eq_ok, connectorOf_eq_ok, withLocation,
      and_comm]
  | query q => (Except.bind_pure_eq_ok query.inj).trans q.build_draft_iff

theorem build_draftList_iff : ∀ ss : List Statement,
    Draft.buildList (draftList ss) = .ok ss ↔ ValidList ss
  | [] => iff_of_true rfl trivial
  | s :: ss => by
    rw [ValidList, ← build_draft_iff s, ← build_draftList_iff ss]
    simp [-bind_pure_comp, draftList, Draft.buildList, Except.bind_eq_ok]

end

end Statement

/-- Taken apart into all that can be asked of it and of what is in it, and built anew with the
constructors from the inside out, each part put where it stood, a node comes back as it was. No
constructor refuses a part of a valid node; for a node that breaks a rule, one does. -/
theorem Node.build_draft_eq_ok_iff (n : Node) : n.draft.build = .ok n ↔ n.Valid := by
  cases n with
  | statement s => exact (Except.bind_pure_eq_ok statement.inj).trans s.build_draft_iff
  | expression e => exact (Except.bind_pure_eq_ok expression.inj).trans e.build_draft_iff
  | relation r => exact (Except.bind_pure_eq_ok relation.inj).trans r.build_draft_iff
  | select s => exact (Except.bind_pure_eq_ok select.inj).trans s.build_draft_iff
  | selectItem i => exact (Except.bind_pure_eq_ok selectItem.inj).trans i.build_draft_iff
  | groupBy g => exact (Except.bind_pure_eq_ok groupBy.inj).trans g.build_draft_iff
  | groupingElement g => exact (Except.bind_pure_eq_ok groupingElement.inj).trans g.build_draft_iff
  | tableElement e => exact (Except.bind_pure_eq_ok tableElement.inj).trans e.build_iff
  | window | ksqlWindow | within => exact iff_of_true rfl trivial

end SqlTree
