import SqlTree.Proofs.Grouping.Sets
import SqlTree.Proofs.Node.Substituted
import SqlTree.Proofs.Node.Validity

/-!
# Mapped nodes

A map on expressions can be carried out on a node: on every expression in it that is no part of
another expression and of no condition of a join. All else of the node stays. Two maps, one after
the other, are one map.
-/

namespace SqlTree

section Definitions

variable (f : Expr → Expr)

def SelectItem.mapExprs : SelectItem → SelectItem
  | single l e newName? => single l (f e) newName?
  | all l qualifier? => all l qualifier?

def Select.mapExprs (s : Select) : Select :=
  { s with items := s.items.map (SelectItem.mapExprs f) }

def GroupingElement.mapExprs : GroupingElement → GroupingElement
  | simple l cs => simple l (cs.map f)
  | rollup l cs => rollup l (cs.map f)
  | cube l cs => cube l (cs.map f)
  | sets l ss => sets l (ss.map (List.map f))

def GroupBy.mapExprs (g : GroupBy) : GroupBy :=
  { g with elements := g.elements.map (GroupingElement.mapExprs f) }

/-- The relation stays, and so do the conditions of joins in it. -/
def Query.mapExprs (q : Query) : Query :=
  { q with
    select := q.select.mapExprs f
    filter? := q.filter?.map f
    groupBy? := q.groupBy?.map (GroupBy.mapExprs f)
    having? := q.having?.map f }

mutual

def Statement.mapExprs : Statement → Statement
  | .several l ss => .several l (Statement.mapExprsList ss)
  | .create l c n es i p => .create l c n es i p
  | .createStreamAs l n q i p e? => .createStreamAs l n (q.mapExprs f) i p (e?.map f)
  | .createTableAs l n q i p => .createTableAs l n (q.mapExprs f) i p
  | .insertInto l t q e? => .insertInto l t (q.mapExprs f) (e?.map f)
  | .dropTable l n i d => .dropTable l n i d
  | .createConnector l n p t => .createConnector l n p t
  | .query q => .query (q.mapExprs f)
termination_by structural s => s

def Statement.mapExprsList : List Statement → List Statement
  | [] => []
  | s :: ss => s.mapExprs :: Statement.mapExprsList ss
termination_by structural ss => ss

end

/-- The node with every expression mapped that is no part of another one. -/
def Node.mapExprs : Node → Node
  | statement s => statement (s.mapExprs f)
  | expression e => expression (f e)
  | relation r => relation r
  | select s => select (s.mapExprs f)
  | selectItem i => selectItem (i.mapExprs f)
  | groupBy g => groupBy (g.mapExprs f)
  | groupingElement g => groupingElement (g.mapExprs f)
  | window w => window w
  | ksqlWindow w => ksqlWindow w
  | within w => within w
  | tableElement e => tableElement e

end Definitions

/-! ## Two maps are one -/

section Laws

variable (g f : Expr → Expr)

@[simp]
theorem Statement.mapExprsList_eq (ss : List Statement) :
    mapExprsList f ss = ss.map (mapExprs f) := by
  induction ss with
  | nil => rfl
  | cons s ss ih => rw [mapExprsList, ih, List.map_cons]

theorem SelectItem.mapExprs_mapExprs (i : SelectItem) :
    (i.mapExprs f).mapExprs g = i.mapExprs (g ∘ f) := by
  cases i <;> rfl

theorem Select.mapExprs_mapExprs (s : Select) :
    (s.mapExprs f).mapExprs g = s.mapExprs (g ∘ f) := by
  simp [mapExprs, SelectItem.mapExprs_mapExprs]

theorem GroupingElement.mapExprs_mapExprs (e : GroupingElement) :
    (e.mapExprs f).mapExprs g = e.mapExprs (g ∘ f) := by
  cases e <;> simp [mapExprs]

theorem GroupBy.mapExprs_mapExprs (c : GroupBy) :
    (c.mapExprs f).mapExprs g = c.mapExprs (g ∘ f) := by
  simp [mapExprs, GroupingElement.mapExprs_mapExprs]

theorem Query.mapExprs_mapExprs (q : Query) : (q.mapExprs f).mapExprs g = q.mapExprs (g ∘ f) := by
  have groupings : GroupBy.mapExprs g ∘ GroupBy.mapExprs f = GroupBy.mapExprs (g ∘ f) :=
    funext (GroupBy.mapExprs_mapExprs g f)
  simp [mapExprs, Select.mapExprs_mapExprs, groupings]

mutual

theorem Statement.mapExprs_mapExprs : ∀ s : Statement,
    (s.mapExprs f).mapExprs g = s.mapExprs (g ∘ f)
  | .several _ ss => by
    simp only [Statement.mapExprs, Statement.mapExprsList_mapExprsList ss]
  | .createStreamAs .. | .insertInto .. => by
    simp only [Statement.mapExprs, Query.mapExprs_mapExprs, Option.map_map]
  | .createTableAs .. | .query _ => by simp only [Statement.mapExprs, Query.mapExprs_mapExprs]
  | .create .. | .dropTable .. | .createConnector .. => rfl

theorem Statement.mapExprsList_mapExprsList : ∀ ss : List Statement,
    Statement.mapExprsList g (Statement.mapExprsList f ss) = Statement.mapExprsList (g ∘ f) ss
  | [] => rfl
  | s :: ss => by
    simp only [Statement.mapExprsList, Statement.mapExprs_mapExprs s,
      Statement.mapExprsList_mapExprsList ss]

end

theorem Node.mapExprs_mapExprs (n : Node) : (n.mapExprs f).mapExprs g = n.mapExprs (g ∘ f) := by
  cases n with
  | statement s => exact congrArg statement (s.mapExprs_mapExprs g f)
  | select s => exact congrArg select (s.mapExprs_mapExprs g f)
  | selectItem i => exact congrArg selectItem (i.mapExprs_mapExprs g f)
  | groupBy c => exact congrArg groupBy (c.mapExprs_mapExprs g f)
  | groupingElement e => exact congrArg groupingElement (e.mapExprs_mapExprs g f)
  | _ => rfl

theorem SelectItem.mapExprs_id (i : SelectItem) : i.mapExprs id = i := by cases i <;> rfl

theorem GroupingElement.mapExprs_id (e : GroupingElement) : e.mapExprs id = e := by
  cases e <;> simp [mapExprs]

theorem GroupBy.mapExprs_id (c : GroupBy) : c.mapExprs id = c := by
  simp [mapExprs, List.map_id'' GroupingElement.mapExprs_id]

theorem Query.mapExprs_id (q : Query) : q.mapExprs id = q := by
  have groupings : GroupBy.mapExprs id = id := funext GroupBy.mapExprs_id
  simp [mapExprs, Select.mapExprs, List.map_id'' SelectItem.mapExprs_id, groupings]

mutual

theorem Statement.mapExprs_id : ∀ s : Statement, s.mapExprs id = s
  | .several _ ss => by simp only [Statement.mapExprs, Statement.mapExprsList_id ss]
  | .createStreamAs .. | .insertInto .. => by
    simp only [Statement.mapExprs, Query.mapExprs_id, Option.map_id, id]
  | .createTableAs .. | .query _ => by simp only [Statement.mapExprs, Query.mapExprs_id]
  | .create .. | .dropTable .. | .createConnector .. => rfl

theorem Statement.mapExprsList_id : ∀ ss : List Statement, Statement.mapExprsList id ss = ss
  | [] => rfl
  | s :: ss => by
    simp only [Statement.mapExprsList, Statement.mapExprs_id s, Statement.mapExprsList_id ss]

end

theorem Node.mapExprs_id (n : Node) : n.mapExprs id = n := by
  cases n with
  | statement s => exact congrArg statement s.mapExprs_id
  | select s => simp [mapExprs, Select.mapExprs, List.map_id'' SelectItem.mapExprs_id]
  | selectItem i => exact congrArg selectItem i.mapExprs_id
  | groupBy c => exact congrArg groupBy c.mapExprs_id
  | groupingElement e => exact congrArg groupingElement e.mapExprs_id
  | _ => rfl

end Laws

/-! ## One level of an expression -/

variable {f : Expr → Expr}

/-- The expression with its direct parts mapped. -/
def Expr.mapParts (f : Expr → Expr) : Expr → Expr
  | literal l v => literal l v
  | column l n => column l n
  | unary l op e => unary l op (f e)
  | binary l op a b => binary l op (f a) (f b)
  | between l v a b => between l (f v) (f a) (f b)
  | isIn l v xs => isIn l (f v) ⟨xs.location, xs.values.map f⟩
  | call l n es => call l n (es.map f)
  | case l o? bs e? =>
    case l (o?.map f) (bs.map fun b => ⟨b.location, f b.condition, f b.result⟩) (e?.map f)
  | list xs => list ⟨xs.location, xs.values.map f⟩
  | branch b => branch ⟨b.location, f b.condition, f b.result⟩

/-- The node with all that stands in its slots mapped. -/
def Node.mapSlots (f : Expr → Expr) : Node → Node
  | expression e => expression (e.mapParts f)
  | n => n.mapExprs f

/-- Where the map changes no more of an expression than its parts, the slots are all there is. -/
theorem Node.mapSlots_eq_mapExprs {n : Node}
    (h : ∀ e, n = .expression e → f e = e.mapParts f) : n.mapSlots f = n.mapExprs f := by
  cases n with
  | expression e => rw [mapSlots, mapExprs, h e rfl]
  | _ => rfl

/-- Of a list and of a branch, the map changes no more than what stands in it. -/
structure Expr.KeepsForms (f : Expr → Expr) : Prop where
  list : ∀ xs, f (.list xs) = (Expr.list xs).mapParts f
  branch : ∀ b, f (.branch b) = (Expr.branch b).mapParts f

theorem Child.map_mapExprs_ofExpr (es : List Expr) :
    (es.map ofExpr).map (fun c => c.node.mapExprs f) = (es.map f).map .expression := by
  rw [List.map_map, List.map_map]
  rfl

theorem Child.map_mapExprs_toList (e? : Option Expr) :
    (e?.toList.map ofExpr).map (fun c => c.node.mapExprs f) =
      (e?.map f).toList.map .expression := by
  rw [map_mapExprs_ofExpr, Option.toList_map]

theorem Expr.rebuilt_mapParts (hf : KeepsForms f) (e : Expr) :
    e.Rebuilt (e.children.map fun c => c.node.mapExprs f) (e.mapParts f) := by
  cases e with
  | literal => exact .literal
  | column => exact .column
  | unary => exact .unary
  | binary => exact .binary
  | between => exact .between
  | isIn l v xs =>
    simp only [children, List.map_cons, List.map_nil, Child.ofExpr, Child.ofList, Node.mapExprs,
      hf.list]
    exact .isIn
  | call l n es =>
    rw [children, Child.map_mapExprs_ofExpr]
    exact .call (List.length_map _)
  | case l o? bs e? =>
    have branches : (bs.map Child.ofBranch).map (fun c => c.node.mapExprs f) =
        (bs.map fun b => ⟨b.location, f b.condition, f b.result⟩).map
          fun b => .expression (.branch b) := by
      simp [Child.ofBranch, Node.mapExprs, hf.branch, mapParts, Function.comp_def]
    rw [children, List.map_append, List.map_append, Child.map_mapExprs_toList, branches,
      Child.map_mapExprs_toList]
    exact .case Option.isSome_map (List.length_map _) Option.isSome_map
  | list xs =>
    rcases xs with ⟨l, es⟩
    rw [children, Child.map_mapExprs_ofExpr]
    exact .list (List.length_map _)
  | branch b =>
    cases b
    exact .branch

/-! ## What stands in the slots of a mapped node -/

theorem GroupingElement.rebuilt_mapExprs (e : GroupingElement) :
    e.Rebuilt (e.children.map fun c => c.node.mapExprs f) (e.mapExprs f) := by
  cases e with
  | simple l cs =>
    rw [children, Child.map_mapExprs_ofExpr]
    exact .simple (List.length_map _)
  | rollup l cs =>
    rw [children, Child.map_mapExprs_ofExpr]
    exact .rollup (List.length_map _)
  | cube l cs =>
    rw [children, Child.map_mapExprs_ofExpr]
    exact .cube (List.length_map _)
  | sets l ss =>
    rw [children, Child.map_mapExprs_ofExpr, List.map_flatten]
    refine .sets (List.forall₂_map_right_iff.mpr (List.forall₂_same.mpr ?_))
    exact fun s _ => List.length_map _

theorem Relation.map_mapExprs_children (r : Relation) :
    (r.children.map fun c => c.node.mapExprs f) = r.children.map Child.node := by
  cases r with
  | join =>
    simp [children, Child.ofRelation, Child.ofWithin, Node.mapExprs, Function.comp_def]
  | _ => rfl

theorem Query.rebuilt_mapExprs (q : Query) :
    q.Rebuilt (q.children.map fun c => c.node.mapExprs f) (q.mapExprs f) := by
  have windows : (q.window?.toList.map Child.ofWindow).map (fun c => c.node.mapExprs f) =
      q.window?.toList.map .window := by
    rw [List.map_map]
    rfl
  have groupings : (q.groupBy?.toList.map Child.ofGroupBy).map (fun c => c.node.mapExprs f) =
      (q.groupBy?.map (GroupBy.mapExprs f)).toList.map .groupBy := by
    rw [Option.toList_map, List.map_map, List.map_map]
    rfl
  simp only [children, List.map_append, windows, groupings, Child.map_mapExprs_toList]
  exact .query rfl Option.isSome_map Option.isSome_map Option.isSome_map

theorem Statement.rebuilt_mapExprs (s : Statement) :
    s.Rebuilt (s.children.map fun c => c.node.mapExprs f) (s.mapExprs f) := by
  cases s with
  | several l ss =>
    have statements : (ss.map Child.ofStatement).map (fun c => c.node.mapExprs f) =
        (ss.map (mapExprs f)).map .statement := by
      rw [List.map_map, List.map_map]
      rfl
    rw [children, mapExprs, mapExprsList_eq, statements]
    exact .several (List.length_map _)
  | create l c n es i p =>
    rw [children, List.map_map]
    exact .create rfl
  | createStreamAs =>
    rw [children, List.map_cons, Child.map_mapExprs_toList]
    exact .createStreamAs Option.isSome_map
  | createTableAs => exact .createTableAs
  | insertInto =>
    rw [children, List.map_cons, Child.map_mapExprs_toList]
    exact .insertInto Option.isSome_map
  | dropTable => exact .dropTable
  | createConnector => exact .createConnector
  | query q => exact .query q.rebuilt_mapExprs

/-- With what stands in its slots mapped, a node is the same form around other children. -/
theorem Node.rebuilt_mapSlots (hf : Expr.KeepsForms f) (n : Node) :
    n.Rebuilt (n.children.map fun c => c.node.mapExprs f) (n.mapSlots f) := by
  cases n with
  | statement s => exact .statement s.rebuilt_mapExprs
  | expression e => exact .expression (e.rebuilt_mapParts hf)
  | relation r =>
    have same := r.map_mapExprs_children (f := f)
    rw [children, same]
    exact .relation r.rebuilt_self
  | groupingElement e => exact .groupingElement e.rebuilt_mapExprs
  | select s =>
    rw [children, List.map_map]
    have same : (s.items.map (SelectItem.mapExprs f)).length = s.items.length := List.length_map _
    have items := Rebuilt.select (l := s.location) same
    rwa [List.map_map] at items
  | selectItem i =>
    cases i with
    | single => exact .selectItem .single
    | all => exact .selectItem .all
  | groupBy c =>
    rw [children, List.map_map]
    have same : (c.elements.map (GroupingElement.mapExprs f)).length = c.elements.length :=
      List.length_map _
    have elements := Rebuilt.groupBy (l := c.location) same
    rwa [List.map_map] at elements
  | window => exact .window
  | ksqlWindow => exact .ksqlWindow
  | within => exact .within
  | tableElement => exact .tableElement

/-! ## The columns of every `CUBE` -/

theorem GroupingElement.cubes_mapExprs (e : GroupingElement) :
    (e.mapExprs f).cubes = e.cubes.map (List.map f) := by
  cases e <;> rfl

theorem GroupBy.cubes_mapExprs (c : GroupBy) :
    (c.mapExprs f).cubes = c.cubes.map (List.map f) := by
  simp only [cubes, mapExprs, List.flatMap_map, List.map_flatMap, GroupingElement.cubes_mapExprs]

theorem Query.cubes_mapExprs (q : Query) : (q.mapExprs f).cubes = q.cubes.map (List.map f) := by
  rcases hg : q.groupBy? with _ | c
  · simp [cubes, mapExprs, hg]
  · simp [cubes, mapExprs, hg, c.cubes_mapExprs]

mutual

theorem Statement.cubes_mapExprs : ∀ s : Statement,
    (s.mapExprs f).cubes = s.cubes.map (List.map f)
  | .several _ ss => by simp only [Statement.mapExprs, Statement.cubes,
      Statement.cubesList_mapExprsList ss]
  | .createStreamAs _ _ q _ _ _ | .createTableAs _ _ q _ _ | .insertInto _ _ q _ | .query q => by
    simp only [Statement.mapExprs, Statement.cubes, q.cubes_mapExprs]
  | .create .. | .dropTable .. | .createConnector .. => rfl

theorem Statement.cubesList_mapExprsList : ∀ ss : List Statement,
    Statement.cubesList (Statement.mapExprsList f ss) = (Statement.cubesList ss).map (List.map f)
  | [] => rfl
  | s :: ss => by
    simp only [Statement.mapExprsList, Statement.cubesList, Statement.cubes_mapExprs s,
      Statement.cubesList_mapExprsList ss, List.map_append]

end

theorem Node.cubes_mapExprs (n : Node) : (n.mapExprs f).cubes = n.cubes.map (List.map f) := by
  cases n with
  | statement s => exact s.cubes_mapExprs
  | groupBy c => exact c.cubes_mapExprs
  | groupingElement e => exact e.cubes_mapExprs
  | _ => rfl

namespace Node

/-- No `CUBE` in the node has too many distinct columns. -/
def FewColumns (n : Node) : Prop :=
  ∀ columns ∈ n.cubes, (GroupingSet.of columns).length ≤ GroupingElement.cubeLimit

theorem fewColumns_iff {n : Node} : n.FewColumns ↔
    (∀ columns ∈ n.ownCube, (GroupingSet.of columns).length ≤ GroupingElement.cubeLimit) ∧
      ∀ c ∈ n.children, c.node.FewColumns := by
  rw [FewColumns, cubes_eq, List.forall_mem_append, List.forall_mem_flatMap]
  rfl

theorem FewColumns.child {n : Node} (h : n.FewColumns) {c : Child} (hc : c ∈ n.children) :
    c.node.FewColumns :=
  (fewColumns_iff.mp h).2 c hc

theorem FewColumns.recounted_eq {n : Node} (h : n.FewColumns) : n.recounted = .ok n := by
  refine recounted_of_few ?_
  rintro l columns rfl
  exact h columns List.mem_cons_self

theorem Valid.fewColumns {n : Node} (h : n.Valid) : n.FewColumns := by
  induction n using Node.childInduction with
  | step n ih =>
    refine fewColumns_iff.mpr ⟨?_, fun c hc => ih c hc (h.child hc)⟩
    intro columns hcs
    unfold ownCube at hcs
    split at hcs
    · obtain rfl := List.mem_singleton.mp hcs
      exact h.1
    · contradiction

theorem FewColumns.mapExprs (hf : ∀ a b : Expr, (a == b) = true → (f a == f b) = true) {n : Node}
    (h : n.FewColumns) : (n.mapExprs f).FewColumns := by
  intro columns hcs
  rw [cubes_mapExprs] at hcs
  obtain ⟨cs, mem, rfl⟩ := List.mem_map.mp hcs
  exact (GroupingSet.length_of_map_le hf cs).trans (h cs mem)

theorem FewColumns.mapSlots (hf : ∀ a b : Expr, (a == b) = true → (f a == f b) = true) {n : Node}
    (h : n.FewColumns) : (n.mapSlots f).FewColumns := by
  cases n with
  | expression => exact List.forall_mem_nil _
  | _ => exact h.mapExprs hf

end Node

end SqlTree
