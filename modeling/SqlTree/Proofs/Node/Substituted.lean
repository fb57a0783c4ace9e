import SqlTree.Proofs.Node.Rebuilt
import SqlTree.Rewrite.Replacement

/-!
# Replaced expressions

What replacing the outermost expressions that pass a test makes of a node, and which expressions
these are. Both are read off the form of the node: what does not pass the test is looked into, in
the order of the slots, and what passes it is not.
-/

namespace SqlTree

namespace Replacement

/-- What takes the place of a list where only lists may stand. The list stays if that is none. -/
def list (p : Replacement) (xs : InList) : InList :=
  match p.result (.list xs) with
  | .list ys => ys
  | _ => xs

/-- What takes the place of a branch where only branches may stand. The branch stays if that is
none. -/
def branch (p : Replacement) (b : Branch) : Branch :=
  match p.result (.branch b) with
  | .branch b' => b'
  | _ => b

end Replacement

/-! ## Nodes with other expressions in them -/

mutual

def Expr.substitute (p : Replacement) (e : Expr) : Expr :=
  if p.matching e then p.result e
  else
    match e with
    | .literal l v => .literal l v
    | .column l n => .column l n
    | .unary l op e => .unary l op (e.substitute p)
    | .binary l op a b => .binary l op (a.substitute p) (b.substitute p)
    | .between l v a b => .between l (v.substitute p) (a.substitute p) (b.substitute p)
    | .isIn l v xs => .isIn l (v.substitute p) (xs.substitute p)
    | .call l f es => .call l f (Expr.substituteList p es)
    | .case l o? bs e? =>
      .case l (Expr.substituteOption p o?) (Branch.substituteList p bs) (Expr.substituteOption p e?)
    | .list ⟨l, es⟩ => .list ⟨l, Expr.substituteList p es⟩
    | .branch ⟨l, c, r⟩ => .branch ⟨l, c.substitute p, r.substitute p⟩
termination_by structural e

def InList.substitute (p : Replacement) (xs : InList) : InList :=
  if p.matching (.list xs) then p.list xs
  else
    match xs with
    | ⟨l, es⟩ => ⟨l, Expr.substituteList p es⟩
termination_by structural xs

def Branch.substitute (p : Replacement) (b : Branch) : Branch :=
  if p.matching (.branch b) then p.branch b
  else
    match b with
    | ⟨l, c, r⟩ => ⟨l, c.substitute p, r.substitute p⟩
termination_by structural b

def Expr.substituteOption (p : Replacement) (e? : Option Expr) : Option Expr :=
  match e? with
  | none => none
  | some e => some (e.substitute p)
termination_by structural e?

def Expr.substituteList (p : Replacement) (es : List Expr) : List Expr :=
  match es with
  | [] => []
  | e :: es => e.substitute p :: Expr.substituteList p es
termination_by structural es

def Branch.substituteList (p : Replacement) (bs : List Branch) : List Branch :=
  match bs with
  | [] => []
  | b :: bs => b.substitute p :: Branch.substituteList p bs
termination_by structural bs

end

def SelectItem.substitute (p : Replacement) : SelectItem → SelectItem
  | single l e newName? => single l (e.substitute p) newName?
  | all l qualifier? => all l qualifier?

def Select.substitute (p : Replacement) (s : Select) : Select :=
  { s with items := s.items.map (SelectItem.substitute p) }

def GroupingElement.substitute (p : Replacement) : GroupingElement → GroupingElement
  | simple l cs => simple l (cs.map (Expr.substitute p))
  | rollup l cs => rollup l (cs.map (Expr.substitute p))
  | cube l cs => cube l (cs.map (Expr.substitute p))
  | sets l ss => sets l (ss.map fun s => s.map (Expr.substitute p))

def GroupBy.substitute (p : Replacement) (g : GroupBy) : GroupBy :=
  { g with elements := g.elements.map (GroupingElement.substitute p) }

/-- The relation stays: the conditions of joins are not looked into. -/
def Query.substitute (p : Replacement) (q : Query) : Query :=
  { q with
    select := q.select.substitute p
    filter? := q.filter?.map (Expr.substitute p)
    groupBy? := q.groupBy?.map (GroupBy.substitute p)
    having? := q.having?.map (Expr.substitute p) }

mutual

def Statement.substitute (p : Replacement) : Statement → Statement
  | .several l ss => .several l (Statement.substituteList p ss)
  | .createStreamAs l n q i properties e? =>
    .createStreamAs l n (q.substitute p) i properties (e?.map (Expr.substitute p))
  | .createTableAs l n q i properties => .createTableAs l n (q.substitute p) i properties
  | .insertInto l t q e? => .insertInto l t (q.substitute p) (e?.map (Expr.substitute p))
  | .query q => .query (q.substitute p)
  | s => s
termination_by structural s => s

def Statement.substituteList (p : Replacement) : List Statement → List Statement
  | [] => []
  | s :: ss => s.substitute p :: Statement.substituteList p ss
termination_by structural ss => ss

end

/-- The node with the outermost expressions that pass the test replaced. -/
def Node.substitute (p : Replacement) : Node → Node
  | statement s => statement (s.substitute p)
  | expression e => expression (e.substitute p)
  | select s => select (s.substitute p)
  | selectItem i => selectItem (i.substitute p)
  | groupBy g => groupBy (g.substitute p)
  | groupingElement g => groupingElement (g.substitute p)
  | n => n

/-! ## The expressions that are replaced -/

mutual

def Expr.replaced (p : Replacement) (e : Expr) : List Child :=
  if p.matching e then [.ofExpr e]
  else
    match e with
    | .literal .. | .column .. => []
    | .unary _ _ e => e.replaced p
    | .binary _ _ a b => a.replaced p ++ b.replaced p
    | .between _ v a b => v.replaced p ++ a.replaced p ++ b.replaced p
    | .isIn _ v xs => v.replaced p ++ xs.replaced p
    | .call _ _ es => Expr.replacedList p es
    | .case _ o? bs e? =>
      Expr.replacedOption p o? ++ Branch.replacedList p bs ++ Expr.replacedOption p e?
    | .list ⟨_, es⟩ => Expr.replacedList p es
    | .branch ⟨_, c, r⟩ => c.replaced p ++ r.replaced p
termination_by structural e

def InList.replaced (p : Replacement) (xs : InList) : List Child :=
  if p.matching (.list xs) then [.ofList xs]
  else
    match xs with
    | ⟨_, es⟩ => Expr.replacedList p es
termination_by structural xs

def Branch.replaced (p : Replacement) (b : Branch) : List Child :=
  if p.matching (.branch b) then [.ofBranch b]
  else
    match b with
    | ⟨_, c, r⟩ => c.replaced p ++ r.replaced p
termination_by structural b

def Expr.replacedOption (p : Replacement) (e? : Option Expr) : List Child :=
  match e? with
  | none => []
  | some e => e.replaced p
termination_by structural e?

def Expr.replacedList (p : Replacement) (es : List Expr) : List Child :=
  match es with
  | [] => []
  | e :: es => e.replaced p ++ Expr.replacedList p es
termination_by structural es

def Branch.replacedList (p : Replacement) (bs : List Branch) : List Child :=
  match bs with
  | [] => []
  | b :: bs => b.replaced p ++ Branch.replacedList p bs
termination_by structural bs

end

def SelectItem.replaced (p : Replacement) : SelectItem → List Child
  | single _ e _ => e.replaced p
  | all .. => []

def Select.replaced (p : Replacement) (s : Select) : List Child :=
  s.items.flatMap (SelectItem.replaced p)

def GroupingElement.replaced (p : Replacement) : GroupingElement → List Child
  | simple _ cs | rollup _ cs | cube _ cs => cs.flatMap (Expr.replaced p)
  | sets _ ss => ss.flatten.flatMap (Expr.replaced p)

def GroupBy.replaced (p : Replacement) (g : GroupBy) : List Child :=
  g.elements.flatMap (GroupingElement.replaced p)

def Query.replaced (p : Replacement) (q : Query) : List Child :=
  q.select.replaced p ++ q.filter?.toList.flatMap (Expr.replaced p) ++
    q.groupBy?.toList.flatMap (GroupBy.replaced p) ++ q.having?.toList.flatMap (Expr.replaced p)

mutual

def Statement.replaced (p : Replacement) : Statement → List Child
  | .several _ ss => Statement.replacedList p ss
  | .createStreamAs _ _ q _ _ e? | .insertInto _ _ q e? =>
    q.replaced p ++ e?.toList.flatMap (Expr.replaced p)
  | .createTableAs _ _ q _ _ | .query q => q.replaced p
  | _ => []
termination_by structural s => s

def Statement.replacedList (p : Replacement) : List Statement → List Child
  | [] => []
  | s :: ss => s.replaced p ++ Statement.replacedList p ss
termination_by structural ss => ss

end

/-- The outermost expressions that pass the test, in order and each in its slot. -/
def Node.replaced (p : Replacement) : Node → List Child
  | statement s => s.replaced p
  | expression e => e.replaced p
  | select s => s.replaced p
  | selectItem i => i.replaced p
  | groupBy g => g.replaced p
  | groupingElement g => g.replaced p
  | _ => []

/-! ## The columns of every `CUBE` -/

def GroupingElement.cubes : GroupingElement → List (List Expr)
  | cube _ cs => [cs]
  | _ => []

def GroupBy.cubes (g : GroupBy) : List (List Expr) := g.elements.flatMap GroupingElement.cubes

def Query.cubes (q : Query) : List (List Expr) := q.groupBy?.toList.flatMap GroupBy.cubes

mutual

def Statement.cubes : Statement → List (List Expr)
  | .several _ ss => Statement.cubesList ss
  | .createStreamAs _ _ q _ _ _ | .createTableAs _ _ q _ _ | .insertInto _ _ q _ | .query q =>
    q.cubes
  | _ => []
termination_by structural s => s

def Statement.cubesList : List Statement → List (List Expr)
  | [] => []
  | s :: ss => s.cubes ++ Statement.cubesList ss
termination_by structural ss => ss

end

/-- The columns of every `CUBE` in the node. There is none in an expression. -/
def Node.cubes : Node → List (List Expr)
  | statement s => s.cubes
  | groupBy g => g.cubes
  | groupingElement g => g.cubes
  | _ => []

/-! ## Lists and options -/

section Lists

variable (p : Replacement)

theorem Expr.substituteOption_eq (e? : Option Expr) :
    substituteOption p e? = e?.map (substitute p) := by
  cases e? <;> rfl

theorem Expr.substituteList_eq (es : List Expr) :
    substituteList p es = es.map (substitute p) := by
  induction es with
  | nil => rfl
  | cons e es ih => rw [substituteList, ih, List.map_cons]

theorem Branch.substituteList_eq (bs : List Branch) :
    substituteList p bs = bs.map (substitute p) := by
  induction bs with
  | nil => rfl
  | cons b bs ih => rw [substituteList, ih, List.map_cons]

theorem Statement.substituteList_eq (ss : List Statement) :
    substituteList p ss = ss.map (substitute p) := by
  induction ss with
  | nil => rfl
  | cons s ss ih => rw [substituteList, ih, List.map_cons]

theorem Expr.replacedOption_eq (e? : Option Expr) :
    replacedOption p e? = e?.toList.flatMap (replaced p) := by
  cases e? <;> simp [replacedOption]

theorem Expr.replacedList_eq (es : List Expr) :
    replacedList p es = es.flatMap (replaced p) := by
  induction es with
  | nil => rfl
  | cons e es ih => rw [replacedList, ih, List.flatMap_cons]

theorem Branch.replacedList_eq (bs : List Branch) :
    replacedList p bs = bs.flatMap (replaced p) := by
  induction bs with
  | nil => rfl
  | cons b bs ih => rw [replacedList, ih, List.flatMap_cons]

theorem Statement.replacedList_eq (ss : List Statement) :
    replacedList p ss = ss.flatMap (replaced p) := by
  induction ss with
  | nil => rfl
  | cons s ss ih => rw [replacedList, ih, List.flatMap_cons]

theorem Statement.cubesList_eq (ss : List Statement) : cubesList ss = ss.flatMap cubes := by
  induction ss with
  | nil => rfl
  | cons s ss ih => rw [cubesList, ih, List.flatMap_cons]

end Lists

/-! ## By way of the slots -/

/-- What stands in the slot afterwards. -/
def Child.substitute (p : Replacement) : Child → Node
  | ⟨.list, .expression (.list xs)⟩ => .expression (.list (xs.substitute p))
  | ⟨.branch, .expression (.branch b)⟩ => .expression (.branch (b.substitute p))
  | c => c.node.substitute p

/-- What is replaced in the slot. -/
def Child.replaced (p : Replacement) : Child → List Child
  | ⟨.list, .expression (.list xs)⟩ => xs.replaced p
  | ⟨.branch, .expression (.branch b)⟩ => b.replaced p
  | c => c.node.replaced p

/-- Is the node an expression that passes the test? -/
def Replacement.hits (p : Replacement) : Node → Bool
  | .expression e => p.matching e
  | _ => false

variable {p : Replacement}

/-! ### Matches, and lists and branches that are none -/

theorem Expr.substitute_of_matching {e : Expr} (h : p.matching e = true) :
    e.substitute p = p.result e := by
  unfold substitute
  rw [if_pos h]

theorem Expr.replaced_of_matching {e : Expr} (h : p.matching e = true) :
    e.replaced p = [.ofExpr e] := by
  unfold replaced
  rw [if_pos h]

theorem InList.substitute_of_matching {xs ys : InList} (h : p.matching (.list xs) = true)
    (hys : p.result (.list xs) = .list ys) : xs.substitute p = ys := by
  unfold substitute Replacement.list
  rw [if_pos h, hys]

theorem InList.replaced_of_matching {xs : InList} (h : p.matching (.list xs) = true) :
    xs.replaced p = [.ofList xs] := by
  unfold replaced
  rw [if_pos h]

theorem Branch.substitute_of_matching {b b' : Branch} (h : p.matching (.branch b) = true)
    (hb : p.result (.branch b) = .branch b') : b.substitute p = b' := by
  unfold substitute Replacement.branch
  rw [if_pos h, hb]

theorem Branch.replaced_of_matching {b : Branch} (h : p.matching (.branch b) = true) :
    b.replaced p = [.ofBranch b] := by
  unfold replaced
  rw [if_pos h]

theorem Child.substitute_of_missed {c : Child} (h : p.hits c.node = false) :
    c.substitute p = c.node.substitute p := by
  -- a list among lists and a branch among branches are looked into like any other expression
  unfold substitute
  split
  case h_1 xs =>
    rcases xs with ⟨l, es⟩
    simp [Node.substitute, Expr.substitute, InList.substitute, show p.matching _ = false from h]
  case h_2 b =>
    rcases b with ⟨l, c, r⟩
    simp [Node.substitute, Expr.substitute, Branch.substitute, show p.matching _ = false from h]
  case h_3 => rfl

theorem Child.replaced_of_missed {c : Child} (h : p.hits c.node = false) :
    c.replaced p = c.node.replaced p := by
  unfold replaced
  split
  case h_1 xs =>
    rcases xs with ⟨l, es⟩
    simp [Node.replaced, Expr.replaced, InList.replaced, show p.matching _ = false from h]
  case h_2 b =>
    rcases b with ⟨l, c, r⟩
    simp [Node.replaced, Expr.replaced, Branch.replaced, show p.matching _ = false from h]
  case h_3 => rfl

/-! ### What is no match -/

/-- A list in slots of one kind, when each member is treated by `f`. -/
theorem Child.map_substitute {α : Type} (slot : α → Child) (inj : α → Node) (f : α → α)
    (h : ∀ a, (slot a).substitute p = inj (f a)) (as : List α) :
    (as.map slot).map (substitute p) = (as.map f).map inj := by
  rw [List.map_map, List.map_map]
  exact List.map_congr_left fun a _ => h a

theorem Child.map_substitute_ofExpr (es : List Expr) :
    (es.map ofExpr).map (substitute p) = (es.map (Expr.substitute p)).map .expression :=
  map_substitute ofExpr .expression (Expr.substitute p) (fun _ => rfl) es

theorem Child.map_substitute_toList (e? : Option Expr) :
    (e?.toList.map ofExpr).map (substitute p) =
      (e?.map (Expr.substitute p)).toList.map .expression := by
  rw [map_substitute_ofExpr, Option.toList_map]

theorem Child.map_substitute_ofBranch (bs : List Branch) :
    (bs.map ofBranch).map (substitute p) =
      (bs.map (Branch.substitute p)).map fun b => .expression (.branch b) :=
  map_substitute ofBranch _ (Branch.substitute p) (fun _ => rfl) bs

theorem Expr.rebuilt_substitute {e : Expr} (h : p.matching e = false) :
    e.Rebuilt (e.children.map (Child.substitute p)) (e.substitute p) := by
  unfold substitute
  rw [h]
  cases e with
  | literal => exact .literal
  | column => exact .column
  | unary => exact .unary
  | binary => exact .binary
  | between => exact .between
  | isIn => exact .isIn
  | call l f es =>
    rw [children, Child.map_substitute_ofExpr]
    simp only [substituteList_eq]
    exact .call (List.length_map _)
  | case l o? bs e? =>
    rw [children, List.map_append, List.map_append, Child.map_substitute_toList,
      Child.map_substitute_ofBranch, Child.map_substitute_toList]
    simp only [substituteOption_eq, Branch.substituteList_eq]
    exact .case Option.isSome_map (List.length_map _) Option.isSome_map
  | list xs =>
    rcases xs with ⟨l, es⟩
    rw [children, Child.map_substitute_ofExpr]
    simp only [substituteList_eq]
    exact .list (List.length_map _)
  | branch b =>
    cases b
    exact .branch

theorem GroupingElement.rebuilt_substitute (g : GroupingElement) :
    g.Rebuilt (g.children.map (Child.substitute p)) (g.substitute p) := by
  cases g with
  | simple l cs =>
    rw [children, Child.map_substitute_ofExpr]
    exact .simple (List.length_map _)
  | rollup l cs =>
    rw [children, Child.map_substitute_ofExpr]
    exact .rollup (List.length_map _)
  | cube l cs =>
    rw [children, Child.map_substitute_ofExpr]
    exact .cube (List.length_map _)
  | sets l ss =>
    rw [children, Child.map_substitute_ofExpr, List.map_flatten]
    refine .sets (List.forall₂_map_right_iff.mpr (List.forall₂_same.mpr ?_))
    exact fun s _ => List.length_map _

theorem Query.rebuilt_substitute (q : Query) :
    q.Rebuilt (q.children.map (Child.substitute p)) (q.substitute p) := by
  have windows : (q.window?.toList.map Child.ofWindow).map (Child.substitute p) =
      q.window?.toList.map .window := by
    rw [Child.map_substitute Child.ofWindow .window id fun _ => rfl, List.map_id]
  have groupings : (q.groupBy?.toList.map Child.ofGroupBy).map (Child.substitute p) =
      (q.groupBy?.map (GroupBy.substitute p)).toList.map .groupBy := by
    rw [Child.map_substitute Child.ofGroupBy .groupBy (GroupBy.substitute p) fun _ => rfl,
      Option.toList_map]
  simp only [children, List.map_append, windows, groupings, Child.map_substitute_toList]
  exact .query rfl Option.isSome_map Option.isSome_map Option.isSome_map

theorem Relation.rebuilt_substitute (r : Relation) :
    r.Rebuilt (r.children.map (Child.substitute p)) r := by
  have same : r.children.map (Child.substitute p) = r.children.map Child.node := by
    refine List.map_congr_left ?_
    intro c hc
    cases r with
    | table => exact absurd hc List.not_mem_nil
    | aliased =>
      obtain rfl := List.mem_singleton.mp hc
      rfl
    | join =>
      simp only [children, List.mem_append, List.mem_pair, List.mem_map] at hc
      rcases hc with (rfl | rfl) | ⟨w, -, rfl⟩ <;> rfl
  rw [same]
  exact r.rebuilt_self

theorem Statement.rebuilt_substitute (s : Statement) :
    s.Rebuilt (s.children.map (Child.substitute p)) (s.substitute p) := by
  cases s with
  | several l ss =>
    rw [children, substitute, substituteList_eq,
      Child.map_substitute Child.ofStatement .statement (substitute p) fun _ => rfl]
    exact .several (List.length_map _)
  | create l c n es =>
    rw [children, Child.map_substitute Child.ofTableElement .tableElement id fun _ => rfl,
      List.map_id]
    exact .create rfl
  | createStreamAs =>
    rw [children, List.map_cons, Child.map_substitute_toList]
    exact .createStreamAs Option.isSome_map
  | createTableAs => exact .createTableAs
  | insertInto =>
    rw [children, List.map_cons, Child.map_substitute_toList]
    exact .insertInto Option.isSome_map
  | dropTable => exact .dropTable
  | createConnector => exact .createConnector
  | query q => exact .query q.rebuilt_substitute

/-- What is no match itself is rebuilt around what then stands in its slots. -/
theorem Node.rebuilt_substitute {n : Node} (h : p.hits n = false) :
    n.Rebuilt (n.children.map (Child.substitute p)) (n.substitute p) := by
  cases n with
  | statement s => exact .statement s.rebuilt_substitute
  | expression e => exact .expression (Expr.rebuilt_substitute h)
  | relation r => exact .relation r.rebuilt_substitute
  | groupingElement g => exact .groupingElement g.rebuilt_substitute
  | select s =>
    rw [children, Child.map_substitute Child.ofSelectItem .selectItem (SelectItem.substitute p)
      fun _ => rfl]
    exact .select (List.length_map _)
  | selectItem i =>
    cases i with
    | single => exact .selectItem .single
    | all => exact .selectItem .all
  | groupBy g =>
    rw [children, Child.map_substitute Child.ofGroupingElement .groupingElement
      (GroupingElement.substitute p) fun _ => rfl]
    exact .groupBy (List.length_map _)
  | window => exact .window
  | ksqlWindow => exact .ksqlWindow
  | within => exact .within
  | tableElement => exact .tableElement

/-! ## What is replaced, by way of the slots -/

theorem Expr.replaced_eq {e : Expr} (h : p.matching e = false) :
    e.replaced p = e.children.flatMap (Child.replaced p) := by
  unfold replaced
  rw [h]
  cases e with
  | call l f es =>
    rw [children, List.flatMap_map]
    exact replacedList_eq p es
  | case l o? bs e? =>
    simp only [children, List.flatMap_append, List.flatMap_map, replacedOption_eq,
      Branch.replacedList_eq]
    rfl
  | list xs =>
    rcases xs with ⟨l, es⟩
    rw [children, List.flatMap_map]
    exact replacedList_eq p es
  | branch b =>
    rcases b with ⟨l, c, r⟩
    simp [children, Child.replaced, Child.ofExpr, Node.replaced]
  | between => simp [children, Child.replaced, Child.ofExpr, Node.replaced]
  | isIn => simp [children, Child.replaced, Child.ofExpr, Child.ofList, Node.replaced]
  | _ => simp [children, Child.replaced, Child.ofExpr, Node.replaced]

theorem Relation.replaced_children (r : Relation) :
    r.children.flatMap (Child.replaced p) = [] := by
  cases r with
  | join => simp [children, Child.replaced, Child.ofRelation, Child.ofWithin, Node.replaced,
      List.flatMap_map]
  | _ => rfl

theorem Query.replaced_eq (q : Query) :
    q.replaced p = q.children.flatMap (Child.replaced p) := by
  simp [replaced, children, List.flatMap_map, Child.replaced, Child.ofSelect, Child.ofRelation,
    Child.ofWindow, Child.ofExpr, Child.ofGroupBy, Node.replaced]

theorem Statement.replaced_eq (s : Statement) :
    s.replaced p = s.children.flatMap (Child.replaced p) := by
  cases s with
  | several l ss => simp [replaced, children, replacedList_eq, List.flatMap_map, Child.replaced,
      Child.ofStatement, Node.replaced]
  | query q => exact q.replaced_eq
  | _ => simp [replaced, children, List.flatMap_map, Child.replaced, Child.ofQuery, Child.ofExpr,
      Child.ofTableElement, Node.replaced]

/-- Of what is no match itself, what is replaced in its slots is replaced, in order. -/
theorem Node.replaced_eq {n : Node} (h : p.hits n = false) :
    n.replaced p = n.children.flatMap (Child.replaced p) := by
  cases n with
  | statement s => exact s.replaced_eq
  | expression e => exact Expr.replaced_eq h
  | relation r => exact r.replaced_children.symm
  | groupingElement g =>
    cases g with
    | sets l ss =>
      rw [children, GroupingElement.children, List.flatMap_map]
      rfl
    | _ => simp [replaced, GroupingElement.replaced, children, GroupingElement.children,
        List.flatMap_map, Child.replaced, Child.ofExpr]
  | selectItem i =>
    cases i <;> simp [replaced, SelectItem.replaced, children, SelectItem.children, Child.replaced,
      Child.ofExpr]
  | _ => simp [replaced, Select.replaced, GroupBy.replaced, children, List.flatMap_map,
      Child.replaced, Child.ofSelectItem, Child.ofGroupingElement, Child.ofKsqlWindow]

/-! ## The columns of every `CUBE`, by way of the slots -/

/-- The columns of the node, if it is a `CUBE`. -/
def Node.ownCube : Node → List (List Expr)
  | groupingElement (.cube _ cs) => [cs]
  | _ => []

/-- Where nothing in the slots can hold a `CUBE`, there is none. -/
theorem Child.no_cubes {α : Type} (slot : α → Child) (h : ∀ a, (slot a).node.cubes = [])
    (as : List α) : ((as.map slot).flatMap fun c => c.node.cubes) = [] := by
  refine List.flatMap_eq_nil_iff.mpr ?_
  intro c hc
  obtain ⟨a, -, rfl⟩ := List.mem_map.mp hc
  exact h a

theorem Child.no_cubes_ofExpr (es : List Expr) :
    ((es.map ofExpr).flatMap fun c => c.node.cubes) = [] :=
  no_cubes ofExpr (fun _ => rfl) es

theorem Expr.no_cubes (e : Expr) : (e.children.flatMap fun c => c.node.cubes) = [] := by
  cases e with
  | call | list => exact Child.no_cubes_ofExpr _
  | case l o? bs e? =>
    rw [children, List.flatMap_append, List.flatMap_append, Child.no_cubes_ofExpr,
      Child.no_cubes_ofExpr, Child.no_cubes Child.ofBranch fun _ => rfl]
    rfl
  | _ => rfl

theorem Relation.no_cubes (r : Relation) : (r.children.flatMap fun c => c.node.cubes) = [] := by
  cases r with
  | join =>
    rw [children, List.flatMap_append, Child.no_cubes Child.ofWithin fun _ => rfl]
    rfl
  | _ => rfl

theorem Query.cubes_eq (q : Query) : q.cubes = q.children.flatMap fun c => c.node.cubes := by
  simp only [children, List.flatMap_append, Child.no_cubes_ofExpr,
    Child.no_cubes Child.ofWindow fun _ => rfl, List.append_nil]
  rw [List.flatMap_map]
  rfl

theorem Statement.cubes_eq (s : Statement) :
    s.cubes = s.children.flatMap fun c => c.node.cubes := by
  cases s with
  | several l ss =>
    rw [cubes, cubesList_eq, children, List.flatMap_map]
    rfl
  | create => exact (Child.no_cubes Child.ofTableElement (fun _ => rfl) _).symm
  | createStreamAs | insertInto =>
    rw [children, List.flatMap_cons, Child.no_cubes_ofExpr, List.append_nil]
    rfl
  | createTableAs =>
    rw [children, List.flatMap_singleton]
    rfl
  | query q => exact q.cubes_eq
  | dropTable | createConnector => rfl

theorem Node.cubes_eq (n : Node) :
    n.cubes = n.ownCube ++ n.children.flatMap fun c => c.node.cubes := by
  cases n with
  | statement s => exact s.cubes_eq
  | expression e => exact e.no_cubes.symm
  | relation r => exact r.no_cubes.symm
  | select s => exact (Child.no_cubes Child.ofSelectItem (fun _ => rfl) s.items).symm
  | selectItem i => cases i <;> rfl
  | groupBy g =>
    rw [children, List.flatMap_map]
    rfl
  | groupingElement g =>
    cases g <;>
    · rw [children, GroupingElement.children, Child.no_cubes_ofExpr]
      rfl
  | window | ksqlWindow | within | tableElement => rfl

end SqlTree
