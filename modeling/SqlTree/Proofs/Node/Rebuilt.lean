import SqlTree.Proofs.Node.Refill

/-!
# Nodes around other children

A node rebuilt around other children is a node of the same form. It has the same location, texts,
operators, flags and other data, as many children in each of its lists, and an optional child where
there was one; its children are the given nodes, in order.
-/

namespace SqlTree

/-! ## Rebuilt forms -/

/-- `x.Rebuilt ms x'`: the form `x`, with the nodes `ms` for its children, is `x'`. -/
inductive Expr.Rebuilt : Expr → List Node → Expr → Prop
  | literal {l v} : Rebuilt (.literal l v) [] (.literal l v)
  | column {l n} : Rebuilt (.column l n) [] (.column l n)
  | unary {l op e e'} : Rebuilt (.unary l op e) [.expression e'] (.unary l op e')
  | binary {l op a a' b b'} :
    Rebuilt (.binary l op a b) [.expression a', .expression b'] (.binary l op a' b')
  | between {l v v' a a' b b'} :
    Rebuilt (.between l v a b) [.expression v', .expression a', .expression b']
      (.between l v' a' b')
  | isIn {l v v' xs xs'} :
    Rebuilt (.isIn l v xs) [.expression v', .expression (.list xs')] (.isIn l v' xs')
  | call {l f es es'} (arguments : es'.length = es.length) :
    Rebuilt (.call l f es) (es'.map .expression) (.call l f es')
  | case {l o? o?' bs bs' e? e?'} (operand : o?'.isSome = o?.isSome)
    (branches : bs'.length = bs.length) (otherwise : e?'.isSome = e?.isSome) :
    Rebuilt (.case l o? bs e?) (o?'.toList.map .expression ++
      bs'.map (fun b => .expression (.branch b)) ++ e?'.toList.map .expression)
      (.case l o?' bs' e?')
  | list {l es es'} (values : es'.length = es.length) :
    Rebuilt (.list ⟨l, es⟩) (es'.map .expression) (.list ⟨l, es'⟩)
  | branch {l c c' r r'} :
    Rebuilt (.branch ⟨l, c, r⟩) [.expression c', .expression r'] (.branch ⟨l, c', r'⟩)

inductive Relation.Rebuilt : Relation → List Node → Relation → Prop
  | table {l n} : Rebuilt (.table l n) [] (.table l n)
  | aliased {l r r' newName} :
    Rebuilt (.aliased l r newName) [.relation r'] (.aliased l r' newName)
  | join {l type a a' b b' criteria w? w?'} (within : w?'.isSome = w?.isSome) :
    Rebuilt (.join l type a b criteria w?)
      ([.relation a', .relation b'] ++ w?'.toList.map .within) (.join l type a' b' criteria w?')

inductive SelectItem.Rebuilt : SelectItem → List Node → SelectItem → Prop
  | single {l e e' newName?} :
    Rebuilt (.single l e newName?) [.expression e'] (.single l e' newName?)
  | all {l qualifier?} : Rebuilt (.all l qualifier?) [] (.all l qualifier?)

/-- Each of the sets of `GROUPING SETS` keeps its length. -/
inductive GroupingElement.Rebuilt : GroupingElement → List Node → GroupingElement → Prop
  | simple {l cs cs'} (columns : cs'.length = cs.length) :
    Rebuilt (.simple l cs) (cs'.map .expression) (.simple l cs')
  | rollup {l cs cs'} (columns : cs'.length = cs.length) :
    Rebuilt (.rollup l cs) (cs'.map .expression) (.rollup l cs')
  | cube {l cs cs'} (columns : cs'.length = cs.length) :
    Rebuilt (.cube l cs) (cs'.map .expression) (.cube l cs')
  | sets {l ss ss'} (sets : List.Forall₂ (fun s s' => s'.length = s.length) ss ss') :
    Rebuilt (.sets l ss) (ss'.flatten.map .expression) (.sets l ss')

inductive Query.Rebuilt : Query → List Node → Query → Prop
  | query {l s s' r r' w? w?' f? f?' g? g?' h? h?' limit?} (window : w?'.isSome = w?.isSome)
    (filter : f?'.isSome = f?.isSome) (groupBy : g?'.isSome = g?.isSome)
    (having : h?'.isSome = h?.isSome) :
    Rebuilt ⟨l, s, r, w?, f?, g?, h?, limit?⟩ ([.select s', .relation r'] ++
      w?'.toList.map .window ++ f?'.toList.map .expression ++ g?'.toList.map .groupBy ++
      h?'.toList.map .expression) ⟨l, s', r', w?', f?', g?', h?', limit?⟩

inductive Statement.Rebuilt : Statement → List Node → Statement → Prop
  | several {l ss ss'} (statements : ss'.length = ss.length) :
    Rebuilt (.several l ss) (ss'.map .statement) (.several l ss')
  | create {l c n es es' i p} (elements : es'.length = es.length) :
    Rebuilt (.create l c n es i p) (es'.map .tableElement) (.create l c n es' i p)
  | createStreamAs {l n q q' i p e? e?'} (partitionBy : e?'.isSome = e?.isSome) :
    Rebuilt (.createStreamAs l n q i p e?)
      (.statement (.query q') :: e?'.toList.map .expression) (.createStreamAs l n q' i p e?')
  | createTableAs {l n q q' i p} :
    Rebuilt (.createTableAs l n q i p) [.statement (.query q')] (.createTableAs l n q' i p)
  | insertInto {l t q q' e? e?'} (partitionBy : e?'.isSome = e?.isSome) :
    Rebuilt (.insertInto l t q e?) (.statement (.query q') :: e?'.toList.map .expression)
      (.insertInto l t q' e?')
  | dropTable {l n i d} : Rebuilt (.dropTable l n i d) [] (.dropTable l n i d)
  | createConnector {l n p t} :
    Rebuilt (.createConnector l n p t) [] (.createConnector l n p t)
  | query {q q' ms} (h : q.Rebuilt ms q') : Rebuilt (.query q) ms (.query q')

inductive Node.Rebuilt : Node → List Node → Node → Prop
  | statement {s s' ms} (h : s.Rebuilt ms s') : Rebuilt (.statement s) ms (.statement s')
  | expression {e e' ms} (h : e.Rebuilt ms e') : Rebuilt (.expression e) ms (.expression e')
  | relation {r r' ms} (h : r.Rebuilt ms r') : Rebuilt (.relation r) ms (.relation r')
  | select {l is is'} (items : is'.length = is.length) :
    Rebuilt (.select ⟨l, is⟩) (is'.map .selectItem) (.select ⟨l, is'⟩)
  | selectItem {i i' ms} (h : i.Rebuilt ms i') : Rebuilt (.selectItem i) ms (.selectItem i')
  | groupBy {l gs gs'} (elements : gs'.length = gs.length) :
    Rebuilt (.groupBy ⟨l, gs⟩) (gs'.map .groupingElement) (.groupBy ⟨l, gs'⟩)
  | groupingElement {g g' ms} (h : g.Rebuilt ms g') :
    Rebuilt (.groupingElement g) ms (.groupingElement g')
  | window {l name? w w'} :
    Rebuilt (.window ⟨l, name?, w⟩) [.ksqlWindow w'] (.window ⟨l, name?, w'⟩)
  | ksqlWindow {w} : Rebuilt (.ksqlWindow w) [] (.ksqlWindow w)
  | within {w} : Rebuilt (.within w) [] (.within w)
  | tableElement {e} : Rebuilt (.tableElement e) [] (.tableElement e)

/-! ## What a rebuilt node is -/

theorem Option.length_toList_eq {α : Type} {a? b? : Option α} (h : b?.isSome = a?.isSome) :
    b?.toList.length = a?.toList.length := by
  cases a? <;> cases b? <;> first | rfl | contradiction

theorem List.length_flatten_eq {α : Type} {ss ss' : List (List α)}
    (h : List.Forall₂ (fun s s' => s'.length = s.length) ss ss') :
    ss'.flatten.length = ss.flatten.length := by
  induction h with
  | nil => rfl
  | cons hs _ ih => rw [List.flatten_cons, List.flatten_cons, List.length_append, hs, ih,
      List.length_append]

theorem List.map_const_of_length_eq {α β : Type} {b : β} {as as' : List α}
    (h : as'.length = as.length) : as'.map (fun _ => b) = as.map fun _ => b := by
  rw [List.map_const', List.map_const', h]

/-- The children are the nodes `ms`, in slots like those of `old`. -/
def Child.Are (cs : List Child) (ms : List Node) (old : List Child) : Prop :=
  cs.map Child.node = ms ∧ cs.map Child.slot = old.map Child.slot

theorem Child.Are.fit {cs old : List Child} {ms : List Node} (h : Are cs ms old)
    (admits : ∀ c ∈ cs, c.slot.admits c.node = true) : Fit old ms := by
  obtain ⟨rfl, slots⟩ := h
  induction cs generalizing old with
  | nil =>
    rw [List.map_nil, eq_comm, List.map_eq_nil_iff] at slots
    rw [slots]
    exact .nil
  | cons c cs ih =>
    obtain ⟨d, rest, rfl, same, slots⟩ := List.map_eq_cons_iff.mp slots.symm
    obtain ⟨first, others⟩ := List.forall_mem_cons.mp admits
    exact .cons (by rw [same]; exact first) (ih others slots.symm)

section Rebuilt

variable {ms : List Node}

theorem Expr.Rebuilt.children {e e' : Expr} (h : e.Rebuilt ms e') :
    Child.Are e'.children ms e.children := by
  unfold Child.Are
  cases h with
  | call arguments => simp [Expr.children, Child.ofExpr, Function.comp_def, arguments]
  | case operand branches otherwise =>
    simp [Expr.children, Child.ofExpr, Child.ofBranch, Function.comp_def, branches,
      Option.length_toList_eq operand, Option.length_toList_eq otherwise]
  | list values => simp [Expr.children, Child.ofExpr, Function.comp_def, values]
  | _ => exact ⟨rfl, rfl⟩

theorem Relation.Rebuilt.children {r r' : Relation} (h : r.Rebuilt ms r') :
    Child.Are r'.children ms r.children := by
  unfold Child.Are
  cases h with
  | join within =>
    simp [Relation.children, Child.ofRelation, Child.ofWithin, Function.comp_def,
      Option.length_toList_eq within]
  | _ => exact ⟨rfl, rfl⟩

theorem GroupingElement.Rebuilt.children {g g' : GroupingElement} (h : g.Rebuilt ms g') :
    Child.Are g'.children ms g.children := by
  unfold Child.Are
  cases h with
  | sets sets =>
    refine ⟨by simp [GroupingElement.children, Child.ofExpr, Function.comp_def], ?_⟩
    simp only [GroupingElement.children, List.map_map]
    exact List.map_const_of_length_eq (List.length_flatten_eq sets)
  | _ columns => simp [GroupingElement.children, Child.ofExpr, Function.comp_def, columns]

theorem Query.Rebuilt.children {q q' : Query} (h : q.Rebuilt ms q') :
    Child.Are q'.children ms q.children := by
  unfold Child.Are
  cases h with
  | query window filter groupBy having =>
    simp [Query.children, Child.ofSelect, Child.ofRelation, Child.ofWindow, Child.ofExpr,
      Child.ofGroupBy, Function.comp_def, Option.length_toList_eq window,
      Option.length_toList_eq filter, Option.length_toList_eq groupBy,
      Option.length_toList_eq having]

theorem Statement.Rebuilt.children {s s' : Statement} (h : s.Rebuilt ms s') :
    Child.Are s'.children ms s.children := by
  cases h with
  | several statements =>
    simp [Child.Are, Statement.children, Child.ofStatement, Function.comp_def, statements]
  | create elements =>
    simp [Child.Are, Statement.children, Child.ofTableElement, Function.comp_def, elements]
  | createStreamAs partitionBy | insertInto partitionBy =>
    simp [Child.Are, Statement.children, Child.ofQuery, Child.ofExpr, Function.comp_def,
      Option.length_toList_eq partitionBy]
  | query h => exact h.children
  | _ => exact ⟨rfl, rfl⟩

theorem Node.Rebuilt.children {n m : Node} (h : n.Rebuilt ms m) :
    Child.Are m.children ms n.children := by
  cases h with
  | statement h | expression h | relation h | groupingElement h => exact h.children
  | select items =>
    simp [Child.Are, Node.children, Child.ofSelectItem, Function.comp_def, items]
  | selectItem h => cases h <;> exact ⟨rfl, rfl⟩
  | groupBy elements =>
    simp [Child.Are, Node.children, Child.ofGroupingElement, Function.comp_def, elements]
  | _ => exact ⟨rfl, rfl⟩

theorem Node.Rebuilt.fit {n m : Node} (h : n.Rebuilt ms m) : Fit n.children ms :=
  h.children.fit fun _ => m.admits_child

theorem Node.Rebuilt.location {n m : Node} (h : n.Rebuilt ms m) : m.location = n.location := by
  cases h with
  | statement h =>
    cases h with
    | query h => cases h; rfl
    | _ => rfl
  | expression h | relation h | selectItem h | groupingElement h => cases h <;> rfl
  | _ => rfl

theorem Node.Rebuilt.kind {n m : Node} (h : n.Rebuilt ms m) : m.kind = n.kind := by
  cases h with
  | statement h =>
    cases h with
    | @create l c => cases c <;> rfl
    | _ => rfl
  | expression h =>
    cases h with
    | @case l o? o?' bs bs' e? e?' operand =>
      cases o? <;> cases o?' <;> first | rfl | contradiction
    | _ => rfl
  | relation h | selectItem h | groupingElement h => cases h <;> rfl
  | _ => rfl

/-! ## Filling the slots of a node -/

open Refill Slot

theorem Expr.Rebuilt.fill {e e' : Expr} (h : e.Rebuilt ms e') (ns : List Node) :
    e.refill.fill (ms ++ ns) = (e', ns) := by
  cases h with
  | call arguments => simp [Expr.refill, fill_exprs arguments]
  | case operand branches otherwise =>
    simp [Expr.refill, fill_optional holds_expression operand, fill_each holds_branch branches,
      fill_optional holds_expression otherwise]
  | list values => simp [Expr.refill, fill_exprs values]
  | _ => rfl

theorem Relation.Rebuilt.fill {r r' : Relation} (h : r.Rebuilt ms r') (ns : List Node) :
    r.refill.fill (ms ++ ns) = (r', ns) := by
  cases h with
  | join within => simp [Relation.refill, Node.relation?, fill_optional holds_within within]
  | _ => rfl

theorem GroupingElement.Rebuilt.fill {g g' : GroupingElement} (h : g.Rebuilt ms g')
    (ns : List Node) : g.refill.fill (ms ++ ns) = (g', ns) := by
  cases h with
  | sets sets =>
    have filled := fill_mapM ns (sets.imp fun s s' len => fill_exprs len)
    rw [List.flatMap_def] at filled
    simp [GroupingElement.refill, filled]
  | _ columns => simp [GroupingElement.refill, fill_exprs columns]

theorem Query.Rebuilt.fill {q q' : Query} (h : q.Rebuilt ms q') (ns : List Node) :
    q.refill.fill (ms ++ ns) = (q', ns) := by
  cases h with
  | query window filter groupBy having =>
    simp [Query.refill, Node.select?, Node.relation?, fill_optional holds_window window,
      fill_optional holds_expression filter, fill_optional holds_groupBy groupBy,
      fill_optional holds_expression having]

theorem Statement.Rebuilt.fill {s s' : Statement} (h : s.Rebuilt ms s') (ns : List Node) :
    s.refill.fill (ms ++ ns) = (s', ns) := by
  cases h with
  | several statements => simp [Statement.refill, fill_each holds_statement statements]
  | create elements => simp [Statement.refill, fill_each holds_tableElement elements]
  | createStreamAs partitionBy | insertInto partitionBy =>
    simp [Statement.refill, Node.query?, fill_optional holds_expression partitionBy]
  | query h => simp [Statement.refill, h.fill]
  | _ => rfl

theorem Node.Rebuilt.fill {n m : Node} (h : n.Rebuilt ms m) (ns : List Node) :
    n.refill.fill (ms ++ ns) = (m, ns) := by
  cases h with
  | statement h | expression h | relation h | groupingElement h => simp [Node.refill, h.fill]
  | select items => simp [Node.refill, fill_each holds_selectItem items]
  | selectItem h => cases h <;> rfl
  | groupBy elements => simp [Node.refill, fill_each holds_groupingElement elements]
  | _ => rfl

/-- Putting nodes into the slots of a node rebuilds it. -/
theorem Node.Rebuilt.withChildren_eq {n m : Node} (h : n.Rebuilt ms m) : n.withChildren ms = m := by
  have filled := h.fill []
  rw [List.append_nil] at filled
  exact congrArg Prod.fst filled

end Rebuilt

/-! ## A node and its own children -/

theorem Expr.rebuilt_self (e : Expr) : e.Rebuilt (e.children.map Child.node) e := by
  cases e with
  | literal => exact .literal
  | column => exact .column
  | unary => exact .unary
  | binary => exact .binary
  | between => exact .between
  | isIn => exact .isIn
  | call l f es =>
    rw [children, List.map_map]
    exact .call rfl
  | case l o? bs e? =>
    rw [children, List.map_append, List.map_append, List.map_map, List.map_map, List.map_map]
    exact .case rfl rfl rfl
  | list xs =>
    rcases xs with ⟨l, es⟩
    rw [children, List.map_map]
    exact .list rfl
  | branch b =>
    cases b
    exact .branch

theorem Relation.rebuilt_self (r : Relation) : r.Rebuilt (r.children.map Child.node) r := by
  cases r with
  | table => exact .table
  | aliased => exact .aliased
  | join l type a b criteria within? =>
    rw [children, List.map_append, List.map_map]
    exact .join rfl

theorem GroupingElement.rebuilt_self (g : GroupingElement) :
    g.Rebuilt (g.children.map Child.node) g := by
  cases g with
  | simple l cs =>
    rw [children, List.map_map]
    exact .simple rfl
  | rollup l cs =>
    rw [children, List.map_map]
    exact .rollup rfl
  | cube l cs =>
    rw [children, List.map_map]
    exact .cube rfl
  | sets l ss =>
    rw [children, List.map_map]
    exact .sets (List.forall₂_same.mpr fun _ _ => rfl)

theorem Query.rebuilt_self (q : Query) : q.Rebuilt (q.children.map Child.node) q := by
  rw [children]
  simp only [List.map_append, List.map_map]
  exact .query rfl rfl rfl rfl

theorem Statement.rebuilt_self (s : Statement) : s.Rebuilt (s.children.map Child.node) s := by
  cases s with
  | several l ss =>
    rw [children, List.map_map]
    exact .several rfl
  | create l c n es i p =>
    rw [children, List.map_map]
    exact .create rfl
  | createStreamAs l n q i p e? =>
    rw [children, List.map_cons, List.map_map]
    exact .createStreamAs rfl
  | createTableAs => exact .createTableAs
  | insertInto l t q e? =>
    rw [children, List.map_cons, List.map_map]
    exact .insertInto rfl
  | dropTable => exact .dropTable
  | createConnector => exact .createConnector
  | query q => exact .query q.rebuilt_self

theorem Node.rebuilt_self (n : Node) : n.Rebuilt (n.children.map Child.node) n := by
  cases n with
  | statement s => exact .statement s.rebuilt_self
  | expression e => exact .expression e.rebuilt_self
  | relation r => exact .relation r.rebuilt_self
  | select s =>
    rw [children, List.map_map]
    exact .select rfl
  | selectItem i =>
    cases i with
    | single => exact .selectItem .single
    | all => exact .selectItem .all
  | groupBy g =>
    rw [children, List.map_map]
    exact .groupBy rfl
  | groupingElement g => exact .groupingElement g.rebuilt_self
  | window => exact .window
  | ksqlWindow => exact .ksqlWindow
  | within => exact .within
  | tableElement => exact .tableElement

/-- A node with its own children in its slots is the same node. -/
theorem Node.withChildren_children (n : Node) : n.withChildren (n.children.map Child.node) = n :=
  n.rebuilt_self.withChildren_eq

/-! ## A node around nodes that fit -/

section Exists

open Slot

variable {ms : List Node}

theorem Fit.eq_nil (h : Fit [] ms) : ms = [] := List.forall₂_nil_left_iff.mp h

theorem Expr.exists_rebuilt {e : Expr} (h : Fit e.children ms) : ∃ e', e.Rebuilt ms e' := by
  cases e with
  | literal =>
    obtain rfl := Fit.eq_nil h
    exact ⟨_, .literal⟩
  | column =>
    obtain rfl := Fit.eq_nil h
    exact ⟨_, .column⟩
  | unary =>
    obtain ⟨e', _, rfl, h₁⟩ := holds_expression.exists_cons h
    obtain rfl := Fit.eq_nil h₁
    exact ⟨_, .unary⟩
  | binary =>
    obtain ⟨a', _, rfl, h₁⟩ := holds_expression.exists_cons h
    obtain ⟨b', _, rfl, h₂⟩ := holds_expression.exists_cons h₁
    obtain rfl := Fit.eq_nil h₂
    exact ⟨_, .binary⟩
  | between =>
    obtain ⟨v', _, rfl, h₁⟩ := holds_expression.exists_cons h
    obtain ⟨a', _, rfl, h₂⟩ := holds_expression.exists_cons h₁
    obtain ⟨b', _, rfl, h₃⟩ := holds_expression.exists_cons h₂
    obtain rfl := Fit.eq_nil h₃
    exact ⟨_, .between⟩
  | isIn =>
    obtain ⟨v', _, rfl, h₁⟩ := holds_expression.exists_cons h
    obtain ⟨xs', _, rfl, h₂⟩ := holds_list.exists_cons h₁
    obtain rfl := Fit.eq_nil h₂
    exact ⟨_, .isIn⟩
  | call =>
    obtain ⟨es', rfl, arguments⟩ := holds_expression.exists_each h
    exact ⟨_, .call arguments⟩
  | case =>
    obtain ⟨_, _, rfl, before, last⟩ := Fit.exists_append h
    obtain ⟨_, _, rfl, first, middle⟩ := Fit.exists_append before
    obtain ⟨o?', rfl, operand⟩ := holds_expression.exists_optional first
    obtain ⟨bs', rfl, branches⟩ := holds_branch.exists_each middle
    obtain ⟨e?', rfl, otherwise⟩ := holds_expression.exists_optional last
    exact ⟨_, .case operand branches otherwise⟩
  | list xs =>
    rcases xs with ⟨l, es⟩
    obtain ⟨es', rfl, values⟩ := holds_expression.exists_each h
    exact ⟨_, .list values⟩
  | branch b =>
    rcases b with ⟨l, c, r⟩
    obtain ⟨c', _, rfl, h₁⟩ := holds_expression.exists_cons h
    obtain ⟨r', _, rfl, h₂⟩ := holds_expression.exists_cons h₁
    obtain rfl := Fit.eq_nil h₂
    exact ⟨_, .branch⟩

theorem Relation.exists_rebuilt {r : Relation} (h : Fit r.children ms) : ∃ r', r.Rebuilt ms r' := by
  cases r with
  | table =>
    obtain rfl := Fit.eq_nil h
    exact ⟨_, .table⟩
  | aliased =>
    obtain ⟨r', _, rfl, h₁⟩ := holds_relation.exists_cons h
    obtain rfl := Fit.eq_nil h₁
    exact ⟨_, .aliased⟩
  | join =>
    obtain ⟨a', _, rfl, h₁⟩ := holds_relation.exists_cons h
    obtain ⟨b', _, rfl, h₂⟩ := holds_relation.exists_cons h₁
    obtain ⟨w?', rfl, within⟩ := holds_within.exists_optional h₂
    exact ⟨_, .join within⟩

/-- As many columns as there are in all sets can be split into sets of the same lengths. -/
theorem exists_flatten_eq {α : Type} : ∀ {ss : List (List α)} {as : List α},
    as.length = ss.flatten.length →
      ∃ ss', as = ss'.flatten ∧ List.Forall₂ (fun s s' => s'.length = s.length) ss ss' := by
  intro ss
  induction ss with
  | nil => exact fun h => ⟨[], List.length_eq_zero_iff.mp h, .nil⟩
  | cons s ss ih =>
    intro as h
    rw [List.flatten_cons, List.length_append] at h
    have remaining : (as.drop s.length).length = ss.flatten.length := by
      rw [List.length_drop]
      omega
    obtain ⟨ss', rest, lengths⟩ := ih remaining
    refine ⟨as.take s.length :: ss', ?_, .cons ?_ lengths⟩
    · rw [List.flatten_cons, ← rest, List.take_append_drop]
    · rw [List.length_take]
      omega

theorem GroupingElement.exists_rebuilt {g : GroupingElement} (h : Fit g.children ms) :
    ∃ g', g.Rebuilt ms g' := by
  cases g with
  | simple =>
    obtain ⟨cs', rfl, columns⟩ := holds_expression.exists_each h
    exact ⟨_, .simple columns⟩
  | rollup =>
    obtain ⟨cs', rfl, columns⟩ := holds_expression.exists_each h
    exact ⟨_, .rollup columns⟩
  | cube =>
    obtain ⟨cs', rfl, columns⟩ := holds_expression.exists_each h
    exact ⟨_, .cube columns⟩
  | sets =>
    obtain ⟨es', rfl, len⟩ := holds_expression.exists_each h
    obtain ⟨ss', rfl, sets⟩ := exists_flatten_eq len
    exact ⟨_, .sets sets⟩

theorem Query.exists_rebuilt {q : Query} (h : Fit q.children ms) : ∃ q', q.Rebuilt ms q' := by
  obtain ⟨_, _, rfl, h₅, having⟩ := Fit.exists_append h
  obtain ⟨_, _, rfl, h₄, groupBy⟩ := Fit.exists_append h₅
  obtain ⟨_, _, rfl, h₃, filter⟩ := Fit.exists_append h₄
  obtain ⟨s', _, rfl, h₂⟩ := holds_select.exists_cons h₃
  obtain ⟨r', _, rfl, window⟩ := holds_relation.exists_cons h₂
  obtain ⟨w?', rfl, window_kept⟩ := holds_window.exists_optional window
  obtain ⟨f?', rfl, filter_kept⟩ := holds_expression.exists_optional filter
  obtain ⟨g?', rfl, groupBy_kept⟩ := holds_groupBy.exists_optional groupBy
  obtain ⟨h?', rfl, having_kept⟩ := holds_expression.exists_optional having
  exact ⟨_, .query window_kept filter_kept groupBy_kept having_kept⟩

theorem Statement.exists_rebuilt {s : Statement} (h : Fit s.children ms) :
    ∃ s', s.Rebuilt ms s' := by
  cases s with
  | several =>
    obtain ⟨ss', rfl, statements⟩ := holds_statement.exists_each h
    exact ⟨_, .several statements⟩
  | create =>
    obtain ⟨es', rfl, elements⟩ := holds_tableElement.exists_each h
    exact ⟨_, .create elements⟩
  | createStreamAs =>
    obtain ⟨q', _, rfl, h₁⟩ := holds_query.exists_cons h
    obtain ⟨e?', rfl, partitionBy⟩ := holds_expression.exists_optional h₁
    exact ⟨_, .createStreamAs partitionBy⟩
  | createTableAs =>
    obtain ⟨q', _, rfl, h₁⟩ := holds_query.exists_cons h
    obtain rfl := Fit.eq_nil h₁
    exact ⟨_, .createTableAs⟩
  | insertInto =>
    obtain ⟨q', _, rfl, h₁⟩ := holds_query.exists_cons h
    obtain ⟨e?', rfl, partitionBy⟩ := holds_expression.exists_optional h₁
    exact ⟨_, .insertInto partitionBy⟩
  | dropTable =>
    obtain rfl := Fit.eq_nil h
    exact ⟨_, .dropTable⟩
  | createConnector =>
    obtain rfl := Fit.eq_nil h
    exact ⟨_, .createConnector⟩
  | query q =>
    obtain ⟨q', hq⟩ := Query.exists_rebuilt h
    exact ⟨_, .query hq⟩

/-- Nodes that fit the slots of a node, one for each slot, are the children of a rebuilt node. -/
theorem Node.exists_rebuilt {n : Node} (h : Fit n.children ms) : ∃ m, n.Rebuilt ms m := by
  cases n with
  | statement s =>
    obtain ⟨s', hs⟩ := Statement.exists_rebuilt h
    exact ⟨_, .statement hs⟩
  | expression e =>
    obtain ⟨e', he⟩ := Expr.exists_rebuilt h
    exact ⟨_, .expression he⟩
  | relation r =>
    obtain ⟨r', hr⟩ := Relation.exists_rebuilt h
    exact ⟨_, .relation hr⟩
  | select s =>
    rcases s with ⟨l, is⟩
    obtain ⟨is', rfl, items⟩ := holds_selectItem.exists_each h
    exact ⟨_, .select items⟩
  | selectItem i =>
    cases i with
    | single =>
      obtain ⟨e', _, rfl, h₁⟩ := holds_expression.exists_cons h
      obtain rfl := Fit.eq_nil h₁
      exact ⟨_, .selectItem .single⟩
    | all =>
      obtain rfl := Fit.eq_nil h
      exact ⟨_, .selectItem .all⟩
  | groupBy g =>
    rcases g with ⟨l, gs⟩
    obtain ⟨gs', rfl, elements⟩ := holds_groupingElement.exists_each h
    exact ⟨_, .groupBy elements⟩
  | groupingElement g =>
    obtain ⟨g', hg⟩ := GroupingElement.exists_rebuilt h
    exact ⟨_, .groupingElement hg⟩
  | window w =>
    rcases w with ⟨l, name?, w⟩
    obtain ⟨w', _, rfl, h₁⟩ := holds_ksqlWindow.exists_cons h
    obtain rfl := Fit.eq_nil h₁
    exact ⟨_, .window⟩
  | ksqlWindow =>
    obtain rfl := Fit.eq_nil h
    exact ⟨_, .ksqlWindow⟩
  | within =>
    obtain rfl := Fit.eq_nil h
    exact ⟨_, .within⟩
  | tableElement =>
    obtain rfl := Fit.eq_nil h
    exact ⟨_, .tableElement⟩

end Exists

end SqlTree
