import Mathlib.Data.List.Forall2
import SqlTree.Node.Children

/-!
# Slots and what fills them

Every child fits its slot. A slot holds the values of one type; lists and optional parts are filled
with as many of them as there are slots.
-/

namespace SqlTree

/-! ## Children fit their slots -/

theorem Query.admits_child {q : Query} {c : Child} (h : c ∈ q.children) :
    c.slot.admits c.node := by
  simp only [children, List.mem_append, List.mem_pair, List.mem_map] at h
  rcases h with
    ((((rfl | rfl) | ⟨w, -, rfl⟩) | ⟨e, -, rfl⟩) | ⟨g, -, rfl⟩) | ⟨e, -, rfl⟩ <;> rfl

theorem Statement.admits_child {s : Statement} {c : Child} (h : c ∈ s.children) :
    c.slot.admits c.node := by
  cases s with
  | several =>
    obtain ⟨s, -, rfl⟩ := List.mem_map.mp h
    rfl
  | create =>
    obtain ⟨e, -, rfl⟩ := List.mem_map.mp h
    rfl
  | createStreamAs | insertInto =>
    rcases List.mem_cons.mp h with rfl | h
    · rfl
    · obtain ⟨e, -, rfl⟩ := List.mem_map.mp h
      rfl
  | createTableAs =>
    obtain rfl := List.mem_singleton.mp h
    rfl
  | dropTable | createConnector => exact absurd h List.not_mem_nil
  | query => exact Query.admits_child h

theorem Expr.admits_child {e : Expr} {c : Child} (h : c ∈ e.children) : c.slot.admits c.node := by
  cases e with
  | literal | column => exact absurd h List.not_mem_nil
  | unary =>
    obtain rfl := List.mem_singleton.mp h
    rfl
  | binary | isIn | branch => rcases List.mem_pair.mp h with rfl | rfl <;> rfl
  | between =>
    simp only [children, List.mem_cons, List.not_mem_nil, or_false] at h
    rcases h with rfl | rfl | rfl <;> rfl
  | call | list =>
    obtain ⟨e, -, rfl⟩ := List.mem_map.mp h
    rfl
  | case =>
    simp only [children, List.mem_append, List.mem_map] at h
    rcases h with (⟨e, -, rfl⟩ | ⟨b, -, rfl⟩) | ⟨e, -, rfl⟩ <;> rfl

theorem Relation.admits_child {r : Relation} {c : Child} (h : c ∈ r.children) :
    c.slot.admits c.node := by
  cases r with
  | table => exact absurd h List.not_mem_nil
  | aliased =>
    obtain rfl := List.mem_singleton.mp h
    rfl
  | join =>
    simp only [children, List.mem_append, List.mem_pair, List.mem_map] at h
    rcases h with (rfl | rfl) | ⟨w, -, rfl⟩ <;> rfl

/-- Every child fits its slot. -/
theorem Node.admits_child {n : Node} {c : Child} (h : c ∈ n.children) : c.slot.admits c.node := by
  cases n with
  | statement => exact Statement.admits_child h
  | expression => exact Expr.admits_child h
  | relation => exact Relation.admits_child h
  | select =>
    obtain ⟨i, -, rfl⟩ := List.mem_map.mp h
    rfl
  | selectItem i =>
    cases i with
    | single =>
      obtain rfl := List.mem_singleton.mp h
      rfl
    | all => exact absurd h List.not_mem_nil
  | groupBy =>
    obtain ⟨g, -, rfl⟩ := List.mem_map.mp h
    rfl
  | groupingElement g =>
    cases g <;>
    · obtain ⟨e, -, rfl⟩ := List.mem_map.mp h
      rfl
  | window =>
    obtain rfl := List.mem_singleton.mp h
    rfl
  | ksqlWindow | within | tableElement => exact absurd h List.not_mem_nil

/-- What holds of a node whenever it holds of its children holds of all nodes. -/
@[elab_as_elim]
theorem Node.childInduction {P : Node → Prop}
    (step : ∀ n : Node, (∀ c ∈ n.children, P c.node) → P n) (n : Node) : P n :=
  step n fun c _ => childInduction step c.node
termination_by n
decreasing_by exact Node.sizeOf_child_lt (by assumption)

/-! ## What a slot holds -/

/-- The slot holds the nodes that `inj` makes of the values of one type, and `fit` takes the value
out again. -/
structure Slot.Holds {α : Type} (slot : Slot) (fit : Node → Option α) (inj : α → Node) : Prop where
  fit_inj : ∀ a, fit (inj a) = some a
  exists_of_admits : ∀ n, slot.admits n = true → ∃ a, n = inj a

namespace Slot

theorem holds_statement : statement.Holds Node.statement? .statement := by
  refine ⟨fun _ => rfl, ?_⟩
  intro n h
  cases n with
  | statement s => exact ⟨s, rfl⟩
  | _ => contradiction

theorem holds_query : query.Holds Node.query? fun q => .statement (.query q) := by
  refine ⟨fun _ => rfl, ?_⟩
  intro n h
  cases n with
  | statement s =>
    cases s with
    | query q => exact ⟨q, rfl⟩
    | _ => contradiction
  | _ => contradiction

theorem holds_expression : expression.Holds Node.expression? .expression := by
  refine ⟨fun _ => rfl, ?_⟩
  intro n h
  cases n with
  | expression e => exact ⟨e, rfl⟩
  | _ => contradiction

theorem holds_list : list.Holds Node.list? fun xs => .expression (.list xs) := by
  refine ⟨fun _ => rfl, ?_⟩
  intro n h
  cases n with
  | expression e =>
    cases e with
    | list xs => exact ⟨xs, rfl⟩
    | _ => contradiction
  | _ => contradiction

theorem holds_branch : branch.Holds Node.branch? fun b => .expression (.branch b) := by
  refine ⟨fun _ => rfl, ?_⟩
  intro n h
  cases n with
  | expression e =>
    cases e with
    | branch b => exact ⟨b, rfl⟩
    | _ => contradiction
  | _ => contradiction

theorem holds_relation : relation.Holds Node.relation? .relation := by
  refine ⟨fun _ => rfl, ?_⟩
  intro n h
  cases n with
  | relation r => exact ⟨r, rfl⟩
  | _ => contradiction

theorem holds_select : select.Holds Node.select? .select := by
  refine ⟨fun _ => rfl, ?_⟩
  intro n h
  cases n with
  | select s => exact ⟨s, rfl⟩
  | _ => contradiction

theorem holds_selectItem : selectItem.Holds Node.selectItem? .selectItem := by
  refine ⟨fun _ => rfl, ?_⟩
  intro n h
  cases n with
  | selectItem i => exact ⟨i, rfl⟩
  | _ => contradiction

theorem holds_groupBy : groupBy.Holds Node.groupBy? .groupBy := by
  refine ⟨fun _ => rfl, ?_⟩
  intro n h
  cases n with
  | groupBy g => exact ⟨g, rfl⟩
  | _ => contradiction

theorem holds_groupingElement : groupingElement.Holds Node.groupingElement? .groupingElement := by
  refine ⟨fun _ => rfl, ?_⟩
  intro n h
  cases n with
  | groupingElement g => exact ⟨g, rfl⟩
  | _ => contradiction

theorem holds_window : window.Holds Node.window? .window := by
  refine ⟨fun _ => rfl, ?_⟩
  intro n h
  cases n with
  | window w => exact ⟨w, rfl⟩
  | _ => contradiction

theorem holds_ksqlWindow : ksqlWindow.Holds Node.ksqlWindow? .ksqlWindow := by
  refine ⟨fun _ => rfl, ?_⟩
  intro n h
  cases n with
  | ksqlWindow w => exact ⟨w, rfl⟩
  | _ => contradiction

theorem holds_within : within.Holds Node.within? .within := by
  refine ⟨fun _ => rfl, ?_⟩
  intro n h
  cases n with
  | within w => exact ⟨w, rfl⟩
  | _ => contradiction

theorem holds_tableElement : tableElement.Holds Node.tableElement? .tableElement := by
  refine ⟨fun _ => rfl, ?_⟩
  intro n h
  cases n with
  | tableElement e => exact ⟨e, rfl⟩
  | _ => contradiction

end Slot

/-! ## Nodes that fit the slots of other nodes -/

/-- Node by node, what may stand in the slots of the children. -/
abbrev Fit (cs : List Child) (ms : List Node) : Prop :=
  List.Forall₂ (fun c m => c.slot.admits m = true) cs ms

section Fit

variable {α : Type} {slot : Slot} {fit : Node → Option α} {inj : α → Node}

theorem Fit.exists_append {cs ds : List Child} : ∀ {ms : List Node}, Fit (cs ++ ds) ms →
    ∃ ms₁ ms₂, ms = ms₁ ++ ms₂ ∧ Fit cs ms₁ ∧ Fit ds ms₂ := by
  induction cs with
  | nil => exact fun {ms} h => ⟨[], ms, rfl, .nil, h⟩
  | cons c cs ih =>
    intro ms h
    obtain ⟨m, rest, hm, fits, rfl⟩ := List.forall₂_cons_left_iff.mp h
    obtain ⟨ms₁, ms₂, rfl, left, right⟩ := ih fits
    exact ⟨m :: ms₁, ms₂, rfl, .cons hm left, right⟩

theorem Slot.Holds.exists_cons (H : slot.Holds fit inj) {m : Node} {cs : List Child}
    {ms : List Node} (h : Fit (⟨slot, m⟩ :: cs) ms) : ∃ a ms', ms = inj a :: ms' ∧ Fit cs ms' := by
  obtain ⟨m', ms', hm, rest, rfl⟩ := List.forall₂_cons_left_iff.mp h
  obtain ⟨a, rfl⟩ := H.exists_of_admits m' hm
  exact ⟨a, ms', rfl, rest⟩

theorem Slot.Holds.exists_each (H : slot.Holds fit inj) {as : List α} : ∀ {ms : List Node},
    Fit (as.map fun a => ⟨slot, inj a⟩) ms →
      ∃ bs : List α, ms = bs.map inj ∧ bs.length = as.length := by
  induction as with
  | nil => exact fun h => ⟨[], List.forall₂_nil_left_iff.mp h, rfl⟩
  | cons a as ih =>
    intro ms h
    obtain ⟨b, rest, rfl, fits⟩ := H.exists_cons h
    obtain ⟨bs, rfl, len⟩ := ih fits
    exact ⟨b :: bs, rfl, congrArg Nat.succ len⟩

theorem Slot.Holds.exists_optional (H : slot.Holds fit inj) {a? : Option α} {ms : List Node}
    (h : Fit (a?.toList.map fun a => ⟨slot, inj a⟩) ms) :
    ∃ b? : Option α, ms = b?.toList.map inj ∧ b?.isSome = a?.isSome := by
  cases a? with
  | none => exact ⟨none, List.forall₂_nil_left_iff.mp h, rfl⟩
  | some a =>
    obtain ⟨b, ms', rfl, rest⟩ := H.exists_cons h
    rw [List.forall₂_nil_left_iff.mp rest]
    exact ⟨some b, rfl, rfl⟩

end Fit

/-! ## Filling slots -/

namespace Refill

variable {α β : Type} {slot : Slot} {fit : Node → Option α} {inj : α → Node}

/-- What is made of the nodes, and the nodes that are left over. -/
def fill (x : Refill α) (ns : List Node) : α × List Node := x.run ns

@[simp]
theorem fill_pure (a : α) (ns : List Node) : (pure a : Refill α).fill ns = (a, ns) := rfl

@[simp]
theorem fill_bind (x : Refill α) (f : α → Refill β) (ns : List Node) :
    (x >>= f).fill ns = (f (x.fill ns).1).fill (x.fill ns).2 := rfl

@[simp]
theorem fill_map (f : α → β) (x : Refill α) (ns : List Node) :
    (f <$> x).fill ns = (f (x.fill ns).1, (x.fill ns).2) := rfl

@[simp]
theorem fill_next (fit : Node → Option α) (old : α) (n : Node) (ns : List Node) :
    (next fit old).fill (n :: ns) = ((fit n).getD old, ns) := rfl

/-- If each member is filled with nodes of its own, a list is filled with all of them in order. -/
theorem fill_mapM {fillOne : α → Refill α} {nodes : α → List Node} (ns : List Node)
    {as bs : List α}
    (h : List.Forall₂ (fun a b => ∀ ns, (fillOne a).fill (nodes b ++ ns) = (b, ns)) as bs) :
    (as.mapM fillOne).fill (bs.flatMap nodes ++ ns) = (bs, ns) := by
  induction h with
  | nil => rfl
  | @cons a b as bs hab _ ih =>
    rw [List.mapM_cons, List.flatMap_cons, List.append_assoc]
    simp only [fill_bind, fill_pure, hab, ih]

theorem fill_each (H : slot.Holds fit inj) {as bs : List α} (len : bs.length = as.length)
    (ns : List Node) : (as.mapM (next fit)).fill (bs.map inj ++ ns) = (bs, ns) := by
  rw [List.map_eq_flatMap]
  refine fill_mapM ns (List.forall₂_iff_get.mpr ⟨len.symm, ?_⟩)
  intro i _ _ ns
  rw [List.singleton_append, fill_next, H.fit_inj, Option.getD_some]

theorem fill_optional (H : slot.Holds fit inj) {a? b? : Option α} (same : b?.isSome = a?.isSome)
    (ns : List Node) : (Refill.optional fit a?).fill (b?.toList.map inj ++ ns) = (b?, ns) := by
  rcases a? with _ | a
  · rw [Option.isSome_none, Option.isSome_eq_false_iff, Option.isNone_iff_eq_none] at same
    rw [same]
    rfl
  · obtain ⟨b, rfl⟩ := Option.isSome_iff_exists.mp same
    simp [Refill.optional, H.fit_inj]

theorem fill_exprs {es es' : List Expr} (len : es'.length = es.length) (ns : List Node) :
    (exprs es).fill (es'.map Node.expression ++ ns) = (es', ns) :=
  fill_each Slot.holds_expression len ns

end Refill

end SqlTree
