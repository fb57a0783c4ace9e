import SqlTree.Proofs.Rewrite.AlikeRoots
import SqlTree.Proofs.Rewrite.Treatment
import SqlTree.Rewrite.Action

/-!
# The first fault of a rewrite

Children are treated one after the other, and the first one that fails, or becomes a node that does
not fit its slot, ends the rewrite. What comes after it is not looked at, the node is not shown to
an exit rule, and neither are the nodes in which it stands. A fault at the limit reports itself, and
nothing is reported after that.
-/

namespace SqlTree

open Rewrite

/-! ## Other nodes in later slots -/

/-- The children with other nodes in their slots. -/
def Child.holding (cs : List Child) (ms : List Node) : List Child :=
  cs.zipWith (fun c m => ⟨c.slot, m⟩) ms

theorem Child.eq_of_maps_eq {cs ds : List Child} (nodes : cs.map node = ds.map node)
    (slots : cs.map slot = ds.map slot) : cs = ds := by
  have parts : ∀ cs : List Child, cs = List.zipWith mk (cs.map slot) (cs.map node) := by
    intro cs
    rw [List.zipWith_map, List.zipWith_self, List.map_id']
  rw [parts cs, parts ds, nodes, slots]

theorem Child.map_holding {cs : List Child} {ms : List Node} (fit : Fit cs ms) :
    (holding cs ms).map node = ms ∧ (holding cs ms).map slot = cs.map slot := by
  induction fit with
  | nil => exact ⟨rfl, rfl⟩
  | cons _ _ ih => exact ⟨congrArg (_ :: ·) ih.1, congrArg (_ :: ·) ih.2⟩

/-- The nodes `others` take the places of the children after `c`. -/
theorem Node.exists_rebuilt_after {n : Node} {before after : List Child} {c : Child}
    (children : n.children = before ++ c :: after) {others : List Node} (fit : Fit after others) :
    ∃ m, n.Rebuilt (before.map Child.node ++ c.node :: others) m ∧
      m.children = before ++ c :: Child.holding after others := by
  have keep : ∀ cs : List Child, (∀ b ∈ cs, b ∈ n.children) → Fit cs (cs.map Child.node) := by
    intro cs hcs
    rw [Fit, List.forall₂_map_right_iff, List.forall₂_same]
    exact fun b hb => Node.admits_child (hcs b hb)
  have all : Fit n.children (before.map Child.node ++ c.node :: others) := by
    rw [children]
    refine List.rel_append (keep before ?_) (.cons ?_ fit)
    · intro b hb
      rw [children]
      exact List.mem_append_left _ hb
    · apply Node.admits_child (n := n)
      rw [children]
      exact List.mem_append_right _ List.mem_cons_self
  obtain ⟨m, rebuilt⟩ := Node.exists_rebuilt all
  obtain ⟨nodes, slots⟩ := rebuilt.children
  obtain ⟨heldNodes, heldSlots⟩ := Child.map_holding fit
  refine ⟨m, rebuilt, Child.eq_of_maps_eq ?_ ?_⟩
  · rw [nodes, List.map_append, List.map_cons, heldNodes]
  · rw [slots, children, List.map_append, List.map_append, List.map_cons, List.map_cons, heldSlots]

namespace Rules

variable {γ : Type} {t : Rules γ} {context : γ} {limit depth : Nat} {n m : Node} {c : Child}
  {before after : List Child} {e : RewriteError}

/-- The same fault is the first one in a node with other children after it, if that node is not
replaced either. -/
theorem FirstFault.of_rebuilt (h : t.FirstFault context limit depth n before c after e)
    {others : List Node} (fit : Fit after others)
    (rebuilt : n.Rebuilt (before.map Child.node ++ c.node :: others) m)
    (unreplaced : t.replacement? context m = none) :
    t.FirstFault context limit depth m before c (Child.holding after others) e := by
  obtain ⟨m', rebuilt', children⟩ := Node.exists_rebuilt_after h.children fit
  obtain rfl : m' = m := by rw [← rebuilt'.withChildren_eq, rebuilt.withChildren_eq]
  exact ⟨unreplaced, h.within, children, h.passed, h.fault⟩

theorem logLines_append (journal : Array Event) (events : List Event) :
    logLines (journal ++ events.toArray) = logLines journal ++ events.filterMap Event.logLine? := by
  rw [logLines, Array.toList_append, List.filterMap_append]
  rfl

theorem logged_question (n : Node) : (t.question n).filterMap Event.logLine? = [] := by
  unfold question
  split <;> rfl

/-! ## On the way to a node -/

/-- In treating `root` at one depth one comes, when `events` have been reported, to treat `n` at
another. -/
inductive ComesTo (t : Rules γ) (context : γ) (limit : Nat) :
    Nat → Node → List Event → Nat → Node → Prop where
  | here {depth : Nat} {n : Node} : ComesTo t context limit depth n [] depth n
  | inside {depth depth' : Nat} {root n : Node} {before after : List Child} {c : Child}
    {events : List Event} (unreplaced : t.replacement? context root = none)
    (within : depth < limit) (children : root.children = before ++ c :: after)
    (passed : ∀ b ∈ before, t.Passes context limit (depth + 1) b)
    (h : ComesTo t context limit (depth + 1) c.node events depth' n) :
    ComesTo t context limit depth root
      (t.question root ++ (t.reports context limit (depth + 1) before ++ events)) depth' n

/-- An error on the way is the error of all that it is on the way in, and its last report is
theirs. -/
theorem ComesTo.treat_eq {root : Node} {depth' : Nat} {events more : List Event}
    (h : t.ComesTo context limit depth root events depth' n)
    (failed : t.treat context limit depth' n = (.error e, more)) :
    t.treat context limit depth root = (.error e, events ++ more) := by
  induction h with
  | here => exact failed
  | @inside depth _ root _ before after c events unreplaced within children passed _ ih =>
    have inside := ih failed
    have fault : t.Faults context limit (depth + 1) c e := .failed (congrArg Prod.fst inside)
    have first : t.FirstFault context limit depth root before c after e :=
      ⟨unreplaced, within, children, passed, fault⟩
    rw [treat_of_firstFault first, inside]
    simp only [List.append_assoc]

/-! ## The guard -/

/-- The limit is not reported. -/
def Quiet (events : List Event) : Prop := ∀ l kind, Event.limitReached l kind ∉ events

/-- If the limit is reported, then at the very end, and the outcome is its error. -/
def LimitLast (limit : Nat) (run : Except RewriteError Node × List Event) : Prop :=
  Quiet run.2 ∨ ∃ earlier kind, Quiet earlier ∧ run.2 = earlier ++ [.limitReached limit kind] ∧
    run.1 = .error (.depthLimitExceeded limit)

theorem Quiet.append {events more : List Event} (h : Quiet events) (h' : Quiet more) :
    Quiet (events ++ more) := by
  intro l kind reported
  exact (List.mem_append.mp reported).elim (h l kind) (h' l kind)

theorem quiet_question (n : Node) : Quiet (t.question n) := by
  intro l kind
  unfold question
  split <;> simp

theorem quiet_farewell (kind : Kind) (rebuilt : Node) :
    Quiet (t.farewell context kind rebuilt) := by
  intro l kind
  unfold farewell
  split
  · simp
  · split <;> simp

/-- Nothing that passes has reported the limit. -/
theorem LimitLast.quiet (h : LimitLast limit (t.treat context limit depth c.node))
    (passes : t.Passes context limit depth c) : Quiet (t.treat context limit depth c.node).2 := by
  obtain ⟨m, given, -⟩ := passes
  rcases h with quiet | ⟨_, _, -, -, failed⟩
  · exact quiet
  · rw [given] at failed
    contradiction

theorem quiet_reports {cs : List Child}
    (h : ∀ c ∈ cs, LimitLast limit (t.treat context limit depth c.node))
    (passed : ∀ c ∈ cs, t.Passes context limit depth c) :
    Quiet (t.reports context limit depth cs) := by
  intro l kind reported
  obtain ⟨c, hc, reported⟩ := List.mem_flatMap.mp reported
  exact (h c hc).quiet (passed c hc) l kind reported

theorem limitLast_treat (t : Rules γ) (context : γ) (limit depth : Nat) (n : Node) :
    LimitLast limit (t.treat context limit depth n) := by
  induction n using Node.childInduction generalizing depth with
  | step n ih =>
    rcases t.treat_cases context limit depth n with ⟨m, replaced⟩ | ⟨unreplaced, deep⟩ |
      ⟨before, c, after, e, first⟩ | ⟨unreplaced, within, passed⟩
    · rw [treat_of_replaced replaced]
      exact .inl ((quiet_question n).append (by simp [Quiet]))
    · rw [treat_of_limit unreplaced deep]
      exact .inr ⟨t.question n, n.kind, quiet_question n, rfl, rfl⟩
    · have earlier : Quiet (t.reports context limit (depth + 1) before) := by
        refine quiet_reports (fun b hb => ih b ?_ (depth + 1)) first.passed
        rw [first.children]
        exact List.mem_append_left _ hb
      have last := ih c (first.children ▸ List.mem_append_right _ List.mem_cons_self) (depth + 1)
      rw [treat_of_firstFault first]
      rcases last with quiet | ⟨inside, kind, quiet, reported, failed⟩
      · exact .inl ((quiet_question n).append (earlier.append quiet))
      · -- the limit is reported inside the faulty child, whose error is the one of the limit
        refine .inr ⟨t.question n ++ (t.reports context limit (depth + 1) before ++ inside), kind,
          (quiet_question n).append (earlier.append quiet), ?_, ?_⟩
        · simp only [reported, List.append_assoc]
        · cases first.fault with
          | failed h => rw [← h, failed]
          | misplaced h _ =>
            rw [h] at failed
            contradiction
    · obtain ⟨ms, become⟩ := exists_become passed
      rw [treat_of_become unreplaced within become]
      refine .inl ((quiet_question n).append ((quiet_reports ?_ passed).append ?_))
      · exact fun c hc => ih c hc (depth + 1)
      · cases (n.withChildren ms).recounted with
        | error e => simp [Quiet]
        | ok rebuilt => exact quiet_farewell n.kind rebuilt

theorem limitLast_allReports (t : Rules γ) (context : γ) (limit : Nat) (root : Node) :
    LimitLast limit ((t.treat context limit 0 root).1, t.allReports context limit root) := by
  have started : Quiet [.started root.kind] := by simp [Quiet]
  have treated := t.limitLast_treat context limit 0 root
  unfold allReports
  rcases h : t.treat context limit 0 root with ⟨e | m, events⟩ <;> rw [h] at treated <;>
    rcases treated with quiet | ⟨earlier, kind, quiet, reported, failed⟩
  case error.inl => exact .inl ((started.append quiet).append (by simp [Quiet]))
  case error.inr =>
    refine .inr ⟨.started root.kind :: earlier, kind, started.append quiet, ?_, failed⟩
    simp only at reported
    rw [reported, List.append_nil, List.cons_append]
  case ok.inl => exact .inl ((started.append quiet).append (by simp [Quiet]))
  case ok.inr => contradiction

/-! ## The first fault decides -/

/-- What has been reported when a fault in the child `c` ends the treatment of a node. -/
def faultReports (t : Rules γ) (context : γ) (limit depth : Nat) (n : Node) (before : List Child)
    (c : Child) : List Event :=
  t.question n ++ (t.reports context limit (depth + 1) before ++
    (t.treat context limit (depth + 1) c.node).2)

theorem FirstFault.runFrom_process (h : t.FirstFault context limit depth n before c after e)
    (journal : Array Event) : ((t.rewriter limit context).process n).runFrom ⟨journal, depth⟩ =
      (.error e, ⟨journal ++ (t.faultReports context limit depth n before c).toArray, depth⟩) := by
  rw [Rules.runFrom_process, treat_of_firstFault h]
  rfl

/-- With other nodes after the fault the outcome and the log are the same. -/
theorem FirstFault.alike_of_rebuilt (h : t.FirstFault context limit depth n before c after e)
    {others : List Node} (fit : Fit after others)
    (rebuilt : n.Rebuilt (before.map Child.node ++ c.node :: others) m)
    (unreplaced : t.replacement? context m = none) (journal : Array Event) :
    let run := ((t.rewriter limit context).process n).runFrom ⟨journal, depth⟩
    let run' := ((t.rewriter limit context).process m).runFrom ⟨journal, depth⟩
    run'.1 = run.1 ∧ logLines run'.2.journal = logLines run.2.journal := by
  intro run run'
  have again := h.of_rebuilt fit rebuilt unreplaced
  simp only [run, run', h.runFrom_process, again.runFrom_process, true_and]
  simp only [faultReports, logLines_append, List.filterMap_append, logged_question]

/-- When the limit is reported, nothing is reported or logged after that. -/
theorem LimitLast.ends {outcome : Except RewriteError Node} {added : List Event}
    (h : LimitLast limit (outcome, added)) {l : Nat} {kind : Kind}
    (reported : .limitReached l kind ∈ added) (journal : Array Event) :
    outcome = .error (.depthLimitExceeded limit) ∧
      added.getLast? = some (.limitReached limit kind) ∧
      (logLines (journal ++ added.toArray)).getLast? =
        (Event.limitReached limit kind).logLine? := by
  rcases h with quiet | ⟨earlier, kind', quiet, rfl, failed⟩
  · exact absurd reported (quiet l kind)
  · -- what is reported before the end is not the limit
    obtain ⟨-, rfl⟩ : l = limit ∧ kind = kind' := by
      rcases List.mem_append.mp reported with inside | atEnd
      · exact absurd inside (quiet l kind)
      · simpa using atEnd
    refine ⟨failed, List.getLast?_concat, ?_⟩
    rw [logLines_append, List.filterMap_append]
    simp [Event.logLine?]

/-- The first child with a fault ends the rewrite with that fault. The reports are those of the way
to the node, of the children before it and of the child itself: no rule is shown a later child, and
no exit rule the node or one in which it stands. With other nodes in the later slots, if the whole
is not replaced for them, the outcome and the log are the same. When the limit is reported, nothing
is logged after that. -/
theorem run_of_firstFault (t : Rules γ) (context : γ) (limit : Nat) :
    (∀ {depth n before c after e}, t.FirstFault context limit depth n before c after e →
      (∀ journal, ((t.rewriter limit context).process n).runFrom ⟨journal, depth⟩ =
        (.error e, ⟨journal ++ (t.faultReports context limit depth n before c).toArray, depth⟩)) ∧
      (∀ others, Fit after others →
        let m := n.withChildren (before.map Child.node ++ c.node :: others)
        t.replacement? context m = none → ∀ journal,
          let run := ((t.rewriter limit context).process n).runFrom ⟨journal, depth⟩
          let run' := ((t.rewriter limit context).process m).runFrom ⟨journal, depth⟩
          run'.1 = run.1 ∧ logLines run'.2.journal = logLines run.2.journal) ∧
      ∀ root earlier, t.ComesTo context limit 0 root earlier depth n → ∀ journal,
        t.run context root journal limit =
          (.error e, ⟨journal ++ (.started root.kind ::
            (earlier ++ t.faultReports context limit depth n before c)).toArray, 0⟩)) ∧
    ∀ root journal,
      let run := t.run context root journal limit
      ∃ added : List Event, run.2.journal = journal ++ added.toArray ∧
        ∀ l kind, .limitReached l kind ∈ added →
          run.1 = .error (.depthLimitExceeded limit) ∧
          added.getLast? = some (.limitReached limit kind) ∧
          (logLines run.2.journal).getLast? = (Event.limitReached limit kind).logLine? := by
  refine ⟨fun {depth n before c after e} h => ⟨h.runFrom_process, ?_, ?_⟩, ?_⟩
  · intro others fit m unreplaced journal
    obtain ⟨m', rebuilt, -⟩ := Node.exists_rebuilt_after h.children fit
    obtain rfl : m = m' := rebuilt.withChildren_eq
    exact h.alike_of_rebuilt fit rebuilt unreplaced journal
  · intro root earlier way journal
    rw [run_eq_treat, allReports, way.treat_eq (treat_of_firstFault h), List.append_nil]
    rfl
  · intro root journal run
    have last := t.limitLast_allReports context limit root
    simp only [run, run_eq_treat]
    exact ⟨_, rfl, fun l kind reported => last.ends reported journal⟩

/-- In `NOT (1 BETWEEN a AND 2)` columns are refused, so that `2` is not looked at, and `NOT` and
`BETWEEN` are not shown to their exit rules. With a limit of two nothing but `NOT` and `BETWEEN` is
descended into, and `1` is too deep. -/
theorem run_of_firstFault_between :
    let one : Expr := .ofLiteral (.integer 1)
    let two : Expr := .ofLiteral (.integer 2)
    let a : Expr := .ofColumn ⟨["a"]⟩
    let n : Node := .expression (.between .unknown one a two)
    let m : Node := .expression (.between .unknown one a one)
    let root : Node := .expression (.unary .unknown .not (.between .unknown one a two))
    let t : Rules Unit := (ofList [.exit .literal fun n _ => .ok n, .exit .not fun n _ => .ok n,
      .exit .between fun n _ => .ok n,
      .exit .qualifiedNameReference fun _ _ => .error (.invalidNode (.refused "no"))]).1
    t.FirstFault () 3 1 n [.ofExpr one] (.ofExpr a) [.ofExpr two] (.invalidNode (.refused "no")) ∧
    t.run () root #[] 3 = (.error (.invalidNode (.refused "no")),
      ⟨#[.started .not, .asked .exit (.expression one), .answered .exit .literal .literal,
        .asked .exit (.expression a)], 0⟩) ∧
    (((t.rewriter 3 ()).process m).runFrom ⟨#[], 1⟩).1 = .error (.invalidNode (.refused "no")) ∧
    (t.run () root #[] 2).1 = .error (.depthLimitExceeded 2) := by
  intro one two a n m root t
  have given : t.treat () 3 2 (.expression one) =
      (.ok (.expression one),
        [.asked .exit (.expression one), .answered .exit .literal .literal]) :=
    treat_of_leaf rfl (by decide) rfl
  have refused : t.treat () 3 2 (.expression a) =
      (.error (.invalidNode (.refused "no")), [.asked .exit (.expression a)]) :=
    treat_of_leaf rfl (by decide) rfl
  have first : t.FirstFault () 3 1 n [.ofExpr one] (.ofExpr a) [.ofExpr two]
      (.invalidNode (.refused "no")) := by
    refine ⟨rfl, by decide, rfl, ?_, .failed (congrArg Prod.fst refused)⟩
    intro b hb
    obtain rfl := List.mem_singleton.mp hb
    exact ⟨_, congrArg Prod.fst given, rfl⟩
  have children : root.children = [] ++ .ofExpr (.between .unknown one a two) :: [] := rfl
  have way : t.ComesTo () 3 0 root [] 1 n :=
    .inside rfl (by decide) children (List.forall_mem_nil _) .here
  -- with a limit of two the literal is the first fault, and `BETWEEN` in turn
  have deep : t.treat () 2 1 n = (.error (.depthLimitExceeded 2),
      [.limitReached 2 .literal]) := by
    have tooDeep : t.treat () 2 2 (.expression one) =
        (.error (.depthLimitExceeded 2), [.limitReached 2 .literal]) :=
      treat_of_limit rfl (by decide)
    have first : t.FirstFault () 2 1 n [] (.ofExpr one) [.ofExpr a, .ofExpr two]
        (.depthLimitExceeded 2) :=
      ⟨rfl, by decide, rfl, List.forall_mem_nil _, .failed (congrArg Prod.fst tooDeep)⟩
    rw [treat_of_firstFault first]
    exact congrArg (Prod.mk _) (congrArg Prod.snd tooDeep)
  have inside : t.ComesTo () 2 0 root [] 1 n :=
    .inside rfl (by decide) children (List.forall_mem_nil _) .here
  obtain ⟨faults, -⟩ := run_of_firstFault t () 3
  obtain ⟨alone, later, whole⟩ := faults first
  refine ⟨first, ?_, ?_, ?_⟩
  · have reported : t.faultReports () 3 1 n [.ofExpr one] (.ofExpr a) =
        [.asked .exit (.expression one), .answered .exit .literal .literal,
          .asked .exit (.expression a)] := by
      show (t.treat () 3 2 (.expression one)).2 ++ [] ++ (t.treat () 3 2 (.expression a)).2 = _
      rw [given, refused]
      rfl
    rw [whole root [] way #[], reported]
    rfl
  · have same := (later [.expression one] (.cons rfl .nil) rfl #[]).1
    rw [alone] at same
    exact same
  · rw [run_eq_treat, inside.treat_eq deep]

/-- `a AND TRUE` fails because columns are refused, but `a AND FALSE`, where only the second part
differs, is replaced as a whole. -/
theorem run_of_firstFault_replaced :
    let a : Expr := .ofColumn ⟨["a"]⟩
    let yes : Expr := .ofLiteral (.boolean true)
    let no : Expr := .ofLiteral (.boolean false)
    let n : Node := .expression (.binary .unknown (.logical .and) a yes)
    let t : Rules String := (ofList [
      (Action.replaceText "(a AND false)" (.expression no)).registration .enter .logicalBinary,
      (Action.refuse "no").registration .exit .qualifiedNameReference]).1
    let m : Node := n.withChildren [.expression a, .expression no]
    t.replacement? "" n = none ∧
    t.FirstFault "" 2 0 n [] (.ofExpr a) [.ofExpr yes] (.invalidNode (.refused "no")) ∧
    Fit [.ofExpr yes] [.expression no] ∧
    (((t.rewriter 2 "").process n).runFrom ⟨#[], 0⟩).1 = .error (.invalidNode (.refused "no")) ∧
    (((t.rewriter 2 "").process m).runFrom ⟨#[], 0⟩).1 = .ok (.expression no) := by
  intro a yes no n t m
  have unreplaced : t.replacement? "" n = none := by decide +kernel
  have replaced : t.replacement? "" m = some (.expression no) := by rfl
  have refused : t.treat "" 2 1 (.expression a) =
      (.error (.invalidNode (.refused "no")), [.asked .exit (.expression a)]) :=
    treat_of_leaf rfl (by decide) rfl
  have first : t.FirstFault "" 2 0 n [] (.ofExpr a) [.ofExpr yes]
      (.invalidNode (.refused "no")) :=
    ⟨unreplaced, by decide, rfl, List.forall_mem_nil _, .failed (congrArg Prod.fst refused)⟩
  refine ⟨unreplaced, first, .cons rfl .nil, ?_, ?_⟩
  · rw [first.runFrom_process]
  · rw [Rules.runFrom_process, treat_of_replaced replaced]

end Rules

end SqlTree
