import SqlTree.Proofs.Node.RebuiltValid
import SqlTree.Proofs.Rewrite.ByReplacement
import SqlTree.Proofs.Rewrite.Outcome

/-!
# Replacing the outermost matches

A replacement puts another expression in the place of every outermost expression that passes the
test, and nothing else is changed. It fails if and only if one of the expressions it puts in may not
stand where it would have to, or a `CUBE` would get too many distinct columns.
-/

namespace SqlTree

open Rewrite

namespace Rewrite

variable {α β : Type} {x : Rewrite Nat α} {a : α} {k : Nat} {ok : Prop}

/-- Under the condition `ok`, and only then, the computation succeeds. It then gives `a` and counts
`k` more. -/
def Counts (x : Rewrite Nat α) (ok : Prop) (a : α) (k : Nat) : Prop :=
  ∀ s, (ok → ∃ journal, x.runFrom s = (.ok a, ⟨journal, s.data + k⟩)) ∧
    (¬ ok → ∃ e, (x.runFrom s).1 = .error e)

namespace Counts

theorem of_run (h : ∀ s, ∃ journal, x.runFrom s = (.ok a, ⟨journal, s.data + k⟩)) :
    Counts x True a k := by
  intro s
  exact ⟨fun _ => h s, fun no => absurd trivial no⟩

theorem pure (a : α) : Counts (Pure.pure a) True a 0 :=
  of_run fun s => ⟨s.journal, rfl⟩

theorem note (e : Event) : Counts (Rewrite.note e) True () 0 :=
  of_run fun s => ⟨s.journal.push e, rfl⟩

theorem ofExcept {r : Except RewriteError α} (succeeds : ok → r = .ok a)
    (fails : ¬ ok → ∃ e, r = .error e) : Counts (MonadExcept.ofExcept r) ok a 0 := by
  intro s
  rw [runFrom_ofExcept]
  constructor
  · intro h
    exact ⟨s.journal, by rw [succeeds h]; rfl⟩
  · exact fails

theorem congr {ok' : Prop} (h : Counts x ok a k) (same : ok ↔ ok') : Counts x ok' a k := by
  rw [← propext same]
  exact h

theorem bind {f : α → Rewrite Nat β} {ok' : Prop} {b : β} {k' : Nat} (first : Counts x ok a k)
    (rest : ok → Counts (f a) ok' b k') : Counts (x >>= f) (ok ∧ ok') b (k + k') := by
  intro s
  obtain ⟨succeeds, fails⟩ := first s
  rw [runFrom_bind]
  by_cases h : ok
  · obtain ⟨journal, run⟩ := succeeds h
    obtain ⟨succeeds', fails'⟩ := rest h ⟨journal, s.data + k⟩
    rw [run]
    constructor
    · rintro ⟨-, h'⟩
      rw [← Nat.add_assoc]
      exact succeeds' h'
    · intro no
      exact fails' fun h' => no ⟨h, h'⟩
  · obtain ⟨e, failed⟩ := fails h
    refine ⟨fun both => absurd both.1 h, fun _ => ⟨e, ?_⟩⟩
    rcases hr : x.runFrom s with ⟨r, s'⟩
    rw [hr] at failed
    subst failed
    rfl

theorem mapM {γ : Type} {f : α → Rewrite Nat β} {fits : α → Prop} {g : α → β}
    {counted : α → List γ} {as : List α}
    (h : ∀ a ∈ as, Counts (f a) (fits a) (g a) (counted a).length) :
    Counts (as.mapM f) (∀ a ∈ as, fits a) (as.map g) (as.flatMap counted).length := by
  induction as with
  | nil => exact (pure []).congr ⟨fun _ => List.forall_mem_nil _, fun _ => trivial⟩
  | cons a as ih =>
    obtain ⟨first, rest⟩ := List.forall_mem_cons.mp h
    rw [List.mapM_cons, List.map_cons, List.flatMap_cons, List.length_append]
    have tail : Counts (as.mapM f >>= fun bs => Pure.pure (g a :: bs)) ((∀ a ∈ as, fits a) ∧ True)
        (g a :: as.map g) ((as.flatMap counted).length + 0) :=
      (ih rest).bind fun _ => pure (g a :: as.map g)
    refine (first.bind fun _ => tail).congr ?_
    rw [and_true, List.forall_mem_cons]

end Counts

end Rewrite

/-! ## Slots and what is put into them -/

namespace Replacement

variable {p : Replacement} {n : Node} {c : Child}

/-- May the slot hold what is put into it? -/
def Fits (p : Replacement) (c : Child) : Prop := c.slot.admits (p.put c.node) = true

/-- A match stands where any expression may stand, or where only lists or only branches may. -/
theorem cases_of_hits (h : p.hits c.node = true) (hc : c.slot.admits c.node = true) :
    (∃ e, c = .ofExpr e) ∨ (∃ xs, c = .ofList xs) ∨ ∃ b, c = .ofBranch b := by
  rcases c with ⟨slot, n⟩
  obtain ⟨e, rfl, -⟩ := exists_of_hits h
  cases slot with
  | expression => exact .inl ⟨e, rfl⟩
  | list =>
    obtain ⟨xs, hxs⟩ := Slot.holds_list.exists_of_admits _ hc
    exact .inr (.inl ⟨xs, congrArg (Child.mk .list) hxs⟩)
  | branch =>
    obtain ⟨b, hb⟩ := Slot.holds_branch.exists_of_admits _ hc
    exact .inr (.inr ⟨b, congrArg (Child.mk .branch) hb⟩)
  | _ => contradiction

theorem replaced_of_hits (h : p.hits c.node = true) (hc : c.slot.admits c.node = true) :
    c.replaced p = [c] := by
  rcases cases_of_hits h hc with ⟨e, rfl⟩ | ⟨xs, rfl⟩ | ⟨b, rfl⟩
  · exact Expr.replaced_of_matching h
  · exact InList.replaced_of_matching h
  · exact Branch.replaced_of_matching h

theorem substitute_of_hits (h : p.hits c.node = true) (hc : c.slot.admits c.node = true)
    (fits : p.Fits c) : c.substitute p = p.put c.node := by
  rcases cases_of_hits h hc with ⟨e, rfl⟩ | ⟨xs, rfl⟩ | ⟨b, rfl⟩
  · exact congrArg Node.expression (Expr.substitute_of_matching h)
  · obtain ⟨ys, put⟩ := Slot.holds_list.exists_of_admits _ fits
    have substituted := InList.substitute_of_matching h (Node.expression.inj put)
    rw [put, ← substituted]
    rfl
  · obtain ⟨b', put⟩ := Slot.holds_branch.exists_of_admits _ fits
    have substituted := Branch.substitute_of_matching h (Node.expression.inj put)
    rw [put, ← substituted]
    rfl

/-- What is replaced passes the test and stands in its slot. -/
theorem hits_of_replaced (h : c ∈ n.replaced p) :
    p.hits c.node = true ∧ c.slot.admits c.node = true := by
  induction n using Node.childInduction with
  | step n ih =>
    cases hits : p.hits n with
    | true =>
      obtain ⟨e, rfl, matching⟩ := exists_of_hits hits
      rw [Node.replaced, Expr.replaced_of_matching matching] at h
      obtain rfl := List.mem_singleton.mp h
      exact ⟨matching, rfl⟩
    | false =>
      rw [Node.replaced_eq hits] at h
      obtain ⟨d, hd, h⟩ := List.mem_flatMap.mp h
      cases hits' : p.hits d.node with
      | true =>
        rw [replaced_of_hits hits' (Node.admits_child hd)] at h
        obtain rfl := List.mem_singleton.mp h
        exact ⟨hits', Node.admits_child hd⟩
      | false =>
        rw [Child.replaced_of_missed hits'] at h
        exact ih d hd h

/-! ## What the rewriter does -/

/-- Does every slot hold what is put into it, and has no `CUBE` too many columns afterwards? -/
structure Succeeds (p : Replacement) (replaced : List Child) (result : Node) : Prop where
  fits : ∀ c ∈ replaced, p.Fits c
  few : ∀ columns ∈ result.cubes, (GroupingSet.of columns).length ≤ GroupingElement.cubeLimit

theorem succeeds_of_hits (h : p.hits n = true) : p.Succeeds (n.replaced p) (n.substitute p) := by
  obtain ⟨e, rfl, matching⟩ := exists_of_hits h
  constructor
  · intro c hc
    rw [Node.replaced, Expr.replaced_of_matching matching] at hc
    obtain rfl := List.mem_singleton.mp hc
    rfl
  · exact List.forall_mem_nil _

/-- A node that is no match is treated well if what stands in its slots is, and if it has not become
a `CUBE` with too many columns. -/
theorem succeeds_iff (h : p.hits n = false) :
    p.Succeeds (n.replaced p) (n.substitute p) ↔
      (∀ c ∈ n.children, p.Succeeds (c.replaced p) (c.substitute p)) ∧
      ∀ columns ∈ (n.substitute p).ownCube,
        (GroupingSet.of columns).length ≤ GroupingElement.cubeLimit := by
  have nodes := (Node.rebuilt_substitute h).children.1
  have cubes : (n.substitute p).cubes = (n.substitute p).ownCube ++
      n.children.flatMap fun c => (c.substitute p).cubes := by
    rw [Node.cubes_eq, ← List.flatMap_map, nodes, List.flatMap_map]
  rw [Node.replaced_eq h]
  constructor
  · rintro ⟨fits, few⟩
    rw [cubes] at few
    refine ⟨fun c hc => ⟨?_, ?_⟩, fun columns own => few columns (List.mem_append_left _ own)⟩
    · exact fun d hd => fits d (List.mem_flatMap.mpr ⟨c, hc, hd⟩)
    · exact fun columns hcs =>
        few columns (List.mem_append_right _ (List.mem_flatMap.mpr ⟨c, hc, hcs⟩))
  · rintro ⟨inside, own⟩
    constructor
    · intro d hd
      obtain ⟨c, hc, hd⟩ := List.mem_flatMap.mp hd
      exact (inside c hc).fits d hd
    · intro columns hcs
      rw [cubes] at hcs
      rcases List.mem_append.mp hcs with hcs | hcs
      · exact own columns hcs
      · obtain ⟨c, hc, hcs⟩ := List.mem_flatMap.mp hcs
        exact (inside c hc).few columns hcs

theorem counts_process_of_hits (h : p.hits n = true) :
    (p.rewriter.process n).Counts True (p.put n) 1 :=
  .of_run fun s => ⟨compared n s.journal, process_of_hits h s⟩

theorem counts_process_of_missed {ok : Prop} {m : Node} {k : Nat} (h : p.hits n = false)
    (inside : (p.rewriter.descend n).Counts ok m k) : (p.rewriter.process n).Counts ok m k := by
  intro s
  rw [process_of_missed h]
  exact inside { s with journal := compared n s.journal }

theorem counts_recounted (m : Node) :
    Counts (ofExcept m.recounted) (∀ columns ∈ m.ownCube,
      (GroupingSet.of columns).length ≤ GroupingElement.cubeLimit) m 0 := by
  cases m with
  | groupingElement g =>
    cases g with
    | cube l columns =>
      refine .ofExcept ?_ ?_
      · intro few
        have := few columns List.mem_cons_self
        simp [Node.recounted, GroupingElement.cubeColumns, Nat.not_lt.mpr this]
      · intro many
        have : GroupingElement.cubeLimit < (GroupingSet.of columns).length := by
          simpa [Node.ownCube] using many
        simp [Node.recounted, GroupingElement.cubeColumns, this]
    | _ => exact .ofExcept (fun _ => rfl) fun many => absurd (List.forall_mem_nil _) many
  | _ => exact .ofExcept (fun _ => rfl) fun many => absurd (List.forall_mem_nil _) many

/-- In a slot, what is put in the place of a match has to fit. -/
theorem counts_visit (hc : c.slot.admits c.node = true)
    (admits : c.slot.admits (c.substitute p) = true)
    (h : (p.rewriter.process c.node).Counts
      (p.Succeeds (c.node.replaced p) (c.node.substitute p)) (c.node.substitute p)
      (c.node.replaced p).length) :
    (p.rewriter.visit c).Counts (p.Succeeds (c.replaced p) (c.substitute p)) (c.substitute p)
      (c.replaced p).length := by
  cases hits : p.hits c.node with
  | true =>
    have checked : Counts (ofExcept (c.slot.check (p.put c.node))) (p.Fits c) (c.substitute p)
        0 := by
      refine .ofExcept ?_ ?_
      · intro fits
        rw [substitute_of_hits hits hc fits]
        exact if_pos fits
      · intro misfit
        exact ⟨_, if_neg misfit⟩
    have cubes : (c.substitute p).cubes = [] := by
      rcases cases_of_hits hits hc with ⟨e, rfl⟩ | ⟨xs, rfl⟩ | ⟨b, rfl⟩ <;> rfl
    rw [replaced_of_hits hits hc]
    refine ((counts_process_of_hits hits).bind
      (f := fun m => ofExcept (c.slot.check m)) fun _ => checked).congr ?_
    constructor
    · rintro ⟨-, fits⟩
      refine ⟨?_, by rw [cubes]; exact List.forall_mem_nil _⟩
      rintro d hd
      obtain rfl := List.mem_singleton.mp hd
      exact fits
    · rintro ⟨fits, -⟩
      exact ⟨trivial, fits c List.mem_cons_self⟩
  | false =>
    rw [Child.substitute_of_missed hits] at admits ⊢
    rw [Child.replaced_of_missed hits]
    have checked : Counts (ofExcept (c.slot.check (c.node.substitute p))) True
        (c.node.substitute p) 0 :=
      .ofExcept (fun _ => if_pos admits) fun no => absurd trivial no
    exact (h.bind (f := fun m => ofExcept (c.slot.check m)) fun _ => checked).congr
      (and_iff_left trivial)

theorem counts_process (p : Replacement) (n : Node) :
    (p.rewriter.process n).Counts (p.Succeeds (n.replaced p) (n.substitute p)) (n.substitute p)
      (n.replaced p).length := by
  induction n using Node.childInduction with
  | step n ih =>
    cases hits : p.hits n with
    | true =>
      -- a match is replaced as a whole, whatever stands in it
      have matched := counts_process_of_hits hits
      have succeeds := succeeds_of_hits hits
      obtain ⟨e, rfl, matching⟩ := exists_of_hits hits
      rw [Node.replaced, Expr.replaced_of_matching matching] at succeeds ⊢
      rw [Node.substitute, Expr.substitute_of_matching matching] at succeeds ⊢
      exact matched.congr (iff_of_true trivial succeeds)
    | false =>
      -- otherwise every slot is treated, and a `CUBE` is counted when it has been rebuilt
      have rebuilt := Node.rebuilt_substitute hits
      have admits : ∀ c ∈ n.children, c.slot.admits (c.substitute p) = true :=
        List.forall₂_same.mp (List.forall₂_map_right_iff.mp rebuilt.fit)
      have visits := Counts.mapM fun c hc =>
        counts_visit (Node.admits_child hc) (admits c hc) (ih c hc)
      have counted := counts_recounted (n.substitute p)
      have inside := visits.bind (f := fun ms => ofExcept (n.withChildren ms).recounted) fun _ => by
        rw [rebuilt.withChildren_eq]
        exact counted
      rw [← Node.replaced_eq hits] at inside
      exact (counts_process_of_missed hits inside).congr (succeeds_iff hits).symm

theorem counts_rewrite (p : Replacement) (root : Node) :
    (p.rewriter.rewrite root).Counts (p.Succeeds (root.replaced p) (root.substitute p))
      (root.substitute p) (root.replaced p).length := by
  have finished : Counts (do note (.finished (root.substitute p).kind); return root.substitute p)
      (True ∧ True) (root.substitute p) (0 + 0) :=
    (Counts.note _).bind fun _ => .pure _
  have processed := (counts_process p root).bind
    (f := fun m => do note (.finished m.kind); return m) fun _ => finished
  have started := (Counts.note (.started root.kind)).bind
    (f := fun _ => do let m ← p.rewriter.process root; note (.finished m.kind); return m)
    fun _ => processed
  rw [Nat.zero_add] at started
  exact started.congr (by simp)

/-- What goes wrong when something goes wrong. -/
theorem not_succeeds_iff (p : Replacement) (root : Node) :
    ¬ p.Succeeds (root.replaced p) (root.substitute p) ↔
      (∃ xs, .ofList xs ∈ root.replaced p ∧ ∀ ys, p.result (.list xs) ≠ .list ys) ∨
      (∃ b, .ofBranch b ∈ root.replaced p ∧ ∀ b', p.result (.branch b) ≠ .branch b') ∨
      ∃ columns ∈ (root.substitute p).cubes,
        GroupingElement.cubeLimit < (GroupingSet.of columns).length := by
  constructor
  · intro no
    by_contra fine
    obtain ⟨lists, branches, cubes⟩ := not_or.mp fine |>.imp_right not_or.mp
    refine no ⟨?_, ?_⟩
    · intro c hc
      obtain ⟨hits, admits⟩ := hits_of_replaced hc
      rcases cases_of_hits hits admits with ⟨e, rfl⟩ | ⟨xs, rfl⟩ | ⟨b, rfl⟩
      · rfl
      · by_contra misfit
        refine lists ⟨xs, hc, ?_⟩
        intro ys hys
        exact misfit (by simp [Fits, put, Child.ofList, hys, Slot.admits, Node.list?])
      · by_contra misfit
        refine branches ⟨b, hc, ?_⟩
        intro b' hb
        exact misfit (by simp [Fits, put, Child.ofBranch, hb, Slot.admits, Node.branch?])
    · intro columns hcs
      by_contra many
      exact cubes ⟨columns, hcs, Nat.lt_of_not_le many⟩
  · rintro (⟨xs, hc, misfit⟩ | ⟨b, hc, misfit⟩ | ⟨columns, hcs, many⟩) ⟨fits, few⟩
    · obtain ⟨ys, put⟩ := Slot.holds_list.exists_of_admits _ (fits _ hc)
      exact misfit ys (Node.expression.inj put)
    · obtain ⟨b', put⟩ := Slot.holds_branch.exists_of_admits _ (fits _ hc)
      exact misfit b' (Node.expression.inj put)
    · exact absurd (few columns hcs) (Nat.not_le.mpr many)

/-- A rewrite that succeeds gives the root with every outermost match replaced, each counted once.
It fails if and only if a list in an `IN` is to be replaced by what is no list, or a branch of a
`CASE` by what is no branch, or a `CUBE` gets too many distinct columns. An expression remains one.
-/
theorem rewrite_eq_substitute (p : Replacement) (root : Node) (s : Session Nat) :
    (∀ m, ((p.rewriter.rewrite root).runFrom s).1 = .ok m →
      m = root.substitute p ∧
      ((p.rewriter.rewrite root).runFrom s).2.data = s.data + (root.replaced p).length) ∧
    ((∃ e, ((p.rewriter.rewrite root).runFrom s).1 = .error e) ↔
      (∃ xs, .ofList xs ∈ root.replaced p ∧ ∀ ys, p.result (.list xs) ≠ .list ys) ∨
      (∃ b, .ofBranch b ∈ root.replaced p ∧ ∀ b', p.result (.branch b) ≠ .branch b') ∨
      ∃ columns ∈ (root.substitute p).cubes,
        GroupingElement.cubeLimit < (GroupingSet.of columns).length) ∧
    (∀ c ∈ root.replaced p, p.hits c.node = true ∧ c.slot.admits c.node = true) ∧
    ∀ e, (p.transform e).runFrom s = (p.rewriter.rewrite (.expression e)).runFrom s := by
  obtain ⟨succeeds, fails⟩ := counts_rewrite p root s
  refine ⟨?_, ?_, fun c hc => hits_of_replaced hc, ?_⟩
  · intro m hm
    by_cases h : p.Succeeds (root.replaced p) (root.substitute p)
    · obtain ⟨journal, run⟩ := succeeds h
      rw [run] at hm ⊢
      exact ⟨(Except.ok.inj hm).symm, rfl⟩
    · obtain ⟨e, failed⟩ := fails h
      rw [hm] at failed
      contradiction
  · rw [← not_succeeds_iff]
    refine ⟨?_, fails⟩
    rintro ⟨e, failed⟩ h
    obtain ⟨journal, run⟩ := succeeds h
    rw [run] at failed
    contradiction
  · intro e
    obtain ⟨succeeds, fails⟩ := counts_rewrite p (.expression e) s
    rw [transform, runFrom_bind]
    by_cases h : p.Succeeds ((Node.expression e).replaced p) ((Node.expression e).substitute p)
    · obtain ⟨journal, run⟩ := succeeds h
      rw [run]
      rfl
    · obtain ⟨e', failed⟩ := fails h
      rcases hr : (p.rewriter.rewrite (.expression e)).runFrom s with ⟨r, s'⟩
      rw [hr] at failed
      subst failed
      rfl

/-- `ABS(ABS(a)) IN (b)`: of two calls only the outer one is negated, and it is not looked at again.
To negate the list is not possible. -/
theorem rewrite_substitute_calls :
    let a : Expr := .ofColumn ⟨["a"]⟩
    let abs (e : Expr) : Expr := .call .unknown ⟨["ABS"]⟩ [e]
    let list : InList := ⟨.unknown, [.ofColumn ⟨["b"]⟩]⟩
    let root : Node := .expression (.isIn .unknown (abs (abs a)) list)
    let calls : Replacement := ⟨fun e => e.kind == .functionCall, Expr.negation⟩
    let lists : Replacement := ⟨fun e => e.kind == .inList, Expr.negation⟩
    ((calls.rewriter.rewrite root).runFrom ⟨#[], 0⟩).1 =
      .ok (.expression (.isIn .unknown (abs (abs a)).negation list)) ∧
    ((calls.rewriter.rewrite root).runFrom ⟨#[], 0⟩).2.data = 1 ∧
    ∃ e, ((lists.rewriter.rewrite root).runFrom ⟨#[], 0⟩).1 = .error e := by
  intro a abs list root calls lists
  obtain ⟨succeeds, fails, -, -⟩ := rewrite_eq_substitute calls root ⟨#[], 0⟩
  obtain ⟨-, fails', -, -⟩ := rewrite_eq_substitute lists root ⟨#[], 0⟩
  have replaced : root.replaced calls = [.ofExpr (abs (abs a))] := rfl
  have result : root.substitute calls =
      .expression (.isIn .unknown (abs (abs a)).negation list) := rfl
  rw [replaced, result] at succeeds fails
  rcases h : ((calls.rewriter.rewrite root).runFrom ⟨#[], 0⟩).1 with e | m
  · have failed := fails.mp ⟨e, h⟩
    simp [Child.ofList, Child.ofBranch, Child.ofExpr, Node.cubes] at failed
  · obtain ⟨rfl, count⟩ := succeeds m h
    refine ⟨rfl, count, fails'.mpr (.inl ⟨list, List.mem_cons_self, ?_⟩)⟩
    intro ys h
    cases h

end Replacement

end SqlTree
