import SqlTree.Proofs.Expr.Feed
import SqlTree.Proofs.Node.Same

/-!
# What the feed of a node tells

Nodes have the same feed exactly when they are the same. So no hash function tells apart what is the
same: neither locations, nor the order of settings, nor the sign of zero or the bits of what is not
a number have a part in a hash.
-/

namespace SqlTree

open Feed

/-! ## Settings, windows and columns -/

theorem Properties.tells_feed : Tells Properties.feed Properties.canonical := by
  have entries : Tells (fun entry => .text entry.1 :: entry.2.feed) canonicalEntry := by
    intro a b r s
    simp [canonicalEntry, Literal.tells_feed, and_assoc]
  have listed : ∀ p : Properties,
      p.feed = ofList (fun entry => .text entry.1 :: entry.2.feed) p.sorted := fun _ => rfl
  intro p q r s
  simp [listed, canonical, tells_ofList entries]

theorem TimeUnit.ctorIdx_inj {a b : TimeUnit} : a.ctorIdx = b.ctorIdx ↔ a = b :=
  (Function.LeftInverse.injective ofNat_ctorIdx).eq_iff

theorem JoinType.ctorIdx_inj {a b : JoinType} : a.ctorIdx = b.ctorIdx ↔ a = b :=
  (Function.LeftInverse.injective ofNat_ctorIdx).eq_iff

theorem Namespace.ctorIdx_inj {a b : Namespace} : a.ctorIdx = b.ctorIdx ↔ a = b :=
  (Function.LeftInverse.injective ofNat_ctorIdx).eq_iff

theorem Collection.ctorIdx_inj {a b : Collection} : a.ctorIdx = b.ctorIdx ↔ a = b :=
  (Function.LeftInverse.injective ofNat_ctorIdx).eq_iff

theorem ConnectorType.ctorIdx_inj {a b : ConnectorType} : a.ctorIdx = b.ctorIdx ↔ a = b :=
  (Function.LeftInverse.injective ofNat_ctorIdx).eq_iff

theorem TimeSpan.tells_feed : Tells TimeSpan.feed id := by
  intro a b r s
  cases a
  cases b
  simp [feed, UInt64.toNat_inj, TimeUnit.ctorIdx_inj, and_assoc]

theorem WindowKind.tells_feed : Tells WindowKind.feed id := by
  intro a b r s
  cases a <;> cases b <;> simp [feed, TimeSpan.tells_feed, and_assoc]

theorem KsqlWindow.tells_feed : Tells KsqlWindow.feed (KsqlWindow.revise .canonical) := by
  intro a b r s
  simp [feed, revise, Revision.canonical, WindowKind.tells_feed]

theorem Window.tells_feed : Tells Window.feed (Window.revise .canonical) := by
  intro a b r s
  simp [feed, revise, Revision.canonical, tells_ofOption tells_text, KsqlWindow.tells_feed,
    and_assoc]

theorem Within.tells_feed : Tells Within.feed (Within.revise .canonical) := by
  intro a b r s
  simp [feed, revise, Revision.canonical, TimeSpan.tells_feed, and_assoc]

theorem TableElement.tells_feed : Tells TableElement.feed (TableElement.revise .canonical) := by
  intro a b r s
  simp [feed, revise, Revision.canonical, Namespace.ctorIdx_inj, SqlType.tells_feed, and_assoc]

/-! ## Relations and queries -/

theorem Expr.tells_feed_revise : Tells Expr.feed (Expr.revise .canonical) := by
  intro a b r s
  rw [Expr.revise_canonical, Expr.revise_canonical]
  exact Expr.tells_feed a b r s

theorem JoinCriteria.tells_feed : Tells JoinCriteria.feed (JoinCriteria.revise .canonical) := by
  intro a b r s
  cases a
  cases b
  simp [feed, revise, Expr.tells_feed_revise]

theorem Relation.tells_feed : Tells Relation.feed (Relation.revise .canonical) := by
  intro a
  induction a with
  | table l n =>
    intro b r s
    cases b <;> simp [feed, revise, Revision.canonical, Name.tells_feed]
  | aliased l a newName ih =>
    intro b r s
    cases b <;> simp [feed, revise, Revision.canonical, ih, and_assoc]
  | join l t a a' c w? ih ih' =>
    intro b r s
    cases b <;> simp [feed, revise, Revision.canonical, JoinType.ctorIdx_inj, ih, ih',
      JoinCriteria.tells_feed, tells_ofOption Within.tells_feed, and_assoc]

theorem SelectItem.tells_feed : Tells SelectItem.feed (SelectItem.revise .canonical) := by
  intro a b r s
  cases a <;> cases b <;> simp [feed, revise, Revision.canonical, Expr.tells_feed_revise,
    tells_ofOption tells_text, tells_ofOption Name.tells_feed, and_assoc]

theorem Select.tells_feed : Tells Select.feed (Select.revise .canonical) := by
  intro a b r s
  simp [feed, revise, Revision.canonical, tells_ofList SelectItem.tells_feed]

theorem GroupingElement.tells_feed :
    Tells GroupingElement.feed (GroupingElement.revise .canonical) := by
  have columns := tells_ofList Expr.tells_feed_revise
  intro a b r s
  cases a <;> cases b <;> simp [feed, revise, Revision.canonical, columns, tells_ofList columns]

theorem GroupBy.tells_feed : Tells GroupBy.feed (GroupBy.revise .canonical) := by
  intro a b r s
  simp [feed, revise, Revision.canonical, tells_ofList GroupingElement.tells_feed]

theorem Query.tells_feed : Tells Query.feed (Query.revise .canonical) := by
  have limits : Tells (ofOption fun n : UInt32 => [.number n.toNat]) (Option.map id) :=
    tells_ofOption fun _ _ _ _ => by simp [UInt32.toNat_inj]
  intro a b r s
  simp [feed, revise, Revision.canonical, Select.tells_feed, Relation.tells_feed,
    tells_ofOption Window.tells_feed, tells_ofOption Expr.tells_feed_revise,
    tells_ofOption GroupBy.tells_feed, limits, and_assoc]

/-! ## Statements and nodes -/

mutual

theorem Statement.tells_feed : ∀ (a b : Statement) (r s : Feed),
    a.feed ++ r = b.feed ++ s ↔ a.revise .canonical = b.revise .canonical ∧ r = s
  | .several _ ss, b, _, _ => by
    cases b <;> simp [feed, revise, Revision.canonical, Statement.tells_feedList ss]
  | .create .., b, _, _ => by
    cases b <;> simp [feed, revise, Revision.canonical, Collection.ctorIdx_inj, Name.tells_feed,
      tells_ofList TableElement.tells_feed, tells_ofBool, Properties.tells_feed, and_assoc]
  | .createStreamAs .., b, _, _ => by
    cases b <;> simp [feed, revise, Revision.canonical, Name.tells_feed, Query.tells_feed,
      tells_ofBool, Properties.tells_feed, tells_ofOption Expr.tells_feed_revise, and_assoc]
  | .createTableAs .., b, _, _ => by
    cases b <;> simp [feed, revise, Revision.canonical, Name.tells_feed, Query.tells_feed,
      tells_ofBool, Properties.tells_feed, and_assoc]
  | .insertInto .., b, _, _ => by
    cases b <;> simp [feed, revise, Revision.canonical, Name.tells_feed, Query.tells_feed,
      tells_ofOption Expr.tells_feed_revise, and_assoc]
  | .dropTable .., b, _, _ => by
    cases b <;> simp [feed, revise, Revision.canonical, Name.tells_feed, tells_ofBool, and_assoc]
  | .createConnector .., b, _, _ => by
    cases b <;> simp [feed, revise, Revision.canonical, Properties.tells_feed,
      ConnectorType.ctorIdx_inj, and_assoc]
  | .query _, b, _, _ => by cases b <;> simp [feed, revise, Query.tells_feed]

theorem Statement.tells_feedList : ∀ (as bs : List Statement) (r s : Feed),
    as.length = bs.length ∧ Statement.feedList as ++ r = Statement.feedList bs ++ s ↔
      Statement.reviseList .canonical as = Statement.reviseList .canonical bs ∧ r = s
  | [], bs, _, _ => by cases bs <;> simp [feedList, reviseList]
  | a :: as, [], _, _ => by simp [reviseList]
  | a :: as, b :: bs, r, s => by
    simp only [List.length_cons, Nat.add_right_cancel_iff, feedList, List.append_assoc,
      Statement.tells_feed a, reviseList, List.cons.injEq, and_assoc,
      ← Statement.tells_feedList as bs]
    exact and_left_comm

end

theorem Node.tells_feed : Tells Node.feed Node.canonical := by
  intro a b r s
  cases a <;> cases b <;> simp [feed, canonical, revise, Statement.tells_feed,
    Expr.tells_feed_revise, Relation.tells_feed, Select.tells_feed, SelectItem.tells_feed,
    GroupBy.tells_feed, GroupingElement.tells_feed, Window.tells_feed, KsqlWindow.tells_feed,
    Within.tells_feed, TableElement.tells_feed]

/-! ## Equality and hashes -/

theorem Node.feed_eq_iff {a b : Node} : a.feed = b.feed ↔ a.canonical = b.canonical :=
  Node.tells_feed.feed_eq_iff

/-- Wherever in a text its parts stand, a node has the same feed. -/
theorem Node.feed_eq_of_unplaced_eq {a b : Node} (h : a.unplaced = b.unplaced) :
    a.feed = b.feed := by
  rw [feed_eq_iff, ← canonical_unplaced, h, canonical_unplaced]

/-- In whatever order settings are given, they have the same feed. -/
theorem Properties.feed_eq_of_perm {p q : Properties} (hp : p.keys.Nodup)
    (h : p.entries.Perm q.entries) : p.feed = q.feed := by
  rw [tells_feed.feed_eq_iff, canonical_eq_iff_perm hp]
  exact h.map canonicalEntry

/-- What is the same has the same feed and so the same hash, whatever is made of the feed, and only
what is the same has; this holds of nodes, literals, settings, types and declared columns. Nodes
have the same feed exactly when they differ in locations, in the order of settings and in doubles
that count as the same, at whatever depth. -/
theorem same_iff_feed_eq :
    (∀ a b : Node, a.DistinctKeys → b.DistinctKeys → ((a == b) = true ↔ a.feed = b.feed)) ∧
    (∀ a b : Literal, (a == b) = true ↔ a.feed = b.feed) ∧
    (∀ p q : Properties, p.keys.Nodup → q.keys.Nodup → ((p == q) = true ↔ p.feed = q.feed)) ∧
    (∀ s t : SqlType, (s == t) = true ↔ s.feed = t.feed) ∧
    (∀ es fs : List TableElement, (es == fs) = true ↔
      ofList TableElement.feed es = ofList TableElement.feed fs) ∧
    (∀ (δ : Type) (hash : Feed → δ) (a b : Node), a.DistinctKeys → b.DistinctKeys →
      (a == b) = true → hash a.feed = hash b.feed) ∧
    (∀ a b : Node, a.feed = b.feed ↔ a.canonical = b.canonical) ∧
    (∀ a b : Node, a.unplaced = b.unplaced → a.feed = b.feed) ∧
    (∀ p q : Properties, p.keys.Nodup → p.entries.Perm q.entries → p.feed = q.feed) ∧
    (∀ d e : Double, d.isZero = true → e.isZero = true →
      (Literal.double d).feed = (Literal.double e).feed) ∧
    ∀ d e : Double, d.isNaN = true → e.isNaN = true →
      (Literal.double d).feed = (Literal.double e).feed := by
  have nodes : ∀ a b : Node, a.DistinctKeys → b.DistinctKeys →
      ((a == b) = true ↔ a.feed = b.feed) := by
    intro a b ha hb
    rw [Node.feed_eq_iff]
    exact Node.same_iff ha hb
  have columns : ∀ es fs : List TableElement, (es == fs) = true ↔
      ofList TableElement.feed es = ofList TableElement.feed fs := by
    intro es fs
    rw [(tells_ofList TableElement.tells_feed).feed_eq_iff]
    exact list_beq_iff TableElement.same_iff
  refine ⟨nodes, ?_, ?_, ?_, columns, ?_, fun _ _ => Node.feed_eq_iff,
    fun _ _ => Node.feed_eq_of_unplaced_eq, fun _ _ => Properties.feed_eq_of_perm, ?_, ?_⟩
  · intro a b
    rw [Literal.tells_feed.feed_eq_iff]
    exact Literal.same_iff
  · intro p q hp hq
    rw [Properties.tells_feed.feed_eq_iff]
    exact Properties.same_iff hp hq
  · intro s t
    rw [Feed.Tells.feed_eq_iff SqlType.tells_feed]
    exact SqlType.same_iff_eq
  · intro δ hash a b ha hb same
    rw [(nodes a b ha hb).mp same]
  · intro d e hd he
    rw [Literal.feed, Literal.feed, Double.canonical_of_isZero hd, Double.canonical_of_isZero he]
  · intro d e hd he
    rw [Literal.feed, Literal.feed, Double.canonical_of_isNaN hd, Double.canonical_of_isNaN he]

/-- Two lists of statements with a connector, at other places and with the settings in another
order, with another zero and another not-a-number among them. -/
theorem same_iff_feed_eq_connectors :
    let zero : Double := ⟨0x8000000000000000⟩
    let nan : Double := ⟨0xFFF0000000000001⟩
    let within (l : Location) (settings : List (String × Literal)) : Node :=
      .statement (.several l [.createConnector l "c" ⟨settings⟩ .sink])
    let first := within (.of 1 2) [("b", .double .nan), ("a", .double .zero)]
    let second := within .unknown [("a", .double zero), ("b", .double nan)]
    let settings : Properties := ⟨[("b", .null), ("a", .null)]⟩
    let turned : Properties := ⟨[("a", .null), ("b", .null)]⟩
    first.DistinctKeys ∧ second.DistinctKeys ∧ (first == second) = true ∧
      first.feed = second.feed ∧ first.feed.hash = second.feed.hash ∧
      (first.withLocation .unknown).feed = first.feed ∧
      settings.keys.Nodup ∧ turned.keys.Nodup ∧ settings.entries.Perm turned.entries ∧
      (settings == turned) = true ∧ settings.feed = turned.feed ∧
      zero.isZero = true ∧ (Literal.double .zero).feed = (Literal.double zero).feed ∧
      nan.isNaN = true ∧ (Literal.double .nan).feed = (Literal.double nan).feed := by
  intro zero nan within first second settings turned
  have last : settings.keys.Nodup := by decide
  have keys : turned.keys.Nodup := by decide
  have hfirst : first.DistinctKeys := ⟨last, trivial⟩
  have hsecond : second.DistinctKeys := ⟨keys, trivial⟩
  have same : (first == second) = true := by decide
  have perm : settings.entries.Perm turned.entries := .swap _ _ _
  obtain ⟨nodes, -, maps, -, -, hashes, -, moved, turn, zeros, nans⟩ := same_iff_feed_eq
  have fed := turn settings turned last perm
  refine ⟨hfirst, hsecond, same, (nodes first second hfirst hsecond).mp same,
    hashes _ Feed.hash first second hfirst hsecond same, ?_, last, keys, perm, ?_, fed, ?_, ?_, ?_,
    ?_⟩
  · exact moved _ _ (Node.unplaced_withLocation .unknown first)
  · exact (maps settings turned last keys).mpr fed
  · decide
  · exact zeros .zero zero (by decide) (by decide)
  · decide
  · exact nans .nan nan (by decide) (by decide)

end SqlTree
