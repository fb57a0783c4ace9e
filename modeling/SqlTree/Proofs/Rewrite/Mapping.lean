import SqlTree.Proofs.Expr.Flipped
import SqlTree.Proofs.Node.Mapped
import SqlTree.Proofs.Node.RevisedParts
import SqlTree.Proofs.Node.Same
import SqlTree.Proofs.Rewrite.Run
import SqlTree.Rewrite.Overrides

/-!
# Rewriters that map expressions

A rewriter that, whenever the parts of an expression have been mapped, completes the map at the
expression itself, maps a whole tree. If the map keeps expressions the same that are the same, no
`CUBE` gets more distinct columns, so the rewrite of a valid tree succeeds. Two such rewriters are
the one that maps literals and the one that turns comparisons round.
-/

namespace SqlTree

open Rewrite

variable {σ : Type}

/-- The session after a rewrite that reports its start and its end alone. -/
def Session.rewritten (s : Session σ) (root result : Node) : Session σ :=
  ⟨(s.journal.push (.started root.kind)).push (.finished result.kind), s.data⟩

namespace Rewriter

/-- Around a node with its slots mapped, the rewriter completes the map. -/
structure Performs (r : Rewriter σ) (f : Expr → Expr) : Prop where
  forms : Expr.KeepsForms f
  congr : ∀ a b : Expr, (a == b) = true → (f a == f b) = true
  around : ∀ (n : Node) (descend : Rewrite σ Node) (s : Session σ),
    descend.runFrom s = (.ok (n.mapSlots f), s) →
      (r.around n descend).runFrom s = (.ok (n.mapExprs f), s)

namespace Performs

variable {r : Rewriter σ} {f : Expr → Expr}

theorem process (h : r.Performs f) {n : Node} (hn : n.FewColumns) (s : Session σ) :
    (r.process n).runFrom s = (.ok (n.mapExprs f), s) := by
  induction n using Node.childInduction with
  | step n ih =>
    rw [process_eq]
    apply h.around
    have rebuilt := n.rebuilt_mapSlots h.forms
    have counted := (hn.mapSlots h.congr).recounted_eq
    exact descend_of_process rebuilt counted fun c hc => ih c hc (hn.child hc)

theorem rewrite (h : r.Performs f) {root : Node} (hr : root.FewColumns) (s : Session σ) :
    (r.rewrite root).runFrom s =
      (.ok (root.mapExprs f), s.rewritten root (root.mapExprs f)) := by
  rw [runFrom_rewrite, h.process hr]
  rfl

end Performs

end Rewriter

/-! ## Upper case -/

namespace Rewriter

theorem upperString_upperString {upper : String → String} (h : ∀ s, upper (upper s) = upper s)
    (v : Literal) : upperString upper (upperString upper v) = upperString upper v := by
  cases v with
  | string s => rw [upperString, upperString, h]
  | _ => rfl

/-- Strings are the same only if they are equal, and the other literals stay. -/
theorem upperString_congr (upper : String → String) (a b : Literal) (h : (a == b) = true) :
    (upperString upper a == upperString upper b) = true := by
  cases a with
  | string s =>
    cases b with
    | string t =>
      obtain rfl : s = t := of_decide_eq_true h
      exact Literal.same_iff.mpr rfl
    | _ => contradiction
  | _ =>
    cases b with
    | string => contradiction
    | _ => exact h

/-- A letter in upper case is no letter in lower case any more. -/
theorem toUpper_toUpper (c : Char) : c.toUpper.toUpper = c.toUpper := by
  have fixed {c : Char} (h : ¬ ('a'.val ≤ c.val ∧ c.val ≤ 'z'.val)) : c.toUpper = c := dif_neg h
  by_cases lower : 'a'.val ≤ c.val ∧ c.val ≤ 'z'.val
  · obtain ⟨valid, raised⟩ : ∃ valid, c.toUpper = ⟨c.val + ('A'.val - 'a'.val), valid⟩ :=
      ⟨_, dif_pos lower⟩
    refine fixed ?_
    rw [raised]
    simp only [UInt32.le_iff_toNat_le, UInt32.toNat_add] at lower ⊢
    have first : 'a'.val.toNat = 97 := rfl
    have last : 'z'.val.toNat = 122 := rfl
    have shift : ('A'.val - 'a'.val).toNat = 2 ^ 32 - 32 := rfl
    omega
  · rw [fixed lower, fixed lower]

theorem upperAscii_upperAscii (s : String) : upperAscii (upperAscii s) = upperAscii s := by
  rw [upperAscii, upperAscii, String.toList_ofList, List.map_map]
  exact congrArg String.ofList (List.map_congr_left fun c _ => toUpper_toUpper c)

end Rewriter

/-! ## Literals -/

/-- The literals changed, and nothing else. -/
def Revision.literals (f : Literal → Literal) : Revision := ⟨id, f, id⟩

theorem Revision.literals_after_literals (g f : Literal → Literal) :
    (literals g).after (literals f) = literals (g ∘ f) := rfl

namespace Expr

variable {f : Literal → Literal}

theorem revise_literals_eq_mapParts {e : Expr} (h : ∀ l v, e ≠ .literal l v) :
    e.revise (.literals f) = e.mapParts (Expr.revise (.literals f)) := by
  cases e with
  | literal l v => exact absurd rfl (h l v)
  | call l n es => simp [revise, mapParts, Revision.literals]
  | case l o? bs e? =>
    have branches : Branch.revise (.literals f) = fun b => ⟨b.location,
        b.condition.revise (.literals f), b.result.revise (.literals f)⟩ := by
      funext b
      cases b
      rfl
    have kept : (Revision.literals f).location l = l := rfl
    simp [revise, mapParts, branches, kept]
  | isIn l v xs =>
    rcases xs with ⟨l', es⟩
    simp [revise, InList.revise, mapParts, Revision.literals]
  | list xs =>
    rcases xs with ⟨l', es⟩
    simp [revise, InList.revise, mapParts, Revision.literals]
  | branch b =>
    cases b
    rfl
  | _ => rfl

/-- With literals the same that are the same, so are the expressions around them. -/
theorem revise_literals_congr (hf : ∀ a b : Literal, (a == b) = true → (f a == f b) = true)
    (a b : Expr) (h : (a == b) = true) :
    (a.revise (.literals f) == b.revise (.literals f)) = true := by
  have values : Literal.canonical ∘ f = (Literal.canonical ∘ f) ∘ Literal.canonical := by
    funext v
    exact Literal.same_iff.mp (hf v v.canonical (Literal.same_iff.mpr v.canonical_canonical.symm))
  have settings : Properties.canonical = Properties.canonical ∘ Properties.canonical :=
    (funext Properties.canonical_canonical).symm
  have revision : Revision.canonical.after (.literals f) =
      (Revision.canonical.after (.literals f)).after .canonical := by
    simp only [Revision.after, Revision.canonical, Revision.literals]
    congr 1
  have canonical (e : Expr) : (e.revise (.literals f)).canonical =
      e.canonical.revise (Revision.canonical.after (.literals f)) :=
    calc (e.revise (.literals f)).canonical
      _ = e.revise (Revision.canonical.after (.literals f)) := by
        rw [← revise_canonical, revise_revise]
      _ = (e.revise .canonical).revise (Revision.canonical.after (.literals f)) := by
        rw [revise_revise, ← revision]
      _ = e.canonical.revise (Revision.canonical.after (.literals f)) := by
        rw [revise_canonical]
  rw [beq_iff] at h ⊢
  rw [canonical, canonical, h]

end Expr

namespace Rewriter

theorem performs_mapLiterals {f : Literal → Literal}
    (hf : ∀ a b : Literal, (a == b) = true → (f a == f b) = true) :
    (mapLiterals f : Rewriter σ).Performs (Expr.revise (.literals f)) where
  forms := ⟨fun _ => Expr.revise_literals_eq_mapParts nofun,
    fun _ => Expr.revise_literals_eq_mapParts nofun⟩
  congr := Expr.revise_literals_congr hf
  around n descend s h := by
    unfold mapLiterals
    dsimp only
    split
    case h_1 => rfl
    case h_2 other =>
      have same : n.mapSlots (Expr.revise (.literals f)) =
          n.mapExprs (Expr.revise (.literals f)) := by
        refine Node.mapSlots_eq_mapExprs ?_
        rintro e rfl
        exact Expr.revise_literals_eq_mapParts fun l v he => other l v (congrArg Node.expression he)
      rw [h, same]

/-- Mapping literals by a function that keeps the same ones the same succeeds. It changes the
literals in expressions, those in conditions of joins apart, and nothing else. Mapping them again,
by another function, gives what mapping them by both at once gives. -/
theorem rewrite_mapLiterals {f g : Literal → Literal}
    (hf : ∀ a b : Literal, (a == b) = true → (f a == f b) = true)
    (hg : ∀ a b : Literal, (a == b) = true → (g a == g b) = true) {root : Node}
    (valid : root.Valid) (s : Session σ) :
    let once := root.mapExprs (Expr.revise (.literals f))
    let both := root.mapExprs (Expr.revise (.literals (g ∘ f)))
    ((mapLiterals f).rewrite root).runFrom s = (.ok once, s.rewritten root once) ∧
    ((mapLiterals g).rewrite once).runFrom s = (.ok both, s.rewritten once both) ∧
    ((mapLiterals (g ∘ f)).rewrite root).runFrom s = (.ok both, s.rewritten root both) ∧
    ((∀ v, f (f v) = f v) →
      ((mapLiterals f).rewrite once).runFrom s = (.ok once, s.rewritten once once)) := by
  intro once both
  have few : once.FewColumns := valid.fewColumns.mapExprs (Expr.revise_literals_congr hf)
  have fused (h : Literal → Literal) : once.mapExprs (Expr.revise (.literals h)) =
      root.mapExprs (Expr.revise (.literals (h ∘ f))) := by
    rw [Node.mapExprs_mapExprs, Expr.revise_comp_revise, Revision.literals_after_literals]
  refine ⟨(performs_mapLiterals hf).rewrite valid.fewColumns s, ?_, ?_, ?_⟩
  · have second := (performs_mapLiterals hg).rewrite few s
    rwa [fused] at second
  · exact (performs_mapLiterals fun a b h => hg _ _ (hf a b h)).rewrite valid.fewColumns s
  · intro idempotent
    have again := (performs_mapLiterals hf).rewrite few s
    have twice : f ∘ f = f := funext idempotent
    rwa [fused, twice] at again

/-- Two columns of a `CUBE` become the same in upper case. The property and the condition of the
join keep the literals that they have. -/
theorem rewrite_mapLiterals_upperString :
    let literal (s : String) : Expr := .ofLiteral (.string s)
    let source : Relation := .join .unknown .inner (.table .unknown ⟨["a"]⟩)
      (.table .unknown ⟨["b"]⟩) (.on (literal "c")) none
    let root (s : String) : Node := .statement (.createStreamAs (.of 1 1) ⟨["s"]⟩
      { Query.simple ⟨.unknown, [.single .unknown (literal s) none]⟩ source with
        groupBy? := some ⟨.unknown, [.cube .unknown [literal s, literal "C"]]⟩ }
      false ⟨[("format", .string "c")]⟩ none)
    (root "c").Valid ∧
    ((upperLiterals.rewrite (root "c")).runFrom ⟨#[], ()⟩).1 = .ok (root "C") ∧
    ((upperLiterals.rewrite (root "C")).runFrom ⟨#[], ()⟩).1 = .ok (root "C") := by
  intro literal source root
  have valid : (root "c").Valid := by
    have few : (GroupingSet.of [literal "c", literal "C"]).length ≤
        GroupingElement.cubeLimit := by decide
    have string (v : String) : (literal v).Valid := trivial
    refine ⟨by simp [Name.Valid], ⟨?_, ?_, nofun, ?_, nofun⟩, ⟨by decide, ?_⟩, nofun⟩
    · simp [Query.simple, Select.Valid, SelectItem.Valid, string]
    · simp [Query.simple, source, Relation.Valid, JoinCriteria.Valid, Name.Valid, string]
    · simp [GroupBy.Valid, GroupingElement.Valid, few, string]
    · simp [Literal.Valid]
  have upper : (root "c").mapExprs (Expr.revise (.literals (upperString upperAscii))) =
      root "C" := rfl
  have congr := upperString_congr upperAscii
  obtain ⟨once, -, -, again⟩ := rewrite_mapLiterals congr congr valid ⟨#[], ()⟩
  replace again := again (upperString_upperString upperAscii_upperAscii)
  rw [upper] at once again
  exact ⟨valid, congrArg Prod.fst once, congrArg Prod.fst again⟩

end Rewriter

/-! ## Comparisons -/

theorem Expr.flipped_eq_mapParts {e : Expr}
    (h : ∀ l op a b, e ≠ .binary l (.comparison op) a b) :
    e.flipped = e.mapParts Expr.flipped := by
  have branches : Branch.flipped =
      fun b => ⟨b.location, b.condition.flipped, b.result.flipped⟩ := by
    funext b
    cases b
    rfl
  cases e with
  | binary l op a b =>
    cases op with
    | comparison op => exact absurd rfl (h l op a b)
    | _ => rfl
  | call => rw [flipped, flippedList_eq, mapParts]
  | case =>
    rw [flipped, flippedOption_eq, flippedOption_eq, Branch.flippedList_eq, branches, mapParts]
  | isIn l v xs =>
    rcases xs with ⟨l', es⟩
    rw [flipped, InList.flipped, flippedList_eq, mapParts]
  | list xs =>
    rcases xs with ⟨l', es⟩
    rw [flipped, InList.flipped, flippedList_eq, mapParts]
  | branch b => rw [flipped, branches, mapParts]
  | _ => rfl

namespace Rewriter

theorem performs_flipComparisons : (flipComparisons : Rewriter σ).Performs Expr.flipped where
  forms := ⟨fun _ => Expr.flipped_eq_mapParts nofun, fun _ => Expr.flipped_eq_mapParts nofun⟩
  congr := Expr.flipped_congr
  around n descend s h := by
    unfold flipComparisons
    dsimp only
    split
    case h_1 l op a b =>
      -- The operands are mapped before they change places.
      rw [Rewrite.runFrom_bind, h]
      rfl
    case h_2 other =>
      have same : n.mapSlots Expr.flipped = n.mapExprs Expr.flipped := by
        refine Node.mapSlots_eq_mapExprs ?_
        rintro e rfl
        exact Expr.flipped_eq_mapParts fun l op a b he =>
          other l op a b (congrArg Node.expression he)
      rw [h, same]

/-- Flipping comparisons succeeds. It turns round every comparison, at every depth, those in
conditions of joins apart, and changes nothing else. Flipping them again gives the tree back. -/
theorem rewrite_flipComparisons {root : Node} (valid : root.Valid) (s : Session σ) :
    let once := root.mapExprs Expr.flipped
    (flipComparisons.rewrite root).runFrom s = (.ok once, s.rewritten root once) ∧
    (flipComparisons.rewrite once).runFrom s = (.ok root, s.rewritten once root) := by
  intro once
  have back : once.mapExprs Expr.flipped = root := by
    rw [Node.mapExprs_mapExprs, Expr.flipped_comp_flipped, Node.mapExprs_id]
  have few : once.FewColumns := valid.fewColumns.mapExprs Expr.flipped_congr
  have again := performs_flipComparisons.rewrite few s
  rw [back] at again
  exact ⟨performs_flipComparisons.rewrite valid.fewColumns s, again⟩

/-- A comparison with a comparison as an operand is turned round at both levels, and each keeps its
location. The one that a join is made on stays. -/
theorem rewrite_flipComparisons_nested :
    let column (c : String) : Expr := .ofColumn ⟨[c]⟩
    let less (a b : Expr) : Expr := .binary (.of 1 1) (.comparison .lessThan) a b
    let greater (a b : Expr) : Expr := .binary (.of 1 1) (.comparison .greaterThan) a b
    let equal (a b : Expr) : Expr := .binary (.of 2 2) (.comparison .equal) a b
    let root (e : Expr) : Node := .statement (.query
      { Query.simple ⟨.unknown, [.all .unknown none]⟩ (.join .unknown .inner
          (.table .unknown ⟨["a"]⟩) (.table .unknown ⟨["b"]⟩)
          (.on (less (column "c") (column "d"))) none) with
        filter? := some e })
    let before := root (equal (less (column "c") (column "d")) (column "e"))
    let after := root (equal (column "e") (greater (column "d") (column "c")))
    before.Valid ∧
    ((flipComparisons.rewrite before).runFrom ⟨#[], ()⟩).1 = .ok after ∧
    ((flipComparisons.rewrite after).runFrom ⟨#[], ()⟩).1 = .ok before := by
  intro column less greater equal root before after
  have valid : before.Valid := by
    refine ⟨?_, ?_, ?_, nofun, nofun⟩
    · simp [Query.simple, Select.Valid, SelectItem.Valid]
    · simp [Query.simple, Relation.Valid, JoinCriteria.Valid, Name.Valid, less, column,
        Expr.ofColumn, Expr.Valid]
    · simp [Name.Valid, equal, less, column, Expr.ofColumn, Expr.Valid]
  have flipped : before.mapExprs Expr.flipped = after := rfl
  obtain ⟨once, twice⟩ := rewrite_flipComparisons valid ⟨#[], ()⟩
  rw [flipped] at once twice
  exact ⟨valid, congrArg Prod.fst once, congrArg Prod.fst twice⟩

end Rewriter

end SqlTree
