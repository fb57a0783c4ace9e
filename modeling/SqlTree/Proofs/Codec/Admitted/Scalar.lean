import SqlTree.Proofs.Codec.Gives
import SqlTree.Proofs.Codec.Scalar

/-!
# Decoded parts

What names, types, literals, properties, spans of time, windows and column declarations are decoded
to obeys the rules of well-formedness, at every depth, and its doubles are finite. Its encoding
needs no more levels than there were.
-/

namespace SqlTree

open Decoder (Admits Payload)
open Fields (Gives)

/-! ## Words -/

theorem ArithmeticOperator.admitted : decoder.Admits encode fun _ => True := .of_flat fun _ => rfl

theorem Sign.admitted : decoder.Admits encode fun _ => True := .of_flat fun _ => rfl

theorem ComparisonOperator.admitted : decoder.Admits encode fun _ => True := .of_flat fun _ => rfl

theorem LogicalOperator.admitted : decoder.Admits encode fun _ => True := .of_flat fun _ => rfl

theorem JoinType.admitted : decoder.Admits encode fun _ => True := .of_flat fun _ => rfl

theorem ConnectorType.admitted : decoder.Admits encode fun _ => True := .of_flat fun _ => rfl

theorem Namespace.admitted : decoder.Admits encode fun _ => True := .of_flat fun _ => rfl

theorem Kind.admitted : decoder.Admits encode fun _ => True := .of_flat fun _ => rfl

theorem TimeUnit.admitted : decoder.Admits encode fun _ => True := .of_flat fun _ => rfl

/-! ## Places, names and spans of time -/

theorem Position.admitted : decoder.Admits encode fun _ => True := by
  refine Gives.decoder (.seq (.field .any) (.map (.field .any) ?_))
  intro levels line _ column _
  simp [encode]

theorem Location.admitted : decoder.Admits encode fun _ => True := by
  refine Decoder.Gives.map (.option Position.admitted) ?_
  intro levels p? h
  exact ⟨trivial, Json.depth_ofOption_le.mpr fun p hp => (h p hp).2⟩

theorem Location.gives_field : field.Gives fun levels l => l.encode.depth ≤ levels := by
  refine .map (.option Position.admitted) ?_
  intro levels p? h
  exact Json.depth_ofOption_le.mpr fun p hp => (h p hp).2

theorem Name.admitted : decoder.Admits encode Valid := by
  have string : Decoder.string.Admits Json.ofString fun _ => True := .of_flat fun _ => rfl
  refine Gives.decoder (.checked (.field (string.list.imp ?_)))
  rintro levels parts ⟨-, room⟩ n hn
  obtain ⟨rfl, valid⟩ := of_eq_ok.mp hn
  exact ⟨valid, by simpa [encode] using room⟩

theorem TimeSpan.admitted : decoder.Admits encode fun _ => True := by
  refine Gives.decoder (.seq (.field TimeUnit.admitted) (.map (.field .any) ?_))
  intro levels size _ unit hu
  simpa [encode] using hu.2

/-! ## Types -/

theorem SqlType.validFields_iff {fields : List StructField} :
    ValidFields fields ↔ ∀ f ∈ fields, f.Valid := by
  induction fields with
  | nil => simp [ValidFields]
  | cons f fields ih =>
    rcases f with ⟨name, type⟩
    rw [ValidFields, ih, List.forall_mem_cons]
    rfl

theorem SqlType.check_eq_ok {t t' : SqlType} (h : check t = .ok t') :
    t' = t ∧ ∀ precision scale, t = decimal precision scale → t.Valid := by
  cases t with
  | decimal precision scale =>
    obtain ⟨rfl, valid⟩ := decimalOf_eq_ok.mp h
    exact ⟨rfl, fun _ _ _ => valid⟩
  | _ => exact ⟨(Except.ok.inj h).symm, fun _ _ h => nomatch h⟩

theorem StructField.admittedWith {type : Decoder SqlType}
    (h : type.Admits SqlType.encode SqlType.Valid) : (decoderWith type).Admits encode Valid := by
  refine Gives.decoder (.seq (.field h) (.map (.field .any) ?_))
  rintro levels name - type ⟨valid, room⟩
  exact ⟨valid, by simpa [encode] using room⟩

namespace SqlType

/-- What an alternative gives is admitted once it has passed the check. -/
theorem gives_alternatives {type : Decoder SqlType} (h : type.Admits encode Valid) :
    ∀ alternative ∈ alternatives type, alternative.2.Gives fun levels t =>
      ∀ t', check t = .ok t' → t'.Valid ∧ t'.encode.depth ≤ levels := by
  have plain {t : SqlType} (valid : t.Valid) (flat : t.encode.depth = 0) (levels : Nat)
      (t' : SqlType) (ht : check t = .ok t') : t'.Valid ∧ t'.encode.depth ≤ levels := by
    rw [(check_eq_ok ht).1, flat]
    exact ⟨valid, Nat.zero_le levels⟩
  unfold alternatives
  simp only [List.forall_mem_cons]
  refine ⟨plain trivial rfl, plain trivial rfl, plain trivial rfl, plain trivial rfl,
    plain trivial rfl, ?decimal, ?array, ?map, ?struct, nofun⟩
  case decimal =>
    refine Gives.decoder (.seq (.field .any) (.map (.field .any) ?_))
    intro levels precision _ scale _ t ht
    obtain ⟨rfl, valid⟩ := check_eq_ok ht
    exact ⟨valid precision scale rfl, by simp [encode]⟩
  case array =>
    refine Decoder.Gives.map h ?_
    rintro levels element ⟨valid, room⟩ t ht
    rw [(check_eq_ok ht).1]
    exact ⟨valid, Json.depth_tagged_le.mpr room⟩
  case map =>
    refine Decoder.Gives.map h ?_
    rintro levels value ⟨valid, room⟩ t ht
    rw [(check_eq_ok ht).1]
    exact ⟨valid, Json.depth_tagged_le.mpr room⟩
  case struct =>
    refine Decoder.Gives.map (StructField.admittedWith h).list ?_
    rintro levels fields ⟨valid, room⟩ t ht
    rw [(check_eq_ok ht).1]
    refine ⟨validFields_iff.mpr valid, Json.depth_tagged_le.mpr ?_⟩
    rwa [encodeFields_eq]

theorem admittedTo (k : Nat) : (decoderTo k).Admits encode Valid := by
  induction k with
  | zero => exact Decoder.Gives.fail
  | succ k ih => exact Decoder.Gives.checked (.tagged (gives_alternatives ih))

theorem admitted : decoder.Admits encode Valid := admittedTo _

end SqlType

theorem StructField.admitted : decoder.Admits encode Valid := admittedWith SqlType.admitted

/-! ## Literals and properties -/

section Reader

variable [Double.Reader]

theorem Decoder.gives_double : double.Gives fun _ d => d.isFinite = true := by
  intro levels j d h
  unfold double at h
  split at h
  · split at h
    case h_1 hd =>
      rw [← Except.ok.inj h]
      exact Double.Reader.finite hd
    case h_2 => contradiction
  · contradiction

namespace Literal

theorem gives_alternatives : ∀ alternative ∈ alternatives,
    alternative.2.Gives fun levels (a : Literal) => a.Finite ∧ a.encode.depth ≤ levels := by
  unfold alternatives
  simp only [List.forall_mem_cons]
  refine ⟨fun _ => ⟨trivial, Nat.zero_le _⟩, .map .any ?_, .map .any ?_, .map .any ?_,
    .map Decoder.gives_double ?double, .map .any ?_, .map .any ?_, nofun⟩
  case double =>
    intro levels d finite
    refine ⟨finite, Json.depth_tagged_le.mpr ?_⟩
    cases d.numeral? <;> exact Nat.zero_le levels
  all_goals
    intro levels a _
    exact ⟨trivial, Json.depth_tagged_le.mpr (Nat.zero_le levels)⟩

theorem admitted : decoder.Admits encode fun a => a.Valid ∧ a.Finite := by
  refine Decoder.Gives.checked (.imp (.tagged gives_alternatives) ?_)
  rintro levels a ⟨finite, room⟩ a' ha
  obtain ⟨rfl, valid⟩ := check_eq_ok.mp ha
  exact ⟨⟨valid, finite⟩, room⟩

end Literal

end Reader

namespace Properties

/-- Properties as they come out of a document: no key twice, and all values admitted. -/
structure Admitted (levels : Nat) (p : Properties) : Prop where
  unique : p.keys.Nodup
  values : ∀ e ∈ p.entries, (e.2.Valid ∧ e.2.Finite) ∧ e.2.encode.depth ≤ levels

theorem Admitted.insert {levels : Nat} {p : Properties} {key : String} {value : Literal}
    (h : p.Admitted levels)
    (hv : (value.Valid ∧ value.Finite) ∧ value.encode.depth ≤ levels) :
    (p.insert key value).Admitted levels where
  unique := nodup_keys_insert h.unique
  values e he := by
    rcases mem_put he with rfl | he
    · exact hv
    · exact h.values e he

variable [Double.Reader]

theorem admitted_decodeMembers {levels : Nat} : ∀ {ms : List (JsonText × Json)} {p q : Properties},
    p.Admitted levels → decodeMembers levels ms p = .ok q → q.Admitted levels
  | [], p, q, hp, h => by
    rwa [← Except.ok.inj h]
  | (.unpaired, _) :: _, _, _, _, h => nomatch h
  | (.plain key, j) :: ms, p, q, hp, h => by
    obtain ⟨value, given, rest⟩ := Except.bind_eq_ok.mp h
    exact admitted_decodeMembers (hp.insert (Literal.admitted levels j value given)) rest

theorem admitted : decoder.Admits encode fun p => p.Valid ∧ p.Finite := by
  intro levels j p h
  unfold decoder at h
  split at h
  case h_1 levels _ =>
    have empty : Properties.empty.Admitted levels := ⟨List.nodup_nil, fun _ he => nomatch he⟩
    obtain ⟨unique, values⟩ := admitted_decodeMembers empty h
    refine ⟨⟨⟨unique, fun e he => (values e he).1.1⟩, fun e he => (values e he).1.2⟩, ?_⟩
    exact Json.depth_record_le.mpr (List.forall_mem_map.mpr fun e he => (values e he).2)
  case h_2 => contradiction

end Properties

/-! ## Windows and columns -/

theorem TableElement.check_eq_ok {e e' : TableElement} (h : check e = .ok e') :
    e' = e ∧ e.name ≠ "" := by
  obtain ⟨checked, hc, rfl⟩ := Except.map_eq_ok.mp h
  obtain ⟨rfl, named⟩ := of_eq_ok.mp hc
  exact ⟨rfl, named⟩

theorem TableElement.admitted : decoder.Admits encode Valid := by
  refine Gives.decoder (.checked (.seq (.field SqlType.admitted) (.seq (.field .any)
    (.seq (.field Namespace.admitted) (.map Location.gives_field ?_)))))
  rintro levels l hl role ⟨-, hr⟩ name - type ⟨valid, ht⟩ e he
  obtain ⟨rfl, named⟩ := check_eq_ok he
  exact ⟨⟨named, valid⟩, by simp [encode, hl, hr, ht]⟩

theorem WindowKind.admitted : decoder.Admits encode fun _ => True := by
  refine Decoder.Gives.tagged ?_
  simp only [List.forall_mem_cons]
  refine ⟨Gives.decoder (.map (.field TimeSpan.admitted) ?tumbling),
    Gives.decoder (.seq (.field TimeSpan.admitted) (.map (.field TimeSpan.admitted) ?hopping)),
    Gives.decoder (.map (.field TimeSpan.admitted) ?session), nofun⟩
  case tumbling =>
    rintro levels size ⟨-, hs⟩
    simp [encode, hs]
  case hopping =>
    rintro levels size ⟨-, hs⟩ advance ⟨-, ha⟩
    simp [encode, hs, ha]
  case session =>
    rintro levels gap ⟨-, hg⟩
    simp [encode, hg]

theorem KsqlWindow.admitted : decoder.Admits encode fun _ => True := by
  refine Gives.decoder (.seq (.field WindowKind.admitted) (.map Location.gives_field ?_))
  rintro levels l hl kind ⟨-, hk⟩
  simp [encode, hl, hk]

theorem Window.admitted : decoder.Admits encode fun _ => True := by
  refine Gives.decoder (.seq (.field KsqlWindow.admitted) (.seq (.option .any)
    (.map Location.gives_field ?_)))
  rintro levels l hl name? - window ⟨-, hw⟩
  simp [encode, hl, hw]

theorem Within.admitted : decoder.Admits encode fun _ => True := by
  refine Gives.decoder (.seq (.field TimeSpan.admitted) (.seq (.field TimeSpan.admitted)
    (.map Location.gives_field ?_)))
  rintro levels l hl before ⟨-, hb⟩ after ⟨-, ha⟩
  simp [encode, hl, hb, ha]

end SqlTree
