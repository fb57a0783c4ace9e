import SqlTree.Proofs.Checked
import SqlTree.Proofs.Codec.Fields
import SqlTree.Proofs.Double.Written
import SqlTree.Proofs.Node.Finite
import SqlTree.Proofs.Properties.Insert

/-!
# Encoded parts, restored

Names, types, literals, properties, spans of time, windows and column declarations are restored from
their encodings. Only a double that is not finite cannot be written.
-/

namespace SqlTree

open Decoder (Restores)

/-! ## What is encoded and checked piece by piece -/

theorem SqlType.encodeFields_eq (fields : List StructField) :
    encodeFields fields = fields.map StructField.encode := by
  induction fields with
  | nil => rfl
  | cons f fields ih =>
    rcases f with ⟨name, type⟩
    rw [encodeFields, ih, List.map_cons, StructField.encode]

theorem SqlType.check_eq {t : SqlType} (ht : t.Valid) : check t = .ok t := by
  cases t with
  | decimal => exact decimalOf_eq_ok.mpr ⟨rfl, ht⟩
  | _ => rfl

theorem TableElement.check_eq {e : TableElement} (he : e.Valid) : check e = .ok e :=
  Except.map_eq_ok.mpr ⟨_, of_eq_ok.mpr ⟨rfl, he.1⟩, rfl⟩

variable [Double.Reader] {bound : Nat}

/-! ## Simple values -/

namespace Decoder

theorem restores_bool (b : Bool) : bool.Restores bound (.bool b) b True :=
  .of_eq True.intro fun _ => rfl

theorem restores_string (s : String) : string.Restores bound (.ofString s) s True :=
  .of_eq JsonText.noConfusion fun _ => rfl

theorem restores_nat {α : Type} {read : Int → Option α} {n : Nat} {a : α} (h : read n = some a) :
    (int read).Restores bound (.ofNat n) a True := by
  refine .of_eq (Numeral.ofNat_proper n) ?_
  intro levels
  rw [Json.ofNat, int, Numeral.int?_ofNat, Option.bind_some, h]

theorem restores_int {α : Type} {read : Int → Option α} {n : Int} {a : α} (h : read n = some a) :
    (int read).Restores bound (.ofInt n) a True := by
  refine .of_eq (Numeral.ofInt_proper n) ?_
  intro levels
  rw [Json.ofInt, int, Numeral.int?_ofInt, Option.bind_some, h]

theorem restores_uint32 (n : UInt32) : uint32.Restores bound (.ofNat n.toNat) n True :=
  restores_nat (by
    rw [if_pos ⟨Int.natCast_nonneg _, n.toNat_lt⟩, Int.toNat_natCast, UInt32.ofNat_toNat])

theorem restores_uint64 (n : UInt64) : uint64.Restores bound (.ofNat n.toNat) n True :=
  restores_nat (by
    rw [if_pos ⟨Int.natCast_nonneg _, n.toNat_lt⟩, Int.toNat_natCast, UInt64.ofNat_toNat])

theorem restores_int32 (n : Int32) : int32.Restores bound (.ofInt n.toInt) n True :=
  restores_int (by rw [if_pos ⟨n.minValue_le_toInt, n.toInt_le⟩, Int32.ofInt_toInt])

theorem restores_int64 (n : Int64) : int64.Restores bound (.ofInt n.toInt) n True :=
  restores_int (by rw [if_pos ⟨n.minValue_le_toInt, n.toInt_le⟩, Int64.ofInt_toInt])

end Decoder

/-! ## Words -/

theorem ArithmeticOperator.restores (op : ArithmeticOperator) :
    decoder.Restores bound op.encode op True := by
  cases op <;> exact .unit rfl

theorem Sign.restores (s : Sign) : decoder.Restores bound s.encode s True := by
  cases s <;> exact .unit rfl

theorem ComparisonOperator.restores (op : ComparisonOperator) :
    decoder.Restores bound op.encode op True := by
  cases op <;> exact .unit rfl

theorem LogicalOperator.restores (op : LogicalOperator) :
    decoder.Restores bound op.encode op True := by
  cases op <;> exact .unit rfl

theorem JoinType.restores (t : JoinType) : decoder.Restores bound t.encode t True := by
  cases t <;> exact .unit rfl

theorem ConnectorType.restores (t : ConnectorType) : decoder.Restores bound t.encode t True := by
  cases t <;> exact .unit rfl

theorem Namespace.restores (n : Namespace) : decoder.Restores bound n.encode n True := by
  cases n <;> exact .unit rfl

theorem Kind.restores (k : Kind) : decoder.Restores bound k.encode k True := by
  cases k <;> exact .unit rfl

theorem TimeUnit.restores (u : TimeUnit) : decoder.Restores bound u.encode u True := by
  cases u <;> exact .unit rfl

/-! ## Places, names and spans of time -/

theorem Position.restores (p : Position) : decoder.Restores bound p.encode p True :=
  ((((Fields.Restores.field "line" (Decoder.restores_uint64 p.line)).map Position.mk).seq
    (.field "column" (Decoder.restores_uint64 p.column)) (by simp)).decoder).congr (by simp)

theorem Position.restores_option (p? : Option Position) :
    decoder.option.Restores bound (Json.ofOption encode p?) p? True := by
  have option : decoder.option.Restores bound (Json.ofOption encode p?) p? (∀ p ∈ p?, True) :=
    .option (fun p _ => p.restores) fun _ => Json.noConfusion
  exact option.congr (by simp)

theorem Location.restores (l : Location) : decoder.Restores bound l.encode l True :=
  (Position.restores_option l.position?).map Location.mk

theorem Location.restores_field (l : Location) :
    field.Restores bound [("location", l.encode)] l True :=
  (Fields.Restores.option "location" (Position.restores_option l.position?)).map Location.mk

theorem Name.restores {n : Name} (hn : n.Valid) : decoder.Restores bound n.encode n True :=
  (((Fields.Restores.field "parts" (.list fun s _ => Decoder.restores_string s)).checked
    (Name.of_eq_ok.mpr ⟨rfl, hn⟩)).decoder).congr (by simp)

theorem TimeSpan.restores (s : TimeSpan) : decoder.Restores bound s.encode s True :=
  ((((Fields.Restores.field "size" (Decoder.restores_uint64 s.size)).map TimeSpan.mk).seq
    (.field "unit" s.unit.restores) (by simp)).decoder).congr (by simp)

/-! ## Types -/

theorem StructField.restoresWith {decoder : Decoder SqlType} {name : String} {type : SqlType}
    (h : decoder.Restores bound type.encode type True) :
    (decoderWith decoder).Restores bound (encode ⟨name, type⟩) ⟨name, type⟩ True :=
  ((((Fields.Restores.field "name" (Decoder.restores_string name)).map StructField.mk).seq
    (.field "field_type" h) (by simp)).decoder).congr (by simp)

mutual

/-- The decoder of types that nest so many times restores on as many levels. -/
theorem SqlType.restoresTo : ∀ {t : SqlType}, t.Valid → ∀ k,
    (decoderTo (k + 1)).Restores (k + 1) t.encode t True
  | .boolean, ht, _ => (Restores.unit rfl).checked (check_eq ht)
  | .integer, ht, _ => (Restores.unit rfl).checked (check_eq ht)
  | .bigint, ht, _ => (Restores.unit rfl).checked (check_eq ht)
  | .double, ht, _ => (Restores.unit rfl).checked (check_eq ht)
  | .string, ht, _ => (Restores.unit rfl).checked (check_eq ht)
  | .decimal precision scale, ht, k => by
    have fields : Fields.Restores _ k _ (SqlType.decimal precision scale) (True ∧ True) :=
      ((Fields.Restores.field "precision" (Decoder.restores_uint32 precision)).map
        SqlType.decimal).seq (.field "scale" (Decoder.restores_uint32 scale)) (by simp)
    exact ((Restores.tagged_succ rfl fields.decoder).checked (check_eq ht)).congr (by simp)
  | .array element, ht, k => by
    have inner := Restores.of_succ rfl (restoresTo (t := element) ht) k
    exact (Restores.tagged_succ rfl (inner.map SqlType.array)).checked (check_eq ht)
  | .map value, ht, k => by
    have inner := Restores.of_succ rfl (restoresTo (t := value) ht) k
    exact (Restores.tagged_succ rfl (inner.map SqlType.map)).checked (check_eq ht)
  | .struct fields, ht, k => by
    have inner : (StructField.decoderWith (decoderTo k)).list.Restores k
        (Json.ofList StructField.encode fields) fields (∀ f ∈ fields, True) :=
      .list fun f hf => restoresFieldTo ht hf k
    have struct : (decoderTo (k + 1)).Restores (k + 1)
        (.tagged "Struct" (Json.ofList StructField.encode fields)) (.struct fields) True :=
      ((Restores.tagged_succ rfl (inner.map SqlType.struct)).checked (check_eq ht)).congr (by simp)
    rwa [encode, encodeFields_eq]

theorem SqlType.restoresFieldTo : ∀ {fields : List StructField}, ValidFields fields →
    ∀ {f : StructField}, f ∈ fields → ∀ k,
      (StructField.decoderWith (decoderTo k)).Restores k f.encode f True
  | ⟨name, type⟩ :: fields, hv, f, hf, k => by
    rcases List.mem_cons.mp hf with rfl | hf
    · exact StructField.restoresWith (Restores.of_succ rfl (restoresTo (t := type) hv.1) k)
    · exact restoresFieldTo hv.2 hf k

end

theorem SqlType.restores {t : SqlType} (ht : t.Valid) (hb : bound ≤ Decoder.nesting + 1) :
    decoder.Restores bound t.encode t True := (restoresTo ht Decoder.nesting).mono hb

/-- The type of a struct field is valid. -/
def StructField.Valid (f : StructField) : Prop := f.type.Valid

theorem StructField.restores {f : StructField} (hf : f.Valid) (hb : bound ≤ Decoder.nesting + 1) :
    decoder.Restores bound f.encode f True := by
  rcases f with ⟨name, type⟩
  exact restoresWith (SqlType.restores hf hb)

/-! ## Literals and properties -/

namespace Literal

/-- The numeral of the double, or `null` if it has none. -/
theorem restores_double {d : Double} {j : Json} (written : ∀ n, d.numeral? = some n → j = .number n)
    (unwritten : d.numeral? = none → j = .null) :
    Decoder.double.Restores bound j d (d.isFinite = true) := by
  by_cases hd : d.isFinite = true
  · obtain ⟨n, hn, proper, -⟩ := Double.exists_numeral hd
    rw [written n hn]
    refine ⟨proper, fun _ readBack levels _ _ => ?_, fun _ => hd⟩
    rw [Decoder.double, readBack n List.mem_cons_self d hn]
  · have none : d.numeral? = none := by
      rw [Double.numeral?, Bool.eq_false_iff.mpr hd]
      rfl
    rw [unwritten none]
    refine ⟨True.intro, fun h => absurd h hd, fun {_ b} h => ?_⟩
    have refused : Except.error DecodeError.shape = .ok b := h
    contradiction

theorem restores {a : Literal} (ha : a.Valid) : decoder.Restores bound a.encode a a.Finite := by
  suffices h : (Decoder.tagged alternatives).Restores bound a.encode a a.Finite from
    h.checked (check_eq_ok.mpr ⟨rfl, ha⟩)
  cases a with
  | null => exact .unit rfl
  | boolean b => exact .tagged rfl ((Decoder.restores_bool b).map boolean)
  | integer n => exact .tagged rfl ((Decoder.restores_int32 n).map integer)
  | long n => exact .tagged rfl ((Decoder.restores_int64 n).map long)
  | double d =>
    refine .tagged rfl (Restores.map (restores_double (fun n hn => ?_) fun none => ?_) double)
    · rw [hn]
    · rw [none]
  | decimal text => exact .tagged rfl ((Decoder.restores_string text).map decimal)
  | string s => exact .tagged rfl ((Decoder.restores_string s).map string)

end Literal

namespace Properties

/-- The members of the entries. -/
def members (entries : List (String × Literal)) : List (JsonText × Json) :=
  Json.named (entries.map fun (key, value) => (key, value.encode))

theorem decodeMembers_members {levels : Nat} :
    ∀ {entries done : List (String × Literal)}, ((done ++ entries).map Prod.fst).Nodup →
      (∀ e ∈ entries, Literal.decoder levels e.2.encode = .ok e.2) →
      decodeMembers levels (members entries) ⟨done⟩ = .ok ⟨done ++ entries⟩
  | [], done, _, _ => by
    rw [List.append_nil]
    rfl
  | (key, value) :: entries, done, unique, h => by
    have rest : decodeMembers levels (members entries) ⟨done ++ [(key, value)]⟩ =
        .ok ⟨done ++ [(key, value)] ++ entries⟩ :=
      decodeMembers_members (by rwa [List.append_assoc])
        fun e he => h e (List.mem_cons_of_mem _ he)
    show (Literal.decoder levels value.encode >>= fun a =>
      decodeMembers levels (members entries) ((⟨done⟩ : Properties).insert key a)) = _
    rw [h (key, value) List.mem_cons_self]
    show decodeMembers levels (members entries) ((⟨done⟩ : Properties).insert key value) = _
    rw [insert_of_nodup unique, rest, List.append_assoc]
    rfl

theorem finite_of_decodeMembers {levels : Nat} : ∀ {entries : List (String × Literal)}
    {p q : Properties}, (∀ e ∈ entries, e.2.Valid) →
    decodeMembers levels (members entries) p = .ok q → ∀ e ∈ entries, e.2.Finite
  | [], _, _, _, _ => fun _ he => absurd he List.not_mem_nil
  | (key, value) :: entries, p, q, valid, h => by
    obtain ⟨a, first, rest⟩ := Except.bind_eq_ok.mp h
    rw [List.forall_mem_cons] at valid ⊢
    have restored : Literal.decoder.Restores 0 value.encode value value.Finite :=
      Literal.restores valid.1
    exact ⟨restored.of_ok first, finite_of_decodeMembers valid.2 rest⟩

theorem restores {p : Properties} (hp : p.Valid) :
    decoder.Restores bound p.encode p p.Finite := by
  have value : ∀ e ∈ p.entries, Literal.decoder.Restores bound e.2.encode e.2 e.2.Finite :=
    fun e he => Literal.restores (hp.2 e he)
  refine ⟨Json.proper_record ?_, ?_, ?_⟩
  · exact List.forall_mem_map.mpr fun e he => (value e he).proper
  · intro finite readBack levels hl hd
    rcases levels with _ | levels
    · exact absurd hd (Nat.not_succ_le_zero _)
    · refine decodeMembers_members hp.1 fun e he => ?_
      have room := Json.depthMembers_named_le.mp (Nat.le_of_succ_le_succ hd)
      exact (value e he).ok (finite e he)
        (Json.readBack_record.mp readBack _ (List.mem_map_of_mem he)) levels
        (Nat.lt_of_succ_lt hl) (room _ (List.mem_map_of_mem he))
  · intro levels q h
    rcases levels with _ | levels
    · contradiction
    · exact finite_of_decodeMembers hp.2 h

end Properties

/-! ## Windows and columns -/

theorem TableElement.restores {e : TableElement} (he : e.Valid)
    (hb : bound ≤ Decoder.nesting + 1) : decoder.Restores bound e.encode e True := by
  have fields : Fields.Restores _ bound _ e _ :=
    ((((Location.restores_field e.location).map TableElement.mk).seq
      (.field "namespace" e.role.restores) (by simp)).seq
      (.field "name" (Decoder.restores_string e.name)) (by simp)).seq
      (.field "element_type" (SqlType.restores he.2 hb)) (by simp)
  exact (fields.checked (check_eq he)).decoder.congr (by simp)

theorem WindowKind.restores (w : WindowKind) : decoder.Restores bound w.encode w True := by
  cases w with
  | tumbling size =>
    exact .tagged rfl (((Fields.Restores.field "size" size.restores).map tumbling).decoder)
  | hopping size advance =>
    have fields : Fields.Restores _ bound _ (hopping size advance) _ :=
      ((Fields.Restores.field "size" size.restores).map hopping).seq
        (.field "advance_by" advance.restores) (by simp)
    exact (Restores.tagged rfl fields.decoder).congr (by simp)
  | session gap =>
    exact .tagged rfl (((Fields.Restores.field "gap" gap.restores).map session).decoder)

theorem KsqlWindow.restores (w : KsqlWindow) : decoder.Restores bound w.encode w True := by
  have fields : Fields.Restores _ bound _ w _ :=
    ((Location.restores_field w.location).map KsqlWindow.mk).seq
      (.field "kind" w.kind.restores) (by simp)
  exact fields.decoder.congr (by simp)

theorem Window.restores (w : Window) : decoder.Restores bound w.encode w True := by
  have fields : Fields.Restores _ bound _ w _ :=
    (((Location.restores_field w.location).map Window.mk).seq
      (.optional "window_name" (fun s _ => Decoder.restores_string s) fun _ => Json.noConfusion)
      (by simp)).seq (.field "window" w.window.restores) (by simp)
  exact fields.decoder.congr (by simp)

theorem Within.restores (w : Within) : decoder.Restores bound w.encode w True := by
  have fields : Fields.Restores _ bound _ w _ :=
    (((Location.restores_field w.location).map Within.mk).seq
      (.field "before" w.before.restores) (by simp)).seq
      (.field "after" w.after.restores) (by simp)
  exact fields.decoder.congr (by simp)

end SqlTree
