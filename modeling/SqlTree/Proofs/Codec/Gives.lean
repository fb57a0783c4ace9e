import SqlTree.Proofs.Codec.Fields
import SqlTree.Proofs.Lookup

/-!
# What decoders give

A decoder gives values with a property if every value that it takes out of a document has it, on
however many levels. The property may speak of the levels: from inside a bracket, what is given is
known on one level less. What fields give is known from an invariant of what has been read of them.
-/

namespace SqlTree

/-! ## How deep written documents are -/

namespace Json

variable {α : Type} {k : Nat}

@[simp]
theorem depth_ofString_le (s : String) : (ofString s).depth ≤ k := Nat.zero_le k

@[simp]
theorem depth_ofNat_le (n : Nat) : (ofNat n).depth ≤ k := Nat.zero_le k

@[simp]
theorem depth_record_le {ms : List (String × Json)} :
    (record ms).depth ≤ k + 1 ↔ ∀ m ∈ ms, m.2.depth ≤ k :=
  Nat.add_le_add_iff_right.trans depthMembers_named_le

@[simp]
theorem depth_tagged_le {tag : String} {j : Json} : (tagged tag j).depth ≤ k + 1 ↔ j.depth ≤ k := by
  simp [tagged]

@[simp]
theorem depth_array_le {js : List Json} : (array js).depth ≤ k + 1 ↔ ∀ j ∈ js, j.depth ≤ k :=
  Nat.add_le_add_iff_right.trans depthItems_le

@[simp]
theorem depth_ofList_le {encode : α → Json} {as : List α} :
    (ofList encode as).depth ≤ k + 1 ↔ ∀ a ∈ as, (encode a).depth ≤ k := by
  simp [ofList]

@[simp]
theorem depth_ofOption_le {encode : α → Json} {a? : Option α} :
    (ofOption encode a?).depth ≤ k ↔ ∀ a ∈ a?, (encode a).depth ≤ k := by
  cases a? with
  | none => simp [ofOption, depth]
  | some a => simp [ofOption]

end Json

/-! ## Decoders -/

namespace Decoder

variable {α β : Type} {d : Decoder α} {P : Nat → α → Prop} {Q : Nat → β → Prop}

/-- What the decoder takes out of a document on some levels has the property on these levels. -/
def Gives (d : Decoder α) (P : Nat → α → Prop) : Prop :=
  ∀ levels j a, d levels j = .ok a → P levels a

/-- Values of which `p` holds, and whose encodings need no more levels than the decoder had. -/
def Admits (d : Decoder α) (encode : α → Json) (p : α → Prop) : Prop :=
  d.Gives fun levels a => p a ∧ (encode a).depth ≤ levels

namespace Gives

theorem imp {P' : Nat → α → Prop} (h : d.Gives P) (hP : ∀ levels a, P levels a → P' levels a) :
    d.Gives P' := fun levels j a ha => hP levels a (h levels j a ha)

theorem fail : (Decoder.fail : Decoder α).Gives P := by
  intro levels j a h
  contradiction

/-- Nothing needs to be known of the decoder. -/
theorem any : d.Gives fun _ _ => True := fun _ _ _ _ => trivial

theorem map {f : α → β} (h : d.Gives P) (hQ : ∀ levels a, P levels a → Q levels (f a)) :
    (d.map f).Gives Q := by
  intro levels j b hb
  obtain ⟨a, ha, rfl⟩ := Except.map_eq_ok.mp hb
  exact hQ levels a (h levels j a ha)

theorem checked {check : α → Except Violation β}
    (h : d.Gives fun levels a => ∀ b, check a = .ok b → Q levels b) :
    (d.checked check).Gives Q := by
  intro levels j b hb
  obtain ⟨a, ha, hc⟩ := checked_eq_ok.mp hb
  exact h levels j a ha b hc

theorem option (h : d.Gives P) : d.option.Gives fun levels a? => ∀ a ∈ a?, P levels a := by
  intro levels j a? ha
  unfold Decoder.option at ha
  split at ha
  · rw [← Except.ok.inj ha]
    exact fun a hm => nomatch hm
  · obtain ⟨a, given, rfl⟩ := Except.map_eq_ok.mp ha
    rintro a' hm
    rw [← Option.mem_some_iff.mp hm]
    exact h levels _ a given

theorem items (h : d.Gives P) {levels : Nat} : ∀ {js : List Json} {as : List α},
    Decoder.items d levels js = .ok as → ∀ a ∈ as, P levels a
  | [], as, ha => by
    rw [← Except.ok.inj ha]
    exact fun a hm => nomatch hm
  | j :: js, as, ha => by
    obtain ⟨a, first, ha⟩ := Except.bind_eq_ok.mp ha
    obtain ⟨as', rest, ha⟩ := Except.bind_eq_ok.mp ha
    rw [← Except.ok.inj ha, List.forall_mem_cons]
    exact ⟨h levels j a first, h.items rest⟩

/-- The bracket of the list takes one level. -/
theorem list {R : Nat → List α → Prop} (h : d.Gives P)
    (hR : ∀ levels as, (∀ a ∈ as, P levels a) → R (levels + 1) as) : d.list.Gives R := by
  intro levels j as ha
  unfold Decoder.list at ha
  split at ha
  · exact hR _ as (h.items ha)
  · contradiction

end Gives

/-- What is written without brackets takes no levels. -/
theorem Admits.of_flat {encode : α → Json} (h : ∀ a, (encode a).depth = 0) :
    d.Admits encode fun _ => True := by
  intro levels j a _
  rw [h a]
  exact ⟨trivial, Nat.zero_le levels⟩

theorem Admits.list {encode : α → Json} {p : α → Prop} (h : d.Admits encode p) :
    d.list.Admits (Json.ofList encode) fun as => ∀ a ∈ as, p a := by
  refine Gives.list h ?_
  intro levels as ha
  exact ⟨fun a hm => (ha a hm).1, Json.depth_ofList_le.mpr fun a hm => (ha a hm).2⟩

/-! ### Alternatives -/

/-- What stands behind the tag gives values with the property. A value is one level further down
than its tag. -/
def Payload.Gives (P : Nat → α → Prop) : Payload α → Prop
  | .unit a => ∀ levels, P levels a
  | .value d => d.Gives fun levels => P (levels + 1)

theorem Gives.tagged {alternatives : List (String × Payload α)}
    (h : ∀ alternative ∈ alternatives, alternative.2.Gives P) :
    (Decoder.tagged alternatives).Gives P := by
  intro levels j a ha
  unfold Decoder.tagged at ha
  split at ha
  · split at ha
    case h_1 hl =>
      obtain rfl := Except.ok.inj ha
      exact h _ (mem_of_lookup hl) _
    case h_2 => contradiction
  · -- the object of a tag: what stands behind the tag decides, and no other member may follow
    dsimp only at ha
    split at ha
    case h_1 hl =>
      obtain ⟨b, hb, ha⟩ := Except.bind_eq_ok.mp ha
      obtain rfl := Except.ok.inj hb
      split at ha
      · obtain rfl := Except.ok.inj ha
        exact h _ (mem_of_lookup hl) _
      · contradiction
    case h_2 hl =>
      obtain ⟨b, hb, ha⟩ := Except.bind_eq_ok.mp ha
      split at ha
      · obtain rfl := Except.ok.inj ha
        exact h _ (mem_of_lookup hl) _ _ _ hb
      · contradiction
    case h_3 => contradiction
  · contradiction

/-- What stands behind the tag is what is written behind the tag of the values that are given. -/
def AdmitsBehind (tagOf : α → String) (payload : α → Json) (p : α → Prop) :
    String × Payload α → Prop
  | (_, .unit _) => False
  | (tag, .value d) => d.Admits payload fun a => p a ∧ tagOf a = tag

/-- Values that are written as a tag with what stands behind it. -/
theorem Admits.tagged {alternatives : List (String × Payload α)} {tagOf : α → String}
    {payload : α → Json} {p : α → Prop}
    (h : ∀ alternative ∈ alternatives, AdmitsBehind tagOf payload p alternative) :
    (Decoder.tagged alternatives).Admits (fun a => .tagged (tagOf a) (payload a)) p := by
  refine Gives.tagged ?_
  rintro ⟨tag, a | d⟩ hm
  · exact (h _ hm).elim
  · refine Gives.imp (h _ hm) ?_
    rintro levels a ⟨⟨hp, -⟩, hd⟩
    exact ⟨hp, Json.depth_tagged_le.mpr hd⟩

end Decoder

/-! ## Fields -/

namespace Fields

variable {α β : Type} {fs : Fields α} {d : Decoder α} {P : Nat → α → Prop} {Q : Nat → β → Prop}

/-- What the fields amount to has the property: an invariant of what has been read holds at the
start, each member that is read preserves it, and in the end the property follows from it. -/
def Gives (fs : Fields α) (P : Nat → α → Prop) : Prop :=
  ∀ levels, ∃ inv : fs.State → Prop, inv fs.start ∧
    (∀ n j s s', inv s → fs.take levels n j s = some (.ok s') → inv s') ∧
    ∀ s a, inv s → fs.finish s = .ok a → P levels a

theorem takeAll_invariant {levels : Nat} {inv : fs.State → Prop}
    (step : ∀ n j s s', inv s → fs.take levels n j s = some (.ok s') → inv s') :
    ∀ {ms : List (JsonText × Json)} {s s' : fs.State}, inv s →
      fs.takeAll levels ms s = .ok s' → inv s'
  | [], s, s', hs, h => by
    rwa [← Except.ok.inj h]
  | (.unpaired, _) :: _, _, _, _, h => nomatch h
  | (.plain n, j) :: ms, s, s', hs, h => by
    cases ht : fs.take levels n j s with
    | some r =>
      rw [takeAll_of_take ht] at h
      obtain ⟨s₁, rfl, rest⟩ := Except.bind_eq_ok.mp h
      exact takeAll_invariant step (step n j s s₁ hs ht) rest
    | none =>
      rw [takeAll_of_pass ht] at h
      split at h
      · exact takeAll_invariant step hs h
      · contradiction

namespace Gives

theorem map {f : α → β} (h : fs.Gives P) (hQ : ∀ levels a, P levels a → Q levels (f a)) :
    (f <$> fs).Gives Q := by
  intro levels
  obtain ⟨inv, start, step, finish⟩ := h levels
  refine ⟨inv, start, step, ?_⟩
  intro s b hs hb
  obtain ⟨a, ha, rfl⟩ := Except.map_eq_ok.mp hb
  exact hQ levels a (finish s a hs ha)

theorem checked {check : α → Except Violation β}
    (h : fs.Gives fun levels a => ∀ b, check a = .ok b → Q levels b) :
    (fs.checked check).Gives Q := by
  intro levels
  obtain ⟨inv, start, step, finish⟩ := h levels
  refine ⟨inv, start, step, ?_⟩
  intro s b hs hb
  obtain ⟨a, ha, hb⟩ := Except.bind_eq_ok.mp hb
  refine finish s a hs ha b ?_
  split at hb
  case h_1 hc => rw [hc, Except.ok.inj hb]
  case h_2 => contradiction

/-- The fields on the left give functions that take what the fields on the right give to what is
wanted. -/
theorem seq {fs : Fields (α → β)} {gs : Fields α} (hg : gs.Gives P)
    (hf : fs.Gives fun levels f => ∀ a, P levels a → Q levels (f a)) : (fs <*> gs).Gives Q := by
  intro levels
  obtain ⟨left, left_start, left_step, left_finish⟩ := hf levels
  obtain ⟨right, right_start, right_step, right_finish⟩ := hg levels
  refine ⟨fun s => left s.1 ∧ right s.2, ⟨left_start, right_start⟩, ?_, ?_⟩
  · rintro n j ⟨s, t⟩ ⟨s', t'⟩ ⟨hs, ht⟩ taken
    replace taken : (both fs gs).take levels n j (s, t) = some (.ok (s', t')) := taken
    unfold both at taken
    dsimp only at taken
    split at taken
    case h_1 r hr =>
      obtain ⟨s₁, rfl, same⟩ := Except.map_eq_ok.mp (Option.some_inj.mp taken)
      obtain ⟨rfl, rfl⟩ := Prod.mk.inj same
      exact ⟨left_step n j s s₁ hs hr, ht⟩
    case h_2 =>
      obtain ⟨r, hr, taken⟩ := Option.map_eq_some_iff.mp taken
      obtain ⟨t₁, rfl, same⟩ := Except.map_eq_ok.mp taken
      obtain ⟨rfl, rfl⟩ := Prod.mk.inj same
      exact ⟨hs, right_step n j t t₁ ht hr⟩
  · rintro ⟨s, t⟩ b ⟨hs, ht⟩ hb
    obtain ⟨f, hf', hb⟩ := Except.bind_eq_ok.mp hb
    obtain ⟨a, ha, hb⟩ := Except.bind_eq_ok.mp hb
    rw [← Except.ok.inj hb]
    exact left_finish s f hs hf' a (right_finish t a ht ha)

theorem fieldOr {missing : Option α} {name : String} (h : d.Gives P)
    (hm : ∀ levels, ∀ a ∈ missing, P levels a) : (Fields.fieldOr missing name d).Gives P := by
  intro levels
  refine ⟨fun s : Option α => ∀ a ∈ s, P levels a, ?_, ?_, ?_⟩
  · intro a hm
    exact nomatch hm
  · intro n j s s' hs taken
    dsimp only [Fields.fieldOr] at taken
    split at taken
    · cases s with
      | some a => exact nomatch Option.some_inj.mp taken
      | none =>
        obtain ⟨a, ha, rfl⟩ := Except.map_eq_ok.mp (Option.some_inj.mp taken)
        rintro a' hm
        rw [← Option.mem_some_iff.mp hm]
        exact h levels j a ha
    · contradiction
  · intro s a hs ha
    dsimp only [Fields.fieldOr] at ha
    split at ha
    case h_1 a' found =>
      obtain rfl := Except.ok.inj ha
      rcases Option.or_eq_some_iff.mp found with found | ⟨-, found⟩
      · exact hs a' found
      · exact hm levels a' found
    case h_2 => contradiction

theorem field {name : String} (h : d.Gives P) : (Fields.field name d).Gives P :=
  fieldOr h fun _ _ hm => nomatch hm

theorem option {name : String} (h : d.Gives P) :
    (Fields.option name d).Gives fun levels a? => ∀ a ∈ a?, P levels a := by
  refine fieldOr h.option ?_
  intro levels a? hm
  rw [← Option.mem_some_iff.mp hm]
  exact fun a hm => nomatch hm

theorem always {a : α} (h : ∀ levels, P levels a) : (Fields.always a).Gives P := by
  intro levels
  refine ⟨fun _ => True, trivial, fun _ _ _ _ _ _ => trivial, ?_⟩
  intro s a' _ ha
  rw [← Except.ok.inj ha]
  exact h levels

/-- The bracket of the object takes one level. -/
theorem decoder (h : fs.Gives fun levels => P (levels + 1)) : fs.decoder.Gives P := by
  intro levels j a ha
  unfold Fields.decoder at ha
  split at ha
  case h_1 l ms =>
    obtain ⟨inv, start, step, finish⟩ := h l
    obtain ⟨s, taken, ha⟩ := Except.bind_eq_ok.mp ha
    exact finish s a (takeAll_invariant step start taken) ha
  case h_2 l js =>
    obtain ⟨inv, start, step, finish⟩ := h l
    obtain ⟨s, taken, ha⟩ := Except.bind_eq_ok.mp (decoder_array_eq_ok.mp ha).2
    exact finish s a (takeAll_invariant step start taken) ha
  case h_3 => contradiction

end Gives

end Fields

end SqlTree
