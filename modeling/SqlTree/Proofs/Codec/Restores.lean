import SqlTree.Json.Decoder
import SqlTree.Proofs.Except
import SqlTree.Proofs.Json.Reading

/-!
# Decoders that undo an encoding

A decoder restores a value from a document if it gives the value back wherever there is room for the
brackets of the document and the digits of the doubles are read back. What cannot be written makes
the decoder fail: the property `p` tells whether all of the value could be written.
-/

namespace SqlTree

/-! ## How deep a document is -/

mutual

/-- How many brackets the document opens within each other. -/
def Json.depth : Json → Nat
  | array items => depthItems items + 1
  | object members => depthMembers members + 1
  | _ => 0
termination_by structural j => j

def Json.depthItems : List Json → Nat
  | [] => 0
  | j :: js => max j.depth (depthItems js)
termination_by structural js => js

def Json.depthMembers : List (JsonText × Json) → Nat
  | [] => 0
  | (_, j) :: ms => max j.depth (depthMembers ms)
termination_by structural ms => ms

end

theorem Json.depthItems_le {js : List Json} {k : Nat} :
    depthItems js ≤ k ↔ ∀ j ∈ js, j.depth ≤ k := by
  induction js with
  | nil => simp [depthItems]
  | cons j js ih => rw [depthItems, Nat.max_le, ih, List.forall_mem_cons]

/-- Named members as they stand in an object. -/
def Json.named (ms : List (String × Json)) : List (JsonText × Json) :=
  ms.map fun (name, value) => (.plain name, value)

theorem Json.depthMembers_named_le {ms : List (String × Json)} {k : Nat} :
    depthMembers (named ms) ≤ k ↔ ∀ m ∈ ms, m.2.depth ≤ k := by
  induction ms with
  | nil => simp [named, depthMembers]
  | cons m ms ih =>
    rw [named, List.map_cons, depthMembers, ← named, Nat.max_le, ih]
    simp

/-! ## Which doubles are read back -/

mutual

/-- The numerals in the document, in the order in which they stand there. -/
def Json.numerals : Json → List Numeral
  | number n => [n]
  | array items => numeralsItems items
  | object members => numeralsMembers members
  | _ => []
termination_by structural j => j

def Json.numeralsItems : List Json → List Numeral
  | [] => []
  | j :: js => j.numerals ++ numeralsItems js
termination_by structural js => js

def Json.numeralsMembers : List (JsonText × Json) → List Numeral
  | [] => []
  | (_, j) :: ms => j.numerals ++ numeralsMembers ms
termination_by structural ms => ms

end

section ReadBack

variable [Double.Reader]

/-- The digits of each double that stand in the document are read as that double. -/
def Json.ReadBack (j : Json) : Prop :=
  ∀ n ∈ j.numerals, ∀ d : Double, d.numeral? = some n → Double.Reader.read? n = some d

theorem Json.readBack_array {js : List Json} : (array js).ReadBack ↔ ∀ j ∈ js, j.ReadBack := by
  show (∀ n ∈ numeralsItems js, _) ↔ _
  induction js with
  | nil => simp [numeralsItems]
  | cons j js ih => rw [numeralsItems, List.forall_mem_append, ih, List.forall_mem_cons, ReadBack]

theorem Json.readBack_record {ms : List (String × Json)} :
    (record ms).ReadBack ↔ ∀ m ∈ ms, m.2.ReadBack := by
  show (∀ n ∈ numeralsMembers (named ms), _) ↔ _
  induction ms with
  | nil => simp [named, numeralsMembers]
  | cons m ms ih =>
    rw [named, List.map_cons, numeralsMembers, ← named, List.forall_mem_append, ih,
      List.forall_mem_cons, ReadBack]

end ReadBack

/-! ## Decoders -/

namespace Decoder

variable {α β : Type} {d : Decoder α} {bound bound' : Nat} {j : Json} {a : α} {p q : Prop}

theorem checked_eq_ok {check : α → Except Violation β} {levels : Nat} {b : β} :
    d.checked check levels j = .ok b ↔ ∃ a, d levels j = .ok a ∧ check a = .ok b := by
  unfold Decoder.checked
  rw [Except.bind_eq_ok]
  refine exists_congr fun a => and_congr_right fun _ => ?_
  cases check a <;> simp

/-- What is taken out of the document and breaks a rule is refused for the rule that it breaks. -/
theorem checked_of_ok {check : α → Except Violation β} {levels : Nat} (h : d levels j = .ok a) :
    d.checked check levels j = (check a).mapError .invalid := by
  unfold Decoder.checked
  rw [h]
  cases hc : check a <;> simp [bind, Except.bind, hc, Except.mapError]

/-- Behind a tag with a value its decoder decides, one level further down. -/
theorem tagged_value {alternatives : List (String × Payload α)} {tag : String}
    (hl : alternatives.lookup tag = some (.value d)) (levels : Nat) (j : Json) :
    tagged alternatives (levels + 1) (.tagged tag j) = d levels j := by
  show tagged alternatives (levels + 1) (.object [(.plain tag, j)]) = d levels j
  unfold tagged
  dsimp only
  rw [hl]
  show (d levels j >>= fun a => if List.isEmpty [] then .ok a else .error .shape) = d levels j
  cases d levels j <;> rfl

variable [Double.Reader]

/-- From `j`, if its doubles are read back, the decoder restores `a` on fewer than `bound` levels,
if `p`. Without `p` it fails, however doubles are read. -/
structure Restores (d : Decoder α) (bound : Nat) (j : Json) (a : α) (p : Prop) : Prop where
  proper : j.Proper
  ok : p → j.ReadBack → ∀ levels < bound, j.depth ≤ levels → d levels j = .ok a
  of_ok : ∀ {levels b}, d levels j = .ok b → p

namespace Restores

theorem of_eq (proper : j.Proper) (h : ∀ levels, d levels j = .ok a) :
    d.Restores bound j a True :=
  ⟨proper, fun _ _ levels _ _ => h levels, fun _ => True.intro⟩

theorem mono (h : d.Restores bound j a p) (hb : bound' ≤ bound) : d.Restores bound' j a p :=
  ⟨h.proper, fun hp hr levels hl => h.ok hp hr levels (Nat.lt_of_lt_of_le hl hb), h.of_ok⟩

theorem congr (h : d.Restores bound j a p) (hq : p ↔ q) : d.Restores bound j a q :=
  ⟨h.proper, fun hp => h.ok (hq.mpr hp), fun hb => hq.mp (h.of_ok hb)⟩

/-- A decoder that may not go down at all has no levels to restore on. -/
theorem of_succ {decoderTo : Nat → Decoder α} (fails : decoderTo 0 = Decoder.fail)
    (h : ∀ k, (decoderTo (k + 1)).Restores (k + 1) j a p) : ∀ k, (decoderTo k).Restores k j a p
  | 0 => by
    refine ⟨(h 0).proper, fun _ _ levels hl => absurd hl (Nat.not_lt_zero levels), ?_⟩
    intro levels b hb
    rw [fails] at hb
    contradiction
  | k + 1 => h k

theorem map (h : d.Restores bound j a p) (f : α → β) : (d.map f).Restores bound j (f a) p where
  proper := h.proper
  ok hp hr levels hl hd := by
    rw [Decoder.map, h.ok hp hr levels hl hd]
    rfl
  of_ok hb := by
    obtain ⟨a', ha, -⟩ := Except.map_eq_ok.mp hb
    exact h.of_ok ha

theorem checked {check : α → Except Violation β} {b : β} (h : d.Restores bound j a p)
    (hc : check a = .ok b) : (d.checked check).Restores bound j b p where
  proper := h.proper
  ok hp hr levels hl hd := checked_eq_ok.mpr ⟨a, h.ok hp hr levels hl hd, hc⟩
  of_ok hb := by
    obtain ⟨a', ha, -⟩ := checked_eq_ok.mp hb
    exact h.of_ok ha

theorem option {encode : α → Json} {p : α → Prop} {a? : Option α}
    (h : ∀ a ∈ a?, d.Restores bound (encode a) a (p a)) (some_ne : ∀ a, encode a ≠ .null) :
    d.option.Restores bound (Json.ofOption encode a?) a? (∀ a ∈ a?, p a) := by
  cases a? with
  | none =>
    have none : d.option.Restores bound .null none True := of_eq True.intro fun _ => rfl
    exact none.congr (by simp)
  | some a =>
    have ha := h a rfl
    have step : ∀ levels, d.option levels (encode a) = (d levels (encode a)).map some := by
      intro levels
      rw [Decoder.option]
      exact some_ne a
    refine ⟨ha.proper, ?_, ?_⟩
    · intro hp hr levels hl hd
      show d.option levels (encode a) = _
      rw [step, ha.ok (hp a rfl) hr levels hl hd]
      rfl
    · intro levels b hb
      replace hb : d.option levels (encode a) = .ok b := hb
      rw [step] at hb
      obtain ⟨a', hr, -⟩ := Except.map_eq_ok.mp hb
      simpa using ha.of_ok hr

theorem items {encode : α → Json} {p : α → Prop} : ∀ {as : List α},
    (∀ a ∈ as, d.Restores bound (encode a) a (p a)) →
    (∀ a ∈ as, (encode a).Proper) ∧
    ((∀ a ∈ as, p a) → (∀ a ∈ as, (encode a).ReadBack) → ∀ levels < bound,
      (∀ a ∈ as, (encode a).depth ≤ levels) → Decoder.items d levels (as.map encode) = .ok as) ∧
    (∀ {levels bs}, Decoder.items d levels (as.map encode) = .ok bs → ∀ a ∈ as, p a)
  | [], _ => by simp [Decoder.items]
  | a :: as, h => by
    have ha := h a List.mem_cons_self
    obtain ⟨proper, ok, of_ok⟩ := items fun b hb => h b (List.mem_cons_of_mem a hb)
    refine ⟨List.forall_mem_cons.mpr ⟨ha.proper, proper⟩, fun hp hr levels hl hd => ?_,
      fun {levels bs} hb => ?_⟩
    · rw [List.forall_mem_cons] at hp hr hd
      rw [List.map_cons, Decoder.items, ha.ok hp.1 hr.1 levels hl hd.1,
        ok hp.2 hr.2 levels hl hd.2]
      rfl
    · rw [List.map_cons, Decoder.items] at hb
      obtain ⟨a', first, hb⟩ := Except.bind_eq_ok.mp hb
      obtain ⟨as', rest, -⟩ := Except.bind_eq_ok.mp hb
      exact List.forall_mem_cons.mpr ⟨ha.of_ok first, of_ok rest⟩

theorem list {encode : α → Json} {p : α → Prop} {as : List α}
    (h : ∀ a ∈ as, d.Restores bound (encode a) a (p a)) :
    d.list.Restores bound (Json.ofList encode as) as (∀ a ∈ as, p a) := by
  obtain ⟨proper, ok, of_ok⟩ := items h
  refine ⟨?_, ?_, ?_⟩
  · exact Json.properItems_iff.mpr (List.forall_mem_map.mpr proper)
  · intro hp hr levels hl hd
    rcases levels with _ | levels
    · exact absurd hd (Nat.not_succ_le_zero _)
    · refine ok hp (List.forall_mem_map.mp (Json.readBack_array.mp hr)) levels
        (Nat.lt_of_succ_lt hl) ?_
      exact List.forall_mem_map.mp (Json.depthItems_le.mp (Nat.le_of_succ_le_succ hd))
  · intro levels b hb
    rcases levels with _ | levels
    · contradiction
    · exact of_ok hb

/-! ### Alternatives -/

variable {alternatives : List (String × Payload α)} {tag : String}

theorem unit (h : alternatives.lookup tag = some (.unit a)) :
    (tagged alternatives).Restores bound (.ofString tag) a True := by
  apply of_eq JsonText.noConfusion
  intro levels
  rw [Json.ofString, Decoder.tagged, h]

/-- The object of the tag takes one level. -/
theorem tagged_succ (hl : alternatives.lookup tag = some (.value d)) (h : d.Restores bound j a p) :
    (Decoder.tagged alternatives).Restores (bound + 1) (.tagged tag j) a p := by
  refine ⟨Json.proper_record ?_, ?_, ?_⟩
  · intro m hm
    rw [List.mem_singleton.mp hm]
    exact h.proper
  · intro hp hr levels hlt hd
    rcases levels with _ | levels
    · exact absurd hd (Nat.not_succ_le_zero _)
    · have room : j.depth ≤ levels := by
        simpa [Json.tagged, Json.record, Json.depth, Json.depthMembers] using hd
      rw [tagged_value hl]
      exact h.ok hp (Json.readBack_record.mp hr _ List.mem_cons_self) levels
        (Nat.lt_of_succ_lt_succ hlt) room
  · intro levels b hb
    rcases levels with _ | levels
    · contradiction
    · rw [tagged_value hl] at hb
      exact h.of_ok hb

theorem tagged (hl : alternatives.lookup tag = some (.value d)) (h : d.Restores bound j a p) :
    (Decoder.tagged alternatives).Restores bound (.tagged tag j) a p :=
  (tagged_succ hl h).mono (Nat.le_succ bound)

/-- The alternative of the tag restores what stands behind the tag. -/
def Behind (alternatives : List (String × Payload α)) (tag : String) (bound : Nat) (j : Json)
    (a : α) (p : Prop) : Prop :=
  ∃ d, alternatives.lookup tag = some (.value d) ∧ d.Restores bound j a p

/-- A decoder of values that nest `k` times restores on `k` levels, if its alternatives restore what
stands behind the tag where the values inside nest at most `most` times. -/
theorem of_behind {alternatives : Decoder α → List (String × Payload α)}
    {decoderTo : Nat → Decoder α} {most : Nat} (zero : decoderTo 0 = Decoder.fail)
    (succ : ∀ k, decoderTo (k + 1) = Decoder.tagged (alternatives (decoderTo k)))
    (h : ∀ k ≤ most, Behind (alternatives (decoderTo k)) tag k j a p) :
    ∀ k ≤ most, (decoderTo k).Restores k (.tagged tag j) a p
  | 0, _ => by
    obtain ⟨d, hl, hd⟩ := h 0 (Nat.zero_le _)
    refine ⟨(Restores.tagged hl hd).proper,
      fun _ _ levels hlt => absurd hlt (Nat.not_lt_zero levels), fun hb => ?_⟩
    rw [zero] at hb
    contradiction
  | k + 1, hk => by
    -- the tag's object takes the level that the alternatives inside have less
    obtain ⟨d, hl, hd⟩ := h k (Nat.le_of_succ_le hk)
    rw [succ]
    exact tagged_succ hl hd

end Restores

end Decoder

end SqlTree
