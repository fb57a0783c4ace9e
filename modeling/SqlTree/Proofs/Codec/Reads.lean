import SqlTree.Proofs.Codec.Fields
import SqlTree.Proofs.Codec.Shape

/-!
# Decoders that heed no spelling

A decoder reads a shape if it gives the same value from a document and from any other spelling of
it, and fails on both or on neither, on however many levels. Fields read their names if spelling the
members of the object otherwise changes nothing.
-/

namespace SqlTree

open Shape (MembersStep Step)

/-! ## Decoders -/

namespace Decoder

variable {α β : Type} {d : Decoder α} {s : Shape}

/-- A step of spelling otherwise does not change what the decoder gives. -/
def Reads (d : Decoder α) (s : Shape) : Prop :=
  ∀ j j' : Json, s.Step j j' → ∀ levels a, d levels j = .ok a ↔ d levels j' = .ok a

namespace Reads

theorem plain : d.Reads .plain := fun _ _ step => nomatch step

theorem fail : (Decoder.fail : Decoder α).Reads s := fun _ _ _ _ _ => Iff.rfl

theorem map (h : d.Reads s) (f : α → β) : (d.map f).Reads s := by
  intro j j' step levels b
  show (d levels j).map f = .ok b ↔ (d levels j').map f = .ok b
  rw [Except.map_eq_ok, Except.map_eq_ok]
  exact exists_congr fun a => and_congr_left' (h j j' step levels a)

theorem checked (h : d.Reads s) (check : α → Except Violation β) : (d.checked check).Reads s := by
  intro j j' step levels b
  rw [checked_eq_ok, checked_eq_ok]
  exact exists_congr fun a => and_congr_left' (h j j' step levels a)

theorem named {family : Family} (h : d.Reads family.shape) : d.Reads (.named family) :=
  fun j j' (.named step) => h j j' step

theorem option (h : d.Reads s) : d.option.Reads (.option s) := by
  rintro j j' (⟨step⟩) levels a?
  have some_value {j : Json} (hj : j ≠ .null) : d.option levels j = (d levels j).map some := by
    rw [Decoder.option]
    exact hj
  rw [some_value step.ne_null.1, some_value step.ne_null.2, Except.map_eq_ok, Except.map_eq_ok]
  exact exists_congr fun a => and_congr_left' (h j j' step levels a)

theorem items (h : d.Reads s) {j j' : Json} (step : s.Step j j') {levels : Nat}
    {after : List Json} : ∀ {before : List Json} {as : List α},
      Decoder.items d levels (before ++ j :: after) = .ok as ↔
        Decoder.items d levels (before ++ j' :: after) = .ok as
  | [], as => by
    rw [List.nil_append, List.nil_append, Decoder.items, Decoder.items, Except.bind_eq_ok,
      Except.bind_eq_ok]
    exact exists_congr fun a => and_congr_left' (h j j' step levels a)
  | first :: before, as => by
    rw [List.cons_append, List.cons_append, Decoder.items, Decoder.items, Except.bind_eq_ok,
      Except.bind_eq_ok]
    refine exists_congr fun a => and_congr_right' ?_
    rw [Except.bind_eq_ok, Except.bind_eq_ok]
    exact exists_congr fun rest => and_congr_left' (h.items step)

theorem list (h : d.Reads s) : d.list.Reads (.list s) := by
  intro j j' step levels as
  cases step with
  | item before after step =>
    cases levels with
    | zero => exact Iff.rfl
    | succ levels => exact h.items step

end Reads

/-! ### Alternatives -/

/-- What stands behind the tag reads the shape. Nothing is read where only the tag stands. -/
def Payload.Reads : Payload α → Shape → Prop
  | .unit _, s => s = .plain
  | .value d, s => d.Reads s

/-- The same tags stand in both lists, in the same order, and what stands behind each reads its
shape. -/
def AlternativesRead (alternatives : List (String × Payload α)) (shapes : List (String × Shape)) :
    Prop :=
  List.Forall₂ (fun alternative shape => alternative.1 = shape.1 ∧ alternative.2.Reads shape.2)
    alternatives shapes

theorem AlternativesRead.lookup {alternatives : List (String × Payload α)}
    {shapes : List (String × Shape)} {tag : String} (h : AlternativesRead alternatives shapes)
    (hs : shapes.lookup tag = some s) : ∃ p, alternatives.lookup tag = some p ∧ p.Reads s := by
  induction h with
  | nil => contradiction
  | @cons alternative shape alternatives shapes first rest ih =>
    rcases alternative with ⟨tag', p⟩
    obtain ⟨rfl, reads⟩ : tag' = shape.1 ∧ p.Reads shape.2 := first
    rw [List.lookup_cons] at hs ⊢
    cases same : tag == shape.1 with
    | true =>
      rw [same] at hs
      exact ⟨p, rfl, Option.some_inj.mp hs ▸ reads⟩
    | false =>
      rw [same] at hs
      exact ih hs

theorem Reads.tagged {alternatives : List (String × Payload α)} {shapes : List (String × Shape)}
    (h : AlternativesRead alternatives shapes) :
    (Decoder.tagged alternatives).Reads (.tagged shapes) := by
  intro j j' step levels a
  cases step with
  | payload others hs step =>
    obtain ⟨p, hp, reads⟩ := h.lookup hs
    cases p with
    | unit a' =>
      obtain rfl : _ = Shape.plain := reads
      exact nomatch step
    | value d =>
      cases levels with
      | zero => exact Iff.rfl
      | succ levels =>
        unfold Decoder.tagged
        dsimp only
        rw [hp, Except.bind_eq_ok, Except.bind_eq_ok]
        exact exists_congr fun b => and_congr_left' (reads _ _ step levels b)

end Decoder

/-! ## Members of some of the fields -/

/-- Where members are kept or not by their names, a step among all members is one among those that
are kept. -/
theorem Shape.MembersStep.filter {fields kept : List (String × Shape)}
    {ms ms' : List (JsonText × Json)} {keep : JsonText × Json → Bool}
    (byName : ∀ n j j', keep (n, j) = keep (n, j'))
    (mine : ∀ f ∈ fields, ∀ j, keep (.plain f.1, j) = true → f ∈ kept)
    (names : ∀ n ∈ kept.map Prod.fst, n ∈ fields.map Prod.fst) (step : MembersStep fields ms ms') :
    MembersStep kept (ms.filter keep) (ms'.filter keep) := by
  have refl (ms : List (JsonText × Json)) : MembersStep kept ms ms := .reorder (.refl ms)
  cases step with
  | @value _ name s j j' before after hm step =>
    rw [List.filter_append, List.filter_append]
    by_cases hk : keep (.plain name, j) = true
    · rw [List.filter_cons_of_pos hk, List.filter_cons_of_pos (byName _ j j' ▸ hk)]
      exact .value _ _ (mine _ hm j hk) step
    · rw [List.filter_cons_of_neg hk, List.filter_cons_of_neg (byName _ j j' ▸ hk)]
      exact refl _
  | reorder perm => exact .reorder (perm.filter keep)
  | @add _ name j before after hn whole =>
    rw [List.filter_append, List.filter_append]
    by_cases hk : keep (.plain name, j) = true
    · rw [List.filter_cons_of_pos hk]
      exact .add _ _ (fun h => hn (names name h)) whole
    · rw [List.filter_cons_of_neg hk]
      exact refl _
  | @drop _ name s before after hm once =>
    rw [List.filter_append, List.filter_append]
    by_cases hk : keep (.plain name, .null) = true
    · rw [List.filter_cons_of_pos hk]
      refine .drop _ _ (mine _ hm .null hk) fun m h => once m ?_
      rw [← List.filter_append] at h
      exact List.mem_of_mem_filter h
    · rw [List.filter_cons_of_neg hk]
      exact refl _

/-! ## Fields -/

namespace Fields

variable {α β : Type} {fields others : List (String × Shape)}

/-- The fields are those of the shape, and a step among the members of the object does not change
what they give. -/
structure Reads (fs : Fields α) (fields : List (String × Shape)) : Prop where
  named : fs.Named (fields.map Prod.fst)
  same : ∀ {ms ms' : List (JsonText × Json)}, MembersStep fields ms ms' →
    ∀ levels a, fs.run levels ms = .ok a ↔ fs.run levels ms' = .ok a

theorem owned_name (names : List String) (n : JsonText) (j j' : Json) :
    owned names (n, j) = owned names (n, j') := by
  cases n <;> rfl

/-! ### Members of other names -/

/-- Members of other names are passed over if they are JSON. -/
def Passes (names : List String) (ms : List (JsonText × Json)) : Prop :=
  ∀ m ∈ ms, owned names m = false → m.1 ≠ .unpaired ∧ m.2.isWhole = true

theorem takeAll_iff_passes {fs : Fields α} {names : List String} (h : fs.Named names)
    {levels : Nat} {ms : List (JsonText × Json)} {s s' : fs.State} :
    fs.takeAll levels ms s = .ok s' ↔
      Passes names ms ∧ fs.takeAll levels (ms.filter (owned names)) s = .ok s' := by
  induction ms generalizing s with
  | nil => exact (and_iff_right fun _ hm => nomatch hm).symm
  | cons m ms ih =>
    rw [Passes, List.forall_mem_cons, ← Passes]
    rcases m with ⟨n | _, j⟩
    case unpaired => exact iff_of_false (fun h => nomatch h) fun h => (h.1.1 rfl).1 rfl
    case plain =>
      by_cases hn : n ∈ names
      · obtain ⟨r, hr⟩ := h.take_of_mem hn levels j s
        have mine : owned names (.plain n, j) = true := decide_eq_true hn
        rw [List.filter_cons_of_pos mine, takeAll_of_take hr, takeAll_of_take hr,
          Except.bind_eq_ok, Except.bind_eq_ok, mine]
        simp only [ih, reduceCtorEq, false_implies, true_and]
        exact ⟨fun ⟨s₁, hs, passes, rest⟩ => ⟨passes, s₁, hs, rest⟩,
          fun ⟨passes, s₁, hs, rest⟩ => ⟨s₁, hs, passes, rest⟩⟩
      · have other : owned names (.plain n, j) = false := decide_eq_false hn
        rw [List.filter_cons_of_neg (by simp [other]),
          takeAll_of_pass (h.take_of_not_mem hn levels j s), other]
        by_cases whole : j.isWhole = true
        · rw [if_pos whole, ih]
          simp [whole]
        · rw [if_neg whole]
          exact iff_of_false (fun h => nomatch h) fun h => whole (h.1.1 rfl).2

theorem run_iff_passes {fs : Fields α} {names : List String} (h : fs.Named names) {levels : Nat}
    {ms : List (JsonText × Json)} {a : α} : fs.run levels ms = .ok a ↔
      Passes names ms ∧ fs.run levels (ms.filter (owned names)) = .ok a := by
  unfold run
  rw [Except.bind_eq_ok, Except.bind_eq_ok, ← exists_and_left]
  refine exists_congr fun s => ?_
  rw [takeAll_iff_passes h, and_assoc]

/-- What is passed over does not depend on how the members are spelled. -/
theorem passes_iff {ms ms' : List (JsonText × Json)} (step : MembersStep fields ms ms') :
    Passes (fields.map Prod.fst) ms ↔ Passes (fields.map Prod.fst) ms' := by
  have mine {name : String} {s : Shape} (h : (name, s) ∈ fields) (j : Json) :
      owned (fields.map Prod.fst) (.plain name, j) = true :=
    decide_eq_true (List.mem_map_of_mem h)
  cases step with
  | value before after hm step =>
    simp only [Passes, List.forall_mem_append, List.forall_mem_cons, mine hm, reduceCtorEq,
      false_implies]
  | reorder perm => simp only [Passes, perm.mem_iff]
  | add before after hn whole =>
    simp only [Passes, List.forall_mem_append, List.forall_mem_cons, whole, ne_eq, reduceCtorEq,
      not_false_eq_true, and_self, implies_true, true_and]
  | drop before after hm once =>
    simp only [Passes, List.forall_mem_append, List.forall_mem_cons, mine hm, reduceCtorEq,
      false_implies, true_and]

/-- It is enough to look at members that are the fields' own. -/
theorem Reads.of_own {fs : Fields α} (named : fs.Named (fields.map Prod.fst))
    (same : ∀ {ms ms' : List (JsonText × Json)}, (∀ m ∈ ms, owned (fields.map Prod.fst) m = true) →
      (∀ m ∈ ms', owned (fields.map Prod.fst) m = true) → MembersStep fields ms ms' →
      ∀ levels a, fs.run levels ms = .ok a ↔ fs.run levels ms' = .ok a) : fs.Reads fields where
  named := named
  same {ms ms'} step levels a := by
    have among : MembersStep fields (ms.filter (owned (fields.map Prod.fst)))
        (ms'.filter (owned (fields.map Prod.fst))) :=
      step.filter (owned_name _) (fun f hf _ _ => hf) fun _ hn => hn
    rw [run_iff_passes named, passes_iff step]
    refine Iff.trans (and_congr_right' ?_) (run_iff_passes named).symm
    exact same (fun _ => List.of_mem_filter) (fun _ => List.of_mem_filter) among levels a

/-! ### One field -/

section One

variable {missing : Option α} {name : String} {d : Decoder α} {s : Shape} {levels : Nat} {a : α}

theorem run_fieldOr_nil :
    (fieldOr missing name d).run levels [] = .ok a ↔ missing = some a := by
  cases missing with
  | none => exact iff_of_false (fun h => nomatch h) (fun h => nomatch h)
  | some b =>
    show (Except.ok b : Except DecodeError α) = .ok a ↔ _
    simp

theorem run_fieldOr_twice {j j' : Json} {ms : List (JsonText × Json)} :
    (fieldOr missing name d).run levels ((.plain name, j) :: (.plain name, j') :: ms) ≠ .ok a := by
  intro h
  obtain ⟨s, taken, -⟩ := Except.bind_eq_ok.mp h
  have first : (fieldOr missing name d).take levels name j none =
      some ((d levels j).map some) := if_pos rfl
  have second (b : α) : (fieldOr missing name d).take levels name j' (some b) =
      some (.error .shape) := if_pos rfl
  obtain ⟨s₁, given, taken⟩ := Except.bind_eq_ok.mp ((takeAll_of_take first _).symm.trans taken)
  obtain ⟨b, -, rfl⟩ := Except.map_eq_ok.mp given
  exact nomatch (takeAll_of_take (second b) ms).symm.trans taken

/-- The field is there once, or not at all and something stands in for it. -/
theorem run_fieldOr {ms : List (JsonText × Json)} (own : ∀ m ∈ ms, m.1 = .plain name) :
    (fieldOr missing name d).run levels ms = .ok a ↔
      (ms = [] ∧ missing = some a) ∨ ∃ j, ms = [(.plain name, j)] ∧ d levels j = .ok a := by
  rcases ms with _ | ⟨⟨n, j⟩, _ | ⟨⟨n', j'⟩, ms⟩⟩
  · simp [run_fieldOr_nil]
  · obtain rfl : n = .plain name := own _ List.mem_cons_self
    simp [run_fieldOr_once]
  · obtain rfl : n = .plain name := own _ List.mem_cons_self
    obtain rfl : n' = .plain name := own _ (List.mem_cons_of_mem _ List.mem_cons_self)
    simp [run_fieldOr_twice]

/-- What is read from `null` where the field may be missing also stands in for it. -/
def Lenient (missing : Option α) (d : Decoder α) (s : Shape) : Prop :=
  ∀ s', s = .option s' → ∃ a, missing = some a ∧ ∀ levels, d levels .null = .ok a

/-- A step among members that are all the field's. -/
theorem run_fieldOr_step (h : d.Reads s) (lenient : Lenient missing d s)
    {ms ms' : List (JsonText × Json)} (own : ∀ m ∈ ms, m.1 = .plain name)
    (own' : ∀ m ∈ ms', m.1 = .plain name) (step : MembersStep [(name, s)] ms ms') :
    (fieldOr missing name d).run levels ms = .ok a ↔
      (fieldOr missing name d).run levels ms' = .ok a := by
  cases step with
  | value before after hm step =>
    obtain ⟨rfl, rfl⟩ := Prod.mk.inj (List.mem_singleton.mp hm)
    rw [run_fieldOr own, run_fieldOr own']
    simp [List.append_eq_singleton_iff, h _ _ step levels a]
  | reorder perm =>
    rw [run_fieldOr own, run_fieldOr own']
    simp only [← List.perm_nil, ← List.perm_singleton, perm.congr_left]
  | @add _ name' j before after hn whole =>
    have same : JsonText.plain name' = .plain name :=
      own' (.plain name', j) (List.mem_append_right before List.mem_cons_self)
    exact absurd (List.mem_singleton.mpr (JsonText.plain.inj same)) hn
  | drop before after hm once =>
    obtain ⟨rfl, rfl⟩ := Prod.mk.inj (List.mem_singleton.mp hm)
    obtain ⟨a', stands_in, null⟩ := lenient _ rfl
    have alone : before ++ after = [] :=
      List.eq_nil_iff_forall_not_mem.mpr fun m hm => once m hm (own' m hm)
    obtain ⟨rfl, rfl⟩ := List.append_eq_nil_iff.mp alone
    rw [List.nil_append, run_fieldOr_once, List.nil_append, run_fieldOr_nil, null levels, stands_in]
    simp

theorem Reads.fieldOr (h : d.Reads s) (lenient : Lenient missing d s) :
    (Fields.fieldOr missing name d).Reads [(name, s)] := by
  have own {m : JsonText × Json} (mine : owned [name] m = true) : m.1 = .plain name := by
    rcases m with ⟨n | _, j⟩
    · exact congrArg _ (List.mem_singleton.mp (of_decide_eq_true mine))
    · contradiction
  refine .of_own (named_fieldOr missing name d) fun mine mine' step levels a => ?_
  exact run_fieldOr_step h lenient (fun m hm => own (mine m hm)) (fun m hm => own (mine' m hm)) step

end One

namespace Reads

theorem map {fs : Fields α} (h : fs.Reads fields) (f : α → β) : (f <$> fs).Reads fields where
  named := h.named.map f
  same step levels b := by
    rw [run_map, run_map]
    exact exists_congr fun a => and_congr_left' (h.same step levels a)

theorem checked {fs : Fields α} (h : fs.Reads fields) (check : α → Except Violation β) :
    (fs.checked check).Reads fields where
  named := h.named.checked check
  same step levels b := by
    rw [run_checked, run_checked]
    exact exists_congr fun a => and_congr_left' (h.same step levels a)

theorem field {d : Decoder α} {s : Shape} {name : String} (h : d.Reads s)
    (required : ∀ s', s ≠ .option s') : (Fields.field name d).Reads [(name, s)] :=
  fieldOr h fun s' hs => absurd hs (required s')

theorem option {d : Decoder α} {s : Shape} {name : String} (h : d.Reads s) :
    (Fields.option name d).Reads [(name, .option s)] :=
  fieldOr h.option fun _ _ => ⟨none, rfl, fun _ => rfl⟩

theorem always (a : α) : (Fields.always a).Reads [] := by
  have none_own {ms : List (JsonText × Json)} (mine : ∀ m ∈ ms, owned [] m = true) : ms = [] := by
    refine List.eq_nil_iff_forall_not_mem.mpr ?_
    rintro ⟨n | _, j⟩ hm <;> simpa [owned] using mine _ hm
  refine .of_own ⟨rfl, fun _ _ _ _ => rfl⟩ fun mine mine' _ levels b => ?_
  rw [none_own mine, none_own mine']

/-- Fields side by side, each of which sees only its own members. -/
theorem seq {fs : Fields (α → β)} {gs : Fields α} (hf : fs.Reads fields) (hg : gs.Reads others)
    (apart : ∀ n ∈ others.map Prod.fst, n ∉ fields.map Prod.fst) :
    (fs <*> gs).Reads (fields ++ others) where
  named := by
    rw [List.map_append]
    exact hf.named.both hg.named
  same {ms ms'} step levels b := by
    have left : MembersStep fields (ms.filter (owned (fields.map Prod.fst)))
        (ms'.filter (owned (fields.map Prod.fst))) := by
      refine step.filter (owned_name _) ?_ ?_
      · intro f hm j mine
        rcases List.mem_append.mp hm with hm | hm
        · exact hm
        · exact absurd (of_decide_eq_true mine) (apart f.1 (List.mem_map_of_mem hm))
      · intro n hn
        exact List.map_append ▸ List.mem_append_left _ hn
    have right : MembersStep others (ms.filter fun m => !owned (fields.map Prod.fst) m)
        (ms'.filter fun m => !owned (fields.map Prod.fst) m) := by
      refine step.filter (fun n j j' => congrArg _ (owned_name _ n j j')) ?_ ?_
      · intro f hm j mine
        rcases List.mem_append.mp hm with hm | hm
        · have own : owned (fields.map Prod.fst) (.plain f.1, j) = true :=
            decide_eq_true (List.mem_map_of_mem hm)
          simp [own] at mine
        · exact hm
      · intro n hn
        exact List.map_append ▸ List.mem_append_right _ hn
    refine (run_both hf.named).trans (Iff.trans ?_ (run_both hf.named).symm)
    exact exists_congr fun f => exists_congr fun a =>
      and_congr (hf.same left levels f) (and_congr_left' (hg.same right levels a))

/-- A step inside an item of an array is one inside the member that it stands for. -/
theorem placed_step {fs : Fields α} (h : fs.Reads fields) {name : String} {s : Shape} {j j' : Json}
    {before : List Json} (after : List Json) (place : fields[before.length]? = some (name, s))
    (step : s.Step j j') :
    MembersStep fields (fs.placed (before ++ j :: after)) (fs.placed (before ++ j' :: after)) := by
  obtain ⟨within, field⟩ := List.getElem?_eq_some_iff.mp place
  obtain ⟨earlier, later, rfl, length⟩ :
      ∃ earlier later, fields = earlier ++ (name, s) :: later ∧ earlier.length = before.length := by
    refine ⟨fields.take before.length, fields.drop (before.length + 1), ?_,
      List.length_take_of_le (Nat.le_of_lt within)⟩
    rw [← field, List.getElem_cons_drop, List.take_append_drop]
  have placed (j : Json) : fs.placed (before ++ j :: after) =
      Json.named ((earlier.map Prod.fst).zip before) ++
        (.plain name, j) :: Json.named ((later.map Prod.fst).zip after) := by
    rw [Fields.placed, h.named.names_eq, List.map_append, List.map_cons,
      List.zip_append (by rwa [List.length_map]), List.zip_cons_cons, List.map_append,
      List.map_cons]
    rfl
  rw [placed, placed]
  exact .value _ _ (List.mem_of_getElem? place) step

theorem decoder {fs : Fields α} (h : fs.Reads fields) : fs.decoder.Reads (.record fields) := by
  intro j j' step levels a
  cases levels with
  | zero => cases step <;> exact Iff.rfl
  | succ levels =>
    cases step with
    | record step => exact h.same step levels a
    | placed before after place step =>
      rw [decoder_array_eq_ok, decoder_array_eq_ok, h.same (h.placed_step after place step)]
      simp

end Reads

end Fields

end SqlTree
