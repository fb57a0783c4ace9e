import SqlTree.Proofs.Codec.Restores

/-!
# Fields that undo an encoding

The fields of an object are told apart by their names. Fields side by side read the members that
are theirs and leave the others, in whatever order the members stand; so what each of them restores,
both together restore.
-/

namespace SqlTree.Fields

variable {α β : Type}

/-- The fields are those of the given names. -/
structure Named (fs : Fields α) (names : List String) : Prop where
  names_eq : fs.names = names
  takes : ∀ levels n j s, (fs.take levels n j s).isSome = decide (n ∈ names)

/-- Is it a member of one of the names? -/
def owned (names : List String) : JsonText × Json → Bool
  | (.plain n, _) => decide (n ∈ names)
  | (.unpaired, _) => false

/-- Reads all members of an object. -/
def run (fs : Fields α) (levels : Nat) (ms : List (JsonText × Json)) : Except DecodeError α := do
  fs.finish (← fs.takeAll levels ms fs.start)

/-- From an array the fields read its items as the members that they stand for, if each field has
one. -/
theorem decoder_array_eq_ok {fs : Fields α} {levels : Nat} {js : List Json} {a : α} :
    fs.decoder (levels + 1) (.array js) = .ok a ↔
      js.length = fs.names.length ∧ fs.run levels (fs.placed js) = .ok a := by
  show (fs.takeAll levels (fs.placed js) fs.start >>= fun s =>
    if js.length = fs.names.length then fs.finish s else .error .shape) = .ok a ↔ _
  by_cases complete : js.length = fs.names.length
  · simp only [if_pos complete]
    exact (and_iff_right complete).symm
  · simp only [if_neg complete, Except.bind_eq_ok]
    exact iff_of_false (fun ⟨_, _, refused⟩ => nomatch refused) fun h => complete h.1

/-! ## Fields that are worked on -/

theorem takeAll_of_take {fs : Fields α} {n : String} {j : Json} {s : fs.State} {levels : Nat}
    {r : Except DecodeError fs.State} (h : fs.take levels n j s = some r)
    (ms : List (JsonText × Json)) :
    fs.takeAll levels ((.plain n, j) :: ms) s = r >>= fs.takeAll levels ms := by
  rw [takeAll, h]

theorem takeAll_of_pass {fs : Fields α} {n : String} {j : Json} {s : fs.State} {levels : Nat}
    (h : fs.take levels n j s = none) (ms : List (JsonText × Json)) :
    fs.takeAll levels ((.plain n, j) :: ms) s =
      if j.isWhole then fs.takeAll levels ms s else .error .shape := by
  rw [takeAll, h]

/-- What is made of the fields in the end does not matter for reading the members. -/
theorem takeAll_finish (fs : Fields α) (finish : fs.State → Except DecodeError β) (levels : Nat) :
    ∀ (ms : List (JsonText × Json)) (s : fs.State),
      (⟨fs.names, fs.State, fs.start, fs.take, finish⟩ : Fields β).takeAll levels ms s =
        fs.takeAll levels ms s
  | [], _ => rfl
  | (.unpaired, _) :: _, _ => rfl
  | (.plain n, j) :: ms, s => by
    have rest : (⟨fs.names, fs.State, fs.start, fs.take, finish⟩ : Fields β).takeAll levels ms =
        fs.takeAll levels ms := funext (takeAll_finish fs finish levels ms)
    cases h : fs.take levels n j s with
    | some r =>
      have same : (⟨fs.names, fs.State, fs.start, fs.take, finish⟩ : Fields β).take levels n j s =
          some r := h
      exact (takeAll_of_take same ms).trans
        ((congrArg (r >>= ·) rest).trans (takeAll_of_take h ms).symm)
    | none =>
      have same : (⟨fs.names, fs.State, fs.start, fs.take, finish⟩ : Fields β).take levels n j s =
          none := h
      rw [takeAll_of_pass h, ← rest]
      exact takeAll_of_pass same ms

theorem run_map {fs : Fields α} {f : α → β} {levels : Nat} {ms : List (JsonText × Json)} {b : β} :
    (f <$> fs).run levels ms = .ok b ↔ ∃ a, fs.run levels ms = .ok a ∧ f a = b := by
  show ((map f fs).takeAll levels ms fs.start >>= fun s => (fs.finish s).map f) = .ok b ↔ _
  rw [show (map f fs).takeAll levels ms fs.start = fs.takeAll levels ms fs.start from
    takeAll_finish fs _ levels ms fs.start]
  constructor
  · intro h
    obtain ⟨s, taken, h⟩ := Except.bind_eq_ok.mp h
    obtain ⟨a, ha, hb⟩ := Except.map_eq_ok.mp h
    exact ⟨a, Except.bind_eq_ok.mpr ⟨s, taken, ha⟩, hb⟩
  · rintro ⟨a, ha, hb⟩
    obtain ⟨s, taken, ha⟩ := Except.bind_eq_ok.mp ha
    exact Except.bind_eq_ok.mpr ⟨s, taken, Except.map_eq_ok.mpr ⟨a, ha, hb⟩⟩

theorem run_checked {fs : Fields α} {check : α → Except Violation β} {levels : Nat}
    {ms : List (JsonText × Json)} {b : β} :
    (fs.checked check).run levels ms = .ok b ↔ ∃ a, fs.run levels ms = .ok a ∧ check a = .ok b := by
  have finish (s : fs.State) : (fs.checked check).finish s = .ok b ↔
      ∃ a, fs.finish s = .ok a ∧ check a = .ok b := by
    unfold Fields.checked
    dsimp only
    rw [Except.bind_eq_ok]
    refine exists_congr fun a => and_congr_right fun _ => ?_
    cases check a <;> simp
  constructor
  · intro h
    obtain ⟨s, taken, h⟩ := Except.bind_eq_ok.mp h
    obtain ⟨a, ha, hb⟩ := (finish s).mp h
    have taken := (takeAll_finish fs (fs.checked check).finish levels ms fs.start).symm.trans taken
    exact ⟨a, Except.bind_eq_ok.mpr ⟨s, taken, ha⟩, hb⟩
  · rintro ⟨a, ha, hb⟩
    obtain ⟨s, taken, ha⟩ := Except.bind_eq_ok.mp ha
    have taken := (takeAll_finish fs (fs.checked check).finish levels ms fs.start).trans taken
    exact Except.bind_eq_ok.mpr ⟨s, taken, (finish s).mpr ⟨a, ha, hb⟩⟩

theorem Named.map {fs : Fields α} {names : List String} (h : fs.Named names) (f : α → β) :
    (f <$> fs).Named names := ⟨h.names_eq, h.takes⟩

theorem Named.checked {fs : Fields α} {names : List String} (h : fs.Named names)
    (check : α → Except Violation β) : (fs.checked check).Named names := ⟨h.names_eq, h.takes⟩

/-! ## One field -/

theorem named_fieldOr (missing : Option α) (name : String) (d : Decoder α) :
    (fieldOr missing name d).Named [name] := by
  refine ⟨rfl, fun levels n j s => ?_⟩
  by_cases hn : n = name
  · simp [Fields.fieldOr, hn]
  · simp [Fields.fieldOr, hn]

theorem run_fieldOr_once (missing : Option α) (name : String) (d : Decoder α) (levels : Nat)
    (j : Json) : (fieldOr missing name d).run levels [(.plain name, j)] = d levels j := by
  have take : (fieldOr missing name d).take levels name j none = some ((d levels j).map some) :=
    if_pos rfl
  show ((fieldOr missing name d).takeAll levels [(.plain name, j)] none >>=
    (fieldOr missing name d).finish) = _
  rw [takeAll_of_take take]
  cases d levels j <;> rfl

/-! ## Fields side by side -/

section Both

variable {fs : Fields (α → β)} {gs : Fields α} {names names' : List String} {levels : Nat}

theorem Named.take_of_mem {fs : Fields α} (h : fs.Named names) {n : String} (hn : n ∈ names)
    (levels : Nat) (j : Json) (s : fs.State) : ∃ r, fs.take levels n j s = some r :=
  Option.isSome_iff_exists.mp ((h.takes levels n j s).trans (decide_eq_true hn))

theorem Named.take_of_not_mem {fs : Fields α} (h : fs.Named names) {n : String} (hn : n ∉ names)
    (levels : Nat) (j : Json) (s : fs.State) : fs.take levels n j s = none := by
  have not_some : (fs.take levels n j s).isSome = false :=
    (h.takes levels n j s).trans (decide_eq_false hn)
  rwa [Option.isSome_eq_false_iff, Option.isNone_iff_eq_none] at not_some

theorem Named.both (hf : fs.Named names) (hg : gs.Named names') :
    (both fs gs).Named (names ++ names') := by
  refine ⟨congrArg₂ (· ++ ·) hf.names_eq hg.names_eq, fun levels n j s => ?_⟩
  by_cases hn : n ∈ names
  · obtain ⟨r, hr⟩ := hf.take_of_mem hn levels j s.1
    simp only [Fields.both, hr, Option.isSome_some, List.mem_append, hn, true_or, decide_true]
  · have hr := hf.take_of_not_mem hn levels j s.1
    simp only [Fields.both, hr, Option.isSome_map, hg.takes levels n j s.2, List.mem_append, hn,
      false_or]

theorem takeAll_both (hf : fs.Named names) : ∀ {ms : List (JsonText × Json)} {s s' : fs.State}
    {t t' : gs.State}, (both fs gs).takeAll levels ms (s, t) = .ok (s', t') ↔
      fs.takeAll levels (ms.filter (owned names)) s = .ok s' ∧
      gs.takeAll levels (ms.filter fun m => !owned names m) t = .ok t'
  | [], s, s', t, t' => by
    rw [List.filter_nil, List.filter_nil, takeAll, takeAll, Except.ok.injEq, Except.ok.injEq]
    show Except.ok (s, t) = Except.ok (s', t') ↔ _
    rw [Except.ok.injEq, Prod.mk.injEq]
  | (.unpaired, j) :: ms, s, s', t, t' => by
    simp [takeAll, owned]
  | (.plain n, j) :: ms, s, s', t, t' => by
    -- the member belongs to the left fields, to the right ones, or to neither
    by_cases hn : n ∈ names
    · obtain ⟨r, hr⟩ := hf.take_of_mem hn levels j s
      have mine : owned names (.plain n, j) = true := decide_eq_true hn
      have both_take : (both fs gs).take levels n j (s, t) = some (r.map fun s => (s, t)) := by
        simp only [Fields.both, hr]
      rw [List.filter_cons_of_pos mine, List.filter_cons_of_neg (by simp [mine]),
        takeAll_of_take both_take, takeAll_of_take hr]
      cases r with
      | error e => exact iff_of_false (fun h => nomatch h) fun h => nomatch h.1
      | ok s₁ => exact takeAll_both hf
    · have hr := hf.take_of_not_mem hn levels j s
      have other : owned names (.plain n, j) = false := decide_eq_false hn
      rw [List.filter_cons_of_neg (by simp [other]), List.filter_cons_of_pos (by simp [other])]
      cases ht : gs.take levels n j t with
      | some r =>
        have both_take : (both fs gs).take levels n j (s, t) = some (r.map fun t => (s, t)) := by
          simp only [Fields.both, hr, ht, Option.map_some]
        rw [takeAll_of_take both_take, takeAll_of_take ht]
        cases r with
        | error e => exact iff_of_false (fun h => nomatch h) fun h => nomatch h.2
        | ok t₁ => exact takeAll_both hf
      | none =>
        have both_take : (both fs gs).take levels n j (s, t) = none := by
          simp only [Fields.both, hr, ht, Option.map_none]
        rw [takeAll_of_pass both_take, takeAll_of_pass ht]
        split
        · exact takeAll_both hf
        · exact iff_of_false (fun h => nomatch h) fun h => nomatch h.2

/-- Fields side by side read what either reads of its own members. -/
theorem run_both (hf : fs.Named names) {ms : List (JsonText × Json)} {b : β} :
    (both fs gs).run levels ms = .ok b ↔
      ∃ f a, fs.run levels (ms.filter (owned names)) = .ok f ∧
        gs.run levels (ms.filter fun m => !owned names m) = .ok a ∧ f a = b := by
  constructor
  · intro h
    obtain ⟨⟨s, t⟩, taken, h⟩ := Except.bind_eq_ok.mp h
    obtain ⟨mine, others⟩ := (takeAll_both hf).mp taken
    obtain ⟨f, hs, h⟩ := Except.bind_eq_ok.mp h
    obtain ⟨a, ht, h⟩ := Except.bind_eq_ok.mp h
    exact ⟨f, a, Except.bind_eq_ok.mpr ⟨s, mine, hs⟩, Except.bind_eq_ok.mpr ⟨t, others, ht⟩,
      Except.ok.inj h⟩
  · rintro ⟨f, a, hf', ha, rfl⟩
    obtain ⟨s, mine, hs⟩ := Except.bind_eq_ok.mp hf'
    obtain ⟨t, others, ht⟩ := Except.bind_eq_ok.mp ha
    refine Except.bind_eq_ok.mpr ⟨(s, t), (takeAll_both hf).mpr ⟨mine, others⟩, ?_⟩
    exact Except.bind_eq_ok.mpr ⟨f, hs, Except.bind_eq_ok.mpr ⟨a, ht, rfl⟩⟩

end Both

/-! ## Restoring -/

theorem owned_named (ms : List (String × Json)) :
    ∀ m ∈ Json.named ms, owned (ms.map Prod.fst) m = true := by
  intro m hm
  obtain ⟨m', hm', rfl⟩ := List.mem_map.mp hm
  exact decide_eq_true (List.mem_map_of_mem hm')

variable [Double.Reader]

/-- From the members, if their doubles are read back, the fields restore `a` on fewer than `bound`
levels, if `p`. Without `p` they fail, however doubles are read. -/
structure Restores (fs : Fields α) (bound : Nat) (ms : List (String × Json)) (a : α)
    (p : Prop) : Prop where
  named : fs.Named (ms.map Prod.fst)
  proper : ∀ m ∈ ms, m.2.Proper
  ok : p → (∀ m ∈ ms, m.2.ReadBack) → ∀ levels < bound, (∀ m ∈ ms, m.2.depth ≤ levels) →
    fs.run levels (Json.named ms) = .ok a
  of_ok : ∀ {levels b}, fs.run levels (Json.named ms) = .ok b → p

namespace Restores

variable {bound : Nat} {ms ns : List (String × Json)} {a : α} {p q : Prop}

theorem congr {fs : Fields α} (h : fs.Restores bound ms a p) (hq : p ↔ q) :
    fs.Restores bound ms a q :=
  ⟨h.named, h.proper, fun hp => h.ok (hq.mpr hp), fun hb => hq.mp (h.of_ok hb)⟩

theorem map {fs : Fields α} (h : fs.Restores bound ms a p) (f : α → β) :
    (f <$> fs).Restores bound ms (f a) p where
  named := h.named.map f
  proper := h.proper
  ok hp hr levels hl hd := run_map.mpr ⟨a, h.ok hp hr levels hl hd, rfl⟩
  of_ok hb := by
    obtain ⟨a', ha, -⟩ := run_map.mp hb
    exact h.of_ok ha

theorem checked {fs : Fields α} {check : α → Except Violation β} {b : β}
    (h : fs.Restores bound ms a p) (hc : check a = .ok b) :
    (fs.checked check).Restores bound ms b p where
  named := h.named.checked check
  proper := h.proper
  ok hp hr levels hl hd := run_checked.mpr ⟨a, h.ok hp hr levels hl hd, hc⟩
  of_ok hb := by
    obtain ⟨a', ha, -⟩ := run_checked.mp hb
    exact h.of_ok ha

theorem seq {fs : Fields (α → β)} {gs : Fields α} {f : α → β} (hf : fs.Restores bound ms f p)
    (hg : gs.Restores bound ns a q) (apart : ∀ n ∈ ns.map Prod.fst, n ∉ ms.map Prod.fst) :
    (fs <*> gs).Restores bound (ms ++ ns) (f a) (p ∧ q) := by
  have foreign : ∀ m ∈ Json.named ns, owned (ms.map Prod.fst) m = false := by
    intro m hm
    obtain ⟨m', hm', rfl⟩ := List.mem_map.mp hm
    exact decide_eq_false (apart m'.1 (List.mem_map_of_mem hm'))
  have mine : (Json.named (ms ++ ns)).filter (owned (ms.map Prod.fst)) = Json.named ms := by
    rw [Json.named, List.map_append, List.filter_append, ← Json.named, ← Json.named]
    rw [List.filter_eq_self.mpr (owned_named ms),
      List.filter_eq_nil_iff.mpr (by simpa using foreign), List.append_nil]
  have others : ((Json.named (ms ++ ns)).filter fun m => !owned (ms.map Prod.fst) m) =
      Json.named ns := by
    rw [Json.named, List.map_append, List.filter_append, ← Json.named, ← Json.named]
    rw [List.filter_eq_nil_iff.mpr (by simpa using owned_named ms),
      List.filter_eq_self.mpr (by simpa using foreign), List.nil_append]
  refine ⟨?_, ?_, ?_, ?_⟩
  · rw [List.map_append]
    exact hf.named.both hg.named
  · exact List.forall_mem_append.mpr ⟨hf.proper, hg.proper⟩
  · intro hpq hr levels hl hd
    rw [List.forall_mem_append] at hr hd
    refine (run_both hf.named).mpr ⟨f, a, ?_, ?_, rfl⟩
    · rw [mine]
      exact hf.ok hpq.1 hr.1 levels hl hd.1
    · rw [others]
      exact hg.ok hpq.2 hr.2 levels hl hd.2
  · intro levels b hb
    obtain ⟨f', a', hf', ha', -⟩ := (run_both hf.named).mp hb
    rw [mine] at hf'
    rw [others] at ha'
    exact ⟨hf.of_ok hf', hg.of_ok ha'⟩

theorem fieldOr {d : Decoder α} {j : Json} (missing : Option α) (name : String)
    (h : d.Restores bound j a p) :
    (Fields.fieldOr missing name d).Restores bound [(name, j)] a p := by
  refine ⟨named_fieldOr missing name d, ?_, ?_, ?_⟩
  · intro m hm
    rw [List.mem_singleton.mp hm]
    exact h.proper
  · intro hp hr levels hl hd
    exact (run_fieldOr_once missing name d levels j).trans
      (h.ok hp (hr _ List.mem_cons_self) levels hl (hd _ List.mem_cons_self))
  · intro levels b hb
    exact h.of_ok ((run_fieldOr_once missing name d levels j).symm.trans hb)

theorem field {d : Decoder α} {j : Json} (name : String) (h : d.Restores bound j a p) :
    (Fields.field name d).Restores bound [(name, j)] a p := fieldOr none name h

theorem option {d : Decoder α} {j : Json} {a? : Option α} (name : String)
    (h : d.option.Restores bound j a? p) :
    (Fields.option name d).Restores bound [(name, j)] a? p := fieldOr (some none) name h

theorem optional {d : Decoder α} {encode : α → Json} {p : α → Prop} {a? : Option α} (name : String)
    (h : ∀ a ∈ a?, d.Restores bound (encode a) a (p a)) (some_ne : ∀ a, encode a ≠ .null) :
    (Fields.option name d).Restores bound [(name, Json.ofOption encode a?)] a? (∀ a ∈ a?, p a) :=
  option name (.option h some_ne)

theorem always (a : α) : (Fields.always a).Restores bound [] a True where
  named := ⟨rfl, fun _ _ _ _ => rfl⟩
  proper := by simp
  ok _ _ _ _ _ := rfl
  of_ok _ := True.intro

theorem decoder {fs : Fields α} (h : fs.Restores bound ms a p) :
    fs.decoder.Restores bound (.record ms) a p := by
  refine ⟨Json.proper_record h.proper, ?_, ?_⟩
  · intro hp hr levels hl hd
    rcases levels with _ | levels
    · exact absurd hd (Nat.not_succ_le_zero _)
    · exact h.ok hp (Json.readBack_record.mp hr) levels (Nat.lt_of_succ_lt hl)
        (Json.depthMembers_named_le.mp (Nat.le_of_succ_le_succ hd))
  · intro levels b hb
    rcases levels with _ | levels
    · contradiction
    · exact h.of_ok hb

end Restores

end SqlTree.Fields
