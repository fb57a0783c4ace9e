import Mathlib.Data.List.Forall2

/-!
# Outcomes of computations that may fail

When a chain of computations succeeds, each of its steps does. Two outcomes agree when they are the
same failure or values that correspond.
-/

namespace Except

variable {ε α β : Type}

theorem bind_eq_ok {x : Except ε α} {f : α → Except ε β} {b : β} :
    (x >>= f) = .ok b ↔ ∃ a, x = .ok a ∧ f a = .ok b := by
  cases x with
  | error e =>
    constructor
    · exact fun h => nomatch h
    · rintro ⟨a, h, -⟩
      contradiction
  | ok a =>
    constructor
    · exact fun h => ⟨a, rfl, h⟩
    · rintro ⟨a', ha, h⟩
      obtain rfl := Except.ok.inj ha
      exact h

theorem map_eq_ok {x : Except ε α} {f : α → β} {b : β} :
    x.map f = .ok b ↔ ∃ a, x = .ok a ∧ f a = b := by
  cases x with
  | error e =>
    constructor
    · exact fun h => nomatch h
    · rintro ⟨a, h, -⟩
      contradiction
  | ok a =>
    constructor
    · exact fun h => ⟨a, rfl, Except.ok.inj h⟩
    · rintro ⟨a', ha, h⟩
      obtain rfl := Except.ok.inj ha
      exact congrArg Except.ok h

theorem mapError_eq_ok {ε' : Type} {x : Except ε α} {f : ε → ε'} {a : α} :
    x.mapError f = .ok a ↔ x = .ok a := by
  cases x with
  | error e => exact iff_of_false (fun h => nomatch h) (fun h => nomatch h)
  | ok b => exact ⟨fun h => congrArg ok (ok.inj h), fun h => congrArg ok (ok.inj h)⟩

/-- What the last step of a computation returns. -/
@[simp]
theorem pure_eq_ok {a b : α} : (pure a : Except ε α) = .ok b ↔ a = b :=
  ⟨Except.ok.inj, congrArg Except.ok⟩

/-- A last step that tells values apart gives the image of the value before it, and of no other. -/
theorem bind_pure_eq_ok {x : Except ε α} {f : α → β} (hf : ∀ {a b}, f a = f b → a = b) {a : α} :
    (x >>= fun a => pure (f a)) = .ok (f a) ↔ x = .ok a := by
  simp only [bind_eq_ok, pure_eq_ok]
  constructor
  · rintro ⟨b, h, eq⟩
    rwa [← hf eq]
  · exact fun h => ⟨a, h, rfl⟩

theorem mapM_eq_ok {f : α → Except ε β} : ∀ {as : List α} {bs : List β},
    as.mapM f = .ok bs ↔ List.Forall₂ (fun a b => f a = .ok b) as bs
  | [], bs => by
    rw [List.forall₂_nil_left_iff, List.mapM_nil]
    exact ⟨fun h => (Except.ok.inj h).symm, fun h => congrArg Except.ok h.symm⟩
  | a :: as, bs => by
    rw [List.mapM_cons, bind_eq_ok, List.forall₂_cons_left_iff]
    constructor
    · rintro ⟨b, first, h⟩
      obtain ⟨bs', rest, h⟩ := bind_eq_ok.mp h
      exact ⟨b, bs', first, mapM_eq_ok.mp rest, (Except.ok.inj h).symm⟩
    · rintro ⟨b, bs', first, rest, rfl⟩
      exact ⟨b, first, bind_eq_ok.mpr ⟨bs', mapM_eq_ok.mpr rest, rfl⟩⟩

/-- Images that are each taken back to what they come from. -/
theorem mapM_map_eq_ok {f : α → Except ε β} {g : β → α} {bs : List β} :
    (bs.map g).mapM f = .ok bs ↔ ∀ b ∈ bs, f (g b) = .ok b := by
  rw [mapM_eq_ok, List.forall₂_map_left_iff, List.forall₂_same]

theorem option_mapM_map_eq_ok {f : α → Except ε β} {g : β → α} {b? : Option β} :
    (b?.map g).mapM f = .ok b? ↔ ∀ b ∈ b?, f (g b) = .ok b := by
  cases b? with
  | none => exact iff_of_true rfl fun _ h => nomatch h
  | some b =>
    rw [Option.map_some, Option.mapM_some]
    exact map_eq_ok.trans (by simp)

theorem toOption_eq_iff {x y : Except ε α} :
    x.toOption = y.toOption ↔ ∀ a, x = .ok a ↔ y = .ok a := by
  cases x <;> cases y <;> simp [Except.toOption, eq_comm]

/-! ## Agreement -/

/-- Both fail in the same way, or both give values, which correspond by `V`. -/
def Agree (V : α → β → Prop) : Except ε α → Except ε β → Prop
  | .ok a, .ok b => V a b
  | .error e, .error e' => e = e'
  | _, _ => False

namespace Agree

variable {V W : α → β → Prop} {x : Except ε α} {y : Except ε β}

theorem mono (h : Agree V x y) (weaker : ∀ a b, V a b → W a b) : Agree W x y := by
  cases x <;> cases y
  case ok.ok a b => exact weaker a b h
  all_goals exact h

theorem of_map_eq {γ : Type} {f : α → γ} {g : β → γ} (h : x.map f = y.map g) :
    Agree (fun a b => f a = g b) x y := by
  cases x <;> cases y
  case error.error => exact Except.error.inj h
  case ok.ok => exact Except.ok.inj h
  all_goals contradiction

theorem refl (x : Except ε α) : Agree Eq x x := by
  cases x <;> rfl

theorem eq {y : Except ε α} (h : Agree Eq x y) : x = y := by
  cases x <;> cases y
  case error.error => exact congrArg Except.error h
  case ok.ok => exact congrArg Except.ok h
  all_goals contradiction

end Agree

end Except
