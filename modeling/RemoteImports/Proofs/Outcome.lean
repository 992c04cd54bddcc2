/-!
# Outcomes of steps in a row

A run of steps succeeds when all of its steps do, and fails with the failure of the first step that
fails (`bind_eq_ok_iff`, `bind_eq_error_iff`). Two runs agree if they fail alike or have related
results (`SameOutcome`); runs agree if each of their steps does (`SameOutcome.bind`).
-/

namespace RemoteImports

variable {ε α β : Type} {x : Except ε α}

instance decidableEqExcept [DecidableEq ε] [DecidableEq α] : DecidableEq (Except ε α)
  | .ok a, .ok b => decidable_of_iff (a = b) (by simp)
  | .error e, .error e' => decidable_of_iff (e = e') (by simp)
  | .ok _, .error _ => isFalse nofun
  | .error _, .ok _ => isFalse nofun

theorem bind_eq_ok_iff {f : α → Except ε β} {b : β} :
    x >>= f = .ok b ↔ ∃ a, x = .ok a ∧ f a = .ok b := by
  cases x with
  | error e => simp [bind, Except.bind]
  | ok a => simp [bind, Except.bind]

theorem bind_eq_error_iff {f : α → Except ε β} {e : ε} :
    x >>= f = .error e ↔ x = .error e ∨ ∃ a, x = .ok a ∧ f a = .error e := by
  cases x with
  | error e' => simp [bind, Except.bind]
  | ok a => simp [bind, Except.bind]

/-- A failure of the second step that does not depend on the result of the first one. -/
theorem bind_eq_error_iff_of_forall {f : α → Except ε β} {e : ε} {q : Prop}
    (h : ∀ a, f a = .error e ↔ q) :
    x >>= f = .error e ↔ x = .error e ∨ (∀ e', x ≠ .error e') ∧ q := by
  rw [bind_eq_error_iff]
  cases x with
  | error e' => simp
  | ok a => simp [h]

theorem map_eq_ok_iff {f : α → β} {b : β} : x.map f = .ok b ↔ ∃ a, x = .ok a ∧ f a = b := by
  cases x with
  | error e => simp [Except.map]
  | ok a => simp [Except.map]

theorem map_eq_error_iff {f : α → β} {e : ε} : x.map f = .error e ↔ x = .error e := by
  cases x with
  | error e' => simp [Except.map]
  | ok a => simp [Except.map]

theorem bind_map {γ : Type} (x : Except ε α) (f : α → Except ε β) (g : β → γ) :
    (x >>= f).map g = x >>= fun a => (f a).map g := by
  cases x <;> rfl

theorem mapError_eq_ok_iff {ε' : Type} {f : ε → ε'} {a : α} : x.mapError f = .ok a ↔ x = .ok a := by
  cases x with
  | error e => exact iff_of_false nofun nofun
  | ok b =>
    constructor <;> intro h <;> cases h
    · rfl
    · rfl

/-! ## Two runs -/

/-- Two runs both fail, with related failures, or have related results. -/
inductive SameOutcome {ε' : Type} (q : ε → ε' → Prop) (r : α → β → Prop) :
    Except ε α → Except ε' β → Prop
  | ok {a : α} {b : β} (h : r a b) : SameOutcome q r (.ok a) (.ok b)
  | error {e : ε} {e' : ε'} (h : q e e') : SameOutcome q r (.error e) (.error e')

namespace SameOutcome

variable {γ δ ε' : Type} {q : ε → ε' → Prop} {r : α → β → Prop} {s : γ → δ → Prop}

theorem refl {q : ε → ε → Prop} {r : α → α → Prop} (hq : ∀ e, q e e) (hr : ∀ a, r a a)
    (x : Except ε α) : SameOutcome q r x x := by
  cases x with
  | error e => exact .error (hq e)
  | ok a => exact .ok (hr a)

theorem mapError {y : Except ε β} (h : SameOutcome Eq r x y) (f : ε → ε') :
    SameOutcome Eq r (x.mapError f) (y.mapError f) := by
  cases h with
  | error h => exact .error (congrArg f h)
  | ok h => exact .ok h

theorem imp {y : Except ε' β} {q' : ε → ε' → Prop} {r' : α → β → Prop} (h : SameOutcome q r x y)
    (hq : ∀ e e', q e e' → q' e e') (hr : ∀ a b, r a b → r' a b) : SameOutcome q' r' x y := by
  cases h with
  | error h => exact .error (hq _ _ h)
  | ok h => exact .ok (hr _ _ h)

theorem map {y : Except ε' β} {f : α → γ} {g : β → δ} (h : SameOutcome q r x y)
    (hfg : ∀ a b, r a b → s (f a) (g b)) : SameOutcome q s (x.map f) (y.map g) := by
  cases h with
  | error h => exact .error h
  | ok h => exact .ok (hfg _ _ h)

theorem exists_ok_iff {y : Except ε' β} (h : SameOutcome q r x y) :
    (∃ a, x = .ok a) ↔ ∃ b, y = .ok b := by
  cases h with
  | error h => exact iff_of_false nofun nofun
  | ok h => exact iff_of_true ⟨_, rfl⟩ ⟨_, rfl⟩

/-- Runs agree if their first steps do and the steps after related results do. -/
theorem bind {y : Except ε' β} (h : SameOutcome q r x y) {f : α → Except ε γ}
    {g : β → Except ε' δ} (hstep : ∀ a b, r a b → SameOutcome q s (f a) (g b)) :
    SameOutcome q s (x >>= f) (y >>= g) := by
  cases h with
  | error h => exact .error h
  | ok h => exact hstep _ _ h

/-- Runs with the same first step agree if the steps after its result do. -/
theorem bind_same (x : Except ε α) {f : α → Except ε γ} {g : α → Except ε δ}
    (hstep : ∀ a, SameOutcome Eq s (f a) (g a)) : SameOutcome Eq s (x >>= f) (x >>= g) :=
  (refl (fun _ => rfl) (fun _ => rfl) x).bind fun a _ h => h ▸ hstep a

/-- Runs are equal if their first steps agree and nothing after them tells the results apart. -/
theorem bind_eq {y : Except ε β} (h : SameOutcome Eq r x y) {f : α → Except ε γ}
    {g : β → Except ε γ} (hstep : ∀ a b, x = .ok a → y = .ok b → r a b → f a = g b) :
    x >>= f = y >>= g := by
  cases h with
  | error h => exact congrArg Except.error h
  | ok h => exact hstep _ _ rfl rfl h

end SameOutcome

end RemoteImports
