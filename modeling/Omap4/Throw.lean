import Mathlib.Logic.Basic

/-!
# Omap4.Throw — code that may throw and keeps what it has assigned

`EStateM ε σ` is code with a state: when it throws, what was assigned before stays assigned. `Ends P
Q c s` says how the code `c` ends from the state `s`: in a state with `P` if it returns, in one with
`Q` if it throws.  `Ends.bind` puts code in front, `Returns` leaves out what is returned.
-/

namespace Omap4.Throw

variable {ε σ α β : Type} {c : EStateM ε σ α} {f : α → EStateM ε σ β} {s s₁ : σ}

/-- The code returns. -/
def Returns (c : EStateM ε σ α) (s : σ) : Prop := ∃ r s', c s = .ok r s'

/-- From the state before to the state after, `P` holds if the code returns and `Q` if it throws. -/
def Ends (P Q : σ → σ → Prop) (c : EStateM ε σ α) (s : σ) : Prop :=
  match c s with
  | .ok _ s' => P s s'
  | .error _ s' => Q s s'

/-- A result of other code, which may be what it threw. -/
def orThrow : Except ε α → EStateM ε σ α
  | .error tr => throw tr
  | .ok a => pure a

theorem bind_ok {a : α} (h : c s = .ok a s₁) : (c >>= f) s = f a s₁ := by
  show EStateM.bind c f s = _
  rw [EStateM.bind, h]

theorem bind_error {tr : ε} (h : c s = .error tr s₁) : (c >>= f) s = .error tr s₁ := by
  show EStateM.bind c f s = _
  rw [EStateM.bind, h]

theorem bind_get {f : σ → EStateM ε σ β} : ((get : EStateM ε σ σ) >>= f) s = f s s := rfl

theorem tryCatch_ok {handle : ε → EStateM ε σ α} {a : α} (h : c s = .ok a s₁) :
    (tryCatch c handle : EStateM ε σ α) s = .ok a s₁ := by
  show EStateM.tryCatch c handle s = _
  delta EStateM.tryCatch
  simp only [h]

/-- The handler starts in the state in which the code has thrown. -/
theorem tryCatch_error {handle : ε → EStateM ε σ α} {tr : ε} (h : c s = .error tr s₁) :
    (tryCatch c handle : EStateM ε σ α) s = handle tr s₁ := by
  show EStateM.tryCatch c handle s = _
  delta EStateM.tryCatch
  simp only [h]
  rfl

theorem orThrow_ok_iff {e : Except ε α} {a : α} : orThrow e s = .ok a s₁ ↔ e = .ok a ∧ s₁ = s := by
  cases e with
  | error tr => exact ⟨nofun, nofun⟩
  | ok b =>
    constructor
    · rintro ⟨⟩
      exact ⟨rfl, rfl⟩
    · rintro ⟨⟨⟩, rfl⟩
      rfl

/-! ## Returning -/

theorem returns_bind_iff : Returns (c >>= f) s ↔ ∃ a s₁, c s = .ok a s₁ ∧ Returns (f a) s₁ := by
  constructor
  · rintro ⟨r, s₂, h⟩
    cases hc : c s with
    | error tr s₁ =>
      rw [bind_error hc] at h
      cases h
    | ok a s₁ => exact ⟨a, s₁, rfl, r, s₂, by rwa [bind_ok hc] at h⟩
  · rintro ⟨a, s₁, hc, r, s₂, h⟩
    exact ⟨r, s₂, by rwa [bind_ok hc]⟩

theorem exists_ok_bind_iff {e : Except ε α} {g : α → Except ε β} :
    (∃ b, (e >>= g) = .ok b) ↔ ∃ a, e = .ok a ∧ ∃ b, g a = .ok b := by
  cases e with
  | error tr => exact ⟨nofun, nofun⟩
  | ok a => exact ⟨fun h => ⟨a, rfl, h⟩, fun ⟨_, ha, h⟩ => Except.ok.inj ha ▸ h⟩

/-! ## How code ends -/

variable {P Q R : σ → σ → Prop}

theorem Ends.of_ok {a : α} (h : c s = .ok a s₁) (hP : P s s₁) : Ends P Q c s := by
  unfold Ends
  rw [h]
  exact hP

/-- **Code in front**: `P` and `Q` have to be closed under what it does, `R`. -/
theorem Ends.bind (hP : ∀ {s s₁ s'}, R s s₁ → P s₁ s' → P s s')
    (hQ : ∀ {s s₁ s'}, R s s₁ → Q s₁ s' → Q s s') (hc : Ends R Q c s)
    (hf : ∀ a s₁, c s = .ok a s₁ → Ends P Q (f a) s₁) : Ends P Q (c >>= f) s := by
  unfold Ends at hc ⊢
  cases h : c s with
  | error tr s₁ =>
    rw [h] at hc
    rw [bind_error h]
    exact hc
  | ok a s₁ =>
    rw [h] at hc
    have hnext := hf a s₁ h
    unfold Ends at hnext
    rw [bind_ok h]
    cases hr : f a s₁ with
    | ok r s₂ => exact hP hc (by rwa [hr] at hnext)
    | error tr s₂ => exact hQ hc (by rwa [hr] at hnext)

theorem ends_orThrow (hR : R s s) (hQ : Q s s) (e : Except ε α) : Ends R Q (orThrow e) s := by
  cases e with
  | error tr => exact hQ
  | ok a => exact hR

end Omap4.Throw
