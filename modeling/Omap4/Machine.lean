import Mathlib.Data.List.Basic

/-!
# Omap4.Machine — runs of a partial transition function

`step s a = some s'` says that the action `a` is enabled in `s` and leads to `s'`; `none` is a
disabled (blocked) action, or one after which the process is gone.  `exec step s l` runs a list of
actions.  `Along step C s l` says that every step of the run of `l` from `s` meets the condition `C`
in the state before it.  The two invariant rules (`exec_inv`, `exec_inv_along`) are the inductions
over runs: a module proves what one step preserves and cites them.
-/

namespace Omap4.Machine

variable {σ α : Type} {step : σ → α → Option σ}

/-- The state reached by the actions `l` from `s`, if all of them are enabled in turn. -/
def exec (step : σ → α → Option σ) : σ → List α → Option σ
  | s, [] => some s
  | s, a :: l => (step s a).bind fun s' => exec step s' l

/-- Every step of the run of `l` from `s` meets `C` in the state before it. -/
def Along (step : σ → α → Option σ) (C : σ → α → Prop) : σ → List α → Prop
  | _, [] => True
  | s, a :: l => C s a ∧ ∀ s', step s a = some s' → Along step C s' l

@[simp] theorem exec_nil (s : σ) : exec step s [] = some s := rfl

theorem exec_cons (s : σ) (a : α) (l : List α) :
    exec step s (a :: l) = (step s a).bind fun s' => exec step s' l := rfl

theorem exec_cons_some {s r : σ} {a : α} {l : List α} (h : exec step s (a :: l) = some r) :
    ∃ s', step s a = some s' ∧ exec step s' l = some r := by
  rw [exec_cons, Option.bind_eq_some_iff] at h
  exact h

theorem exec_append (s : σ) (l₁ l₂ : List α) :
    exec step s (l₁ ++ l₂) = (exec step s l₁).bind fun s' => exec step s' l₂ := by
  induction l₁ generalizing s with
  | nil => rfl
  | cons a l₁ ih =>
    rw [List.cons_append, exec_cons, exec_cons, Option.bind_assoc]
    exact congrArg _ (funext ih)

/-- **Invariant rule**, for invariants that need a condition on the steps taken. -/
theorem exec_inv_along {C : σ → α → Prop} {P : σ → Prop}
    (hstep : ∀ s a s', P s → C s a → step s a = some s' → P s') (l : List α) (s r : σ) (hP : P s)
    (hC : Along step C s l) (h : exec step s l = some r) : P r := by
  induction l generalizing s with
  | nil =>
    rw [exec_nil, Option.some.injEq] at h
    exact h ▸ hP
  | cons a l ih =>
    obtain ⟨s', h1, h2⟩ := exec_cons_some h
    exact ih s' (hstep s a s' hP hC.1 h1) (hC.2 s' h1) h2

theorem along_of_forall {C : σ → α → Prop} (l : List α) (s : σ) (h : ∀ a ∈ l, ∀ s, C s a) :
    Along step C s l := by
  induction l generalizing s with
  | nil => trivial
  | cons a l ih =>
    refine ⟨h a (by simp) s, fun s' _ => ?_⟩
    exact ih s' fun b hb => h b (by simp [hb])

/-- A run of a function that never blocks. -/
theorem exec_some (f : σ → α → σ) (s : σ) (l : List α) :
    exec (fun s a => some (f s a)) s l = some (l.foldl f s) := by
  induction l generalizing s with
  | nil => rfl
  | cons a l ih => exact ih (f s a)

theorem along_append {C : σ → α → Prop} {s : σ} {l₁ l₂ : List α} (h₁ : Along step C s l₁)
    (h₂ : ∀ s', exec step s l₁ = some s' → Along step C s' l₂) : Along step C s (l₁ ++ l₂) := by
  induction l₁ generalizing s with
  | nil => exact h₂ s rfl
  | cons a l ih =>
    refine ⟨h₁.1, fun t ht => ih (h₁.2 t ht) fun s' hs' => h₂ s' ?_⟩
    rw [exec_cons, ht]
    exact hs'

/-- **Exactness rule**: where a step from a state with `P` leads to one with `P` just if it meets
`C`, all states of a run have `P` if and only if all its steps meet `C`. -/
theorem forall_exec_iff_along {C : σ → α → Prop} {P : σ → Prop}
    (hnone : ∀ s a, step s a = none → C s a) (hstep : ∀ s a s', P s → step s a = some s' →
      (P s' ↔ C s a)) (l : List α) (s : σ) (hP : P s) :
    (∀ pre r, pre <+: l → exec step s pre = some r → P r) ↔ Along step C s l := by
  induction l generalizing s with
  | nil =>
    refine ⟨fun _ => trivial, fun _ pre r hpre h => ?_⟩
    rw [List.prefix_nil.mp hpre, exec_nil, Option.some.injEq] at h
    exact h ▸ hP
  | cons a l ih =>
    constructor
    · intro h
      have hnext : ∀ s', step s a = some s' → P s' := fun s' hs' =>
        h [a] s' (List.prefix_append [a] l) (by rw [exec_cons, hs']; rfl)
      refine ⟨?_, fun s' hs' => (ih s' (hnext s' hs')).mp fun pre r hpre hr => ?_⟩
      · cases hs : step s a with
        | none => exact hnone s a hs
        | some s' => exact (hstep s a s' hP hs).mp (hnext s' hs)
      · refine h (a :: pre) r (List.cons_prefix_cons.mpr ⟨rfl, hpre⟩) ?_
        rw [exec_cons, hs']
        exact hr
    · rintro ⟨hC, hrest⟩ pre r hpre hr
      obtain rfl | ⟨pre, rfl, hpre'⟩ := List.prefix_cons_iff.mp hpre
      · rw [exec_nil, Option.some.injEq] at hr
        exact hr ▸ hP
      · obtain ⟨s', hs', hr⟩ := exec_cons_some hr
        exact (ih s' ((hstep s a s' hP hs').mpr hC)).mpr (hrest s' hs') pre r hpre' hr

/-- Two conditions that agree wherever an invariant holds are met along the same runs. -/
theorem along_iff_of_inv {C D : σ → α → Prop} {P : σ → Prop}
    (hstep : ∀ s a s', P s → step s a = some s' → P s') (hcond : ∀ s a, P s → (C s a ↔ D s a))
    (l : List α) (s : σ) (hP : P s) : Along step C s l ↔ Along step D s l := by
  induction l generalizing s with
  | nil => exact Iff.rfl
  | cons a l ih =>
    refine and_congr (hcond s a hP) (forall_congr' fun s' => ?_)
    exact forall_congr' fun hs' => ih s' (hstep s a s' hP hs')

/-- In a run that is not blocked it makes no difference to ask only the steps that can be taken. -/
theorem along_iff_of_exec {C : σ → α → Prop} {l : List α} {s r : σ} (h : exec step s l = some r) :
    Along step (fun s a => step s a ≠ none → C s a) s l ↔ Along step C s l := by
  induction l generalizing s with
  | nil => exact Iff.rfl
  | cons a l ih =>
    obtain ⟨s', hs', hr⟩ := exec_cons_some h
    have hnext : ∀ {D : σ → α → Prop}, Along step D s (a :: l) ↔ D s a ∧ Along step D s' l := by
      intro D
      refine and_congr_right fun _ => ⟨fun hrest => hrest s' hs', fun hrest t ht => ?_⟩
      exact Option.some.inj (hs'.symm.trans ht) ▸ hrest
    rw [hnext, hnext, ih hr]
    simp [hs']

/-- **Simulation rule**: two machines that take related steps, and whose conditions agree on related
states, meet them along the same lists of actions. -/
theorem along_iff_of_rel {τ : Type} {next : τ → α → Option τ} {Rel : σ → τ → Prop}
    {C : σ → α → Prop} {D : τ → α → Prop} (hcond : ∀ s t a, Rel s t → (C s a ↔ D t a))
    (hstep : ∀ s t a, Rel s t → ∃ s' t', step s a = some s' ∧ next t a = some t' ∧ Rel s' t')
    (l : List α) {s : σ} {t : τ} (h : Rel s t) : Along step C s l ↔ Along next D t l := by
  induction l generalizing s t with
  | nil => exact Iff.rfl
  | cons a l ih =>
    obtain ⟨s', t', hs', ht', hrel⟩ := hstep s t a h
    refine and_congr (hcond s t a h) ⟨fun hrest r hr => ?_, fun hrest r hr => ?_⟩
    · exact Option.some.inj (ht'.symm.trans hr) ▸ (ih hrel).mp (hrest s' hs')
    · exact Option.some.inj (hs'.symm.trans hr) ▸ (ih hrel).mpr (hrest t' ht')

instance decidableAlong {C : σ → α → Prop} [∀ s a, Decidable (C s a)] :
    ∀ (s : σ) (l : List α), Decidable (Along step C s l)
  | _, [] => isTrue trivial
  | s, a :: l =>
    match h : step s a with
    | none => decidable_of_iff (C s a)
        ⟨fun hC => ⟨hC, fun s' hs' => by rw [h] at hs'; cases hs'⟩, And.left⟩
    | some s' =>
      have : Decidable (Along step C s' l) := decidableAlong s' l
      decidable_of_iff (C s a ∧ Along step C s' l)
        ⟨fun hC => ⟨hC.1, fun t ht => Option.some.inj (h.symm.trans ht) ▸ hC.2⟩,
          fun hC => ⟨hC.1, hC.2 s' h⟩⟩

/-- **Invariant rule**, unconditional. -/
theorem exec_inv {P : σ → Prop} (hstep : ∀ s a s', P s → step s a = some s' → P s')
    {l : List α} {s r : σ} (hP : P s) (h : exec step s l = some r) : P r :=
  exec_inv_along (C := fun _ _ => True) (fun s a s' hs _ h' => hstep s a s' hs h') l s r hP
    (along_of_forall l s fun _ _ _ => trivial) h

end Omap4.Machine
