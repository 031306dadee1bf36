import Omap4.Machine
import Mathlib.Logic.Function.Basic

/-!
# Omap4.Monitor — threads that share a state under one lock

Any number of threads, each with a state `τ` of its own, a shared state `σ` and one lock.
`Program.holds` says in which states a thread is between `lock` and `unlock`: a step into such a
state takes the lock (and waits while it is taken), a step out of it gives the lock back.  Steps
outside may read and write the shared state as well, and so may the surroundings (`Program.env`).

`Keeps P free held` is the proof rule for such programs: `free` is what the lock protects, `held p`
what its holder knows at `p`.  It asks for one step at a time and gives the invariant of every run
(`Keeps.run`): no two threads are inside, and the shared state is as the lock promises.
-/

namespace Omap4.Monitor

variable {τ σ ι ε : Type}

structure Program (τ σ ι ε : Type) where
  holds : τ → Bool
  step : τ → σ → ι → Option (τ × σ)
  env : σ → ε → Option σ

structure State (τ σ : Type) where
  threads : ℕ → τ
  lock : Option ℕ
  shared : σ

inductive Action (ι ε : Type) where
  | run (t : ℕ) (i : ι)
  | env (e : ε)
  deriving DecidableEq, Repr

namespace Program

variable (P : Program τ σ ι ε)

/-- The lock after a step of `t` from `p` to `p'`.  There is none if the thread has to wait. -/
def lockStep (lock : Option ℕ) (t : ℕ) (p p' : τ) : Option (Option ℕ) :=
  if P.holds p = P.holds p' then some lock
  else if P.holds p then some none
  else if lock = none then some (some t)
  else none

def next (s : State τ σ) : Action ι ε → Option (State τ σ)
  | .run t i =>
    (P.step (s.threads t) s.shared i).bind fun r =>
      (P.lockStep s.lock t (s.threads t) r.1).map fun lock =>
        ⟨Function.update s.threads t r.1, lock, r.2⟩
  | .env e => (P.env s.shared e).map fun shared => { s with shared := shared }

/-- What a step of a thread can do with the lock. -/
inductive LockChange (s s' : State τ σ) (t : ℕ) (p' : τ) : Prop where
  | same (hholds : P.holds p' = P.holds (s.threads t)) (hlock : s'.lock = s.lock)
  | take (hold : P.holds (s.threads t) = false) (hnew : P.holds p' = true) (hfree : s.lock = none)
      (hlock : s'.lock = some t)
  | drop (hold : P.holds (s.threads t) = true) (hnew : P.holds p' = false) (hlock : s'.lock = none)

variable {P}

theorem next_run {s s' : State τ σ} {t : ℕ} {i : ι} (h : P.next s (.run t i) = some s') :
    ∃ p', P.step (s.threads t) s.shared i = some (p', s'.shared) ∧
      s'.threads = Function.update s.threads t p' ∧ P.LockChange s s' t p' := by
  rw [next, Option.bind_eq_some_iff] at h
  obtain ⟨⟨p', shared⟩, hstep, h⟩ := h
  rw [Option.map_eq_some_iff] at h
  obtain ⟨lock, hlock, rfl⟩ := h
  refine ⟨p', hstep, rfl, ?_⟩
  rw [lockStep] at hlock
  split_ifs at hlock with hsame hin hfree
  · exact .same hsame.symm (Option.some.inj hlock).symm
  · refine .drop hin ?_ (Option.some.inj hlock).symm
    rw [hin] at hsame
    exact Bool.eq_false_iff.mpr (Ne.symm hsame)
  · have hout := Bool.eq_false_iff.mpr hin
    refine .take hout ?_ hfree (Option.some.inj hlock).symm
    rw [hout] at hsame
    exact eq_true_of_ne_false (Ne.symm hsame)

theorem next_env {s s' : State τ σ} {e : ε} (h : P.next s (.env e) = some s') :
    P.env s.shared e = some s'.shared ∧ s'.threads = s.threads ∧ s'.lock = s.lock := by
  rw [next, Option.map_eq_some_iff] at h
  obtain ⟨shared, henv, rfl⟩ := h
  exact ⟨henv, rfl, rfl⟩

/-- A thread that can step, and that holds the lock or finds it free, is not blocked. -/
theorem next_isSome {s : State τ σ} {t : ℕ} {i : ι} {r : τ × σ}
    (hstep : P.step (s.threads t) s.shared i = some r)
    (hlock : P.holds (s.threads t) = true ∨ s.lock = none) :
    (P.next s (.run t i)).isSome = true := by
  rw [next, hstep, Option.bind_some, Option.isSome_map, lockStep]
  split_ifs with hsame hin hfree
  · rfl
  · rfl
  · rfl
  · exact absurd hlock (not_or.mpr ⟨hin, hfree⟩)

end Program

/-! ## What the lock protects -/

variable {P : Program τ σ ι ε} {free : σ → Prop} {held : τ → σ → Prop}

/-- `free` holds while the lock is free, and `held p` while a thread at `p` has it. -/
structure Keeps (P : Program τ σ ι ε) (free : σ → Prop) (held : τ → σ → Prop) : Prop where
  take : ∀ {p p' x x' i}, P.step p x i = some (p', x') → P.holds p = false → P.holds p' = true →
    free x → held p' x'
  inside : ∀ {p p' x x' i}, P.step p x i = some (p', x') → P.holds p = true →
    P.holds p' = true → held p x →
    held p' x'
  drop : ∀ {p p' x x' i}, P.step p x i = some (p', x') → P.holds p = true → P.holds p' = false →
    held p x → free x'
  outside : ∀ {p p' x x' i}, P.step p x i = some (p', x') → P.holds p = false → P.holds p' = false →
    (free x → free x') ∧ ∀ q, held q x → held q x'
  env : ∀ {x x' e}, P.env x e = some x' → (free x → free x') ∧ ∀ q, held q x → held q x'

structure Inv (P : Program τ σ ι ε) (free : σ → Prop) (held : τ → σ → Prop)
    (s : State τ σ) : Prop where
  holder : ∀ t, P.holds (s.threads t) = true ↔ s.lock = some t
  free : s.lock = none → free s.shared
  held : ∀ t, s.lock = some t → held (s.threads t) s.shared

/-- No two threads are inside. -/
theorem Inv.exclusive {s : State τ σ} (h : Inv P free held s) {t u : ℕ}
    (ht : P.holds (s.threads t) = true) (hu : P.holds (s.threads u) = true) : t = u :=
  Option.some.inj (((h.holder t).mp ht).symm.trans ((h.holder u).mp hu))

theorem inv_start {s : State τ σ} (hout : ∀ t, P.holds (s.threads t) = false)
    (hlock : s.lock = none) (hfree : free s.shared) : Inv P free held s where
  holder := by
    intro t
    rw [hout t, hlock]
    exact ⟨fun h => (Bool.false_ne_true h).elim, fun h => by cases h⟩
  free := fun _ => hfree
  held := by
    intro t ht
    rw [hlock] at ht
    cases ht

theorem Inv.holder_run {s s' : State τ σ} (hinv : Inv P free held s) {t : ℕ} {p' : τ}
    (hthreads : s'.threads = Function.update s.threads t p') (hlock : P.LockChange s s' t p')
    (u : ℕ) :
    P.holds (s'.threads u) = true ↔ s'.lock = some u := by
  have hself : s'.threads t = p' := by rw [hthreads, Function.update_self]
  have hother : u ≠ t → s'.threads u = s.threads u :=
    fun h => by rw [hthreads, Function.update_of_ne h]
  cases hlock with
  | same hholds hlock =>
    by_cases hu : u = t
    · rw [hu, hself, hholds, hlock]
      exact hinv.holder t
    · rw [hother hu, hlock]
      exact hinv.holder u
  | take _ hnew hfree hlock =>
    rw [hlock, Option.some.injEq]
    by_cases hu : u = t
    · rw [hu, hself]
      exact iff_of_true hnew rfl
    · rw [hother hu, hinv.holder u, hfree]
      exact iff_of_false (fun h => by cases h) (Ne.symm hu)
  | drop hold hnew hlock =>
    rw [hlock]
    by_cases hu : u = t
    · rw [hu, hself, hnew]
      exact iff_of_false Bool.false_ne_true (fun h => by cases h)
    · rw [hother hu]
      refine iff_of_false (fun hin => hu (hinv.exclusive hin hold)) (fun h => by cases h)

theorem Keeps.step_run (hP : Keeps P free held) {s s' : State τ σ} (hinv : Inv P free held s)
    {t : ℕ} {i : ι} (h : P.next s (.run t i) = some s') : Inv P free held s' := by
  obtain ⟨p', hstep, hthreads, hlock⟩ := Program.next_run h
  have hself : s'.threads t = p' := by rw [hthreads, Function.update_self]
  have hother : ∀ u, u ≠ t → s'.threads u = s.threads u :=
    fun u h => by rw [hthreads, Function.update_of_ne h]
  refine ⟨hinv.holder_run hthreads hlock, ?_, ?_⟩
  · intro hnone
    cases hlock with
    | same hholds hlock =>
      rw [hlock] at hnone
      have hout : P.holds (s.threads t) = false := by
        rw [← Bool.not_eq_true, hinv.holder t, hnone]
        exact fun h => by cases h
      exact (hP.outside hstep hout (hholds.trans hout)).1 (hinv.free hnone)
    | take _ _ _ hlock =>
      rw [hlock] at hnone
      cases hnone
    | drop hold hnew _ => exact hP.drop hstep hold hnew (hinv.held t ((hinv.holder t).mp hold))
  · intro u hu
    cases hlock with
    | same hholds hlock =>
      rw [hlock] at hu
      have hin : P.holds (s.threads u) = true := (hinv.holder u).mpr hu
      by_cases hut : u = t
      · rw [hut] at hin hu ⊢
        rw [hself]
        exact hP.inside hstep hin (hholds.trans hin) (hinv.held t hu)
      · have hout : P.holds (s.threads t) = false := by
          rw [← Bool.not_eq_true]
          exact fun ht => hut (hinv.exclusive hin ht)
        rw [hother u hut]
        exact (hP.outside hstep hout (hholds.trans hout)).2 _ (hinv.held u hu)
    | take hold hnew hfree hlock =>
      rw [hlock, Option.some.injEq] at hu
      rw [← hu, hself]
      exact hP.take hstep hold hnew (hinv.free hfree)
    | drop _ _ hlock =>
      rw [hlock] at hu
      cases hu

theorem Keeps.step_env (hP : Keeps P free held) {s s' : State τ σ}
    (hinv : Inv P free held s) {e : ε} (h : P.next s (.env e) = some s') : Inv P free held s' := by
  obtain ⟨henv, hthreads, hlock⟩ := Program.next_env h
  obtain ⟨hfree, hheld⟩ := hP.env henv
  refine ⟨?_, ?_, ?_⟩
  · rw [hthreads, hlock]
    exact hinv.holder
  · rw [hlock]
    exact fun hnone => hfree (hinv.free hnone)
  · rw [hthreads, hlock]
    exact fun t ht => hheld _ (hinv.held t ht)

/-- **The lock rule**: the invariant holds in every state that the threads and the surroundings can
reach. -/
theorem Keeps.run (hP : Keeps P free held) {s s' : State τ σ} {l : List (Action ι ε)}
    (hinv : Inv P free held s) (h : Machine.exec P.next s l = some s') : Inv P free held s' := by
  refine Machine.exec_inv (fun s a s' hinv h => ?_) hinv h
  cases a with
  | run t i => exact hP.step_run hinv h
  | env e => exact hP.step_env hinv h

/-! ## Progress -/

/-- **No deadlock**: if every thread that is not idle could go on but for the lock, then such a
thread can go on, or the holder of the lock can. -/
theorem Inv.progress {s : State τ σ} (hinv : Inv P free held s) (idle : τ → Prop)
    (hholder : ∀ p, P.holds p = true → ¬ idle p)
    (hgoes : ∀ p x, ¬ idle p → ∃ i r, P.step p x i = some r) {t : ℕ} (ht : ¬ idle (s.threads t)) :
    ∃ u i, ¬ idle (s.threads u) ∧ (u = t ∨ s.lock = some u) ∧
    (P.next s (.run u i)).isSome = true := by
  cases hlock : s.lock with
  | none =>
    obtain ⟨i, r, hstep⟩ := hgoes (s.threads t) s.shared ht
    exact ⟨t, i, ht, .inl rfl, Program.next_isSome hstep (.inr hlock)⟩
  | some u =>
    have hin : P.holds (s.threads u) = true := (hinv.holder u).mpr hlock
    obtain ⟨i, r, hstep⟩ := hgoes (s.threads u) s.shared (hholder _ hin)
    exact ⟨u, i, hholder _ hin, .inr rfl, Program.next_isSome hstep (.inl hin)⟩

/-- The steps of `t` in a run. -/
def stepsOf (t : ℕ) : List (Action ι ε) → ℕ
  | [] => 0
  | .run u _ :: l => (if u = t then 1 else 0) + stepsOf t l
  | .env _ :: l => stepsOf t l

/-- **Bounded calls**: a thread whose steps lower a rank until it is idle takes at most as many of
them as its rank says, whatever the other threads do in between. -/
theorem stepsOf_le (rank : τ → ℕ) (idle : τ → Prop)
    (hrank : ∀ {p p' x x' i}, ¬ idle p → P.step p x i = some (p', x') → rank p' < rank p) (t : ℕ)
    (l : List (Action ι ε)) {s s' : State τ σ} (h : Machine.exec P.next s l = some s')
    (hbusy : Machine.Along P.next (fun s a => stepsOf t [a] = 1 → ¬ idle (s.threads t)) s l) :
    stepsOf t l + rank (s'.threads t) ≤ rank (s.threads t) := by
  induction l generalizing s with
  | nil =>
    rw [Machine.exec_nil, Option.some.injEq] at h
    exact h ▸ Nat.le_of_eq (Nat.zero_add _)
  | cons a l ih =>
    obtain ⟨r, hr, hrest⟩ := Machine.exec_cons_some h
    have hih := ih hrest (hbusy.2 r hr)
    cases a with
    | run u i =>
      obtain ⟨p', hstep, hthreads, -⟩ := Program.next_run hr
      rw [stepsOf]
      by_cases hu : u = t
      · have hlow := hrank (hbusy.1 (by simp [stepsOf, hu])) (hu ▸ hstep)
        rw [hthreads, hu, Function.update_self] at hih
        rw [if_pos hu]
        omega
      · rw [hthreads, Function.update_of_ne (Ne.symm hu)] at hih
        rw [if_neg hu]
        omega
    | env e =>
      obtain ⟨-, hthreads, -⟩ := Program.next_env hr
      rw [hthreads] at hih
      exact hih

end Omap4.Monitor
