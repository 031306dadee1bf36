import Omap4.Machine

/-!
# Omap4.Slots — items in raw memory

A buffer is a list of slots; a slot holds an item (`some a`) or nothing a reader may use (`none`).
Items are made, copied and destroyed in blocks, and each of these calls asks something of the slots
it touches: `Fault` says what went wrong when it is not given.  `Meets D r Q` says that `r` returns
with `Q`, or is an end of the process that the code asks for if `D`; what `Meets` anything is no
misuse of the memory.
-/

namespace Omap4.Slots

/-- How code stops without returning: it asks for the end of the process, or it reads, overwrites or
destroys what it must not. -/
inductive Fault
  | fatal
  | misuse
  deriving DecidableEq, Repr

/-- Which of the item type's own operations do nothing (or only copy bytes). -/
structure Traits where
  trivialCtor : Bool
  trivialDtor : Bool
  trivialCopy : Bool
  deriving DecidableEq, Repr

variable {α β γ : Type} (T : Traits)

/-- A slot that counts as an item: one that was made, or any memory if making an item does
nothing. -/
def Traits.live (c : Option α) : Bool := T.trivialCtor || c.isSome

/-- A slot that may be written over: one without an item, or any if destroying an item does
nothing. -/
def Traits.dead (c : Option α) : Bool := T.trivialDtor || c.isNone

/-- The `n` items from `i` on, as they are read to be copied. -/
def fetch (cs : List (Option α)) (i n : Nat) : Except Fault (List (Option α)) :=
  if i + n ≤ cs.length ∧ (T.trivialCopy || ((cs.drop i).take n).all T.live) = true
  then .ok ((cs.drop i).take n) else .error .misuse

/-- The items `xs` made in the slots from `i` on. -/
def place (cs : List (Option α)) (i : Nat) (xs : List (Option α)) :
    Except Fault (List (Option α)) :=
  if i + xs.length ≤ cs.length ∧ ((cs.drop i).take xs.length).all T.dead = true
  then .ok (cs.take i ++ xs ++ cs.drop (i + xs.length)) else .error .misuse

/-- The `n` items from `i` on destroyed; where that does nothing, the bytes stay. -/
def vacate (cs : List (Option α)) (i n : Nat) : Except Fault (List (Option α)) :=
  if T.trivialDtor = true then .ok cs
  else if i + n ≤ cs.length ∧ ((cs.drop i).take n).all T.live = true
  then .ok (cs.take i ++ List.replicate n none ++ cs.drop (i + n)) else .error .misuse

/-- The `n` items from `src` on moved to `dst`; the two ranges may overlap. -/
def move (cs : List (Option α)) (dst src n : Nat) : Except Fault (List (Option α)) := do
  let xs ← fetch T cs src n
  let cs ← vacate T cs src n
  place T cs dst xs

/-! ## Code that ends well -/

/-- The code returns with `Q`; or it asks for the end of the process, which it does only if `D`. -/
def Meets (D : Prop) (r : Except Fault β) (Q : β → Prop) : Prop :=
  (r = .error .fatal ∧ D) ∨ ∃ b, r = .ok b ∧ Q b

variable {T} {D D' : Prop} {r : Except Fault β} {f : β → Except Fault γ} {Q Q' : β → Prop}
  {R : γ → Prop}

theorem Meets.ok {b : β} (h : Q b) : Meets D (.ok b) Q := Or.inr ⟨b, rfl, h⟩

theorem Meets.of_eq_ok {b : β} (hr : r = .ok b) (h : Q b) : Meets D r Q := Or.inr ⟨b, hr, h⟩

theorem Meets.fatal (h : D) : Meets D (.error .fatal) Q := Or.inl ⟨rfl, h⟩

theorem Meets.mono (h : Meets D r Q) (hQ : ∀ b, Q b → Q' b) : Meets D r Q' := by
  obtain hr | ⟨b, hr, hb⟩ := h
  · exact Or.inl hr
  · exact Or.inr ⟨b, hr, hQ b hb⟩

theorem Meets.weaken (h : Meets D r Q) (hD : D → D') : Meets D' r Q := by
  obtain ⟨hr, hd⟩ | hr := h
  · exact Or.inl ⟨hr, hD hd⟩
  · exact Or.inr hr

/-- **Sequencing**: what the first part ensures is what the second part starts from. -/
theorem Meets.bind (h : Meets D r Q) (hf : ∀ b, Q b → Meets D (f b) R) : Meets D (r >>= f) R := by
  obtain ⟨rfl, hd⟩ | ⟨b, rfl, hb⟩ := h
  · exact Or.inl ⟨rfl, hd⟩
  · exact hf b hb

theorem Meets.of_ok {b : β} (h : Meets D r Q) (hr : r = .ok b) : Q b := by
  obtain ⟨rfl, -⟩ | ⟨c, rfl, hc⟩ := h
  · cases hr
  · exact Except.ok.inj hr ▸ hc

theorem exists_ok {c : γ} {g : β → γ} (h : r.toOption.map g = some c) :
    ∃ b, r = .ok b ∧ g b = c := by
  cases r with
  | error f => cases h
  | ok b => exact ⟨b, rfl, Option.some.inj h⟩

/-! ## Runs of calls -/

section Run

variable {σ ο A : Type} (step : σ → ο → Except Fault σ)

def run : List ο → σ → Except Fault σ
  | [], s => .ok s
  | op :: ops, s => do
    let s ← step s op
    run ops s

/-- The run comes to a state in which `P` holds of the next call. -/
def ComesTo (P : σ → ο → Prop) : List ο → σ → Prop
  | [], _ => False
  | op :: ops, s => P s op ∨ ∃ s', step s op = .ok s' ∧ ComesTo P ops s'

/-- The abstract states beside a run; what a call may do to them depends on the state it is made
in. -/
def Follows (spec : σ → ο → A → A → Prop) : List ο → σ → A → A → Prop
  | [], _, a, a' => a' = a
  | op :: ops, s, a, a'' =>
    ∃ s' a', step s op = .ok s' ∧ spec s op a a' ∧ Follows spec ops s' a' a''

variable {step}

/-- **Runs**: if every call keeps `I` and does to the abstract state what `spec` says, so does a
run; and the process ends only in a state in which the next call asks for it. -/
theorem Meets.run {I : σ → A → Prop} {C P : σ → ο → Prop} {spec : σ → ο → A → A → Prop}
    (hstep : ∀ s a op, I s a → C s op → Meets (P s op) (step s op) fun s' => ∃ a', I s' a' ∧
      spec s op a a')
    (ops : List ο) {s : σ} {a : A} (hI : I s a)
    (hC : Machine.Along (fun s op => (step s op).toOption) C s ops) :
    Meets (ComesTo step P ops s) (Slots.run step ops s) fun s' =>
      ∃ a', I s' a' ∧ Follows step spec ops s a a' := by
  induction ops generalizing s a with
  | nil => exact .ok ⟨a, hI, rfl⟩
  | cons op ops ih =>
    obtain ⟨hfatal, hp⟩ | ⟨s', hs', a', hI', hspec⟩ := hstep s a op hI hC.1
    · refine Or.inl ⟨?_, Or.inl hp⟩
      show (step s op >>= _) = _
      rw [hfatal]
      rfl
    · have hnext : (step s op).toOption = some s' := by
        rw [hs']
        rfl
      have hrest := ih hI' (hC.2 s' hnext)
      have hrun : Slots.run step (op :: ops) s = Slots.run step ops s' := by
        show (step s op >>= _) = _
        rw [hs']
        rfl
      rw [hrun]
      refine (hrest.weaken fun h => Or.inr ⟨s', hs', h⟩).mono fun s'' hs'' => ?_
      obtain ⟨a'', hI'', hfollows⟩ := hs''
      exact ⟨a'', hI'', s', a', hs', hspec, hfollows⟩

end Run

/-! ## Blocks of slots

A buffer is written as the slots before the block, the block and the slots behind it. -/

variable {A X B G Z : List (Option α)} {i n : Nat}

theorem drop_take_block (hi : i = A.length) (hn : n = X.length) :
    ((A ++ X ++ B).drop i).take n = X := by
  subst hi hn
  simp

theorem fetch_block (hi : i = A.length) (hn : n = X.length) (hX : X.all T.live = true) :
    fetch T (A ++ X ++ B) i n = .ok X := by
  unfold fetch
  rw [drop_take_block hi hn]
  subst hi hn
  exact if_pos ⟨by simp, by simp [hX]⟩

theorem place_block (hi : i = A.length) (hn : X.length = G.length) (hG : G.all T.dead = true) :
    place T (A ++ G ++ B) i X = .ok (A ++ X ++ B) := by
  unfold place
  rw [drop_take_block hi hn, if_pos ⟨by subst hi; simp [hn], hG⟩, hn]
  subst hi
  simp [List.append_assoc, List.drop_append]

/-- Destroyed items leave slots that may be written over. -/
theorem vacate_block (hi : i = A.length) (hn : n = X.length) (hX : X.all T.live = true) :
    ∃ G, vacate T (A ++ X ++ B) i n = .ok (A ++ G ++ B) ∧ G.length = X.length ∧
    G.all T.dead = true := by
  unfold vacate
  by_cases hT : T.trivialDtor = true
  · refine ⟨X, if_pos hT, rfl, ?_⟩
    simp [Traits.dead, hT]
  · refine ⟨List.replicate n none, ?_, by simp [hn], by simp [Traits.dead]⟩
    rw [if_neg hT, drop_take_block hi hn, if_pos ⟨by subst hi hn; simp, hX⟩]
    subst hi hn
    simp [List.append_assoc, List.drop_append]

theorem exists_cut (l : List β) {i : Nat} (h : i ≤ l.length) : ∃ a b, l = a ++ b ∧ a.length = i :=
  ⟨l.take i, l.drop i, (List.take_append_drop i l).symm, by rw [List.length_take]; omega⟩

theorem exists_blocks (l : List β) {i n : Nat} (h : i + n ≤ l.length) :
    ∃ a b c, l = a ++ b ++ c ∧ a.length = i ∧ b.length = n := by
  obtain ⟨a, d, rfl, ha⟩ := exists_cut l (i := i) (by omega)
  obtain ⟨b, c, rfl, hb⟩ := exists_cut d (i := n) (by rw [List.length_append] at h; omega)
  exact ⟨a, b, c, (List.append_assoc a b c).symm, ha, hb⟩

/-- `k` slots free behind the items: moved up by `k`. -/
theorem move_up {k : Nat} (hX : X.all T.live = true) (hZ : Z.all T.dead = true)
    (hk : k ≤ Z.length) :
    ∃ G W, move T (A ++ X ++ Z) (A.length + k) A.length X.length = .ok (A ++ G ++ X ++ W) ∧
      G.length = k ∧ W.length + k = Z.length ∧ G.all T.dead = true ∧ W.all T.dead = true := by
  obtain ⟨V, hV, hlen, hdead⟩ := vacate_block (B := Z) (T := T) (A := A) rfl rfl hX
  obtain ⟨G, M, W, hsplit, hG, hM⟩ :=
    exists_blocks (V ++ Z) (i := k) (n := X.length) (by simp; omega)
  have hD : (G ++ M ++ W).all T.dead = true := by
    rw [← hsplit, List.all_append, hdead, hZ]
    rfl
  have hsum : (V ++ Z).length = (G ++ M ++ W).length := by rw [hsplit]
  simp only [List.all_append, Bool.and_eq_true, List.length_append] at hD hsum
  refine ⟨G, W, ?_, hG, by omega, hD.1.1, hD.2⟩
  unfold move
  rw [fetch_block rfl rfl hX]
  show (vacate T _ _ _ >>= _) = _
  rw [hV]
  show place T _ _ _ = _
  have hcells : A ++ V ++ Z = (A ++ G) ++ M ++ W := by
    rw [List.append_assoc, hsplit]
    simp
  rw [hcells]
  exact place_block (by simp [hG]) hM.symm hD.1.2

/-- Free slots before the items: moved down over them. -/
theorem move_down (hX : X.all T.live = true) (hG : G.all T.dead = true) (hZ : Z.all T.dead = true) :
    ∃ W, move T (A ++ G ++ X ++ Z) A.length (A.length + G.length) X.length = .ok (A ++ X ++ W) ∧
      W.length = G.length + Z.length ∧ W.all T.dead = true := by
  obtain ⟨V, hV, hlen, hdead⟩ :=
    vacate_block (B := Z) (T := T) (A := A ++ G) (i := A.length + G.length)
    (by simp) rfl hX
  obtain ⟨_, M, W, hsplit, h0, hM⟩ :=
    exists_blocks (G ++ V) (i := 0) (n := X.length) (by simp; omega)
  obtain rfl := List.length_eq_zero_iff.mp h0
  rw [List.nil_append] at hsplit
  have hD : (M ++ W).all T.dead = true := by
    rw [← hsplit, List.all_append, hG, hdead]
    rfl
  have hsum : (G ++ V).length = (M ++ W).length := by rw [hsplit]
  simp only [List.all_append, Bool.and_eq_true, List.length_append] at hD hsum
  refine ⟨W ++ Z, ?_, by simp; omega, by rw [List.all_append, hD.2, hZ]; rfl⟩
  unfold move
  rw [fetch_block (by simp) rfl hX]
  show (vacate T _ _ _ >>= _) = _
  rw [hV]
  show place T _ _ _ = _
  have hcells : A ++ G ++ V ++ Z = A ++ M ++ (W ++ Z) := by
    rw [List.append_assoc A, hsplit]
    simp
  rw [hcells]
  exact place_block rfl hM.symm hD.1

end Omap4.Slots
