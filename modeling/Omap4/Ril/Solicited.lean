import Mathlib.Data.List.Basic
import Mathlib.Logic.Function.Basic
import Mathlib.Tactic.SplitIfs
import Omap4.Ril.Basic

/-!
# Omap4.Ril.Solicited — how the RIL completes a request

A request is completed when its message has been sent once and its serial is out of `mRequestList`.
The branches of `processSolicited` that return do both; the `catch` only sends.  So a request is
completed just if its branch does not throw, and `WellFormed` says when that is.

Of the superclass only `SuperCompletes` is assumed.
-/

namespace Omap4.Ril

open Throw

/-! ## Completion -/

section Completion

variable {D : Type} {fw : Framework D} {s s' : State} {serial : ℤ} {rr : RILRequest}

/-- How often the message was sent. -/
def State.deliveries (s : State) (m : Message) : ℕ := s.sent.countP (·.1 = m)

/-- From `s` to `s'` the request was completed: its message, if it has one, was sent once more, and
its serial is not in the list. -/
structure Completed (serial : ℤ) (rr : RILRequest) (s s' : State) : Prop where
  sentOnce : ∀ m, rr.mResult = some m → s'.deliveries m = s.deliveries m + 1
  removed : s'.mRequestList serial = none

/-- A call that returns and has completed the request. -/
def CompletesOnce {α : Type} (serial : ℤ) (rr : RILRequest) (c : RilM α) (s : State) : Prop :=
  ∃ r s', c s = .ok r s' ∧ Completed serial rr s s'

/-- What the inherited `processSolicited` is assumed to do with a response whose request is
known. -/
def Framework.SuperCompletes (fw : Framework D) : Prop :=
  ∀ p type s rr, s.mRequestList (p.serial fw) = some rr →
    CompletesOnce (p.serial fw) rr (fw.superProcessSolicited p type) s

/-- Nothing was sent and no request was added or removed. -/
structure Quiet (s s' : State) : Prop where
  sent : s'.sent = s.sent
  mRequestList : s'.mRequestList = s.mRequestList

/-- A branch ends in one of two ways: it returns and has completed the request, or it throws and has
neither sent nor removed anything. -/
def Paired {α : Type} (serial : ℤ) (rr : RILRequest) (c : RilM α) (s : State) : Prop :=
  Ends (Completed serial rr) Quiet c s

/-- Code that neither sends nor removes anything, whether it returns or throws. -/
def Silent {α : Type} (c : RilM α) (s : State) : Prop := Ends Quiet Quiet c s

theorem Quiet.refl (s : State) : Quiet s s := ⟨rfl, rfl⟩

theorem Quiet.completed {s₁ : State} (hq : Quiet s s₁) (hc : Completed serial rr s₁ s') :
    Completed serial rr s s' := by
  refine ⟨fun m hm => ?_, hc.removed⟩
  rw [hc.sentOnce m hm]
  simp only [State.deliveries, hq.sent]

theorem Quiet.trans {s₁ : State} (hq : Quiet s s₁) (hc : Quiet s₁ s') : Quiet s s' :=
  ⟨hc.sent.trans hq.sent, hc.mRequestList.trans hq.mRequestList⟩

theorem sendResult_eq (rr : RILRequest) (r : AsyncResult) (s : State) :
    ∃ s', sendResult rr r s = .ok () s' ∧ s'.mRequestList = s.mRequestList ∧
      ∀ m, rr.mResult = some m → s'.deliveries m = s.deliveries m + 1 := by
  refine ⟨_, rfl, ?_, ?_⟩
  · cases rr.mResult <;> rfl
  · intro m hm
    simp [hm, State.deliveries]

/-! ## Rules for the branches -/

variable {α β : Type} {c : RilM α} {f : α → RilM β}

theorem sendRemove_completes {r : AsyncResult} :
    CompletesOnce serial rr (do sendResult rr r; removeRequest serial; return some rr) s := by
  obtain ⟨s₁, h₁, -, hsent⟩ := sendResult_eq rr r s
  refine ⟨some rr, { s₁ with mRequestList := Function.update s₁.mRequestList serial none },
    ?_, hsent, ?_⟩
  · rw [bind_ok h₁]
    rfl
  · exact Function.update_self ..

theorem answer_completes {response : Strings} :
    CompletesOnce serial rr (answer serial rr response) s :=
  sendRemove_completes

theorem paired_of_completesOnce (h : CompletesOnce serial rr c s) : Paired serial rr c s := by
  obtain ⟨r, s', hc, hd⟩ := h
  exact Ends.of_ok hc hd

theorem returns_of_completesOnce (h : CompletesOnce serial rr c s) : Returns c s := by
  obtain ⟨r, s', hc, -⟩ := h
  exact ⟨r, s', hc⟩

/-- Code that is silent may stand before a branch. -/
theorem paired_bind (hc : Silent c s) (hf : ∀ a s₁, c s = .ok a s₁ → Paired serial rr (f a) s₁) :
    Paired serial rr (c >>= f) s :=
  Ends.bind Quiet.completed Quiet.trans hc hf

theorem nonNull_ok_iff {o : Option α} {a : α} {s₁ : State} :
    nonNull o s = .ok a s₁ ↔ o = some a ∧ s₁ = s := by
  cases o with
  | none => exact ⟨nofun, nofun⟩
  | some b =>
    constructor
    · rintro ⟨⟩
      exact ⟨rfl, rfl⟩
    · rintro ⟨⟨⟩, rfl⟩
      rfl

theorem deref_ok_iff {e : Except Throwable (Option α)} {a : α} {s₁ : State} :
    deref e s = .ok a s₁ ↔ e = .ok (some a) ∧ s₁ = s := by
  unfold deref
  cases e with
  | error tr => exact ⟨nofun, nofun⟩
  | ok o => rw [bind_ok (orThrow_ok_iff.mpr ⟨rfl, rfl⟩), nonNull_ok_iff, Except.ok.injEq]

theorem silent_deref (e : Except Throwable (Option α)) (s : State) : Silent (deref e) s := by
  refine Ends.bind Quiet.trans Quiet.trans (ends_orThrow (Quiet.refl s) (Quiet.refl s) e)
    fun o s₁ _ => ?_
  cases o <;> exact Quiet.refl s₁

/-- A branch that reads an object first. -/
theorem returns_deref_iff {e : Except Throwable (Option α)} :
    Returns (deref e >>= f) s ↔ ∃ a, e = .ok (some a) ∧ Returns (f a) s := by
  rw [returns_bind_iff]
  constructor
  · rintro ⟨a, s₁, h, hf⟩
    obtain ⟨ha, rfl⟩ := deref_ok_iff.mp h
    exact ⟨a, ha, hf⟩
  · rintro ⟨a, ha, hf⟩
    exact ⟨a, s, deref_ok_iff.mpr ⟨ha, rfl⟩, hf⟩

/-- **A branch inside of the `try` completes the request just if it returns**: the `catch` sends the
message, but leaves the request in the list. -/
theorem completesOnce_try_iff {c : RilM (Option RILRequest)}
    (hreg : s.mRequestList serial = some rr) (hc : Paired serial rr c s) :
    CompletesOnce serial rr (tryCatch c fun tr => do sendResult rr ⟨none, some tr⟩; return some rr)
    s ↔
      Returns c s := by
  unfold Paired Ends at hc
  cases h : c s with
  | ok r s₁ =>
    rw [h] at hc
    exact iff_of_true ⟨r, s₁, tryCatch_ok h, hc⟩ ⟨r, s₁, h⟩
  | error tr s₁ =>
    rw [h] at hc
    obtain ⟨s₂, hsend, hlist, -⟩ := sendResult_eq rr ⟨none, some tr⟩ s₁
    refine iff_of_false ?_ fun ⟨r, s', h'⟩ => by rw [h] at h'; cases h'
    rintro ⟨r, s', h', hd⟩
    -- the handler ends in `s₂`, where the request still is
    rw [tryCatch_error h, bind_ok hsend] at h'
    cases h'
    have hrem := hd.removed
    rw [hlist, hc.mRequestList, hreg] at hrem
    cases hrem

/-! ## What the branches need -/

variable {p : Parcel D} {type : ℤ}

/-- A text that `Integer.parseInt` accepts. -/
def Numeric (text : String) : Prop := ∃ n, parseInt text = .ok n

/-- The registration states that are parsed are numbers. -/
def NumericStates (fw : Framework D) (s : State) (a : Strings) : Prop :=
  ∀ state, a[0]?.join = some state →
    (s.dataAllowed = false → Numeric state) ∧
    (s.dataAllowed = true → fw.getLteOnCdmaMode s.systemProperties = lteOnCdmaTrue →
      ∃ n, parseInt state = .ok n ∧ (n ≠ 1 ∧ n ≠ 5 → Numeric s.voiceRegState))

/-- The property can be set, where the technology asks for it. -/
def Settable (fw : Framework D) (s : State) (tech : ℤ) : Prop :=
  switches fw s tech = true → ∃ properties, setLteOnCdma fw s tech = .ok properties

/-- The payload is what the branch of its request expects. -/
def WellFormed (fw : Framework D) (payload : Parcel D) (rr : RILRequest) (s : State) : Prop :=
  match rr.mRequest with
  | .operator => ∃ a, payload.responseStrings fw = .ok (some a)
  | .voiceRegistrationState => ∃ a, payload.responseStrings fw = .ok (some a)
  | .dataRegistrationState => ∃ a, payload.responseStrings fw = .ok (some a) ∧ NumericStates fw s a
  | .voiceRadioTech => ∃ a, payload.responseInts fw = .ok (some a) ∧
      ∀ tech, a[0]? = some tech → Settable fw s tech
  | .other _ => True

/-! ### The operator and the voice registration -/

theorem operatorResponse_paired : Paired (p.serial fw) rr (operatorResponse fw p rr) s :=
  paired_bind (silent_deref _ s) fun _ _ _ => paired_of_completesOnce answer_completes

theorem operatorResponse_returns_iff :
    Returns (operatorResponse fw p rr) s ↔ ∃ a, (p.payload fw).responseStrings fw = .ok
    (some a) := by
  unfold operatorResponse
  rw [returns_deref_iff]
  exact exists_congr fun a => and_iff_left (returns_of_completesOnce answer_completes)

theorem quiet_noteVoiceReg (a : Strings) (s : State) : Quiet s (noteVoiceReg a s) := ⟨rfl, rfl⟩

theorem voiceAnswer_completes {a : Strings} :
    CompletesOnce serial rr (do modify (noteVoiceReg a); answer serial rr a) s := by
  obtain ⟨r, s', h, hd⟩ := @answer_completes (noteVoiceReg a s) serial rr a
  exact ⟨r, s', h, (quiet_noteVoiceReg a s).completed hd⟩

theorem voiceRegistrationResponse_paired :
    Paired (p.serial fw) rr (voiceRegistrationResponse fw p rr) s :=
  paired_bind (silent_deref _ s) fun _ _ _ => paired_of_completesOnce voiceAnswer_completes

theorem voiceRegistrationResponse_returns_iff :
    Returns (voiceRegistrationResponse fw p rr) s ↔
      ∃ a, (p.payload fw).responseStrings fw = .ok (some a) := by
  unfold voiceRegistrationResponse
  rw [returns_deref_iff]
  exact exists_congr fun a => and_iff_left (returns_of_completesOnce voiceAnswer_completes)

/-! ### The data registration -/

theorem exists_ok_ite {c : Prop} [Decidable c] {x y : α} :
    ∃ b, (if c then pure x else pure y : Except Throwable α) = .ok b := by
  split_ifs
  · exact ⟨x, rfl⟩
  · exact ⟨y, rfl⟩

theorem fixDataRegStates_ok_iff {a : Strings} :
    (∃ b, fixDataRegStates fw s a = .ok b) ↔ NumericStates fw s a := by
  unfold fixDataRegStates NumericStates Numeric
  cases a[0]?.join with
  | none => exact iff_of_true ⟨a, rfl⟩ nofun
  | some state =>
    simp only [Option.some.injEq, forall_eq']
    cases s.dataAllowed with
    | false =>
      simp only [Bool.not_false, if_true, exists_ok_bind_iff, exists_ok_ite, and_true,
        forall_true_left, Bool.false_eq_true, false_imp_iff]
    | true =>
      simp only [Bool.not_true, Bool.false_eq_true, if_false, reduceCtorEq, false_imp_iff, true_and,
        forall_true_left]
      by_cases hlte : fw.getLteOnCdmaMode s.systemProperties = lteOnCdmaTrue
      · simp only [hlte, if_true, forall_true_left, exists_ok_bind_iff]
        refine exists_congr fun n => and_congr_right fun _ => ?_
        by_cases hn : n ≠ 1 ∧ n ≠ 5
        · rw [if_pos hn, exists_ok_bind_iff]
          exact ⟨fun ⟨v, hv, _⟩ _ => ⟨v, hv⟩, fun h => (h hn).imp fun v hv => ⟨hv, exists_ok_ite⟩⟩
        · rw [if_neg hn]
          exact iff_of_true ⟨a, rfl⟩ fun h => absurd h hn
      · rw [if_neg hlte]
        exact iff_of_true ⟨a, rfl⟩ fun h => absurd h hlte

theorem dataAnswer_paired {a : Strings} : Paired serial rr (dataAnswer fw serial rr a) s :=
  paired_bind (Quiet.refl s) fun _ _ _ =>
    paired_bind (ends_orThrow (Quiet.refl _) (Quiet.refl _) _) fun _ _ _ =>
      paired_of_completesOnce answer_completes

theorem dataAnswer_returns_iff {a : Strings} :
    Returns (dataAnswer fw serial rr a) s ↔ NumericStates fw s a := by
  unfold dataAnswer
  rw [← fixDataRegStates_ok_iff, returns_bind_iff]
  constructor
  · rintro ⟨s₀, s₁, hget, hret⟩
    cases hget
    obtain ⟨b, s₂, hb, -⟩ := returns_bind_iff.mp hret
    exact ⟨b, (orThrow_ok_iff.mp hb).1⟩
  · rintro ⟨b, hb⟩
    refine ⟨s, s, rfl, returns_bind_iff.mpr ⟨b, s, orThrow_ok_iff.mpr ⟨hb, rfl⟩, ?_⟩⟩
    exact returns_of_completesOnce answer_completes

theorem dataRegistrationResponse_paired :
    Paired (p.serial fw) rr (dataRegistrationResponse fw p rr) s :=
  paired_bind (silent_deref _ s) fun _ _ _ => dataAnswer_paired

theorem dataRegistrationResponse_returns_iff :
    Returns (dataRegistrationResponse fw p rr) s ↔
      ∃ a, (p.payload fw).responseStrings fw = .ok (some a) ∧ NumericStates fw s a := by
  unfold dataRegistrationResponse
  rw [returns_deref_iff]
  exact exists_congr fun a => and_congr_right fun _ => dataAnswer_returns_iff

/-! ### The radio technology -/

theorem switchCdmaGsm_eq (tech : ℤ) (s : State) :
    switchCdmaGsm fw tech s =
      if switches fw s tech then
        match setLteOnCdma fw s tech with
        | .ok properties => .ok () { s with systemProperties := properties }
        | .error tr => .error tr s
      else .ok () s := by
  unfold switchCdmaGsm
  rw [bind_get]
  split_ifs
  · cases setLteOnCdma fw s tech <;> rfl
  · rfl

theorem silent_switchToFirst (a : List ℤ) (s : State) : Silent (switchToFirst fw a) s := by
  unfold switchToFirst
  cases a[0]? with
  | none => exact Quiet.refl s
  | some tech =>
    unfold Silent Ends
    simp only [switchCdmaGsm_eq]
    split_ifs
    · cases setLteOnCdma fw s tech <;> exact ⟨rfl, rfl⟩
    · exact Quiet.refl s

theorem switchToFirst_returns_iff {a : List ℤ} :
    Returns (switchToFirst fw a) s ↔ ∀ tech, a[0]? = some tech → Settable fw s tech := by
  unfold switchToFirst Settable Returns
  cases a[0]? with
  | none => exact iff_of_true ⟨(), s, rfl⟩ nofun
  | some tech =>
    simp only [Option.some.injEq, forall_eq', switchCdmaGsm_eq]
    split_ifs with hsw
    · cases setLteOnCdma fw s tech with
      | error tr => exact ⟨nofun, fun h => by obtain ⟨_, h⟩ := h hsw; cases h⟩
      | ok properties => exact iff_of_true ⟨_, _, rfl⟩ fun _ => ⟨properties, rfl⟩
    · exact iff_of_true ⟨_, _, rfl⟩ fun h => absurd h hsw

/-- The superclass completes a request behind code that is silent. -/
theorem super_completes (hsuper : fw.SuperCompletes) (hreg : s.mRequestList (p.serial fw) = some rr)
    {a : α} {s₁ : State} (hc : Silent c s) (h : c s = .ok a s₁) :
    CompletesOnce (p.serial fw) rr (fw.superProcessSolicited p type) s₁ := by
  unfold Silent Ends at hc
  rw [h] at hc
  exact hsuper p type s₁ rr (by rw [hc.mRequestList, hreg])

theorem voiceRadioTechResponse_paired (hsuper : fw.SuperCompletes)
    (hreg : s.mRequestList (p.serial fw) = some rr) :
    Paired (p.serial fw) rr (voiceRadioTechResponse fw p type) s := by
  refine paired_bind (silent_deref _ s) fun a s₁ h => ?_
  obtain ⟨-, rfl⟩ := deref_ok_iff.mp h
  refine paired_bind (silent_switchToFirst a s₁) fun _ s₂ h => ?_
  exact paired_of_completesOnce (super_completes hsuper hreg (silent_switchToFirst a s₁) h)

theorem voiceRadioTechResponse_returns_iff (hsuper : fw.SuperCompletes)
    (hreg : s.mRequestList (p.serial fw) = some rr) :
    Returns (voiceRadioTechResponse fw p type) s ↔
      ∃ a, (p.payload fw).responseInts fw = .ok (some a) ∧
        ∀ tech, a[0]? = some tech → Settable fw s tech := by
  unfold voiceRadioTechResponse
  rw [returns_deref_iff]
  refine exists_congr fun a => and_congr_right fun _ => ?_
  rw [← switchToFirst_returns_iff, returns_bind_iff]
  refine exists_congr fun u => exists_congr fun s₁ => and_iff_left_of_imp fun h => ?_
  exact returns_of_completesOnce (super_completes hsuper hreg (silent_switchToFirst a s) h)

/-! ## All responses -/

theorem dispatch_paired (hsuper : fw.SuperCompletes)
    (hreg : s.mRequestList (p.serial fw) = some rr) :
    Paired (p.serial fw) rr (dispatch fw p type rr) s := by
  unfold dispatch
  cases rr.mRequest with
  | operator => exact operatorResponse_paired
  | voiceRegistrationState => exact voiceRegistrationResponse_paired
  | dataRegistrationState => exact dataRegistrationResponse_paired
  | voiceRadioTech => exact voiceRadioTechResponse_paired hsuper hreg
  | other request => exact paired_of_completesOnce (hsuper p type s rr hreg)

theorem dispatch_returns_iff (hsuper : fw.SuperCompletes)
    (hreg : s.mRequestList (p.serial fw) = some rr) :
    Returns (dispatch fw p type rr) s ↔ WellFormed fw (p.payload fw) rr s := by
  unfold dispatch WellFormed
  cases rr.mRequest with
  | operator => exact operatorResponse_returns_iff
  | voiceRegistrationState => exact voiceRegistrationResponse_returns_iff
  | dataRegistrationState => exact dataRegistrationResponse_returns_iff
  | voiceRadioTech => exact voiceRadioTechResponse_returns_iff hsuper hreg
  | other request => exact iff_of_true (returns_of_completesOnce (hsuper p type s rr hreg)) trivial

/-- **When a request is completed exactly once**: for every response whose serial is in the list,
the message of the request is sent once and the serial removed if and only if the response goes to
the superclass at once (an error, or no payload) or its payload is what the branch expects. -/
theorem processSolicited_completes_iff (hsuper : fw.SuperCompletes)
    (hreg : s.mRequestList (p.serial fw) = some rr) :
    CompletesOnce (p.serial fw) rr (processSolicited fw p type) s ↔
      p.error fw ≠ 0 ∨ (p.payload fw).dataAvail fw ≤ 0 ∨ WellFormed fw (p.payload fw) rr s := by
  have heq : processSolicited fw p type s =
      (if p.error fw ≠ 0 ∨ (p.payload fw).dataAvail fw ≤ 0 then fw.superProcessSolicited p type
        else tryCatch (dispatch fw p type rr) fun tr => do
          sendResult rr ⟨none, some tr⟩
          return some rr) s := by
    unfold processSolicited
    rw [bind_get, hreg]
    rfl
  unfold CompletesOnce
  rw [heq, ← or_assoc]
  split_ifs with hdirect
  · exact iff_of_true (hsuper p type s rr hreg) (.inl hdirect)
  · rw [or_iff_right hdirect, ← dispatch_returns_iff hsuper hreg]
    exact completesOnce_try_iff hreg (dispatch_paired hsuper hreg)

end Completion

/-! ## Parcels of items -/

/-- An entry of a parcel. -/
inductive Item
  | int (n : ℤ)
  | string (text : Option String)
deriving DecidableEq, Repr

/-- `readInt`, which gives 0 behind the end. -/
def Item.readInt (data : List Item) (position : ℕ) : ℤ × ℕ :=
  match data[position]? with
  | some (.int n) => (n, position + 1)
  | _ => (0, position)

def Item.readString (data : List Item) (position : ℕ) : Option String :=
  match data[position]? with
  | some (.string text) => text
  | _ => none

/-- What the superclass does with a response: it takes the request out of the list and sends the
result. -/
def Item.processSolicited (p : Parcel (List Item)) (_type : ℤ) : RilM (Option RILRequest) := do
  match (← get).mRequestList (readInt p.data p.dataPosition).1 with
  | none => pure none
  | some rr =>
    sendResult rr ⟨some (.other []), none⟩
    removeRequest (readInt p.data p.dataPosition).1
    return some rr

/-- The framework for parcels that are lists of items. -/
def itemFramework : Framework (List Item) where
  readInt := Item.readInt
  dataAvail data position := data.length - position
  responseStrings data position :=
    if (Item.readInt data position).1 < 0 then .ok none
    else .ok (some ((List.range (Item.readInt data position).1.toNat).map fun i =>
      Item.readString data (position + 1 + i)))
  responseInts data position :=
    if (Item.readInt data position).1 < 0 then
      .error (.negativeArraySizeException (Item.readInt data position).1)
    else .ok (some ((List.range (Item.readInt data position).1.toNat).map fun i =>
      (Item.readInt data (position + 1 + i)).1))
  getLteOnCdmaMode properties := if properties lteOnCdmaProperty = some "1" then 1 else 0
  isGsm tech := tech ∈ [1, 2, 3, 9, 10, 11, 14, 15, 16, 17, 18, 19]
  systemPropertiesSet name value properties := .ok (Function.update properties name (some value))
  superProcessSolicited := Item.processSolicited

theorem itemFramework_superCompletes : itemFramework.SuperCompletes := by
  intro p type s rr hreg
  have heq : itemFramework.superProcessSolicited p type s =
      (do sendResult rr ⟨some (.other []), none⟩; removeRequest (p.serial itemFramework); return some rr :
        RilM (Option RILRequest)) s := by
    change Item.processSolicited p type s = _
    unfold Item.processSolicited
    rw [bind_get]
    change s.mRequestList (Item.readInt p.data p.dataPosition).1 = some rr at hreg
    rw [hreg]
    rfl
  unfold CompletesOnce
  rw [heq]
  exact sendRemove_completes

/-- One request is pending. -/
def pending (request : Request) : State :=
  { mRequestList := Function.update (fun _ => none) 1 (some ⟨1, request, some 7⟩) }

/-- A data registration with the state `"1"` completes its request. -/
theorem processSolicited_completes_numeric :
    CompletesOnce 1 ⟨1, .dataRegistrationState, some 7⟩
      (processSolicited itemFramework ⟨[.int 1, .int 0, .int 1, .string (some "1")], 0⟩ 0)
      (pending .dataRegistrationState) := by
  refine (processSolicited_completes_iff itemFramework_superCompletes rfl).mpr (.inr (.inr ?_))
  refine ⟨[some "1"], rfl, fun state hstate => ⟨fun _ => ?_, nofun⟩⟩
  cases hstate
  exact ⟨1, by decide +kernel⟩

/-- A null array of operators: the message is sent with the exception, and the request stays in the
list. -/
theorem processSolicited_null_operators :
    ¬ ∀ (D : Type) (fw : Framework D), fw.SuperCompletes →
    ∀ (p : Parcel D) (type : ℤ) (s : State) rr,
      s.mRequestList (p.serial fw) = some rr →
        CompletesOnce (p.serial fw) rr (processSolicited fw p type) s := by
  intro h
  obtain ⟨r, s', heq, hd⟩ := h (List Item) itemFramework itemFramework_superCompletes
    ⟨[.int 1, .int 0, .int (-1)], 0⟩ 0 (pending .operator) ⟨1, .operator, some 7⟩ rfl
  cases heq
  exact absurd hd.removed (by decide +kernel)

end Omap4.Ril
