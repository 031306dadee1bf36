import Omap4.Usbd.Lock

/-!
# Omap4.Usbd.Enumeration — the cable, the enumeration state and the counter of descriptor requests

Four variables say what the daemon knows of the host: the cable, whether it is online, the state of
the enumeration and `usb_get_des_count`.  They are written where a uevent changes the cable
(`setCable`) and where the fourth field of a device event is handled (`handleEnumField`), and by
nothing else: every other function leaves `cableView` alone.

A run is taken apart into the calls of its handlers (`trace`), so that a property can speak of what
lies between two events and not only of the top of the loop.  On it rest the two results: the four
variables agree after every handler (`cable_state_agree`), and a descriptor request after a new
cable is reported if and only if none was counted before (`getDesc_reported_iff`).
-/

namespace Omap4.Usbd

/-! ## Traces -/

/-- A call of a handler, with what it read. -/
inductive Event
  | uevent (u : UeventInput)
  | device (d : DeviceInput)
  | accept (a : AcceptInput)
  | app (fd : ℕ) (a : AppInput)
  deriving DecidableEq, Repr

def handle (e : Env) (s : State) : Event → State
  | .uevent u => handleUevent e u s
  | .device d => handleDevice e d s
  | .accept a => handleAccept e a s
  | .app fd a => handleApp e fd a s

/-- The handlers that run before the application's message is looked at. -/
def earlyEvents (e : Env) (s : State) (i : Iter) : List Event :=
  (if isSet s i e.ueventSock then [.uevent i.uevent] else []) ++
    (if isSet s i e.usbDeviceFd then (i.device.map Event.device).toList else []) ++
    (if e.usbdServerFd.any (isSet s i) then (i.accept.map Event.accept).toList else [])

def appEvents (e : Env) (s : State) (i : Iter) : List Event :=
  match (beforeApp e s i).usbdAppFd with
  | some fd => if ¬ e.usbAltMode ∧ isSet s i fd then [.app fd i.app] else []
  | none => []

/-- The handlers that the iterations `l` run from `s`, in their order. -/
def trace (e : Env) : State → List Iter → List Event
  | _, [] => []
  | s, i :: l => earlyEvents e s i ++ appEvents e s i ++ trace e (iterate e s i) l

variable {e : Env} {s : State}

theorem foldl_earlyEvents (e : Env) (s : State) (i : Iter) :
    (earlyEvents e s i).foldl (handle e) s = beforeApp e s i := by
  have hu : (if isSet s i e.ueventSock then [Event.uevent i.uevent] else []).foldl (handle e) s =
      ueventPart e s i s := by
    unfold ueventPart
    split_ifs <;> rfl
  have hd : ∀ t, (if isSet s i e.usbDeviceFd then (i.device.map Event.device).toList else []).foldl
      (handle e) t = devicePart e s i t := by
    intro t
    unfold devicePart
    cases i.device <;> split_ifs <;> rfl
  have ha : ∀ t, (if e.usbdServerFd.any (isSet s i) then (i.accept.map Event.accept).toList
      else []).foldl (handle e) t = acceptPart e s i t := by
    intro t
    unfold acceptPart
    cases e.usbdServerFd <;> cases i.accept <;> simp only [Option.any_none, Option.any_some] <;>
      split_ifs <;> first | rfl | contradiction
  rw [earlyEvents, List.foldl_append, List.foldl_append, hu, hd, ha, beforeApp]

/-- **An iteration is the handlers it runs.** -/
theorem foldl_events (e : Env) (s : State) (i : Iter) :
    (earlyEvents e s i ++ appEvents e s i).foldl (handle e) s = iterate e s i := by
  have happ : iterate e s i = appPart e s i (beforeApp e s i) := rfl
  rw [List.foldl_append, foldl_earlyEvents, happ]
  unfold appEvents appPart
  cases (beforeApp e s i).usbdAppFd with
  | none => rfl
  | some fd =>
    dsimp only
    split_ifs <;> rfl

/-- A run of the loop ends where its trace does. -/
theorem exec_trace {l : List Iter} {s s' : State} (h : Machine.exec (step e) s l = some s') :
    (trace e s l).foldl (handle e) s = s' := by
  induction l generalizing s with
  | nil => exact Option.some.inj h
  | cons i l ih =>
    obtain ⟨t, hstep, hrest⟩ := Machine.exec_cons_some h
    rw [step_eq_some hstep] at hrest
    rw [trace, List.foldl_append, foldl_events]
    exact ih hrest

/-! ## Who writes the four variables -/

/-- The cable, whether it is online, the state and `usb_get_des_count`. -/
def State.cableView (s : State) : Cable × Bool × UsbdState × ℕ :=
  (s.currCableStatus, s.currentUsbOnline, s.currentState, s.usbGetDesCount)

@[simp] theorem usbdSetUsbMode_cableView (b : Build) (m : ℕ) (s : State) :
    (usbdSetUsbMode b m s).cableView = s.cableView := by
  unfold usbdSetUsbMode
  split_ifs <;> rfl

@[simp] theorem write_cableView (fd : ℕ) (text : CStr) (s : State) :
    (s.write fd text).cableView = s.cableView := rfl

@[simp] theorem clearApp_cableView (fd : ℕ) (s : State) : (clearApp e fd s).cableView =
    s.cableView := rfl

@[simp] theorem notify_cableView (fd : ℕ) (s : State) :
    (usbdNotifyCurrentStatus fd s).cableView = s.cableView := by
  unfold usbdNotifyCurrentStatus
  split <;> rfl

@[simp] theorem notifyApp_cableView (ok : Bool) (s : State) :
    (notifyApp e ok s).cableView = s.cableView := by
  unfold notifyApp
  split
  · rfl
  · split_ifs <;> simp

@[simp] theorem enumerateDefaultMode_cableView (adb : CStr) (s : State) :
    (usbdEnumerateDefaultMode e adb s).cableView = s.cableView := by
  unfold usbdEnumerateDefaultMode
  split
  · rfl
  · simp

@[simp] theorem altModeSet_cableView (adbBuf tetherBuf adb : CStr) (s : State) :
    (usbdAltModeSet e adbBuf tetherBuf adb s).cableView = s.cableView := by
  unfold usbdAltModeSet setAltMode
  split_ifs
  · rfl
  · split
    · rfl
    · split_ifs
      · rw [usbdSetUsbMode_cableView]
        rfl
      · rfl

@[simp] theorem handleCableStatusChange_cableView (u : UeventInput) (s : State) :
    (usbdHandleCableStatusChange e u s).cableView = s.cableView := by
  unfold usbdHandleCableStatusChange
  split_ifs
  · simp
  · rw [enumerateDefaultMode_cableView]
    rfl
  · rfl
  · simp

@[simp] theorem sendDiskEvent_cableView (u : Uevent) (s : State) :
    (sendDiskEvent u s).cableView = s.cableView := by
  unfold sendDiskEvent
  split <;> rfl

@[simp] theorem writeApp_cableView (text : CStr) (ok : Bool) (s : State) :
    (writeApp e text ok s).cableView = s.cableView := by
  unfold writeApp
  split
  · rfl
  · split_ifs <;> rfl

@[simp] theorem reqModeSwitch_cableView (d : DeviceInput) (s : State) :
    (usbReqModeSwitch e d s).cableView = s.cableView := by
  unfold usbReqModeSwitch
  split
  · rfl
  · split_ifs <;> simp
  · split_ifs <;> simp

@[simp] theorem handleSwitchField_cableView (d : DeviceInput) (s : State) :
    (handleSwitchField e d s).cableView = s.cableView := by
  unfold handleSwitchField
  split_ifs <;> simp

@[simp] theorem handleStatusFields_cableView (d : DeviceInput) (s : State) :
    (handleStatusFields e d s).cableView = s.cableView := by
  have hsend : ∀ (send : ℕ → Bool → State → State) (fd : ℕ) (on : Option Bool) (s : State),
      (∀ on s, (send fd on s).cableView = s.cableView) →
      (sendField send fd on s).cableView = s.cableView := by
    intro send fd on s hs
    cases on with
    | none => rfl
    | some v => exact hs v s
  unfold handleStatusFields
  split_ifs
  · simp
  · split
    · rfl
    · rw [hsend _ _ _ _ fun _ _ => rfl, hsend _ _ _ _ fun _ _ => rfl]

@[simp] theorem enumProcess_cableView (ok : Bool) (s : State) :
    (usbdEnumProcess e ok s).cableView = s.cableView := by
  unfold usbdEnumProcess
  split
  · split_ifs <;> rfl
  · rfl

@[simp] theorem handleFactoryEvent_cableView (d : DeviceInput) (s : State) :
    (handleFactoryEvent e d s).cableView = s.cableView := by
  unfold handleFactoryEvent
  split_ifs <;> simp

@[simp] theorem handleAccept_cableView (a : AcceptInput) (s : State) :
    (handleAccept e a s).cableView = s.cableView := by
  have hsave : (State.updateMaxfd e
      (usbdSaveSocketFd a.newfd { s with accepted := s.accepted ++ [a.newfd] })).cableView =
        s.cableView := by
    unfold usbdSaveSocketFd
    split <;> rfl
  unfold handleAccept greetApp usbdSendAdbStatus
  split_ifs <;> simp [hsave]

@[simp] theorem reply_cableView (fd : ℕ) (text : Option CStr) (ok : Bool) (s : State) :
    (reply fd text ok s).2.cableView = s.cableView := by
  unfold reply
  split <;> rfl

theorem answerRequest_cableView (fd i : ℕ) (a : AppInput) (s : State) :
    (answerRequest e fd a i s).2.cableView = s.cableView := by
  have hr := reply_cableView fd (usbModeEntry e.build i).respOk a.respOk s
  unfold answerRequest
  split
  · next heq =>
    rw [heq] at hr
    exact hr
  · next heq =>
    rw [heq] at hr
    split_ifs
    · rw [usbdSetUsbMode_cableView]
      exact hr
    · exact hr
    · rw [reply_cableView]
      exact hr

theorem socketEvent_cableView (fd : ℕ) (a : AppInput) (s : State) :
    (usbdSocketEvent e fd a s).2.cableView = s.cableView := by
  unfold usbdSocketEvent actOn
  split
  · rfl
  · rfl
  · split_ifs
    · rfl
    · split
      · rfl
      · split_ifs
        · rw [usbdSetUsbMode_cableView]
          rfl
        · rw [answerRequest_cableView]
          rfl

@[simp] theorem handleApp_cableView (fd : ℕ) (a : AppInput) (s : State) :
    (handleApp e fd a s).cableView = s.cableView := by
  have hevent := socketEvent_cableView (e := e) fd a s
  rcases handleApp_cases e fd a s with heq | heq
  · rw [heq]
    exact hevent
  · rw [heq]
    exact hevent

/-! ## The four variables agree -/

def CableOk (s : State) : Prop :=
  (s.currentUsbOnline = true ↔ s.currCableStatus ≠ .unknown) ∧
    (s.currentState = .enumInProgress ∨ s.currentState = .enumerated →
      s.currCableStatus = .usb ∧ s.currentUsbOnline = true) ∧
    (s.currentState = .cableAttached → s.currentUsbOnline = true) ∧
    (s.currentState = .cableDetached ∨ s.currentState = .cableDefault →
      s.currentUsbOnline = false) ∧
    (s.currentState = .cableDetached → s.usbGetDesCount = 0)

theorem CableOk.congr {s t : State} (h : CableOk s) (hv : t.cableView = s.cableView) :
    CableOk t := by
  simp only [State.cableView, Prod.mk.injEq] at hv
  obtain ⟨hc, ho, hs, hn⟩ := hv
  unfold CableOk
  rw [hc, ho, hs, hn]
  exact h

theorem setCable_cableOk (c : Cable) (s : State) : CableOk (setCable c s) := by
  unfold setCable CableOk
  split_ifs with hc <;> simp_all

theorem handleUevent_cableOk (u : UeventInput) (h : CableOk s) : CableOk (handleUevent e u s) := by
  unfold handleUevent
  split
  · next c _ => exact (setCable_cableOk c s).congr (handleCableStatusChange_cableView _ _)
  · exact h.congr (sendDiskEvent_cableView _ _)

/-- The fourth field is only looked at with a USB cable that is online, which no state without a
cable allows. -/
theorem handleEnumField_cableOk (d : DeviceInput) (h : CableOk s) (hc : s.currCableStatus = .usb)
    (ho : s.currentUsbOnline = true) : CableOk (handleEnumField e d s) := by
  have hset : ∀ st n, st = .enumInProgress ∨ st = .enumerated →
      CableOk { s with currentState := st, usbGetDesCount := n } := by
    rintro st n (rfl | rfl) <;> simp [CableOk, hc, ho]
  have hcount : ∀ n, CableOk { s with usbGetDesCount := n } := by
    intro n
    refine ⟨h.1, h.2.1, h.2.2.1, h.2.2.2.1, fun hs => ?_⟩
    have hoff := h.2.2.2.1 (.inl hs)
    rw [ho] at hoff
    cases hoff
  unfold handleEnumField handleGetDesc
  split_ifs
  · exact (hset _ _ (.inl rfl)).congr (writeApp_cableView _ _ _)
  · exact hcount _
  · exact (hset .enumerated s.usbGetDesCount (.inr rfl)).congr (enumProcess_cableView _ _)
  · exact h

theorem handleDevice_cableOk (d : DeviceInput) (h : CableOk s) : CableOk (handleDevice e d s) := by
  have hstatus := h.congr (handleStatusFields_cableView (e := e) d s)
  unfold handleDevice handleUsbEvent
  split_ifs with hf hon
  · exact h.congr (handleFactoryEvent_cableView _ _)
  · have hv := handleSwitchField_cableView (e := e) d (handleStatusFields e d s)
    have hswitch := hstatus.congr hv
    simp only [State.cableView, Prod.mk.injEq] at hv
    exact handleEnumField_cableOk d hswitch (hv.1.trans hon.1) (hv.2.1.trans hon.2)
  · exact hstatus

/-- **Step lemma**: a handler keeps the agreement. -/
theorem handle_cableOk (ev : Event) (h : CableOk s) : CableOk (handle e s ev) := by
  cases ev with
  | uevent u => exact handleUevent_cableOk u h
  | device d => exact handleDevice_cableOk d h
  | accept a => exact h.congr (handleAccept_cableView a s)
  | app fd a => exact h.congr (handleApp_cableView fd a s)

theorem foldl_cableOk (evs : List Event) (h : CableOk s) : CableOk (evs.foldl (handle e) s) :=
  List.foldlRecOn evs (handle e) (motive := CableOk) h fun _ ht ev _ => handle_cableOk ev ht

theorem boot_cableView {sysfs : Sysfs} {b : BootInput} (h : boot e sysfs b = some s) :
    ∃ c, s.cableView = (initState e c sysfs).cableView := by
  obtain ⟨c, -, rfl⟩ := Option.map_eq_some_iff.mp h
  refine ⟨c, ?_⟩
  unfold bootMode
  split_ifs <;> simp

theorem boot_cableOk {sysfs : Sysfs} {b : BootInput} (h : boot e sysfs b = some s) : CableOk s := by
  obtain ⟨c, hc⟩ := boot_cableView h
  refine CableOk.congr ?_ hc
  cases c <;> simp [CableOk, initState]

/-- A state of the loop in the iterations `l`: at its top or between two handlers. -/
def Visited (e : Env) (sysfs : Sysfs) (b : BootInput) (l : List Iter) (s : State) : Prop :=
  ∃ s₀ evs, boot e sysfs b = some s₀ ∧ evs <+: trace e s₀ l ∧ evs.foldl (handle e) s₀ = s

theorem visited_of_run {sysfs : Sysfs} {b : BootInput} {l : List Iter}
    (h : run e sysfs b l = some s) :
    Visited e sysfs b l s := by
  obtain ⟨s₀, hb, hrun⟩ := Option.bind_eq_some_iff.mp h
  exact ⟨s₀, trace e s₀ l, hb, List.prefix_rfl, exec_trace hrun⟩

/-- **The cable and the enumeration state agree** in every state of the main loop: at its top and
between any two handlers, after every sequence of uevents, device events, connections and
messages. -/
theorem cable_state_agree {e : Env} {sysfs : Sysfs} {b : BootInput} {l : List Iter} {s : State}
    (h : Visited e sysfs b l s) :
    (s.currentUsbOnline = true ↔ s.currCableStatus ≠ .unknown) ∧
    (s.currentState = .enumInProgress ∨ s.currentState = .enumerated →
      s.currCableStatus = .usb ∧ s.currentUsbOnline = true) ∧
    (s.currentState = .cableAttached → s.currentUsbOnline = true) ∧
    (s.currentState = .cableDetached ∨ s.currentState = .cableDefault →
    s.currentUsbOnline = false) ∧
    (s.currentState = .cableDetached → s.usbGetDesCount = 0) := by
  obtain ⟨s₀, evs, hb, -, rfl⟩ := h
  exact foldl_cableOk evs (boot_cableOk hb)

def cableIter (switch : Option Char) : Iter :=
  { idleIter with ready := (· = 3), uevent := ⟨.switch switch, "0".toList, "0".toList, true⟩ }

def enumIter (enu : CStr) : Iter :=
  deviceIter (deviceEvent "none".toList "none".toList enu "0".toList)

/-- A cable is connected, enumerated and disconnected, with a state file that cannot be read in
between. -/
theorem cable_state_agree_detached :
    ∃ s, run normalEnv sysfsOff ⟨some '0', "0".toList, "0".toList⟩
        [cableIter (some '1'), enumIter "get_desc".toList, cableIter none,
          enumIter "enumerated".toList, cableIter (some '0'), enumIter "enumerated".toList] =
            some s ∧
      s.currentState = .cableDetached ∧ s.currentUsbOnline = false ∧ s.usbGetDesCount = 0 := by
  obtain ⟨s, hrun, hs⟩ : ∃ s, run normalEnv sysfsOff ⟨some '0', "0".toList, "0".toList⟩
      [cableIter (some '1'), enumIter "get_desc".toList, cableIter none,
        enumIter "enumerated".toList, cableIter (some '0'), enumIter "enumerated".toList] = some s ∧
        s.currentState = .cableDetached :=
    ⟨_, rfl, rfl⟩
  have hok := cable_state_agree (visited_of_run hrun)
  exact ⟨s, hrun, hs, hok.2.2.2.1 (.inl hs), hok.2.2.2.2 hs⟩

/-! ## Descriptor requests -/

def isGetDesc (d : DeviceInput) : Bool := "get_desc".toList.isPrefixOf d.enu

def isEnumerated (d : DeviceInput) : Bool := "enumerated".toList.isPrefixOf d.enu

/-- The state in which the fourth field of a device event is handled. -/
def beforeEnumField (e : Env) (d : DeviceInput) (s : State) : State :=
  handleSwitchField e d (handleStatusFields e d s)

/-- The event `d` moves the state to `USBD_STATE_ENUM_IN_PROGRESS`, and the application that is
connected when its fourth field is handled is sent the notification. -/
def Reported (e : Env) (d : DeviceInput) (s : State) : Prop :=
  (handleDevice e d s).currentState = .enumInProgress ∧
    ∀ fd, (beforeEnumField e d s).usbdAppFd = some fd →
      (handleDevice e d s).sent = (beforeEnumField e d s).sent ++ [(fd, "get_descriptor".toList)]

/-- What may lie between the new cable and the request: nothing that takes the USB cable away, no
other request and no end of the enumeration. -/
def Between : Event → Prop
  | .uevent u => newCable u.uevent = none ∨ newCable u.uevent = some .usb
  | .device d => ¬ isGetDesc d ∧ ¬ isEnumerated d
  | .accept _ | .app _ _ => True

/-- In the run of `l`, a USB cable is reported by `u` in the state `s`, and `d` is the first
descriptor request after it, with `mid` between them. -/
def FirstGetDesc (e : Env) (sysfs : Sysfs) (b : BootInput) (l : List Iter) (s : State)
    (u : UeventInput) (mid : List Event) (d : DeviceInput) : Prop :=
  ∃ s₀ s' pre post, boot e sysfs b = some s₀ ∧ Machine.exec (step e) s₀ l = some s' ∧
    trace e s₀ l = pre ++ .uevent u :: (mid ++ .device d :: post) ∧ pre.foldl (handle e) s₀ = s ∧
    newCable u.uevent = some .usb ∧ (∀ ev ∈ mid, Between ev) ∧ isGetDesc d = true

/-- A USB cable that has not been enumerated, after `n` descriptor requests. -/
def Attached (n : ℕ) (s : State) : Prop := s.cableView = (.usb, true, .cableAttached, n)

theorem handleUevent_attached {u : UeventInput} {n : ℕ} (hu : newCable u.uevent = some .usb)
    (hn : s.usbGetDesCount = n) : Attached n (handleUevent e u s) := by
  unfold handleUevent
  rw [hu]
  refine (handleCableStatusChange_cableView _ _).trans ?_
  rw [← hn]
  rfl

theorem beforeEnumField_cableView (d : DeviceInput) (s : State) :
    (beforeEnumField e d s).cableView = s.cableView := by
  rw [beforeEnumField, handleSwitchField_cableView, handleStatusFields_cableView]

theorem handleDevice_attached {d : DeviceInput} {n : ℕ} (h : Attached n s) :
    handleDevice e d s = handleEnumField e d (beforeEnumField e d s) := by
  have hstatus := (handleStatusFields_cableView (e := e) d s).trans h
  simp only [Attached, State.cableView, Prod.mk.injEq] at h hstatus
  rw [handleDevice, if_neg (by simp [h.1]), handleUsbEvent, if_pos ⟨hstatus.1, hstatus.2.1⟩]
  rfl

/-- What lies between leaves the four variables alone. -/
theorem handle_attached {ev : Event} {n : ℕ} (hev : Between ev) (h : Attached n s) :
    Attached n (handle e s ev) := by
  cases ev with
  | uevent u =>
    obtain hu | hu := hev
    · have heq : handle e s (.uevent u) = sendDiskEvent u.uevent s := by
        simp only [handle, handleUevent, hu]
      rw [Attached, heq, sendDiskEvent_cableView]
      exact h
    · refine handleUevent_attached hu ?_
      simp only [Attached, State.cableView, Prod.mk.injEq] at h
      exact h.2.2.2
  | device d =>
    have heq : handleEnumField e d (beforeEnumField e d s) = beforeEnumField e d s := by
      unfold handleEnumField
      exact (if_neg hev.1).trans (if_neg hev.2)
    rw [Attached, handle, handleDevice_attached h, heq, beforeEnumField_cableView]
    exact h
  | accept a => exact (handleAccept_cableView a s).trans h
  | app fd a => exact (handleApp_cableView fd a s).trans h

theorem foldl_attached {mid : List Event} {n : ℕ} (hmid : ∀ ev ∈ mid, Between ev)
    (h : Attached n s) :
    Attached n (mid.foldl (handle e) s) :=
  List.foldlRecOn mid (handle e) (motive := Attached n) h fun _ ht ev hev => handle_attached
    (hmid ev hev) ht

theorem writeApp_sent {fd : ℕ} (hfd : s.usbdAppFd = some fd) (text : CStr) (ok : Bool) :
    (writeApp e text ok s).sent = s.sent ++ [(fd, text)] := by
  unfold writeApp
  rw [hfd]
  dsimp only
  split_ifs <;> rfl

/-- A request is reported when it is the first one that is counted, and else changes no more than
the counter. -/
theorem reported_iff {d : DeviceInput} {n : ℕ} (hd : isGetDesc d = true) (h : Attached n s) :
    Reported e d s ↔ n = 0 := by
  have hview := (beforeEnumField_cableView (e := e) d s).trans h
  simp only [State.cableView, Prod.mk.injEq] at hview
  have heq : handleDevice e d s = handleGetDesc e d (beforeEnumField e d s) := by
    rw [handleDevice_attached h, handleEnumField]
    exact if_pos hd
  unfold Reported
  rw [heq, handleGetDesc, hview.2.2.2]
  constructor
  · intro hr
    by_contra hn
    rw [if_neg (by omega)] at hr
    have hst : (beforeEnumField e d s).currentState = .enumInProgress := hr.1
    rw [hview.2.2.1] at hst
    cases hst
  · rintro rfl
    rw [if_pos rfl]
    constructor
    · have hv := writeApp_cableView (e := e) "get_descriptor".toList d.descOk
        { beforeEnumField e d s with usbGetDesCount := 0 + 1, currentState := .enumInProgress }
      simp only [State.cableView, Prod.mk.injEq] at hv
      exact hv.2.2.1
    · intro fd hfd
      exact writeApp_sent (by exact hfd) _ _

/-- **When a descriptor request is reported.**  After a uevent that reports a USB cable, the first
`get_desc` event with the cable still there is reported if and only if `usb_get_des_count` was 0
when the uevent came: the counter is reset where a cable is taken away, not where one is
connected. -/
theorem getDesc_reported_iff {e : Env} {sysfs : Sysfs} {b : BootInput} {l : List Iter} {s : State}
    {u : UeventInput} {mid : List Event} {d : DeviceInput}
    (h : FirstGetDesc e sysfs b l s u mid d) :
    Reported e d ((.uevent u :: mid).foldl (handle e) s) ↔ s.usbGetDesCount = 0 := by
  obtain ⟨s₀, s', pre, post, -, -, -, -, hu, hmid, hd⟩ := h
  rw [List.foldl_cons]
  exact reported_iff hd (foldl_attached hmid (handleUevent_attached hu rfl))

/-- The host reads the descriptors of a new cable; the switch reports the cable again, and the host
reads them again. -/
def repeatedAttach : List Iter :=
  [cableIter (some '1'), acceptIter 6, enumIter "get_desc".toList, cableIter (some '1'),
    enumIter "get_desc".toList]

/-- The event that `enumIter` reads. -/
def descEvent : DeviceInput := deviceEvent "none".toList "none".toList "get_desc".toList "0".toList

def usbUevent : UeventInput := ⟨.switch (some '1'), "0".toList, "0".toList, true⟩

/-- The second request is not reported, though an application is connected: the state stays
`USBD_STATE_CABLE_ATTACHED` and nothing is sent. -/
theorem getDesc_not_reported :
    ¬ ∀ s u mid d, FirstGetDesc normalEnv sysfsOff
    ⟨some '0', "0".toList, "0".toList⟩ repeatedAttach s u mid d →
      Reported normalEnv d ((.uevent u :: mid).foldl (handle normalEnv) s) := by
  intro h
  obtain ⟨s, hfirst, hs⟩ : ∃ s, FirstGetDesc normalEnv sysfsOff ⟨some '0', "0".toList, "0".toList⟩
      repeatedAttach s usbUevent [] descEvent ∧ Attached 1 (handleUevent normalEnv usbUevent s) :=
    ⟨_, ⟨_, _, [.uevent usbUevent, .accept ⟨6, "0".toList⟩, .device descEvent], [], rfl, rfl, rfl, rfl, rfl,
      by simp, rfl⟩, rfl⟩
  have hzero : 1 = 0 := (reported_iff rfl hs).mp (h s usbUevent [] descEvent hfirst)
  cases hzero

/-- The first one is. -/
theorem getDesc_reported_first :
    ∃ s, FirstGetDesc normalEnv sysfsOff
    ⟨some '0', "0".toList, "0".toList⟩ repeatedAttach s usbUevent
        [.accept ⟨6, "0".toList⟩] descEvent ∧
      Reported normalEnv descEvent
        ([.uevent usbUevent, .accept ⟨6, "0".toList⟩].foldl (handle normalEnv) s) := by
  obtain ⟨s, hfirst, hn⟩ : ∃ s, FirstGetDesc normalEnv sysfsOff ⟨some '0', "0".toList, "0".toList⟩
      repeatedAttach s usbUevent [.accept ⟨6, "0".toList⟩] descEvent ∧ s.usbGetDesCount = 0 :=
    ⟨_, ⟨_, _, [], [.uevent usbUevent, .device descEvent], rfl, rfl, rfl, rfl, rfl,
      by simp [Between], rfl⟩, rfl⟩
  exact ⟨s, hfirst, (getDesc_reported_iff hfirst).mpr hn⟩

end Omap4.Usbd
