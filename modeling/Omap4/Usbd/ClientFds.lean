import Omap4.Usbd.Enumeration
import Omap4.Usbd.Requests

/-!
# Omap4.Usbd.ClientFds — who owns the descriptors of the applications

`accept` gives the daemon a descriptor, which it is to close when it is done with the application.
It is closed in one place, where a read finds the end of the stream.  Everywhere else the daemon
only forgets the number: for a second application, after a read that failed, and after each of the
writes whose result it looks at.

`dropped` says in the state before a handler whether it forgets a descriptor, and which one.  The
account of a run is exact (`lost_trace`): what has been accepted and is neither closed nor
`usbd_app_fd` is what the handlers of the run dropped, so that the daemon leaks nothing if and only
if none of them drops anything (`no_client_leaked_iff`).
-/

namespace Omap4.Usbd

variable {e : Env} {s : State}

/-! ## What a handler drops -/

/-- The notification of a new cable is written and fails. -/
def ueventFails (e : Env) (u : UeventInput) : Bool :=
  !e.usbAltMode && (newCable u.uevent).any (· ≠ .factory) && !u.notifyOk

/-- `usb_req_mode_switch` comes to its write. -/
def switchWrites (e : Env) (d : DeviceInput) (s : State) : Bool :=
  d.pcSwitch ≠ "none".toList && (usbdGetAdbProperty d.switchAdb).isSome &&
    (findSwitchReq e.build d.pcSwitch).isSome &&
    (s.currUsbMode ≠ UsbMode.cdrom.val && s.currUsbMode ≠ UsbMode.cdrom2.val)

/-- The mode in which the fourth field of a device event is handled. -/
def modeAfterSwitch (e : Env) (d : DeviceInput) (s : State) : ℕ :=
  if d.pcSwitch = "none".toList then s.currUsbMode
  else match usbdGetAdbProperty d.switchAdb, findSwitchReq e.build d.pcSwitch with
    | none, _ => s.currUsbMode
    | some _, none => if d.pcSwitch = "cdrom2".toList then UsbMode.cdrom2.val else s.currUsbMode
    | some en, some _ =>
      if s.currUsbMode = UsbMode.cdrom.val ∨ s.currUsbMode = UsbMode.cdrom2.val then
        (cdromSwitchMode e.usbdMode en s.tetheringEnabled).val
      else s.currUsbMode

/-- The report of the first descriptor request, or of the end of the enumeration in the mode `m`, is
written and fails. -/
def enumFieldFails (e : Env) (d : DeviceInput) (m count : ℕ) : Bool :=
  if isGetDesc d then count == 0 && !d.descOk
  else isEnumerated d && (usbModeEntry e.build m).modeDone.isSome && !d.enumOk

def deviceFails (e : Env) (d : DeviceInput) (s : State) : Bool :=
  s.currCableStatus = .usb && s.currentUsbOnline &&
    (switchWrites e d s && !d.switchOk ||
      enumFieldFails e d (modeAfterSwitch e d s) s.usbGetDesCount)

/-- A reply to the request `buf` is written and fails. -/
def replyFails (e : Env) (a : AppInput) (buf : CStr) (s : State) : Bool :=
  match findModeReq e.build buf with
  | none => false
  | some i => i ≠ UsbMode.min.val &&
      ((usbModeEntry e.build i).respOk.isSome && !a.respOk ||
        (s.currUsbMode = i && (usbModeEntry e.build i).modeDone.isSome && !a.doneOk))

/-- The read of a message fails, or a reply to it. -/
def appFails (e : Env) (a : AppInput) (s : State) : Bool :=
  match a.read with
  | .error => true
  | .eof => false
  | .data buf => s.currCableStatus ≠ .factory && replyFails e a (CStr.ofBuffer buf) s

/-- The descriptor that the handler of `ev` forgets without closing it: that of a second
application, or that of the application after a failed read or write. -/
def dropped (e : Env) (s : State) : Event → Option ℕ
  | .uevent u => if ueventFails e u then s.usbdAppFd else none
  | .device d => if deviceFails e d s then s.usbdAppFd else none
  | .accept a => if s.usbdAppFd.isSome then some a.newfd else none
  | .app _ a => if appFails e a s then s.usbdAppFd else none

/-- The descriptors dropped by the handlers `evs`, from `s` on. -/
def drops (e : Env) : State → List Event → List ℕ
  | _, [] => []
  | s, ev :: evs => (dropped e s ev).toList ++ drops e (handle e s ev) evs

/-! ## What a handler does to the descriptors -/

/-- What `accept` returned, what `close` was called with, and `usbd_app_fd`. -/
def State.clients (s : State) : List ℕ × List ℕ × Option ℕ := (s.accepted, s.closed, s.usbdAppFd)

/-- The application is forgotten if `b` holds. -/
def forget (b : Bool) (v : List ℕ × List ℕ × Option ℕ) : List ℕ × List ℕ × Option ℕ :=
  if b then (v.1, v.2.1, none) else v

@[simp] theorem forget_false (v : List ℕ × List ℕ × Option ℕ) : forget false v = v := rfl

theorem forget_none (b : Bool) {v : List ℕ × List ℕ × Option ℕ} (h : v.2.2 = none) :
    forget b v = v := by
  unfold forget
  split_ifs
  · rw [← h]
  · rfl

theorem forget_forget (a b : Bool) (v : List ℕ × List ℕ × Option ℕ) :
    forget b (forget a v) = forget (a || b) v := by
  cases a <;> cases b <;> rfl

theorem clearApp_clients (fd : ℕ) (s : State) : (clearApp e fd s).clients = forget true s.clients :=
  rfl

/-- The descriptors survive whatever does not remove an application. -/
theorem stable_clients (e : Env) (fails : Prop) {v : List ℕ × List ℕ × Option ℕ}
    (hv : fails → v.2.2 = none) : Stable e True fails fun s => s.clients = v where
  frame h := h
  setMode {s m} h _ _ := by
    rw [← h]
    unfold usbdSetUsbMode
    split_ifs <;> rfl
  enableDone h := h
  clear {s fd} h hfd hf := by
    have hnone : s.usbdAppFd = none := (congrArg (fun v => v.2.2) h).trans (hv hf)
    rw [hfd] at hnone
    cases hnone

theorem stable_clients_self (e : Env) (s : State) :
    Stable e True False fun t => t.clients = s.clients :=
  stable_clients e False False.elim

theorem usbdSetUsbMode_clients (b : Build) (m : ℕ) (s : State) :
    (usbdSetUsbMode b m s).clients = s.clients := by
  unfold usbdSetUsbMode
  split_ifs <;> rfl

theorem writeApp_clients (text : CStr) (ok : Bool) (s : State) :
    (writeApp e text ok s).clients = forget (!ok) s.clients := by
  unfold writeApp
  split
  · next hfd => rw [forget_none _ hfd]
  · cases ok <;> rfl

theorem notifyApp_clients {ok : Bool} (h : notificationMessage s.currentState ≠ none) :
    (notifyApp e ok s).clients = forget (!ok) s.clients := by
  unfold notifyApp
  split
  · next hfd => rw [forget_none _ hfd]
  · next fd hfd =>
    have hnotify : (usbdNotifyCurrentStatus fd s).clients = s.clients :=
      (stable_clients_self e s).notify rfl
    cases ok with
    | true => rw [if_pos (.inl rfl), hnotify, Bool.not_true, forget_false]
    | false =>
      rw [if_neg (by simpa using h), clearApp_clients, hnotify]
      rfl

/-- A new cable is always something to notify of. -/
theorem setCable_notification (c : Cable) (s : State) :
    notificationMessage (setCable c s).currentState ≠ none := by
  unfold setCable
  split_ifs <;> simp [notificationMessage]

theorem handleUevent_clients (u : UeventInput) (s : State) :
    (handleUevent e u s).clients = forget (ueventFails e u) s.clients := by
  have hset : ∀ c, (setCable c s).clients = s.clients := by
    intro c
    unfold setCable
    split_ifs <;> rfl
  unfold handleUevent ueventFails
  cases hc : newCable u.uevent with
  | none =>
    have hdisk : (sendDiskEvent u.uevent s).clients = s.clients := by
      unfold sendDiskEvent
      split <;> rfl
    simp [hdisk]
  | some c =>
    dsimp only
    unfold usbdHandleCableStatusChange
    rw [setCable_currCableStatus, Option.any_some]
    split_ifs with hfac halt hcable
    · rw [usbdSetUsbMode_clients, hset]
      simp [hfac]
    · rw [← hset c]
      simp only [halt, Bool.not_true, Bool.false_and, forget_false]
      exact (stable_clients_self e (setCable c s)).enumerateDefaultMode rfl
    · rw [hset]
      simp [halt]
    · rw [notifyApp_clients (setCable_notification c s), hset]
      simp [hfac, halt]

theorem enumProcess_clients (ok : Bool) (s : State) : (usbdEnumProcess e ok s).clients =
    forget ((usbModeEntry e.build s.currUsbMode).modeDone.isSome && !ok) s.clients := by
  unfold usbdEnumProcess
  split
  · next hdone =>
    rw [hdone]
    cases ok <;> rfl
  · next hnone =>
    cases hfd : s.usbdAppFd with
    | none =>
      rw [forget_none _ hfd]
      rfl
    | some fd =>
      cases hdone : (usbModeEntry e.build s.currUsbMode).modeDone with
      | none => rfl
      | some m => exact absurd hdone (hnone fd m hfd)

theorem handleSwitchField_clients (d : DeviceInput) (s : State) :
    (handleSwitchField e d s).clients = forget (switchWrites e d s && !d.switchOk) s.clients := by
  unfold handleSwitchField usbReqModeSwitch switchWrites
  by_cases hnone : d.pcSwitch = "none".toList
  · rw [if_neg (not_not.mpr hnone), decide_eq_false (not_not.mpr hnone)]
    rfl
  · rw [if_pos hnone]
    cases usbdGetAdbProperty d.switchAdb with
    | none =>
      rw [Option.isSome_none, Bool.and_false]
      rfl
    | some en =>
      cases findSwitchReq e.build d.pcSwitch with
      | none =>
        rw [Option.isSome_none, Bool.and_false]
        dsimp only
        split_ifs
        · exact usbdSetUsbMode_clients ..
        · rfl
      | some req =>
        dsimp only
        split_ifs with hcd
        · -- in the two CD-ROM modes nothing is written
          have hquiet : (decide (s.currUsbMode ≠ UsbMode.cdrom.val) &&
              decide (s.currUsbMode ≠ UsbMode.cdrom2.val)) = false := by
            rcases hcd with hcd | hcd
            · rw [decide_eq_false (not_not.mpr hcd), Bool.false_and]
            · rw [decide_eq_false (not_not.mpr hcd), Bool.and_false]
          rw [hquiet, Bool.and_false, Bool.false_and]
          exact usbdSetUsbMode_clients ..
        · rw [not_or] at hcd
          rw [writeApp_clients, decide_eq_true hnone, decide_eq_true hcd.1, decide_eq_true hcd.2]
          rfl

theorem handleSwitchField_currUsbMode (d : DeviceInput) (s : State) :
    (handleSwitchField e d s).currUsbMode = modeAfterSwitch e d s := by
  have hwrite : ∀ text ok, (writeApp e text ok s).currUsbMode = s.currUsbMode := by
    intro text ok
    unfold writeApp
    split
    · rfl
    · split_ifs <;> rfl
  unfold handleSwitchField usbReqModeSwitch modeAfterSwitch
  by_cases hnone : d.pcSwitch = "none".toList
  · simp [hnone]
  · rw [if_pos hnone, if_neg hnone]
    rcases usbdGetAdbProperty d.switchAdb with _ | en
    · rfl
    rcases findSwitchReq e.build d.pcSwitch with _ | req <;> dsimp only
    · split_ifs
      · rw [usbdSetUsbMode_currUsbMode]
      · rfl
    · split_ifs
      · rw [usbdSetUsbMode_currUsbMode]
      · exact hwrite _ _

theorem handleEnumField_clients (d : DeviceInput) (s : State) : (handleEnumField e d s).clients =
    forget (enumFieldFails e d s.currUsbMode s.usbGetDesCount) s.clients := by
  unfold handleEnumField enumFieldFails isGetDesc isEnumerated
  split_ifs with hdesc henum
  · unfold handleGetDesc
    by_cases hcount : s.usbGetDesCount = 0
    · rw [if_pos (by omega), writeApp_clients, hcount]
      rfl
    · have hbeq : (s.usbGetDesCount == 0) = false := by simpa using hcount
      rw [if_neg (by omega), hbeq]
      rfl
  · rw [enumProcess_clients, henum, Bool.true_and]
    rfl
  · rw [Bool.not_eq_true] at henum
    rw [henum]
    rfl

/-- Without an alternate mode the status fields are only sent to the application. -/
theorem handleStatusFields_eq (halt : e.usbAltMode = false) (d : DeviceInput) (s : State) :
    ∃ w, handleStatusFields e d s = { s with sent := w } := by
  have hsend : ∀ (send : ℕ → Bool → State → State) (fd : ℕ) (o : Option Bool) (w : List (ℕ × CStr)),
      (∀ on w, ∃ w', send fd on { s with sent := w } = { s with sent := w' }) →
      ∃ w', sendField send fd o { s with sent := w } = { s with sent := w' } := by
    intro send fd o w hs
    cases o with
    | none => exact ⟨w, rfl⟩
    | some on => exact hs on w
  unfold handleStatusFields
  rw [if_neg (by simp [halt])]
  split
  · exact ⟨s.sent, rfl⟩
  · next fd _ =>
    obtain ⟨w, hw⟩ := hsend usbdSendAdbStatus fd (adbField d.adbEnable) s.sent fun on w => ⟨_, rfl⟩
    obtain ⟨w', hw'⟩ := hsend usbdSendTetheringStatus fd (tetheringField d.tetheringEnable) w
      fun on w => ⟨_, rfl⟩
    exact ⟨w', (congrArg _ hw).trans hw'⟩

theorem handleDevice_clients (halt : e.usbAltMode = true → s.usbdAppFd = none) (d : DeviceInput) :
    (handleDevice e d s).clients = forget (deviceFails e d s) s.clients := by
  rcases hfd : s.usbdAppFd with _ | fd
  · rw [forget_none _ hfd]
    exact (stable_clients e True fun _ => hfd).handleDevice (fun _ => trivial)
      (fun _ _ => trivial) rfl
  have hoff : e.usbAltMode = false := by
    cases he : e.usbAltMode with
    | false => rfl
    | true => rw [halt he] at hfd; cases hfd
  unfold handleDevice deviceFails
  split_ifs with hfac
  · have hfields : (handleFactoryEvent e d s).clients = s.clients := by
      unfold handleFactoryEvent
      split_ifs <;> simp [usbdSetUsbMode_clients]
    simp [hfields, hfac]
  · obtain ⟨w, hw⟩ := handleStatusFields_eq hoff d s
    have hcount : (handleSwitchField e d { s with sent := w }).usbGetDesCount = s.usbGetDesCount :=
      congrArg (fun v => v.2.2.2) (handleSwitchField_cableView (e := e) d { s with sent := w })
    have hmode : modeAfterSwitch e d { s with sent := w } = modeAfterSwitch e d s := rfl
    have hwrites : switchWrites e d { s with sent := w } = switchWrites e d s := rfl
    unfold handleUsbEvent
    rw [hw]
    dsimp only
    split_ifs with hon
    · rw [handleEnumField_clients, handleSwitchField_clients, handleSwitchField_currUsbMode,
        forget_forget, hcount, hmode, hwrites, hon.1, hon.2]
      rfl
    · have hguard : (decide (s.currCableStatus = .usb) && s.currentUsbOnline) = false := by
        simpa using hon
      rw [hguard]
      rfl

theorem handleAccept_clients (a : AcceptInput) (s : State) : (handleAccept e a s).clients =
    (s.accepted ++ [a.newfd], s.closed, some (s.usbdAppFd.getD a.newfd)) := by
  have hsave : (State.updateMaxfd e (usbdSaveSocketFd a.newfd
      { s with accepted := s.accepted ++ [a.newfd] })).clients =
        (s.accepted ++ [a.newfd], s.closed, some (s.usbdAppFd.getD a.newfd)) := by
    unfold usbdSaveSocketFd
    cases hfd : s.usbdAppFd with
    | none => rfl
    | some fd => simp [State.clients, State.updateMaxfd]
  exact (stable_clients e False False.elim).handleAccept hsave

theorem reply_fst (fd : ℕ) (text : Option CStr) (ok : Bool) (s : State) :
    (reply fd text ok s).1 = !(text.isSome && !ok) := by
  unfold reply
  cases text <;> simp

theorem answerRequest_fst (fd i : ℕ) (a : AppInput) (s : State) : (answerRequest e fd a i s).1 =
    !((usbModeEntry e.build i).respOk.isSome && !a.respOk ||
      (s.currUsbMode = i && (usbModeEntry e.build i).modeDone.isSome && !a.doneOk)) := by
  have hfst := reply_fst fd (usbModeEntry e.build i).respOk a.respOk s
  have hmode : (reply fd (usbModeEntry e.build i).respOk a.respOk s).2.currUsbMode =
      s.currUsbMode :=
    reply_currUsbMode _ _
  unfold answerRequest
  generalize reply fd (usbModeEntry e.build i).respOk a.respOk s = r at hfst hmode
  obtain ⟨ok, t⟩ := r
  dsimp only at hfst hmode
  have hresp : ((usbModeEntry e.build i).respOk.isSome && !a.respOk) = !ok := by
    rw [hfst, Bool.not_not]
  rw [hresp]
  cases ok with
  | false => rfl
  | true =>
    dsimp only
    rw [hmode]
    by_cases hne : s.currUsbMode = i
    · rw [if_neg (not_not.mpr hne), reply_fst, decide_eq_true hne, hne]
      rfl
    · rw [if_pos hne, decide_eq_false hne]
      rfl

/-- A handled message closes at the end of the stream and forgets after a failure. -/
theorem handleApp_clients (fd : ℕ) (a : AppInput) (s : State) :
    (handleApp e fd a s).clients =
      if a.read = .eof then (s.accepted, s.closed ++ [fd], none)
      else forget (appFails e a s) s.clients := by
  have hact : ∀ buf, (actOn e fd a buf s).1 = !replyFails e a buf s := by
    intro buf
    unfold actOn replyFails
    cases findModeReq e.build buf with
    | none => rfl
    | some i =>
      dsimp only
      split_ifs with hmin
      · simp [hmin]
      · rw [answerRequest_fst, decide_eq_true hmin, Bool.true_and]
  have hsame : ∀ buf, (actOn e fd a buf s).2.clients = s.clients := by
    intro buf
    exact (stable_clients_self e s).actOn rfl rfl
  unfold handleApp usbdSocketEvent appFails
  cases a.read with
  | error => rfl
  | eof => rfl
  | data buf =>
    dsimp only
    rw [if_neg (show AppRead.data buf ≠ .eof by simp)]
    by_cases hfac : s.currCableStatus = .factory
    · simp [hfac]
    · have hact := hact (CStr.ofBuffer buf)
      have hsame := hsame (CStr.ofBuffer buf)
      rw [if_neg hfac, decide_eq_true hfac, Bool.true_and]
      generalize actOn e fd a (CStr.ofBuffer buf) s = r at hact hsame
      obtain ⟨ok, t⟩ := r
      dsimp only at hact hsame
      have hfails : replyFails e a (CStr.ofBuffer buf) s = !ok := by rw [hact, Bool.not_not]
      rw [hfails, ← hsame]
      cases ok with
      | true => rfl
      | false => exact clearApp_clients fd t

/-! ## The account of a run -/

/-- How often `fd` was accepted without having been closed since or being `usbd_app_fd`. -/
def State.lost (s : State) (fd : ℕ) : ℤ :=
  s.accepted.count fd - s.closed.count fd - if s.usbdAppFd = some fd then 1 else 0

theorem lost_forget {s t : State} {b : Bool} (h : t.clients = forget b s.clients) (fd : ℕ) :
    t.lost fd = s.lost fd + if (if b then s.usbdAppFd else none) = some fd then 1 else 0 := by
  cases b with
  | false =>
    obtain ⟨ha, hc, happ⟩ : t.accepted = s.accepted ∧ t.closed = s.closed ∧
      t.usbdAppFd = s.usbdAppFd := by
      simpa [State.clients] using h
    simp [State.lost, ha, hc, happ]
  | true =>
    obtain ⟨ha, hc, happ⟩ : t.accepted = s.accepted ∧ t.closed = s.closed ∧ t.usbdAppFd = none := by
      simpa [State.clients, forget] using h
    simp only [State.lost, ha, hc, happ, if_true]
    split_ifs <;> simp_all

/-- What the loop has checked when it calls a handler. -/
def Ready (e : Env) (s : State) : Event → Prop
  | .uevent _ | .device _ => True
  | .accept _ => e.usbAltMode = false
  | .app fd _ => s.usbdAppFd = some fd

/-- **Step lemma**: a handler adds what it drops. -/
theorem lost_handle (halt : e.usbAltMode = true → s.usbdAppFd = none) {ev : Event}
    (hready : Ready e s ev) (fd : ℕ) :
    (handle e s ev).lost fd = s.lost fd + if dropped e s ev = some fd then 1 else 0 := by
  cases ev with
  | uevent u => exact lost_forget (handleUevent_clients u s) fd
  | device d => exact lost_forget (handleDevice_clients halt d) fd
  | accept a =>
    obtain ⟨ha, hc, happ⟩ : (handleAccept e a s).accepted = s.accepted ++ [a.newfd] ∧
        (handleAccept e a s).closed = s.closed ∧
        (handleAccept e a s).usbdAppFd = some (s.usbdAppFd.getD a.newfd) := by
      simpa [State.clients] using handleAccept_clients (e := e) a s
    rcases hfd : s.usbdAppFd with _ | fd' <;> by_cases hnew : a.newfd = fd <;>
      simp [handle, State.lost, ha, hc, happ, dropped, hfd, hnew]
    all_goals omega
  | app fd' a =>
    have hclients := handleApp_clients (e := e) fd' a s
    by_cases heof : a.read = .eof
    · rw [if_pos heof] at hclients
      obtain ⟨ha, hc, happ⟩ : (handleApp e fd' a s).accepted = s.accepted ∧
          (handleApp e fd' a s).closed = s.closed ++ [fd'] ∧
          (handleApp e fd' a s).usbdAppFd = none := by
        simpa [State.clients] using hclients
      have hdropped : dropped e s (.app fd' a) = none := by simp [dropped, appFails, heof]
      have hfd : s.usbdAppFd = some fd' := hready
      simp only [handle, State.lost, ha, hc, happ, hdropped, hfd, List.count_append,
        List.count_singleton]
      by_cases hnew : fd' = fd <;> simp [hnew]
      omega
    · rw [if_neg heof] at hclients
      exact lost_forget hclients fd

theorem handle_alt (halt : e.usbAltMode = true → s.usbdAppFd = none) {ev : Event}
    (hready : Ready e s ev) (he : e.usbAltMode = true) : (handle e s ev).usbdAppFd = none := by
  have hnone := halt he
  have hforget : ∀ {t : State} {b : Bool}, t.clients = forget b s.clients → t.usbdAppFd = none := by
    intro t b h
    rw [forget_none _ hnone] at h
    exact (congrArg (fun v => v.2.2) h).trans hnone
  cases ev with
  | uevent u => exact hforget (handleUevent_clients u s)
  | device d => exact hforget (handleDevice_clients halt d)
  | accept a => rw [Ready, he] at hready; cases hready
  | app fd a => rw [Ready, hnone] at hready; cases hready

/-- The loop calls a handler only where it is ready. -/
theorem along_ready (e : Env) (s : State) (l : List Iter) :
    Machine.Along (fun s ev => some (handle e s ev)) (Ready e) s (trace e s l) := by
  induction l generalizing s with
  | nil => trivial
  | cons i l ih =>
    refine Machine.along_append (Machine.along_append ?_ fun t ht => ?_) fun t ht => ?_
    · refine Machine.along_of_forall _ s fun ev hev t => ?_
      unfold earlyEvents at hev
      rcases List.mem_append.mp hev with hev | hev
      · rcases List.mem_append.mp hev with hev | hev
        · split_ifs at hev
          · rw [List.mem_singleton.mp hev]
            trivial
          · cases hev
        · split_ifs at hev
          · obtain ⟨d, -, rfl⟩ : ∃ d, i.device = some d ∧ Event.device d = ev := by simpa using hev
            trivial
          · cases hev
      · split_ifs at hev with hserver
        · obtain ⟨a, -, rfl⟩ : ∃ a, i.accept = some a ∧ Event.accept a = ev := by simpa using hev
          show e.usbAltMode = false
          by_contra halt
          rw [Bool.not_eq_false] at halt
          simp [Env.usbdServerFd, halt] at hserver
        · cases hev
    · rw [Machine.exec_some, foldl_earlyEvents, Option.some.injEq] at ht
      subst ht
      unfold appEvents
      split
      · next fd hfd =>
        split_ifs
        · exact ⟨hfd, fun _ _ => trivial⟩
        · trivial
      · trivial
    · rw [Machine.exec_some, foldl_events, Option.some.injEq] at ht
      subst ht
      exact ih _

/-- **Run lemma**: what is lost after the handlers `evs` is what they dropped. -/
theorem lost_foldl {evs : List Event} (halt : e.usbAltMode = true → s.usbdAppFd = none)
    (hready : Machine.Along (fun s ev => some (handle e s ev)) (Ready e) s evs) (fd : ℕ) :
    (evs.foldl (handle e) s).lost fd = s.lost fd + (drops e s evs).count fd := by
  induction evs generalizing s with
  | nil => simp [drops]
  | cons ev evs ih =>
    have hstep := lost_handle halt hready.1 fd
    have hrest := ih (handle_alt halt hready.1) (hready.2 _ rfl)
    rw [List.foldl_cons, hrest, hstep, drops, List.count_append]
    cases dropped e s ev with
    | none => simp
    | some fd' =>
      by_cases hnew : fd' = fd <;> simp [hnew]
      omega

theorem boot_clients {sysfs : Sysfs} {b : BootInput} (h : boot e sysfs b = some s) :
    s.clients = ([], [], none) := by
  obtain ⟨c, -, rfl⟩ := Option.map_eq_some_iff.mp h
  exact (stable_clients e False False.elim).bootMode (fun _ => trivial) rfl

/-- **The account of a run**: the descriptors that are accepted, not closed and not `usbd_app_fd`
are those that the handlers of the run dropped. -/
theorem lost_trace {sysfs : Sysfs} {b : BootInput} {l : List Iter} {s₀ s : State}
    (hb : boot e sysfs b = some s₀) (h : Machine.exec (step e) s₀ l = some s) (fd : ℕ) :
    s.lost fd = (drops e s₀ (trace e s₀ l)).count fd := by
  obtain ⟨ha, hc, happ⟩ : s₀.accepted = [] ∧ s₀.closed = [] ∧ s₀.usbdAppFd = none := by
    simpa [State.clients] using boot_clients hb
  have hzero : s₀.lost fd = 0 := by simp [State.lost, ha, hc, happ]
  rw [← exec_trace h, lost_foldl (fun _ => happ) (along_ready e s₀ l), hzero, Int.zero_add]

/-! ## No leak -/

/-- Every descriptor that `accept` returned is `usbd_app_fd` or has been closed exactly once.  The
kernel may return a number again that was closed, so this is about how often each was returned and
closed. -/
def NoLeak (s : State) : Prop :=
  ∀ fd, s.accepted.count fd = s.closed.count fd + if s.usbdAppFd = some fd then 1 else 0

theorem noLeak_iff_lost (s : State) : NoLeak s ↔ ∀ fd, s.lost fd = 0 := by
  refine forall_congr' fun fd => ?_
  unfold State.lost
  split_ifs <;> omega

/-- **When no client is leaked.**  In every state at the top of the loop, every accepted descriptor
is the current one or closed exactly once if and only if no handler of the run dropped one: no
second application connected, and no read and no checked write to the application failed. -/
theorem no_client_leaked_iff {e : Env} {sysfs : Sysfs} {b : BootInput} {l : List Iter}
    {s₀ s : State} (hb : boot e sysfs b = some s₀) (h : Machine.exec (step e) s₀ l = some s) :
    NoLeak s ↔ drops e s₀ (trace e s₀ l) = [] := by
  rw [noLeak_iff_lost]
  constructor
  · intro hlost
    refine List.eq_nil_iff_forall_not_mem.mpr fun fd hfd => ?_
    have hpos : 0 < (drops e s₀ (trace e s₀ l)).count fd := List.count_pos_iff.mpr hfd
    have hzero := hlost fd
    rw [lost_trace hb h] at hzero
    omega
  · intro hnil fd
    rw [lost_trace hb h, hnil]
    rfl

/-- An application connects, sends a request, closes its end, and connects again. -/
def reconnectRun : List Iter :=
  [acceptIter 6, requestIter 6 ("usb_mode_mtp".toList ++ [CStr.nul]),
    { requestIter 6 [] with app := ⟨.eof, true, true⟩ }, acceptIter 6]

theorem no_client_leaked_reconnect :
    ∃ s₀ s, boot normalEnv sysfsOff ⟨some '1', "0".toList, "0".toList⟩ = some s₀ ∧
      Machine.exec (step normalEnv) s₀ reconnectRun = some s ∧ s.accepted = [6, 6] ∧
      s.closed = [6] ∧
      NoLeak s := by
  obtain ⟨s₀, s, hb, h, ha, hc, hdrops⟩ : ∃ s₀ s,
      boot normalEnv sysfsOff ⟨some '1', "0".toList, "0".toList⟩ = some s₀ ∧
      Machine.exec (step normalEnv) s₀ reconnectRun = some s ∧ s.accepted = [6, 6] ∧
        s.closed = [6] ∧
      drops normalEnv s₀ (trace normalEnv s₀ reconnectRun) = [] := ⟨_, _, rfl, rfl, rfl, rfl, rfl⟩
  exact ⟨s₀, s, hb, h, ha, hc, (no_client_leaked_iff hb h).mpr hdrops⟩

/-- A second application connects while the first one is served: its descriptor 7 is neither
`usbd_app_fd` nor closed. -/
theorem second_client_leaked :
    ¬ ∀ s, run normalEnv sysfsOff ⟨some '1', "0".toList, "0".toList⟩ [acceptIter 6,
      acceptIter 7] = some s →
      NoLeak s := by
  intro h
  obtain ⟨s, hrun, ha, hc, happ⟩ : ∃ s,
      run normalEnv sysfsOff ⟨some '1', "0".toList, "0".toList⟩ [acceptIter 6,
        acceptIter 7] = some s ∧
      s.accepted = [6, 7] ∧ s.closed = [] ∧ s.usbdAppFd = some 6 := ⟨_, rfl, rfl, rfl, rfl⟩
  have h7 := h s hrun 7
  rw [ha, hc, happ] at h7
  simp at h7

end Omap4.Usbd
