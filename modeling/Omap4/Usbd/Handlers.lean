import Omap4.Usbd.Daemon

/-!
# Omap4.Usbd.Handlers — what the handlers of usbd are made of

Every handler of the loop is a composition of four operations: a call of `usbd_set_usb_mode`, a run
of the `enable_done` hook, the removal of the application (`clearApp`), and updates of variables
that few properties are about (`Stable.frame`).  `Stable` asks a property to survive these, and the
rules below say that it then survives each function of the daemon.  Changes of the cable, new
connections and requests are made in one place each, so a property is asked about them by the rule
of that handler.

Two parameters keep the rules sharp.  The mode `USB_MODE_NETWORK_ADB` is only set where `allow`
holds, and a rule says which reading of `persist.factory.allow_adb` has to imply it; the application
is only removed where `fails` holds, which a failed write has to imply.

A property of the mode and the sysfs files survives everything but the first two operations; for it
there are rules for a whole iteration (`iterate_inv`) and for the start (`boot_inv`).
-/

namespace Omap4.Usbd

/-! ## Modes -/

theorem UsbMode.val_lt {m : UsbMode} (h : m ≠ .max) : m.val < UsbMode.max.val := by
  cases m <;> first | exact absurd rfl h | decide

/-- The table reads a mode back from its number. -/
theorem usbModeEntry_val (b : Build) (m : UsbMode) : (usbModeEntry b m.val).mode = m := by
  cases m <;> rfl

theorem UsbMode.val_injective : Function.Injective UsbMode.val := by
  intro m n h
  rw [← usbModeEntry_val ⟨false, false, false⟩ m, h, usbModeEntry_val]

/-- The modes that are not reserved to the factory cable. -/
def UsbMode.Public (m : UsbMode) : Prop := m ≠ .max ∧ m ≠ .networkAdb

theorem altNewMode_public {mode : ModeType} {adbEn tetherEn : Option Bool} {t : Bool} {adb : CStr}
    {m : UsbMode} (h : altNewMode mode adbEn tetherEn t adb = some m) : m.Public := by
  have htlb : ∀ en, (usbAltModeTlb mode en t).Public := by
    cases mode <;> cases t <;> simp [UsbMode.Public, usbAltModeTlb]
  cases mode with
  | normal | unknown => cases h
  | debug =>
    simp only [altNewMode, Option.some.injEq] at h
    subst h
    split_ifs <;> simp [UsbMode.Public]
  | bptools | tablet =>
    obtain ⟨en, -, rfl⟩ := Option.map_eq_some_iff.mp h
    exact htlb en

theorem defaultMode_public {mode : ModeType} {adb : CStr} {m : UsbMode}
    (h : defaultMode mode adb = some m) : m.Public := by
  cases mode with
  | normal | unknown => cases h
  | debug | bptools | tablet =>
    simp only [defaultMode, Option.some.injEq] at h
    subst h
    split_ifs <;> simp [UsbMode.Public]

theorem cdromSwitchMode_public (mode : ModeType) (adbEn tethering : Bool) :
    (cdromSwitchMode mode adbEn tethering).Public := by
  cases mode <;> cases adbEn <;> cases tethering <;> simp [UsbMode.Public, cdromSwitchMode]

/-- No request asks for the mode reserved to the factory cable. -/
theorem findModeReq_public {b : Build} {buf : CStr} {i : ℕ} (h : findModeReq b buf = some i) :
    i < UsbMode.max.val ∧ i ≠ UsbMode.networkAdb.val := by
  have hreq := List.find?_some h
  refine ⟨List.mem_range.mp (List.mem_of_find?_eq_some h), ?_⟩
  rintro rfl
  have hnone : (usbModeEntry b UsbMode.networkAdb.val).modeReq = none := rfl
  simp [hnone] at hreq

/-! ## Updates -/

@[simp] theorem setCable_currCableStatus (c : Cable) (s : State) :
    (setCable c s).currCableStatus = c := by
  unfold setCable
  split_ifs <;> rfl

@[simp] theorem usbdSetUsbMode_currUsbMode (b : Build) (m : ℕ) (s : State) :
    (usbdSetUsbMode b m s).currUsbMode = m := by
  unfold usbdSetUsbMode
  split_ifs <;> rfl

@[simp] theorem usbdSetUsbMode_currCableStatus (b : Build) (m : ℕ) (s : State) :
    (usbdSetUsbMode b m s).currCableStatus = s.currCableStatus := by
  unfold usbdSetUsbMode
  split_ifs <;> rfl

@[simp] theorem usbdSetUsbMode_usbdAppFd (b : Build) (m : ℕ) (s : State) :
    (usbdSetUsbMode b m s).usbdAppFd = s.usbdAppFd := by
  unfold usbdSetUsbMode
  split_ifs <;> rfl

/-! ## Stable properties -/

structure Stable (e : Env) (allow fails : Prop) (P : State → Prop) : Prop where
  frame : ∀ {s : State} {st : UsbdState} {n : ℕ} {t : Bool} {d : List CStr} {w : List (ℕ × CStr)},
    P s →
    P { s with currentState := st, usbGetDesCount := n, tetheringEnabled := t, driver := d, sent := w }
  setMode : ∀ {s : State} {m : ℕ}, P s → m < UsbMode.max.val →
    (m = UsbMode.networkAdb.val → allow) →
    P (usbdSetUsbMode e.build m s)
  enableDone : ∀ {s : State}, P s → P (s.enableDone e.build)
  clear : ∀ {s : State} {fd : ℕ}, P s → s.usbdAppFd = some fd → fails → P (clearApp e fd s)

namespace Stable

variable {e : Env} {allow fails : Prop} {P : State → Prop} {s : State}

theorem setPublic (hP : Stable e allow fails P) {m : UsbMode} (hm : m.Public) (h : P s) :
    P (usbdSetUsbMode e.build m.val s) :=
  hP.setMode h (UsbMode.val_lt hm.1) fun hv => absurd (UsbMode.val_injective hv) hm.2

theorem setFactory (hP : Stable e allow fails P) {allowAdb : CStr}
    (ha : allowAdb = "1".toList → allow) (h : P s) :
    P (usbdSetUsbMode e.build (factoryMode allowAdb).val s) := by
  unfold factoryMode
  split_ifs with hadb
  · exact hP.setMode h (by decide) fun _ => ha (by simpa [usbdFactorycableAdbEnabled] using hadb)
  · exact hP.setPublic (by simp [UsbMode.Public]) h

theorem write (hP : Stable e allow fails P) {fd : ℕ} {text : CStr} (h : P s) :
    P (s.write fd text) :=
  hP.frame h

theorem writeApp (hP : Stable e allow fails P) {text : CStr} {ok : Bool} (hok : ok = false → fails)
    (h : P s) : P (writeApp e text ok s) := by
  unfold Usbd.writeApp
  split
  · exact h
  · next hfd =>
    split_ifs with hw
    · exact hP.write h
    · exact hP.clear (hP.write h) hfd (hok (by simpa using hw))

theorem notify (hP : Stable e allow fails P) {fd : ℕ} (h : P s) :
    P (usbdNotifyCurrentStatus fd s) := by
  unfold usbdNotifyCurrentStatus
  split
  · exact h
  · exact hP.write h

theorem enumerateDefaultMode (hP : Stable e allow fails P) {adb : CStr} (h : P s) :
    P (usbdEnumerateDefaultMode e adb s) := by
  unfold usbdEnumerateDefaultMode
  split
  · exact h
  · next hm => exact hP.setPublic (defaultMode_public hm) h

theorem altModeSet (hP : Stable e allow fails P) {adbBuf tetherBuf adb : CStr} (h : P s) :
    P (usbdAltModeSet e adbBuf tetherBuf adb s) := by
  unfold usbdAltModeSet setAltMode
  split_ifs
  · exact h
  · split
    · exact hP.frame h
    · next hm =>
      split_ifs
      · exact hP.setPublic (altNewMode_public hm) (hP.frame h)
      · exact hP.frame h

end Stable

/-- After the message of the application it is still there, or it was removed. -/
theorem handleApp_cases (e : Env) (fd : ℕ) (a : AppInput) (s : State) :
    handleApp e fd a s = (usbdSocketEvent e fd a s).2 ∨
      handleApp e fd a s = clearApp e fd (usbdSocketEvent e fd a s).2 := by
  unfold handleApp
  split
  · next heq => exact .inl (by rw [heq])
  · next heq => exact .inr (by rw [heq])

/-- Which application is connected, as a property for the functions that do not remove it. -/
theorem stable_usbdAppFd (e : Env) (o : Option ℕ) :
    Stable e True False fun s => s.usbdAppFd = o where
  frame h := h
  setMode h _ _ := (usbdSetUsbMode_usbdAppFd _ _ _).trans h
  enableDone h := h
  clear _ _ hf := hf.elim

namespace Stable

variable {e : Env} {allow fails : Prop} {P : State → Prop} {s : State}

/-! ## Uevents and device events -/

theorem notifyApp (hP : Stable e allow fails P) {ok : Bool} (hok : ok = false → fails) (h : P s) :
    P (notifyApp e ok s) := by
  unfold Usbd.notifyApp
  split
  · exact h
  · next hfd =>
    split_ifs with hw
    · exact hP.notify h
    · refine hP.clear (hP.notify h) ((stable_usbdAppFd e _).notify hfd) (hok ?_)
      simpa using fun hw' => hw (.inl hw')

theorem handleCableStatusChange (hP : Stable e allow fails P) {u : UeventInput}
    (hok : u.notifyOk = false → fails)
    (ha : s.currCableStatus = .factory → u.allowAdb = "1".toList → allow) (h : P s) :
    P (usbdHandleCableStatusChange e u s) := by
  unfold usbdHandleCableStatusChange
  split_ifs with hc
  · exact hP.setFactory (ha hc) h
  · exact hP.enumerateDefaultMode (hP.frame h)
  · exact h
  · exact hP.notifyApp hok h

theorem handleUevent (hP : Stable e allow fails P) {u : UeventInput}
    (hok : u.notifyOk = false → fails)
    (ha : newCable u.uevent = some .factory → u.allowAdb = "1".toList → allow)
    (hcable : ∀ c, newCable u.uevent = some c → P (setCable c s)) (h : P s) :
    P (handleUevent e u s) := by
  unfold Usbd.handleUevent
  split
  · next c hc =>
    refine hP.handleCableStatusChange hok (fun hf => ha ?_) (hcable c hc)
    rw [setCable_currCableStatus] at hf
    rw [hc, hf]
  · unfold sendDiskEvent
    split
    · exact hP.write h
    · exact h

theorem enumProcess (hP : Stable e allow fails P) {ok : Bool} (hok : ok = false → fails) (h : P s) :
    P (usbdEnumProcess e ok s) := by
  unfold usbdEnumProcess
  split
  · next hfd _ =>
    split_ifs with hw
    · exact hP.write (hP.enableDone h)
    · exact hP.clear (hP.write (hP.enableDone h)) hfd (hok (by simpa using hw))
  · exact hP.enableDone h

theorem reqModeSwitch (hP : Stable e allow fails P) {d : DeviceInput}
    (hok : d.switchOk = false → fails) (h : P s) : P (usbReqModeSwitch e d s) := by
  unfold usbReqModeSwitch
  split
  · exact h
  · split_ifs
    · exact hP.setPublic (by simp [UsbMode.Public]) h
    · exact h
  · split_ifs
    · exact hP.setPublic (cdromSwitchMode_public _ _ _) h
    · exact hP.writeApp hok h

theorem handleStatusFields (hP : Stable e allow fails P) {d : DeviceInput} (h : P s) :
    P (handleStatusFields e d s) := by
  have hsend : ∀ (send : ℕ → Bool → State → State) (fd : ℕ) (on : Option Bool) {s : State},
      (∀ on, P s → P (send fd on s)) → P s → P (sendField send fd on s) := by
    intro send fd on s hs h
    cases on with
    | none => exact h
    | some v => exact hs v h
  unfold Usbd.handleStatusFields
  split_ifs
  · exact hP.altModeSet h
  · split
    · exact h
    · exact hsend _ _ _ (fun _ => hP.write) (hsend _ _ _ (fun _ => hP.write) h)

theorem handleEnumField (hP : Stable e allow fails P) {d : DeviceInput}
    (hdesc : d.descOk = false → fails) (henum : d.enumOk = false → fails) (h : P s) :
    P (handleEnumField e d s) := by
  unfold Usbd.handleEnumField handleGetDesc
  split_ifs
  · exact hP.writeApp hdesc (hP.frame h)
  · exact hP.frame h
  · exact hP.enumProcess henum (hP.frame h)
  · exact h

theorem handleUsbEvent (hP : Stable e allow fails P) {d : DeviceInput}
    (hok : d.writesOk = false → fails) (h : P s) : P (handleUsbEvent e d s) := by
  have hswitch : d.switchOk = false → fails := fun hf => hok (by simp [DeviceInput.writesOk, hf])
  have hdesc : d.descOk = false → fails := fun hf => hok (by simp [DeviceInput.writesOk, hf])
  have henum : d.enumOk = false → fails := fun hf => hok (by simp [DeviceInput.writesOk, hf])
  have hstatus := hP.handleStatusFields (d := d) h
  unfold Usbd.handleUsbEvent handleSwitchField
  split_ifs
  · exact hP.handleEnumField hdesc henum (hP.reqModeSwitch hswitch hstatus)
  · exact hP.handleEnumField hdesc henum hstatus
  · exact hstatus

theorem handleDevice (hP : Stable e allow fails P) {d : DeviceInput}
    (hok : d.writesOk = false → fails)
    (ha : s.currCableStatus = .factory → d.allowAdb = "1".toList → allow) (h : P s) :
    P (handleDevice e d s) := by
  unfold Usbd.handleDevice
  split_ifs with hc
  · unfold handleFactoryEvent
    split_ifs with hadb
    · exact hP.setMode h (by decide) fun _ =>
        ha hc (by simpa [usbdFactorycableAdbEnabled] using hadb.1)
    · exact hP.setPublic (m := .network) (by simp [UsbMode.Public]) h
    · exact h
  · exact hP.handleUsbEvent hok h

/-! ## The application -/

theorem handleAccept (hP : Stable e allow fails P) {a : AcceptInput}
    (hsave : P (State.updateMaxfd e
      (usbdSaveSocketFd a.newfd { s with accepted := s.accepted ++ [a.newfd] }))) :
    P (handleAccept e a s) := by
  unfold Usbd.handleAccept greetApp
  split_ifs
  · exact hP.notify (hP.write hsave)
  · exact hP.write hsave

theorem bootMode (hP : Stable e allow fails P) {b : BootInput}
    (ha : b.allowAdb = "1".toList → allow) (h : P s) : P (bootMode e b s) := by
  unfold Usbd.bootMode
  split_ifs
  · exact hP.setFactory ha h
  · exact hP.enumerateDefaultMode h
  · exact h
  · exact h

theorem reply (hP : Stable e allow fails P) {fd : ℕ} {text : Option CStr} {ok : Bool} (h : P s) :
    P (reply fd text ok s).2 := by
  unfold Usbd.reply
  split
  · exact h
  · exact hP.write h

theorem answerRequest (hP : Stable e allow fails P) {fd i : ℕ} {a : AppInput}
    (hi : i < UsbMode.max.val ∧ i ≠ UsbMode.networkAdb.val) (h : P s) :
    P (answerRequest e fd a i s).2 := by
  have hr : P (Usbd.reply fd (usbModeEntry e.build i).respOk a.respOk s).2 := hP.reply h
  unfold Usbd.answerRequest
  split
  · next heq =>
    rw [heq] at hr
    exact hr
  · next heq =>
    rw [heq] at hr
    split_ifs
    · exact hP.setMode hr hi.1 fun hv => absurd hv hi.2
    · exact hr
    · exact hP.reply hr

theorem actOn (hP : Stable e allow fails P) {fd : ℕ} {a : AppInput} {buf : CStr} (h : P s)
    (hserve : P { s with served := s.served ++ [buf] }) : P (actOn e fd a buf s).2 := by
  unfold Usbd.actOn
  split
  · exact h
  · next hi =>
    split_ifs
    · exact hP.setMode hserve (findModeReq_public hi).1 fun hv =>
        absurd hv (findModeReq_public hi).2
    · exact hP.answerRequest (findModeReq_public hi) hserve

theorem socketEvent (hP : Stable e allow fails P) {fd : ℕ} {a : AppInput} (h : P s)
    (hserve : ∀ buf, P { s with served := s.served ++ [buf] })
    (hclose : P { s with closed := s.closed ++ [fd] }) : P (usbdSocketEvent e fd a s).2 := by
  unfold usbdSocketEvent
  split
  · exact h
  · exact hclose
  · split_ifs
    · exact h
    · exact hP.actOn h (hserve _)

theorem handleApp (hP : Stable e allow fails P) {fd : ℕ} {a : AppInput} (hfails : fails)
    (hfd : s.usbdAppFd = some fd) (h : P s)
    (hserve : ∀ buf, P { s with served := s.served ++ [buf] })
    (hclose : P { s with closed := s.closed ++ [fd] }) : P (handleApp e fd a s) := by
  have hevent := hP.socketEvent (a := a) h hserve hclose
  have happ : (usbdSocketEvent e fd a s).2.usbdAppFd = some fd :=
    (stable_usbdAppFd e _).socketEvent hfd (fun _ => hfd) hfd
  rcases handleApp_cases e fd a s with heq | heq
  · rw [heq]
    exact hevent
  · rw [heq]
    exact hP.clear hevent happ hfails

end Stable

/-! ## Properties of the mode and the sysfs files -/

/-- `persist.factory.allow_adb` is read in the iteration `i` from `s`, and reads 1: in the uevent
handler or for a device event, in both of them only with a factory cable. -/
def ReadsAllowAdb (e : Env) (s : State) (i : Iter) : Prop :=
  (isSet s i e.ueventSock ∧ newCable i.uevent.uevent = some .factory ∧
    i.uevent.allowAdb = "1".toList) ∨
    (isSet s i e.usbDeviceFd ∧ (ueventPart e s i s).currCableStatus = .factory ∧
      ∃ d, i.device = some d ∧ d.allowAdb = "1".toList)

/-- A stable property that is about nothing but the mode, the sysfs files and their history. -/
structure ModeStable (e : Env) (allow : Prop) (P : State → Prop) : Prop where
  congr : ∀ {s s' : State}, P s → s'.currUsbMode = s.currUsbMode → s'.sysfs = s.sysfs →
    s'.calls = s.calls → P s'
  setMode : ∀ {s : State} {m : ℕ}, P s → m < UsbMode.max.val →
    (m = UsbMode.networkAdb.val → allow) →
    P (usbdSetUsbMode e.build m s)
  enableDone : ∀ {s : State}, P s → P (s.enableDone e.build)

namespace ModeStable

variable {e : Env} {allow : Prop} {P : State → Prop} {s : State}

theorem stable (hP : ModeStable e allow P) : Stable e allow True P where
  frame h := hP.congr h rfl rfl rfl
  setMode := hP.setMode
  enableDone := hP.enableDone
  clear h _ _ := hP.congr h rfl rfl rfl

theorem cable (hP : ModeStable e allow P) (c : Cable) (h : P s) : P (setCable c s) := by
  unfold setCable
  split_ifs <;> exact hP.congr h rfl rfl rfl

theorem save (hP : ModeStable e allow P) (a : AcceptInput) (h : P s) : P (State.updateMaxfd e
    (usbdSaveSocketFd a.newfd { s with accepted := s.accepted ++ [a.newfd] })) := by
  unfold usbdSaveSocketFd
  split <;> exact hP.congr h rfl rfl rfl

/-- **An iteration keeps the property.** -/
theorem iterate_inv (hP : ModeStable e allow P) {i : Iter} (ha : ReadsAllowAdb e s i → allow)
    (h : P s) :
    P (iterate e s i) := by
  refine iterate_rule (fun fd t hfd ht => ?_) (beforeApp_rule (fun hset hs => ?_)
    (fun d hd hset ht => ?_) (fun a t _ ht => ?_) h)
  · exact hP.stable.handleApp trivial hfd ht (fun _ => hP.congr ht rfl rfl rfl)
      (hP.congr ht rfl rfl rfl)
  · exact hP.stable.handleUevent (fun _ => trivial) (fun hc hadb => ha (.inl ⟨hset, hc, hadb⟩))
      (fun c _ => hP.cable c hs) hs
  · exact hP.stable.handleDevice (fun _ => trivial)
      (fun hc hadb => ha (.inr ⟨hset, hc, d, hd, hadb⟩)) ht
  · exact hP.stable.handleAccept (hP.save a ht)

/-- **A property of the initial variables holds when the loop starts.** -/
theorem boot_inv (hP : ModeStable e allow P) {sysfs : Sysfs} {i : BootInput}
    (hinit : ∀ c, P (initState e c sysfs)) (ha : i.allowAdb = "1".toList → allow)
    (hb : boot e sysfs i = some s) : P s := by
  obtain ⟨c, -, rfl⟩ := Option.map_eq_some_iff.mp hb
  exact hP.stable.bootMode ha (hinit c)

end ModeStable

theorem step_eq_some {e : Env} {s s' : State} {i : Iter} (h : step e s i = some s') :
    s' = iterate e s i := by
  unfold step at h
  split_ifs at h
  exact (Option.some.inj h).symm

theorem step_fresh {e : Env} {s s' : State} {i : Iter} (h : step e s i = some s') {a : AcceptInput}
    (ha : i.accept = some a) : freshFd e s a.newfd = true := by
  unfold step at h
  split_ifs at h with hall
  rw [ha] at hall
  exact hall

/-- **Run rule**: what holds when the loop starts and is kept by an iteration holds after every
run. -/
theorem run_inv {e : Env} {sysfs : Sysfs} {i : BootInput} {l : List Iter} {s : State}
    {P : State → Prop} (hboot : ∀ s, boot e sysfs i = some s → P s)
    (hiter : ∀ s i, P s → P (iterate e s i)) (h : run e sysfs i l = some s) : P s := by
  obtain ⟨s₀, hs₀, hrun⟩ := Option.bind_eq_some_iff.mp h
  refine Machine.exec_inv (fun t i t' ht hstep => ?_) (hboot s₀ hs₀) hrun
  rw [step_eq_some hstep]
  exact hiter t i ht

end Omap4.Usbd
