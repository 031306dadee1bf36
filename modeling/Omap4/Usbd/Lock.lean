import Omap4.Usbd.Handlers

/-!
# Omap4.Usbd.Lock — the factory cable locks the mode

As long as a factory cable is connected the mode is one of the two network modes (`Locked`),
whatever the applications and the device send.  The uevent handler sets such a mode when the cable
is connected; every other handler leaves the cable as it is (`handleUsbEvent_cable` and the lemmas
after it), and with a factory cable either leaves the mode as well or sets one of the two.
-/

namespace Omap4.Usbd

def Locked (s : State) : Prop :=
  s.currCableStatus = .factory →
    s.currUsbMode = UsbMode.network.val ∨ s.currUsbMode = UsbMode.networkAdb.val

theorem factoryMode_cases (allowAdb : CStr) :
    factoryMode allowAdb = .network ∨ factoryMode allowAdb = .networkAdb := by
  unfold factoryMode
  split_ifs <;> simp

theorem locked_setFactory (b : Build) (allowAdb : CStr) (s : State) :
    Locked (usbdSetUsbMode b (factoryMode allowAdb).val s) := by
  intro _
  rw [usbdSetUsbMode_currUsbMode]
  exact (factoryMode_cases allowAdb).imp (congrArg UsbMode.val) (congrArg UsbMode.val)

/-! ## The cable -/

variable {e : Env} {s : State}

/-- Which cable is connected is a stable property, so only the uevent handler can change it. -/
theorem stable_cable (e : Env) (c : Cable) : Stable e True True fun s => s.currCableStatus = c where
  frame h := h
  setMode h _ _ := (usbdSetUsbMode_currCableStatus _ _ _).trans h
  enableDone h := h
  clear h _ _ := h

theorem handleUsbEvent_cable (d : DeviceInput) :
    (handleUsbEvent e d s).currCableStatus = s.currCableStatus :=
  (stable_cable e _).handleUsbEvent (fun _ => trivial) rfl

theorem handleAccept_cable (a : AcceptInput) :
    (handleAccept e a s).currCableStatus = s.currCableStatus := by
  refine (stable_cable e _).handleAccept ?_
  unfold usbdSaveSocketFd
  split <;> rfl

theorem handleApp_cable {fd : ℕ} (hfd : s.usbdAppFd = some fd) (a : AppInput) :
    (handleApp e fd a s).currCableStatus = s.currCableStatus :=
  (stable_cable e _).handleApp trivial hfd rfl (fun _ => rfl) rfl

/-! ## The handlers -/

theorem handleUevent_locked (u : UeventInput) (h : Locked s) : Locked (handleUevent e u s) := by
  unfold handleUevent
  split
  · next c _ =>
    by_cases hc : c = .factory
    · subst hc
      have heq : usbdHandleCableStatusChange e u (setCable .factory s) =
          usbdSetUsbMode e.build (factoryMode u.allowAdb).val (setCable .factory s) := by
        rw [usbdHandleCableStatusChange, if_pos (setCable_currCableStatus _ _)]
      rw [heq]
      exact locked_setFactory _ _ _
    · intro hf
      have hkeep : (usbdHandleCableStatusChange e u (setCable c s)).currCableStatus = c :=
        (stable_cable e c).handleCableStatusChange (fun _ => trivial) (fun _ _ => trivial)
          (setCable_currCableStatus c s)
      exact absurd (hkeep.symm.trans hf) hc
  · unfold sendDiskEvent
    split <;> exact h

theorem handleDevice_locked (d : DeviceInput) (h : Locked s) : Locked (handleDevice e d s) := by
  unfold handleDevice
  split_ifs with hc
  · unfold handleFactoryEvent
    split_ifs
    · exact fun _ => .inr (usbdSetUsbMode_currUsbMode _ _ _)
    · exact fun _ => .inl (usbdSetUsbMode_currUsbMode _ _ _)
    · exact h
  · exact fun hf => absurd ((handleUsbEvent_cable d).symm.trans hf) hc

/-- A connection never changes the mode. -/
theorem handleAccept_mode (a : AcceptInput) : (handleAccept e a s).currUsbMode = s.currUsbMode := by
  unfold handleAccept greetApp usbdNotifyCurrentStatus usbdSaveSocketFd
  split_ifs <;> split <;> (try split) <;> rfl

theorem handleAccept_locked (a : AcceptInput) (h : Locked s) : Locked (handleAccept e a s) := by
  intro hf
  rw [handleAccept_cable] at hf
  rw [handleAccept_mode]
  exact h hf

/-- Neither does a message of the application with a factory cable: it is read and ignored. -/
theorem handleApp_mode (fd : ℕ) (a : AppInput) (hc : s.currCableStatus = .factory) :
    (handleApp e fd a s).currUsbMode = s.currUsbMode := by
  have hevent : (usbdSocketEvent e fd a s).2.currUsbMode = s.currUsbMode := by
    unfold usbdSocketEvent
    split
    · rfl
    · rfl
    · rw [if_pos hc]
  rcases handleApp_cases e fd a s with heq | heq
  · rw [heq]
    exact hevent
  · rw [heq]
    exact hevent

theorem handleApp_locked {fd : ℕ} (hfd : s.usbdAppFd = some fd) (a : AppInput) (h : Locked s) :
    Locked (handleApp e fd a s) := by
  intro hf
  rw [handleApp_cable hfd] at hf
  rw [handleApp_mode fd a hf]
  exact h hf

/-! ## The loop -/

theorem iterate_locked (i : Iter) (h : Locked s) : Locked (iterate e s i) :=
  iterate_rule (fun _ _ hfd => handleApp_locked hfd i.app)
    (beforeApp_rule (fun _ => handleUevent_locked i.uevent) (fun d _ _ => handleDevice_locked d)
      (fun a _ _ => handleAccept_locked a) h)

theorem boot_locked {sysfs : Sysfs} {i : BootInput} (h : boot e sysfs i = some s) : Locked s := by
  obtain ⟨c, -, rfl⟩ := Option.map_eq_some_iff.mp h
  unfold bootMode
  split_ifs with hon hf halt
  · exact locked_setFactory _ _ _
  · intro hc
    have hkeep : (usbdEnumerateDefaultMode e i.adb (initState e c sysfs)).currCableStatus = c :=
      (stable_cable e c).enumerateDefaultMode rfl
    exact absurd (hkeep.symm.trans hc) hf
  · exact fun hc => absurd hc hf
  · intro hc
    have hcf : c = .factory := hc
    subst hcf
    exact absurd rfl hon

/-- The mode is only entered where it is allowed, or was the mode before. -/
theorem stable_networkAdb (e : Env) (allow : Prop) :
    ModeStable e allow fun s => s.currUsbMode = UsbMode.networkAdb.val → allow where
  congr h hm _ _ hv := h (hm ▸ hv)
  setMode _ _ ha hv := ha ((usbdSetUsbMode_currUsbMode _ _ _).symm.trans hv)
  enableDone h := h

/-- **The factory cable locks the mode.**  In every state at the top of the loop: with a factory
cable the mode is one of the two network modes; the next iteration makes it `USB_MODE_NETWORK_ADB`
only if `persist.factory.allow_adb` reads 1 in it, and so did the start; and no message of an
application, whenever it is handled with a factory cable, changes the mode. -/
theorem factory_locked {e : Env} {sysfs : Sysfs} {b : BootInput} {l : List Iter} {s : State}
    (h : run e sysfs b l = some s) :
    (s.currCableStatus = .factory →
      s.currUsbMode = UsbMode.network.val ∨ s.currUsbMode = UsbMode.networkAdb.val) ∧
    (∀ i s', step e s i = some s' → s'.currUsbMode = UsbMode.networkAdb.val →
      s.currUsbMode = UsbMode.networkAdb.val ∨ ReadsAllowAdb e s i) ∧
    (l = [] → s.currUsbMode = UsbMode.networkAdb.val → b.allowAdb = "1".toList) ∧
    (∀ (t : State) (fd : ℕ) (a : AppInput), t.currCableStatus = .factory →
      (handleApp e fd a t).currUsbMode = t.currUsbMode) := by
  refine ⟨?_, ?_, ?_, fun t fd a hc => handleApp_mode fd a hc⟩
  · exact run_inv (P := Locked) (fun s hs => boot_locked hs) (fun s i => iterate_locked i) h
  · intro i s' hstep hm
    rw [step_eq_some hstep] at hm
    exact (stable_networkAdb e _).iterate_inv (s := s) .inr .inl hm
  · rintro rfl hm
    have hb : boot e sysfs b = some s := by
      simpa [run] using h
    have hinit : ∀ c, (initState e c sysfs).currUsbMode ≠ UsbMode.networkAdb.val :=
      fun _ hv => by cases hv
    exact (stable_networkAdb e _).boot_inv (fun c hv => absurd hv (hinit c)) id hb hm

/-! ## A run with a factory cable -/

/-- A phone started up in normal mode. -/
def normalEnv : Env where
  build := ⟨false, false, false⟩
  usbMode := "normal".toList
  androidConfig := "0".toList
  bootmode := "normal".toList
  ueventSock := 3
  usbDeviceFd := 4
  serverSock := 5

/-- An iteration in which nothing is ready. -/
def idleIter : Iter where
  ready _ := false
  uevent := ⟨.ignored, "0".toList, "0".toList, true⟩
  device := none
  accept := none
  app := ⟨.error, true, true⟩

def acceptIter (fd : ℕ) : Iter :=
  { idleIter with ready := (· = 5), accept := some ⟨fd, "0".toList⟩ }

def requestIter (fd : ℕ) (buf : List Char) : Iter :=
  { idleIter with ready := (· = fd), app := ⟨.data buf, true, true⟩ }

def deviceEvent (pcSwitch adbEnable enu allowAdb : CStr) : DeviceInput where
  pcSwitch := pcSwitch
  adbEnable := adbEnable
  tetheringEnable := "none".toList
  enu := enu
  allowAdb := allowAdb
  altAdb := "0".toList
  switchAdb := "0".toList
  switchOk := true
  descOk := true
  enumOk := true

def deviceIter (d : DeviceInput) : Iter := { idleIter with ready := (· = 4), device := some d }

/-- The phone starts with a factory cable, an application connects and asks for mass storage, and
adb is enabled. -/
def factoryRun : List Iter :=
  [acceptIter 6, requestIter 6 "usb_mode_msc".toList,
    deviceIter (deviceEvent "none".toList "adb_enable".toList "none".toList "1".toList)]

/-- Nothing is mounted. -/
def sysfsOff : Sysfs := ⟨false, false, false⟩

theorem factory_locked_adb :
    ∃ s, run normalEnv sysfsOff ⟨some '2', "0".toList, "0".toList⟩ factoryRun = some s ∧
      s.currCableStatus = .factory ∧ s.driver = ["eth".toList, "eth_adb".toList] ∧
      (s.currUsbMode = UsbMode.network.val ∨ s.currUsbMode = UsbMode.networkAdb.val) := by
  obtain ⟨s, hrun, hc, hd⟩ :
      ∃ s, run normalEnv sysfsOff ⟨some '2', "0".toList, "0".toList⟩ factoryRun = some s ∧
        s.currCableStatus = .factory ∧ s.driver = ["eth".toList, "eth_adb".toList] :=
    ⟨_, rfl, rfl, rfl⟩
  exact ⟨s, hrun, hc, hd, (factory_locked hrun).1 hc⟩

end Omap4.Usbd
