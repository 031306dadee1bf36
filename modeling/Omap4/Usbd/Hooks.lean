import Omap4.Usbd.Lock

/-!
# Omap4.Usbd.Hooks — the hooks of the modes are balanced

The hooks of a mode run at different moments: `pre_disable` and `disable_done` when it is left,
`pre_enable` when it is entered, `enable_done` whenever the host has enumerated the device, which
may be never or many times in between.  What they do to the sysfs files depends on two kinds of
modes only (`leave_sysfs`, `preEnable_sysfs`, `enableDone_sysfs`, over the whole table), and so the
files always fit the current mode (`modes_balanced`).
-/

namespace Omap4.Usbd

def UsbMode.isCdrom (m : UsbMode) : Bool := m = .cdrom || m = .cdrom2

def UsbMode.isMsc (m : UsbMode) : Bool := m = .msc || m = .mscOnly || m = .mscAdb

section Table

variable {b : Build} (hb : b.msdCdrom = false) (m : UsbMode) (f : Sysfs)

include hb

theorem leave_sysfs : (usbModeEntry b m.val).disableDone ((usbModeEntry b m.val).preDisable f) =
    { f with cdrom := f.cdrom && !m.isCdrom, massStorage := f.massStorage && !m.isMsc } := by
  obtain ⟨r, t, c⟩ := b
  obtain ⟨cd, ej, ms⟩ := f
  subst hb
  cases m <;> cases cd <;> cases ms <;> rfl

theorem preEnable_sysfs : (usbModeEntry b m.val).preEnable f =
    { f with cdrom := f.cdrom || m.isCdrom } := by
  obtain ⟨r, t, c⟩ := b
  obtain ⟨cd, ej, ms⟩ := f
  subst hb
  cases m <;> cases cd <;> rfl

theorem enableDone_sysfs : (usbModeEntry b m.val).enableDone f =
    { f with massStorage := f.massStorage || m.isMsc } := by
  obtain ⟨r, t, c⟩ := b
  obtain ⟨cd, ej, ms⟩ := f
  subst hb
  cases m <;> cases ms <;> rfl

end Table

/-- The files fit the mode. -/
def Balanced (m : ℕ) (f : Sysfs) : Prop :=
  ∃ u : UsbMode, u.val = m ∧ f.cdrom = u.isCdrom ∧ (f.massStorage = true → u.isMsc = true)

/-- They do now, and did after each call. -/
def AllBalanced (s : State) : Prop :=
  Balanced s.currUsbMode s.sysfs ∧ ∀ c ∈ s.calls, Balanced c.1 c.2

theorem AllBalanced.record {s s₀ : State} (h₀ : AllBalanced s₀) (hc : s.calls = s₀.calls)
    (h : Balanced s.currUsbMode s.sysfs) : AllBalanced s.record := by
  refine ⟨h, fun c hmem => ?_⟩
  rcases List.mem_append.mp hmem with hmem | hmem
  · exact h₀.2 c (hc ▸ hmem)
  · rw [List.mem_singleton.mp hmem]
    exact h

variable {b : Build} {s : State}

/-- A mode that is left takes back what it has set. -/
theorem leaveMode_off (hb : b.msdCdrom = false) (h : Balanced s.currUsbMode s.sysfs) :
    (s.leaveMode b).sysfs.cdrom = false ∧ (s.leaveMode b).sysfs.massStorage = false := by
  obtain ⟨u, hu, hcd, hms⟩ := h
  have hleave : (s.leaveMode b).sysfs = { s.sysfs with
      cdrom := s.sysfs.cdrom && !u.isCdrom
      massStorage := s.sysfs.massStorage && !u.isMsc } := by
    rw [← leave_sysfs hb u s.sysfs, hu]
    rfl
  rw [hleave, hcd]
  refine ⟨Bool.and_not_self _, ?_⟩
  cases hm : s.sysfs.massStorage with
  | false => rfl
  | true => simp [hms hm]

theorem usbdSetUsbMode_balanced (hb : b.msdCdrom = false) {m : ℕ} (hm : m < UsbMode.max.val)
    (h : AllBalanced s) : AllBalanced (usbdSetUsbMode b m s) := by
  obtain ⟨u, rfl⟩ : ∃ u : UsbMode, u.val = m := ⟨_, usbModeEntry_mode b hm.le⟩
  obtain ⟨hcd, hms⟩ := leaveMode_off hb h.1
  unfold usbdSetUsbMode
  split_ifs with hmin
  · obtain rfl := UsbMode.val_injective hmin
    exact h.record rfl ⟨.min, rfl, hcd, fun ht => absurd (hms.symm.trans ht) nofun⟩
  · have henter : ((({ s.leaveMode b with currUsbMode := u.val } : State).enterMode b).sysfs) =
        { (s.leaveMode b).sysfs with cdrom := (s.leaveMode b).sysfs.cdrom || u.isCdrom } :=
      preEnable_sysfs hb u _
    refine h.record rfl ⟨u, rfl, ?_, ?_⟩
    · rw [henter]
      exact (congrArg (· || u.isCdrom) hcd).trans (Bool.false_or _)
    · rw [henter]
      exact fun ht => absurd (hms.symm.trans ht) nofun

theorem enableDone_balanced (hb : b.msdCdrom = false) (h : AllBalanced s) :
    AllBalanced (s.enableDone b) := by
  obtain ⟨u, hu, hcd, hms⟩ := h.1
  refine h.record rfl ⟨u, hu, ?_, ?_⟩
  · rw [← hu, enableDone_sysfs hb]
    exact hcd
  · rw [← hu, enableDone_sysfs hb]
    intro ht
    rcases Bool.or_eq_true _ _ ▸ ht with ht | ht
    · exact hms ht
    · exact ht

theorem stable_allBalanced {e : Env} (hb : e.build.msdCdrom = false) :
    ModeStable e True AllBalanced where
  congr h hm hf hc := by
    unfold AllBalanced
    rw [hm, hf, hc]
    exact h
  setMode h hm _ := usbdSetUsbMode_balanced hb hm h
  enableDone h := enableDone_balanced hb h

theorem Balanced.spec {m : ℕ} {f : Sysfs} (h : Balanced m f) :
    (f.cdrom = true ↔ m = UsbMode.cdrom.val ∨ m = UsbMode.cdrom2.val) ∧
    (f.massStorage = true →
      m = UsbMode.msc.val ∨ m = UsbMode.mscOnly.val ∨ m = UsbMode.mscAdb.val) ∧
    ((usbModeList b)[m]?.map fun x => x.mode.val) = some m := by
  obtain ⟨u, rfl, hcd, hms⟩ := h
  refine ⟨?_, ?_, ?_⟩
  · rw [hcd]
    cases u <;> decide
  · intro ht
    have hmsc := hms ht
    cases u <;> first | exact absurd hmsc (by decide) | decide
  · cases u <;> rfl

/-- **The hooks are balanced.**  From sysfs files at 0 and without `MSD_CDROM_ENABLED`, after every
call of `usbd_set_usb_mode` and `usbd_enum_process` in any run: the CD-ROM parameter is set exactly
in the CD-ROM modes, mass storage is enabled only in the mass storage modes, and the mode is the
index of its own entry. -/
theorem modes_balanced {e : Env} {sysfs : Sysfs} {i : BootInput} {l : List Iter} {s : State}
    (hb : e.build.msdCdrom = false) (hcd : sysfs.cdrom = false) (hms : sysfs.massStorage = false)
    (h : run e sysfs i l = some s) :
    ∀ c ∈ s.calls,
      (c.2.cdrom = true ↔ c.1 = UsbMode.cdrom.val ∨ c.1 = UsbMode.cdrom2.val) ∧
      (c.2.massStorage = true →
        c.1 = UsbMode.msc.val ∨ c.1 = UsbMode.mscOnly.val ∨ c.1 = UsbMode.mscAdb.val) ∧
      ((usbModeList e.build)[c.1]?.map fun x => x.mode.val) = some c.1 := by
  have hstable := stable_allBalanced hb
  have hinit : ∀ c, AllBalanced (initState e c sysfs) := fun c =>
    ⟨⟨.min, rfl, hcd, fun ht => absurd (hms.symm.trans ht) nofun⟩, nofun⟩
  have hall : AllBalanced s := by
    refine run_inv (fun s hs => hstable.boot_inv hinit (fun _ => trivial) hs) ?_ h
    exact fun s i hs => hstable.iterate_inv (fun _ => trivial) hs
  exact fun c hc => (hall.2 c hc).spec

/-- The application asks for the CD-ROM, the host enumerates the device and changes to the second
CD-ROM; the application asks for mass storage, and the host enumerates the device twice. -/
def switchRun : List Iter :=
  [acceptIter 6, requestIter 6 "usb_mode_ngp".toList,
    deviceIter (deviceEvent "none".toList "none".toList "enumerated".toList "0".toList),
    deviceIter (deviceEvent "cdrom2".toList "none".toList "none".toList "0".toList),
    requestIter 6 "usb_mode_msc".toList,
    deviceIter (deviceEvent "none".toList "none".toList "enumerated".toList "0".toList),
    deviceIter (deviceEvent "none".toList "none".toList "enumerated".toList "0".toList)]

theorem modes_balanced_switchRun :
    ∃ s, run normalEnv sysfsOff ⟨some '1', "0".toList, "0".toList⟩ switchRun = some s ∧
      s.calls.map (fun c => (c.1, c.2.cdrom, c.2.massStorage)) =
        [(2, true, false), (2, true, false), (19, true, false), (4, false, false), (4, false, true),
          (4, false, true)] ∧
      ∀ c ∈ s.calls, ((usbModeList normalEnv.build)[c.1]?.map fun x => x.mode.val) = some c.1 := by
  obtain ⟨s, hrun, hcalls⟩ :
      ∃ s, run normalEnv sysfsOff ⟨some '1', "0".toList, "0".toList⟩ switchRun = some s ∧
        s.calls.map (fun c => (c.1, c.2.cdrom, c.2.massStorage)) =
          [(2, true, false), (2, true, false), (19, true, false), (4, false, false),
            (4, false, true), (4, false, true)] :=
    ⟨_, rfl, rfl⟩
  exact ⟨s, hrun, hcalls, fun c hc => (modes_balanced rfl rfl rfl hrun c hc).2.2⟩

end Omap4.Usbd
