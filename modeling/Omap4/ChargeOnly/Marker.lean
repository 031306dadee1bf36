import Omap4.Machine
import Omap4.CString

/-!
# Omap4.ChargeOnly.Marker — the file that tells of a charge-only session

`charge_only_mode` writes `/data/chargeonlymode` when it starts (`save_mode`) and truncates it where
it exits (`clear_mode`).  When the phone boots after a panic or a watchdog reset, `mot_boot_mode`
looks at the file to know in which mode the phone was (`check_com_reset`).

A run is a list of cycles, each a boot and the session after it.  Inputs are what the boot reads of
the bootloader, which file operations work, and how far a session comes: a session that is cut in
`save_mode` has written a part of the text, and one that is cut later has truncated the file as
often as it came to do so.
-/

namespace Omap4.ChargeOnly

/-! ## The boot (`mot_boot_mode.c`) -/

/-- What a boot finds: the property `ro.bootmode`, the content of `/proc/bootinfo` if it can be
read, and whether the marker file can be opened and read. -/
structure Boot where
  bootmode : CStr
  bootinfo : Option (List Char)
  comOk : Bool
  deriving DecidableEq, Repr

/-- `bootreason` of `check_bootinfo`, which is empty when the field is not there. -/
def bootreason (field data : CStr) : CStr :=
  match (CStr.strstr field data).bind (CStr.strstr ": ".toList) with
  | none => []
  | some x => ((x.drop 2).takeWhile fun c => ¬ CStr.isSpace c).take 31

def checkBootinfo (info : Option (List Char)) (field value : CStr) : Bool :=
  match info with
  | none => false
  | some data => bootreason field (CStr.ofBuffer (data.take 1023)) = value

/-- `MOTO_PU_REASON_CHARGE_ONLY` and the reasons of an abnormal reboot. -/
def puReasonChargeOnly : CStr := "0x00000100".toList
def puReasonCpcapReset : CStr := "0x00040000".toList
def puReasonKpanic : CStr := "0x00020000".toList
def puReasonWdreset : CStr := "0x00008000".toList

def checkAbnormalReboot (b : Boot) : Bool :=
  "kpanic".toList.isPrefixOf b.bootmode || "wdreset".toList.isPrefixOf b.bootmode ||
    "wdcpcap".toList.isPrefixOf b.bootmode ||
    checkBootinfo b.bootinfo "POWERUPREASON".toList puReasonKpanic ||
    checkBootinfo b.bootinfo "POWERUPREASON".toList puReasonWdreset ||
    checkBootinfo b.bootinfo "POWERUPREASON".toList puReasonCpcapReset

/-- `COM_MAX_MODE_LENGTH`. -/
def comMaxModeLength : ℕ := 20

/-- The text that `check_com_reset` compares. -/
def isCharging (content : List Char) : Bool :=
  "charging".toList.isPrefixOf (CStr.ofBuffer (content.take comMaxModeLength))

/-- The result and the file afterwards.  Every branch returns before the `ftruncate`. -/
def checkComReset (ok : Bool) (file : Option (List Char)) : Bool × Option (List Char) :=
  match ok, file with
  | true, some content => if content = [] then (false, file) else (isCharging content, file)
  | _, _ => (false, file)

/-- The reasons that are themselves those of a charge-only boot. -/
def chargeOnlyReason (b : Boot) : Bool :=
  "charger".toList.isPrefixOf b.bootmode ||
    checkBootinfo b.bootinfo "POWERUPREASON".toList puReasonChargeOnly

def bootReasonChargeOnly (b : Boot) (file : Option (List Char)) : Bool × Option (List Char) :=
  if chargeOnlyReason b then (true, file)
  else if checkAbnormalReboot b then checkComReset b.comOk file
  else (false, file)

/-! ## The sessions (`main.c`) -/

/-- How far `save_mode` comes: the file is not opened, or opened and `n` bytes of the text are
written. -/
inductive Save
  | notOpened
  | written (n : ℕ)
  deriving DecidableEq, Repr

/-- The file is created if need be, and not truncated. -/
def saveMode (save : Save) (file : Option (List Char)) : Option (List Char) :=
  match save with
  | .notOpened => file
  | .written n => some (CStr.overwrite ("charging".toList ++ [CStr.nul]) n (file.getD []))

/-- `truncate`, which fails where there is no file. -/
def clearMode (ok : Bool) (file : Option (List Char)) : Option (List Char) :=
  if ok then file.map fun _ => [] else file

/-- A charge-only session with the outcome of its `save_mode` and those of the calls of `clear_mode`
that it came to, or a normal one. -/
inductive Session
  | charge (save : Save) (clears : List Bool)
  | normal
  deriving DecidableEq, Repr

def Session.isCharge : Session → Bool
  | .charge _ _ => true
  | .normal => false

/-- What a session does to the file. -/
def Session.run (file : Option (List Char)) : Session → Option (List Char)
  | .charge save clears => clears.foldl (fun file ok => clearMode ok file) (saveMode save file)
  | .normal => file

structure Cycle where
  boot : Boot
  session : Session
  deriving DecidableEq, Repr

structure Marker where
  file : Option (List Char)
  /-- the session before the next boot -/
  previous : Option Session
  deriving DecidableEq, Repr

def cycle (s : Marker) (c : Cycle) : Option Marker :=
  some { file := c.session.run (bootReasonChargeOnly c.boot s.file).2, previous := some c.session }

/-- `/data` is new. -/
def newData : Marker := ⟨none, none⟩

/-! ## What a boot concludes -/

/-- A boot after a reset, which is not itself charge-only, takes the phone for charging only if it
was. -/
def ReadsBack (s : Marker) : Prop :=
  ∀ b, checkAbnormalReboot b = true → chargeOnlyReason b = false →
    (bootReasonChargeOnly b s.file).1 = true → s.previous.any Session.isCharge = true

/-- The file says that the phone was charging. -/
def Marker.marked (s : Marker) : Bool := s.file.any isCharging

theorem bootReasonChargeOnly_file (b : Boot) (file : Option (List Char)) :
    (bootReasonChargeOnly b file).2 = file := by
  unfold bootReasonChargeOnly checkComReset
  split_ifs
  · rfl
  · split
    · split_ifs <;> rfl
    · rfl
  · rfl

theorem bootReasonChargeOnly_abnormal {b : Boot} (ha : checkAbnormalReboot b = true)
    (hc : chargeOnlyReason b = false) (s : Marker) :
    (bootReasonChargeOnly b s.file).1 = (b.comOk && s.marked) := by
  rw [bootReasonChargeOnly, if_neg (by simp [hc]), if_pos ha]
  unfold checkComReset Marker.marked
  cases hok : b.comOk with
  | false => rfl
  | true =>
    cases s.file with
    | none => rfl
    | some content =>
      dsimp only
      split_ifs with hempty
      · rw [hempty]
        rfl
      · rfl

/-- A boot after a panic. -/
def kpanicBoot : Boot := ⟨"kpanic".toList, none, true⟩

theorem readsBack_iff (s : Marker) :
    ReadsBack s ↔ s.previous.any Session.isCharge = true ∨ s.marked = false := by
  constructor
  · intro h
    by_cases hm : s.marked = true
    · refine .inl (h kpanicBoot rfl rfl ?_)
      rw [bootReasonChargeOnly_abnormal rfl rfl, hm]
      rfl
    · exact .inr (by simpa using hm)
  · intro h b ha hc hone
    rw [bootReasonChargeOnly_abnormal ha hc, Bool.and_eq_true] at hone
    refine h.resolve_right fun hm => ?_
    rw [hm] at hone
    cases hone.2

/-- No normal session starts with a file that says the phone was charging. -/
def StartsUnmarked (s : Marker) (c : Cycle) : Prop := c.session = .normal → s.marked = false

theorem readsBack_cycle_iff {s s' : Marker} {c : Cycle} (h : cycle s c = some s') :
    ReadsBack s' ↔ StartsUnmarked s c := by
  obtain rfl := Option.some.inj h
  rw [readsBack_iff, StartsUnmarked]
  cases hc : c.session with
  | charge save clears => simp [Session.isCharge]
  | normal => simp [Session.isCharge, Session.run, Marker.marked, bootReasonChargeOnly_file]

theorem readsBack_newData : ReadsBack newData := (readsBack_iff _).mpr (.inr rfl)

/-- **When the marker can be trusted.**  In a run of boots and sessions, every boot after a reset
takes the phone for charging only if it was, if and only if no normal session started while the file
still said so: nothing clears the marker of a charge-only session that was cut. -/
theorem marker_trusted_iff (l : List Cycle) :
    (∀ pre s, pre <+: l → Machine.exec cycle newData pre = some s → ReadsBack s) ↔
      Machine.Along cycle (fun s c => c.session = .normal → s.marked = false) newData l :=
  Machine.forall_exec_iff_along (fun _ _ h => by cases h)
    (fun _ _ _ _ => readsBack_cycle_iff) l newData readsBack_newData

/-- The battery is taken out while the phone charges; then it is used, and panics. -/
def staleRun : List Cycle :=
  [⟨⟨"charger".toList, none, true⟩, .charge (.written 9) []⟩,
    ⟨⟨"normal".toList, none, true⟩, .normal⟩]

theorem marker_stale :
    ∃ s, Machine.exec cycle newData staleRun = some s ∧ s.previous = some .normal ∧
      (bootReasonChargeOnly kpanicBoot s.file).1 = true ∧ ¬ ReadsBack s := by
  obtain ⟨s, hrun, hprev, hone⟩ : ∃ s, Machine.exec cycle newData staleRun = some s ∧
      s.previous = some .normal ∧ (bootReasonChargeOnly kpanicBoot s.file).1 = true :=
      ⟨_, rfl, rfl, rfl⟩
  refine ⟨s, hrun, hprev, hone, fun h => ?_⟩
  have hcharge := h kpanicBoot rfl rfl hone
  rw [hprev] at hcharge
  cases hcharge

end Omap4.ChargeOnly
