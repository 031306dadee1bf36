import Omap4.Motobox.Config

/-!
# Omap4.Motobox.Setconfig — requesting a configuration (`setconfig.c`)

A request is spread over four places: the file `new-config-id`, the command file of the recovery,
the package that is staged in `/cache`, and the message for the bootloader (`Store.pending`).
`setconfig_main` writes them one after the other.

Every file operation has an outcome as input: whether it works, and for a `write` how many bytes it
takes. A copy leaves whatever it leaves, and so does a message that could not be set.

A failure should leave the request as it was.  `setconfig_atomic_iff` says when it does:
`Undisturbed` goes through the points where the call can fail and says of each what must have been
there before.
-/

namespace Omap4.Motobox

/-! ## The code -/

/-- What is used of `struct bootloader_message`. -/
structure BootMsg where
  command : CStr
  recovery : CStr
  deriving DecidableEq, Repr

/-- No command, or an erased one. -/
def BootMsg.isClean (m : BootMsg) : Bool :=
  m.command = [] || m.command.head? = some (Char.ofNat 255)

structure Store where
  /-- whether `/cache/recovery` exists -/
  folder : Bool
  command : Option (List Char)
  newConfigId : Option (List Char)
  /-- `/cache/update_config.zip` -/
  package : Option (List Char)
  noEraseData : Option (List Char)
  boot : BootMsg
  deriving DecidableEq, Repr

structure FolderOutcome where
  statOk : Bool
  mkdirOk : Bool
  chmodOk : Bool
  deriving DecidableEq, Repr

def createRecoveryFolder (o : FolderOutcome) (s : Store) : Bool × Store :=
  if ¬ o.statOk then (false, s)
  else if s.folder then (true, s)
  else if ¬ o.mkdirOk then (false, s)
  else (o.chmodOk, { s with folder := true })

structure AppendOutcome where
  folder : FolderOutcome
  statOk : Bool
  createOk : Bool
  openOk : Bool
  written : ℕ
  deriving DecidableEq, Repr

/-- The `open` with `O_APPEND` and the `write`. -/
def appendText (text : CStr) (o : AppendOutcome) (s : Store) : Bool × Store :=
  if ¬ o.openOk then (false, s)
  else (text.length ≤ o.written, { s with command := s.command.map (· ++ text.take o.written) })

/-- The command file is created where there is none. -/
def openCommand (text : CStr) (o : AppendOutcome) (s : Store) : Bool × Store :=
  if ¬ o.statOk then (false, s)
  else if s.command = none ∧ ¬ o.createOk then (false, s)
  else appendText text o { s with command := some (s.command.getD []) }

/-- What `set_cache_command` and `set_wipe_command` do with their texts. -/
def appendCommand (text : CStr) (o : AppendOutcome) (s : Store) : Bool × Store :=
  match createRecoveryFolder o.folder s with
  | (false, s) => (false, s)
  | (true, s) => openCommand text o s

/-- `MULTICONFIG_COMMAND`. -/
def multiconfigCommand : CStr := "--update_package=CACHE:update_config.zip".toList

/-- `RECOVERY_COMMAND`. -/
def recoveryCommand : CStr := "recovery\n--update_package=CACHE:update_config.zip".toList

def bootRecovery : CStr := "boot-recovery".toList

def setCacheCommand (o : AppendOutcome) (s : Store) : Bool × Store :=
  appendCommand multiconfigCommand o s

/-- `setMsg` is what a failed `set_bootloader_message` leaves, or `none` if it works. -/
structure RecoveryOutcome where
  getOk : Bool
  append : AppendOutcome
  setMsg : Option BootMsg
  deriving DecidableEq, Repr

def setRecovery (o : RecoveryOutcome) (s : Store) : ConfigErr × Store :=
  if ¬ o.getOk then (.setRecovery, s)
  else if ¬ s.boot.isClean then
    if s.boot.command = bootRecovery then
      match setCacheCommand o.append s with
      | (true, s) => (.none, s)
      | (false, s) => (.setRecovery, s)
    else (.setRecovery, s)
  else match o.setMsg with
    | none => (.none, { s with boot := ⟨bootRecovery, recoveryCommand⟩ })
    | some left => (.setRecovery, { s with boot := left })

structure ConfigOutcome where
  folder : FolderOutcome
  statOk : Bool
  unlinkOk : Bool
  openOk : Bool
  written : ℕ
  deriving DecidableEq, Repr

/-- The `open` with `O_CREAT` and the `write`. -/
def writeConfig (confid : CStr) (o : ConfigOutcome) (s : Store) : Bool × Store :=
  if ¬ o.openOk then (false, s)
  else (confid.length ≤ o.written,
    { s with newConfigId := some (CStr.overwrite confid o.written (s.newConfigId.getD [])) })

/-- The old file is removed; one that `lstat` does not see is written over. -/
def replaceConfig (confid : CStr) (o : ConfigOutcome) (s : Store) : Bool × Store :=
  if s.newConfigId.isSome ∧ o.statOk ∧ ¬ o.unlinkOk then (false, s)
  else writeConfig confid o { s with newConfigId := if o.statOk then none else s.newConfigId }

def setConfig (confid : CStr) (o : ConfigOutcome) (s : Store) : Bool × Store :=
  match createRecoveryFolder o.folder s with
  | (false, s) => (false, s)
  | (true, s) => replaceConfig confid o s

/-- What the environment answers in a call of `setconfig_main`. -/
structure SetconfigOutcome where
  /-- `getconfig` can open and read its file -/
  getOpenOk : Bool
  getReadOk : Bool
  /-- the exit status of `cp` is 0 -/
  copyOk : Bool
  /-- the package after `cp` -/
  copied : Option (List Char)
  config : ConfigOutcome
  recovery : RecoveryOutcome
  /-- the second call of `set_config` -/
  restore : ConfigOutcome
  removeOk : Bool
  flagOpenOk : Bool
  flagWritten : ℕ
  deriving DecidableEq, Repr

def copyBotaPackageToCache (sys : SystemFiles) (o : SetconfigOutcome) (s : Store) : Bool × Store :=
  if ¬ sys.bota then (false, s) else (o.copyOk, { s with package := o.copied })

def removeBotaPackageFromCache (o : SetconfigOutcome) (s : Store) : Store :=
  if s.package.isSome ∧ o.removeOk then { s with package := none } else s

def setNoEraseDataFlag (o : SetconfigOutcome) (s : Store) : Store :=
  if ¬ o.flagOpenOk then s
  else { s with
    noEraseData := some (CStr.overwrite "noerasedata".toList o.flagWritten
      (s.noEraseData.getD [])) }

/-- What the arguments ask for. -/
structure Request where
  isSetRecovery : Bool
  dontErase : Bool
  confid : CStr
  deriving DecidableEq, Repr

def parseArgs : List CStr → Option Request
  | [_, confid] => some ⟨true, false, confid⟩
  | [_, opt, confid] =>
    if opt = "-norecovery".toList then some ⟨false, false, confid⟩
    else if opt = "-no_erase_data".toList then some ⟨true, true, confid⟩
    else none
  | _ => none

/-- The id that is restored. -/
def oldConfid (sys : SystemFiles) (o : SetconfigOutcome) : Option CStr :=
  match getconfig sys o.getOpenOk o.getReadOk with
  | (.none, out) => some out
  | _ => none

def enterRecovery (r : Request) (o : SetconfigOutcome) (s : Store) : ConfigErr × Store :=
  if r.isSetRecovery then setRecovery o.recovery s
  else match setCacheCommand o.recovery.append s with
    | (true, s) => (.none, s)
    | (false, s) => (.fileOperation, s)

def rollBack (sys : SystemFiles) (o : SetconfigOutcome) (err : ConfigErr) (s : Store) :
    ConfigErr × Store :=
  match oldConfid sys o with
  | none => (err, s)
  | some old =>
    match setConfig old o.restore s with
    | (true, s) => (err, s)
    | (false, s) => (.needsReconfig, s)

/-- The recovery mode, once the id is written. -/
def finishConfig (sys : SystemFiles) (r : Request) (o : SetconfigOutcome) (s : Store) :
    ConfigErr × Store :=
  match enterRecovery r o s with
  | (.none, s) => (.none, if r.dontErase then setNoEraseDataFlag o s else s)
  | (err, s) => rollBack sys o err s

def configure (sys : SystemFiles) (r : Request) (o : SetconfigOutcome) (s : Store) :
    ConfigErr × Store :=
  match setConfig r.confid o.config s with
  | (false, s) => (.fileOperation, s)
  | (true, s) => finishConfig sys r o s

def cleanUp (o : SetconfigOutcome) : ConfigErr × Store → ConfigErr × Store
  | (.none, s) => (.none, s)
  | (err, s) => (err, removeBotaPackageFromCache o s)

/-- A request with a valid id. -/
def submit (sys : SystemFiles) (r : Request) (o : SetconfigOutcome) (s : Store) :
    ConfigErr × Store :=
  match copyBotaPackageToCache sys o s with
  | (false, s) => (.fileOperation, s)
  | (true, s) => cleanUp o (configure sys r o s)

def setconfigMain (sys : SystemFiles) (argv : List CStr) (o : SetconfigOutcome) (s : Store) :
    ConfigErr × Store :=
  if argv.length ≠ 3 ∧ argv.length ≠ 2 then (.invalidParam, s)
  else if ¬ sys.multiconfig then (.notMulticonfig, s)
  else match parseArgs argv with
    | none => (.invalidParam, s)
    | some r => if ¬ validConfigId r.confid then (.invalidFormat, s) else submit sys r o s

/-! ## What the operations leave -/

def folderOk (o : FolderOutcome) (s : Store) : Bool :=
  o.statOk && (s.folder || (o.mkdirOk && o.chmodOk))

/-- Only the folder can have changed. -/
theorem createRecoveryFolder_eq (o : FolderOutcome) (s : Store) :
    ∃ f, createRecoveryFolder o s = (folderOk o s, { s with folder := f }) ∧
      (folderOk o s = true → f = true) := by
  unfold createRecoveryFolder
  split_ifs with hstat hfolder hmkdir
  · exact ⟨s.folder, Prod.ext (by simp_all [folderOk]) rfl, fun _ => hfolder⟩
  · exact ⟨true, Prod.ext (by simp_all [folderOk]) rfl, fun _ => rfl⟩
  · exact ⟨s.folder, Prod.ext (by simp_all [folderOk]) rfl, by simp_all [folderOk]⟩
  · exact ⟨s.folder, Prod.ext (by simp_all [folderOk]) rfl, by simp_all [folderOk]⟩

/-- `unlink` is called and fails. -/
def unlinkFails (o : ConfigOutcome) (s : Store) : Bool :=
  s.newConfigId.isSome && o.statOk && !o.unlinkOk

/-- The content that `set_config` writes over. -/
def configBase (o : ConfigOutcome) (s : Store) : List Char :=
  if o.statOk then [] else s.newConfigId.getD []

def configOk (confid : CStr) (o : ConfigOutcome) (s : Store) : Bool :=
  folderOk o.folder s && !unlinkFails o s && o.openOk && confid.length ≤ o.written

/-- A failing `set_config` leaves the file as it is: it fails before it touches it; or it removes
none and cannot open one; or it writes what was there. -/
def ConfigKept (confid : CStr) (o : ConfigOutcome) (s : Store) : Prop :=
  folderOk o.folder s = false ∨ unlinkFails o s = true ∨
    (o.openOk = false ∧ (s.newConfigId = none ∨ o.statOk = false)) ∨
    (o.openOk = true ∧ s.newConfigId = some (CStr.overwrite confid o.written (configBase o s)))

theorem writeConfig_eq (confid : CStr) (o : ConfigOutcome) (s : Store) :
    ∃ id, writeConfig confid o s =
        (o.openOk && decide (confid.length ≤ o.written), { s with newConfigId := id }) ∧
      id = if o.openOk then some (CStr.overwrite confid o.written (s.newConfigId.getD []))
        else s.newConfigId := by
  unfold writeConfig
  cases o.openOk with
  | false => exact ⟨s.newConfigId, rfl, rfl⟩
  | true => exact ⟨_, rfl, rfl⟩

/-- `set_config` changes the folder and the file only. -/
theorem setConfig_eq (confid : CStr) (o : ConfigOutcome) (s : Store) :
    ∃ f id, setConfig confid o s = (configOk confid o s,
      { s with folder := f, newConfigId := id }) ∧
      (configOk confid o s = true →
        f = true ∧ id = some (CStr.overwrite confid o.written (configBase o s))) ∧
      (configOk confid o s = false → (id = s.newConfigId ↔ ConfigKept confid o s)) := by
  obtain ⟨f, hfolder, hf⟩ := createRecoveryFolder_eq o.folder s
  unfold setConfig
  rw [hfolder]
  cases hfo : folderOk o.folder s with
  | false =>
    exact ⟨f, s.newConfigId, by simp [configOk, hfo], by simp [configOk, hfo],
      by simp [ConfigKept, hfo]⟩
  | true =>
    obtain rfl := hf hfo
    cases hunlink : unlinkFails o s with
    | true =>
      have hrep : replaceConfig confid o { s with folder := true } =
        (false, { s with folder := true }) :=
        if_pos (by simpa [unlinkFails, and_assoc] using hunlink)
      refine ⟨true, s.newConfigId, ?_, by simp [configOk, hunlink], by simp [ConfigKept, hunlink]⟩
      simp [hrep, configOk, hunlink]
    | false =>
      have hrep : replaceConfig confid o { s with folder := true } = writeConfig confid o
          { s with folder := true, newConfigId := if o.statOk then none else s.newConfigId } := by
        refine if_neg fun hu => ?_
        have htrue : unlinkFails o s = true := by simpa [unlinkFails, and_assoc] using hu
        rw [hunlink] at htrue
        cases htrue
      have hbase : (if o.statOk then none else s.newConfigId).getD [] = configBase o s := by
        unfold configBase
        split_ifs <;> rfl
      obtain ⟨id, hwrite, hid⟩ := writeConfig_eq confid o
        { s with folder := true, newConfigId := if o.statOk then none else s.newConfigId }
      rw [hbase] at hid
      refine ⟨true, id, ?_, ?_, ?_⟩
      · simp only [hrep, hwrite, configOk, hfo, hunlink, Bool.not_false, Bool.true_and]
      · intro hok
        have hopen : o.openOk = true := by
          simp only [configOk, Bool.and_eq_true] at hok
          exact hok.1.2
        exact ⟨rfl, by rw [hid, if_pos hopen]⟩
      · intro _
        simp only [ConfigKept, hfo, hunlink, hid]
        cases o.openOk <;> cases o.statOk <;> simp [eq_comm]

/-- `set_cache_command` works, where the folder exists. -/
def appendOk (text : CStr) (o : AppendOutcome) (s : Store) : Bool :=
  o.folder.statOk && o.statOk && (s.command.isSome || o.createOk) && o.openOk &&
    text.length ≤ o.written

/-- A failing one leaves the command file as it is: it fails before it opens a file, or it writes
nothing to one that was there. -/
def CommandKept (o : AppendOutcome) (s : Store) : Prop :=
  o.folder.statOk = false ∨ o.statOk = false ∨ (s.command = none ∧ o.createOk = false) ∨
    (s.command ≠ none ∧ (o.openOk = false ∨ o.written = 0))

theorem appendCommand_eq {text : CStr} (htext : text ≠ []) (o : AppendOutcome) {s : Store}
    (hfolder : s.folder = true) :
    ∃ c, appendCommand text o s = (appendOk text o s, { s with command := c }) ∧
      (appendOk text o s = true → c = some (s.command.getD [] ++ text)) ∧
      (appendOk text o s = false → (c = s.command ↔ CommandKept o s)) := by
  have hcreate : createRecoveryFolder o.folder s = (o.folder.statOk, s) := by
    cases hs : o.folder.statOk <;> simp [createRecoveryFolder, hs, hfolder]
  unfold appendCommand
  rw [hcreate]
  cases hfs : o.folder.statOk with
  | false =>
    exact ⟨s.command, by simp [appendOk, hfs], by simp [appendOk, hfs], by simp [CommandKept, hfs]⟩
  | true =>
    dsimp only [openCommand]
    cases hst : o.statOk with
    | false =>
      exact ⟨s.command, by simp [appendOk, hst], by simp [appendOk, hst],
        by simp [CommandKept, hst]⟩
    | true =>
      cases hc : s.command with
      | none =>
        cases hcr : o.createOk with
        | false =>
          have heta : s = { s with command := none } := by rw [← hc]
          exact ⟨none, Prod.ext (by simp [appendOk, hc, hcr]) (by simpa using heta),
            by simp [appendOk, hc, hcr], by simp [CommandKept, hc, hcr]⟩
        | true =>
          cases hop : o.openOk with
          | false =>
            exact ⟨some [], by simp [appendText, appendOk, hop], by simp [appendOk, hop],
              by simp [CommandKept, hfs, hst, hc, hcr]⟩
          | true =>
            refine ⟨some (text.take o.written), ?_, ?_, ?_⟩
            · simp [appendText, appendOk, hfs, hst, hcr, hop]
            · intro hok
              have hlen : text.length ≤ o.written := by
                simpa [appendOk, hfs, hst, hcr, hop] using hok
              simp [List.take_of_length_le hlen]
            · simp [CommandKept, hfs, hst, hc, hcr]
      | some content =>
        cases hop : o.openOk with
        | false =>
          exact ⟨some content, by simp [appendText, appendOk, hop], by simp [appendOk, hop],
            by simp [CommandKept, hc, hop]⟩
        | true =>
          refine ⟨some (content ++ text.take o.written), ?_, ?_, ?_⟩
          · simp [appendText, appendOk, hfs, hst, hc, hop]
          · intro hok
            have hlen : text.length ≤ o.written := by simpa [appendOk, hfs, hst, hc, hop] using hok
            simp [List.take_of_length_le hlen]
          · simp [CommandKept, hfs, hst, hc, hop, htext]

/-- The recovery mode is entered, or the command appended. -/
def recoveryOk (r : Request) (o : RecoveryOutcome) (s : Store) : Bool :=
  if r.isSetRecovery then
    o.getOk && if s.boot.isClean then o.setMsg.isNone
      else decide (s.boot.command = bootRecovery) && appendOk multiconfigCommand o.append s
  else appendOk multiconfigCommand o.append s

/-- The command is appended to the command file, and not put into the message for the bootloader. -/
def appends (r : Request) (s : Store) : Bool := !r.isSetRecovery || !s.boot.isClean

/-- A failure to enter it leaves the message and the command file as they are: the message could not
be read, or a failed attempt to set it left it, or it is another command's; or the command file is
left. -/
def RecoveryKept (r : Request) (o : RecoveryOutcome) (s : Store) : Prop :=
  (r.isSetRecovery = true ∧ o.getOk = false) ∨
    (r.isSetRecovery = true ∧ s.boot.isClean = true ∧ o.setMsg = some s.boot) ∨
    (r.isSetRecovery = true ∧ s.boot.isClean = false ∧ s.boot.command ≠ bootRecovery) ∨
    ((r.isSetRecovery = false ∨ s.boot.isClean = false) ∧ CommandKept o.append s)

theorem setRecovery_eq {r : Request} (hr : r.isSetRecovery = true) (o : RecoveryOutcome) {s : Store}
    (hfolder : s.folder = true) :
    ∃ e c b, setRecovery o s = (e, { s with command := c, boot := b }) ∧
      (e = .none ↔ recoveryOk r o s = true) ∧ e ≠ .needsReconfig ∧
      (recoveryOk r o s = false → (c = s.command ∧ b = s.boot ↔ RecoveryKept r o s)) ∧
      (recoveryOk r o s = true →
        c = if appends r s then some (s.command.getD [] ++ multiconfigCommand) else s.command) := by
  obtain ⟨c, happend, hdone, hkept⟩ :=
    appendCommand_eq (by decide : multiconfigCommand ≠ []) o.append hfolder
  have hcache : setCacheCommand o.append s =
      (appendOk multiconfigCommand o.append s, { s with command := c }) := happend
  unfold setRecovery
  cases hg : o.getOk with
  | false =>
    exact ⟨.setRecovery, s.command, s.boot, rfl, by simp [recoveryOk, hr, hg], by decide,
      by simp [RecoveryKept, hr, hg], by simp [recoveryOk, hr, hg]⟩
  | true =>
    cases hclean : s.boot.isClean with
    | true =>
      cases hm : o.setMsg with
      | none =>
        exact ⟨.none, s.command, _, rfl, by simp [recoveryOk, hr, hg, hclean, hm], by decide,
          by simp [recoveryOk, hr, hg, hclean, hm], by simp [appends, hr, hclean]⟩
      | some left =>
        exact ⟨.setRecovery, s.command, left, rfl, by simp [recoveryOk, hr, hg, hclean, hm],
          by decide, by simp [RecoveryKept, hr, hg, hclean, hm],
          by simp [recoveryOk, hr, hg, hclean, hm]⟩
    | false =>
      by_cases hb : s.boot.command = bootRecovery
      · simp only [not_true_eq_false, if_false, Bool.false_eq_true, not_false_eq_true,
          if_true, hb, hcache]
        cases ha : appendOk multiconfigCommand o.append s with
        | false =>
          refine ⟨.setRecovery, c, s.boot, rfl, by simp [recoveryOk, hr, hg, hclean, ha], by decide,
            fun _ => ?_, by simp [recoveryOk, hr, hclean, ha]⟩
          simp [RecoveryKept, hr, hg, hclean, hb, hkept ha]
        | true =>
          exact ⟨.none, c, s.boot, rfl, by simp [recoveryOk, hr, hg, hclean, hb, ha], by decide,
            by simp [recoveryOk, hr, hg, hclean, hb, ha],
            fun _ => by simp [appends, hclean, hdone ha]⟩
      · refine ⟨.setRecovery, s.command, s.boot, ?_, by simp [recoveryOk, hr, hg, hclean, hb],
          by decide, by simp [RecoveryKept, hr, hclean, hb], by simp [recoveryOk, hr, hclean, hb]⟩
        simp [hb]

theorem enterRecovery_eq (r : Request) (o : SetconfigOutcome) {s : Store}
    (hfolder : s.folder = true) :
    ∃ e c b, enterRecovery r o s = (e, { s with command := c, boot := b }) ∧
      (e = .none ↔ recoveryOk r o.recovery s = true) ∧ e ≠ .needsReconfig ∧
      (recoveryOk r o.recovery s = false →
        (c = s.command ∧ b = s.boot ↔ RecoveryKept r o.recovery s)) ∧
      (recoveryOk r o.recovery s = true →
        c = if appends r s then some (s.command.getD [] ++ multiconfigCommand) else s.command) := by
  unfold enterRecovery
  cases hr : r.isSetRecovery with
  | false =>
    obtain ⟨c, happend, hdone, hkept⟩ :=
      appendCommand_eq (by decide : multiconfigCommand ≠ []) o.recovery.append hfolder
    have hcache : setCacheCommand o.recovery.append s =
        (appendOk multiconfigCommand o.recovery.append s, { s with command := c }) := happend
    rw [if_neg (by simp), hcache]
    cases ha : appendOk multiconfigCommand o.recovery.append s with
    | false =>
      refine ⟨.fileOperation, c, s.boot, rfl, by simp [recoveryOk, hr, ha], by decide, fun _ => ?_,
        by simp [recoveryOk, hr, ha]⟩
      simp [RecoveryKept, hr, hkept ha]
    | true =>
      exact ⟨.none, c, s.boot, rfl, by simp [recoveryOk, hr, ha], by decide,
        by simp [recoveryOk, hr, ha], fun _ => by simp [appends, hr, hdone ha]⟩
  | true =>
    rw [if_pos rfl]
    exact setRecovery_eq hr o.recovery hfolder

/-! ## When a failure is atomic -/

/-- The request that the next boot into the recovery finds. -/
def Store.pending (s : Store) :
    Option (List Char) × Option (List Char) × Option (List Char) × BootMsg :=
  (s.newConfigId, s.command, s.package, s.boot)

/-- The codes of a failure that should have left no trace. -/
def ConfigErr.isFailure (e : ConfigErr) : Bool := e ≠ .none && e ≠ .needsReconfig

/-- The request, if the arguments are accepted. -/
def accepted (sys : SystemFiles) (argv : List CStr) : Option Request :=
  if sys.multiconfig then (parseArgs argv).filter fun r => validConfigId r.confid else none

/-- What `set_config` writes when it works. -/
def storedConfig (r : Request) (o : SetconfigOutcome) (s : Store) : List Char :=
  CStr.overwrite r.confid o.config.written (configBase o.config s)

/-- The store with the package and the new id. -/
def afterConfig (r : Request) (o : SetconfigOutcome) (s : Store) : Store :=
  { s with folder := true, newConfigId := some (storedConfig r o s), package := o.copied }

/-- The older id can be written back, or there is none. -/
def restoreOk (sys : SystemFiles) (r : Request) (o : SetconfigOutcome) (s : Store) : Bool :=
  (oldConfid sys o).all fun old => configOk old o.restore (afterConfig r o s)

/-- What is written back is what `new-config-id` had; without an older id it is the new one that was
there. -/
def IdRestored (sys : SystemFiles) (r : Request) (o : SetconfigOutcome) (s : Store) : Prop :=
  match oldConfid sys o with
  | none => s.newConfigId = some (storedConfig r o s)
  | some old => s.newConfigId =
      some (CStr.overwrite old o.restore.written (configBase o.restore (afterConfig r o s)))

/-- No package was staged, and the new one is removed again; or the copy that stays is what was
staged. -/
def PackageKept (o : SetconfigOutcome) (s : Store) : Prop :=
  if o.copied.isSome ∧ o.removeOk then s.package = none else s.package = o.copied

/-- The points where a call with accepted arguments and a package can fail, and what each of them
needs. -/
structure Undisturbed (sys : SystemFiles) (r : Request) (o : SetconfigOutcome)
    (s : Store) : Prop where
  copy : o.copyOk = false → s.package = o.copied
  config : o.copyOk = true → configOk r.confid o.config s = false →
    PackageKept o s ∧ ConfigKept r.confid o.config s
  recovery : o.copyOk = true → configOk r.confid o.config s = true →
    recoveryOk r o.recovery s = false →
    restoreOk sys r o s = true → PackageKept o s ∧ RecoveryKept r o.recovery s ∧
      IdRestored sys r o s

theorem cleanUp_fst (o : SetconfigOutcome) (x : ConfigErr × Store) : (cleanUp o x).1 = x.1 := by
  obtain ⟨e, s⟩ := x
  cases e <;> rfl

theorem cleanUp_pending {o : SetconfigOutcome} {e : ConfigErr} (he : e ≠ .none) (s : Store) :
    (cleanUp o (e, s)).2.pending =
      (s.newConfigId, s.command, if s.package.isSome ∧ o.removeOk then none
        else s.package, s.boot) := by
  have hclean : cleanUp o (e, s) = (e, removeBotaPackageFromCache o s) := by
    cases e <;> first | rfl | exact absurd rfl he
  rw [hclean, removeBotaPackageFromCache]
  split_ifs <;> rfl

theorem packageKept_iff (o : SetconfigOutcome) (s : Store) :
    (if o.copied.isSome ∧ o.removeOk then none else o.copied) = s.package ↔ PackageKept o s := by
  unfold PackageKept
  split_ifs <;> exact eq_comm

theorem rollBack_eq (sys : SystemFiles) (r : Request) (o : SetconfigOutcome) (s : Store)
    (e : ConfigErr) (c : Option (List Char)) (b : BootMsg) :
    ∃ e' f id, rollBack sys o e { afterConfig r o s with command := c, boot := b } =
        (e', { afterConfig r o s with command := c, boot := b, folder := f, newConfigId := id }) ∧
      (restoreOk sys r o s = false → e' = .needsReconfig) ∧
      (restoreOk sys r o s = true → e' = e ∧ (id = s.newConfigId ↔ IdRestored sys r o s)) := by
  unfold rollBack restoreOk IdRestored
  cases oldConfid sys o with
  | none => exact ⟨e, true, some (storedConfig r o s), rfl, by simp, fun _ => ⟨rfl, eq_comm⟩⟩
  | some old =>
    obtain ⟨f, id, hset, hok, -⟩ :=
      setConfig_eq old o.restore { afterConfig r o s with command := c, boot := b }
    have hsame : configOk old o.restore { afterConfig r o s with command := c, boot := b } =
        configOk old o.restore (afterConfig r o s) := rfl
    rw [hsame] at hset hok
    simp only [hset, Option.all_some]
    cases hc : configOk old o.restore (afterConfig r o s) with
    | false => exact ⟨.needsReconfig, f, id, rfl, by simp, by simp⟩
    | true =>
      refine ⟨e, f, id, rfl, by simp, fun _ => ⟨rfl, ?_⟩⟩
      rw [(hok hc).2]
      exact eq_comm

theorem finishConfig_of_fails {sys : SystemFiles} {r : Request} {o : SetconfigOutcome}
    {s s' : Store} {e : ConfigErr} (henter : enterRecovery r o s = (e, s')) (hne : e ≠ .none) :
    finishConfig sys r o s = rollBack sys o e s' := by
  rw [finishConfig, henter]
  cases e <;> first | rfl | exact absurd rfl hne

/-- With the new id written, it is the recovery mode and the roll-back that matter. -/
theorem finishConfig_kept_iff {sys : SystemFiles} {r : Request} {o : SetconfigOutcome} {s : Store}
    (hcopy : o.copyOk = true) (hc : configOk r.confid o.config s = true) :
    ((finishConfig sys r o (afterConfig r o s)).1.isFailure = true →
      (cleanUp o (finishConfig sys r o (afterConfig r o s))).2.pending = s.pending) ↔
      Undisturbed sys r o s := by
  obtain ⟨e, c, b, henter, hnone, hneeds, hrec, -⟩ :=
    enterRecovery_eq r o (s := afterConfig r o s) rfl
  have hsame : recoveryOk r o.recovery (afterConfig r o s) = recoveryOk r o.recovery s := rfl
  rw [hsame] at hnone hrec
  cases hro : recoveryOk r o.recovery s with
  | true =>
    obtain rfl := hnone.mpr hro
    rw [finishConfig, henter]
    refine ⟨fun _ => ⟨by simp [hcopy], by simp [hc], by simp [hro]⟩, fun _ hf => ?_⟩
    cases hf
  | false =>
    have hne : e ≠ .none := fun he => by simp [hnone.mp he] at hro
    obtain ⟨e', f, id, hroll, hbad, hgood⟩ := rollBack_eq sys r o s e c b
    rw [finishConfig_of_fails henter hne, hroll]
    cases hre : restoreOk sys r o s with
    | false =>
      -- `needsReconfig`, which is no failure in the sense of the statement
      obtain rfl := hbad hre
      refine ⟨fun _ => ⟨by simp [hcopy], by simp [hc], by simp [hre]⟩, fun _ hf => ?_⟩
      cases hf
    | true =>
      obtain ⟨rfl, hid⟩ := hgood hre
      have hcb : c = s.command ∧ b = s.boot ↔ RecoveryKept r o.recovery s := hrec hro
      rw [cleanUp_pending hne]
      have hfail : e'.isFailure = true := by simp [ConfigErr.isFailure, hne, hneeds]
      simp only [Store.pending, Prod.mk.injEq, hfail, true_implies, afterConfig, hid]
      constructor
      · rintro ⟨h1, h2, h3, h4⟩
        exact ⟨by simp [hcopy], by simp [hc],
          fun _ _ _ _ => ⟨(packageKept_iff o s).mp h3, hcb.mp ⟨h2, h4⟩, h1⟩⟩
      · intro h
        obtain ⟨h3, h24, h1⟩ := h.recovery hcopy hc hro hre
        exact ⟨h1, (hcb.mpr h24).1, (packageKept_iff o s).mpr h3, (hcb.mpr h24).2⟩

/-- A failure of `set_config` or later is followed by the removal of the package. -/
theorem configure_kept_iff {sys : SystemFiles} {r : Request} {o : SetconfigOutcome} {s : Store}
    (hcopy : o.copyOk = true) :
    ((configure sys r o { s with package := o.copied }).1.isFailure = true →
      (cleanUp o (configure sys r o { s with package := o.copied })).2.pending = s.pending) ↔
      Undisturbed sys r o s := by
  obtain ⟨f, id, hset, hok, hkept⟩ := setConfig_eq r.confid o.config { s with package := o.copied }
  have hsame : configOk r.confid o.config { s with package := o.copied } =
    configOk r.confid o.config s := rfl
  rw [hsame] at hset hok hkept
  unfold configure
  rw [hset]
  cases hc : configOk r.confid o.config s with
  | false =>
    have hid : id = s.newConfigId ↔ ConfigKept r.confid o.config s := hkept hc
    dsimp only
    rw [cleanUp_pending (by decide)]
    simp only [Store.pending, Prod.mk.injEq, packageKept_iff, hid, true_and, and_true]
    constructor
    · intro h
      refine ⟨by simp [hcopy], fun _ _ => (h (by decide)).symm, by simp [hc]⟩
    · exact fun h _ => (h.config hcopy hc).symm
  | true =>
    obtain ⟨rfl, rfl⟩ := hok hc
    exact finishConfig_kept_iff hcopy hc

theorem submit_kept_iff {sys : SystemFiles} {r : Request} {o : SetconfigOutcome} {s : Store}
    (hbota : sys.bota = true) :
    ((submit sys r o s).1.isFailure = true → (submit sys r o s).2.pending = s.pending) ↔
      Undisturbed sys r o s := by
  have hcopied : copyBotaPackageToCache sys o s = (o.copyOk, { s with package := o.copied }) :=
    if_neg (by simp [hbota])
  unfold submit
  rw [hcopied]
  cases hcopy : o.copyOk with
  | false =>
    simp only [Store.pending, Prod.mk.injEq, true_and, and_true]
    constructor
    · exact fun h => ⟨fun _ => (h (by decide)).symm, by simp [hcopy], by simp [hcopy]⟩
    · exact fun h _ => (h.copy hcopy).symm
  | true =>
    simp only [cleanUp_fst]
    exact configure_kept_iff hcopy

/-- Arguments that are not accepted are an error and change nothing. -/
theorem setconfigMain_eq (sys : SystemFiles) (argv : List CStr) (o : SetconfigOutcome) (s : Store) :
    (∃ r, accepted sys argv = some r ∧ setconfigMain sys argv o s = submit sys r o s) ∨
      (accepted sys argv = none ∧ (setconfigMain sys argv o s).2 = s ∧
        (setconfigMain sys argv o s).1 ≠ .none) := by
  unfold setconfigMain
  split_ifs with hlen hmulti
  · refine .inr ⟨?_, rfl, by simp⟩
    have hparse : parseArgs argv = none := by
      unfold parseArgs
      split <;> simp_all
    simp [accepted, hparse]
  · cases hparse : parseArgs argv with
    | none => exact .inr ⟨by simp [accepted, hparse], rfl, by simp⟩
    | some r =>
      cases hvalid : validConfigId r.confid with
      | false => exact .inr ⟨by simp [accepted, hparse, hvalid], by simp [hvalid], by simp [hvalid]⟩
      | true => exact .inl ⟨r, by simp [accepted, hmulti, hparse, hvalid], by simp [hvalid]⟩
  · exact .inr ⟨by simp [accepted, hmulti], rfl, by simp⟩

/-- **When a failing `setconfig` is atomic.**  A call that returns a code other than success and
"needs reconfiguration" leaves the pending request as it was, if and only if the arguments are
rejected, or there is no package to copy, or the store and the outcomes are such that the step that
fails, and what is undone after it, do no harm (`Undisturbed`). -/
theorem setconfig_atomic_iff (sys : SystemFiles) (argv : List CStr) (o : SetconfigOutcome)
    (s : Store) :
    ((setconfigMain sys argv o s).1 ≠ .none ∧ (setconfigMain sys argv o s).1 ≠ .needsReconfig →
      (setconfigMain sys argv o s).2.pending = s.pending) ↔
      ∀ r, accepted sys argv = some r → sys.bota = true → Undisturbed sys r o s := by
  obtain ⟨r, hr, hmain⟩ | ⟨hnone, hs, -⟩ := setconfigMain_eq sys argv o s
  · rw [hmain]
    cases hbota : sys.bota with
    | false =>
      have hsubmit : submit sys r o s = (.fileOperation, s) := by
        simp [submit, copyBotaPackageToCache, hbota]
      simp [hsubmit]
    | true =>
      have hiff := submit_kept_iff (r := r) (o := o) (s := s) hbota
      simp only [ConfigErr.isFailure, Bool.and_eq_true, decide_eq_true_eq] at hiff
      rw [hiff]
      refine ⟨fun h r' hr' _ => ?_, fun h => h r hr rfl⟩
      obtain rfl := Option.some.inj (hr.symm.trans hr')
      exact h
  · simp [hnone, hs]

/-! ## A request that is lost -/

def allOk : ConfigOutcome := ⟨⟨true, true, true⟩, true, true, true, 255⟩

/-- Every operation works. -/
def workingOutcome (copied : List Char) : SetconfigOutcome where
  getOpenOk := true
  getReadOk := true
  copyOk := true
  copied := some copied
  config := allOk
  recovery := ⟨true, ⟨⟨true, true, true⟩, true, true, true, 255⟩, none⟩
  restore := allOk
  removeOk := true
  flagOpenOk := true
  flagWritten := 255

/-- The phone has the configuration 1. -/
def configuredSystem : SystemFiles := ⟨true, some "1".toList, none, true⟩

/-- The configuration 5 is requested, and another command is left for the bootloader. -/
def busyStore : Store where
  folder := true
  command := none
  newConfigId := some "5".toList
  package := some "package".toList
  noEraseData := none
  boot := ⟨"update-radio".toList, []⟩

/-- A request for the configuration 7 fails, because the bootloader is busy: the id that is written
back is that of the phone, not the one that was requested, and the package is gone. -/
theorem setconfig_request_lost :
    (setconfigMain configuredSystem ["setconfig".toList, "7".toList]
      (workingOutcome "package".toList)
        busyStore).1 = .setRecovery ∧
      (setconfigMain configuredSystem ["setconfig".toList, "7".toList]
        (workingOutcome "package".toList) busyStore).2.pending = (some "1".toList, none, none,
        busyStore.boot) ∧
      (setconfigMain configuredSystem ["setconfig".toList, "7".toList]
        (workingOutcome "package".toList) busyStore).2.pending ≠ busyStore.pending := by
  decide +kernel

end Omap4.Motobox
