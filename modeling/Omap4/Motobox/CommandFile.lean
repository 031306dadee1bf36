import Omap4.Lines
import Omap4.Machine
import Omap4.Motobox.Setconfig

/-!
# Omap4.Motobox.CommandFile — the command file of the recovery, and `masterclear.c`

`setconfig` and `masterclear` append options to `/cache/recovery/command`, when a message for the
bootloader is already there or the caller asked for it, and put them into that message otherwise.
The file has one option to a line.  `masterclear` ends its lines and `setconfig` does not, so that
the next option is joined to that of `setconfig`: `command_lines_iff` says in which runs this does
not happen.
-/

namespace Omap4.Motobox

/-! ## The code -/

/-- What `masterclear_main` reads: the two properties, whether `get_bootloader_message` works and
what it leaves if it does not, and the outcomes of what it writes. -/
structure MasterclearInput where
  shredsd : CStr
  shredsdDev : CStr
  getOk : Bool
  junk : BootMsg
  append : AppendOutcome
  setMsg : Option BootMsg
  deriving DecidableEq, Repr

def shreddingEnabled (i : MasterclearInput) : Bool :=
  i.shredsd = "true".toList && i.shredsdDev = "true".toList

def wipeCommand (shred : Bool) : CStr :=
  if shred then "--wipe_data\n--wipe_sdcard\n--silent\n".toList else "--wipe_data\n".toList

/-- The folder's mode is not changed. -/
def setWipeCommand (i : MasterclearInput) (s : Store) : Bool × Store :=
  appendCommand (wipeCommand (shreddingEnabled i))
    { i.append with folder := { i.append.folder with chmodOk := true } } s

/-- The message that is looked at; the result of `get_bootloader_message` is not. -/
def readMsg (i : MasterclearInput) (s : Store) : BootMsg := if i.getOk then s.boot else i.junk

def masterclearMain (i : MasterclearInput) (s : Store) : Bool × Store :=
  if ¬ (readMsg i s).isClean then
    if (readMsg i s).command = bootRecovery then setWipeCommand i s else (false, s)
  else match i.setMsg with
    | none =>
      (true, { s with boot := ⟨bootRecovery, "recovery\n".toList ++ wipeCommand (shreddingEnabled i)⟩ })
    | some left => (false, { s with boot := left })

/-! ## Runs of the two programs -/

inductive Run
  | setconfig (sys : SystemFiles) (argv : List CStr) (o : SetconfigOutcome)
  | masterclear (i : MasterclearInput)

/-- The options that `set_wipe_command` appends. -/
def wipeOptions (shred : Bool) : List CStr :=
  if shred then ["--wipe_data".toList, "--wipe_sdcard".toList, "--silent".toList]
    else ["--wipe_data".toList]

/-- The options that a run asks to append to the command file. -/
def Run.asks (s : Store) : Run → List CStr
  | .setconfig sys argv _ =>
    if (accepted sys argv).any (appends · s) then [multiconfigCommand] else []
  | .masterclear i => if (readMsg i s).isClean then [] else wipeOptions (shreddingEnabled i)

/-- The store, and the options asked for so far. -/
structure Requests where
  store : Store
  asked : List CStr

/-- A successful run. -/
def runStep (h : Requests) (r : Run) : Option Requests :=
  match r with
  | .setconfig sys argv o =>
    match setconfigMain sys argv o h.store with
    | (.none, s) => some ⟨s, h.asked ++ r.asks h.store⟩
    | _ => none
  | .masterclear i =>
    match masterclearMain i h.store with
    | (true, s) => some ⟨s, h.asked ++ r.asks h.store⟩
    | (false, _) => none

def Store.commandText (s : Store) : List Char := s.command.getD []

/-- The lines of the command file are the options that were asked for. -/
def LinesOk (h : Requests) : Prop := lines h.store.commandText = h.asked

/-- What is appended goes behind a finished line. -/
def AppendsToLine (h : Requests) (r : Run) : Prop :=
  r.asks h.store ≠ [] → endsLine h.store.commandText = true

/-! ## What a successful run appends -/

theorem appendCommand_true {text : CStr} {o : AppendOutcome} {s s' : Store}
    (h : appendCommand text o s = (true, s')) : s'.commandText = s.commandText ++ text := by
  obtain ⟨f, hfolder, hf⟩ := createRecoveryFolder_eq o.folder s
  unfold appendCommand at h
  rw [hfolder] at h
  cases hfo : folderOk o.folder s with
  | false =>
    rw [hfo] at h
    cases h
  | true =>
    rw [hfo] at h
    dsimp only [openCommand, appendText] at h
    split_ifs at h
    · cases h
    · obtain ⟨hlen, rfl⟩ := Prod.mk.inj h
      rw [decide_eq_true_eq] at hlen
      simp [Store.commandText, List.take_of_length_le hlen]
    · cases h
    · cases h

theorem cleanUp_none {o : SetconfigOutcome} {x : ConfigErr × Store} {s : Store}
    (h : cleanUp o x = (.none, s)) : x = (.none, s) := by
  obtain ⟨e, t⟩ := x
  cases e <;> first | exact h | cases h

/-- Where the recovery mode is not entered, the result is another code. -/
theorem rollBack_ne_none {sys : SystemFiles} {o : SetconfigOutcome} {e : ConfigErr} {s : Store}
    (he : e ≠ .none) :
    (rollBack sys o e s).1 ≠ .none := by
  unfold rollBack
  split
  · exact he
  · split
    · exact he
    · simp

/-- What a successful request leaves: the command file is written where the recovery mode is
entered, and the flag behind everything else. -/
structure Requested (r : Request) (o : SetconfigOutcome) (s t s' : Store) : Prop where
  flag : s' = if r.dontErase then setNoEraseDataFlag o t else t
  noEraseData : t.noEraseData = s.noEraseData
  command : t.command = if appends r s then some (s.command.getD [] ++ multiconfigCommand)
    else s.command

theorem configure_none {sys : SystemFiles} {r : Request} {o : SetconfigOutcome} {s s' : Store}
    (h : configure sys r o s = (.none, s')) : ∃ t, Requested r o s t s' := by
  obtain ⟨f, id, hset, hok, -⟩ := setConfig_eq r.confid o.config s
  unfold configure at h
  rw [hset] at h
  cases hc : configOk r.confid o.config s with
  | false =>
    rw [hc] at h
    cases h
  | true =>
    rw [hc] at h
    obtain ⟨rfl, -⟩ := hok hc
    obtain ⟨e, c, b, henter, hnone, -, -, hcommand⟩ :=
      enterRecovery_eq r o (s := { s with folder := true, newConfigId := id }) rfl
    change finishConfig sys r o { s with folder := true, newConfigId := id } = (.none, s') at h
    by_cases he : e = .none
    · subst he
      rw [finishConfig, henter] at h
      obtain ⟨-, rfl⟩ := Prod.mk.inj h
      exact ⟨_, rfl, rfl, hcommand (hnone.mp rfl)⟩
    · rw [finishConfig_of_fails henter he] at h
      exact absurd (congrArg Prod.fst h) (rollBack_ne_none he)

theorem submit_none {sys : SystemFiles} {r : Request} {o : SetconfigOutcome} {s s' : Store}
    (h : submit sys r o s = (.none, s')) : ∃ t, Requested r o s t s' := by
  unfold submit copyBotaPackageToCache at h
  split_ifs at h
  · cases hcopy : o.copyOk with
    | false =>
      rw [hcopy] at h
      cases h
    | true =>
      rw [hcopy] at h
      have hconf : configure sys r o { s with package := o.copied } = (.none, s') := cleanUp_none h
      obtain ⟨t, ht⟩ := configure_none hconf
      exact ⟨t, ht.flag, ht.noEraseData, ht.command⟩
  · cases h

/-- **A successful `setconfig`** has accepted its arguments and submitted their request. -/
theorem setconfig_none {sys : SystemFiles} {argv : List CStr} {o : SetconfigOutcome} {s s' : Store}
    (h : setconfigMain sys argv o s = (.none, s')) :
    ∃ r t, accepted sys argv = some r ∧ Requested r o s t s' := by
  obtain ⟨r, hr, hmain⟩ | ⟨-, -, herr⟩ := setconfigMain_eq sys argv o s
  · obtain ⟨t, ht⟩ := submit_none (hmain.symm.trans h)
    exact ⟨r, t, hr, ht⟩
  · exact absurd (congrArg Prod.fst h) herr

theorem setconfig_commandText {sys : SystemFiles} {argv : List CStr} {o : SetconfigOutcome}
    {s s' : Store} (h : setconfigMain sys argv o s = (.none, s')) :
    s'.commandText = s.commandText ++
      if (accepted sys argv).any (appends · s) then multiconfigCommand else [] := by
  obtain ⟨r, t, hr, ht⟩ := setconfig_none h
  have hflag : (if r.dontErase then setNoEraseDataFlag o t else t).command = t.command := by
    unfold setNoEraseDataFlag
    split_ifs <;> rfl
  rw [hr, Option.any_some, Store.commandText, ht.flag, hflag, ht.command]
  unfold Store.commandText
  split_ifs <;> simp

theorem masterclear_commandText {i : MasterclearInput} {s s' : Store}
    (h : masterclearMain i s = (true, s')) :
    s'.commandText = s.commandText ++
      if (readMsg i s).isClean then [] else wipeCommand (shreddingEnabled i) := by
  unfold masterclearMain at h
  cases hclean : (readMsg i s).isClean with
  | true =>
    rw [if_neg (by simp [hclean])] at h
    split at h
    · obtain ⟨-, rfl⟩ := Prod.mk.inj h
      exact (List.append_nil _).symm
    · cases h
  | false =>
    rw [if_pos (by simp [hclean])] at h
    split_ifs at h
    · exact appendCommand_true h
    · cases h

theorem lines_wipeCommand (shred : Bool) : lines (wipeCommand shred) = wipeOptions shred := by
  cases shred <;> decide +kernel

/-- **What a successful run appends**: a text whose lines are the options it asks for. -/
theorem runStep_text {h h' : Requests} {r : Run} (hstep : runStep h r = some h') :
    ∃ t, h'.store.commandText = h.store.commandText ++ t ∧ h'.asked = h.asked ++ r.asks h.store ∧
      lines t = r.asks h.store ∧ (r.asks h.store = [] → t = []) ∧
      (r.asks h.store ≠ [] → startsLine t = false) := by
  cases r with
  | setconfig sys argv o =>
    simp only [runStep] at hstep
    split at hstep
    · next s hmain =>
      obtain rfl := Option.some.inj hstep
      refine ⟨_, setconfig_commandText hmain, rfl, ?_⟩
      simp only [Run.asks]
      split_ifs
      · exact ⟨by decide +kernel, by simp, fun _ => by decide⟩
      · exact ⟨rfl, fun _ => rfl, by simp⟩
    · cases hstep
  | masterclear i =>
    simp only [runStep] at hstep
    split at hstep
    · next s hmain =>
      obtain rfl := Option.some.inj hstep
      refine ⟨_, masterclear_commandText hmain, rfl, ?_⟩
      simp only [Run.asks]
      split_ifs
      · exact ⟨rfl, fun _ => rfl, by simp⟩
      · refine ⟨lines_wipeCommand _, ?_, ?_⟩
        · cases shreddingEnabled i <;> simp [wipeOptions]
        · cases shreddingEnabled i <;> exact fun _ => by decide
    · cases hstep

/-- **Step lemma.** -/
theorem linesOk_runStep_iff {h h' : Requests} {r : Run} (hok : LinesOk h)
    (hstep : runStep h r = some h') :
    LinesOk h' ↔ AppendsToLine h r := by
  obtain ⟨t, htext, hasked, hlines, hempty, hstart⟩ := runStep_text hstep
  unfold LinesOk at hok ⊢
  rw [htext, hasked]
  by_cases hasks : r.asks h.store = []
  · simp [AppendsToLine, hasks, hempty hasks, hok]
  · cases hends : endsLine h.store.commandText with
    | true => simp [AppendsToLine, hends, lines_append hends, hok, hlines]
    | false =>
      have hlen := length_lines_append hends (hstart hasks)
      simp only [AppendsToLine, hends, Bool.false_eq_true, imp_false, not_not, hasks, iff_false]
      intro heq
      rw [heq, hok, hlines, List.length_append] at hlen
      omega

/-- **When the command file stays well formed.**  Starting without a command, in a sequence of
successful runs of the two programs the lines of the file are all along the options that the runs
asked to append, if and only if no run appends while the last line of the file is unfinished, as
`setconfig` leaves it. -/
theorem command_lines_iff {s : Store} (hs : s.commandText = []) {l : List Run} {h : Requests}
    (hrun : Machine.exec runStep ⟨s, []⟩ l = some h) :
    (∀ pre h, pre <+: l → Machine.exec runStep ⟨s, []⟩ pre = some h →
      lines h.store.commandText = h.asked) ↔
      Machine.Along runStep (fun h r => r.asks h.store ≠ [] → endsLine h.store.commandText = true)
        ⟨s, []⟩ l := by
  refine Iff.trans ?_ (Machine.along_iff_of_exec hrun)
  refine Machine.forall_exec_iff_along (P := LinesOk) (fun _ _ h hne => absurd h hne)
    (fun t r t' ht hstep => ?_) l ⟨s, []⟩ ?_
  · rw [linesOk_runStep_iff ht hstep, hstep]
    simp [AppendsToLine]
  · unfold LinesOk
    rw [hs]
    rfl

/-! ## Two options on one line -/

/-- The phone has nothing to do. -/
def cleanStore : Store where
  folder := true
  command := none
  newConfigId := none
  package := none
  noEraseData := none
  boot := ⟨[], []⟩

def setconfigRun : Run :=
  .setconfig configuredSystem ["setconfig".toList, "7".toList] (workingOutcome "package".toList)

def masterclearRun : Run :=
  .masterclear ⟨"false".toList, "false".toList, true, ⟨[], []⟩,
    ⟨⟨true, true, true⟩, true, true, true, 255⟩, none⟩

/-- After `masterclear` has set the message, `setconfig` and `masterclear` both append. -/
theorem command_lines_fused :
    ∃ h, Machine.exec runStep ⟨cleanStore, []⟩ [masterclearRun, setconfigRun,
      masterclearRun] = some h ∧
      h.asked = [multiconfigCommand, "--wipe_data".toList] ∧
      lines h.store.commandText = ["--update_package=CACHE:update_config.zip--wipe_data".toList] ∧
      lines h.store.commandText ≠ h.asked := by
  refine ⟨_, rfl, ?_, ?_, ?_⟩ <;> decide +kernel

/-- In the other order the file is right. -/
theorem command_lines_in_order :
    ∃ h, Machine.exec runStep ⟨cleanStore, []⟩ [masterclearRun, masterclearRun,
      setconfigRun] = some h ∧
      lines h.store.commandText = h.asked ∧
        h.asked = ["--wipe_data".toList, multiconfigCommand] := by
  obtain ⟨h, hrun, hasked⟩ : ∃ h, Machine.exec runStep ⟨cleanStore, []⟩
      [masterclearRun, masterclearRun, setconfigRun] = some h ∧
      h.asked = ["--wipe_data".toList, multiconfigCommand] := ⟨_, rfl, by decide +kernel⟩
  have hlines := (command_lines_iff (s := cleanStore) rfl hrun).mpr (by decide +kernel)
  exact ⟨h, hrun, hlines _ h List.prefix_rfl hrun, hasked⟩

end Omap4.Motobox
