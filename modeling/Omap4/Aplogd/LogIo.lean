import Mathlib.Data.Int.Basic
import Omap4.Aplogd.Rotation
import Omap4.FdTable

/-!
# Omap4.Aplogd.LogIo — the main loop of aplogd (`log_io.c`, `rambuf.c`)

One iteration of the loop of `aplogd_log_io` is one step (`aplogdLogIo`): a configuration reload if
one was signalled, `poll`, a flush or the handling of the slots that are ready, and the reconnection
of the vold socket.  `aplogdIoBootFinish` gives the state in which the loop starts.

What the system answers is input.  Every call that can fail comes with its outcome, in a record for
each function that makes it (`SetupRes`, `SwitchRes`, `OutRes` and so on), and the log library is
represented by what it makes of an entry (`LogEntry`).

The files of a directory are named by `LogFile`, as in `Omap4.Aplogd.Rotation`, where the printed
paths are shown to be distinct.  The kernel's descriptor table is part of the state: it says what a
descriptor refers to, whichever number the daemon has kept.  Three fields are not in the code:
`accepted` and `handed` record what a stream received and what its rotations took over, and
`noSpace` that one of the branches for a full buffer was taken.
-/

namespace Omap4.Aplogd

/-- What an open descriptor of the daemon refers to.  A file is `linked` as long as its name refers
to it, that is until it is compressed. -/
inductive Desc
  | input (slot : Slot)
  | file (dir : CStr) (i : Stream) (linked : Bool)
  | other
  deriving DecidableEq, Repr

/-- `aplogd_io_array`, `aplogd_io_fd` and the other variables of `log_io.c`, with the descriptors
and files they are about.  A negative descriptor is `none`. -/
structure State where
  inputFd : Slot → Option ℕ
  outputFd : Stream → Option ℕ
  collectFlag : Stream → Bool
  /-- the bytes between `input_buf_base` and `input_buf` -/
  inputBuf : Stream → Bytes
  /-- the `fd` fields of `aplogd_io_fd` -/
  pollFd : Slot → Option ℕ
  pollTimeout : ℤ
  currentStorage : Storage
  logfileMax : ℕ
  totalWriteSize : ℕ
  unwrittenBytes : ℕ
  bytesLost : ℕ
  /-- the static `n` of `aplogd_io_file_backup` -/
  backupCount : ℕ
  /-- the static `backup_flag` of `aplogd_log_save` -/
  backupFlag : Storage → Bool
  kern : FdTable Desc
  files : CStr → FileMap LogFile Bytes
  accepted : Stream → Bytes
  handed : Stream → Bytes
  noSpace : Bool

/-! ## Output files -/

/-- The outcome of `aplogd_output_setup`: whether the directory is writable, and of each `open`. -/
structure SetupRes where
  access : Bool
  opens : Stream → Bool

/-- The setup returns 0. -/
def SetupRes.succeeds (r : SetupRes) : Bool := r.access && Stream.all.all r.opens

/-- `open` with `O_APPEND | O_CREAT` of the output file of a stream. -/
def openOutput (dir : CStr) (ok : Bool) (i : Stream) (s : State) : State :=
  if ok then
    { s with
      outputFd := Function.update s.outputFd i (some s.kern.lowest)
      kern := s.kern.openFd (.file dir i true)
      files := Function.update s.files dir
        (Function.update (s.files dir) (.output i) (some ((s.files dir (.output i)).getD []))) }
  else { s with outputFd := Function.update s.outputFd i none }

def aplogdOutputSetup (cfg : Config) (r : SetupRes) (st : Storage) (s : State) : State :=
  if r.access then Stream.all.foldl (fun s i => openOutput (cfg.outputPath st) (r.opens i) i s) s
  else s

/-- Descriptor 0 is not closed (`output_fd > 0`). -/
def closeFd (i : Stream) (s : State) : State :=
  { s with
    outputFd := Function.update s.outputFd i none
    kern := match s.outputFd i with
      | some (n + 1) => s.kern.close (n + 1)
      | _ => s.kern }

def aplogdCloseOutput (s : State) : State := Stream.all.foldl (fun s i => closeFd i s) s

structure SwitchRes where
  new : SetupRes
  old : SetupRes

/-- `g_current_storage = switch_storage(old, new)`. -/
def switchStorage (cfg : Config) (r : SwitchRes) (old new : Storage) (s : State) : State :=
  let s := aplogdCloseOutput { s with logfileMax := aplogdGetFilesize cfg new }
  let s := aplogdOutputSetup cfg r.new new s
  if r.new.succeeds then { s with currentStorage := new }
  else { aplogdOutputSetup cfg r.old old s with currentStorage := old }

/-! ## The RAM buffers -/

inductive WriteRes
  | wrote (n : ℕ)
  | enospc
  | ebadf
  | error
  deriving DecidableEq, Repr

/-- The outcomes for `aplogd_rambuf_output`: of the `write`s (those after the list write everything
they are asked to), and of a rotation. -/
structure OutRes where
  writes : List WriteRes
  backup : Stream → BackupRes
  setup : SetupRes

abbrev FlushRes := Stream → OutRes

/-- Appends to the file a descriptor refers to. -/
def appendTo (d : Option Desc) (data : Bytes) (files : CStr → FileMap LogFile Bytes) :
    CStr → FileMap LogFile Bytes :=
  match d with
  | some (.file dir i true) => Function.update files dir
      (Function.update (files dir) (.output i) (some ((files dir (.output i)).getD [] ++ data)))
  | _ => files

/-- `write(fd, data, ..)`; `fd` is opened with `O_APPEND`. -/
def writeFd (fd : ℕ) (data : Bytes) (s : State) : State :=
  { s with
    totalWriteSize := (s.totalWriteSize + data.length) % 2 ^ 32
    files := appendTo (s.kern.get fd) data s.files }

/-- The `while(need_written >0)` loop; every `write` starts at `input_buf_base`.  The result says
whether the loop ran to its end. -/
def writeLoop (fd : ℕ) (i : Stream) : List WriteRes → ℕ → State → Bool × State
  | [], need, s => (true, if need = 0 then s else writeFd fd ((s.inputBuf i).take need) s)
  | w :: ws, need, s =>
    if need = 0 then (true, s)
    else match w with
      | .wrote n =>
        writeLoop fd i ws (need - min n need) (writeFd fd ((s.inputBuf i).take (min n need)) s)
      | .enospc => (false, aplogdCloseOutput s)
      | .ebadf => (false, { s with outputFd := Function.update s.outputFd i none })
      | .error => (false, s)

/-- `aplogd_io_backupall(g_current_storage)`: the counter and the directory afterwards. -/
def backedUp (cfg : Config) (r : OutRes) (s : State) : ℕ × FileMap LogFile Bytes :=
  aplogdIoBackupall id r.backup (s.backupCount, s.files (cfg.outputPath s.currentStorage))

def backupOutputs (cfg : Config) (r : OutRes) (s : State) : State :=
  { s with
    backupCount := (backedUp cfg r s).1
    files := Function.update s.files (cfg.outputPath s.currentStorage) (backedUp cfg r s).2
    handed := fun i =>
      if ((backedUp cfg r s).2 (.output i)).isSome then s.handed i
      else s.handed i ++ (s.files (cfg.outputPath s.currentStorage) (.output i)).getD [] }

/-- The rotation at the end of `aplogd_rambuf_output`. -/
def rotateOutputs (cfg : Config) (r : OutRes) (s : State) : State :=
  { aplogdOutputSetup cfg r.setup s.currentStorage (backupOutputs cfg r (aplogdCloseOutput s)) with
    totalWriteSize := 0 }

def clearBuf (i : Stream) (s : State) : State :=
  { s with inputBuf := Function.update s.inputBuf i [] }

/-- What follows the write loop. -/
def afterWrites (cfg : Config) (r : OutRes) (i : Stream) : Bool × State → State
  | (false, s) => s
  | (true, s) =>
    if s.logfileMax ≤ s.totalWriteSize then rotateOutputs cfg r (clearBuf i s) else clearBuf i s

def aplogdRambufOutput (cfg : Config) (r : OutRes) (i : Stream) (s : State) : State :=
  if s.inputBuf i = [] then s
  else match s.outputFd i with
    | none => clearBuf i s
    | some fd => afterWrites cfg r i (writeLoop fd i r.writes (s.inputBuf i).length s)

def aplogdRambufOutputall (cfg : Config) (r : FlushRes) (s : State) : State :=
  Stream.all.foldl (fun s i => aplogdRambufOutput cfg (r i) i s) s

/-- `aplogd_ram_buff_size`. -/
def aplogdRamBuffSize : ℕ := 8 * 1024

/-- `aplogd_output_buffering`. -/
def aplogdOutputBuffering : ℕ := 4 * 1024

def aplogdRambufSpace (i : Stream) (s : State) : ℤ :=
  if (s.inputBuf i).length > aplogdRamBuffSize then -1
  else aplogdRamBuffSize - (s.inputBuf i).length

/-! ## Reading the streams -/

/-- What the log library makes of an entry that was read. -/
inductive LogEntry
  /-- `android_log_processLogBuffer` or `android_log_processBinaryLogBuffer` fails -/
  | unparsed
  /-- `android_log_shouldPrintLine` returns 0 -/
  | filtered
  /-- `android_log_formatLogLine` returns `NULL` -/
  | formatFailed
  | line (b : Bytes)
  deriving DecidableEq, Repr

def bufferBytes (i : Stream) (b : Bytes) (s : State) : State :=
  { s with inputBuf := Function.update s.inputBuf i (s.inputBuf i ++ b) }

def acceptBytes (i : Stream) (b : Bytes) (s : State) : State :=
  { s with accepted := Function.update s.accepted i (s.accepted i ++ b) }

/-- `LogfilterAndBuffering` of an entry that was parsed: its result (`none` for -1) and the state.
The `int` that `aplogd_rambuf_space` returns is compared as a `size_t`. -/
def logfilterAndBuffering (i : Stream) (e : LogEntry) (s : State) : Option ℕ × State :=
  match e with
  | .filtered => (some 0, s)
  | .line b =>
    if (b.length : ℤ) < aplogdRambufSpace i s % 2 ^ 32 then
      (some b.length, bufferBytes i b (acceptBytes i b s))
    else
      (none, { acceptBytes i b s with
        bytesLost := (s.bytesLost + b.length) % 2 ^ 32
        noSpace := true })
  | _ => (none, s)

/-- A flush, at the threshold or after a timeout. -/
def flushAll (cfg : Config) (r : FlushRes) (s : State) : State :=
  { aplogdRambufOutputall cfg r s with unwrittenBytes := 0, pollTimeout := -1 }

/-- What both read loops do with `ret` more bytes in a buffer. -/
def countUnwritten (cfg : Config) (r : FlushRes) (ret : ℕ) (s : State) : State :=
  if aplogdOutputBuffering ≤ s.unwrittenBytes + ret then flushAll cfg r s
  else { s with unwrittenBytes := s.unwrittenBytes + ret, pollTimeout := 60000 }

/-- The outcome of a `read` from a logger device; `fatal` is an error or the end of the file, on
which the daemon exits. -/
inductive LogRead
  | eintr
  | eagain
  | fatal
  | entry (e : LogEntry)
  deriving DecidableEq, Repr

/-- The loop over a logger device.  A read comes with the outcomes of the flush it may cause; a read
after the list fails with `EAGAIN`. -/
def readLog (cfg : Config) (i : Stream) : List (LogRead × FlushRes) → ℤ → State → Option State
  | [], _, s => some s
  | (r, fl) :: rs, readableLogSize, s =>
    if readableLogSize ≤ 0 then some s
    else match r with
      | .eintr => readLog cfg i rs readableLogSize s
      | .eagain => some s
      | .fatal => none
      | .entry .unparsed => some s
      | .entry e =>
        match logfilterAndBuffering i e s with
        | (none, s) => some s
        | (some ret, s) => readLog cfg i rs (readableLogSize - ret) (countUnwritten cfg fl ret s)

/-- What a `read` of at most 255 bytes returns; nothing at the end of the file or on an error. -/
abbrev KernelRead := { b : Bytes // b.length ≤ 255 }

/-- The loop over `/proc/kmsg`. -/
def readKernel (cfg : Config) : List (KernelRead × FlushRes) → State → State
  | [], s => s
  | (⟨b, _⟩, fl) :: rs, s =>
    if b.length = 0 then s
    else if 0 < aplogdRambufSpace .kernel s ∧ (b.length : ℤ) ≤ aplogdRambufSpace .kernel s ∧
        b.length ≤ 255 then
      readKernel cfg rs
        (countUnwritten cfg fl b.length (bufferBytes .kernel b (acceptBytes .kernel b s)))
    else { acceptBytes .kernel b s with noSpace := true }

/-! ## Saving and moving the logs of a storage -/

/-- The outcomes for `aplogd_log_save`: whether the directory exists, of the compressions, and which
of the compressed files leave the directory for the backup folder. -/
structure SaveRes where
  access : Bool
  gzip : Stream → Bool
  moved : LogFile → Bool

/-- `aplogd_util_gzip` of the output file of stream `i`: the file is replaced by a compressed one,
and a descriptor that is open on it keeps a file without a name. -/
def gzipOutput (dir : CStr) (i : Stream) (s : State) : State :=
  { s with
    files := Function.update s.files dir (Function.update (s.files dir) (.output i) none)
    kern := s.kern.map fun d => if d = .file dir i true then .file dir i false else d }

/-- `aplogd_util_move` of what ends in `.gz`.  The compressed outputs go with it; the folder they go
to is the subject of `Omap4.Aplogd.BackupDirs`. -/
def moveGz (dir : CStr) (r : SaveRes) (s : State) : State :=
  { s with files := Function.update s.files dir fun f =>
      match f with
      | .backupGz _ _ => if r.moved f then none else s.files dir f
      | _ => s.files dir f }

def saveOutputs (dir : CStr) (r : SaveRes) (s : State) : State :=
  moveGz dir r (Stream.all.foldl (fun s i =>
    if (s.files dir (.output i)).isSome && r.gzip i then gzipOutput dir i s else s) s)

def setBackupFlag (st : Storage) (s : State) : State :=
  { s with backupFlag := Function.update s.backupFlag st true }

/-- `aplogd_log_save`, the branch for a card. -/
def saveCard (cfg : Config) (r : SaveRes) (st : Storage) (s : State) : State :=
  if s.backupFlag st || !r.access then s
  else if Stream.all.all fun i => (s.files (cfg.outputPath st) (.output i)).isNone then
    setBackupFlag st s
  else setBackupFlag st (saveOutputs (cfg.outputPath st) r s)

def aplogdLogSave (cfg : Config) (r : SaveRes) (st : Storage) (s : State) : State :=
  match st with
  | .userdata => saveOutputs (cfg.outputPath .userdata) r s
  | .external => saveCard cfg r .external s
  | .secondary => saveCard cfg r .secondary s

/-- The two `open`s of `aplogd_move_logs` for one file. -/
inductive MoveOpens
  | srcFails
  | dstFails
  | ok
  deriving DecidableEq, Repr

/-- One file of `aplogd_move_logs`.  If the destination cannot be opened, the source stays open. -/
def moveLog (src dst : CStr) (o : MoveOpens) (i : Stream) (s : State) : State :=
  match s.files src (.output i), o with
  | none, _ => s
  | some _, .srcFails => s
  | some _, .dstFails => { s with kern := s.kern.openFd .other }
  | some b, .ok =>
    let files := Function.update s.files dst
      (Function.update (s.files dst) (.output i) (some ((s.files dst (.output i)).getD [] ++ b)))
    { s with files := Function.update files src (Function.update (files src) (.output i) none) }

/-- Descriptors that are open on a moved file lose it too; they are closed next, by the
`switch_storage` that follows every call. -/
def aplogdMoveLogs (cfg : Config) (o : Stream → MoveOpens) (old new : Storage)
    (s : State) : State :=
  if (cfg.storagePath old).isNone || (cfg.storagePath new).isNone then s
  else Stream.all.foldl (fun s i => moveLog (cfg.outputPath old) (cfg.outputPath new) (o i) i s) s

/-! ## Messages from vold -/

def isVoldMsgFor (cfg : Config) (st : Storage) (voldMsg : CStr) : Bool :=
  match cfg.storagePath st with
  | none => false
  | some p =>
    match CStr.strstr p voldMsg with
    | none => false
    | some msgPath =>
      match CStr.strchr ' ' msgPath with
      | none => false
      | some spaceLoc => p.length == msgPath.length - spaceLoc.length

def isTransToMounted (cfg : Config) (st : Storage) (voldMsg : CStr) : Bool :=
  isVoldMsgFor cfg st voldMsg &&
    (CStr.strstr "state changed from 3 (Checking) to 4 (Mounted)".toList voldMsg).isSome

def isTransToUnmounted (cfg : Config) (st : Storage) (voldMsg : CStr) : Bool :=
  isVoldMsgFor cfg st voldMsg &&
    (CStr.strstr "state changed from 4 (Mounted) to 5 (Unmounting)".toList voldMsg).isSome

def isBadRemoval (cfg : Config) (st : Storage) (voldMsg : CStr) : Bool :=
  isVoldMsgFor cfg st voldMsg && (CStr.strstr "bad removal".toList voldMsg).isSome

/-- What is done for a storage that was mounted: the save, the move and the switch. -/
structure MountRes where
  save : SaveRes
  move : Stream → MoveOpens
  switch : SwitchRes

/-- A message from vold, as the string in the buffer after the `read`, with the outcomes of what is
done about it: `secUnmounted` for the switch to the external storage, `secFallback` for the one to
the user data. -/
structure VoldRes where
  msg : CStr
  secMounted : MountRes
  secUnmounted : SwitchRes
  secFallback : SwitchRes
  extMounted : MountRes
  extUnmounted : SwitchRes

/-- The move, for sequential logs, and the switch to a storage that was mounted. -/
def moveAndSwitch (cfg : Config) (r : MountRes) (st : Storage) (s : State) : State :=
  if cfg.usrCfgSeq then
    switchStorage cfg r.switch s.currentStorage st (aplogdMoveLogs cfg r.move s.currentStorage st s)
  else switchStorage cfg r.switch s.currentStorage st s

/-- The common part of the two branches for a mounted storage; `switches` is their condition. -/
def storageMounted (cfg : Config) (r : MountRes) (st : Storage) (switches : Bool)
    (s : State) : State :=
  if switches then moveAndSwitch cfg r st (aplogdLogSave cfg r.save st s)
  else aplogdLogSave cfg r.save st s

def secondaryMounted (cfg : Config) (r : VoldRes) (s : State) : State :=
  if isTransToMounted cfg .secondary r.msg then
    storageMounted cfg r.secMounted .secondary (aplogdCalcStoragePref cfg = .secondary) s
  else s

/-- The switch from the secondary storage to the external one or, failing that, the user data. -/
def leaveSecondary (cfg : Config) (r : VoldRes) (s : State) : State :=
  if (switchStorage cfg r.secUnmounted .secondary .external s).currentStorage = .secondary then
    switchStorage cfg r.secFallback .secondary .userdata
      (switchStorage cfg r.secUnmounted .secondary .external s)
  else switchStorage cfg r.secUnmounted .secondary .external s

def secondaryUnmounted (cfg : Config) (r : VoldRes) (s : State) : State :=
  if (isTransToUnmounted cfg .secondary r.msg || isBadRemoval cfg .secondary r.msg) ∧
      s.currentStorage = .secondary then leaveSecondary cfg r s
  else s

def externalMounted (cfg : Config) (r : VoldRes) (s : State) : State :=
  if isTransToMounted cfg .external r.msg then
    storageMounted cfg r.extMounted .external
      (aplogdCalcStoragePref cfg ≠ .userdata ∧ s.currentStorage = .userdata) s
  else s

def externalUnmounted (cfg : Config) (r : VoldRes) (s : State) : State :=
  if (isTransToUnmounted cfg .external r.msg || isBadRemoval cfg .external r.msg) ∧
      s.currentStorage = .external then switchStorage cfg r.extUnmounted .external .userdata s
  else s

def readVold (cfg : Config) (r : VoldRes) (s : State) : State :=
  externalUnmounted cfg r
    (externalMounted cfg r (secondaryUnmounted cfg r (secondaryMounted cfg r s)))

/-! ## The loop -/

/-- What the slots that are ready have to read. -/
structure Reads where
  log : Stream → ℤ × List (LogRead × FlushRes)
  kernel : List (KernelRead × FlushRes)
  vold : VoldRes

def aplogdIoReadData (cfg : Config) (d : Reads) (slot : Slot) (s : State) : Option State :=
  match slot with
  | .log .kernel => some (readKernel cfg d.kernel s)
  | .log i => readLog cfg i (d.log i).2 (d.log i).1 s
  | .vold => some (readVold cfg d.vold s)

structure Revents where
  pollin : Bool
  pollerr : Bool
  pollhup : Bool
  deriving DecidableEq, Repr

def aplogdIoHandlePollerr (slot : Slot) (s : State) : State :=
  match s.pollFd slot with
  | some fd => { s with kern := s.kern.close fd, pollFd := Function.update s.pollFd slot none }
  | none => s

/-- `poll` reports nothing for a slot without a descriptor. -/
def aplogdIoHandlePoll (cfg : Config) (d : Reads) (rev : Revents) (slot : Slot) (s : State) :
    Option State :=
  if (s.pollFd slot).isNone then some s
  else
    (if rev.pollin then aplogdIoReadData cfg d slot s else some s).map fun s =>
      if rev.pollerr || rev.pollhup then aplogdIoHandlePollerr slot s else s

/-- The loop over the slots.  The `i--` after a removal only visits the same slot again, whose
`revents` are then 0. -/
def handleSlots (cfg : Config) (rev : Slot → Revents) (d : Reads) : List Slot → State → Option State
  | [], s => some s
  | slot :: L, s => (aplogdIoHandlePoll cfg d (rev slot) slot s).bind (handleSlots cfg rev d L)

inductive PollRes
  | timeout (r : FlushRes)
  | failed
  | ready (rev : Slot → Revents) (d : Reads)

def handlePollRes (cfg : Config) (p : PollRes) (s : State) : Option State :=
  match p with
  | .timeout r =>
    if s.pollTimeout = -1 then none
    else some (flushAll cfg r s)
  | .failed => some s
  | .ready rev d => handleSlots cfg rev d Slot.all s

def aplogdConfigLoad (cfg : Config) (s : State) : State :=
  { s with
    collectFlag := aplogdIsCollected cfg
    currentStorage := aplogdCalcStoragePref cfg
    logfileMax := aplogdGetFilesize cfg (aplogdCalcStoragePref cfg) }

/-- The poll set after the loop of a reload. -/
def reloadPollSet (s : State) : State :=
  { s with pollFd := fun slot =>
      match slot with
      | .log i =>
        if s.collectFlag i then (s.inputFd (.log i)).or (s.pollFd (.log i)) else none
      | .vold => s.pollFd .vold }

/-- What the loop does when `config_changed` was set. -/
def configChanged (cfg : Config) (r : SwitchRes) (s : State) : State :=
  reloadPollSet (aplogdConfigLoad cfg (
    if s.currentStorage = aplogdCalcStoragePref cfg then s
    else switchStorage cfg r s.currentStorage (aplogdCalcStoragePref cfg) s))

/-- Opens the input of a slot and adds it to the poll set. -/
def openInput (slot : Slot) (ok : Bool) (s : State) : State :=
  if ok then
    { s with
      inputFd := Function.update s.inputFd slot (some s.kern.lowest)
      pollFd := Function.update s.pollFd slot (some s.kern.lowest)
      kern := s.kern.openFd (.input slot) }
  else s

/-- An iteration: a reload (if one was signalled), the result of `poll`, and whether the vold socket
can be connected. -/
structure Iter where
  reload : Option SwitchRes
  poll : PollRes
  connect : Bool

def reloadConfig (cfg : Config) (it : Iter) (s : State) : State :=
  match it.reload with
  | some r => configChanged cfg r s
  | none => s

def connectVold (it : Iter) (s : State) : State :=
  if (s.inputFd .vold).isNone then openInput .vold it.connect s else s

/-- **One iteration of the loop of `aplogd_log_io`**; `none` if the daemon exits in it, or if `poll`
has no timeout and cannot return for one. -/
def aplogdLogIo (cfg : Config) (s : State) (it : Iter) : Option State :=
  (handlePollRes cfg it.poll (reloadConfig cfg it s)).map (connectVold it)

/-! ## Start-up -/

structure BootRes where
  saveSecondary : SaveRes
  saveUserdata : SaveRes
  /-- `is_storage_writable(STORAGE_SECONDARY)` -/
  writable : Bool
  saveSecondary2 : SaveRes
  setupSecondary : SetupRes
  saveExternal : SaveRes
  setupExternal : SetupRes
  setupUserdata : SetupRes
  inputs : Stream → Bool
  vold : Bool

/-- The variables before `aplogd_log_io`, for the descriptors and files the process starts with. -/
def State.start (kern : FdTable Desc) (files : CStr → FileMap LogFile Bytes) : State where
  inputFd _ := none
  outputFd _ := none
  collectFlag _ := false
  inputBuf _ := []
  pollFd _ := none
  pollTimeout := -1
  currentStorage := .userdata
  logfileMax := 10 * 1024 * 1024
  totalWriteSize := 0
  unwrittenBytes := 0
  bytesLost := 0
  backupCount := 0
  backupFlag _ := false
  kern := kern
  files := files
  accepted _ := []
  handed _ := []
  noSpace := false

/-- `aplogd_input_setup`; the vold socket is optional. -/
def aplogdInputSetup (r : BootRes) (s : State) : State :=
  openInput .vold r.vold (Stream.all.foldl (fun s i =>
    if s.collectFlag i && (s.inputFd (.log i)).isNone then openInput (.log i) (r.inputs i) s
      else s) s)

/-- `aplogd_input_setup` returns 0. -/
def inputSetupSucceeds (cfg : Config) (r : BootRes) : Bool :=
  Stream.all.all fun i => !aplogdIsCollected cfg i || r.inputs i

def setStorage (st : Storage) (s : State) : State := { s with currentStorage := st }

def bootSecondary (cfg : Config) (r : BootRes) (s : State) : State :=
  if s.currentStorage ≠ .secondary then s
  else if !r.writable then setStorage .external s
  else if r.setupSecondary.succeeds then
    aplogdOutputSetup cfg r.setupSecondary .secondary
      (aplogdLogSave cfg r.saveSecondary2 .secondary s)
  else setStorage .external (aplogdOutputSetup cfg r.setupSecondary .secondary
    (aplogdLogSave cfg r.saveSecondary2 .secondary s))

def bootExternal (cfg : Config) (r : BootRes) (s : State) : State :=
  if s.currentStorage ≠ .external then s
  else if r.setupExternal.succeeds then
    aplogdOutputSetup cfg r.setupExternal .external (aplogdLogSave cfg r.saveExternal .external s)
  else setStorage .userdata (aplogdOutputSetup cfg r.setupExternal .external
    (aplogdLogSave cfg r.saveExternal .external s))

/-- `none` if the setup of the user data, the last resort, fails. -/
def bootUserdata (cfg : Config) (r : BootRes) (s : State) : Option State :=
  if s.currentStorage ≠ .userdata then some s
  else if r.setupUserdata.succeeds then some (aplogdOutputSetup cfg r.setupUserdata .userdata s)
  else none

/-- The start of `aplogd_log_io`, up to its loop; `none` if the daemon gives up. -/
def aplogdIoBootFinish (cfg : Config) (r : BootRes) (s : State) : Option State :=
  ((bootUserdata cfg r (bootExternal cfg r (bootSecondary cfg r (aplogdConfigLoad cfg
    (aplogdLogSave cfg r.saveUserdata .userdata
      (aplogdLogSave cfg r.saveSecondary .secondary s)))))).map (aplogdInputSetup r)).filter
    fun _ => inputSetupSucceeds cfg r

end Omap4.Aplogd
