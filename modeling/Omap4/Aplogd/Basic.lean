import Omap4.CString

/-!
# Omap4.Aplogd.Basic — streams, storages and configuration of aplogd

The enumerations of `log_io.h` and `aplogd.h`, the user configuration of `aplogd.c` with the
functions that only read it, and the files aplogd keeps in the directory of a storage.
-/

namespace Omap4.Aplogd

/-- `enum aplogd_poll_indexes` up to `APLOGD_INPUT_LAST`: the log streams. -/
inductive Stream
  | main
  | radio
  | events
  | system
  | kernel
  deriving DecidableEq, Repr

/-- The streams in the order of their indexes, as the loops up to `APLOGD_INPUT_LAST` visit them. -/
def Stream.all : List Stream := [.main, .radio, .events, .system, .kernel]

theorem Stream.mem_all (i : Stream) : i ∈ Stream.all := by
  cases i <;> decide

/-- The slots of `aplogd_io_array` and of the poll set. -/
inductive Slot
  | log (i : Stream)
  | vold
  deriving DecidableEq, Repr

def Slot.all : List Slot := Stream.all.map Slot.log ++ [.vold]

/-- `STORAGE_T`. -/
inductive Storage
  | userdata
  | external
  | secondary
  deriving DecidableEq, Repr

abbrev Bytes := List UInt8

/-- `output_filename`. -/
def outputFilename : Stream → CStr
  | .main => "log.main.txt".toList
  | .radio => "log.radio.txt".toList
  | .events => "log.events.txt".toList
  | .system => "log.system.txt".toList
  | .kernel => "log.kernel.txt".toList

/-- `MAX_PATH_LEN`. -/
def maxPathLen : ℕ := 255

/-- The files aplogd keeps in the directory of a storage: the output of a stream, its rotated copy
before compression (`backup.0.<name>`) and its compressed backups (`backup.<n>.<name>.gz`). -/
inductive LogFile
  | output (i : Stream)
  | backup (i : Stream)
  | backupGz (n : ℕ) (i : Stream)
  deriving DecidableEq, Repr

/-- The user configuration: what `parse_usr_cfg` and `aplogd_init_storage_refs` set up. -/
structure Config where
  /-- `g_storage_path` (`none` for `NULL`) -/
  storagePath : Storage → Option CStr
  usrCfgCollect : CStr
  usrCfgSize : ℕ
  usrCfgSeq : Bool
  usrCfgExt : Bool

/-- `g_output_path`; a `NULL` is printed as `(null)`. -/
def Config.outputPath (cfg : Config) (st : Storage) : CStr :=
  match cfg.storagePath st with
  | some p => p ++ "/logger".toList
  | none => "(null)".toList

def aplogdCalcStoragePref (cfg : Config) : Storage :=
  if cfg.usrCfgExt then .secondary else .userdata

def aplogdGetFilesize (cfg : Config) : Storage → ℕ
  | .secondary | .external =>
    if cfg.usrCfgSize = 0 ∨ cfg.usrCfgSize > 1000 then 50 * 1024 * 1024
    else cfg.usrCfgSize * 1024 * 1024
  | .userdata => 10 * 1024 * 1024

/-- The letter of a stream in `usr_cfg_collect`. -/
def Stream.letter : Stream → Char
  | .main => 'm'
  | .radio => 'r'
  | .events => 'e'
  | .system => 's'
  | .kernel => 'k'

def aplogdIsCollected (cfg : Config) (i : Stream) : Bool :=
  (cfg.usrCfgCollect.strchr i.letter).isSome

end Omap4.Aplogd
