import Omap4.CString
import Omap4.Tokens

/-!
# Omap4.Libpower.Power — the power module (`power.c`)

`omap_power_init` reads the frequencies of the CPU and keeps the last of them as `max_freq` and one
in the middle as `nom_freq`.  `omap_power_set_interactive` writes one of the two, depending on the
screen.

The list is read into a buffer of 120 bytes, and at most 12 frequencies are taken from it:
`max_freq` is the last of the first 12 tokens of the first 119 bytes (`omapPowerInit_maxFreq`).
-/

namespace Omap4.Libpower

open Tokens

/-! ## Files under `/sys` -/

structure Sysfs where
  /-- what a file holds (`none`: it cannot be opened or read) -/
  content : CStr → Option (List Char)
  /-- the file can be opened for writing -/
  writable : CStr → Bool

/-- The path and the text of a `write`. -/
abbrev Write := CStr × CStr

/-- `sysfs_write`. -/
def Sysfs.write (sys : Sysfs) (path text : CStr) : List Write :=
  if sys.writable path then [(path, text)] else []

/-- `sysfs_read`: the bytes before the NUL that it adds. -/
def Sysfs.read (sys : Sysfs) (path : CStr) (size : ℕ) : Option (List Char) :=
  (sys.content path).map (·.take (size - 1))

/-- The texts that were written to a file. -/
def writtenTo (path : CStr) (ws : List Write) : List CStr := (ws.filter (·.1 = path)).map Prod.snd

theorem writtenTo_append (path : CStr) (ws ws' : List Write) :
    writtenTo path (ws ++ ws') = writtenTo path ws ++ writtenTo path ws' := by
  rw [writtenTo, List.filter_append, List.map_append]
  rfl

theorem writtenTo_write (sys : Sysfs) (path text : CStr) :
    writtenTo path (sys.write path text) = if sys.writable path then [text] else [] := by
  unfold Sysfs.write
  split_ifs
  · rw [writtenTo, List.filter_cons_of_pos (by simp)]
    rfl
  · rfl

theorem writtenTo_write_of_ne (sys : Sysfs) {path path' : CStr} (h : path' ≠ path) (text : CStr) :
    writtenTo path (sys.write path' text) = [] := by
  unfold Sysfs.write
  split_ifs
  · rw [writtenTo, List.filter_cons_of_neg (by simpa using h)]
    rfl
  · rfl

/-! ## The code -/

/-- `CPUFREQ_INTERACTIVE`. -/
def cpufreqInteractive : CStr := "/sys/devices/system/cpu/cpufreq/interactive/".toList

/-- `CPUFREQ_CPU0`. -/
def cpufreqCpu0 : CStr := "/sys/devices/system/cpu/cpu0/cpufreq/".toList

/-- `NOTIFY_ON_MIGRATE`. -/
def notifyOnMigrate : CStr := "/dev/cpuctl/cpu.notify_on_migrate".toList

/-- `MAX_FREQ_NUMBER`. -/
def maxFreqNumber : ℕ := 12

/-- `NOM_FREQ_INDEX`. -/
def nomFreqIndex : ℕ := 3

/-- `sizeof(freq_buf)`. -/
def freqBufSize : ℕ := maxFreqNumber * 10

/-- The delimiters of `str_to_tokens`. -/
def isDelim (c : Char) : Bool := [' ', '\t', '\r', '\n'].contains c

/-- `str_to_tokens`, where every `strdup` succeeds. -/
def strToTokens : ℕ → CStr → List CStr
  | 0, _ => []
  | n + 1, s =>
    match strtok isDelim s with
    | none => []
    | some (token, rest) => token :: strToTokens n rest

/-- The static variables and `inited`.  `freqList` has `freq_num` entries. -/
structure PowerModule where
  freqList : List CStr
  maxFreq : Option CStr
  nomFreq : Option CStr
  inited : Bool
  ready : inited = true → maxFreq.isSome = true ∧ nomFreq.isSome = true

/-- The number of the frequency that becomes `nom_freq`, counted from 1. -/
def nomIndex (freqNum : ℕ) : ℕ :=
  if 6 ≤ freqNum then freqNum - freqNum / 3 else if freqNum < nomFreqIndex then freqNum
    else nomFreqIndex

theorem nomIndex_le {n : ℕ} (h : 0 < n) : 0 < nomIndex n ∧ nomIndex n ≤ n := by
  unfold nomIndex nomFreqIndex
  split_ifs
  · omega
  · omega
  · omega

/-- The writes of `omap_power_init`. -/
def initWrites (sys : Sysfs) (nomFreq : CStr) : List Write :=
  sys.write (cpufreqInteractive ++ "timer_rate".toList) "30000".toList ++
  sys.write (cpufreqInteractive ++ "min_sample_time".toList) "60000".toList ++
  sys.write (cpufreqInteractive ++ "hispeed_freq".toList) nomFreq ++
  sys.write (cpufreqInteractive ++ "go_hispeed_load".toList) "99".toList ++
  sys.write (cpufreqInteractive ++ "above_hispeed_delay".toList) "30000".toList

/-- The part of `omap_power_init` behind `str_to_tokens`. -/
def setFrequencies (sys : Sysfs) (freqs : List CStr) (m : PowerModule) : PowerModule × List Write :=
  if h : 0 < freqs.length then
    ({ freqList := freqs
       maxFreq := freqs[freqs.length - 1]?
       nomFreq := freqs[nomIndex freqs.length - 1]?
       inited := true
       ready := fun _ => by
        have := nomIndex_le h
        have hmax : freqs.length - 1 < freqs.length := by omega
        have hnom : nomIndex freqs.length - 1 < freqs.length := by omega
        simp [hmax, hnom] },
      initWrites sys (freqs.getD (nomIndex freqs.length - 1) []))
  else ({ m with freqList := freqs }, [])

/-- `omap_power_init`: an empty list of frequencies is an error as well. -/
def omapPowerInit (sys : Sysfs) (m : PowerModule) : PowerModule × List Write :=
  match sys.read (cpufreqCpu0 ++ "scaling_available_frequencies".toList) freqBufSize with
  | none | some [] => (m, [])
  | some (c :: buf) => setFrequencies sys (strToTokens maxFreqNumber (CStr.ofBuffer (c :: buf))) m

/-- `omap_power_set_interactive`.  There is no result if the frequency is `NULL`. -/
def omapPowerSetInteractive (sys : Sysfs) (on : Bool) (m : PowerModule) : Option (List Write) :=
  if ¬ m.inited then some []
  else (if on then m.maxFreq else m.nomFreq).map fun freq =>
    sys.write (cpufreqCpu0 ++ "scaling_max_freq".toList) freq ++
    sys.write notifyOnMigrate (if on then "1" else "0").toList

/-! ## What is kept -/

/-- `str_to_tokens` gives the first tokens. -/
theorem strToTokens_eq (n : ℕ) (s : CStr) : strToTokens n s = (tokens isDelim s).take n := by
  induction n generalizing s with
  | zero => rfl
  | succ n ih =>
    rw [strToTokens]
    cases hs : strtok isDelim s with
    | none => rw [tokens_of_strtok_none hs, List.take_nil]
    | some r =>
      obtain ⟨token, rest⟩ := r
      rw [(tokens_of_strtok hs).1, List.take_succ_cons]
      exact congrArg (token :: ·) (ih rest)

/-- **`max_freq`** is the last of the tokens that fit, in the part of the file that fits. -/
theorem omapPowerInit_maxFreq {sys : Sysfs} {content : List Char}
    (hread : sys.content (cpufreqCpu0 ++ "scaling_available_frequencies".toList) = some content)
    (hnul : CStr.nul ∉ content) (htokens : tokens isDelim (content.take (freqBufSize - 1)) ≠ [])
    (m : PowerModule) :
    (omapPowerInit sys m).1.inited = true ∧
      (omapPowerInit sys m).1.maxFreq =
        ((tokens isDelim (content.take (freqBufSize - 1))).take maxFreqNumber).getLast? := by
  have hbuf : sys.read (cpufreqCpu0 ++ "scaling_available_frequencies".toList) freqBufSize =
      some (content.take (freqBufSize - 1)) := by
    rw [Sysfs.read, hread, Option.map_some]
  have hstring : CStr.ofBuffer (content.take (freqBufSize - 1)) = content.take (freqBufSize - 1) :=
    CStr.ofBuffer_of_nul_notMem fun h => hnul (List.mem_of_mem_take h)
  unfold omapPowerInit
  rw [hbuf]
  cases hcut : content.take (freqBufSize - 1) with
  | nil =>
    rw [hcut] at htokens
    exact absurd rfl htokens
  | cons c buf =>
    rw [hcut] at hstring htokens
    have hlen : 0 < ((tokens isDelim (c :: buf)).take maxFreqNumber).length := by
      have := List.length_pos_iff.mpr htokens
      rw [List.length_take, maxFreqNumber]
      omega
    simp only [hstring, strToTokens_eq, setFrequencies, dif_pos hlen, List.getLast?_eq_getElem?,
      and_self]

/-- No state of the module makes `omap_power_set_interactive` write a `NULL`. -/
theorem setInteractive_isSome (sys : Sysfs) (on : Bool) (m : PowerModule) :
    (omapPowerSetInteractive sys on m).isSome = true := by
  unfold omapPowerSetInteractive
  by_cases hinited : m.inited = true
  · obtain ⟨hmax, hnom⟩ := m.ready hinited
    rw [if_neg (not_not.mpr hinited), Option.isSome_map]
    cases on with
    | true => exact hmax
    | false => exact hnom
  · rw [if_pos hinited]
    rfl

/-- With the screen on, `max_freq` is written once, if the file can be opened. -/
theorem setInteractive_maxFreq {m : PowerModule} {freq : CStr} (hinited : m.inited = true)
    (hfreq : m.maxFreq = some freq) (sys : Sysfs) :
    ∃ ws, omapPowerSetInteractive sys true m = some ws ∧
      writtenTo (cpufreqCpu0 ++ "scaling_max_freq".toList) ws =
        if sys.writable (cpufreqCpu0 ++ "scaling_max_freq".toList) then [freq] else [] := by
  have hne : notifyOnMigrate ≠ cpufreqCpu0 ++ "scaling_max_freq".toList := by decide +kernel
  obtain ⟨ws, hrun⟩ := Option.isSome_iff_exists.mp (setInteractive_isSome sys true m)
  refine ⟨ws, hrun, ?_⟩
  rw [omapPowerSetInteractive, if_neg (not_not.mpr hinited), hfreq] at hrun
  obtain rfl := Option.some.inj hrun
  show writtenTo _ (sys.write (cpufreqCpu0 ++ "scaling_max_freq".toList) freq ++
    sys.write notifyOnMigrate "1".toList) = _
  rw [writtenTo_append, writtenTo_write, writtenTo_write_of_ne sys hne, List.append_nil]

end Omap4.Libpower
