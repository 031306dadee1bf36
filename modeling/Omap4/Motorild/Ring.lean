import Omap4.Libpower.Power

/-!
# Omap4.Motorild.Ring — boosting the CPU for a call (`ring` in `motorild.c`)

`ring` writes the last token of the list of frequencies to `scaling_max_freq`.  The power module
writes its `max_freq` to the same file when the screen goes on.  For a list in increasing order both
mean the highest frequency.

`ring` has a buffer of 1024 bytes and no limit on the tokens, and its frequency is always the
highest (`ring_highest`).  The two agree if and only if the buffer and the array of the power module
hold the whole list (`boosters_agree_iff`).
-/

namespace Omap4.Motorild

open Tokens Libpower

/-! ## The code -/

/-- `FREQUENCIES_PATH`. -/
def frequenciesPath : CStr :=
  "/sys/devices/system/cpu/cpu0/cpufreq/scaling_available_frequencies".toList

/-- `MAXFREQ_PATH`. -/
def maxfreqPath : CStr := "/sys/devices/system/cpu/cpu0/cpufreq/scaling_max_freq".toList

/-- `CPU1_ONLINE_PATH`. -/
def cpu1OnlinePath : CStr := "/sys/devices/system/cpu/cpu1/online".toList

/-- `BOOSTPULSE_PATH`. -/
def boostpulsePath : CStr := "/sys/devices/system/cpu/cpufreq/interactive/boostpulse".toList

/-- `sizeof(buf)`. -/
def ringBufSize : ℕ := 1024

/-- The delimiters of `ring`. -/
def ringDelim (c : Char) : Bool := [' ', '\r', '\n'].contains c

/-- The `while` loop; `strtok` makes the rest shorter, and its length is enough for `n`. -/
def ringLoop : ℕ → Option CStr → CStr → Option CStr
  | 0, maxFreq, _ => maxFreq
  | n + 1, maxFreq, s =>
    match strtok ringDelim s with
    | none => maxFreq
    | some (tok, rest) => ringLoop n (some tok) rest

/-- `buf` after the `read`. -/
def ringBuf (content : List Char) : List Char :=
  content.take ringBufSize ++ List.replicate (ringBufSize - content.length) CStr.nul

/-- The value of `max_freq`.  There is no result if the string does not end in `buf`. -/
def ringMaxFreq (sys : Sysfs) : Option (Option CStr) :=
  match sys.content frequenciesPath with
  | none | some [] => some none
  | some (c :: content) =>
    if CStr.nul ∈ ringBuf (c :: content) then
      some (ringLoop ringBufSize none (CStr.ofBuffer (ringBuf (c :: content))))
    else none

/-- The second CPU is set online unless it is. -/
def onlineCpu1 (sys : Sysfs) : List Write :=
  match sys.content cpu1OnlinePath with
  | none | some [] => []
  | some (c :: _) => if c ≠ '1' then sys.write cpu1OnlinePath "1".toList else []

def ring (sys : Sysfs) : Option (List Write) :=
  (ringMaxFreq sys).map fun maxFreq =>
    maxFreq.elim [] (sys.write maxfreqPath) ++ sys.write boostpulsePath "1".toList ++ onlineCpu1 sys

/-! ## Lists of frequencies -/

/-- The value of a frequency. -/
def freqValue (f : CStr) : ℕ := Nat.ofDigitChars 10 f 0

/-- Frequencies, each with a space and as many further ones behind it. -/
def spaced (init : List (CStr × ℕ)) : CStr :=
  init.flatMap fun x => x.1 ++ ' ' :: List.replicate x.2 ' '

/-- A content of `scaling_available_frequencies`: frequencies in increasing order with spaces
between them, and then a newline. -/
structure FreqTable where
  init : List (CStr × ℕ)
  last : CStr
  /-- the spaces before the newline -/
  trailing : ℕ
  decimal : ∀ f ∈ init.map Prod.fst ++ [last], f ≠ [] ∧ ∀ c ∈ f, c.isDigit = true
  increasing : (init.map Prod.fst ++ [last]).Pairwise fun f g => freqValue f < freqValue g
  short : (spaced init ++ last ++ List.replicate trailing ' ' ++ ['\n']).length < 1024

namespace FreqTable

variable (t : FreqTable)

def freqs : List CStr := t.init.map Prod.fst ++ [t.last]

/-- The text up to the end of the last frequency. -/
def listed : CStr := spaced t.init ++ t.last

def content : List Char := t.listed ++ List.replicate t.trailing ' ' ++ ['\n']

/-- The highest frequency. -/
def Highest (f : CStr) : Prop := f ∈ t.freqs ∧ ∀ g ∈ t.freqs, freqValue g ≤ freqValue f

end FreqTable

/-- The text is written to `scaling_max_freq`, once, if the file can be opened. -/
def Boosts (sys : Sysfs) (f : CStr) (ws : List Write) : Prop :=
  writtenTo maxfreqPath ws = if sys.writable maxfreqPath then [f] else []

/-- The power module keeps the highest frequency and writes it when the screen goes on, and `ring`
writes the same text. -/
def BoostersAgree (sys : Sysfs) (m : PowerModule) (t : FreqTable) : Prop :=
  ∃ f, t.Highest f ∧ (omapPowerInit sys m).1.maxFreq = some f ∧
    (∃ ws, omapPowerSetInteractive sys true (omapPowerInit sys m).1 = some ws ∧ Boosts sys f ws) ∧
    ∃ ws, ring sys = some ws ∧ Boosts sys f ws

/-! ## The frequency of `ring` -/

/-- The loop ends with the last token. -/
theorem ringLoop_eq {n : ℕ} {s : CStr} (h : s.length ≤ n) (maxFreq : Option CStr) :
    ringLoop n maxFreq s = (tokens ringDelim s).getLast?.or maxFreq := by
  induction n generalizing s maxFreq with
  | zero =>
    rw [List.length_eq_zero_iff.mp (Nat.le_zero.mp h)]
    rfl
  | succ n ih =>
    rw [ringLoop]
    cases hs : strtok ringDelim s with
    | none =>
      rw [tokens_of_strtok_none hs]
      rfl
    | some r =>
      obtain ⟨tok, rest⟩ := r
      obtain ⟨htokens, hlen⟩ := tokens_of_strtok hs
      rw [htokens, List.getLast?_cons]
      show ringLoop n (some tok) rest = _
      rw [ih (by omega)]
      cases (tokens ringDelim rest).getLast? with
      | none => rfl
      | some f => rfl

theorem ringMaxFreq_eq {sys : Sysfs} {content : List Char}
    (hread : sys.content frequenciesPath = some content) (hnul : CStr.nul ∉ content)
    (hshort : content.length < ringBufSize) :
    ringMaxFreq sys = some (tokens ringDelim content).getLast? := by
  obtain ⟨k, hk⟩ : ∃ k, ringBufSize - content.length = k + 1 :=
    ⟨ringBufSize - content.length - 1, by omega⟩
  have hbuf : ringBuf content = content ++ CStr.nul :: List.replicate k CStr.nul := by
    rw [ringBuf, List.take_of_length_le (Nat.le_of_lt hshort), hk, List.replicate_succ]
  unfold ringMaxFreq
  rw [hread]
  cases content with
  | nil => rfl
  | cons c content =>
    show (if CStr.nul ∈ ringBuf (c :: content) then _ else none) = _
    rw [hbuf, if_pos (by simp), CStr.ofBuffer_terminated hnul, ringLoop_eq (Nat.le_of_lt hshort),
      Option.or_none]

/-- The other files that `ring` writes to are not `scaling_max_freq`. -/
theorem boosts_ring (sys : Sysfs) (f : CStr) :
    Boosts sys f (sys.write maxfreqPath f ++ sys.write boostpulsePath "1".toList ++
      onlineCpu1 sys) := by
  have hpulse : boostpulsePath ≠ maxfreqPath := by decide +kernel
  have hcpu1 : cpu1OnlinePath ≠ maxfreqPath := by decide +kernel
  have honline : writtenTo maxfreqPath (onlineCpu1 sys) = [] := by
    unfold onlineCpu1
    split
    · rfl
    · rfl
    · split_ifs
      · exact writtenTo_write_of_ne sys hcpu1 _
      · rfl
  rw [Boosts, writtenTo_append, writtenTo_append, writtenTo_write, writtenTo_write_of_ne sys hpulse,
    honline, List.append_nil, List.append_nil]

/-! ## The tokens of a table -/

section

variable {delim : Char → Bool} (hspace : delim ' ' = true) (hdigit : ∀ c, c.isDigit = true →
  delim c = false)

include hspace hdigit

theorem tokens_spaced {init : List (CStr × ℕ)}
    (hinit : ∀ f ∈ init.map Prod.fst, f ≠ [] ∧ ∀ c ∈ f, c.isDigit = true) (s : CStr) :
    tokens delim (spaced init ++ s) = init.map Prod.fst ++ tokens delim s := by
  induction init with
  | nil => rfl
  | cons x init ih =>
    obtain ⟨hne, hdigits⟩ := hinit x.1 List.mem_cons_self
    have hspaces : ∀ c ∈ List.replicate x.2 ' ', delim c = true := by
      intro c hc
      rw [List.eq_of_mem_replicate hc]
      exact hspace
    have hsplit : spaced (x :: init) ++ s = x.1 ++
        ' ' :: (List.replicate x.2 ' ' ++ (spaced init ++ s)) := by
      simp [spaced]
    have hword : ∀ c ∈ x.1, delim c = false := by
      intro c hc
      exact hdigit c (hdigits c hc)
    rw [hsplit, tokens_append_cons _ hspace, tokens_word hne hword,
      tokens_delims_append hspaces, ih]
    · rfl
    · intro f hf
      exact hinit f (List.mem_cons_of_mem _ hf)

/-- The tokens of the text up to the end of the last frequency, whatever delimiters stand behind
it. -/
theorem FreqTable.tokens_listed (t : FreqTable) {ds : CStr} (hds : ∀ c ∈ ds, delim c = true) :
    tokens delim (t.listed ++ ds) = t.freqs := by
  obtain ⟨hne, hdigits⟩ := t.decimal t.last (by simp)
  have hword : ∀ c ∈ t.last, delim c = false := by
    intro c hc
    exact hdigit c (hdigits c hc)
  rw [FreqTable.listed, List.append_assoc, tokens_spaced hspace hdigit,
    tokens_word_append hne hword hds]
  · rfl
  · intro f hf
    exact t.decimal f (List.mem_append_left _ hf)

/-- A table that is cut behind its last frequency. -/
theorem FreqTable.tokens_take (t : FreqTable) (hnewline : delim '\n' = true) {k : ℕ}
    (hk : t.listed.length ≤ k) :
    tokens delim (t.content.take k) = t.freqs := by
  rw [FreqTable.content, List.append_assoc, List.take_append, List.take_of_length_le hk]
  refine t.tokens_listed hspace hdigit fun c hc => ?_
  rcases List.mem_append.mp (List.mem_of_mem_take hc) with hc | hc
  · rw [List.eq_of_mem_replicate hc]
    exact hspace
  · rw [List.mem_singleton.mp hc]
    exact hnewline

theorem FreqTable.tokens_content (t : FreqTable) (hnewline : delim '\n' = true) :
    tokens delim t.content = t.freqs := by
  have hlen : t.listed.length ≤ t.content.length := by
    rw [FreqTable.content, List.append_assoc, List.length_append]
    omega
  rw [← t.tokens_take hspace hdigit hnewline hlen, List.take_length]

end

theorem isDelim_of_isDigit (c : Char) (hc : c.isDigit = true) : isDelim c = false := by
  simp [isDelim, CStr.ne_of_isDigit hc (d := ' ') (by decide),
    CStr.ne_of_isDigit hc (d := '\t') (by decide), CStr.ne_of_isDigit hc (d := '\r') (by decide),
    CStr.ne_of_isDigit hc (d := '\n') (by decide)]

theorem ringDelim_of_isDigit (c : Char) (hc : c.isDigit = true) : ringDelim c = false := by
  simp [ringDelim, CStr.ne_of_isDigit hc (d := ' ') (by decide),
    CStr.ne_of_isDigit hc (d := '\r') (by decide), CStr.ne_of_isDigit hc (d := '\n') (by decide)]

/-! ## The highest frequency -/

/-- A frequency that is cut is not higher. -/
theorem freqValue_mono {f g : CStr} (h : f <+: g) : freqValue f ≤ freqValue g := by
  obtain ⟨s, rfl⟩ := h
  have hpos : 0 < 10 ^ s.length := Nat.pow_pos (by decide)
  have hsplit : freqValue (f ++ s) = 10 ^ s.length * freqValue f + freqValue s := by
    rw [freqValue, Nat.ofDigitChars_append]
    exact Nat.ofDigitChars_eq_ofDigitChars_zero
  rw [hsplit]
  exact (Nat.le_mul_of_pos_left _ hpos).trans (Nat.le_add_right _ _)

namespace FreqTable

variable (t : FreqTable)

theorem lt_last {f : CStr} (hf : f ∈ t.init.map Prod.fst) : freqValue f < freqValue t.last :=
  (List.pairwise_append.mp t.increasing).2.2 f hf t.last List.mem_cons_self

/-- The highest frequency is the last one. -/
theorem highest_iff (f : CStr) : t.Highest f ↔ f = t.last := by
  constructor
  · rintro ⟨hf, hall⟩
    rcases List.mem_append.mp hf with hinit | hlast
    · have hle := hall t.last (by simp [freqs])
      have hlt := t.lt_last hinit
      omega
    · exact List.mem_singleton.mp hlast
  · rintro rfl
    refine ⟨by simp [freqs], fun g hg => ?_⟩
    rcases List.mem_append.mp hg with hinit | hlast
    · exact Nat.le_of_lt (t.lt_last hinit)
    · rw [List.mem_singleton.mp hlast]

/-- Only the last frequency is as high as the last. -/
theorem eq_length_init {i : ℕ} {u : CStr} (hu : t.freqs[i]? = some u)
    (hle : freqValue t.last ≤ freqValue u) :
    i = t.init.length := by
  rw [freqs, List.getElem?_append] at hu
  split_ifs at hu with hi
  · have hlt := t.lt_last (List.mem_of_getElem? hu)
    omega
  · rw [List.length_map] at hi hu
    cases hdiff : i - t.init.length with
    | zero => omega
    | succ n =>
      rw [hdiff] at hu
      cases hu

theorem nul_notMem_content : CStr.nul ∉ t.content := by
  have hdigits : ∀ f ∈ t.freqs, CStr.nul ∉ f := by
    intro f hf hmem
    exact absurd ((t.decimal f hf).2 _ hmem) (by decide)
  have hspaced : CStr.nul ∉ spaced t.init := by
    rw [spaced, List.mem_flatMap]
    rintro ⟨x, hx, hmem⟩
    rcases List.mem_append.mp hmem with hmem | hmem
    · exact hdigits x.1 (List.mem_append_left _ (List.mem_map_of_mem hx)) hmem
    · have hspace := List.eq_of_mem_replicate (n := x.2 + 1) hmem
      exact absurd hspace (by decide)
  have hlast : CStr.nul ∉ t.last := hdigits t.last (by simp [freqs])
  have hend : CStr.nul ∉ List.replicate t.trailing ' ' ++ ['\n'] := by
    rw [List.mem_append, not_or]
    exact ⟨fun h => absurd (List.eq_of_mem_replicate h) (by decide), by decide⟩
  rw [content, listed, List.append_assoc, List.mem_append, List.mem_append, not_or, not_or]
  exact ⟨⟨hspaced, hlast⟩, hend⟩

/-- The part of the table that the power module reads has a token in it. -/
theorem tokens_take_ne_nil {k : ℕ} (hk : 0 < k) : tokens isDelim (t.content.take k) ≠ [] := by
  obtain ⟨f, rest, hcontent, hf⟩ : ∃ f rest, t.content = f ++ rest ∧ f ∈ t.freqs := by
    cases hinit : t.init with
    | nil =>
      refine ⟨t.last, List.replicate t.trailing ' ' ++ ['\n'], ?_, by simp [freqs]⟩
      simp [content, listed, hinit, spaced]
    | cons x init =>
      refine ⟨x.1, ' ' :: (List.replicate x.2 ' ' ++ (spaced init ++ (t.last ++
        (List.replicate t.trailing ' ' ++ ['\n'])))), ?_, by simp [freqs, hinit]⟩
      simp [content, listed, hinit, spaced]
  obtain ⟨hne, hdigits⟩ := t.decimal f hf
  obtain ⟨c, s, rfl⟩ := List.exists_cons_of_ne_nil hne
  obtain ⟨n, rfl⟩ : ∃ n, k = n + 1 := ⟨k - 1, by omega⟩
  have hc : isDelim c = false := isDelim_of_isDigit c (hdigits c List.mem_cons_self)
  rw [hcontent, List.cons_append, List.take_succ_cons, tokens_span hc]
  exact List.cons_ne_nil _ _

/-- A table that is cut inside its last frequency has a shorter token in the place of that. -/
theorem length_listed_le {k : ℕ} (h : (tokens isDelim (t.content.take k))[t.init.length]? =
    some t.last) :
    t.listed.length ≤ k := by
  by_contra hcut
  obtain ⟨hne, hdigits⟩ := t.decimal t.last (by simp)
  have hbefore : t.content.take k <+: spaced t.init ++ t.last.dropLast := by
    rw [← List.dropLast_append_of_ne_nil hne]
    apply List.prefix_of_prefix_length_le (List.take_prefix k t.content)
    · rw [content, List.append_assoc]
      exact (List.dropLast_prefix t.listed).trans (List.prefix_append t.listed _)
    · have hlen : (spaced t.init ++ t.last).dropLast.length = t.listed.length - 1 :=
        List.length_dropLast
      rw [hlen, List.length_take]
      omega
  have hinit : ∀ f ∈ t.init.map Prod.fst, f ≠ [] ∧ ∀ c ∈ f, c.isDigit = true := by
    intro f hf
    exact t.decimal f (List.mem_append_left _ hf)
  have hword : ∀ c ∈ t.last.dropLast, isDelim c = false := by
    intro c hc
    exact isDelim_of_isDigit c (hdigits c ((List.dropLast_sublist t.last).mem hc))
  obtain ⟨v, hv, hlast⟩ := tokens_cut hbefore h
  rw [tokens_spaced (by decide) isDelim_of_isDigit hinit, List.getElem?_append_right
    (by rw [List.length_map]), List.length_map, Nat.sub_self] at hv
  by_cases hnil : t.last.dropLast = []
  · rw [hnil] at hv
    cases hv
  · rw [tokens_word hnil hword] at hv
    obtain rfl := Option.some.inj hv
    have hle := hlast.length_le
    have hpos := List.length_pos_iff.mpr hne
    rw [List.length_dropLast] at hle
    omega

/-- Where the last frequency is found, the list is not too long and was not cut before its end. -/
theorem fits_of_getLast? {n k : ℕ} (h : ((tokens isDelim (t.content.take k)).take n).getLast? =
    some t.last) :
    t.freqs.length ≤ n ∧ t.listed.length ≤ k := by
  rw [List.getLast?_eq_getElem?, List.getElem?_take] at h
  split_ifs at h with hi
  generalize ((tokens isDelim (t.content.take k)).take n).length - 1 = i at h hi
  obtain ⟨u, hu, hlast⟩ := tokens_cut (List.take_prefix k t.content) h
  rw [t.tokens_content (by decide) isDelim_of_isDigit (by decide)] at hu
  obtain rfl := t.eq_length_init hu (freqValue_mono hlast)
  exact ⟨by simpa [freqs] using Nat.succ_le_of_lt hi, t.length_listed_le h⟩

/-- **Which part of a table shows its highest frequency**: `n` tokens of `k` bytes. -/
theorem getLast?_take_iff (n k : ℕ) :
    ((tokens isDelim (t.content.take k)).take n).getLast? = some t.last ↔
      t.freqs.length ≤ n ∧ t.listed.length ≤ k := by
  refine ⟨t.fits_of_getLast?, fun ⟨hn, hk⟩ => ?_⟩
  rw [t.tokens_take (by decide) isDelim_of_isDigit (by decide) hk, List.take_of_length_le hn]
  exact List.getLast?_concat

end FreqTable

/-! ## The two programs -/

/-- **`ring` writes the highest frequency** of every table. -/
theorem ring_highest {sys : Sysfs} {t : FreqTable}
    (hread : sys.content frequenciesPath = some t.content) :
    ∃ ws, ring sys = some ws ∧ Boosts sys t.last ws := by
  have hlast : ringMaxFreq sys = some (some t.last) := by
    rw [ringMaxFreq_eq hread t.nul_notMem_content t.short,
      t.tokens_content (by decide) ringDelim_of_isDigit (by decide), FreqTable.freqs,
      List.getLast?_concat]
  refine ⟨_, by rw [ring, hlast, Option.map_some], ?_⟩
  exact boosts_ring sys t.last

/-- **When the two boosters agree.**  For every table of frequencies and every state of the power
module, both programs write the highest frequency when the screen goes on and when a call comes in,
if and only if the table has at most 12 frequencies and the last of them ends in the first 119
bytes. -/
theorem boosters_agree_iff (sys : Sysfs) (m : PowerModule) (t : FreqTable)
    (hread : sys.content frequenciesPath = some t.content) :
    BoostersAgree sys m t ↔ t.freqs.length ≤ maxFreqNumber ∧ t.listed.length ≤ freqBufSize - 1 := by
  have hpath : cpufreqCpu0 ++ "scaling_available_frequencies".toList = frequenciesPath := by
    decide +kernel
  have hmaxPath : cpufreqCpu0 ++ "scaling_max_freq".toList = maxfreqPath := by decide +kernel
  obtain ⟨hinited, hmax⟩ := omapPowerInit_maxFreq (hpath ▸ hread) t.nul_notMem_content
    (t.tokens_take_ne_nil (by decide)) m
  rw [← t.getLast?_take_iff, ← hmax]
  constructor
  · rintro ⟨f, hf, hstored, -, -⟩
    rw [hstored, (t.highest_iff f).mp hf]
  · intro hstored
    refine ⟨t.last, (t.highest_iff t.last).mpr rfl, hstored, ?_, ring_highest hread⟩
    simp only [Boosts, ← hmaxPath]
    exact setInteractive_maxFreq hinited hstored sys

/-- Frequencies from 100000 on, with one space behind each. -/
def hundreds (n : ℕ) : List (CStr × ℕ) :=
  (List.range n).map fun i => (CStr.dec (100000 * (i + 1)), 0)

theorem decimal_of_all {fs : List CStr}
    (h : fs.all (fun f => !f.isEmpty && f.all Char.isDigit) = true) :
    ∀ f ∈ fs, f ≠ [] ∧ ∀ c ∈ f, c.isDigit = true := by
  intro f hf
  have hboth := List.all_eq_true.mp h f hf
  simp only [Bool.and_eq_true, List.all_eq_true] at hboth
  exact ⟨by simpa using hboth.1, hboth.2⟩

def fourFreqs : FreqTable where
  init := hundreds 3
  last := CStr.dec 400000
  trailing := 1
  decimal := decimal_of_all (by decide +kernel)
  increasing := by decide +kernel
  short := by decide +kernel

def thirteenFreqs : FreqTable where
  init := hundreds 12
  last := CStr.dec 1300000
  trailing := 1
  decimal := decimal_of_all (by decide +kernel)
  increasing := by decide +kernel
  short := by decide +kernel

/-- A phone with this table. -/
def tableSysfs (t : FreqTable) : Sysfs where
  content := fun path => if path = frequenciesPath then some t.content else none
  writable := fun _ => true

theorem tableSysfs_content (t : FreqTable) :
    (tableSysfs t).content frequenciesPath = some t.content := by
  simp [tableSysfs]

/-- The module before `omap_power_init`. -/
def freshModule : PowerModule := ⟨[], none, none, false, fun h => absurd h (by decide)⟩

theorem fourFreqs_agree : BoostersAgree (tableSysfs fourFreqs) freshModule fourFreqs :=
  (boosters_agree_iff (tableSysfs fourFreqs) freshModule fourFreqs (tableSysfs_content _)).mpr
    ⟨by decide +kernel, by decide +kernel⟩

/-- Of 13 frequencies the power module takes the twelfth for the highest. -/
theorem thirteenFreqs_disagree :
    ¬ ∀ (sys : Sysfs) (m : PowerModule) (t : FreqTable),
    sys.content frequenciesPath = some t.content →
      BoostersAgree sys m t := by
  intro hall
  have hstored : (omapPowerInit (tableSysfs thirteenFreqs) freshModule).1.maxFreq =
      some (CStr.dec 1200000) := by
    decide +kernel
  have hring : (ring (tableSysfs thirteenFreqs)).map (writtenTo maxfreqPath) =
      some [CStr.dec 1300000] := by
    decide +kernel
  obtain ⟨f, -, hf, -, ws, hws, hwritten⟩ :=
    hall (tableSysfs thirteenFreqs) freshModule thirteenFreqs
    (tableSysfs_content _)
  have hwritable : (tableSysfs thirteenFreqs).writable maxfreqPath = true := rfl
  rw [hws, Option.map_some, hwritten, if_pos hwritable] at hring
  rw [hstored] at hf
  have heq : [CStr.dec 1200000] = [CStr.dec 1300000] := by
    rw [Option.some.inj hf]
    exact Option.some.inj hring
  exact absurd heq (by decide +kernel)

end Omap4.Motorild
