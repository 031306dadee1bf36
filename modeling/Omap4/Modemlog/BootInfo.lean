import Omap4.Modemlog.Panic
import Mathlib.Data.List.TakeDrop

/-!
# Omap4.Modemlog.BootInfo — the report of a watchdog reset (`writePanicData`, `append_last_kmsg`)

`writePanicData` looks in the boot information for a power-up reason that is to be reported, and
copies the lines from there on into a report, to which `append_last_kmsg` adds the end of the last
kernel log.

The two copy loops ask for the end of the file at different places, and both are wrong there.  The
one of `writePanicData` asks before it reads: behind a last line that ends with a newline it reads
nothing and writes the buffer once more, so that the last line comes twice (`copyLines_eq`).  The
one of `append_last_kmsg` asks after it has read and before it writes: what was read of an
unfinished last line is lost (`appendRun_out`).
-/

namespace Omap4.Modemlog

/-! ## The code -/

/-- The outcome of `lstat` of `/proc/last_kmsg`. -/
inductive Lstat
  | noent
  | fails (errno : ℤ)
  | size (stSize : ℕ)
  deriving DecidableEq, Repr

/-- What `append_last_kmsg` finds, with its buffer before it is filled. -/
structure Kmsg where
  lstat : Lstat
  opens : Bool
  content : List Char
  buf : LogBuf

/-- `WDRST_REPORT_SIZE`. -/
def wdrstReportSize : ℕ := 64 * 1024

/-- The body of the loop of `append_last_kmsg`.  The loop is entered with the indicator clear, and
goes on only if it is. -/
def appendBody (s : InfoCopy) : Bool × InfoCopy :=
  if (fgets s.infoBuf s.file).2.eof then
    (true, { s with file := (fgets s.infoBuf s.file).2, infoBuf := (fgets s.infoBuf s.file).1 })
  else
    (false,
      { file := (fgets s.infoBuf s.file).2
        infoBuf := (fgets s.infoBuf s.file).1
        out := s.out ++ (fgets s.infoBuf s.file).1.cstr })

/-- The loop of `append_last_kmsg` over what is left of the log. -/
def appendLoop (rest : List Char) (buf : LogBuf) : List Char :=
  (runNotEof InfoCopy.file appendBody ⟨.opened rest, buf, []⟩).out

/-- What `append_last_kmsg` adds to a report of `pos` bytes. -/
def appendLastKmsg (k : Kmsg) (pos : ℕ) : List Char :=
  match k.lstat with
  | .noent => "/proc/last_kmsg does not exist.\n".toList
  | .fails errno => "/proc/last_kmsg not accessible ".toList ++ CStr.decInt errno ++ ".\n".toList
  | .size stSize =>
    if pos < wdrstReportSize ∧ k.opens = true then
      appendLoop (if wdrstReportSize - pos < stSize then
        k.content.drop (stSize - (wdrstReportSize - pos)) else k.content) k.buf
    else []

/-- What `writePanicData` finds. -/
structure WdogInput where
  /-- `/proc/bootinfo` -/
  bootinfo : List Char
  /-- `panic_report_config` -/
  config : UInt8
  /-- `Report_Flag` -/
  reportFlag : ℤ
  /-- `access(LAST_KMSG_PATHNAME, F_OK)` succeeds -/
  kmsgThere : Bool
  /-- `fopen(modemfile, "w")` works -/
  opens : Bool
  kmsg : Kmsg
  /-- the property `PERSIST_POWERCUTS` -/
  powercuts : CStr
  /-- the buffer before it is filled, and the memory behind it -/
  buf : LogBuf
  behind : List Char

/-- A report: what `writePanicData` writes itself, and what `append_last_kmsg` adds. -/
structure WdogReport where
  body : List Char
  appended : List Char
  deriving DecidableEq, Repr

def typeLine : List Char := "Type: SYSTEM_WDT_RESET\n".toList

/-- The part of both watchdog branches that writes, with the buffer that holds the reason. -/
def wdogReport (p : WdogInput) (buf : LogBuf) (thefile : InFile) : Option WdogReport :=
  if p.opens then
    some
      { body := typeLine ++ CStr.ofBuffer (buf.1 ++ p.behind) ++
          (runNotEof InfoCopy.file (infoBody p.behind id) ⟨thefile, buf, []⟩).out
        appended := appendLastKmsg p.kmsg (typeLine ++ CStr.ofBuffer (buf.1 ++ p.behind) ++
          (runNotEof InfoCopy.file (infoBody p.behind id) ⟨thefile, buf, []⟩).out).length }
  else none

structure WdogScan where
  thefile : InFile
  buf : LogBuf
  report : Option WdogReport
  /-- the value that `PERSIST_POWERCUTS` is set to -/
  powercuts : Option CStr

/-- `fgets(buf, MAX_LOG_LEN, thefile)`. -/
def readReason (s : WdogScan) : WdogScan :=
  { s with thefile := (fgets s.buf s.thefile).2, buf := (fgets s.buf s.thefile).1 }

/-- What is done with a line, which is in the buffer: whether the loop breaks, and the state. -/
def handleReason (p : WdogInput) (s : WdogScan) : Bool × WdogScan :=
  if contains "POWERUPREASON : 0x00008000" (CStr.ofBuffer (s.buf.1 ++ p.behind)) then
    if p.config &&& 0x01 = 0 then (true, s)
      else (true, { s with report := wdogReport p s.buf s.thefile })
  else if contains "POWERUPREASON : 0x00020000" (CStr.ofBuffer (s.buf.1 ++ p.behind)) ∧
    p.reportFlag = 0 then
    if p.kmsgThere = false ∧ p.config &&& 0x02 = 0 then (true, s)
    else (true, { s with report := wdogReport p s.buf s.thefile })
  else if contains "POWERUPREASON : 0x00000200" (CStr.ofBuffer (s.buf.1 ++ p.behind)) then
    if p.config &&& 0x08 = 0 then (true, s)
    else (true, { s with powercuts := some (CStr.decInt (CStr.atoi p.powercuts + 1)) })
  else (false, s)

def panicDataBody (p : WdogInput) (s : WdogScan) : Bool × WdogScan := handleReason p (readReason s)

/-- `writePanicData`: the report, if one is written, and the new number of power cuts. -/
def writePanicData (p : WdogInput) : Option WdogReport × Option CStr :=
  ((runNotEof WdogScan.thefile (panicDataBody p) ⟨.opened p.bootinfo, p.buf, none, none⟩).report,
    (runNotEof WdogScan.thefile (panicDataBody p) ⟨.opened p.bootinfo, p.buf, none, none⟩).powercuts)

/-! ## The loops end -/

theorem appendBody_left (s : InfoCopy) (h : s.file.eof = false) :
    (appendBody s).2.file.left < s.file.left := by
  have hlt : (fgets s.infoBuf s.file).2.left < s.file.left := fgets_left (by decide) s.infoBuf h
  unfold appendBody
  split_ifs <;> exact hlt

theorem handleReason_thefile (p : WdogInput) (s : WdogScan) :
    (handleReason p s).2.thefile = s.thefile := by
  unfold handleReason
  split_ifs <;> rfl

theorem panicDataBody_left (p : WdogInput) (s : WdogScan) (h : s.thefile.eof = false) :
    (panicDataBody p s).2.thefile.left < s.thefile.left := by
  rw [panicDataBody, handleReason_thefile]
  exact fgets_left (by decide) s.buf h

theorem panicData_eq (p : WdogInput) (s : WdogScan) :
    runNotEof WdogScan.thefile (panicDataBody p) s = if s.thefile.eof then s
      else if (panicDataBody p s).1 then (panicDataBody p s).2
      else runNotEof WdogScan.thefile (panicDataBody p) (panicDataBody p s).2 :=
  runNotEof_eq (panicDataBody_left p) s

theorem appendRun_eq (s : InfoCopy) :
    runNotEof InfoCopy.file appendBody s = if s.file.eof then s
      else if (appendBody s).1 then (appendBody s).2
      else runNotEof InfoCopy.file appendBody (appendBody s).2 :=
  runNotEof_eq appendBody_left s

/-! ## The copy of the boot information -/

/-- A line of the boot information, without its newline. -/
structure BootLine (l : CStr) : Prop where
  newline : '\n' ∉ l
  nul : CStr.nul ∉ l
  short : l.length < 255

theorem BootLine.nul_terminated {l : CStr} (h : BootLine l) : CStr.nul ∉ terminated l := by
  rw [terminated, List.mem_append, List.mem_singleton, not_or]
  exact ⟨h.nul, by decide⟩

theorem holds_string {row : LogBuf} {s : CStr} (h : Holds row s) (hs : CStr.nul ∉ s)
    (behind : List Char) :
    CStr.ofBuffer (row.1 ++ behind) = s := by
  obtain ⟨b, hlen, rfl⟩ := h
  exact Buf.put_string hs (Nat.zero_le _) behind

/-- A line of the boot information is read into the buffer. -/
theorem fgets_bootLine {l : CStr} (hl : BootLine l) (buf : LogBuf) (rest : List Char) :
    ∃ row, Holds row (terminated l) ∧
    fgets buf (.opened (terminated l ++ rest)) = (row, .opened rest) := by
  obtain ⟨h, hread⟩ : ∃ h, fgets buf ⟨l ++ '\n' :: rest, false⟩ =
    (buf.put (l ++ ['\n']) h, ⟨rest, false⟩) :=
    fgets_line hl.newline hl.short rest false
  have hopened : InFile.opened (terminated l ++ rest) = ⟨l ++ '\n' :: rest, false⟩ := by
    rw [terminated, List.append_assoc]
    rfl
  exact ⟨_, ⟨buf, h, rfl⟩, hopened ▸ hread⟩

/-- **The copy loop of `writePanicData`** writes the lines that are left, and the last line of all
once more. -/
theorem copyLines_eq (behind : List Char) : ∀ {lines : List CStr} {prev : CStr} {buf : LogBuf}
    {out : List Char}, (∀ l ∈ lines, BootLine l) → BootLine prev → Holds buf (terminated prev) →
    (runNotEof InfoCopy.file (infoBody behind id) ⟨.opened (lines.flatMap terminated), buf, out⟩).out =
      out ++ lines.flatMap terminated ++ terminated ((prev :: lines).getLast (List.cons_ne_nil _ _))
  | [], prev, buf, out, _, hprev, hbuf => by
    have hend : fgets buf (.opened []) = (buf, ⟨[], true⟩) := fgets_end (by decide) buf false
    have hbody : infoBody behind id ⟨.opened [], buf, out⟩ =
        (false, ⟨⟨[], true⟩, buf, out ++ terminated prev⟩) := by
      rw [infoBody]
      simp only [hend, holds_string hbuf hprev.nul_terminated, id]
    rw [List.flatMap_nil, infoLoop_eq, hbody, if_neg (by simp [InFile.opened]),
      infoLoop_eq, if_pos rfl]
    simp
  | l :: lines, prev, buf, out, hlines, hprev, hbuf => by
    have hl := hlines l List.mem_cons_self
    obtain ⟨row, hrow, hread⟩ := fgets_bootLine hl buf (lines.flatMap terminated)
    have hbody : infoBody behind id ⟨.opened (terminated l ++ lines.flatMap terminated), buf, out⟩ =
        (false, ⟨.opened (lines.flatMap terminated), row, out ++ terminated l⟩) := by
      rw [infoBody]
      simp only [hread, holds_string hrow hl.nul_terminated, id]
    rw [List.flatMap_cons, infoLoop_eq, hbody, if_neg (by simp [InFile.opened]),
      copyLines_eq behind (fun x hx => hlines x (List.mem_cons_of_mem l hx)) hl hrow]
    simp

/-- A line with a watchdog reset that is to be reported. -/
def Reportable (p : WdogInput) (l : CStr) : Prop :=
  contains "POWERUPREASON : 0x00008000" (terminated l) = true ∧ p.config &&& 0x01 ≠ 0 ∨
    contains "POWERUPREASON : 0x00020000" (terminated l) = true ∧ p.reportFlag = 0 ∧
      (p.kmsgThere = true ∨ p.config &&& 0x02 ≠ 0)

/-- What the loop does with a line: it passes over it, or it breaks, with a report or without. -/
theorem handleReason_cases {p : WdogInput} {s : WdogScan} {l : CStr}
    (hl : CStr.ofBuffer (s.buf.1 ++ p.behind) = terminated l) :
    (handleReason p s = (false, s) ∧ ¬ Reportable p l) ∨
      (handleReason p s).1 = true ∧ ((handleReason p s).2.report = s.report ∨
        (handleReason p s).2.report = wdogReport p s.buf s.thefile) := by
  unfold handleReason Reportable
  rw [hl]
  split_ifs with hboot hcfg hkernel hcfg hcut hcfg
  · exact .inr ⟨rfl, .inl rfl⟩
  · exact .inr ⟨rfl, .inr rfl⟩
  · exact .inr ⟨rfl, .inl rfl⟩
  · exact .inr ⟨rfl, .inr rfl⟩
  · exact .inr ⟨rfl, .inl rfl⟩
  · exact .inr ⟨rfl, .inl rfl⟩
  · refine .inl ⟨rfl, ?_⟩
    rintro (⟨h, -⟩ | ⟨h, hflag, -⟩)
    · exact hboot h
    · exact hkernel ⟨h, hflag⟩

/-- **The report that starts at the line in the buffer.** -/
theorem wdogReport_body {p : WdogInput} {buf : LogBuf} {l : CStr} {lines : List CStr}
    {r : WdogReport} (hl : BootLine l) (hlines : ∀ x ∈ lines, BootLine x)
    (hbuf : Holds buf (terminated l))
    (h : wdogReport p buf (.opened (lines.flatMap terminated)) = some r) :
    r.body = typeLine ++ (l :: lines).flatMap terminated ++
        terminated ((l :: lines).getLast (List.cons_ne_nil _ _)) ∧
      r.appended = appendLastKmsg p.kmsg r.body.length := by
  unfold wdogReport at h
  split_ifs at h
  obtain rfl := Option.some.inj h
  refine ⟨?_, rfl⟩
  rw [holds_string hbuf hl.nul_terminated, copyLines_eq p.behind hlines hl hbuf]
  simp

/-- A report of the lines, and then of the last of them. -/
def ReportOf (p : WdogInput) (lines : List CStr) (r : WdogReport) : Prop :=
  ∃ last, lines.getLast? = some last ∧ r.body = typeLine ++ lines.flatMap terminated ++
    terminated last ∧
    r.appended = appendLastKmsg p.kmsg r.body.length

/-- One round of the search, at the line `l`: the report starts here, or the search goes on. -/
theorem search_round {p : WdogInput} {s : WdogScan} {l : CStr} {rest : List CStr} {r : WdogReport}
    (hlines : ∀ y ∈ l :: rest, BootLine y)
    (hfile : s.thefile = .opened ((l :: rest).flatMap terminated))
    (hnone : s.report = none)
    (hr : (runNotEof WdogScan.thefile (panicDataBody p) s).report = some r) :
    ReportOf p (l :: rest) r ∨
      ¬ Reportable p l ∧ ∃ s', s'.thefile = .opened (rest.flatMap terminated) ∧ s'.report = none ∧
        (runNotEof WdogScan.thefile (panicDataBody p) s').report = some r := by
  have hl := hlines l List.mem_cons_self
  have hrest : ∀ y ∈ rest, BootLine y := fun y hy => hlines y (List.mem_cons_of_mem l hy)
  rw [List.flatMap_cons] at hfile
  obtain ⟨row, hrow, hread⟩ := fgets_bootLine hl s.buf (rest.flatMap terminated)
  have hreason : readReason s = ⟨.opened (rest.flatMap terminated), row, none, s.powercuts⟩ := by
    rw [readReason, hfile, hread, hnone]
  rw [panicData_eq, if_neg (by simp [hfile, InFile.opened]), panicDataBody, hreason] at hr
  rcases handleReason_cases (p := p)
    (s := ⟨.opened (rest.flatMap terminated), row, none, s.powercuts⟩)
    (holds_string hrow hl.nul_terminated p.behind) with ⟨hpass, hno⟩ | ⟨hbreak, hrep | hrep⟩
  · rw [hpass, if_neg (by simp)] at hr
    exact .inr ⟨hno, _, rfl, rfl, hr⟩
  · rw [if_pos hbreak, hrep] at hr
    cases hr
  · rw [if_pos hbreak, hrep] at hr
    obtain ⟨hbody, happ⟩ := wdogReport_body hl hrest hrow hr
    exact .inl ⟨_, List.getLast?_eq_some_getLast (List.cons_ne_nil l rest), hbody, happ⟩

/-- **The search of `writePanicData`**: a report starts at the line `x`, or before it. -/
theorem search_report {p : WdogInput} {x : CStr} (hx : Reportable p x) (post : List CStr) :
    ∀ {pre : List CStr} {s : WdogScan} {r : WdogReport}, (∀ l ∈ pre ++ x :: post, BootLine l) →
      s.thefile = .opened ((pre ++ x :: post).flatMap terminated) → s.report = none →
      (runNotEof WdogScan.thefile (panicDataBody p) s).report = some r →
      ∃ i ≤ pre.length, ReportOf p ((pre ++ x :: post).drop i) r
  | [], s, r, hlines, hfile, hnone, hr => by
    rcases search_round hlines hfile hnone hr with hdone | ⟨hno, -⟩
    · exact ⟨0, Nat.le_refl 0, hdone⟩
    · exact absurd hx hno
  | l :: pre, s, r, hlines, hfile, hnone, hr => by
    rcases search_round hlines hfile hnone hr with hdone | ⟨-, s', hfile', hnone', hr'⟩
    · exact ⟨0, Nat.zero_le _, hdone⟩
    · obtain ⟨i, hi, hreport⟩ :=
        search_report hx post (fun y hy => hlines y (List.mem_cons_of_mem l hy)) hfile' hnone' hr'
      exact ⟨i + 1, Nat.succ_le_succ hi, hreport⟩

/-- A report of more lines, with one of them twice, is too long. -/
theorem ReportOf.body_ne {p : WdogInput} {lines : List CStr} {r : WdogReport}
    {i k : ℕ} (hik : i ≤ k) (h : ReportOf p (lines.drop i) r) :
    r.body ≠ typeLine ++ (lines.drop k).flatMap terminated := by
  obtain ⟨last, -, hbody, -⟩ := h
  intro heq
  have hdrop : (lines.drop i).flatMap terminated =
      ((lines.drop i).take (k - i)).flatMap terminated ++ (lines.drop k).flatMap terminated := by
    rw [← List.flatMap_append]
    conv_lhs => rw [← List.take_append_drop (k - i) (lines.drop i), List.drop_drop,
      Nat.add_sub_cancel' hik]
  have hlen : r.body.length = (typeLine ++ (lines.drop k).flatMap terminated).length :=
    congrArg List.length heq
  rw [hbody, hdrop] at hlen
  simp only [terminated, List.length_append, List.length_singleton] at hlen
  omega

/-! ## The end of the kernel log -/

/-- The number of characters behind the last newline. -/
def unfinished (s : List Char) : ℕ := (s.reverse.takeWhile (· ≠ '\n')).length

theorem unfinished_le (s : List Char) : unfinished s ≤ s.length := by
  have hle : (s.reverse.takeWhile (· ≠ '\n')).length ≤ s.reverse.length :=
    (List.takeWhile_prefix _).length_le
  rwa [List.length_reverse] at hle

theorem unfinished_append (c rest : List Char) : unfinished (c ++ rest) =
    if unfinished rest = rest.length then rest.length + unfinished c else unfinished rest := by
  unfold unfinished
  rw [List.reverse_append, List.takeWhile_append, List.length_reverse]
  split_ifs with h
  · rw [List.length_append, List.length_reverse]
  · rfl

theorem unfinished_line (l rest : List Char) :
    unfinished (l ++ '\n' :: rest) = unfinished rest := by
  have hline : unfinished (l ++ ['\n']) = 0 := by simp [unfinished]
  have happend := unfinished_append (l ++ ['\n']) rest
  rw [List.append_assoc, List.singleton_append, hline, Nat.add_zero] at happend
  rw [happend]
  split_ifs with h
  · exact h.symm
  · rfl

theorem unfinished_of_not_mem {c : List Char} (hc : '\n' ∉ c) : unfinished c = c.length := by
  have hall : c.reverse.takeWhile (· ≠ '\n') = c.reverse := by
    rw [List.takeWhile_eq_self_iff]
    intro x hx
    have hne : x ≠ '\n' := by
      rintro rfl
      exact hc (List.mem_reverse.mp hx)
    simpa using hne
  rw [unfinished, hall, List.length_reverse]

/-- A piece of a long line counts only if it is a piece of the unfinished line. -/
theorem unfinished_long {c : List Char} (hc : '\n' ∉ c) (rest : List Char) :
    unfinished (c ++ rest) % c.length = unfinished rest % c.length := by
  rw [unfinished_append, unfinished_of_not_mem hc]
  split_ifs with h
  · rw [Nat.add_mod_right, h]
  · rfl

/-- What the loop of `append_last_kmsg` copies of `s`. -/
def copied (s : List Char) : List Char := s.take (s.length - unfinished s % 255)

theorem copied_line (l rest : List Char) :
    copied (l ++ '\n' :: rest) = l ++ ['\n'] ++ copied rest := by
  have hle : unfinished rest % 255 ≤ rest.length := (Nat.mod_le _ _).trans (unfinished_le rest)
  have hlen : (l ++ '\n' :: rest).length - unfinished rest % 255 =
      (l ++ ['\n']).length + (rest.length - unfinished rest % 255) := by
    simp
    omega
  have hsplit : l ++ '\n' :: rest = (l ++ ['\n']) ++ rest := by simp
  rw [copied, unfinished_line, hlen, hsplit, List.take_length_add_append, copied]

theorem copied_long {c : List Char} (hc : '\n' ∉ c) (hlen : c.length = 255) (rest : List Char) :
    copied (c ++ rest) = c ++ copied rest := by
  have hmod : unfinished (c ++ rest) % 255 = unfinished rest % 255 := hlen ▸ unfinished_long hc rest
  have hle : unfinished rest % 255 ≤ rest.length := (Nat.mod_le _ _).trans (unfinished_le rest)
  rw [copied, hmod, List.length_append, Nat.add_sub_assoc hle, List.take_length_add_append, copied]

theorem copied_unfinished {s : List Char} (hs : '\n' ∉ s) (hlen : s.length < 255) : copied s =
    [] := by
  rw [copied, unfinished_of_not_mem hs, Nat.mod_eq_of_lt hlen, Nat.sub_self, List.take_zero]

/-- **The loop of `append_last_kmsg`** loses what it has of an unfinished last line when the file
ends. -/
theorem appendRun_out {s : List Char} (hs : CStr.nul ∉ s) (buf : LogBuf) (out : List Char) :
    (runNotEof InfoCopy.file appendBody ⟨.opened s, buf, out⟩).out = out ++ copied s := by
  induction hn : s.length using Nat.strong_induction_on generalizing s buf out with
  | _ n ih =>
  rw [appendRun_eq, if_neg (by simp [InFile.opened])]
  rcases takeLine_cases 255 s with
    ⟨l, rest, rfl, hl, hlen, -⟩ | ⟨c, rest, rfl, hc, hlen, -⟩ | ⟨hnl, hlen, -⟩
  · obtain ⟨hfits, hread⟩ : ∃ h, fgets buf (.opened (l ++ '\n' :: rest)) =
        (buf.put (l ++ ['\n']) h, .opened rest) := fgets_line hl hlen rest false
    have hnul : CStr.nul ∉ l ++ ['\n'] := fun h => hs (by simp at h ⊢; tauto)
    have hbody : appendBody ⟨.opened (l ++ '\n' :: rest), buf, out⟩ =
        (false, ⟨.opened rest, buf.put (l ++ ['\n']) hfits, out ++ (l ++ ['\n'])⟩) := by
      simp only [appendBody, hread, Buf.put_cstr hnul]
      rfl
    have hrest := ih rest.length (by simp at hn; omega) (fun h => hs (by simp [h]))
      (buf.put (l ++ ['\n']) hfits) (out ++ (l ++ ['\n'])) rfl
    rw [hbody, if_neg (by simp), hrest, copied_line, List.append_assoc]
  · obtain ⟨hfits, hread⟩ : ∃ h, fgets buf (.opened (c ++ rest)) = (buf.put c h, .opened rest) :=
      fgets_long (by decide) hc hlen rest false
    have hnul : CStr.nul ∉ c := fun h => hs (List.mem_append_left _ h)
    have hbody : appendBody ⟨.opened (c ++ rest), buf, out⟩ =
        (false, ⟨.opened rest, buf.put c hfits, out ++ c⟩) := by
      simp only [appendBody, hread, Buf.put_cstr hnul]
      rfl
    have hrest := ih rest.length (by simp at hn; omega) (fun h => hs (List.mem_append_right _ h))
      (buf.put c hfits) (out ++ c) rfl
    rw [hbody, if_neg (by simp), hrest, copied_long hc hlen, List.append_assoc]
  · have hread : (fgets buf (.opened s)).2 = ⟨[], true⟩ := fgets_unfinished hnl hlen false
    have hbreak : appendBody ⟨.opened s, buf, out⟩ =
        (true, ⟨⟨[], true⟩, (fgets buf (.opened s)).1, out⟩) := by
      simp only [appendBody, hread]
      rfl
    rw [hbreak, if_pos rfl, copied_unfinished hnl hlen, List.append_nil]

/-- The part of the kernel log that is to be added to a report of `pos` bytes. -/
def logTail (content : List Char) (pos : ℕ) : List Char :=
  content.drop (content.length - min content.length (wdrstReportSize - pos))

/-- **`append_last_kmsg`** on a log that is there. -/
theorem appendLastKmsg_eq {k : Kmsg} (hstat : k.lstat = .size k.content.length)
    (hopens : k.opens = true) (hnul : CStr.nul ∉ k.content) (pos : ℕ) :
    appendLastKmsg k pos = copied (logTail k.content pos) := by
  have hdrop : ∀ n, CStr.nul ∉ k.content.drop n := fun n h => hnul (List.mem_of_mem_drop h)
  unfold appendLastKmsg logTail
  rw [hstat]
  simp only [hopens, and_true]
  split_ifs with hpos hlong
  · rw [appendLoop, appendRun_out (hdrop _), min_eq_right hlong.le, List.nil_append]
  · rw [appendLoop, appendRun_out hnul, min_eq_left (Nat.not_lt.mp hlong), Nat.sub_self,
      List.drop_zero, List.nil_append]
  · rw [show wdrstReportSize - pos = 0 by omega, Nat.min_zero, Nat.sub_zero, List.drop_length]
    rfl

theorem copied_eq_self_iff (s : List Char) : copied s = s ↔ unfinished s % 255 = 0 := by
  have hle : unfinished s % 255 ≤ s.length := (Nat.mod_le _ _).trans (unfinished_le s)
  rw [copied, List.take_eq_self_iff]
  omega

theorem appendLastKmsg_eq_logTail_iff {k : Kmsg} (hstat : k.lstat = .size k.content.length)
    (hnul : CStr.nul ∉ k.content) (pos : ℕ) : appendLastKmsg k pos = logTail k.content pos ↔
      logTail k.content pos = [] ∨ k.opens = true ∧
      unfinished (logTail k.content pos) % 255 = 0 := by
  by_cases hopens : k.opens = true
  · rw [appendLastKmsg_eq hstat hopens hnul, copied_eq_self_iff]
    constructor
    · intro h
      exact .inr ⟨hopens, h⟩
    · rintro (h | ⟨-, h⟩)
      · rw [h]
        rfl
      · exact h
  · have hnone : appendLastKmsg k pos = [] := by
      rw [appendLastKmsg, hstat]
      exact if_neg fun h => hopens h.2
    rw [hnone]
    constructor
    · intro h
      exact .inl h.symm
    · rintro (h | ⟨h, -⟩)
      · exact h.symm
      · exact absurd h hopens

/-! ## The report -/

/-- **The report of a watchdog reset is never the copy of the boot information** from the line with
the reason on, and the end of the kernel log is complete just if nothing or a multiple of the
buffer's 255 characters stands behind its last newline. -/
theorem watchdogReport_copy_iff (p : WdogInput) (lines : List CStr) (k : Kmsg) (pos : ℕ) :
    (p.bootinfo = lines.flatMap terminated → (∀ l ∈ lines, BootLine l) →
      ∀ i x, lines[i]? = some x → Reportable p x →
        ¬ ∃ r, (writePanicData p).1 = some r ∧ r.body = typeLine ++
        (lines.drop i).flatMap terminated ∧
          r.appended = appendLastKmsg p.kmsg r.body.length) ∧
    (k.lstat = .size k.content.length → CStr.nul ∉ k.content →
      (appendLastKmsg k pos = logTail k.content pos ↔
        logTail k.content pos = [] ∨ k.opens = true ∧
        unfinished (logTail k.content pos) % 255 = 0)) := by
  refine ⟨?_, fun hstat hnul => appendLastKmsg_eq_logTail_iff hstat hnul pos⟩
  rintro hboot hlines i x hi hx ⟨r, hr, hbody, -⟩
  obtain ⟨hlt, rfl⟩ := List.getElem?_eq_some_iff.mp hi
  have hsplit : lines = lines.take i ++ lines[i] :: lines.drop (i + 1) := by
    rw [← List.drop_eq_getElem_cons hlt, List.take_append_drop]
  obtain ⟨j, hj, hreport⟩ : ∃ j ≤ (lines.take i).length,
      ReportOf p ((lines.take i ++ lines[i] :: lines.drop (i + 1)).drop j) r :=
    search_report hx (lines.drop (i + 1)) (s := ⟨.opened p.bootinfo, p.buf, none, none⟩)
      (hsplit ▸ hlines) (by rw [← hsplit, hboot]) rfl hr
  rw [← hsplit] at hreport
  have hji : j ≤ i := hj.trans (List.length_take_le i lines)
  exact hreport.body_ne hji hbody

def resetLine : CStr := "POWERUPREASON : 0x00008000".toList

/-- A kernel log that ends within a line. -/
def shortLog : Kmsg where
  lstat := .size 3
  opens := true
  content := ['o', '\n', 'k']
  buf := Buf.zero 256

/-- Boot information of one line, with everything reported. -/
def oneReset : WdogInput where
  bootinfo := terminated resetLine
  config := 0xFF
  reportFlag := 0
  kmsgThere := true
  opens := true
  kmsg := shortLog
  powercuts := ['0']
  buf := Buf.zero 256
  behind := []

/-- The line comes twice, and the end of the log is missing. -/
theorem oneReset_twice :
    Reportable oneReset resetLine ∧ (writePanicData oneReset).1 = some
      { body := typeLine ++ terminated resetLine ++ terminated resetLine, appended := ['o', '\n'] } ∧
    typeLine ++ terminated resetLine ++ terminated resetLine ≠ typeLine ++
    [resetLine].flatMap terminated ∧
    logTail shortLog.content (typeLine ++ terminated resetLine ++ terminated resetLine).length =
      ['o', '\n', 'k'] := by
  refine ⟨.inl ⟨?_, ?_⟩, ?_, ?_, ?_⟩ <;> decide +kernel

theorem watchdogReport_copy_iff_oneReset :
    (¬ ∃ r, (writePanicData oneReset).1 = some r ∧ r.body = typeLine ++
      [resetLine].flatMap terminated ∧
      r.appended = appendLastKmsg shortLog r.body.length) ∧
    ¬ appendLastKmsg shortLog 0 = logTail shortLog.content 0 := by
  have htheorem := watchdogReport_copy_iff oneReset [resetLine] shortLog 0
  refine ⟨htheorem.1 ?_ ?_ 0 resetLine rfl ?_, ?_⟩
  · decide +kernel
  · intro l hl
    obtain rfl := List.mem_singleton.mp hl
    exact ⟨by decide +kernel, by decide +kernel, by decide +kernel⟩
  · exact .inl ⟨by decide +kernel, by decide⟩
  · rw [htheorem.2 rfl (by decide)]
    decide +kernel

end Omap4.Modemlog
