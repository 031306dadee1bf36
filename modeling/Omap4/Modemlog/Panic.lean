import Mathlib.Data.List.FinRange
import Omap4.Stdio

/-!
# Omap4.Modemlog.Panic — the report of a kernel panic (`readFile` in `aplogd/modemlog.c`)

`readFile` copies what helps most out of the console log of a panic: some lines before the first
line with `PC is at`, nine lines behind it, and of the rest the lines without raw memory.  The lines
before it are kept in `lastfew`, ten buffers that are filled in turn and then written from the one
behind the last on.

`RowsInv` says which lines the buffers hold.  The array is not initialised: with fewer than ten
lines the buffers that were never filled come first, and what is printed of them is what the stack
held (`readFile_backlog_iff`).

The report is returned in its parts (`PanicReport`).  What the calls read is input, with the
contents of the buffers before they are filled and the memory behind the array.
-/

namespace Omap4.Modemlog

/-! ## The code -/

/-- A buffer of `MAX_LOG_LEN` bytes. -/
abbrev LogBuf := Buf 256

/-- `lastfew[BACKLINES][MAX_LOG_LEN]`. -/
abbrev Lastfew := Fin 10 → LogBuf

/-- The string at `lastfew[i] + k`.  If the row holds no NUL from there on, it goes on in the next
rows and in the memory behind the array. -/
def rowFrom (lastfew : Lastfew) (behind : List Char) (i : Fin 10) (k : ℕ) : CStr :=
  CStr.ofBuffer ((((List.finRange 10).drop i).flatMap (fun j => (lastfew j).1) ++ behind).drop k)

/-- `strstr(s, needle)` is not `NULL`. -/
def contains (needle : String) (s : CStr) : Bool := (CStr.strstr needle.toList s).isSome

structure PanicScan where
  thefile : InFile
  lastfew : Lastfew
  oldline : Fin 10
  dumpall : Bool

/-- `fgets(lastfew[i], MAX_LOG_LEN, thefile)`. -/
def readRow (i : Fin 10) (s : PanicScan) : PanicScan :=
  { s with
    thefile := (fgets (s.lastfew i) s.thefile).2
    lastfew := Function.update s.lastfew i (fgets (s.lastfew i) s.thefile).1 }

/-- The body of the loop that looks for the line with the program counter; the sum in `Fin 10` is
taken modulo `BACKLINES`. -/
def scanBody (behind : List Char) (s : PanicScan) : Bool × PanicScan :=
  if contains "PC is at" (rowFrom (readRow s.oldline s).lastfew behind s.oldline 0) then
    (true, readRow s.oldline s)
  else if contains "Kernel panic -" (rowFrom (readRow s.oldline s).lastfew behind s.oldline 0) then
    (true, { readRow s.oldline s with dumpall := true })
  else (false, { readRow s.oldline s with oldline := s.oldline + 1 })

def scanConsole (behind : List Char) (s : PanicScan) : PanicScan :=
  runNotEof PanicScan.thefile (scanBody behind) s

/-- The loop that writes the back-log, for `count` from 1 to `BACKLINES`. -/
def backlog (behind : List Char) (s : PanicScan) : List Char :=
  (List.range 10).flatMap fun n => rowFrom s.lastfew behind (s.oldline + Fin.ofNat 10 (n + 1)) 18

/-- The loop over the lines behind the program counter: what it writes, and the state. -/
def followLoop (behind : List Char) : ℕ → PanicScan → List Char × PanicScan
  | 0, s => ([], s)
  | n + 1, s =>
    if s.thefile.eof then ([], s)
    else
      (rowFrom (readRow 0 s).lastfew behind 0 18 ++ (followLoop behind n (readRow 0 s)).1,
        (followLoop behind n (readRow 0 s)).2)

structure RestScan where
  scan : PanicScan
  discard : Bool
  out : List Char

def discardFrom : List String := ["PC: ", "LR: ", "IP: ", "FP: ", "Stack: "]

def keepFrom : List String :=
  ["R0: ", "R1: ", "R2: ", "R3: ", "R4: ", "R5: ", "R6: ", "R7: ", "R8: ", "R9: ", "SP: ", "Code: ",
    "Backtrace:", "Kernel panic - "]

/-- `Discard` for the line `row`. -/
def discardLine (row : CStr) (discard : Bool) : Bool :=
  if discardFrom.any (contains · row) then true
  else if keepFrom.any (contains · row) then false else discard

def restBody (behind : List Char) (s : RestScan) : Bool × RestScan :=
  if discardLine (rowFrom (readRow 0 s.scan).lastfew behind 0 0) s.discard then
    (false, { s with scan := readRow 0 s.scan, discard := true })
  else
    (false,
      { scan := readRow 0 s.scan
        discard := contains "Code:" (rowFrom (readRow 0 s.scan).lastfew behind 0 0)
        out := s.out ++ rowFrom (readRow 0 s.scan).lastfew behind 0 18 })

def copyRest (behind : List Char) (s : PanicScan) : List Char :=
  (runNotEof (fun r => r.scan.thefile) (restBody behind) ⟨s, false, []⟩).out

/-- A file of `/proc` on its way to the report. -/
structure InfoCopy where
  file : InFile
  infoBuf : LogBuf
  out : List Char

/-- `fgets(info_buf, ..)` and `fprintf(outfile, fmt, info_buf)`. -/
def infoBody (behind : List Char) (fmt : CStr → List Char) (s : InfoCopy) : Bool × InfoCopy :=
  (false,
    { file := (fgets s.infoBuf s.file).2
      infoBuf := (fgets s.infoBuf s.file).1
      out := s.out ++ fmt (CStr.ofBuffer ((fgets s.infoBuf s.file).1.1 ++ behind)) })

/-- What is written of the file `content` (`none` if it cannot be opened), and `info_buf` then. -/
def copyInfo (behind : List Char) (fmt : CStr → List Char) (content : Option (List Char))
    (buf : LogBuf) :
    List Char × LogBuf :=
  match content with
  | none => ([], buf)
  | some content =>
    ((runNotEof InfoCopy.file (infoBody behind fmt) ⟨.opened content, buf, []⟩).out,
      (runNotEof InfoCopy.file (infoBody behind fmt) ⟨.opened content, buf, []⟩).infoBuf)

/-- The first two lines of `/proc/bootinfo`. -/
def copyBootinfo (behind : List Char) (content : Option (List Char)) (buf : LogBuf) : List Char :=
  match content with
  | none => []
  | some content =>
    (infoBody behind id (infoBody behind id ⟨.opened content, buf, []⟩).2).2.out

/-- What `readFile` finds. -/
structure PanicInput where
  /-- `fopen(modemfile, "w")` works -/
  opens : Bool
  version : Option (List Char)
  motVersion : Option (List Char)
  bootinfo : Option (List Char)
  console : List Char
  /-- the arrays before they are filled, and the memory behind them -/
  infoBuf : LogBuf
  behindInfo : List Char
  lastfew : Lastfew
  behind : List Char

/-- The report, in the order in which it is written. -/
structure PanicReport where
  header : List Char
  backlog : List Char
  follow : List Char
  rest : List Char
  deriving DecidableEq, Repr

/-- The part before the log. -/
def panicHeader (p : PanicInput) : List Char :=
  "Type: SYSTEM_LAST_KMSG\n".toList ++ (copyInfo p.behindInfo id p.version p.infoBuf).1 ++
    (copyInfo p.behindInfo (· ++ ['\n']) p.motVersion (copyInfo p.behindInfo id p.version p.infoBuf).2).1 ++
    copyBootinfo p.behindInfo p.bootinfo (copyInfo p.behindInfo (· ++ ['\n']) p.motVersion
      (copyInfo p.behindInfo id p.version p.infoBuf).2).2

/-- The state in which the log is searched. -/
def PanicInput.start (p : PanicInput) : PanicScan := ⟨.opened p.console, p.lastfew, 0, false⟩

/-- The report that `readFile` writes, if its file can be opened. -/
def readFile (p : PanicInput) : Option PanicReport :=
  if p.opens = false then none
  else if (scanConsole p.behind p.start).dumpall then
    some ⟨panicHeader p, [], [], copyRest p.behind (scanConsole p.behind p.start)⟩
  else
    some ⟨panicHeader p, backlog p.behind (scanConsole p.behind p.start),
      (followLoop p.behind 9 (scanConsole p.behind p.start)).1,
      copyRest p.behind (followLoop p.behind 9 (scanConsole p.behind p.start)).2⟩

/-! ## The loops end -/

theorem readRow_left (i : Fin 10) {s : PanicScan} (h : s.thefile.eof = false) :
    (readRow i s).thefile.left < s.thefile.left :=
  fgets_left (by decide) (s.lastfew i) h

theorem scanBody_left (behind : List Char) (s : PanicScan) (h : s.thefile.eof = false) :
    (scanBody behind s).2.thefile.left < s.thefile.left := by
  have hlt := readRow_left s.oldline h
  unfold scanBody
  split_ifs <;> exact hlt

theorem infoBody_left (behind : List Char) (fmt : CStr → List Char) (s : InfoCopy)
    (h : s.file.eof = false) : (infoBody behind fmt s).2.file.left < s.file.left :=
  fgets_left (by decide) s.infoBuf h

theorem scanConsole_eq (behind : List Char) (s : PanicScan) :
    scanConsole behind s = if s.thefile.eof then s
      else if (scanBody behind s).1 then (scanBody behind s).2
      else scanConsole behind (scanBody behind s).2 :=
  runNotEof_eq (scanBody_left behind) s

theorem infoLoop_eq (behind : List Char) (fmt : CStr → List Char) (s : InfoCopy) :
    runNotEof InfoCopy.file (infoBody behind fmt) s = if s.file.eof then s
      else runNotEof InfoCopy.file (infoBody behind fmt) (infoBody behind fmt s).2 :=
  runNotEof_eq (infoBody_left behind fmt) s

/-! ## The ring of lines -/

/-- The row of the line `n`, counted from 0. -/
def slot (n : ℕ) : Fin 10 := Fin.ofNat 10 n

theorem slot_val (n : ℕ) : (slot n : ℕ) = n % 10 := rfl

theorem slot_add (n k : ℕ) : slot n + Fin.ofNat 10 k = slot (n + k) := by
  ext
  simp [slot, Fin.val_add]

/-- The row holds the string `s`. -/
def Holds (row : LogBuf) (s : CStr) : Prop := ∃ b : LogBuf, ∃ h, row = b.put s h

theorem drop_finRange (i : Fin 10) :
    (List.finRange 10).drop i = i :: (List.finRange 10).drop (i + 1) := by
  rw [List.drop_eq_getElem_cons (by simp)]
  simp

theorem rowFrom_holds {lastfew : Lastfew} {i : Fin 10} {s : CStr} (h : Holds (lastfew i) s)
    (hs : CStr.nul ∉ s) {k : ℕ} (hk : k ≤ s.length) (behind : List Char) :
    rowFrom lastfew behind i k = s.drop k := by
  obtain ⟨b, hlen, hrow⟩ := h
  rw [rowFrom, drop_finRange, List.flatMap_cons, hrow, List.append_assoc]
  exact Buf.put_string hs hk _

/-- Of a row nothing is printed just if the string ends where printing begins. -/
theorem rowFrom_eq_nil_iff {lastfew : Lastfew} {i : Fin 10} (behind : List Char) :
    rowFrom lastfew behind i 18 = [] ↔ (lastfew i).1[18]? = some CStr.nul := by
  have hlen : 18 < (lastfew i).1.length := by
    rw [(lastfew i).2]
    decide
  have hle : 18 ≤ (lastfew i).1.length := Nat.le_of_lt hlen
  rw [rowFrom, drop_finRange, List.flatMap_cons, List.append_assoc,
    List.drop_append_of_le_length hle, List.drop_eq_getElem_cons hlen,
    List.getElem?_eq_getElem hlen, CStr.ofBuffer, List.cons_append,
    List.takeWhile_cons]
  split_ifs with h
  · simp only [Option.some.injEq, false_iff]
    simpa using h
  · simpa using h

/-- A line with its newline. -/
def terminated (l : CStr) : CStr := l ++ ['\n']

/-- After the lines `done`, the rows hold the last ten of them, and those not reached yet what they
held before. -/
structure RowsInv (before : Lastfew) (done : List CStr) (lastfew : Lastfew) : Prop where
  last : ∀ n l, done[n]? = some l → done.length ≤ n + 10 → Holds (lastfew (slot n)) (terminated l)
  unfilled : ∀ i : Fin 10, done.length ≤ i → lastfew i = before i

theorem rowsInv_nil (before : Lastfew) : RowsInv before [] before :=
  ⟨fun n l h => by simp at h, fun _ _ => rfl⟩

/-- **One line**: it goes to the row of the line ten before it. -/
theorem RowsInv.step {before lastfew : Lastfew} {done : List CStr} {l : CStr} {row : LogBuf}
    (h : RowsInv before done lastfew) (hrow : Holds row (terminated l)) :
    RowsInv before (done ++ [l]) (Function.update lastfew (slot done.length) row) := by
  refine ⟨fun n l' hn hlast => ?_, fun i hi => ?_⟩
  · rw [List.length_append, List.length_singleton] at hlast
    by_cases heq : n = done.length
    · subst heq
      obtain rfl : l = l' := by simpa using hn
      rwa [Function.update_self]
    · have hlt : n < done.length := by
        have hbound := (List.getElem?_eq_some_iff.mp hn).1
        rw [List.length_append, List.length_singleton] at hbound
        omega
      have hne : slot n ≠ slot done.length := by
        intro heq'
        have hval := congrArg Fin.val heq'
        rw [slot_val, slot_val] at hval
        omega
      rw [Function.update_of_ne hne]
      rw [List.getElem?_append_left hlt] at hn
      exact h.last n l' hn (by omega)
  · rw [List.length_append, List.length_singleton] at hi
    have hne : i ≠ slot done.length := by
      rintro rfl
      rw [slot_val] at hi
      omega
    rw [Function.update_of_ne hne]
    exact h.unfilled i (by omega)

/-! ## The back-log -/

/-- A line of the log as `readFile` expects it, without its newline. -/
structure LogLine (l : CStr) : Prop where
  newline : '\n' ∉ l
  nul : CStr.nul ∉ l
  long : 18 ≤ (terminated l).length
  short : l.length < 255

theorem LogLine.nul_terminated {l : CStr} (h : LogLine l) : CStr.nul ∉ terminated l := by
  rw [terminated, List.mem_append, List.mem_singleton, not_or]
  exact ⟨h.nul, by decide⟩

/-- A line is read into the current row, where the marks are looked for. -/
theorem readRow_line {s : PanicScan} {l : CStr} {rest : List Char} (hl : LogLine l)
    (hfile : s.thefile = .opened (terminated l ++ rest)) (behind : List Char) :
    ∃ row, Holds row (terminated l) ∧
      readRow s.oldline s =
        { s with thefile := .opened rest, lastfew := Function.update s.lastfew s.oldline row } ∧
      rowFrom (readRow s.oldline s).lastfew behind s.oldline 0 = terminated l := by
  obtain ⟨h, hread⟩ : ∃ h, fgets (s.lastfew s.oldline) ⟨l ++ '\n' :: rest, false⟩ =
      ((s.lastfew s.oldline).put (l ++ ['\n']) h, ⟨rest, false⟩) :=
    fgets_line hl.newline hl.short rest false
  have hopened : s.thefile = ⟨l ++ '\n' :: rest, false⟩ := by
    rw [hfile, terminated, List.append_assoc]
    rfl
  have hrow : readRow s.oldline s = { s with
      thefile := .opened rest
      lastfew := Function.update s.lastfew s.oldline
        ((s.lastfew s.oldline).put (terminated l) h) } := by
    rw [readRow, hopened, hread]
    rfl
  refine ⟨_, ⟨s.lastfew s.oldline, h, rfl⟩, hrow, ?_⟩
  refine rowFrom_holds ?_ hl.nul_terminated (Nat.zero_le _) behind
  rw [hrow]
  exact ⟨s.lastfew s.oldline, h, Function.update_self _ _ _⟩

/-- **The search for the program counter**: the lines `todo` contain no mark, the line `l` does. -/
theorem scanConsole_spec (behind : List Char) {before : Lastfew} {l : CStr} {post : List Char}
    (hl : LogLine l) (hpc : contains "PC is at" (terminated l) = true) :
    ∀ {todo done : List CStr} {s : PanicScan}, (∀ x ∈ todo, LogLine x ∧
      contains "PC is at" (terminated x) = false ∧
      contains "Kernel panic -" (terminated x) = false) →
    s.thefile = .opened (todo.flatMap terminated ++ (terminated l ++ post)) → s.dumpall = false →
    s.oldline = slot done.length → RowsInv before done s.lastfew →
    (scanConsole behind s).oldline = slot (done ++ todo).length ∧
    (scanConsole behind s).dumpall = false ∧
      RowsInv before (done ++ todo ++ [l]) (scanConsole behind s).lastfew
  | [], done, s, htodo, hfile, hdump, hold, hinv => by
    obtain ⟨row, hrow, hread, hstr⟩ := readRow_line hl hfile behind
    have hbody : scanBody behind s = (true, readRow s.oldline s) := by
      rw [scanBody, hstr, if_pos hpc]
    have hstep : scanConsole behind s = readRow s.oldline s := by
      rw [scanConsole_eq, hbody, hfile, if_neg (by simp [InFile.opened]), if_pos rfl]
    rw [hstep, hread, List.append_nil]
    refine ⟨hold, hdump, ?_⟩
    show RowsInv before _ (Function.update s.lastfew s.oldline row)
    rw [hold]
    exact hinv.step hrow
  | x :: todo, done, s, htodo, hfile, hdump, hold, hinv => by
    obtain ⟨hx, hnopc, hnopanic⟩ := htodo x List.mem_cons_self
    rw [List.flatMap_cons, List.append_assoc] at hfile
    obtain ⟨row, hrow, hread, hstr⟩ := readRow_line hx hfile behind
    have hbody : scanBody behind s =
        (false, { readRow s.oldline s with oldline := s.oldline + 1 }) := by
      rw [scanBody, hstr, if_neg (by simp [hnopc]), if_neg (by simp [hnopanic])]
    have hstep : scanConsole behind s =
        scanConsole behind { readRow s.oldline s with oldline := s.oldline + 1 } := by
      rw [scanConsole_eq, hbody, hfile, if_neg (by simp [InFile.opened]), if_neg Bool.false_ne_true]
    have hold' : s.oldline + 1 = slot (done ++ [x]).length := by
      rw [hold, List.length_append, List.length_singleton]
      exact slot_add done.length 1
    have hinv' : RowsInv before (done ++ [x]) (Function.update s.lastfew s.oldline row) := by
      rw [hold]
      exact hinv.step hrow
    rw [hstep, hread]
    have hrest := scanConsole_spec behind (s := { s with
        thefile := .opened (todo.flatMap terminated ++ (terminated l ++ post))
        lastfew := Function.update s.lastfew s.oldline row
        oldline := s.oldline + 1 }) hl hpc (fun y hy => htodo y (List.mem_cons_of_mem x hy)) rfl
          hdump hold' hinv'
    rw [List.append_assoc done [x] todo] at hrest
    exact hrest

/-- What the back-log is to hold of a line. -/
def backlogLine (l : CStr) : List Char := (terminated l).drop 18

/-- The rows from `n` on, when they hold lines. -/
theorem rows_of_lines {lastfew : Lastfew} {behind : List Char} {lines : List CStr} {n : ℕ}
    (hok : ∀ l ∈ lines, LogLine l)
    (h : ∀ j l, lines[j]? = some l → Holds (lastfew (slot (n + j))) (terminated l)) :
    (List.range lines.length).flatMap (fun j => rowFrom lastfew behind (slot (n + j)) 18) =
      lines.flatMap backlogLine := by
  induction lines generalizing n with
  | nil => rfl
  | cons l lines ih =>
    have hl := hok l List.mem_cons_self
    have hfirst : rowFrom lastfew behind (slot n) 18 = backlogLine l :=
      rowFrom_holds (h 0 l rfl) hl.nul_terminated hl.long behind
    have hrest : ∀ j l', lines[j]? = some l' → Holds (lastfew (slot (n + 1 + j)))
        (terminated l') := by
      intro j l' hj
      have hnext := h (j + 1) l' (by simpa using hj)
      rwa [← Nat.add_assoc, Nat.add_right_comm] at hnext
    have hshift : (fun j => rowFrom lastfew behind (slot (n + (j + 1))) 18) =
        fun j => rowFrom lastfew behind (slot (n + 1 + j)) 18 := by
      funext j
      rw [← Nat.add_assoc, Nat.add_right_comm]
    rw [List.length_cons, List.range_succ_eq_map, List.flatMap_cons, List.flatMap_map,
      List.flatMap_cons]
    show rowFrom lastfew behind (slot n) 18 ++ List.flatMap _ _ = _
    rw [hfirst, hshift, ih (fun l' hl' => hok l' (List.mem_cons_of_mem l hl')) hrest]

theorem backlog_eq {behind : List Char} {s : PanicScan} {n : ℕ} (h : s.oldline = slot n) :
    backlog behind s = (List.range 10).flatMap fun j => rowFrom s.lastfew behind
    (slot (n + 1 + j)) 18 := by
  unfold backlog
  congr 1
  funext j
  rw [h, slot_add]
  congr 2
  omega

section Backlog

variable {before : Lastfew} {done : List CStr} {lastfew : Lastfew} {behind : List Char}

/-- With ten lines or more, the rows hold the last ten of them, in order. -/
theorem rows_full (hinv : RowsInv before done lastfew) (hok : ∀ l ∈ done, LogLine l)
    (hlen : 10 ≤ done.length) :
    (List.range 10).flatMap (fun j => rowFrom lastfew behind (slot (done.length + j)) 18) =
      (done.drop (done.length - 10)).flatMap backlogLine := by
  have hcount : (done.drop (done.length - 10)).length = 10 := by
    rw [List.length_drop]
    omega
  have hslot : ∀ j, slot (done.length + j) = slot (done.length - 10 + j) := by
    intro j
    ext
    rw [slot_val, slot_val]
    omega
  have hholds : ∀ j l, (done.drop (done.length - 10))[j]? = some l →
      Holds (lastfew (slot (done.length - 10 + j))) (terminated l) := by
    intro j l hj
    rw [List.getElem?_drop] at hj
    exact hinv.last _ l hj (by omega)
  have hrows := @rows_of_lines lastfew behind _ _ (fun l hl => hok l (List.mem_of_mem_drop hl))
    hholds
  rw [hcount] at hrows
  simp only [hslot]
  exact hrows

/-- With fewer lines, the rows that were not filled come first. -/
theorem rows_short (hinv : RowsInv before done lastfew) (hok : ∀ l ∈ done, LogLine l)
    (hlen : done.length < 10) :
    (List.range 10).flatMap (fun j => rowFrom lastfew behind (slot (done.length + j)) 18) =
      (List.range (10 - done.length)).flatMap
        (fun j => rowFrom lastfew behind (slot (done.length + j)) 18) ++
        done.flatMap backlogLine := by
  have hten : 10 = 10 - done.length + done.length := by omega
  have hslot : ∀ j, slot (done.length + (10 - done.length + j)) = slot (0 + j) := by
    intro j
    ext
    rw [slot_val, slot_val]
    omega
  have hlines : (List.range done.length).flatMap
      (fun j => rowFrom lastfew behind (slot (done.length + (10 - done.length + j))) 18) =
        done.flatMap backlogLine := by
    simp only [hslot]
    refine rows_of_lines hok fun j l hj => ?_
    rw [Nat.zero_add]
    exact hinv.last j l hj (by omega)
  nth_rewrite 1 [hten]
  rw [List.range_add, List.flatMap_append, List.flatMap_map, hlines]

/-- What is printed of the rows that were not filled is nothing just if each of them has a NUL where
printing begins. -/
theorem rows_unfilled_iff (hinv : RowsInv before done lastfew) :
    (List.range (10 - done.length)).flatMap
        (fun j => rowFrom lastfew behind (slot (done.length + j)) 18) = [] ↔
      ∀ i : Fin 10, done.length ≤ i → (before i).1[18]? = some CStr.nul := by
  rw [List.flatMap_eq_nil_iff]
  constructor
  · intro h i hi
    have hj : (i : ℕ) - done.length ∈ List.range (10 - done.length) := by
      rw [List.mem_range]
      omega
    have hslot : slot (done.length + ((i : ℕ) - done.length)) = i := by
      ext
      rw [slot_val]
      omega
    have hnil := h _ hj
    rw [hslot, rowFrom_eq_nil_iff, hinv.unfilled i hi] at hnil
    exact hnil
  · intro h j hj
    rw [List.mem_range] at hj
    have hi : done.length ≤ (slot (done.length + j) : ℕ) := by
      rw [slot_val]
      omega
    rw [rowFrom_eq_nil_iff, hinv.unfilled _ hi]
    exact h _ hi

end Backlog

/-- **The back-log of a panic** is the last ten lines up to the one with the program counter, or all
of them if there are fewer, without their prefixes, if and only if there are ten lines or the stack
happens to hold a NUL where the printing of each row that was not filled begins. -/
theorem readFile_backlog_iff (p : PanicInput) (pre : List CStr) (l : CStr) (post : List Char)
    (hopens : p.opens = true)
    (hconsole : p.console = pre.flatMap terminated ++ (terminated l ++ post))
    (hpre : ∀ x ∈ pre, LogLine x ∧ contains "PC is at" (terminated x) = false ∧
      contains "Kernel panic -" (terminated x) = false)
    (hl : LogLine l) (hpc : contains "PC is at" (terminated l) = true) :
    ∃ report, readFile p = some report ∧
      (report.backlog =
          ((pre ++ [l]).drop ((pre ++ [l]).length - min 10 (pre ++ [l]).length)).flatMap
          backlogLine ↔
        10 ≤ (pre ++ [l]).length ∨
          ∀ i : Fin 10, (pre ++ [l]).length ≤ i → (p.lastfew i).1[18]? = some CStr.nul) := by
  obtain ⟨hold, hdump, hinv⟩ :=
    @scanConsole_spec p.behind p.lastfew l post hl hpc pre [] p.start hpre
    (congrArg InFile.opened hconsole) rfl rfl (rowsInv_nil p.lastfew)
  rw [List.nil_append] at hold hinv
  have hok : ∀ x ∈ pre ++ [l], LogLine x := by
    intro x hx
    rcases List.mem_append.mp hx with hx | hx
    · exact (hpre x hx).1
    · exact List.mem_singleton.mp hx ▸ hl
  have hback : backlog p.behind (scanConsole p.behind p.start) = (List.range 10).flatMap fun j =>
      rowFrom (scanConsole p.behind p.start).lastfew p.behind
        (slot ((pre ++ [l]).length + j)) 18 := by
    rw [backlog_eq hold, List.length_append, List.length_singleton]
  have hread : readFile p = some ⟨panicHeader p, backlog p.behind (scanConsole p.behind p.start),
      (followLoop p.behind 9 (scanConsole p.behind p.start)).1,
      copyRest p.behind (followLoop p.behind 9 (scanConsole p.behind p.start)).2⟩ := by
    rw [readFile, if_neg (by simp [hopens]), if_neg (by simp [hdump])]
  refine ⟨_, hread, ?_⟩
  rw [hback]
  by_cases hten : 10 ≤ (pre ++ [l]).length
  · rw [rows_full hinv hok hten, Nat.min_eq_left hten]
    exact ⟨fun _ => .inl hten, fun _ => rfl⟩
  · have hlen : (pre ++ [l]).length < 10 := by omega
    rw [rows_short hinv hok hlen, Nat.min_eq_right (Nat.le_of_lt hlen), Nat.sub_self,
      List.drop_zero, List.append_left_eq_self, rows_unfilled_iff hinv]
    exact ⟨.inr, fun h => h.resolve_left hten⟩

/-- A log of one line, on a stack that holds `row` in each row of the array. -/
def shortPanic (row : LogBuf) : PanicInput where
  opens := true
  version := none
  motVersion := none
  bootinfo := none
  console := terminated "<1>[   12.345678] PC is at panic+0x1c".toList
  infoBuf := Buf.zero 256
  behindInfo := []
  lastfew _ := row
  behind := []

theorem logLine_short : LogLine "<1>[   12.345678] PC is at panic+0x1c".toList where
  newline := by decide +kernel
  nul := by decide +kernel
  long := by decide +kernel
  short := by decide +kernel

/-- On a stack of zeros the back-log is the line. -/
theorem readFile_backlog_zeros :
    ∃ report, readFile (shortPanic (Buf.zero 256)) = some report ∧
      report.backlog = backlogLine "<1>[   12.345678] PC is at panic+0x1c".toList := by
  obtain ⟨report, hread, hiff⟩ := readFile_backlog_iff (shortPanic (Buf.zero 256)) [] _ [] rfl
    (List.append_nil _).symm (by simp) logLine_short (by decide +kernel)
  refine ⟨report, hread, ?_⟩
  have hback := hiff.mpr (.inr fun i _ => by rfl)
  simpa using hback

/-- A row with an `x` where printing begins. -/
def staleRow : LogBuf := (Buf.zero 256).put (List.replicate 19 'x') (by decide)

/-- On a stack with such rows, nine of them come before the line. -/
theorem readFile_backlog_stale :
    ∃ report, readFile (shortPanic staleRow) = some report ∧
      report.backlog = List.replicate 9 'x' ++
      backlogLine "<1>[   12.345678] PC is at panic+0x1c".toList ∧
      report.backlog ≠ backlogLine "<1>[   12.345678] PC is at panic+0x1c".toList := by
  have hback : (readFile (shortPanic staleRow)).map PanicReport.backlog =
      some (List.replicate 9 'x' ++ backlogLine "<1>[   12.345678] PC is at panic+0x1c".toList) := by
    decide +kernel
  obtain ⟨report, hread, heq⟩ := Option.map_eq_some_iff.mp hback
  refine ⟨report, hread, heq, ?_⟩
  rw [heq, ne_eq, List.append_left_eq_self]
  decide

end Omap4.Modemlog
