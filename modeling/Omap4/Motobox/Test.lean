import Omap4.CString

/-!
# Omap4.Motobox.Test — conditions on the command line (`test.c`)

`test_main` reads an expression from its arguments and evaluates it on the way: `oexpr`, `aexpr`,
`nexpr` and `primary` are the rules of the grammar, `t_lex` turns the word at `t_wp` into a token.
`nargc` counts the words from `t_wp` on.  Which token a word is depends on what follows
(`isoperand`), and `oexpr` and `aexpr` look one word ahead and step back.

A read outside `argv` and a `strlen` or `strcmp` of `NULL` are a `Stop.fault`.  There is none, and
the recursion ends: `test_ends`.
-/

namespace Omap4.Motobox.Test

/-! ## Tokens -/

/-- `enum token`. -/
inductive Token where
  | eoi
  | filrd
  | filwr
  | filex
  | filexist
  | filreg
  | fildir
  | filcdev
  | filbdev
  | filfifo
  | filsock
  | filsym
  | filgz
  | filtt
  | filsuid
  | filsgid
  | filstck
  | filnt
  | filot
  | fileq
  | filuid
  | filgid
  | strez
  | strnz
  | streq
  | strne
  | strlt
  | strgt
  | inteq
  | intne
  | intge
  | intgt
  | intle
  | intlt
  | unot
  | band
  | bor
  | lparen
  | rparen
  | operand
  deriving DecidableEq, Repr

/-- `enum token_types`. -/
inductive TokenType where
  | unop
  | binop
  | bunop
  | bbinop
  | paren
  deriving DecidableEq, Repr

/-- `struct t_op`. -/
structure TOp where
  opText : CStr
  opNum : Token
  opType : TokenType
  deriving DecidableEq, Repr

def ops : List TOp := [
  ⟨"-r".toList, .filrd, .unop⟩, ⟨"-w".toList, .filwr, .unop⟩, ⟨"-x".toList, .filex, .unop⟩,
  ⟨"-e".toList, .filexist, .unop⟩, ⟨"-f".toList, .filreg, .unop⟩, ⟨"-d".toList, .fildir, .unop⟩,
  ⟨"-c".toList, .filcdev, .unop⟩, ⟨"-b".toList, .filbdev, .unop⟩, ⟨"-p".toList, .filfifo, .unop⟩,
  ⟨"-u".toList, .filsuid, .unop⟩, ⟨"-g".toList, .filsgid, .unop⟩, ⟨"-k".toList, .filstck, .unop⟩,
  ⟨"-s".toList, .filgz, .unop⟩, ⟨"-t".toList, .filtt, .unop⟩, ⟨"-z".toList, .strez, .unop⟩,
  ⟨"-n".toList, .strnz, .unop⟩, ⟨"-h".toList, .filsym, .unop⟩, ⟨"-O".toList, .filuid, .unop⟩,
  ⟨"-G".toList, .filgid, .unop⟩, ⟨"-L".toList, .filsym, .unop⟩, ⟨"-S".toList, .filsock, .unop⟩,
  ⟨"=".toList, .streq, .binop⟩, ⟨"!=".toList, .strne, .binop⟩, ⟨"<".toList, .strlt, .binop⟩,
  ⟨">".toList, .strgt, .binop⟩, ⟨"-eq".toList, .inteq, .binop⟩, ⟨"-ne".toList, .intne, .binop⟩,
  ⟨"-ge".toList, .intge, .binop⟩, ⟨"-gt".toList, .intgt, .binop⟩, ⟨"-le".toList, .intle, .binop⟩,
  ⟨"-lt".toList, .intlt, .binop⟩, ⟨"-nt".toList, .filnt, .binop⟩, ⟨"-ot".toList, .filot, .binop⟩,
  ⟨"-ef".toList, .fileq, .binop⟩, ⟨"!".toList, .unot, .bunop⟩, ⟨"-a".toList, .band, .bbinop⟩,
  ⟨"-o".toList, .bor, .bbinop⟩, ⟨"(".toList, .lparen, .paren⟩, ⟨")".toList, .rparen, .paren⟩]

/-- The operator of a word. -/
def lookup (s : CStr) : Option TOp := ops.find? fun op => op.opText = s

/-! ## Operands -/

/-- Where `test_main` ends, other than with a value. -/
inductive Stop where
  /-- `error`: a message, and `exit(1)` -/
  | error (msg : CStr)
  /-- a read outside `argv` or through `NULL` -/
  | fault
  | abort
  /-- the bound of the model on the recursion -/
  | fuel
  deriving DecidableEq, Repr

/-- `syntax`. -/
def syntaxError (op : Option CStr) (msg : String) : Stop :=
  .error (match op with
    | none | some [] => msg.toList
    | some op => op ++ ": ".toList ++ msg.toList)

inductive FileType where
  | reg
  | dir
  | chr
  | blk
  | fifo
  | sock
  | lnk
  deriving DecidableEq, Repr

/-- What is used of `struct stat`. -/
structure Stat where
  type : FileType
  mode : ℕ
  size : ℤ
  uid : ℕ
  gid : ℕ
  mtime : ℤ
  mtimensec : ℕ
  dev : ℕ
  ino : ℕ
  deriving DecidableEq, Repr

inductive Access where
  | r
  | w
  | x
  | f
  deriving DecidableEq, Repr

structure System where
  stat : CStr → Option Stat
  lstat : CStr → Option Stat
  access : CStr → Access → Bool
  geteuid : ℕ
  getegid : ℕ
  isatty : ℤ → Bool

/-- `strtol` in base 10, before the limits are applied: the number and what follows it. -/
def strtol (s : CStr) : Option (ℤ × CStr) :=
  match CStr.signed (s.dropWhile CStr.isSpace) with
  | (negative, d) =>
    if d.takeWhile Char.isDigit = [] then none
    else some (if negative then -(Nat.ofDigitChars 10 (d.takeWhile Char.isDigit) 0 : ℤ)
        else Nat.ofDigitChars 10 (d.takeWhile Char.isDigit) 0, d.dropWhile Char.isDigit)

/-- `getn` and `getq`, with the limits of their types. -/
def getNumber (lo hi : ℤ) (s : CStr) : Except Stop ℤ :=
  match strtol s with
  | none => .error (.error (s ++ ": bad number".toList))
  | some (r, p) =>
    if r < lo ∨ hi < r then .error (.error (s ++ ": out of range".toList))
    else if p.dropWhile CStr.isSpace ≠ [] then .error (.error (s ++ ": bad number".toList))
    else .ok r

/-- `getn`: a `long` has 32 bits. -/
def getn (s : CStr) : Except Stop ℤ := getNumber (-2147483648) 2147483647 s

/-- `getq`. -/
def getq (s : CStr) : Except Stop ℤ := getNumber (-9223372036854775808) 9223372036854775807 s

/-- `intcmp`. -/
def intcmp (s1 s2 : CStr) : Except Stop ℤ := do
  let q1 ← getq s1
  let q2 ← getq s2
  .ok (if q2 < q1 then 1 else if q1 < q2 then -1 else 0)

/-- `strtol` reads a number back and stops behind its digits. -/
theorem strtol_decInt (n : ℤ) {rest : CStr} (hrest : ∀ c, rest.head? = some c → c.isDigit = false) :
    strtol (CStr.decInt n ++ rest) = some (n, rest) := by
  have hdigits : ∀ m, (CStr.dec m ++ rest).takeWhile Char.isDigit = CStr.dec m := by
    intro m
    cases rest with
    | nil =>
      rw [List.append_nil]
      exact List.takeWhile_eq_self_iff.mpr fun x hx => CStr.isDigit_of_mem_dec hx
    | cons c rest => exact CStr.takeWhile_dec_append m (hrest c rfl) rest
  have hbehind : ∀ m, (CStr.dec m ++ rest).dropWhile Char.isDigit = rest := by
    intro m
    have hsplit := List.takeWhile_append_dropWhile (p := Char.isDigit) (l := CStr.dec m ++ rest)
    rw [hdigits] at hsplit
    exact List.append_cancel_left hsplit
  have hne : ∀ m, CStr.dec m ≠ [] := fun m => Nat.toDigits_ne_nil
  have hvalue : ∀ m, Nat.ofDigitChars 10 (CStr.dec m) 0 = m :=
    fun m => Nat.ofDigitChars_toDigits (by decide) (by decide)
  unfold CStr.decInt
  split_ifs with hneg
  · rw [List.cons_append, strtol, List.dropWhile_cons_of_neg (by decide)]
    simp only [CStr.signed, hdigits, hbehind, hvalue, if_neg (hne n.natAbs), if_true]
    congr 2
    omega
  · obtain ⟨c, s, hcons⟩ := List.exists_cons_of_ne_nil (hne n.natAbs)
    have hc : c.isDigit = true := CStr.isDigit_of_mem_dec (hcons ▸ List.mem_cons_self)
    have hsigned : CStr.signed ((CStr.dec n.natAbs ++ rest).dropWhile CStr.isSpace) =
        (false, CStr.dec n.natAbs ++ rest) := by
      rw [hcons, List.cons_append, List.dropWhile_cons_of_neg (by simp [CStr.isSpace_of_isDigit hc]),
        CStr.signed_of_isDigit hc]
    rw [strtol, hsigned]
    simp only [hdigits, hbehind, hvalue, if_neg (hne n.natAbs), Bool.false_eq_true, if_false]
    congr 2
    omega

theorem getq_decInt {n : ℤ} (hlo : -9223372036854775808 ≤ n) (hhi : n ≤ 9223372036854775807) :
    getq (CStr.decInt n) = .ok n := by
  have hnil : ∀ c, ([] : CStr).head? = some c → c.isDigit = false := fun c h => by cases h
  have hread := strtol_decInt n hnil
  rw [List.append_nil] at hread
  rw [getq, getNumber, hread]
  simp only [if_neg (show ¬ (n < -9223372036854775808 ∨ 9223372036854775807 < n) by omega)]
  rfl

section
variable (sys : System)

/-- `newerf`. -/
def newerf (f1 f2 : CStr) : Bool :=
  match sys.stat f1, sys.stat f2 with
  | some b1, some b2 =>
    if b2.mtime < b1.mtime then true
    else if b1.mtime < b2.mtime then false
    else b2.mtimensec < b1.mtimensec
  | _, _ => false

/-- `olderf`. -/
def olderf (f1 f2 : CStr) : Bool := newerf sys f2 f1

/-- `equalf`. -/
def equalf (f1 f2 : CStr) : Bool :=
  match sys.stat f1, sys.stat f2 with
  | some b1, some b2 => b1.dev = b2.dev && b1.ino = b2.ino
  | _, _ => false

/-- `filstat` behind `stat`. -/
def fileTest (nm : CStr) (s : Stat) : Token → Bool
  | .filrd => sys.access nm .r
  | .filwr => sys.access nm .w
  | .filex =>
    if !sys.access nm .x then false
    else if s.type = .dir || sys.geteuid ≠ 0 then true
    else s.mode &&& 0o111 ≠ 0
  | .filexist => sys.access nm .f
  | .filreg => s.type = .reg
  | .fildir => s.type = .dir
  | .filcdev => s.type = .chr
  | .filbdev => s.type = .blk
  | .filfifo => s.type = .fifo
  | .filsock => s.type = .sock
  | .filsym => s.type = .lnk
  | .filsuid => s.mode &&& 0o4000 ≠ 0
  | .filsgid => s.mode &&& 0o2000 ≠ 0
  | .filstck => s.mode &&& 0o1000 ≠ 0
  | .filgz => 0 < s.size
  | .filuid => s.uid = sys.geteuid
  | .filgid => s.gid = sys.getegid
  | _ => true

/-- `filstat`. -/
def filstat (nm : CStr) (mode : Token) : Bool :=
  ((if mode = .filsym then sys.lstat nm else sys.stat nm).map fun s => fileTest sys nm s mode).getD
    false

/-- The unary operators of `primary`. -/
def unaryValue (n : Token) (w : CStr) : Except Stop Bool :=
  match n with
  | .strez => .ok (w.length = 0)
  | .strnz => .ok (w.length ≠ 0)
  | .filtt => (getn w).map sys.isatty
  | n => .ok (filstat sys w n)

/-- The operators of `binop`.  `strcmp` compares the strings in the order of their bytes. -/
def binaryValue (op : Token) (opnd1 opnd2 : CStr) : Except Stop Bool :=
  match op with
  | .streq => .ok (opnd1 = opnd2)
  | .strne => .ok (opnd1 ≠ opnd2)
  | .strlt => .ok (opnd1 < opnd2)
  | .strgt => .ok (opnd2 < opnd1)
  | .inteq => (intcmp opnd1 opnd2).map fun c => c = 0
  | .intne => (intcmp opnd1 opnd2).map fun c => c ≠ 0
  | .intge => (intcmp opnd1 opnd2).map fun c => 0 ≤ c
  | .intgt => (intcmp opnd1 opnd2).map fun c => 0 < c
  | .intle => (intcmp opnd1 opnd2).map fun c => c ≤ 0
  | .intlt => (intcmp opnd1 opnd2).map fun c => c < 0
  | .filnt => .ok (newerf sys opnd1 opnd2)
  | .filot => .ok (olderf sys opnd1 opnd2)
  | .fileq => .ok (equalf sys opnd1 opnd2)
  | _ => .error .abort

end

/-! ## The words and where the code is in them -/

/-- `t_wp` as an index, `nargc` and `t_wp_op`. -/
structure Lexer where
  wp : ℕ
  nargc : ℤ
  op : Option TOp
  deriving DecidableEq, Repr

def Lexer.isUnop (l : Lexer) : Bool := l.op.any fun op => op.opType = .unop

def Lexer.isBinop (l : Lexer) : Bool := l.op.any fun op => op.opType = .binop

def deref : Option CStr → Except Stop CStr
  | none => .error .fault
  | some s => .ok s

section
variable (args : List CStr)

/-- `argv[i + 1]`; the last entry is `NULL`. -/
def word (i : ℕ) : Except Stop (Option CStr) :=
  if i ≤ args.length then .ok args[i]? else .error .fault

/-- `isoperand`. -/
def isoperand (l : Lexer) : Except Stop Bool :=
  if l.nargc = 1 then .ok true
  else if l.nargc = 2 then .ok false
  else do
    let s ← word args (l.wp + 1)
    let t ← word args (l.wp + 2)
    let s ← deref s
    if (lookup s).any fun op => op.opType = .binop then do
      let t ← deref t
      .ok (t ≠ ")".toList)
    else .ok false

/-- An operator that `t_lex` takes for an operand. -/
def isWord (op : TOp) (l : Lexer) : Except Stop Bool :=
  if op.opType = .unop then isoperand args l else .ok (op.opNum = .lparen && l.nargc = 1)

/-- `t_lex`. -/
def tLex (s : Option CStr) (l : Lexer) : Except Stop (Token × Lexer) :=
  match s with
  | none => .ok (.eoi, { l with op := none })
  | some s =>
    match lookup s with
    | none => .ok (.operand, { l with op := none })
    | some op => do
      let operand ← isWord args op l
      .ok (if operand then (.operand, { l with op := none })
        else (op.opNum, { l with op := some op }))

/-- `t_lex(nargc > 0 ? (--nargc, *++t_wp) : NULL)`. -/
def next (l : Lexer) : Except Stop (Token × Lexer) :=
  if 0 < l.nargc then do
    let s ← word args (l.wp + 1)
    tLex args s { l with wp := l.wp + 1, nargc := l.nargc - 1 }
  else tLex args none l

/-- `t_wp--; nargc++;` behind the first word. -/
def back (l : Lexer) : Except Stop Lexer :=
  if l.wp = 0 then .error .fault else .ok { l with wp := l.wp - 1, nargc := l.nargc + 1 }

/-! ## The rules -/

variable (sys : System)

/-- `primary` with a unary operator. -/
def unary (n : Token) (l : Lexer) : Except Stop (Bool × Lexer) :=
  if l.nargc - 1 = 0 then .error (syntaxError (l.op.map TOp.opText) "argument expected")
  else do
    let w ← word args (l.wp + 1)
    let w ← deref w
    let v ← unaryValue sys n w
    .ok (v, { l with wp := l.wp + 1, nargc := l.nargc - 1 })

/-- `nargc > 0 ? t_wp[1] : NULL`. -/
def peek (l : Lexer) : Except Stop (Option CStr) :=
  if 0 < l.nargc then word args (l.wp + 1) else .ok none

/-- `binop`. -/
def binop (l : Lexer) : Except Stop (Bool × Lexer) := do
  let opnd1 ← word args l.wp
  let opnd1 ← deref opnd1
  let t ← next args l
  match t.2.op with
  | none => .error .fault
  | some op => do
    let opnd2 ← peek args t.2
    match opnd2 with
    | none => .error (syntaxError (some op.opText) "argument expected")
    | some opnd2 => do
      let v ← binaryValue sys op.opNum opnd1 opnd2
      .ok (v, { t.2 with wp := t.2.wp + 1, nargc := t.2.nargc - 1 })

/-- `primary` without a parenthesis. -/
def simple (n : Token) (l : Lexer) : Except Stop (Bool × Lexer) :=
  if l.isUnop then unary args sys n l
  else do
    let s ← peek args l
    let t ← tLex args s l
    if t.2.isBinop then binop args sys t.2
    else do
      let w ← word args t.2.wp
      let w ← deref w
      .ok (0 < w.length, t.2)

mutual

/-- `oexpr`. -/
def oexpr : ℕ → Token → Lexer → Except Stop (Bool × Lexer)
  | 0, _, _ => .error .fuel
  | fuel + 1, n, l => do
    let r ← aexpr fuel n l
    let t ← next args r.2
    if t.1 = .bor then do
      let t' ← next args t.2
      let r' ← oexpr fuel t'.1 t'.2
      .ok (r'.1 || r.1, r'.2)
    else do
      let l' ← back t.2
      .ok (r.1, l')

/-- `aexpr`. -/
def aexpr : ℕ → Token → Lexer → Except Stop (Bool × Lexer)
  | 0, _, _ => .error .fuel
  | fuel + 1, n, l => do
    let r ← nexpr fuel n l
    let t ← next args r.2
    if t.1 = .band then do
      let t' ← next args t.2
      let r' ← aexpr fuel t'.1 t'.2
      .ok (r'.1 && r.1, r'.2)
    else do
      let l' ← back t.2
      .ok (r.1, l')

/-- `nexpr`. -/
def nexpr : ℕ → Token → Lexer → Except Stop (Bool × Lexer)
  | 0, _, _ => .error .fuel
  | fuel + 1, n, l =>
    if n = .unot then do
      let t ← next args l
      let r ← nexpr fuel t.1 t.2
      .ok (!r.1, r.2)
    else primary fuel n l

/-- `primary`. -/
def primary : ℕ → Token → Lexer → Except Stop (Bool × Lexer)
  | 0, _, _ => .error .fuel
  | fuel + 1, n, l =>
    if n = .eoi then .ok (false, l)
    else if n = .lparen then do
      let t ← next args l
      if t.1 = .rparen then .ok (false, t.2)
      else do
        let r ← oexpr fuel t.1 t.2
        let t' ← next args r.2
        if t'.1 = .rparen then .ok (r.1, t'.2)
        else .error (syntaxError none "closing paren expected")
    else simple args sys n l

end

/-- `test_main` from the first word on: the exit status. -/
def evaluate : Except Stop ℕ :=
  if args = [] then .ok 1
  else do
    let t ← tLex args args[0]? ⟨0, args.length, none⟩
    let r ← oexpr args sys (4 * args.length + 4) t.1 t.2
    if 0 < r.2.nargc - 1 then do
      let w ← word args r.2.wp
      .error (syntaxError w "unexpected operator")
    else .ok (if r.1 then 0 else 1)

end

/-- The name of the program behind its last slash. -/
def baseName (argv0 : CStr) : CStr := (argv0.reverse.takeWhile (· ≠ '/')).reverse

/-- `test_main`. -/
def testMain (sys : System) (argv0 : CStr) (args : List CStr) : Except Stop ℕ :=
  if baseName argv0 = "[".toList then
    if (argv0 :: args).getLast? = some "]".toList then evaluate args.dropLast sys
    else .error (.error "missing ]".toList)
  else evaluate args sys

/-! ## The end of the recursion -/

/-- The code does not stop, or with a message, and then `P` holds. -/
def Ends {α : Type} (P : α → Prop) : Except Stop α → Prop
  | .ok a => P a
  | .error (.error _) => True
  | .error _ => False

theorem Ends.bind {α β : Type} {P : α → Prop} {Q : β → Prop} {e : Except Stop α}
    {f : α → Except Stop β} (h : Ends P e) (hf : ∀ a, P a → Ends Q (f a)) : Ends Q (e >>= f) := by
  cases e with
  | ok a => exact hf a h
  | error stop =>
    cases stop with
    | error msg => trivial
    | _ => exact h

theorem Ends.mono {α : Type} {P Q : α → Prop} {e : Except Stop α} (h : Ends P e)
    (hPQ : ∀ a, P a → Q a) :
    Ends Q e := by
  cases e with
  | ok a => exact hPQ a h
  | error stop =>
    cases stop with
    | error msg => trivial
    | _ => exact h

/-- A value, or a message. -/
abbrev Valued {α : Type} (e : Except Stop α) : Prop := Ends (fun _ => True) e

theorem valued_getNumber (lo hi : ℤ) (s : CStr) : Valued (getNumber lo hi s) := by
  unfold getNumber
  cases strtol s with
  | none => trivial
  | some r =>
    show Valued (if _ then _ else _)
    split_ifs
    · trivial
    · trivial
    · trivial

theorem Valued.map {α β : Type} {e : Except Stop α} (h : Valued e) (g : α → β) :
    Valued (e.map g) := by
  cases e with
  | ok a => trivial
  | error stop =>
    cases stop with
    | error msg => trivial
    | _ => exact h

theorem valued_intcmp (s1 s2 : CStr) : Valued (intcmp s1 s2) :=
  (valued_getNumber _ _ s1).bind fun _ _ => (valued_getNumber _ _ s2).bind fun _ _ => trivial

theorem valued_unaryValue (sys : System) (n : Token) (w : CStr) : Valued (unaryValue sys n w) := by
  unfold unaryValue
  split
  · trivial
  · trivial
  · exact (valued_getNumber _ _ w).map _
  · trivial

/-- `binop` knows every binary operator of the table. -/
theorem valued_binaryValue (sys : System) {op : TOp} (hmem : op ∈ ops) (hbinop : op.opType = .binop)
    (opnd1 opnd2 : CStr) : Valued (binaryValue sys op.opNum opnd1 opnd2) := by
  have hcovered : ∀ op ∈ ops, op.opType = .binop →
      op.opNum ∈ [Token.streq, .strne, .strlt, .strgt, .inteq, .intne,
      .intge, .intgt, .intle, .intlt, .filnt, .filot, .fileq] := by decide +kernel
  have hnum := hcovered op hmem hbinop
  revert hnum
  generalize op.opNum = n
  intro hnum
  simp only [List.mem_cons, List.not_mem_nil, or_false] at hnum
  rcases hnum with rfl | rfl | rfl | rfl | rfl | rfl | rfl | rfl | rfl | rfl | rfl | rfl | rfl
  all_goals first
    | trivial
    | exact (valued_intcmp opnd1 opnd2).map _

theorem mem_ops_of_lookup {s : CStr} {op : TOp} (h : lookup s = some op) : op ∈ ops :=
  List.mem_of_find?_eq_some h

section
variable {args : List CStr} {l : Lexer}

/-- `nargc` counts the words from `t_wp` on. -/
structure Lexer.At (args : List CStr) (l : Lexer) : Prop where
  wp_le : l.wp ≤ args.length
  nargc_eq : l.nargc = args.length - l.wp

theorem word_of_le {i : ℕ} (h : i ≤ args.length) : word args i = .ok args[i]? := if_pos h

theorem word_of_lt (args : List CStr) (i : ℕ) (h : i < args.length) :
    ∃ w, word args i = .ok (some w) := by
  refine ⟨args[i], ?_⟩
  rw [word_of_le (Nat.le_of_lt h), List.getElem?_eq_getElem h]

/-- Only the last word is always an operand. -/
theorem ends_isoperand (hl : l.At args) (hlt : l.wp < args.length) :
    Ends (fun b => b = false → l.wp + 2 ≤ args.length) (isoperand args l) := by
  have hnargc := hl.nargc_eq
  unfold isoperand
  split_ifs with hone htwo
  · exact fun h => by cases h
  · intro _
    omega
  · obtain ⟨s, hs⟩ := word_of_lt args (l.wp + 1) (by omega)
    obtain ⟨t, ht⟩ := word_of_lt args (l.wp + 2) (by omega)
    rw [hs, ht]
    show Ends _ (if _ then _ else _)
    split_ifs
    · intro _
      omega
    · intro _
      omega

/-- What a token says of the word it was made of, if there was one. -/
structure Lexed (args : List CStr) (l : Lexer) (t : Token × Lexer) : Prop where
  wp : t.2.wp = l.wp
  nargc : t.2.nargc = l.nargc
  unop : t.2.isUnop = true → l.wp + 2 ≤ args.length
  lparen : t.1 = .lparen → l.wp + 2 ≤ args.length
  mem : ∀ op, t.2.op = some op → op ∈ ops

/-- A word without an operator. -/
theorem lexed_none {l' : Lexer} {n : Token} (hwp : l'.wp = l.wp) (hnargc : l'.nargc = l.nargc)
    (hop : l'.op = none) (hn : n ≠ .lparen) : Lexed args l (n, l') where
  wp := hwp
  nargc := hnargc
  unop := by
    intro h
    rw [Lexer.isUnop, hop] at h
    cases h
  lparen := fun h => absurd h hn
  mem := by
    intro op h
    rw [hop] at h
    cases h

theorem ends_isWord (hl : l.At args) (hlt : l.wp < args.length) (op : TOp) :
    Ends (fun b => b = false → op.opType = .unop ∨ op.opNum = .lparen → l.wp + 2 ≤ args.length)
      (isWord args op l) := by
  unfold isWord
  split_ifs with hunop
  · exact (ends_isoperand hl hlt).mono fun b hb h _ => hb h
  · intro h hor
    have hlparen := hor.resolve_left hunop
    rw [hlparen] at h
    have hne : l.nargc ≠ 1 := by simpa using h
    have := hl.nargc_eq
    omega

/-- `t_lex` of the word at `t_wp`. -/
theorem ends_tLex (hl : l.At args) :
    Ends (fun t => Lexed args l t ∧ (t.1 = .eoi ↔ l.wp = args.length))
    (tLex args args[l.wp]? l) := by
  have hnum : ∀ op ∈ ops, op.opNum ≠ .eoi ∧ (op.opNum = .lparen → op.opType ≠ .unop) := by
    decide +kernel
  by_cases hlt : l.wp < args.length
  · rw [List.getElem?_eq_getElem hlt, tLex]
    cases hlookup : lookup args[l.wp] with
    | none =>
      exact ⟨lexed_none rfl rfl rfl (fun h => by cases h),
        iff_of_false (fun h => by cases h) (by omega)⟩
    | some op =>
      have hmem := mem_ops_of_lookup hlookup
      refine (ends_isWord hl hlt op).bind fun b hb => ?_
      cases b with
      | true =>
        exact ⟨lexed_none rfl rfl rfl (fun h => by cases h),
          iff_of_false (fun h => by cases h) (by omega)⟩
      | false =>
        refine ⟨⟨rfl, rfl, fun h => ?_, fun h => hb rfl (.inr h), fun op' h => ?_⟩, ?_⟩
        · exact hb rfl (.inl (by simpa [Lexer.isUnop] using h))
        · exact Option.some.inj h ▸ hmem
        · exact iff_of_false (hnum op hmem).1 (by omega)
  · have hend : l.wp = args.length := Nat.le_antisymm hl.wp_le (Nat.le_of_not_lt hlt)
    rw [List.getElem?_eq_none (Nat.le_of_not_lt hlt)]
    exact ⟨lexed_none rfl rfl rfl (fun h => by cases h), iff_of_true rfl hend⟩

/-- `t_wp` moves to the next word, or stays behind the last one. -/
theorem ends_next (hl : l.At args) :
    Ends (fun t => t.2.At args ∧ t.2.wp = min (l.wp + 1) args.length ∧
      (t.1 = .eoi ↔ t.2.wp = args.length) ∧
      Lexed args t.2 t) (next args l) := by
  have hnargc := hl.nargc_eq
  have hle := hl.wp_le
  unfold next
  split_ifs with hpos
  · have hat : Lexer.At args { l with wp := l.wp + 1, nargc := l.nargc - 1 } :=
      ⟨by show l.wp + 1 ≤ _; omega, by show l.nargc - 1 = args.length - ((l.wp + 1 : ℕ) : ℤ); omega⟩
    rw [word_of_le (by omega)]
    refine (ends_tLex hat).mono fun t ht => ?_
    obtain ⟨hlexed, heoi⟩ := ht
    have hwp : t.2.wp = l.wp + 1 := hlexed.wp
    have hwp' : { l with wp := l.wp + 1, nargc := l.nargc - 1 : Lexer }.wp = t.2.wp :=
      hlexed.wp.symm
    refine ⟨⟨?_, ?_⟩, by omega, ?_, ⟨rfl, rfl, ?_, ?_, hlexed.mem⟩⟩
    · omega
    · rw [hlexed.nargc, hwp]
      exact hat.nargc_eq
    · rw [← hwp']
      exact heoi
    · rw [← hwp']
      exact hlexed.unop
    · rw [← hwp']
      exact hlexed.lparen
  · have hend : l.wp = args.length := by omega
    refine ⟨⟨hle, hnargc⟩, ?_, iff_of_true rfl hend, lexed_none rfl rfl rfl (fun h => by cases h)⟩
    show l.wp = _
    omega

theorem ends_back (hl : l.At args) (hpos : 0 < l.wp) :
    Ends (fun r => r.At args ∧ r.wp = l.wp - 1) (back l) := by
  have hnargc := hl.nargc_eq
  have hle := hl.wp_le
  unfold back
  rw [if_neg (by omega)]
  refine ⟨⟨?_, ?_⟩, rfl⟩
  · show l.wp - 1 ≤ _
    omega
  · show l.nargc + 1 = args.length - ((l.wp - 1 : ℕ) : ℤ)
    omega

theorem ends_peek (hl : l.At args) : Ends (fun s => s = args[l.wp + 1]?) (peek args l) := by
  have hnargc := hl.nargc_eq
  have hle := hl.wp_le
  unfold peek
  split_ifs with hpos
  · rw [word_of_le (by omega)]
    rfl
  · show none = _
    rw [List.getElem?_eq_none (by omega)]

/-- Only unary operators and a parenthesis may be taken for operands. -/
theorem tLex_of_lookup {s : CStr} {op : TOp} (h : lookup s = some op) (hunop : op.opType ≠ .unop)
    (hlparen : op.opNum ≠ .lparen) (l : Lexer) :
    tLex args (some s) l = .ok (op.opNum, { l with op := some op }) := by
  have hword : isWord args op l = .ok false := by
    rw [isWord, if_neg hunop, decide_eq_false hlparen, Bool.false_and]
  simp only [tLex, h, hword]
  rfl

theorem ops_binop : ∀ op ∈ ops, op.opType = .binop → op.opType ≠ .unop ∧ op.opNum ≠ .lparen := by
  decide +kernel

/-- A look at a word that `t_wp` has not reached. -/
theorem ends_tLex_peek (hl : l.At args) (hlt : l.wp < args.length) (s : Option CStr) :
    Ends (fun t => t.2.wp = l.wp ∧ t.2.nargc = l.nargc ∧ (t.2.isBinop = true → ∃ w op, s = some w ∧
      lookup w = some op ∧ op.opType = .binop)) (tLex args s l) := by
  cases s with
  | none => exact ⟨rfl, rfl, fun h => by cases h⟩
  | some w =>
    rw [tLex]
    cases hlookup : lookup w with
    | none => exact ⟨rfl, rfl, fun h => by cases h⟩
    | some op =>
      refine (ends_isWord hl hlt op).bind fun b hb => ?_
      cases b with
      | true => exact ⟨rfl, rfl, fun h => by cases h⟩
      | false => exact ⟨rfl, rfl, fun h => ⟨w, op, rfl, hlookup, by simpa [Lexer.isBinop] using h⟩⟩

variable {sys : System}

/-- Where a rule leaves `t_wp`: at a word that is not before the one it began with. -/
def Stays (args : List CStr) (wp : ℕ) (r : Bool × Lexer) : Prop :=
  r.2.At args ∧ wp ≤ r.2.wp ∧ r.2.wp < args.length

theorem ends_unary (hl : l.At args) (hlt : l.wp + 2 ≤ args.length) (n : Token) :
    Ends (Stays args l.wp) (unary args sys n l) := by
  have hnargc := hl.nargc_eq
  unfold unary
  rw [if_neg (by omega)]
  obtain ⟨w, hw⟩ := word_of_lt args (l.wp + 1) (by omega)
  rw [hw]
  refine (valued_unaryValue sys n w).bind fun v _ => ⟨⟨?_, ?_⟩, ?_, ?_⟩
  · show l.wp + 1 ≤ _
    omega
  · show l.nargc - 1 = args.length - ((l.wp + 1 : ℕ) : ℤ)
    omega
  · show l.wp ≤ l.wp + 1
    omega
  · show l.wp + 1 < _
    omega

theorem next_of_lt (hl : l.At args) (hlt : l.wp < args.length) :
    next args l = tLex args args[l.wp + 1]? { l with wp := l.wp + 1, nargc := l.nargc - 1 } := by
  have hnargc := hl.nargc_eq
  unfold next
  rw [if_pos (by omega), word_of_le (by omega)]
  rfl

theorem ends_binop (sys : System) (hl : l.At args) {w : CStr} {op : TOp}
    (hw : args[l.wp + 1]? = some w) (hop : lookup w = some op)
    (hbinop : op.opType = .binop) : Ends (Stays args l.wp) (binop args sys l) := by
  have hnargc := hl.nargc_eq
  have hlt : l.wp + 1 < args.length := (List.getElem?_eq_some_iff.mp hw).1
  have hmem := mem_ops_of_lookup hop
  obtain ⟨hunop, hlparen⟩ := ops_binop op hmem hbinop
  obtain ⟨opnd1, hopnd1⟩ := word_of_lt args l.wp (by omega)
  have hat : Lexer.At args { l with wp := l.wp + 1, nargc := l.nargc - 1, op := some op } :=
    ⟨by show l.wp + 1 ≤ _; omega, by show l.nargc - 1 = args.length - ((l.wp + 1 : ℕ) : ℤ); omega⟩
  simp only [binop, hopnd1, next_of_lt hl (by omega), hw, tLex_of_lookup hop hunop hlparen]
  refine (ends_peek hat).bind fun opnd2 hopnd2 => ?_
  cases opnd2 with
  | none => trivial
  | some opnd2 =>
    have hlt' : l.wp + 1 + 1 < args.length := (List.getElem?_eq_some_iff.mp hopnd2.symm).1
    refine (valued_binaryValue sys hmem hbinop opnd1 opnd2).bind fun v _ => ⟨⟨?_, ?_⟩, ?_, ?_⟩
    · show l.wp + 1 + 1 ≤ _
      omega
    · show l.nargc - 1 - 1 = args.length - ((l.wp + 1 + 1 : ℕ) : ℤ)
      omega
    · show l.wp ≤ l.wp + 1 + 1
      omega
    · exact hlt'

theorem ends_simple (hl : l.At args) (hlt : l.wp < args.length)
    (hunop : l.isUnop = true → l.wp + 2 ≤ args.length) (n : Token) :
    Ends (Stays args l.wp) (simple args sys n l) := by
  unfold simple
  split_ifs with h
  · exact ends_unary hl (hunop h) n
  · refine (ends_peek hl).bind fun s hs => (ends_tLex_peek hl hlt s).bind fun t ht => ?_
    obtain ⟨hwp, hnargc, hbinop⟩ := ht
    have hat : t.2.At args := ⟨hwp ▸ hl.wp_le, by rw [hwp, hnargc, hl.nargc_eq]⟩
    split_ifs with hb
    · obtain ⟨w, op, hw, hop, htype⟩ := hbinop hb
      have hends := ends_binop sys hat (by rw [hwp, ← hs, hw]) hop htype
      rw [hwp] at hends
      exact hends
    · obtain ⟨w, hw⟩ := word_of_lt args t.2.wp (by omega)
      rw [hw]
      exact ⟨hat, Nat.le_of_eq hwp.symm, by show t.2.wp < _; omega⟩

/-! ## The rules end -/

/-- The token of the word at `t_wp` is what `t_lex` made of it. -/
structure Current (args : List CStr) (n : Token) (l : Lexer) : Prop where
  at_wp : l.At args
  lexed : Lexed args l (n, l)
  eoi : n = .eoi ↔ l.wp = args.length

/-- Where `nexpr` and `primary` leave `t_wp`: not before the word they began with. -/
def Reads (args : List CStr) (wp : ℕ) (r : Bool × Lexer) : Prop := r.2.At args ∧ wp ≤ r.2.wp

/-- Where `oexpr` and `aexpr` leave it: at a word, one word back if there was none. -/
def Settles (args : List CStr) (wp : ℕ) (r : Bool × Lexer) : Prop :=
  r.2.At args ∧ r.2.wp < args.length ∧ min wp (args.length - 1) ≤ r.2.wp

theorem Stays.reads {wp : ℕ} {r : Bool × Lexer} (h : Stays args wp r) : Reads args wp r :=
  ⟨h.1, h.2.1⟩

theorem current_next {t : Token × Lexer}
    (ht : t.2.At args ∧ t.2.wp = min (l.wp + 1) args.length ∧ (t.1 = .eoi ↔ t.2.wp = args.length) ∧
      Lexed args t.2 t) : Current args t.1 t.2 :=
  ⟨ht.1, ht.2.2.2, ht.2.2.1⟩

/-- Behind an operand of `-o` or `-a`: the rest of the chain, or a step back. -/
def chain (args : List CStr) (rule : Token → Lexer → Except Stop (Bool × Lexer)) (op : Token)
    (f : Bool → Bool → Bool) (r : Bool × Lexer) : Except Stop (Bool × Lexer) := do
  let t ← next args r.2
  if t.1 = op then do
    let t' ← next args t.2
    let r' ← rule t'.1 t'.2
    .ok (f r'.1 r.1, r'.2)
  else do
    let l' ← back t.2
    .ok (r.1, l')

theorem oexpr_succ (fuel : ℕ) (n : Token) (l : Lexer) :
    oexpr args sys (fuel + 1) n l = aexpr args sys fuel n l >>= chain args
    (oexpr args sys fuel) .bor or := by
  rw [oexpr]
  rfl

theorem aexpr_succ (fuel : ℕ) (n : Token) (l : Lexer) :
    aexpr args sys (fuel + 1) n l = nexpr args sys fuel n l >>= chain args
    (aexpr args sys fuel) .band and := by
  rw [aexpr]
  rfl

theorem ends_chain {rule : Token → Lexer → Except Stop (Bool × Lexer)} {op : Token}
    (hop : op ≠ .eoi) {f : Bool → Bool → Bool} (hne : args ≠ []) {wp : ℕ} (hwp : wp ≤ args.length)
    {r : Bool × Lexer} (hr_at : r.2.At args) (hr_le : min wp (args.length - 1) ≤ r.2.wp)
    (hrule : ∀ n l', Current args n l' → wp + 2 ≤ l'.wp → Ends (Settles args l'.wp) (rule n l')) :
    Ends (Settles args wp) (chain args rule op f r) := by
  have hpos := List.length_pos_iff.mpr hne
  have hle := hr_at.wp_le
  refine (ends_next hr_at).bind fun t ht => ?_
  obtain ⟨hat, htwp, heoi, hlexed⟩ := ht
  split_ifs with htop
  · have hlt : t.2.wp < args.length := by
      have hne' : t.2.wp ≠ args.length := fun h => hop (htop ▸ heoi.mpr h)
      have := hat.wp_le
      omega
    refine (ends_next hat).bind fun t' ht' => ?_
    have hwp' := ht'.2.1
    refine (hrule t'.1 t'.2 (current_next ht') (by omega)).bind fun r' hr' => ⟨hr'.1, hr'.2.1, ?_⟩
    have := hr'.2.2
    show min wp (args.length - 1) ≤ r'.2.wp
    omega
  · refine (ends_back hat (by omega)).bind fun l' hl' => ⟨hl'.1, ?_, ?_⟩
    · show l'.wp < _
      omega
    · show min wp (args.length - 1) ≤ l'.wp
      omega

/-- Every rule ends if it may call the others often enough. -/
structure RulesEnd (args : List CStr) (sys : System) (fuel : ℕ) : Prop where
  oexpr : ∀ n l, Current args n l → 4 * (args.length - l.wp) + 4 ≤ fuel →
    Ends (Settles args l.wp) (oexpr args sys fuel n l)
  aexpr : ∀ n l, Current args n l → 4 * (args.length - l.wp) + 3 ≤ fuel →
    Ends (Settles args l.wp) (aexpr args sys fuel n l)
  nexpr : ∀ n l, Current args n l → 4 * (args.length - l.wp) + 2 ≤ fuel →
    Ends (Reads args l.wp) (nexpr args sys fuel n l)
  primary : ∀ n l, Current args n l → 4 * (args.length - l.wp) + 1 ≤ fuel →
    Ends (Reads args l.wp) (primary args sys fuel n l)

theorem rulesEnd_primary {fuel : ℕ} (ih : RulesEnd args sys fuel) {n : Token}
    (hcurrent : Current args n l) (hfuel : 4 * (args.length - l.wp) + 1 ≤ fuel + 1) :
    Ends (Reads args l.wp) (primary args sys (fuel + 1) n l) := by
  obtain ⟨hat, hlexed, heoi⟩ := hcurrent
  rw [primary]
  by_cases hn : n = .eoi
  · rw [if_pos hn]
    exact ⟨hat, Nat.le_refl _⟩
  · have hlt : l.wp < args.length := Nat.lt_of_le_of_ne hat.wp_le fun h => hn (heoi.mpr h)
    rw [if_neg hn]
    by_cases hparen : n = .lparen
    · have htwo := hlexed.lparen hparen
      rw [if_pos hparen]
      refine (ends_next hat).bind fun t ht => ?_
      have htwp := ht.2.1
      split_ifs
      · exact ⟨ht.1, by show l.wp ≤ t.2.wp; omega⟩
      · refine (ih.oexpr t.1 t.2 (current_next ht) (by omega)).bind fun r hr => ?_
        obtain ⟨hrat, hrlt, hrle⟩ := hr
        refine (ends_next hrat).bind fun t' ht' => ?_
        have hwp' := ht'.2.1
        split_ifs
        · exact ⟨ht'.1, by show l.wp ≤ t'.2.wp; omega⟩
        · trivial
    · rw [if_neg hparen]
      exact (ends_simple hat hlt hlexed.unop n).mono fun r => Stays.reads

theorem rulesEnd (hne : args ≠ []) (fuel : ℕ) : RulesEnd args sys fuel := by
  induction fuel with
  | zero =>
    exact ⟨fun n l _ h => by omega, fun n l _ h => by omega, fun n l _ h => by omega,
      fun n l _ h => by omega⟩
  | succ fuel ih =>
    constructor
    · intro n l hcurrent hfuel
      rw [oexpr_succ]
      refine (ih.aexpr n l hcurrent (by omega)).bind fun r hr => ?_
      refine ends_chain (fun h => by cases h) hne hcurrent.at_wp.wp_le hr.1 hr.2.2 ?_
      intro n' l' hcurrent' hwp
      have := hcurrent'.at_wp.wp_le
      exact ih.oexpr n' l' hcurrent' (by omega)
    · intro n l hcurrent hfuel
      rw [aexpr_succ]
      refine (ih.nexpr n l hcurrent (by omega)).bind fun r hr => ?_
      have hle := hr.2
      refine ends_chain (fun h => by cases h) hne hcurrent.at_wp.wp_le hr.1 (by omega) ?_
      intro n' l' hcurrent' hwp
      have := hcurrent'.at_wp.wp_le
      exact ih.aexpr n' l' hcurrent' (by omega)
    · intro n l hcurrent hfuel
      rw [nexpr]
      split_ifs with hnot
      · have hlt : l.wp < args.length := by
          refine Nat.lt_of_le_of_ne hcurrent.at_wp.wp_le fun h => ?_
          rw [hnot] at hcurrent
          cases hcurrent.eoi.mpr h
        refine (ends_next hcurrent.at_wp).bind fun t ht => ?_
        have htwp := ht.2.1
        refine (ih.nexpr t.1 t.2 (current_next ht) (by omega)).bind fun r hr => ⟨hr.1, ?_⟩
        have hle := hr.2
        show l.wp ≤ r.2.wp
        omega
      · exact (ih.primary n l hcurrent (by omega))
    · intro n l hcurrent hfuel
      exact rulesEnd_primary ih hcurrent hfuel

end

theorem ends_evaluate (args : List CStr) (sys : System) :
    Ends (fun status => status ≤ 1) (evaluate args sys) := by
  unfold evaluate
  split_ifs with hnil
  · exact Nat.le_refl 1
  · have hat : Lexer.At args ⟨0, args.length, none⟩ := ⟨Nat.zero_le _, by simp⟩
    refine (ends_tLex hat).bind fun t ht => ?_
    obtain ⟨hlexed, heoi⟩ := ht
    have hwp : t.2.wp = 0 := hlexed.wp
    have hcurrent : Current args t.1 t.2 := by
      refine ⟨⟨by omega, ?_⟩, ⟨rfl, rfl, ?_, ?_, hlexed.mem⟩, ?_⟩
      · rw [hwp, hlexed.nargc]
        simp
      · rw [hwp]
        exact hlexed.unop
      · rw [hwp]
        exact hlexed.lparen
      · rw [hwp]
        exact heoi
    refine ((rulesEnd hnil _).oexpr t.1 t.2 hcurrent (by omega)).bind fun r hr => ?_
    split_ifs
    · rw [word_of_le (Nat.le_of_lt hr.2.1)]
      show Ends _ (Except.error (syntaxError _ _))
      trivial
    · exact Nat.zero_le 1
    · exact Nat.le_refl 1

/-- **The evaluation ends**: for every list of words and every state of the files, `test` exits with
0 or 1, or with a message (and then with 1 as well).  It never reads outside `argv` or through
`NULL`. -/
theorem test_ends (sys : System) (argv0 : CStr) (args : List CStr) :
    Ends (fun status => status ≤ 1) (testMain sys argv0 args) := by
  unfold testMain
  split_ifs
  · exact ends_evaluate _ sys
  · trivial
  · exact ends_evaluate _ sys

end Omap4.Motobox.Test
