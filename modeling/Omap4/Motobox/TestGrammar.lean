import Omap4.Motobox.Test

/-!
# Omap4.Motobox.TestGrammar — what `test` computes (the grammar of `test.c`)

The grammar at the head of `test.c` as syntax trees, one type for each rule, and what an expression
means.  `-o` binds weaker than `-a`, that weaker than `!`, and both sides are always evaluated, the
left one first: a bad number on the right is an error even where the left side has decided.

Words are ambiguous, for an operand may look like an operator.  `Clear` says when `isoperand` and
`t_lex` read them as the tree means them.  Then `test_main` gives the value of the tree
(`test_means_expression`).
-/

namespace Omap4.Motobox.Test

/-! ## Expressions -/

/-- An operator of the given kind. -/
abbrev Operator (type : TokenType) := { op : TOp // op ∈ ops ∧ op.opType = type }

mutual

inductive Oexpr where
  | one (a : Aexpr)
  | or (a : Aexpr) (o : Oexpr)

inductive Aexpr where
  | one (n : Nexpr)
  | and (n : Nexpr) (a : Aexpr)

/-- `!` may be repeated. -/
inductive Nexpr where
  | one (p : Primary)
  | not (n : Nexpr)

inductive Primary where
  | unary (op : Operator .unop) (w : CStr)
  | binary (a : CStr) (op : Operator .binop) (b : CStr)
  | operand (w : CStr)
  | paren (o : Oexpr)

end

mutual

/-- The arguments of an expression. -/
def Oexpr.words : Oexpr → List CStr
  | .one a => a.words
  | .or a o => a.words ++ "-o".toList :: o.words

def Aexpr.words : Aexpr → List CStr
  | .one n => n.words
  | .and n a => n.words ++ "-a".toList :: a.words

def Nexpr.words : Nexpr → List CStr
  | .one p => p.words
  | .not n => "!".toList :: n.words

def Primary.words : Primary → List CStr
  | .unary op w => [op.1.opText, w]
  | .binary a op b => [a, op.1.opText, b]
  | .operand w => [w]
  | .paren o => "(".toList :: (o.words ++ [")".toList])

end

section
variable (sys : System)

mutual

/-- The value of an expression, or the first error in it. -/
def Oexpr.eval : Oexpr → Except Stop Bool
  | .one a => a.eval
  | .or a o => do
    let r ← a.eval
    let r' ← o.eval
    .ok (r || r')

def Aexpr.eval : Aexpr → Except Stop Bool
  | .one n => n.eval
  | .and n a => do
    let r ← n.eval
    let r' ← a.eval
    .ok (r && r')

def Nexpr.eval : Nexpr → Except Stop Bool
  | .one p => p.eval
  | .not n => n.eval.map fun r => !r

def Primary.eval : Primary → Except Stop Bool
  | .unary op w => unaryValue sys op.1.opNum w
  | .binary a op b => binaryValue sys op.1.opNum a b
  | .operand w => .ok (0 < w.length)
  | .paren o => o.eval

end

end

/-! ## Words that are read as they are meant -/

def isUnopText (w : CStr) : Bool := (lookup w).any fun op => op.opType = .unop

def isBinopText (w : CStr) : Bool := (lookup w).any fun op => op.opType = .binop

/-- `!` and the parentheses are never operands at the beginning of a `primary`. -/
def startsOperand (w : CStr) : Prop := w ≠ "!".toList ∧ w ≠ "(".toList ∧ w ≠ ")".toList

mutual

/-- The expression with the words `k` behind it is read as it is meant. -/
def Oexpr.Clear : Oexpr → List CStr → Prop
  | .one a, k => a.Clear k
  | .or a o, k => a.Clear ("-o".toList :: (o.words ++ k)) ∧ o.Clear k

def Aexpr.Clear : Aexpr → List CStr → Prop
  | .one n, k => n.Clear k
  | .and n a, k => n.Clear ("-a".toList :: (a.words ++ k)) ∧ a.Clear k

def Nexpr.Clear : Nexpr → List CStr → Prop
  | .one p, k => p.Clear k
  | .not n, k => n.Clear k

def Primary.Clear : Primary → List CStr → Prop
  | .unary _ w, k => isBinopText w = true → k = [] ∨ k.head? = some ")".toList
  | .binary a _ b, _ => startsOperand a ∧ (isUnopText a = true → b ≠ ")".toList)
  | .operand w, k => startsOperand w ∧ (isUnopText w = true → k = [])
  | .paren o, k => o.Clear (")".toList :: k)

end

/-! ## Where the words stand -/

section
variable {args : List CStr} {sys : System} {pos fuel : ℕ} {k : List CStr} {w : CStr}

/-- `t_wp` at `pos`. -/
def lexerAt (args : List CStr) (pos : ℕ) (op : Option TOp) : Lexer :=
  ⟨pos, (args.length : ℤ) - pos, op⟩

theorem drop_append {a b : List CStr} (h : args.drop pos = a ++ b) :
    args.drop (pos + a.length) = b := by
  rw [← List.drop_drop, h, List.drop_left]

theorem getElem?_of_drop {l : List CStr} (h : args.drop pos = l) : args[pos]? = l.head? := by
  rw [← h, List.head?_drop]

theorem drop_succ (h : args.drop pos = w :: k) : args.drop (pos + 1) = k := by
  rw [← List.drop_drop, h]
  rfl

theorem length_of_drop (h : args.drop pos = w :: k) : args.length = pos + k.length + 1 := by
  have hlen := congrArg List.length h
  rw [List.length_drop, List.length_cons] at hlen
  omega

theorem nargc_lexerAt (h : args.drop pos = w :: k) (op : Option TOp) :
    (lexerAt args pos op).nargc = k.length + 1 := by
  have hlen := length_of_drop h
  show (args.length : ℤ) - pos = k.length + 1
  omega

theorem word_lexer (h : args.drop pos = w :: k) : word args pos = .ok (some w) := by
  have hlen := length_of_drop h
  rw [word_of_le (by omega), getElem?_of_drop h]
  rfl

/-- What stands behind the word, or `NULL`. -/
theorem word_succ (h : args.drop pos = w :: k) : word args (pos + 1) = .ok k.head? := by
  have hlen := length_of_drop h
  rw [word_of_le (by omega), getElem?_of_drop (drop_succ h)]

theorem next_lexerAt (h : args.drop pos = w :: k) (op : Option TOp) :
    next args (lexerAt args pos op) = tLex args k.head? (lexerAt args (pos + 1) op) := by
  have hlen := length_of_drop h
  have hpos : (0 : ℤ) < (args.length : ℤ) - pos := by omega
  have hnargc : (args.length : ℤ) - pos - 1 = (args.length : ℤ) - ((pos + 1 : ℕ) : ℤ) := by omega
  rw [next, lexerAt, if_pos hpos, word_succ h]
  simp only [hnargc]
  rfl

theorem back_lexerAt (op : Option TOp) :
    back (lexerAt args (pos + 1) op) = .ok (lexerAt args pos op) := by
  have hnargc : (args.length : ℤ) - ((pos + 1 : ℕ) : ℤ) + 1 = (args.length : ℤ) - pos := by omega
  rw [back, lexerAt, if_neg (Nat.succ_ne_zero pos)]
  simp only [hnargc]
  rfl

theorem peek_lexerAt (h : args.drop pos = w :: k) (op : Option TOp) :
    peek args (lexerAt args pos op) = .ok k.head? := by
  have hlen := length_of_drop h
  have hpos : (0 : ℤ) < (args.length : ℤ) - pos := by omega
  rw [peek, lexerAt, if_pos hpos, word_succ h]

/-! ## What words are lexed to -/

theorem opText_of_lookup {op : TOp} (h : lookup w = some op) : op.opText = w := by
  simpa using List.find?_some h

theorem lookup_of_mem {op : TOp} (h : op ∈ ops) : lookup op.opText = some op := by
  have hall : ∀ op ∈ ops, lookup op.opText = some op := by decide +kernel
  exact hall op h

/-- The words that may follow an `nexpr`. -/
def followers : List CStr := [")".toList, "-o".toList, "-a".toList]

/-- Only words of `stops` can follow. -/
def Follows (stops k : List CStr) : Prop := ∀ w, k.head? = some w → w ∈ stops

theorem Follows.mono {stops stops' : List CStr} (h : Follows stops k)
    (hsub : stops ⊆ stops') : Follows stops' k :=
  fun w hw => hsub (h w hw)

theorem follows_cons {stops : List CStr} (h : w ∈ stops) : Follows stops (w :: k) := by
  intro w' hw'
  exact Option.some.inj hw' ▸ h

theorem followers_ops : ∀ w ∈ followers, ∃ op, lookup w = some op ∧ op.opType ≠ .unop ∧
    op.opNum ≠ .lparen ∧
    op.opType ≠ .binop ∧ (op.opNum = .bor ↔ w = "-o".toList) ∧
    (op.opNum = .band ↔ w = "-a".toList) ∧
    (op.opNum = .rparen ↔ w = ")".toList) := by
  intro w hw
  simp only [followers, List.mem_cons, List.not_mem_nil, or_false] at hw
  rcases hw with rfl | rfl | rfl
  · exact ⟨⟨")".toList, .rparen, .paren⟩, by decide +kernel⟩
  · exact ⟨⟨"-o".toList, .bor, .bbinop⟩, by decide +kernel⟩
  · exact ⟨⟨"-a".toList, .band, .bbinop⟩, by decide +kernel⟩

/-- The token of what follows. -/
theorem tLex_follower (args : List CStr) (hk : Follows followers k) (l : Lexer) :
    ∃ n op, tLex args k.head? l = .ok (n, { l with op := op }) ∧
    (n = .bor ↔ k.head? = some "-o".toList) ∧ (n = .band ↔ k.head? = some "-a".toList) ∧
    (n = .rparen ↔ k.head? = some ")".toList) ∧ (op.any fun op => op.opType = .binop) = false := by
  cases hhead : k.head? with
  | none => exact ⟨.eoi, none, rfl, by simp, by simp, by simp, rfl⟩
  | some w =>
    obtain ⟨op, hop, hunop, hlparen, hbinop, hbor, hband, hrparen⟩ := followers_ops w (hk w hhead)
    refine ⟨op.opNum, some op, tLex_of_lookup hop hunop hlparen l, ?_, ?_, ?_, ?_⟩
    · rw [hbor, Option.some.injEq]
    · rw [hband, Option.some.injEq]
    · rw [hrparen, Option.some.injEq]
    · simpa using hbinop

/-! ## What a rule makes of the words -/

/-- `rule` reads the `len` words at `pos` with the value `value` and stops at the last of them.
`first` holds of the token it begins with. -/
def Means (args : List CStr) (first : Token → Prop)
    (rule : Token → Lexer → Except Stop (Bool × Lexer)) (pos len : ℕ)
    (value : Except Stop Bool) : Prop :=
  ∀ op, ∃ t, tLex args args[pos]? (lexerAt args pos op) = .ok t ∧ first t.1 ∧
    ∃ op', rule t.1 t.2 = value.map fun v => (v, lexerAt args (pos + len - 1) op')

theorem chain_stop {rule : Token → Lexer → Except Stop (Bool × Lexer)} {f : Bool → Bool → Bool}
    {n : Token} (h : args.drop pos = w :: k) (hk : Follows followers k)
    (hn : n = .bor ∧ k.head? ≠ some "-o".toList ∨
      n = .band ∧ k.head? ≠ some "-a".toList) (v : Bool) (op : Option TOp) :
    ∃ op', chain args rule n f (v, lexerAt args pos op) = .ok (v, lexerAt args pos op') := by
  obtain ⟨n', op', htok, hbor, hband, -, -⟩ := tLex_follower args hk (lexerAt args (pos + 1) op)
  refine ⟨op', ?_⟩
  have hne : n' ≠ n := by
    rintro rfl
    rcases hn with ⟨hn, hhead⟩ | ⟨hn, hhead⟩
    · exact hhead (hbor.mp hn)
    · exact hhead (hband.mp hn)
  rw [chain, next_lexerAt h, htok]
  show (if n' = n then _ else _) = _
  rw [if_neg hne]
  show (back (lexerAt args (pos + 1) op') >>= _) = _
  rw [back_lexerAt]
  rfl

theorem chain_more {rule : Token → Lexer → Except Stop (Bool × Lexer)} {f : Bool → Bool → Bool}
    {op : TOp} {len : ℕ} {value : Except Stop Bool} {first : Token → Prop} (hop : op ∈ ops)
    (hunop : op.opType ≠ .unop) (hlparen : op.opNum ≠ .lparen)
    (h : args.drop pos = w :: op.opText :: k) (hrule : Means args first rule (pos + 2) len value)
    (v : Bool) (op₀ : Option TOp) :
    ∃ op', chain args rule op.opNum f (v, lexerAt args pos op₀) =
      value.map fun v' => (f v' v, lexerAt args (pos + 2 + len - 1) op') := by
  have htok : tLex args (some op.opText) (lexerAt args (pos + 1) op₀) =
      .ok (op.opNum, lexerAt args (pos + 1) (some op)) :=
      tLex_of_lookup (lookup_of_mem hop) hunop hlparen _
  have hnext := drop_succ h
  obtain ⟨t, ht, -, op', hvalue⟩ := hrule (some op)
  refine ⟨op', ?_⟩
  rw [chain, next_lexerAt h]
  show (tLex args (some op.opText) _ >>= _) = _
  rw [htok]
  show (if op.opNum = op.opNum then _ else _) = _
  rw [if_pos rfl]
  show (next args (lexerAt args (pos + 1) (some op)) >>= _) = _
  rw [next_lexerAt hnext, ← getElem?_of_drop (drop_succ hnext), ht]
  show (rule t.1 t.2 >>= _) = _
  rw [hvalue]
  cases value with
  | error stop => rfl
  | ok v' => rfl

/-! ## Operands -/

/-- The tokens that a `primary` without a parenthesis begins with. -/
def isPlain (n : Token) : Prop := n ≠ .eoi ∧ n ≠ .lparen ∧ n ≠ .rparen ∧ n ≠ .unot

theorem isPlain_operand : isPlain .operand := by
  unfold isPlain
  decide

theorem ops_unop : ∀ op ∈ ops, op.opType = .unop → isPlain op.opNum := by
  unfold isPlain
  decide +kernel

theorem ops_startsOperand : ∀ op ∈ ops, op.opText ≠ "!".toList ∧ op.opText ≠ "(".toList ∧
    op.opText ≠ ")".toList →
    isPlain op.opNum := by
  unfold isPlain
  decide +kernel

theorem isWord_of_unop {op : TOp} (h : op.opType = .unop) (l : Lexer) :
    isWord args op l = isoperand args l :=
  if_pos h

/-- A word that is read as an operand does not begin a unary test. -/
theorem tLex_operand (args : List CStr) (hstart : startsOperand w) (l : Lexer)
    (hoperand : isUnopText w = true → isoperand args l = .ok true) :
    ∃ n op, tLex args (some w) l = .ok (n, { l with op := op }) ∧ isPlain n ∧
      (op.any fun op => op.opType = .unop) = false := by
  rw [tLex]
  cases hlookup : lookup w with
  | none => exact ⟨.operand, none, rfl, isPlain_operand, rfl⟩
  | some op =>
    have hmem := mem_ops_of_lookup hlookup
    have htext := opText_of_lookup hlookup
    rw [← htext] at hstart
    have hplain := ops_startsOperand op hmem hstart
    by_cases hunop : op.opType = .unop
    · have htrue := hoperand (by rw [isUnopText, hlookup]; simpa using hunop)
      refine ⟨.operand, none, ?_, isPlain_operand, rfl⟩
      simp only [isWord_of_unop hunop, htrue]
      rfl
    · refine ⟨op.opNum, some op, ?_, hplain, by simpa using hunop⟩
      have htok : tLex args (some w) l = .ok (op.opNum, { l with op := some op }) :=
        tLex_of_lookup hlookup hunop hplain.2.1 l
      rw [← htok, tLex, hlookup]

theorem isoperand_last (h : args.drop pos = [w]) (op : Option TOp) :
    isoperand args (lexerAt args pos op) = .ok true := by
  have hnargc : (lexerAt args pos op).nargc = 1 := nargc_lexerAt h op
  rw [isoperand, if_pos hnargc]

theorem isoperand_two {w' : CStr} (h : args.drop pos = [w, w']) (op : Option TOp) :
    isoperand args (lexerAt args pos op) = .ok false := by
  have hnargc : (lexerAt args pos op).nargc = 2 := nargc_lexerAt h op
  rw [isoperand, if_neg (by omega), if_pos hnargc]

theorem isoperand_more {w' w'' : CStr} (h : args.drop pos = w :: w' :: w'' :: k) (op : Option TOp) :
    isoperand args (lexerAt args pos op) = .ok (isBinopText w' && w'' ≠ ")".toList) := by
  have hnargc := nargc_lexerAt h op
  rw [List.length_cons, List.length_cons] at hnargc
  rw [isoperand, if_neg (by omega), if_neg (by omega)]
  show (word args (pos + 1) >>= fun s => word args (pos + 1 + 1) >>= _) = _
  rw [word_succ h, word_succ (drop_succ h)]
  show (if isBinopText w' = true then _ else _) = _
  cases isBinopText w' with
  | true => rfl
  | false => rfl

/-- A unary operator in front of its operand. -/
theorem isoperand_unary {op : TOp} (h : args.drop pos = op.opText :: w :: k)
    (hclear : isBinopText w = true → k = [] ∨ k.head? = some ")".toList) (op₀ : Option TOp) :
    isoperand args (lexerAt args pos op₀) = .ok false := by
  cases k with
  | nil => exact isoperand_two h op₀
  | cons w' k =>
    rw [isoperand_more h]
    cases hbinop : isBinopText w with
    | false => rfl
    | true =>
      have hparen : w' = ")".toList := by simpa using hclear hbinop
      rw [hparen]
      rfl

theorem primary_plain {n : Token} (hn : isPlain n) (l : Lexer) :
    primary args sys (fuel + 1) n l = simple args sys n l := by
  rw [primary, if_neg hn.1, if_neg hn.2.1]

theorem means_unary (op : Operator .unop) (hstand : args.drop pos = op.1.opText :: w :: k)
    (hclear : isBinopText w = true → k = [] ∨ k.head? = some ")".toList) :
    Means args isPlain (primary args sys (fuel + 1)) pos 2 (unaryValue sys op.1.opNum w) := by
  intro op₀
  obtain ⟨op, hmem, hunop⟩ := op
  have hplain := ops_unop op hmem hunop
  have hlen := length_of_drop hstand
  have htok : tLex args args[pos]? (lexerAt args pos op₀) =
      .ok (op.opNum, lexerAt args pos (some op)) := by
    rw [getElem?_of_drop hstand]
    show tLex args (some op.opText) _ = _
    simp only [tLex, lookup_of_mem hmem, isWord_of_unop hunop, isoperand_unary hstand hclear op₀]
    rfl
  refine ⟨_, htok, hplain, some op, ?_⟩
  have hunop' : (lexerAt args pos (some op)).isUnop = true := by
    simpa [Lexer.isUnop, lexerAt] using hunop
  have hnargc : (args.length : ℤ) - pos - 1 = (args.length : ℤ) - ((pos + 1 : ℕ) : ℤ) := by omega
  have hne : (lexerAt args pos (some op)).nargc - 1 ≠ 0 := by
    rw [List.length_cons] at hlen
    show (args.length : ℤ) - pos - 1 ≠ 0
    omega
  rw [primary_plain hplain, simple, if_pos hunop', unary, if_neg hne]
  show (word args (pos + 1) >>= _) = _
  rw [word_succ hstand]
  show (unaryValue sys op.opNum w >>= _) = _
  cases unaryValue sys op.opNum w with
  | error stop => rfl
  | ok v => exact congrArg (fun n => Except.ok (v, Lexer.mk (pos + 1) n (some op))) hnargc

theorem means_binary {a b : CStr} (op : Operator .binop)
    (hstand : args.drop pos = a :: op.1.opText :: b :: k) (hstart : startsOperand a)
    (hclear : isUnopText a = true → b ≠ ")".toList) :
    Means args isPlain (primary args sys (fuel + 1)) pos 3 (binaryValue sys op.1.opNum a b) := by
  intro op₀
  obtain ⟨op, hmem, hbinop⟩ := op
  obtain ⟨hunop, hlparen⟩ := ops_binop op hmem hbinop
  have hlookup := lookup_of_mem hmem
  have hlen := length_of_drop hstand
  obtain ⟨n, op₁, htok, hplain, hfirst⟩ := tLex_operand args hstart (lexerAt args pos op₀) (by
    intro h
    rw [isoperand_more hstand, isBinopText, hlookup]
    simpa using ⟨hbinop, hclear h⟩)
  have hfirst' : (lexerAt args pos op₁).isUnop = false := hfirst
  have hbinop' : (lexerAt args pos (some op)).isBinop = true := by
    simpa [Lexer.isBinop, lexerAt] using hbinop
  have hnargc : (args.length : ℤ) - ((pos + 1 : ℕ) : ℤ) - 1 =
      (args.length : ℤ) - ((pos + 2 : ℕ) : ℤ) := by omega
  refine ⟨(n, lexerAt args pos op₁), ?_, hplain, some op, ?_⟩
  · rw [getElem?_of_drop hstand]
    exact htok
  have hpeek : tLex args (some op.opText) (lexerAt args pos op₁) =
      .ok (op.opNum, lexerAt args pos (some op)) :=
    tLex_of_lookup hlookup hunop hlparen _
  have hnext : tLex args (some op.opText) (lexerAt args (pos + 1) (some op)) =
      .ok (op.opNum, lexerAt args (pos + 1) (some op)) := tLex_of_lookup hlookup hunop hlparen _
  rw [primary_plain hplain, simple, hfirst', if_neg Bool.false_ne_true, peek_lexerAt hstand]
  show (tLex args (some op.opText) (lexerAt args pos op₁) >>= _) = _
  rw [hpeek]
  show (if (lexerAt args pos (some op)).isBinop = true then _ else _) = _
  rw [if_pos hbinop']
  show binop args sys (lexerAt args pos (some op)) = _
  rw [binop]
  show (word args pos >>= _) = _
  rw [word_lexer hstand]
  show (next args (lexerAt args pos (some op)) >>= _) = _
  rw [next_lexerAt hstand]
  show (tLex args (some op.opText) _ >>= _) = _
  rw [hnext]
  show (peek args (lexerAt args (pos + 1) (some op)) >>= _) = _
  rw [peek_lexerAt (drop_succ hstand)]
  show (binaryValue sys op.opNum a b >>= _) = _
  cases binaryValue sys op.opNum a b with
  | error stop => rfl
  | ok v => exact congrArg (fun n => Except.ok (v, Lexer.mk (pos + 2) n (some op))) hnargc

theorem means_operand (hstand : args.drop pos = w :: k) (hk : Follows followers k)
    (hstart : startsOperand w) (hclear : isUnopText w = true → k = []) :
    Means args isPlain (primary args sys (fuel + 1)) pos 1 (.ok (0 < w.length)) := by
  intro op₀
  obtain ⟨n, op₁, htok, hplain, hfirst⟩ := tLex_operand args hstart (lexerAt args pos op₀) (by
    intro h
    rw [hclear h] at hstand
    exact isoperand_last hstand op₀)
  obtain ⟨n', op₂, htok', -, -, -, hbinop⟩ := tLex_follower args hk (lexerAt args pos op₁)
  have hfirst' : (lexerAt args pos op₁).isUnop = false := hfirst
  have hbinop' : (lexerAt args pos op₂).isBinop = false := hbinop
  refine ⟨(n, lexerAt args pos op₁), ?_, hplain, op₂, ?_⟩
  · rw [getElem?_of_drop hstand]
    exact htok
  rw [primary_plain hplain, simple, hfirst', if_neg Bool.false_ne_true, peek_lexerAt hstand]
  show (tLex args k.head? (lexerAt args pos op₁) >>= _) = _
  rw [htok']
  show (if (lexerAt args pos op₂).isBinop = true then _ else _) = _
  rw [hbinop', if_neg Bool.false_ne_true]
  show (word args pos >>= _) = _
  rw [word_lexer hstand]
  rfl

/-! ## Expressions -/

mutual

theorem Oexpr.words_ne_nil : ∀ o : Oexpr, o.words ≠ []
  | .one a => a.words_ne_nil
  | .or a _ => List.append_ne_nil_of_left_ne_nil a.words_ne_nil _

theorem Aexpr.words_ne_nil : ∀ a : Aexpr, a.words ≠ []
  | .one n => n.words_ne_nil
  | .and n _ => List.append_ne_nil_of_left_ne_nil n.words_ne_nil _

theorem Nexpr.words_ne_nil : ∀ n : Nexpr, n.words ≠ []
  | .one p => p.words_ne_nil
  | .not _ => List.cons_ne_nil _ _

theorem Primary.words_ne_nil : ∀ p : Primary, p.words ≠ []
  | .unary _ _ => List.cons_ne_nil _ _
  | .binary _ _ _ => List.cons_ne_nil _ _
  | .operand _ => List.cons_ne_nil _ _
  | .paren _ => List.cons_ne_nil _ _

end

/-- The last word of an expression. -/
theorem drop_last {ws : List CStr} (hne : ws ≠ []) (h : args.drop pos = ws ++ k) :
    ∃ w, args.drop (pos + ws.length - 1) = w :: k := by
  obtain ⟨init, w, rfl⟩ := List.eq_nil_or_concat ws |>.resolve_left hne
  rw [List.concat_eq_append, List.append_assoc] at h
  refine ⟨w, ?_⟩
  rw [List.concat_eq_append, List.length_append, List.length_singleton, Nat.add_succ_sub_one]
  exact drop_append h

theorem Means.weaken {first first' : Token → Prop}
    {rule : Token → Lexer → Except Stop (Bool × Lexer)} {len : ℕ}
    {value : Except Stop Bool} (h : Means args first rule pos len value)
    (hfirst : ∀ n, first n → first' n) :
    Means args first' rule pos len value := by
  intro op
  obtain ⟨t, htok, ht, hvalue⟩ := h op
  exact ⟨t, htok, hfirst _ ht, hvalue⟩

/-- An operand of `-o` or `-a`, followed by the rest of the chain. -/
theorem Means.chain {rule rule' : Token → Lexer → Except Stop (Bool × Lexer)} {n : Token}
    {f : Bool → Bool → Bool} {len : ℕ} {value : Except Stop Bool} {first : Token → Prop}
    (h : Means args first rule pos len value) {len' : ℕ} {value' : Bool → Except Stop Bool}
    (hchain : ∀ v op, ∃ op', chain args rule' n f (v, lexerAt args (pos + len - 1) op) =
      (value' v).map fun v' => (v', lexerAt args (pos + len' - 1) op')) :
    Means args first (fun n' l => rule n' l >>= Test.chain args rule' n f) pos len'
    (value >>= value') := by
  intro op
  obtain ⟨t, htok, ht, op', hvalue⟩ := h op
  cases value with
  | error stop =>
    refine ⟨t, htok, ht, op', ?_⟩
    show rule t.1 t.2 >>= _ = _
    rw [hvalue]
    rfl
  | ok v =>
    obtain ⟨op'', hrest⟩ := hchain v op'
    refine ⟨t, htok, ht, op'', ?_⟩
    show rule t.1 t.2 >>= _ = _
    rw [hvalue]
    exact hrest

theorem orOp_mem : ⟨"-o".toList, .bor, .bbinop⟩ ∈ ops := by decide +kernel

theorem andOp_mem : ⟨"-a".toList, .band, .bbinop⟩ ∈ ops := by decide +kernel

theorem openOp_mem : ⟨"(".toList, .lparen, .paren⟩ ∈ ops := by decide +kernel

theorem notOp_mem : ⟨"!".toList, .unot, .bunop⟩ ∈ ops := by decide +kernel

theorem closeOp_mem : ⟨")".toList, .rparen, .paren⟩ ∈ ops := by decide +kernel

theorem map_bind_ok (value : Except Stop Bool) (f : Bool → Bool) :
    (value >>= fun v => Except.ok (f v)) = value.map f := by
  cases value with
  | error stop => rfl
  | ok v => rfl

theorem bind_ok_self (value : Except Stop Bool) : (value >>= fun v => Except.ok v) = value := by
  cases value with
  | error stop => rfl
  | ok v => rfl

/-- Only a closing parenthesis begins with that token. -/
abbrev NotClosing (n : Token) : Prop := n ≠ .rparen

mutual

theorem Oexpr.means (o : Oexpr) (sys : System) {k : List CStr} {pos : ℕ} (fuel : ℕ)
    (hclear : o.Clear k) (hk : Follows [")".toList] k) (hstand : args.drop pos = o.words ++ k)
    (hfuel : 4 * (o.words ++ k).length + 4 ≤ fuel) :
    Means args NotClosing (oexpr args sys fuel) pos o.words.length (o.eval sys) := by
  obtain ⟨fuel, rfl⟩ : ∃ f, fuel = f + 1 := ⟨fuel - 1, by omega⟩
  have hk' : Follows followers k := hk.mono (by decide)
  have hrule : oexpr args sys (fuel + 1) = fun n l => aexpr args sys fuel n l >>= Test.chain args
      (oexpr args sys fuel) .bor or := funext fun n => funext fun l => oexpr_succ fuel n l
  rw [hrule]
  cases o with
  | one a =>
    rw [Oexpr.words] at hstand hfuel ⊢
    have ha := a.means sys fuel hclear (hk.mono (by decide)) hstand (by omega)
    obtain ⟨w, hlast⟩ := drop_last a.words_ne_nil hstand
    have hne : k.head? ≠ some "-o".toList := fun h => by
      have := hk _ h
      revert this
      decide
    rw [Oexpr.eval, ← bind_ok_self (a.eval sys)]
    exact ha.chain fun v op => chain_stop hlast hk' (.inl ⟨rfl, hne⟩) v op
  | or a o =>
    rw [Oexpr.words, List.append_assoc, List.cons_append] at hstand hfuel
    obtain ⟨hcleara, hclearo⟩ := hclear
    have hlen : 0 < a.words.length := List.length_pos_iff.mpr a.words_ne_nil
    rw [List.length_append, List.length_cons] at hfuel
    have ha := a.means sys fuel hcleara (follows_cons (by decide)) hstand (by
      rw [List.length_append, List.length_cons]
      omega)
    obtain ⟨w, hlast⟩ := drop_last a.words_ne_nil hstand
    have ho := o.means sys fuel hclearo hk
      (drop_succ (drop_succ hlast)) (by omega)
    rw [Oexpr.eval]
    refine ha.chain fun v op => ?_
    obtain ⟨op', hmore⟩ :=
      chain_more (f := or) orOp_mem (fun h => by cases h) (fun h => by cases h) hlast ho v op
    refine ⟨op', hmore.trans ?_⟩
    have hpos : pos + a.words.length - 1 + 2 + o.words.length - 1 = pos +
        (Oexpr.or a o).words.length - 1 := by
      rw [Oexpr.words, List.length_append, List.length_cons]
      omega
    rw [hpos, map_bind_ok]
    cases o.eval sys with
    | error stop => rfl
    | ok v' => exact congrArg (fun b => Except.ok (b, _)) (Bool.or_comm v' v)

theorem Aexpr.means (a : Aexpr) (sys : System) {k : List CStr} {pos : ℕ} (fuel : ℕ)
    (hclear : a.Clear k) (hk : Follows [")".toList, "-o".toList] k)
    (hstand : args.drop pos = a.words ++ k) (hfuel : 4 * (a.words ++ k).length + 3 ≤ fuel) :
    Means args NotClosing (aexpr args sys fuel) pos a.words.length (a.eval sys) := by
  obtain ⟨fuel, rfl⟩ : ∃ f, fuel = f + 1 := ⟨fuel - 1, by omega⟩
  have hk' : Follows followers k := hk.mono (by decide)
  have hrule : aexpr args sys (fuel + 1) = fun n l => nexpr args sys fuel n l >>= Test.chain args
      (aexpr args sys fuel) .band and := funext fun n => funext fun l => aexpr_succ fuel n l
  rw [hrule]
  cases a with
  | one n =>
    rw [Aexpr.words] at hstand hfuel ⊢
    have hn := n.means sys fuel hclear hk' hstand (by omega)
    obtain ⟨w, hlast⟩ := drop_last n.words_ne_nil hstand
    have hne : k.head? ≠ some "-a".toList := fun h => by
      have := hk _ h
      revert this
      decide
    rw [Aexpr.eval, ← bind_ok_self (n.eval sys)]
    exact hn.chain fun v op => chain_stop hlast hk' (.inr ⟨rfl, hne⟩) v op
  | and n a =>
    rw [Aexpr.words, List.append_assoc, List.cons_append] at hstand hfuel
    obtain ⟨hclearn, hcleara⟩ := hclear
    have hlen : 0 < n.words.length := List.length_pos_iff.mpr n.words_ne_nil
    rw [List.length_append, List.length_cons] at hfuel
    have hn := n.means sys fuel hclearn (follows_cons (by decide)) hstand (by
      rw [List.length_append, List.length_cons]
      omega)
    obtain ⟨w, hlast⟩ := drop_last n.words_ne_nil hstand
    have ha := a.means sys fuel hcleara hk
      (drop_succ (drop_succ hlast)) (by omega)
    rw [Aexpr.eval]
    refine hn.chain fun v op => ?_
    obtain ⟨op', hmore⟩ :=
      chain_more (f := and) andOp_mem (fun h => by cases h) (fun h => by cases h) hlast ha v op
    refine ⟨op', hmore.trans ?_⟩
    have hpos : pos + n.words.length - 1 + 2 + a.words.length - 1 = pos +
        (Aexpr.and n a).words.length - 1 := by
      rw [Aexpr.words, List.length_append, List.length_cons]
      omega
    rw [hpos, map_bind_ok]
    cases a.eval sys with
    | error stop => rfl
    | ok v' => exact congrArg (fun b => Except.ok (b, _)) (Bool.and_comm v' v)

theorem Nexpr.means (n : Nexpr) (sys : System) {k : List CStr} {pos : ℕ} (fuel : ℕ)
    (hclear : n.Clear k) (hk : Follows followers k) (hstand : args.drop pos = n.words ++ k)
    (hfuel : 4 * (n.words ++ k).length + 2 ≤ fuel) :
    Means args NotClosing (nexpr args sys fuel) pos n.words.length (n.eval sys) := by
  obtain ⟨fuel, rfl⟩ : ∃ f, fuel = f + 1 := ⟨fuel - 1, by omega⟩
  cases n with
  | one p =>
    intro op
    obtain ⟨t, htok, ht, hvalue⟩ :=
      p.means sys fuel hclear hk hstand (by rw [Nexpr.words] at hfuel; omega) op
    refine ⟨t, htok, ht.2, ?_⟩
    rw [nexpr, if_neg ht.1]
    exact hvalue
  | not n =>
    intro op
    rw [Nexpr.words, List.cons_append] at hstand hfuel
    have hnot : tLex args (some "!".toList) (lexerAt args pos op) =
        .ok (.unot, lexerAt args pos (some ⟨"!".toList, .unot, .bunop⟩)) :=
      tLex_of_lookup (lookup_of_mem notOp_mem) (fun h => by cases h) (fun h => by cases h) _
    rw [List.length_cons] at hfuel
    obtain ⟨t, htok, -, op', hvalue⟩ := n.means sys fuel hclear hk
      (drop_succ hstand) (by omega) (some ⟨"!".toList, .unot, .bunop⟩)
    refine ⟨_, (congrArg (tLex args · _) (getElem?_of_drop hstand)).trans hnot,
      (fun h => by cases h), op', ?_⟩
    rw [nexpr, if_pos rfl]
    show (next args (lexerAt args pos _) >>= _) = _
    rw [next_lexerAt hstand, ← getElem?_of_drop (drop_succ hstand), htok]
    show (nexpr args sys fuel t.1 t.2 >>= _) = _
    have hpos : pos + 1 + n.words.length - 1 = pos + (Nexpr.not n).words.length - 1 := by
      rw [Nexpr.words, List.length_cons]
      omega
    rw [hvalue, Nexpr.eval, hpos]
    cases n.eval sys with
    | error stop => rfl
    | ok v => rfl

theorem Primary.means (p : Primary) (sys : System) {k : List CStr} {pos : ℕ} (fuel : ℕ)
    (hclear : p.Clear k) (hk : Follows followers k) (hstand : args.drop pos = p.words ++ k)
    (hfuel : 4 * (p.words ++ k).length + 1 ≤ fuel) :
    Means args (fun n => n ≠ .unot ∧ NotClosing n) (primary args sys fuel) pos p.words.length
    (p.eval sys) := by
  obtain ⟨fuel, rfl⟩ : ∃ f, fuel = f + 1 := ⟨fuel - 1, by omega⟩
  cases p with
  | unary op w => exact (means_unary op hstand hclear).weaken fun n h => ⟨h.2.2.2, h.2.2.1⟩
  | binary a op b =>
    exact (means_binary op hstand hclear.1 hclear.2).weaken fun n h => ⟨h.2.2.2, h.2.2.1⟩
  | operand w =>
    exact (means_operand hstand hk hclear.1 hclear.2).weaken fun n h => ⟨h.2.2.2, h.2.2.1⟩
  | paren o =>
    intro op
    rw [Primary.words, List.cons_append, List.append_assoc, List.singleton_append] at hstand hfuel
    have hlen : 0 < o.words.length := List.length_pos_iff.mpr o.words_ne_nil
    have hnargc := nargc_lexerAt hstand op
    rw [List.length_append, List.length_cons] at hnargc
    have hopen : tLex args (some "(".toList) (lexerAt args pos op) =
        .ok (.lparen, lexerAt args pos (some ⟨"(".toList, .lparen, .paren⟩)) := by
      have hlookup : lookup "(".toList = some ⟨"(".toList, .lparen, .paren⟩ := by decide +kernel
      have hne : decide ((lexerAt args pos op).nargc = 1) = false := decide_eq_false (by omega)
      simp only [tLex, hlookup, isWord, hne]
      rfl
    rw [List.length_cons] at hfuel
    obtain ⟨t, htok, ht, op', hvalue⟩ := o.means sys fuel hclear
      (follows_cons (by decide)) (drop_succ hstand) (by omega) (some ⟨"(".toList, .lparen, .paren⟩)
    have hclose : tLex args (some ")".toList) (lexerAt args (pos + 1 + o.words.length) op') =
        .ok (.rparen, lexerAt args (pos + 1 + o.words.length) (some ⟨")".toList, .rparen, .paren⟩)) :=
      tLex_of_lookup (lookup_of_mem closeOp_mem) (fun h => by cases h)
        (fun h => by cases h) _
    obtain ⟨w, hlast⟩ := drop_last o.words_ne_nil (drop_succ hstand)
    refine ⟨_, (congrArg (tLex args · _) (getElem?_of_drop hstand)).trans hopen,
      ⟨(fun h => by cases h), fun h => by cases h⟩, some ⟨")".toList, .rparen, .paren⟩, ?_⟩
    rw [primary, if_neg (fun h => by cases h), if_pos rfl]
    show (next args (lexerAt args pos _) >>= _) = _
    rw [next_lexerAt hstand, ← getElem?_of_drop (drop_succ hstand), htok]
    show (if t.1 = .rparen then _ else _) = _
    rw [if_neg ht, Primary.eval]
    show (oexpr args sys fuel t.1 t.2 >>= _) = _
    rw [hvalue]
    cases o.eval sys with
    | error stop => rfl
    | ok v =>
      show (next args (lexerAt args (pos + 1 + o.words.length - 1) op') >>= _) = _
      have hpos : pos + 1 + o.words.length - 1 + 1 = pos + 1 + o.words.length := by omega
      have hend : pos + (Primary.paren o).words.length - 1 = pos + 1 + o.words.length := by
        rw [Primary.words, List.length_cons, List.length_append, List.length_singleton]
        omega
      rw [next_lexerAt hlast, hpos, hend]
      show (tLex args (some ")".toList) _ >>= _) = _
      rw [hclose]
      rfl

end

/-! ## The program -/

/-- The exit status of a value. -/
def status (value : Except Stop Bool) : Except Stop ℕ := value.map fun v => if v then 0 else 1

theorem evaluate_words (sys : System) (o : Oexpr) (hclear : o.Clear []) :
    evaluate o.words sys = status (o.eval sys) := by
  have hlen : 0 < o.words.length := List.length_pos_iff.mpr o.words_ne_nil
  have hstand : o.words.drop 0 = o.words ++ [] := (List.append_nil _).symm
  obtain ⟨t, htok, -, op, hvalue⟩ :=
    o.means sys (4 * o.words.length + 4) hclear (fun w h => by cases h) hstand
    (by rw [List.append_nil]) none
  have hstart : (⟨0, o.words.length, none⟩ : Lexer) = lexerAt o.words 0 none := by simp [lexerAt]
  rw [evaluate, if_neg o.words_ne_nil, hstart, htok]
  show (oexpr o.words sys _ t.1 t.2 >>= _) = _
  rw [hvalue]
  cases o.eval sys with
  | error stop => rfl
  | ok v =>
    have hend : ¬ 0 < (lexerAt o.words (0 + o.words.length - 1) op).nargc - 1 := by
      show ¬ 0 < (o.words.length : ℤ) - ((0 + o.words.length - 1 : ℕ) : ℤ) - 1
      omega
    exact if_neg hend

/-- **The grammar**: an expression whose words are read as they are meant has its value as exit
status, or ends with the first error in it.  As `[` the program wants a `]` behind it. -/
theorem test_means_expression (sys : System) (o : Oexpr) (hclear : o.Clear []) (argv0 : CStr) :
    (baseName argv0 ≠ "[".toList → testMain sys argv0 o.words = status (o.eval sys)) ∧
      (baseName argv0 = "[".toList → testMain sys argv0 (o.words ++ ["]".toList]) = status
        (o.eval sys)) := by
  constructor
  · intro hname
    rw [testMain, if_neg hname, evaluate_words sys o hclear]
  · intro hname
    have hlast : (argv0 :: (o.words ++ ["]".toList])).getLast? = some "]".toList := by
      rw [← List.cons_append, List.getLast?_concat]
    rw [testMain, if_pos hname, if_pos hlast, List.dropLast_concat, evaluate_words sys o hclear]

end

/-- Without files and terminals. -/
def bareSystem : System := ⟨fun _ => none, fun _ => none, fun _ _ => false, 0, 0, fun _ => false⟩

/-- `! -f /x -a 10 -lt 9 -o ( -z = -n )`. -/
def sample : Oexpr :=
  .or (.and (.not (.one (.unary ⟨⟨"-f".toList, .filreg, .unop⟩, by decide +kernel⟩ "/x".toList)))
      (.one (.one (.binary "10".toList ⟨⟨"-lt".toList, .intlt, .binop⟩, by decide +kernel⟩ "9".toList))))
    (.one (.one (.one (.paren (.one (.one (.one
      (.binary "-z".toList ⟨⟨"=".toList, .streq, .binop⟩, by decide +kernel⟩ "-n".toList))))))))

theorem test_means_expression_sample :
    testMain bareSystem "/system/bin/test".toList sample.words = .ok 1 := by
  have hclear : sample.Clear [] := by
    refine ⟨⟨fun h => ?_, ?_, ?_⟩, ?_, ?_⟩
    · revert h
      decide +kernel
    · unfold startsOperand
      decide +kernel
    · decide +kernel
    · unfold startsOperand
      decide +kernel
    · decide +kernel
  exact ((test_means_expression bareSystem sample hclear _).1 (by decide +kernel)).trans
    (by decide +kernel)

/-! ## Numbers -/

/-- The comparisons of numbers. -/
def orders : List (CStr × (ℤ → ℤ → Bool)) := [
  ("-eq".toList, fun a b => a = b), ("-ne".toList, fun a b => a ≠ b),
    ("-ge".toList, fun a b => b ≤ a),
  ("-gt".toList, fun a b => b < a), ("-le".toList, fun a b => a ≤ b),
    ("-lt".toList, fun a b => a < b)]

theorem intcmp_decInt {a b : ℤ} (ha : -9223372036854775808 ≤ a ∧ a ≤ 9223372036854775807)
    (hb : -9223372036854775808 ≤ b ∧ b ≤ 9223372036854775807) :
    intcmp (CStr.decInt a) (CStr.decInt b) =
      .ok (if b < a then 1 else if a < b then -1 else 0) := by
  rw [intcmp, getq_decInt ha.1 ha.2, getq_decInt hb.1 hb.2]
  rfl

/-- No operator has a digit in it. -/
theorem lookup_decInt (n : ℤ) : lookup (CStr.decInt n) = none := by
  have hops : (ops.all fun op => op.opText.all fun c => !c.isDigit) = true := by decide +kernel
  refine List.find?_eq_none.mpr fun op hop htext => ?_
  rw [decide_eq_true_eq] at htext
  obtain ⟨c, s, hcons⟩ :=
    List.exists_cons_of_ne_nil (show CStr.dec n.natAbs ≠ [] from Nat.toDigits_ne_nil)
  have hc : c.isDigit = true := CStr.isDigit_of_mem_dec (hcons ▸ List.mem_cons_self)
  have hmem : c ∈ CStr.decInt n := by
    unfold CStr.decInt
    split_ifs
    · rw [hcons]
      exact List.mem_cons_of_mem _ List.mem_cons_self
    · rw [hcons]
      exact List.mem_cons_self
  rw [← htext] at hmem
  have hnot := List.all_eq_true.mp (List.all_eq_true.mp hops op hop) c hmem
  rw [hc] at hnot
  cases hnot

theorem binaryValue_orders (sys : System) {a b : ℤ}
    (ha : -9223372036854775808 ≤ a ∧ a ≤ 9223372036854775807)
    (hb : -9223372036854775808 ≤ b ∧ b ≤ 9223372036854775807) {order : CStr × (ℤ → ℤ → Bool)}
    (horder : order ∈ orders) : ∃ op : Operator .binop, op.1.opText = order.1 ∧
      binaryValue sys op.1.opNum (CStr.decInt a) (CStr.decInt b) = .ok (order.2 a b) := by
  have hcmp := intcmp_decInt ha hb
  simp only [orders, List.mem_cons, List.not_mem_nil, or_false] at horder
  have hmap : ∀ (f : ℤ → Bool) (v : Bool), f (if b < a then 1 else if a < b then -1 else 0) = v →
      (intcmp (CStr.decInt a) (CStr.decInt b)).map f = .ok v := by
    intro f v h
    rw [hcmp, ← h]
    rfl
  rcases horder with rfl | rfl | rfl | rfl | rfl | rfl
  · refine ⟨⟨⟨"-eq".toList, .inteq, .binop⟩, by decide +kernel⟩, rfl,
      hmap _ _ (decide_eq_decide.mpr ?_)⟩
    split_ifs
    · omega
    · exact iff_of_false id (by omega)
    · omega
  · refine ⟨⟨⟨"-ne".toList, .intne, .binop⟩, by decide +kernel⟩, rfl,
      hmap _ _ (decide_eq_decide.mpr ?_)⟩
    split_ifs
    · omega
    · omega
    · omega
  · refine ⟨⟨⟨"-ge".toList, .intge, .binop⟩, by decide +kernel⟩, rfl,
      hmap _ _ (decide_eq_decide.mpr ?_)⟩
    split_ifs
    · omega
    · omega
    · omega
  · refine ⟨⟨⟨"-gt".toList, .intgt, .binop⟩, by decide +kernel⟩, rfl,
      hmap _ _ (decide_eq_decide.mpr ?_)⟩
    split_ifs
    · omega
    · omega
    · omega
  · refine ⟨⟨⟨"-le".toList, .intle, .binop⟩, by decide +kernel⟩, rfl,
      hmap _ _ (decide_eq_decide.mpr ?_)⟩
    split_ifs
    · omega
    · omega
    · omega
  · refine ⟨⟨⟨"-lt".toList, .intlt, .binop⟩, by decide +kernel⟩, rfl,
      hmap _ _ (decide_eq_decide.mpr ?_)⟩
    split_ifs
    · omega
    · omega
    · omega

/-- **Numbers**: the six comparisons of decimal numbers are those of the integers, in the whole
range of `intmax_t`. -/
theorem test_orders_integers (sys : System) {argv0 : CStr} (hname : baseName argv0 ≠ "[".toList)
    {a b : ℤ} (ha : -9223372036854775808 ≤ a ∧ a ≤ 9223372036854775807)
    (hb : -9223372036854775808 ≤ b ∧ b ≤ 9223372036854775807) {order : CStr × (ℤ → ℤ → Bool)}
    (horder : order ∈ orders) :
    testMain sys argv0 [CStr.decInt a, order.1, CStr.decInt b] =
      .ok (if order.2 a b then 0 else 1) := by
  obtain ⟨op, htext, hvalue⟩ := binaryValue_orders sys ha hb horder
  have hnone := lookup_decInt a
  have hstart : startsOperand (CStr.decInt a) := by
    refine ⟨fun h => ?_, fun h => ?_, fun h => ?_⟩
    · rw [h, lookup_of_mem notOp_mem] at hnone
      cases hnone
    · rw [h, lookup_of_mem openOp_mem] at hnone
      cases hnone
    · rw [h, lookup_of_mem closeOp_mem] at hnone
      cases hnone
  have hclear : isUnopText (CStr.decInt a) = true → CStr.decInt b ≠ ")".toList := by
    rw [isUnopText, hnone]
    exact fun h => by cases h
  have hmeans := evaluate_words sys
    (.one (.one (.one (.binary (CStr.decInt a) op (CStr.decInt b))))) ⟨hstart, hclear⟩
  rw [testMain, if_neg hname, ← htext]
  refine hmeans.trans ?_
  show status (binaryValue sys op.1.opNum (CStr.decInt a) (CStr.decInt b)) = _
  rw [hvalue]
  rfl

theorem test_orders_integers_minus :
    testMain bareSystem "test".toList ["-9223372036854775808".toList, "-lt".toList, "10".toList] =
      .ok 0 :=
  test_orders_integers bareSystem (a := -9223372036854775808) (b := 10) (by decide +kernel)
    (by decide) (by decide) (show ("-lt".toList, fun a b => decide (a < b)) ∈
      orders by simp [orders])

end Omap4.Motobox.Test
