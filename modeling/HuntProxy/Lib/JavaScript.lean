import HuntProxy.Lib.IpText
import HuntProxy.Lib.Url
import Mathlib.Logic.Function.Basic

/-!
# A part of JavaScript

Scripts of one function: declarations, counting loops, conditions and `return`, with literals,
variables, members, calls and comparisons of numbers. A script is a text; it is cut into tokens,
read as a function and run. What is outside of this part of the language has no meaning here.

Strings are sequences of code units of UTF-16. The functions that a script calls are a parameter.

## Main definitions

- `lex` — the tokens of a text
- `Expr`, `Statement`, `Program`, `parse` — the function that they make
- `eval`, `exec`, `run` — what it returns

## Main results

- `lexRun_append` — a text is lexed piece by piece
- `Literal.arr`, `Literal.obj` — literals are read as the values that they stand for
- `Scans.repeatLoop_of_not`, `Scans.repeatLoop_of_hit` — a loop that runs through, and one that
  returns
-/

namespace HuntProxy.Js

open Ip (Str)

/-! ### Strings -/

/-- The code units of a string. -/
abbrev CodeUnits := List ℕ

/-- The code units of a letter. -/
def units (c : Char) : CodeUnits :=
  if c.toNat < 65536 then [c.toNat]
  else [55296 + (c.toNat - 65536) / 1024, 56320 + (c.toNat - 65536) % 1024]

/-- The code units of a text. -/
def text (s : Str) : CodeUnits := s.flatMap units

/-! ### Tokens -/

/-- A token. -/
inductive Token
  | word (s : Str)
  | num (n : ℕ)
  | str (s : CodeUnits)
  | op (c : Char)
  | incr
  deriving DecidableEq

/-- What has been read of a token. -/
inductive LexState
  | start
  | word (s : Str)
  | num (n : ℕ)
  | plus
  | str (s : CodeUnits)
  | escape (s : CodeUnits)
  | unicode (s : CodeUnits) (digits : ℕ) (value : ℕ)
  deriving DecidableEq

/-- A letter of a name. -/
def isWordChar (c : Char) : Bool := c.isAlphanum || c == '_' || c == '$'

/-- A blank between tokens. -/
def isBlank (c : Char) : Bool := c == ' ' || c == '\n' || c == '\t' || c == '\r'

/-- The tokens of one letter. -/
def isOp (c : Char) : Bool := ['(', ')', '{', '}', '[', ']', ';', ',', ':', '.', '<', '='].contains c

/-- The letter that is meant by an escaped one. -/
def escaped (c : Char) : Option ℕ :=
  if c = '"' ∨ c = '\\' ∨ c = '/' then some c.toNat
  else if c = 'b' then some 8
  else if c = 'f' then some 12
  else if c = 'n' then some 10
  else if c = 'r' then some 13
  else if c = 't' then some 9
  else none

/-- The first letter of a token. -/
def enter (c : Char) : Option (List Token × LexState) :=
  if isBlank c then some ([], .start)
  else if c.isDigit then some ([], .num (c.toNat - 48))
  else if isWordChar c then some ([], .word [c])
  else if c = '"' then some ([], .str [])
  else if c = '+' then some ([], .plus)
  else if isOp c then some ([.op c], .start)
  else none

/-- A token in front of others. -/
def before (t : Token) (r : Option (List Token × LexState)) : Option (List Token × LexState) :=
  r.map (fun p => (t :: p.1, p.2))

/-- One letter. -/
def lexStep : LexState → Char → Option (List Token × LexState)
  | .start, c => enter c
  | .word s, c => if isWordChar c then some ([], .word (s ++ [c])) else before (.word s) (enter c)
  | .num n, c =>
    if c.isDigit then some ([], .num (10 * n + (c.toNat - 48)))
    else if isWordChar c then none
    else before (.num n) (enter c)
  | .plus, c => if c = '+' then some ([.incr], .start) else before (.op '+') (enter c)
  | .str s, c =>
    if c = '"' then some ([.str s], .start)
    else if c = '\\' then some ([], .escape s)
    else if c = '\n' ∨ c = '\r' then none
    else some ([], .str (s ++ units c))
  | .escape s, c =>
    if c = 'u' then some ([], .unicode s 0 0)
    else (escaped c).map (fun x => ([], .str (s ++ [x])))
  | .unicode s digits value, c =>
    (Url.hexValue? c).map (fun d =>
      ([], if digits = 3 then .str (s ++ [16 * value + d]) else .unicode s (digits + 1) (16 * value + d)))

/-- The letters of a piece of text. -/
def lexRun (st : LexState) : Str → Option (List Token × LexState)
  | [] => some ([], st)
  | c :: s =>
    match lexStep st c with
    | none => none
    | some (ts, st) => (lexRun st s).map (fun p => (ts ++ p.1, p.2))

/-- The end of the text. -/
def finish : LexState → Option (List Token)
  | .start => some []
  | .word s => some [.word s]
  | .num n => some [.num n]
  | .plus => some [.op '+']
  | _ => none

/-- The tokens of a text. -/
def lex (s : Str) : Option (List Token) :=
  (lexRun .start s).bind (fun p => (finish p.2).map (p.1 ++ ·))

/-- **A text is lexed piece by piece.** -/
theorem lexRun_append {st st' : LexState} {s : Str} {ts : List Token}
    (h : lexRun st s = some (ts, st')) (t : Str) :
    lexRun st (s ++ t) = (lexRun st' t).map (fun p => (ts ++ p.1, p.2)) := by
  induction s generalizing st ts with
  | nil =>
    cases h
    simp
  | cons c s ih =>
    rw [lexRun] at h
    cases hstep : lexStep st c with
    | none =>
      rw [hstep] at h
      cases h
    | some p =>
      rw [hstep] at h
      obtain ⟨q, hq, heq⟩ := Option.map_eq_some_iff.mp h
      obtain ⟨ts', st''⟩ := q
      cases heq
      rw [List.cons_append, lexRun, hstep]
      dsimp only
      rw [ih hq, Option.map_map]
      congr 1
      funext p
      simp

theorem lexRun_append_some {st st' st'' : LexState} {s t : Str} {ts ts' : List Token}
    (h : lexRun st s = some (ts, st')) (h' : lexRun st' t = some (ts', st'')) :
    lexRun st (s ++ t) = some (ts ++ ts', st'') := by
  rw [lexRun_append h, h']
  rfl

/-! ### Strings as JSON writes them -/

/-- A code unit by its number. -/
def unicodeEscape (n : ℕ) : Str := '\\' :: 'u' :: (Ip.places 16 4 n).map Nat.digitChar

/-- A letter in a string of JSON, all of it in ASCII. -/
def dumpsChar (c : Char) : Str :=
  if c = '"' then ['\\', '"']
  else if c = '\\' then ['\\', '\\']
  else if c = '\n' then ['\\', 'n']
  else if c = '\r' then ['\\', 'r']
  else if c = '\t' then ['\\', 't']
  else if c.toNat = 12 then ['\\', 'f']
  else if c.toNat = 8 then ['\\', 'b']
  else if 32 ≤ c.toNat ∧ c.toNat < 127 then [c]
  else (units c).flatMap unicodeEscape

/-- A string of JSON. -/
def dumpsStr (s : Str) : Str := '"' :: s.flatMap dumpsChar ++ ['"']

theorem hexValue?_digitChar : ∀ d < 16, Url.hexValue? (Nat.digitChar d) = some d := by decide

theorem lexRun_unicodeEscape (u : CodeUnits) {n : ℕ} (h : n < 65536) :
    lexRun (.str u) (unicodeEscape n) = some ([], .str (u ++ [n])) := by
  have hdigit (k : ℕ) : Url.hexValue? (Nat.digitChar (k % 16)) = some (k % 16) :=
    hexValue?_digitChar _ (Nat.mod_lt _ (by omega))
  have hescape : unicodeEscape n = ['\\', 'u', Nat.digitChar (n / 16 / 16 / 16 % 16),
      Nat.digitChar (n / 16 / 16 % 16), Nat.digitChar (n / 16 % 16), Nat.digitChar (n % 16)] := rfl
  have hsum : 16 * (16 * (16 * (n / 16 / 16 / 16 % 16) + n / 16 / 16 % 16) + n / 16 % 16) + n % 16 =
      n := by omega
  rw [hescape]
  simp [lexRun, lexStep, hdigit, hsum]

theorem units_lt (c : Char) : ∀ n ∈ units c, n < 65536 := by
  have hlt : c.toNat < 1114112 := by
    rcases c.valid with h | h
    · exact lt_trans h (by decide)
    · exact h.2
  intro n hn
  unfold units at hn
  split at hn
  · rw [List.mem_singleton.mp hn]
    assumption
  · have hquot : (c.toNat - 65536) / 1024 < 1024 := by omega
    have hrem : (c.toNat - 65536) % 1024 < 1024 := Nat.mod_lt _ (by decide)
    generalize (c.toNat - 65536) / 1024 = quot at hquot hn
    generalize (c.toNat - 65536) % 1024 = rem at hrem hn
    rcases List.mem_pair.mp hn with rfl | rfl
    · omega
    · omega

theorem lexRun_unicodeEscapes (u : CodeUnits) {l : CodeUnits} (h : ∀ n ∈ l, n < 65536) :
    lexRun (.str u) (l.flatMap unicodeEscape) = some ([], .str (u ++ l)) := by
  induction l generalizing u with
  | nil => rw [List.append_nil]; rfl
  | cons n l ih =>
    obtain ⟨hn, hl⟩ := List.forall_mem_cons.mp h
    have hrest := lexRun_append_some (lexRun_unicodeEscape u hn) (ih (u ++ [n]) hl)
    rwa [List.append_assoc] at hrest

/-- A letter that needs no escape. -/
theorem lexRun_plain (u : CodeUnits) {c : Char} (hquote : c ≠ '"') (hslash : c ≠ '\\') (hlf : c ≠ '\n')
    (hcr : c ≠ '\r') : lexRun (.str u) [c] = some ([], .str (u ++ units c)) := by
  simp [lexRun, lexStep, hquote, hslash, hlf, hcr]

theorem lexRun_dumpsChar (u : CodeUnits) (c : Char) :
    lexRun (.str u) (dumpsChar c) = some ([], .str (u ++ units c)) := by
  unfold dumpsChar
  split
  · next h => subst h; rfl
  split
  · next h => subst h; rfl
  split
  · next h => subst h; rfl
  split
  · next h => subst h; rfl
  split
  · next h => subst h; rfl
  split
  · next h =>
    have hunits : units c = [12] := by rw [units, h, if_pos (by decide)]
    rw [hunits]
    rfl
  split
  · next h =>
    have hunits : units c = [8] := by rw [units, h, if_pos (by decide)]
    rw [hunits]
    rfl
  split
  · exact lexRun_plain u (by assumption) (by assumption) (by assumption) (by assumption)
  · exact lexRun_unicodeEscapes u (units_lt c)

theorem lexRun_dumpsChars (u : CodeUnits) (s : Str) :
    lexRun (.str u) (s.flatMap dumpsChar) = some ([], .str (u ++ text s)) := by
  induction s generalizing u with
  | nil => rw [text, List.flatMap_nil, List.flatMap_nil, List.append_nil]; rfl
  | cons c s ih =>
    have hrest := lexRun_append_some (lexRun_dumpsChar u c) (ih (u ++ units c))
    rw [List.append_assoc] at hrest
    exact hrest

/-- **A string of JSON is a literal of the script.** -/
theorem lexRun_dumpsStr (s : Str) :
    lexRun .start (dumpsStr s) = some ([.str (text s)], .start) := by
  have hopen : lexRun .start ['"'] = some ([], .str []) := rfl
  have hclose : lexRun (.str (text s)) ['"'] = some ([.str (text s)], .start) := rfl
  exact lexRun_append_some hopen (lexRun_append_some (lexRun_dumpsChars [] s) hclose)

/-- Without quotes, backslashes and line ends a text is a string as it is. -/
theorem lexRun_raw (u : CodeUnits) {s : Str}
    (h : ∀ c ∈ s, c ≠ '"' ∧ c ≠ '\\' ∧ c ≠ '\n' ∧ c ≠ '\r') :
    lexRun (.str u) s = some ([], .str (u ++ text s)) := by
  induction s generalizing u with
  | nil => rw [text, List.flatMap_nil, List.append_nil]; rfl
  | cons c s ih =>
    obtain ⟨⟨hquote, hslash, hlf, hcr⟩, hs⟩ := List.forall_mem_cons.mp h
    have hrest := lexRun_append_some (lexRun_plain u hquote hslash hlf hcr) (ih (u ++ units c) hs)
    rw [List.append_assoc] at hrest
    exact hrest

/-- Texts with commas between them. -/
def dumpsItems : List Str → Str
  | [] => []
  | [s] => s
  | s :: rest => s ++ ", ".toList ++ dumpsItems rest

/-- An array of JSON, of items that have been written. -/
def dumpsArr (items : List Str) : Str := '[' :: dumpsItems items ++ [']']

/-- An object of JSON, of values that have been written. -/
def dumpsObj (members : List (Str × Str)) : Str :=
  '{' :: dumpsItems (members.map (fun p => dumpsStr p.1 ++ ": ".toList ++ p.2)) ++ ['}']

/-- Lists of tokens with commas between them. -/
def commas : List (List Token) → List Token
  | [] => []
  | [ts] => ts
  | ts :: rest => ts ++ .op ',' :: commas rest

/-- A text that is lexed as a whole. -/
def Lexes (s : Str) (ts : List Token) : Prop := lexRun .start s = some (ts, .start)

theorem Lexes.append {s t : Str} {ts ts' : List Token} (h : Lexes s ts) (h' : Lexes t ts') :
    Lexes (s ++ t) (ts ++ ts') := lexRun_append_some h h'

theorem Lexes.dumpsItems {items : List (Str × List Token)} (h : ∀ p ∈ items, Lexes p.1 p.2) :
    Lexes (dumpsItems (items.map Prod.fst)) (commas (items.map Prod.snd)) := by
  induction items with
  | nil => rfl
  | cons p items ih =>
    obtain ⟨hp, hitems⟩ := List.forall_mem_cons.mp h
    cases items with
    | nil => exact hp
    | cons q items =>
      have hcomma : Lexes ", ".toList [.op ','] := rfl
      have hall := (hp.append hcomma).append (ih hitems)
      rw [List.append_assoc p.2] at hall
      exact hall

theorem Lexes.dumpsArr {items : List (Str × List Token)} (h : ∀ p ∈ items, Lexes p.1 p.2) :
    Lexes (dumpsArr (items.map Prod.fst)) (.op '[' :: (commas (items.map Prod.snd) ++ [.op ']'])) := by
  have hopen : Lexes ['['] [.op '['] := rfl
  have hclose : Lexes [']'] [.op ']'] := rfl
  exact hopen.append ((Lexes.dumpsItems h).append hclose)

theorem Lexes.dumpsObj {members : List (Str × Str × List Token)} (h : ∀ p ∈ members, Lexes p.2.1 p.2.2) :
    Lexes (dumpsObj (members.map (fun p => (p.1, p.2.1))))
      (.op '{' :: (commas (members.map (fun p => .str (text p.1) :: .op ':' :: p.2.2)) ++ [.op '}'])) := by
  have hopen : Lexes ['{'] [.op '{'] := rfl
  have hclose : Lexes ['}'] [.op '}'] := rfl
  have hcolon : Lexes ": ".toList [.op ':'] := rfl
  have hmembers : Lexes (Js.dumpsItems (((members.map (fun p => (p.1, p.2.1))).map
      (fun p => dumpsStr p.1 ++ ": ".toList ++ p.2))))
      (commas (members.map (fun p => .str (text p.1) :: .op ':' :: p.2.2))) := by
    have hall : ∀ q ∈ members.map (fun p =>
        (dumpsStr p.1 ++ ": ".toList ++ p.2.1, Token.str (text p.1) :: .op ':' :: p.2.2)),
        Lexes q.1 q.2 := by
      intro q hq
      obtain ⟨p, hp, rfl⟩ := List.mem_map.mp hq
      have hkey : Lexes (dumpsStr p.1) [.str (text p.1)] := lexRun_dumpsStr p.1
      exact (hkey.append hcolon).append (h p hp)
    have hitems := Lexes.dumpsItems hall
    rw [List.map_map, List.map_map] at hitems
    rw [List.map_map]
    exact hitems
  exact hopen.append (hmembers.append hclose)

/-! ### Functions -/

/-- A value. -/
inductive Val
  | undefined
  | null
  | bool (b : Bool)
  | num (n : ℕ)
  | str (s : CodeUnits)
  | arr (items : List Val)
  | obj (members : List (CodeUnits × Val))

/-- An expression. -/
inductive Expr
  | lit (v : Val)
  | var (name : Str)
  | member (e : Expr) (name : Str)
  | index (e i : Expr)
  | call (name : Str) (args : List Expr)
  | lt (e e' : Expr)

/-- A statement. -/
inductive Statement
  | declare (name : Str) (e : Expr)
  | loop (name : Str) (first cond : Expr) (body : Statement)
  | ifThen (cond : Expr) (body : Statement)
  | ret (e : Expr)

/-- A function. -/
structure Program where
  name : Str
  params : List Str
  body : List Statement

mutual

/-- A literal. -/
def parseVal : ℕ → List Token → Option (Val × List Token)
  | 0, _ => none
  | _ + 1, .num k :: ts => some (.num k, ts)
  | _ + 1, .str s :: ts => some (.str s, ts)
  | _ + 1, .op '[' :: .op ']' :: ts => some (.arr [], ts)
  | n + 1, .op '[' :: ts => (parseItems n ts).map (fun p => (.arr p.1, p.2))
  | _ + 1, .op '{' :: .op '}' :: ts => some (.obj [], ts)
  | n + 1, .op '{' :: ts => (parseFields n ts).map (fun p => (.obj p.1, p.2))
  | _, _ => none

/-- The items of an array. -/
def parseItems : ℕ → List Token → Option (List Val × List Token)
  | 0, _ => none
  | n + 1, ts =>
    match parseVal n ts with
    | some (v, .op ',' :: ts) => (parseItems n ts).map (fun p => (v :: p.1, p.2))
    | some (v, .op ']' :: ts) => some ([v], ts)
    | _ => none

/-- The members of an object. -/
def parseFields : ℕ → List Token → Option (List (CodeUnits × Val) × List Token)
  | 0, _ => none
  | n + 1, .str key :: .op ':' :: ts =>
    match parseVal n ts with
    | some (v, .op ',' :: ts) => (parseFields n ts).map (fun p => ((key, v) :: p.1, p.2))
    | some (v, .op '}' :: ts) => some ([(key, v)], ts)
    | _ => none
  | _ + 1, _ => none

end

mutual

/-- An expression. -/
def parseExpr : ℕ → List Token → Option (Expr × List Token)
  | 0, _ => none
  | n + 1, ts =>
    match parsePostfix n ts with
    | some (e, .op '<' :: ts) => (parsePostfix n ts).map (fun p => (.lt e p.1, p.2))
    | r => r

/-- An operand with its members. -/
def parsePostfix : ℕ → List Token → Option (Expr × List Token)
  | 0, _ => none
  | n + 1, ts => (parsePrimary n ts).bind (fun p => parseSuffix n p.1 p.2)

/-- A name, a call or a literal. -/
def parsePrimary : ℕ → List Token → Option (Expr × List Token)
  | 0, _ => none
  | n + 1, .word f :: .op '(' :: ts => (parseArgs n ts).map (fun p => (.call f p.1, p.2))
  | _ + 1, .word s :: ts => some (.var s, ts)
  | n + 1, ts => (parseVal n ts).map (fun p => (.lit p.1, p.2))

/-- What follows an operand. -/
def parseSuffix : ℕ → Expr → List Token → Option (Expr × List Token)
  | 0, _, _ => none
  | n + 1, e, .op '.' :: .word s :: ts => parseSuffix n (.member e s) ts
  | n + 1, e, .op '[' :: ts =>
    match parseExpr n ts with
    | some (i, .op ']' :: ts) => parseSuffix n (.index e i) ts
    | _ => none
  | _ + 1, e, ts => some (e, ts)

/-- The arguments of a call, of which there is at least one. -/
def parseArgs : ℕ → List Token → Option (List Expr × List Token)
  | 0, _ => none
  | n + 1, ts =>
    match parseExpr n ts with
    | some (e, .op ',' :: ts) => (parseArgs n ts).map (fun p => (e :: p.1, p.2))
    | some (e, .op ')' :: ts) => some ([e], ts)
    | _ => none

end

/-- A statement. -/
def parseStmt : ℕ → List Token → Option (Statement × List Token)
  | 0, _ => none
  | n + 1, .word s :: ts =>
    if s = "var".toList then
      match ts with
      | .word x :: .op '=' :: ts =>
        match parseExpr n ts with
        | some (e, .op ';' :: ts) => some (.declare x e, ts)
        | _ => none
      | _ => none
    else if s = "return".toList then
      match parseExpr n ts with
      | some (e, .op ';' :: ts) => some (.ret e, ts)
      | _ => none
    else if s = "if".toList then
      match ts with
      | .op '(' :: ts =>
        match parseExpr n ts with
        | some (e, .op ')' :: ts) => (parseStmt n ts).map (fun p => (.ifThen e p.1, p.2))
        | _ => none
      | _ => none
    else if s = "for".toList then
      match ts with
      | .op '(' :: .word v :: .word x :: .op '=' :: ts =>
        if v = "var".toList then
          match parseExpr n ts with
          | some (first, .op ';' :: ts) =>
            match parseExpr n ts with
            | some (cond, .op ';' :: .word y :: .incr :: .op ')' :: ts) =>
              if x = y then (parseStmt n ts).map (fun p => (.loop x first cond p.1, p.2)) else none
            | _ => none
          | _ => none
        else none
      | _ => none
    else none
  | _, _ => none

/-- The statements up to the closing brace. -/
def parseBody : ℕ → List Token → Option (List Statement × List Token)
  | 0, _ => none
  | _ + 1, .op '}' :: ts => some ([], ts)
  | n + 1, ts =>
    match parseStmt n ts with
    | some (s, ts) => (parseBody n ts).map (fun p => (s :: p.1, p.2))
    | none => none

/-- The names of the parameters, of which there is at least one. -/
def parseParams : List Token → Option (List Str × List Token)
  | .word x :: .op ',' :: ts => (parseParams ts).map (fun p => (x :: p.1, p.2))
  | .word x :: .op ')' :: ts => some ([x], ts)
  | _ => none

/-- A script of one function. -/
def parse (ts : List Token) : Option Program :=
  match ts with
  | .word f :: .word name :: .op '(' :: rest =>
    if f = "function".toList then
      match parseParams rest with
      | some (params, .op '{' :: rest) =>
        match parseBody ts.length rest with
        | some (body, []) => some ⟨name, params, body⟩
        | _ => none
      | _ => none
    else none
  | _ => none

/-! ### Runs -/

/-- The values of the variables. -/
abbrev Env := Str → Option Val

/-- A condition is met. -/
def Val.truthy : Val → Bool
  | .undefined => false
  | .null => false
  | .bool b => b
  | .num n => n ≠ 0
  | .str s => s ≠ []
  | .arr _ => true
  | .obj _ => true

/-- A member of a value. -/
def Val.member (name : Str) : Val → Option Val
  | .arr items => if name = "length".toList then some (.num items.length) else some .undefined
  | .obj members => some (((members.find? (fun p => p.1 = text name)).map Prod.snd).getD .undefined)
  | _ => none

/-- An item of an array. -/
def Val.item : Val → Val → Option Val
  | .arr items, .num k => some (items[k]?.getD .undefined)
  | _, _ => none

/-- The comparison of numbers. -/
def Val.less : Val → Val → Option Val
  | .num a, .num b => some (.bool (a < b))
  | _, _ => none

section

variable (call : Str → List Val → Option Val)

mutual

/-- The value of an expression. -/
def eval (env : Env) : Expr → Option Val
  | .lit v => some v
  | .var x => env x
  | .member e name => (eval env e).bind (Val.member name)
  | .index e i => (eval env e).bind (fun v => (eval env i).bind v.item)
  | .call f args => (evalAll env args).bind (call f)
  | .lt e e' => (eval env e).bind (fun v => (eval env e').bind v.less)

/-- The values of arguments. -/
def evalAll (env : Env) : List Expr → Option (List Val)
  | [] => some []
  | e :: es => (eval env e).bind (fun v => (evalAll env es).map (v :: ·))

end

/-- The rounds of a loop, up to a number of them. -/
def repeatLoop (name : Str) (cond : Expr) (body : Env → Option (Env × Option Val)) :
    ℕ → Env → Option (Env × Option Val)
  | 0, _ => none
  | n + 1, env =>
    match eval call env cond with
    | none => none
    | some v =>
      if v.truthy then
        match body env with
        | none => none
        | some (env, some r) => some (env, some r)
        | some (env, none) =>
          match env name with
          | some (.num k) =>
            repeatLoop name cond body n (Function.update env name (some (.num (k + 1))))
          | _ => none
      else some (env, none)

/-- A statement: the variables, and what is returned, if something is. -/
def exec (n : ℕ) : Statement → Env → Option (Env × Option Val)
  | .declare x e, env => (eval call env e).map (fun v => (Function.update env x (some v), none))
  | .loop x first cond body, env =>
    (eval call env first).bind (fun v =>
      repeatLoop call x cond (exec n body) n (Function.update env x (some v)))
  | .ifThen cond body, env =>
    (eval call env cond).bind (fun v => if v.truthy then exec n body env else some (env, none))
  | .ret e, env => (eval call env e).map (fun v => (env, some v))

/-- The statements of a function. -/
def execAll (n : ℕ) : List Statement → Env → Option Val
  | [], _ => some .undefined
  | s :: rest, env =>
    match exec call n s env with
    | none => none
    | some (_, some v) => some v
    | some (env, none) => execAll n rest env

/-- The variables at the beginning. -/
def bindParams (params : List Str) (args : List Val) : Env :=
  fun x => ((params.zip args).find? (fun p => p.1 = x)).map Prod.snd

/-- What a call of the function in a script returns, with at most `n` rounds in each loop. -/
def run (n : ℕ) (script name : Str) (args : List Val) : Option Val :=
  match (lex script).bind parse with
  | none => none
  | some f => if f.name = name then execAll call n f.body (bindParams f.params args) else none

end

/-! ### Literals -/

theorem commas_cons (ts : List Token) (rest : List (List Token)) :
    ∃ tail, commas (ts :: rest) = ts ++ tail := by
  cases rest with
  | nil => exact ⟨[], (List.append_nil ts).symm⟩
  | cons ts' rest => exact ⟨_, rfl⟩

/-- The tokens are a literal of the value, for all depths from a number on. -/
def Literal (depth : ℕ) (ts : List Token) (v : Val) : Prop :=
  ∀ n, depth ≤ n → ∀ rest, parseVal n (ts ++ rest) = some (v, rest)

theorem Literal.str (s : CodeUnits) : Literal 1 [.str s] (.str s) := by
  intro n hn rest
  obtain ⟨m, rfl⟩ : ∃ m, n = m + 1 := ⟨n - 1, by omega⟩
  rw [List.singleton_append, parseVal]

/-- A literal begins with no closing bracket. -/
theorem Literal.head {depth : ℕ} {ts : List Token} {v : Val} (h : Literal depth ts v)
    (rest rest' : List Token) : ts ++ rest ≠ .op ']' :: rest' := by
  intro heq
  have hparse := h (depth + 1) (by omega) rest
  rw [heq, parseVal] at hparse
  · cases hparse
  all_goals simp

section

variable {depth : ℕ}

theorem parseItems_commas {items : List (List Token × Val)}
    (h : ∀ p ∈ items, Literal depth p.1 p.2) (hne : items ≠ []) {n : ℕ} (hn : depth + items.length ≤ n)
    (rest : List Token) :
    parseItems n (commas (items.map Prod.fst) ++ .op ']' :: rest) =
      some (items.map Prod.snd, rest) := by
  induction items generalizing n with
  | nil => exact absurd rfl hne
  | cons p items ih =>
    obtain ⟨hp, hitems⟩ := List.forall_mem_cons.mp h
    rw [List.length_cons] at hn
    obtain ⟨m, rfl⟩ : ∃ m, n = m + 1 := ⟨n - 1, by omega⟩
    cases items with
    | nil =>
      have hlast := hp m (by omega) (.op ']' :: rest)
      rw [List.map_singleton, List.map_singleton, commas, parseItems, hlast]
      rfl
    | cons q items =>
      have hfirst := hp m (by omega)
        (.op ',' :: (commas ((q :: items).map Prod.fst) ++ .op ']' :: rest))
      have hmore := ih hitems (List.cons_ne_nil q items) (n := m) (by omega)
      rw [List.map_cons, List.map_cons, List.map_cons, commas, ← List.map_cons, List.append_assoc,
        List.cons_append, parseItems, hfirst]
      · change (parseItems m (commas ((q :: items).map Prod.fst) ++ .op ']' :: rest)).map
          (fun r => (p.2 :: r.1, r.2)) = _
        rw [hmore]
        rfl
      · exact List.cons_ne_nil _ _

/-- **An array of literals.** -/
theorem Literal.arr {items : List (List Token × Val)} (h : ∀ p ∈ items, Literal depth p.1 p.2) :
    Literal (depth + items.length + 1) (.op '[' :: (commas (items.map Prod.fst) ++ [.op ']']))
      (.arr (items.map Prod.snd)) := by
  intro n hn rest
  obtain ⟨m, rfl⟩ : ∃ m, n = m + 1 := ⟨n - 1, by omega⟩
  cases items with
  | nil => rfl
  | cons p items =>
    have hitems := parseItems_commas h (List.cons_ne_nil p items) (n := m) (by omega) rest
    rw [List.cons_append, List.append_assoc, List.singleton_append, parseVal, hitems]
    · rfl
    · intro rest' heq
      obtain ⟨tail, htail⟩ := commas_cons p.1 (items.map Prod.fst)
      rw [List.map_cons, htail, List.append_assoc] at heq
      exact (h p List.mem_cons_self).head _ _ heq

/-- The tokens of a member. -/
def memberTokens (p : CodeUnits × List Token × Val) : List Token := .str p.1 :: .op ':' :: p.2.1

theorem parseFields_commas {members : List (CodeUnits × List Token × Val)}
    (h : ∀ p ∈ members, Literal depth p.2.1 p.2.2) (hne : members ≠ []) {n : ℕ}
    (hn : depth + members.length ≤ n) (rest : List Token) :
    parseFields n (commas (members.map memberTokens) ++ .op '}' :: rest) =
      some (members.map (fun p => (p.1, p.2.2)), rest) := by
  induction members generalizing n with
  | nil => exact absurd rfl hne
  | cons p members ih =>
    obtain ⟨hp, hmembers⟩ := List.forall_mem_cons.mp h
    rw [List.length_cons] at hn
    obtain ⟨m, rfl⟩ : ∃ m, n = m + 1 := ⟨n - 1, by omega⟩
    cases members with
    | nil =>
      have hlast := hp m (by omega) (.op '}' :: rest)
      rw [List.map_singleton, List.map_singleton, commas, memberTokens, List.cons_append,
        List.cons_append, parseFields, hlast]
      rfl
    | cons q members =>
      have hfirst := hp m (by omega)
        (.op ',' :: (commas ((q :: members).map memberTokens) ++ .op '}' :: rest))
      have hmore := ih hmembers (List.cons_ne_nil q members) (n := m) (by omega)
      have hp' : memberTokens p = .str p.1 :: .op ':' :: p.2.1 := rfl
      rw [List.map_cons, List.map_cons, List.map_cons, commas, ← List.map_cons, hp',
        List.append_assoc, List.cons_append, List.cons_append, List.cons_append, parseFields, hfirst]
      · change (parseFields m (commas ((q :: members).map memberTokens) ++
          .op '}' :: rest)).map (fun r => ((p.1, p.2.2) :: r.1, r.2)) = _
        rw [hmore]
        rfl
      · exact List.cons_ne_nil _ _

/-- **An object of literals.** -/
theorem Literal.obj {members : List (CodeUnits × List Token × Val)}
    (h : ∀ p ∈ members, Literal depth p.2.1 p.2.2) :
    Literal (depth + members.length + 1)
      (.op '{' :: (commas (members.map memberTokens) ++ [.op '}']))
      (.obj (members.map (fun p => (p.1, p.2.2)))) := by
  intro n hn rest
  obtain ⟨m, rfl⟩ : ∃ m, n = m + 1 := ⟨n - 1, by omega⟩
  cases members with
  | nil => rfl
  | cons p members =>
    have hmembers := parseFields_commas h (List.cons_ne_nil p members) (n := m) (by omega) rest
    rw [List.cons_append, List.append_assoc, List.singleton_append, parseVal, hmembers]
    · rfl
    · intro rest' heq
      obtain ⟨tail, htail⟩ := commas_cons (memberTokens p) (members.map memberTokens)
      rw [List.map_cons, htail] at heq
      cases heq

/-- A literal begins with no name. -/
theorem Literal.head_word {ts : List Token} {v : Val} (h : Literal depth ts v) (w : Str)
    (rest rest' : List Token) : ts ++ rest ≠ .word w :: rest' := by
  intro heq
  have hparse := h (depth + 1) (by omega) rest
  rw [heq, parseVal] at hparse
  · cases hparse
  all_goals simp

/-- A literal is an expression, in front of a token that cannot go on with it. -/
theorem Literal.expr {ts : List Token} {v : Val} (h : Literal depth ts v) {n : ℕ} (hn : depth + 3 ≤ n)
    {c : Char} (hc : c ≠ '.' ∧ c ≠ '[' ∧ c ≠ '<') (rest : List Token) :
    parseExpr n (ts ++ .op c :: rest) = some (.lit v, .op c :: rest) := by
  obtain ⟨m, rfl⟩ : ∃ m, n = m + 3 := ⟨n - 3, by omega⟩
  have hprimary : parsePrimary (m + 1) (ts ++ .op c :: rest) = some (.lit v, .op c :: rest) := by
    rw [parsePrimary, h m (by omega)]
    · rfl
    · intro f ts' heq
      exact h.head_word f _ _ heq
    · intro f ts' heq
      exact h.head_word f _ _ heq
  have hsuffix : parseSuffix (m + 1) (.lit v) (.op c :: rest) = some (.lit v, .op c :: rest) := by
    rw [parseSuffix]
    · intro x ts' heq
      exact hc.1 (Token.op.inj (List.cons.inj heq).1)
    · intro ts' heq
      exact hc.2.1 (Token.op.inj (List.cons.inj heq).1)
  rw [parseExpr, parsePostfix, hprimary, Option.bind_some, hsuffix]
  split
  · next heq =>
    cases heq
    exact absurd rfl hc.2.2
  · rfl

/-- A declaration with a literal. -/
theorem Literal.declare {ts : List Token} {v : Val} (h : Literal depth ts v) {n : ℕ}
    (hn : depth + 4 ≤ n) (x : Str) (rest : List Token) :
    parseStmt n (.word "var".toList :: .word x :: .op '=' :: (ts ++ .op ';' :: rest)) =
      some (.declare x (.lit v), rest) := by
  obtain ⟨m, rfl⟩ : ∃ m, n = m + 1 := ⟨n - 1, by omega⟩
  rw [parseStmt, if_pos rfl, h.expr (by omega) (by decide)]
  rfl

end

theorem parseBody_cons {n : ℕ} {w : Str} {ts rest : List Token} {s : Statement}
    (h : parseStmt n (.word w :: ts) = some (s, rest)) :
    parseBody (n + 1) (.word w :: ts) = (parseBody n rest).map (fun p => (s :: p.1, p.2)) := by
  rw [parseBody, h]
  simp

theorem parse_function {name : Str} {params : List Str} {ts rest : List Token} {body : List Statement}
    (hparams : parseParams ts = some (params, .op '{' :: rest))
    (hbody : parseBody (ts.length + 3) rest = some (body, [])) :
    parse (.word "function".toList :: .word name :: .op '(' :: ts) = some ⟨name, params, body⟩ := by
  simp only [parse, if_true, hparams, List.length_cons, hbody]

theorem length_le_commas {items : List (List Token)} (h : ∀ ts ∈ items, ts ≠ []) :
    items.length ≤ (commas items).length := by
  induction items with
  | nil => exact le_rfl
  | cons ts items ih =>
    obtain ⟨hts, hitems⟩ := List.forall_mem_cons.mp h
    have hpos : 0 < ts.length := List.length_pos_iff.mpr hts
    have hrest := ih hitems
    cases items with
    | nil => exact hpos
    | cons ts' items =>
      simp only [commas, List.length_append, List.length_cons] at hrest ⊢
      omega

/-! ### Loops -/

section

variable {call : Str → List Val → Option Val} {env : Env} {name : Str} {cond : Expr}
  {body : Env → Option (Env × Option Val)} {size : ℕ} {hit : ℕ → Bool} {v : Val}

/-- A loop that counts up to a size, and returns a value in the first round that hits. -/
structure Scans (call : Str → List Val → Option Val) (env : Env) (name : Str) (cond : Expr)
    (body : Env → Option (Env × Option Val)) (size : ℕ) (hit : ℕ → Bool) (v : Val) : Prop where
  cond : ∀ k, eval call (Function.update env name (some (.num k))) cond = some (.bool (k < size))
  body : ∀ k < size, body (Function.update env name (some (.num k))) =
    some (Function.update env name (some (.num k)), if hit k then some v else none)

theorem Scans.round (h : Scans call env name cond body size hit v) {k : ℕ} (hk : k < size) (n : ℕ) :
    repeatLoop call name cond body (n + 1) (Function.update env name (some (.num k))) =
      if hit k then some (Function.update env name (some (.num k)), some v)
      else repeatLoop call name cond body n (Function.update env name (some (.num (k + 1)))) := by
  rw [repeatLoop, h.cond]
  simp only [Val.truthy, decide_eq_true hk, if_true, h.body k hk]
  cases hit k with
  | true => rfl
  | false =>
    simp only [Bool.false_eq_true, if_false, Function.update_self, Function.update_idem]

/-- A loop without a hit runs through. -/
theorem Scans.repeatLoop_of_not (h : Scans call env name cond body size hit v) {n k : ℕ}
    (hk : k ≤ size) (hn : size - k < n) (hhit : ∀ j, k ≤ j → j < size → hit j = false) :
    repeatLoop call name cond body n (Function.update env name (some (.num k))) =
      some (Function.update env name (some (.num size)), none) := by
  induction n generalizing k with
  | zero => omega
  | succ n ih =>
    rcases Nat.lt_or_ge k size with hlt | hge
    · rw [h.round hlt, hhit k le_rfl hlt, if_neg Bool.false_ne_true]
      exact ih (by omega) (by omega) (fun j hj => hhit j (by omega))
    · obtain rfl : k = size := by omega
      rw [repeatLoop, h.cond]
      simp [Val.truthy]

/-- A loop with a hit returns. -/
theorem Scans.repeatLoop_of_hit (h : Scans call env name cond body size hit v) {n k j : ℕ}
    (hkj : k ≤ j) (hj : j < size) (hn : size - k < n) (hhit : hit j = true) :
    ∃ env', repeatLoop call name cond body n (Function.update env name (some (.num k))) =
      some (env', some v) := by
  induction n generalizing k with
  | zero => omega
  | succ n ih =>
    rw [h.round (by omega)]
    cases hnow : hit k with
    | true => exact ⟨_, if_pos rfl⟩
    | false =>
      rw [if_neg Bool.false_ne_true]
      have hne : k ≠ j := by
        rintro rfl
        rw [hhit] at hnow
        cases hnow
      exact ih (by omega) (by omega)

theorem execAll_declare (n : ℕ) (x : Str) (v : Val) (rest : List Statement) (env : Env) :
    execAll call n (.declare x (.lit v) :: rest) env =
      execAll call n rest (Function.update env x (some v)) := by
  rw [execAll, exec, eval, Option.map_some]

theorem execAll_ifThen {n : ℕ} {cond : Expr} {hit : Bool}
    (h : eval call env cond = some (.bool hit)) (v : Val) (rest : List Statement) :
    execAll call n (.ifThen cond (.ret (.lit v)) :: rest) env =
      if hit then some v else execAll call n rest env := by
  rw [execAll, exec, h]
  cases hit <;> rfl

/-- **A loop that looks for a hit** returns at the first one, or is passed. -/
theorem Scans.execAll_loop {stmt : Statement} {n : ℕ}
    (h : Scans call env name cond (exec call n stmt) size hit v) (hn : size < n) (rest : List Statement) :
    execAll call n (.loop name (.lit (.num 0)) cond stmt :: rest) env =
      if (List.range size).any hit then some v
      else execAll call n rest (Function.update env name (some (.num size))) := by
  rw [execAll, exec, eval, Option.bind_some]
  cases hany : (List.range size).any hit with
  | true =>
    obtain ⟨j, hj, hhit⟩ := List.any_eq_true.mp hany
    obtain ⟨env', henv'⟩ := h.repeatLoop_of_hit (Nat.zero_le j) (List.mem_range.mp hj) (by omega) hhit
    rw [henv', if_pos rfl]
  | false =>
    have hnone : ∀ j, 0 ≤ j → j < size → hit j = false := fun j _ hj =>
      Bool.eq_false_iff.mpr (List.any_eq_false.mp hany j (List.mem_range.mpr hj))
    rw [h.repeatLoop_of_not (Nat.zero_le size) (by omega) hnone, if_neg Bool.false_ne_true]

theorem range_any_getElem? {α : Type*} (l : List α) (p : α → Bool) :
    (List.range l.length).any (fun k => l[k]?.any p) = l.any p := by
  rw [Bool.eq_iff_iff, List.any_eq_true, List.any_eq_true]
  constructor
  · rintro ⟨k, hk, hp⟩
    rw [List.getElem?_eq_getElem (List.mem_range.mp hk)] at hp
    exact ⟨_, List.getElem_mem _, hp⟩
  · rintro ⟨a, ha, hp⟩
    obtain ⟨k, hk, rfl⟩ := List.mem_iff_getElem.mp ha
    refine ⟨k, List.mem_range.mpr hk, ?_⟩
    rw [List.getElem?_eq_getElem hk]
    exact hp

end

end HuntProxy.Js
