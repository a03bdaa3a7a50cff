/-!
# Tokens of a settings text

A settings text is one JSON value. Its characters form tokens: punctuation, strings, numerals and
the three words. String contents stay undecoded here, because a string that nobody reads may hold
what no decoded string can, half of a surrogate pair.
-/

namespace EntropySupply.Settings

/-- One unit of a string: a character, or a code unit given by four hexadecimal digits. -/
inductive TextUnit where
  | char (c : Char)
  | code (unit : Nat)
  deriving DecidableEq, Repr

/-- A number as it is written. It is an integer when it has neither a fraction nor an exponent. -/
structure Numeral where
  negative : Bool
  digits : List Char
  isInteger : Bool
  deriving DecidableEq, Repr

inductive Token where
  | openList
  | closeList
  | openObject
  | closeObject
  | comma
  | colon
  | text (units : List TextUnit)
  | number (n : Numeral)
  | null
  | bool (b : Bool)
  deriving DecidableEq, Repr

def isBlank (c : Char) : Bool := c == ' ' || c == '\n' || c == '\t' || c == '\r'

def hexDigit? (c : Char) : Option Nat :=
  if '0' ≤ c ∧ c ≤ '9' then some (c.toNat - '0'.toNat)
  else if 'a' ≤ c ∧ c ≤ 'f' then some (c.toNat - 'a'.toNat + 10)
  else if 'A' ≤ c ∧ c ≤ 'F' then some (c.toNat - 'A'.toNat + 10)
  else none

/-- What a backslash and one letter stand for. -/
def simpleEscape? : Char → Option Char
  | '"' => some '"'
  | '\\' => some '\\'
  | '/' => some '/'
  | 'b' => some '\x08'
  | 'f' => some '\x0c'
  | 'n' => some '\n'
  | 'r' => some '\r'
  | 't' => some '\t'
  | _ => none

namespace Numeral

/-- An optional exponent that reaches to the end. -/
def exponentEnds : List Char → Bool
  | [] => true
  | e :: rest =>
    let digits := match rest with
      | '+' :: ds => ds
      | '-' :: ds => ds
      | ds => ds
    (e == 'e' || e == 'E') && !digits.isEmpty && digits.all Char.isDigit

/-- An optional fraction and an optional exponent that reach to the end. -/
def tailEnds : List Char → Bool
  | '.' :: rest =>
    !(rest.takeWhile Char.isDigit).isEmpty && exponentEnds (rest.dropWhile Char.isDigit)
  | rest => exponentEnds rest

/-- Reads a whole numeral: a sign, digits without a leading zero, a fraction, an exponent. -/
def ofChars? (cs : List Char) : Option Numeral :=
  let negative := cs.head? == some '-'
  let body := if negative then cs.drop 1 else cs
  let digits := body.takeWhile Char.isDigit
  let rest := body.dropWhile Char.isDigit
  if digits.isEmpty then none
  else if digits.head? == some '0' && 1 < digits.length then none
  else if tailEnds rest then some ⟨negative, digits, rest.isEmpty⟩
  else none

def magnitude (n : Numeral) : Nat :=
  n.digits.foldl (fun v c => 10 * v + (c.toNat - '0'.toNat)) 0

/-- The integer, if the numeral is one; minus zero is none. -/
def toInt? (n : Numeral) : Option Int :=
  if !n.isInteger then none
  else if !n.negative then some n.magnitude
  else if n.magnitude = 0 then none
  else some (-(n.magnitude : Int))

end Numeral

def ofWord? (cs : List Char) : Option Token :=
  if cs = ['n', 'u', 'l', 'l'] then some .null
  else if cs = ['t', 'r', 'u', 'e'] then some (.bool true)
  else if cs = ['f', 'a', 'l', 's', 'e'] then some (.bool false)
  else none

def punctuation? : Char → Option Token
  | '[' => some .openList
  | ']' => some .closeList
  | '\x7b' => some .openObject
  | '\x7d' => some .closeObject
  | ',' => some .comma
  | ':' => some .colon
  | _ => none

def isNumeralChar (c : Char) : Bool :=
  c.isDigit || c == '-' || c == '+' || c == '.' || c == 'e' || c == 'E'

/-- What the scanner is in the middle of. Contents are held latest first. -/
inductive Scan where
  | between
  | inText (units : List TextUnit)
  | escaped (units : List TextUnit)
  | inCode (units : List TextUnit) (digits : Nat) (value : Nat)
  | inNumber (cs : List Char)
  | inWord (cs : List Char)

/-- The tokens that a finished run of plain characters stands for. -/
def Scan.finish? : Scan → Option (List Token)
  | .between => some []
  | .inNumber cs => (Numeral.ofChars? cs.reverse).map fun n => [.number n]
  | .inWord cs => (ofWord? cs.reverse).map fun t => [t]
  | _ => none

/-- The state after a character outside strings, together with the token it is by itself. -/
def Scan.begin? (c : Char) : Option (Scan × List Token) :=
  if isBlank c then some (.between, [])
  else if c = '"' then some (.inText [], [])
  else match punctuation? c with
    | some t => some (.between, [t])
    | none =>
      if c.isDigit || c == '-' then some (.inNumber [c], [])
      else if 'a' ≤ c ∧ c ≤ 'z' then some (.inWord [c], [])
      else none

/-- One character further: the next state and the tokens that the character completes. Control
characters are refused inside strings. -/
def Scan.step? (c : Char) : Scan → Option (Scan × List Token)
  | .between => begin? c
  | .inText us =>
    if c = '"' then some (.between, [.text us.reverse])
    else if c = '\\' then some (.escaped us, [])
    else if c.toNat < 0x20 then none
    else some (.inText (.char c :: us), [])
  | .escaped us =>
    if c = 'u' then some (.inCode us 4 0, [])
    else (simpleEscape? c).map fun d => (.inText (.char d :: us), [])
  | .inCode us digits value => do
    let d ← hexDigit? c
    let value := 16 * value + d
    if digits ≤ 1 then some (.inText (.code value :: us), [])
    else some (.inCode us (digits - 1) value, [])
  | .inNumber cs =>
    if isNumeralChar c then some (.inNumber (c :: cs), [])
    else do
      let done ← finish? (.inNumber cs)
      let (s, ts) ← begin? c
      some (s, done ++ ts)
  | .inWord cs =>
    if 'a' ≤ c ∧ c ≤ 'z' then some (.inWord (c :: cs), [])
    else do
      let done ← finish? (.inWord cs)
      let (s, ts) ← begin? c
      some (s, done ++ ts)

def scan? (s : Scan) : List Char → Option (List Token)
  | [] => s.finish?
  | c :: cs => do
    let (s, ts) ← s.step? c
    let rest ← scan? s cs
    some (ts ++ rest)

def tokens? (text : String) : Option (List Token) := scan? .between text.toList

/-- The character whose number is a code point outside the surrogates. -/
def charOfCode? (n : Nat) : Option Char :=
  if n.isValidChar then some (Char.ofNat n) else none

/-- The characters of a string's units. A high surrogate must come with its low one. -/
def decode? : List TextUnit → Option (List Char)
  | [] => some []
  | .char c :: us => (decode? us).map (c :: ·)
  | .code high :: .code low :: us =>
    if 0xd800 ≤ high ∧ high < 0xdc00 then
      if 0xdc00 ≤ low ∧ low < 0xe000 then do
        let c ← charOfCode? (0x10000 + (high - 0xd800) * 0x400 + (low - 0xdc00))
        (decode? us).map (c :: ·)
      else none
    else do
      let c ← charOfCode? high
      (decode? (.code low :: us)).map (c :: ·)
  | .code unit :: us => do
    let c ← charOfCode? unit
    (decode? us).map (c :: ·)

end EntropySupply.Settings
