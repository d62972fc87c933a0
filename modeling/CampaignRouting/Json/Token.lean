import CampaignRouting.Decimal.Literal
import CampaignRouting.Json.Error

/-! The words of a JSON text. Reading never fails here: a fault in the text becomes a token of its
own, with which the list ends, so that what stands before it can still be judged. -/

namespace CampaignRouting.Json

/-- The words of JSON. -/
inductive Word where
  | null
  | true
  | false
deriving DecidableEq, Repr

def Word.text : Word → List Char
  | null => ['n', 'u', 'l', 'l']
  | true => ['t', 'r', 'u', 'e']
  | false => ['f', 'a', 'l', 's', 'e']

/-- A quoted text. `text` is what it says, or the first fault in saying it; `stop` is the fault that
keeps the closing quote from being found. Only the former minds surrogates that stand alone. -/
structure Quoted where
  text : Except Fault String
  stop : Option Fault

/-- A text between quotes with nothing wrong about it. -/
def Quoted.ofString (s : String) : Quoted := ⟨.ok s, none⟩

/-- What can stand for a value without any brackets. -/
inductive Scalar where
  | word (w : Word)
  /-- The text begins like a word and goes on otherwise. -/
  | brokenWord (w : Word) (fault : Fault)
  | number (n : Number)
  /-- A number beyond the greatest one. -/
  | hugeNumber
  /-- The text begins like a number; `fault` is the end of the text, or another character. -/
  | brokenNumber (fault : Fault)
  | string (q : Quoted)
  /-- A character that begins no value. -/
  | stray

/-- Nothing behind it can be read. -/
def Scalar.stops : Scalar → Bool
  | brokenWord .. | brokenNumber _ | stray => true
  | string q => q.stop.isSome
  | word _ | number _ | hugeNumber => false

/-- The pieces that a text is cut into. -/
inductive Token where
  | openList
  | closeList
  | openObject
  | closeObject
  | comma
  | colon
  | scalar (s : Scalar)

def Token.stops : Token → Bool
  | scalar s => s.stops
  | _ => false

/-- The blanks of JSON. -/
def isSpace (c : Char) : Bool := c = ' ' || c = '\t' || c = '\n' || c = '\r'

/-! ## Words -/

/-- Reads what is left of a word. -/
def readWord (w : Word) : List Char → List Char → Scalar × List Char
  | [], cs => (.word w, cs)
  | _ :: _, [] => (.brokenWord w .endInValue, [])
  | e :: es, c :: cs => if c = e then readWord w es cs else (.brokenWord w .expectedWord, c :: cs)

/-! ## Numbers -/

/-- The digits at the start, at least one of which is due. -/
def readDigits (cs : List Char) : Except Fault (List Char × List Char) :=
  match cs.takeWhile Char.isDigit, cs.dropWhile Char.isDigit with
  | [], [] => .error .endInValue
  | [], _ => .error .invalidNumber
  | ds, rest => .ok (ds, rest)

/-- The digits before the point: a zero stands alone. -/
def readWhole (cs : List Char) : Except Fault (List Char × List Char) :=
  match cs with
  | '0' :: c :: rest => if c.isDigit then .error .invalidNumber else .ok (['0'], c :: rest)
  | cs => readDigits cs

/-- Reads the digits behind a point, if there is one. -/
def readFraction (cs : List Char) : Except Fault (List Char × List Char) :=
  match cs with
  | '.' :: rest => readDigits rest
  | cs => .ok ([], cs)

/-- The power of ten at the end, `none` where there is none. -/
def readExponent (cs : List Char) : Except Fault (Option Int × List Char) :=
  match cs with
  | [] => .ok (none, [])
  | c :: rest =>
    if c = 'e' ∨ c = 'E' then do
      let (negative, rest) := match rest with
        | '-' :: rest => (true, rest)
        | '+' :: rest => (false, rest)
        | rest => (false, rest)
      let (ds, rest) ← readDigits rest
      let n : Int := Decimal.digitsValue ds
      .ok (some (if negative then -n else n), rest)
    else .ok (none, c :: rest)

/-- The number that a literal stands for. Without point and power of ten it is an integer, unless it
does not fit or is a negative zero. -/
def numberOf (l : Decimal.Literal) (integral : Bool) : Scalar :=
  let n := Decimal.digitsValue l.whole
  if integral ∧ l.negative ∧ 0 < n ∧ n ≤ 0x8000000000000000 then .number (.integer (-n))
  else if integral ∧ ¬l.negative ∧ n < UInt64.size then .number (.integer n)
  else
    let x := l.toFloat
    if x.isInf then .hugeNumber else .number (.float x)

/-- Reads a number without its sign. -/
def readNumber (negative : Bool) (cs : List Char) : Except Fault (Scalar × List Char) := do
  let (whole, cs) ← readWhole cs
  let (fraction, cs) ← readFraction cs
  let (exponent, cs) ← readExponent cs
  let integral := fraction.isEmpty ∧ exponent.isNone
  .ok (numberOf ⟨negative, whole, fraction, exponent.getD 0⟩ integral, cs)

/-! ## Quoted texts -/

/-- Part of a quoted text: a character, or the 16-bit unit of an escape in base sixteen. -/
inductive Piece where
  | char (c : Char)
  | unit (n : Nat)

/-- How the pieces of a quoted text end. -/
inductive Ending where
  | closed
  | endOfText
  | control
  | unknownEscape
  | badUnit
deriving DecidableEq

def Ending.fault? : Ending → Option Fault
  | closed => none
  | endOfText => some .endInString
  | control => some .controlCharacter
  | unknownEscape | badUnit => some .invalidEscape

/-- The character that an escape of one letter stands for. -/
def unescape? : Char → Option Char
  | '"' => some '"'
  | '\\' => some '\\'
  | '/' => some '/'
  | 'b' => some '\x08'
  | 'f' => some '\x0c'
  | 'n' => some '\n'
  | 'r' => some '\r'
  | 't' => some '\t'
  | _ => none

/-- The value of a hexadecimal digit. -/
def hexValue? (c : Char) : Option Nat :=
  if c.isDigit then some (c.toNat - '0'.toNat)
  else if 'a' ≤ c ∧ c ≤ 'f' then some (c.toNat - 'a'.toNat + 10)
  else if 'A' ≤ c ∧ c ≤ 'F' then some (c.toNat - 'A'.toNat + 10)
  else none

/-- The value of four hexadecimal digits. -/
def unitValue? (a b c d : Char) : Option Nat := do
  return (((← hexValue? a) * 16 + (← hexValue? b)) * 16 + (← hexValue? c)) * 16 + (← hexValue? d)

/-- Why the digits of a unit are bad, from what follows the `u`. Four bytes have to follow. -/
def badUnitEnding (cs : List Char) : Ending :=
  if (String.ofList (cs.take 4)).utf8ByteSize < 4 then .endOfText else .badUnit

/-- The pieces up to the closing quote, and what follows it. -/
def readPieces : List Char → List Piece × Ending × List Char
  | [] => ([], .endOfText, [])
  | '"' :: cs => ([], .closed, cs)
  | '\\' :: 'u' :: a :: b :: c :: d :: cs =>
    match unitValue? a b c d with
    | some n =>
      let (ps, rest) := readPieces cs
      (.unit n :: ps, rest)
    | none => ([], badUnitEnding (a :: b :: c :: d :: cs), [])
  | '\\' :: 'u' :: cs => ([], badUnitEnding cs, [])
  | ['\\'] => ([], .endOfText, [])
  | '\\' :: e :: cs =>
    match unescape? e with
    | some c =>
      let (ps, rest) := readPieces cs
      (.char c :: ps, rest)
    | none => ([], .unknownEscape, [])
  | c :: cs =>
    if c.toNat < 0x20 then ([], .control, [])
    else
      let (ps, rest) := readPieces cs
      (.char c :: ps, rest)

/-- The second of a pair of surrogates. -/
def isLow (n : Nat) : Bool := 0xDC00 ≤ n ∧ n ≤ 0xDFFF

/-- The first of a pair of surrogates. -/
def isHigh (n : Nat) : Bool := 0xD800 ≤ n ∧ n ≤ 0xDBFF

/-- The character of a pair of surrogates. -/
def pairChar (high low : Nat) : Char :=
  Char.ofNat (0x10000 + (high - 0xD800) * 0x400 + (low - 0xDC00))

/-- The characters that pieces stand for. The first of a pair of surrogates has to be followed at
once by an escape with the second. -/
def assemble (ending : Ending) : List Piece → Except Fault (List Char)
  | [] => match ending.fault? with
    | none => .ok []
    | some fault => .error fault
  | .char c :: ps => do return c :: (← assemble ending ps)
  | [.unit n] =>
    if isLow n then .error .loneSurrogate
    else if isHigh n then
      match ending with
      | .endOfText => .error .endInString
      | .badUnit => .error .invalidEscape
      | .closed | .control | .unknownEscape => .error .unfinishedSurrogate
    else match ending.fault? with
      | none => .ok [Char.ofNat n]
      | some fault => .error fault
  | .unit n :: .char c :: ps =>
    if isLow n then .error .loneSurrogate
    else if isHigh n then .error .unfinishedSurrogate
    else do return Char.ofNat n :: c :: (← assemble ending ps)
  | .unit n :: .unit m :: ps =>
    if isLow n then .error .loneSurrogate
    else if isHigh n then
      if isLow m then do return pairChar n m :: (← assemble ending ps)
      else .error .loneSurrogate
    else do return Char.ofNat n :: (← assemble ending (.unit m :: ps))

/-- The quoted text whose opening quote has been read. -/
def readQuoted (cs : List Char) : Quoted × List Char :=
  let (pieces, ending, rest) := readPieces cs
  (⟨(assemble ending pieces).map String.ofList, ending.fault?⟩, rest)

/-! ## Tokens -/

/-- A value without brackets, from its first character on. -/
def readScalar (c : Char) (cs : List Char) : Scalar × List Char :=
  match c with
  | 'n' => readWord .null ['u', 'l', 'l'] cs
  | 't' => readWord .true ['r', 'u', 'e'] cs
  | 'f' => readWord .false ['a', 'l', 's', 'e'] cs
  | '"' =>
    let (q, rest) := readQuoted cs
    (.string q, rest)
  | c =>
    let number :=
      if c = '-' then some (readNumber true cs)
      else if c.isDigit then some (readNumber false (c :: cs))
      else none
    match number with
    | some (.ok r) => r
    | some (.error fault) => (.brokenNumber fault, [])
    | none => (.stray, cs)

/-- The token that begins with `c`. -/
def readToken (c : Char) (cs : List Char) : Token × List Char :=
  match c with
  | '[' => (.openList, cs)
  | ']' => (.closeList, cs)
  | '\x7b' => (.openObject, cs)
  | '\x7d' => (.closeObject, cs)
  | ',' => (.comma, cs)
  | ':' => (.colon, cs)
  | c =>
    let (s, rest) := readScalar c cs
    (.scalar s, rest)

/-- Tokens up to the end or the first fault, of at most `fuel` characters. -/
def tokensWithin : Nat → List Char → List Token
  | 0, _ => []
  | fuel + 1, cs =>
    match cs.dropWhile isSpace with
    | [] => []
    | c :: cs =>
      let (token, rest) := readToken c cs
      if token.stops then [token] else token :: tokensWithin fuel rest

/-- The tokens of a text. Each takes at least one character. -/
def tokens (cs : List Char) : List Token := tokensWithin cs.length cs

end CampaignRouting.Json
