import CampaignRouting.Json.Token

/-! The words of a TOML text. Blanks and line ends are words too, since they mean something in
places. -/

namespace CampaignRouting.Toml

/-- The pieces that a document is cut into. -/
inductive Token where
  /-- Blanks, or a comment. -/
  | blank
  | newline
  | openBracket
  | closeBracket
  | openBrace
  | closeBrace
  | comma
  | equals
  /-- What keys without quotes, numbers, dates and the names of the truth values are made of. -/
  | word (cs : List Char)
  | quoted (s : String)
  /-- A quoted text that may go over several lines, and may not be a key. -/
  | block (s : String)
deriving DecidableEq, Repr

def isBlank (c : Char) : Bool := c = ' ' || c = '\t'

/-- What may stand in comments and between quotes: everything but controls. -/
def isPlain (c : Char) : Bool := c = '\t' || (0x20 ≤ c.toNat && c.toNat ≠ 0x7F)

/-- The characters of keys without quotes. -/
def isKeyChar (c : Char) : Bool := c.isAlphanum || c = '_' || c = '-'

/-- The character may stand in a word, be it a key or a value. -/
def isWordChar (c : Char) : Bool := isKeyChar c || c = '+' || c = '.' || c = ':'

/-! ## Quoted texts

A text between double quotes may hold escapes, a text between single quotes says what it shows. -/

/-- The character that an escape of one letter stands for. -/
def unescape? : Char → Option Char
  | 'b' => some '\x08'
  | 't' => some '\t'
  | 'n' => some '\n'
  | 'f' => some '\x0c'
  | 'r' => some '\r'
  | '"' => some '"'
  | '\\' => some '\\'
  | _ => none

/-- The character whose code point has the digits, in base sixteen. -/
def codePoint? (ds : List Char) : Option Char := do
  let n ← ds.foldlM (fun n c => (Json.hexValue? c).map (16 * n + ·)) 0
  if n.isValidChar then some (Char.ofNat n) else none

/-- The character of an escape whose backslash has been read. -/
def readEscape (cs : List Char) : Option (Char × List Char) :=
  match cs with
  | 'u' :: cs => if cs.length < 4 then none else (codePoint? (cs.take 4)).map (·, cs.drop 4)
  | 'U' :: cs => if cs.length < 8 then none else (codePoint? (cs.take 8)).map (·, cs.drop 8)
  | c :: cs => (unescape? c).map (·, cs)
  | [] => none

/-- Whether a line ends here. -/
def atLineEnd : List Char → Bool
  | '\n' :: _ | '\r' :: '\n' :: _ => true
  | _ => false

/-- The line end right behind the opening quotes of a block does not count. -/
def dropLineEnd : List Char → List Char
  | '\n' :: cs | '\r' :: '\n' :: cs => cs
  | cs => cs

/-- A kind of quotes. -/
structure Quotes where
  mark : Char
  escapes : Bool
  /-- There are three of them on each side. -/
  block : Bool

/-- What stands behind three quotes. Up to two more before them belong to the text. -/
def readClosing (mark : Char) : List Char → List Char × List Char
  | a :: b :: cs =>
    if a = mark then if b = mark then ([a, b], cs) else ([a], b :: cs) else ([], a :: b :: cs)
  | [a] => if a = mark then ([a], []) else ([], [a])
  | [] => ([], [])

/-- The blanks and line ends that a backslash at the end of a line takes with it. -/
def dropGap : List Char → List Char
  | '\r' :: '\n' :: cs => dropGap cs
  | '\r' :: cs => '\r' :: cs
  | c :: cs => if isBlank c || c = '\n' then dropGap cs else c :: cs
  | [] => []

/-- The text up to the closing quotes, and what follows them; at most `fuel` characters are read. A
line end in a block counts as one character, however it is written. -/
def readQuotedWithin (q : Quotes) : Nat → List Char → Option (List Char × List Char)
  | 0, _ | _ + 1, [] => none
  | fuel + 1, c :: cs =>
    let goOn (c : Char) (cs : List Char) :=
      (readQuotedWithin q fuel cs).map fun (text, rest) => (c :: text, rest)
    if c = q.mark then
      if q.block then
        match cs with
        | a :: b :: rest =>
          if a = q.mark ∧ b = q.mark then some (readClosing q.mark rest) else goOn c cs
        | _ => none
      else some ([], cs)
    else if c = '\\' ∧ q.escapes then
      if q.block ∧ atLineEnd (cs.dropWhile isBlank) then readQuotedWithin q fuel (dropGap cs)
      else (readEscape cs).bind fun (c, cs) => goOn c cs
    else if isPlain c then goOn c cs
    else if q.block ∧ atLineEnd (c :: cs) then goOn '\n' (dropLineEnd (c :: cs))
    else none

/-- Reads a text up to its closing quotes. -/
def readQuoted (q : Quotes) (cs : List Char) : Option (String × List Char) :=
  (readQuotedWithin q (cs.length + 1) cs).map fun (text, rest) => (String.ofList text, rest)

/-- The quoted text behind a quote. Three quotes in a row open a block. -/
def readQuotedToken (mark : Char) (escapes : Bool) (cs : List Char) : Option (Token × List Char) :=
  match cs with
  | a :: b :: rest =>
    if a = mark ∧ b = mark then
      (readQuoted ⟨mark, escapes, true⟩ (dropLineEnd rest)).map fun (s, cs) => (.block s, cs)
    else (readQuoted ⟨mark, escapes, false⟩ cs).map fun (s, cs) => (.quoted s, cs)
  | _ => (readQuoted ⟨mark, escapes, false⟩ cs).map fun (s, cs) => (.quoted s, cs)

/-! ## Words -/

/-- Whether a date stands here, and a blank with a time of day behind it. -/
def isDateBlank (word rest : List Char) : Bool :=
  match word, rest with
  | [_, _, _, _, '-', _, _, '-', _, _], ' ' :: a :: b :: ':' :: _ => a.isDigit && b.isDigit
  | _, _ => false

/-- The longest word. A blank between a date and a time of day belongs to it. -/
def readWord (cs : List Char) : List Char × List Char :=
  let word := cs.takeWhile isWordChar
  let rest := cs.dropWhile isWordChar
  if isDateBlank word rest then
    (word ++ ' ' :: (rest.drop 1).takeWhile isWordChar, (rest.drop 1).dropWhile isWordChar)
  else (word, rest)

/-- The token that begins with `c`. -/
def readToken (c : Char) (cs : List Char) : Option (Token × List Char) :=
  match c with
  | '\n' => some (.newline, cs)
  | '\r' =>
    match cs with
    | '\n' :: cs => some (.newline, cs)
    | _ => none
  | '#' => some (.blank, cs.dropWhile isPlain)
  | '[' => some (.openBracket, cs)
  | ']' => some (.closeBracket, cs)
  | '\x7b' => some (.openBrace, cs)
  | '\x7d' => some (.closeBrace, cs)
  | ',' => some (.comma, cs)
  | '=' => some (.equals, cs)
  | '"' => readQuotedToken '"' true cs
  | '\x27' => readQuotedToken '\x27' false cs
  | c =>
    if isBlank c then some (.blank, cs)
    else if isWordChar c then
      let (word, rest) := readWord (c :: cs)
      some (.word word, rest)
    else none

/-- The tokens of at most `fuel` characters. -/
def tokensWithin : Nat → List Char → Option (List Token)
  | _, [] => some []
  | 0, _ => none
  | fuel + 1, c :: cs => do
    let (token, rest) ← readToken c cs
    return token :: (← tokensWithin fuel rest)

/-- The tokens of a text, each of which takes at least one character. -/
def tokens? (s : String) : Option (List Token) := tokensWithin s.toList.length s.toList

end CampaignRouting.Toml
