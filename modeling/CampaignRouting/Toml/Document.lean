import CampaignRouting.Text.Split
import CampaignRouting.Toml.Scalar
import CampaignRouting.Toml.Table
import CampaignRouting.Toml.Token

/-! TOML texts, read as JSON values. Which of its faults a text is refused for does not matter, so
the reader has no errors of its own. -/

namespace CampaignRouting.Toml
open Text (split)

/-! ## Keys -/

/-- How many parts a key may have, and how many brackets may be open, at most. -/
def maxDepth : Nat := 79

/-- A piece of a key, or what stands between two. -/
inductive KeyPiece where
  | part (s : String)
  | dot
deriving DecidableEq, Repr

/-- The pieces of a word in a key. -/
def wordPieces (cs : List Char) : List KeyPiece :=
  ((split '.' cs).map fun part =>
    if part = [] then [] else [KeyPiece.part (String.ofList part)]).intersperse [.dot] |>.flatten

/-- The pieces of a key, and what follows them. -/
def keyPieces : List Token → Option (List KeyPiece × List Token)
  | .blank :: ts => keyPieces ts
  | .word cs :: ts =>
    if cs.all fun c => isKeyChar c || c = '.' then
      (keyPieces ts).map fun (ps, ts) => (wordPieces cs ++ ps, ts)
    else none
  | .quoted s :: ts => (keyPieces ts).map fun (ps, ts) => (.part s :: ps, ts)
  | ts => some ([], ts)

/-- The parts, with a dot between any two. -/
def keyParts? : List KeyPiece → Option (List String)
  | [.part s] => some [s]
  | .part s :: .dot :: ps => (keyParts? ps).map (s :: ·)
  | _ => none

/-- The key at the start, and what follows it and the blanks behind it. -/
def readKey (ts : List Token) : Option (List String × List Token) := do
  let (pieces, ts) ← keyPieces ts
  let key ← keyParts? pieces
  if key.length ≤ maxDepth then some (key, ts) else none

/-! ## Values -/

/-- The token is space within a line. -/
def Token.isBlank : Token → Bool
  | blank => true
  | _ => false

/-- The token is space, or ends a line. -/
def Token.isGap : Token → Bool
  | blank | newline => true
  | _ => false

def skipBlanks (ts : List Token) : List Token := ts.dropWhile Token.isBlank

def skipGaps (ts : List Token) : List Token := ts.dropWhile Token.isGap

mutual

/-- The value at the start, and what follows it; `room` more brackets may be opened. -/
def readValue (room : Nat) : Nat → List Token → Option (Json × List Token)
  | 0, _ | _ + 1, [] => none
  | fuel + 1, token :: ts =>
    match token, room with
    | .quoted s, _ | .block s, _ => some (.string s, ts)
    | .word cs, _ => (scalar? cs).map (·, ts)
    | .openBracket, room + 1 => (readItems room fuel ts).map fun (vs, ts) => (.array vs, ts)
    | .openBrace, room + 1 =>
      match skipBlanks ts with
      | .closeBrace :: ts => some (.object [], ts)
      | ts => do
        let (pairs, ts) ← readPairs room fuel ts
        return (← tableOf? pairs [], ts)
    | _, _ => none

/-- The items of a list up to its bracket. A comma may stand behind the last one. -/
def readItems (room : Nat) : Nat → List Token → Option (List Json × List Token)
  | 0, _ => none
  | fuel + 1, ts =>
    match skipGaps ts with
    | .closeBracket :: ts => some ([], ts)
    | ts => do
      let (v, ts) ← readValue room fuel ts
      match skipGaps ts with
      | .closeBracket :: ts => return ([v], ts)
      | .comma :: ts =>
        let (vs, ts) ← readItems room fuel ts
        return (v :: vs, ts)
      | _ => none

/-- The pairs of a table up to its brace, on one line. -/
def readPairs (room : Nat) : Nat → List Token → Option (List (List String × Json) × List Token)
  | 0, _ => none
  | fuel + 1, ts => do
    match ← readKey ts with
    | (key, .equals :: ts) =>
      let (v, ts) ← readValue room fuel (skipBlanks ts)
      match skipBlanks ts with
      | .closeBrace :: ts => return ([(key, v)], ts)
      | .comma :: ts =>
        let (pairs, ts) ← readPairs room fuel ts
        return ((key, v) :: pairs, ts)
      | _ => none
    | _ => none

end

/-! ## Lines -/

/-- What a line says. -/
inductive Line where
  | pair (key : List String) (value : Json)
  | header (path : List String) (several : Bool)

/-- What follows the end of a line, which is due here. -/
def endLine? (ts : List Token) : Option (List Token) :=
  match skipBlanks ts with
  | [] => some []
  | .newline :: ts => some ts
  | _ => none

/-- The line at the start, and what follows it. -/
def readLine (fuel : Nat) (ts : List Token) : Option (Line × List Token) := do
  match ts with
  | .openBracket :: .openBracket :: ts =>
    match ← readKey ts with
    | (path, .closeBracket :: .closeBracket :: ts) => return (.header path true, ← endLine? ts)
    | _ => none
  | .openBracket :: ts =>
    match ← readKey ts with
    | (path, .closeBracket :: ts) => return (.header path false, ← endLine? ts)
    | _ => none
  | ts =>
    match ← readKey ts with
    | (key, .equals :: ts) =>
      let (v, ts) ← readValue maxDepth fuel (skipBlanks ts)
      return (.pair key v, ← endLine? ts)
    | _ => none

/-- Reads lines one after the other, of which there are no more than tokens. -/
def readLines : Nat → List Token → Option (List Line)
  | 0, _ => none
  | fuel + 1, ts =>
    match skipGaps ts with
    | [] => some []
    | ts => do
      let (line, ts) ← readLine fuel ts
      return line :: (← readLines fuel ts)

/-- The pairs before the first header, and the sections. -/
def sections : List Line → List (List String × Json) × List Section
  | [] => ([], [])
  | .pair key value :: lines =>
    let (pairs, rest) := sections lines
    ((key, value) :: pairs, rest)
  | .header path several :: lines =>
    let (pairs, rest) := sections lines
    ([], ⟨path, several, pairs⟩ :: rest)

/-- The value of a text. Every other call that reads a value, item, pair or line takes a token. -/
def ofText? (s : String) : Option Json := do
  let ts ← tokens? s
  let lines ← readLines (2 * ts.length + 2) ts
  let (pairs, rest) := sections lines
  tableOf? pairs rest

end CampaignRouting.Toml
