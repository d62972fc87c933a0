import CampaignRouting.Json.Basic

/-! The text of JSON values. Compact and indented text differ only in the blanks around the items of
arrays and objects, which a `Spacing` holds. -/

namespace CampaignRouting.Json

/-- The character behind the backslash, for characters that have a short escape. -/
def shortEscape? : Char → Option Char
  | '"' => some '"'
  | '\\' => some '\\'
  | '\x08' => some 'b'
  | '\t' => some 't'
  | '\n' => some 'n'
  | '\x0c' => some 'f'
  | '\r' => some 'r'
  | _ => none

/-- The last two digits, in lower case, of `n` in base sixteen. -/
def hexPair (n : Nat) : List Char := [Nat.digitChar (n / 16 % 16), Nat.digitChar (n % 16)]

/-- A character as it stands between quotes. Only the quote, the backslash and control characters
need an escape. -/
def escape (c : Char) : List Char :=
  match shortEscape? c with
  | some e => ['\\', e]
  | none => if c.toNat < 0x20 then '\\' :: 'u' :: '0' :: '0' :: hexPair c.toNat else [c]

/-- The text between quotes, with all that has to be escaped. -/
def quoted (s : String) : List Char := '"' :: s.toList.flatMap escape ++ ['"']

/-- The blanks that a layout puts before an item at a depth, and behind a colon. -/
structure Spacing where
  line : Nat → List Char
  afterColon : List Char

def Spacing.compact : Spacing := ⟨fun _ => [], []⟩

/-- One item a line, two spaces for each level. -/
def Spacing.indented : Spacing := ⟨fun depth => '\n' :: List.replicate (2 * depth) ' ', [' ']⟩

mutual

/-- The text of a value that stands at a depth. -/
def print (s : Spacing) (depth : Nat) : Json → List Char
  | .null => "null".toList
  | .bool b => if b then "true".toList else "false".toList
  | .number n => n.text.toList
  | .string t => quoted t
  | .array [] => ['[', ']']
  | .array (v :: vs) =>
    '[' :: s.line (depth + 1) ++ v.print s (depth + 1) ++ printItems s (depth + 1) vs
      ++ s.line depth ++ [']']
  | .object [] => ['\x7b', '\x7d']
  | .object ((k, v) :: ms) =>
    '\x7b' :: s.line (depth + 1) ++ quoted k ++ ':' :: s.afterColon ++ v.print s (depth + 1)
      ++ printMembers s (depth + 1) ms ++ s.line depth ++ ['\x7d']

/-- The items after the first. -/
def printItems (s : Spacing) (depth : Nat) : List Json → List Char
  | [] => []
  | v :: vs => ',' :: s.line depth ++ v.print s depth ++ printItems s depth vs

/-- The members after the first. -/
def printMembers (s : Spacing) (depth : Nat) : List (String × Json) → List Char
  | [] => []
  | (k, v) :: ms =>
    ',' :: s.line depth ++ quoted k ++ ':' :: s.afterColon ++ v.print s depth
      ++ printMembers s depth ms

end

/-- The value in one line, without any space. -/
def compact (v : Json) : String := String.ofList (v.print .compact 0)

/-- The value over several lines, with two blanks for each level. -/
def pretty (v : Json) : String := String.ofList (v.print .indented 0)

end CampaignRouting.Json
