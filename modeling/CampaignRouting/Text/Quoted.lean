import CampaignRouting.Text.Invisible

/-! Quoted text for messages. What would not show is written as an escape, so that the reader of a
message can tell every character. -/

namespace CampaignRouting.Text

/-- A character between quotes: the quote, the backslash and common controls have short escapes,
other invisible characters give their code point. -/
def quoteChar (c : Char) : List Char :=
  match c with
  | '"' => ['\\', '"']
  | '\\' => ['\\', '\\']
  | '\x00' => ['\\', '0']
  | '\t' => ['\\', 't']
  | '\r' => ['\\', 'r']
  | '\n' => ['\\', 'n']
  | c => if isInvisible c then ['\\', 'u', '\x7b'] ++ Nat.toDigits 16 c.toNat ++ ['\x7d'] else [c]

/-- The text between quotes, as it is shown in messages. -/
def quote (s : String) : String := String.ofList ('"' :: s.toList.flatMap quoteChar ++ ['"'])

end CampaignRouting.Text
