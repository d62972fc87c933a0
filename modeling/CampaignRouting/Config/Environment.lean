import CampaignRouting.Config.Layer
import CampaignRouting.Decimal.Literal

/-! Settings from environment variables. `ROUTEGRAPH__PUBLISH__KEY_PREFIX` sets
`publish.key_prefix`. -/

namespace CampaignRouting

/-- The variables, each with its name and its text. -/
abbrev Environment := List (String × String)

namespace Environment

/-- A capital letter in lower case. The sign for the kelvin, a capital K of its own, is one. -/
def lower (c : Char) : Char := if c = '\u212a' then 'k' else c.toLower

/-- What the names of all variables that count begin with, in any case. -/
def start : List Char := "routegraph__".toList

/-- Dots for pairs of underscores. -/
def dotted : List Char → List Char
  | '_' :: '_' :: cs => '.' :: dotted cs
  | c :: cs => c :: dotted cs
  | [] => []

/-- The path that a variable sets, if it sets one. -/
def path? (name : String) : Option (List PathStep) :=
  let cs := name.toList.map lower
  if start.isPrefixOf cs then some (keyPath (String.ofList (dotted (cs.drop start.length))))
  else none

/-- The value of a text: a truth value, a number, or the text itself. -/
def scalar (s : String) : Json :=
  let word := String.ofList (s.toList.map lower)
  if word = "true" then .bool true
  else if word = "false" then .bool false
  else match Decimal.integerOf? s with
    | some i => if Decimal.FitsInt64 i then .number (.integer i) else floatOrText
    | none => floatOrText
where
  floatOrText : Json :=
    match Decimal.floatOf? s with
    | some x => .number (.float x)
    | none => .string s

/-- What the variables set. -/
def entries (env : Environment) : List (List PathStep × Json) :=
  env.filterMap fun (name, text) => (path? name).map fun path => (path, scalar text)

end Environment
end CampaignRouting
