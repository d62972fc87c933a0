import CampaignRouting.Json.Basic

/-! Targeting rules of segments. They are carried to the router as they are; nothing here interprets
them. -/

namespace CampaignRouting

/-- What a rule looks at. -/
inductive RuleType where
  | country | region | city | device | browser | os | language | referrer
  | utmSource | utmMedium | utmCampaign | utmTerm | utmContent
deriving DecidableEq, Repr

namespace RuleType

def all : List RuleType :=
  [country, region, city, device, browser, os, language, referrer, utmSource, utmMedium,
   utmCampaign, utmTerm, utmContent]

def name : RuleType → String
  | country => "country"
  | region => "region"
  | city => "city"
  | device => "device"
  | browser => "browser"
  | os => "os"
  | language => "language"
  | referrer => "referrer"
  | utmSource => "utmSource"
  | utmMedium => "utmMedium"
  | utmCampaign => "utmCampaign"
  | utmTerm => "utmTerm"
  | utmContent => "utmContent"

end RuleType

/-- How a rule compares. -/
inductive RuleOperator where
  | equals | notEquals | contains | notContains | startsWith | endsWith | isIn | notIn
  | greaterThan | lessThan | matchesRegex
deriving DecidableEq, Repr

namespace RuleOperator

def all : List RuleOperator :=
  [equals, notEquals, contains, notContains, startsWith, endsWith, isIn, notIn, greaterThan,
   lessThan, matchesRegex]

def name : RuleOperator → String
  | equals => "equals"
  | notEquals => "notEquals"
  | contains => "contains"
  | notContains => "notContains"
  | startsWith => "startsWith"
  | endsWith => "endsWith"
  | isIn => "in"
  | notIn => "notIn"
  | greaterThan => "greaterThan"
  | lessThan => "lessThan"
  | matchesRegex => "matchesRegex"

end RuleOperator

/-- What a rule compares with. -/
inductive RuleValue where
  | bool (b : Bool)
  | number (n : Json.Number)
  | text (s : String)
  | texts (l : List String)
  | numbers (l : List Json.Number)
deriving BEq, DecidableEq, Repr

/-- A condition on visitors. -/
structure Rule where
  id : String
  type : RuleType
  operator : RuleOperator
  /-- Not set while the rule is still being written. -/
  value : Option RuleValue
  label : String
  isRequired : Option Bool
deriving BEq, DecidableEq, Repr

end CampaignRouting
