import CampaignRouting.Config.Basic
import CampaignRouting.Config.Layer

/-! Reading settings leniently: a number or a truth value may stand for a text, and a text for a
number. Whatever is not set keeps its default. -/

namespace CampaignRouting
open Json

/-- Why settings cannot be loaded. -/
inductive ConfigError where
  | unreadable (path : String)
  | unknownFormat (path : String)
  | malformed (path : String)
  | badSection (name : String)
  | badValue (name : String)
deriving DecidableEq, Repr

def ConfigError.message (e : ConfigError) : String :=
  "Failed to load configuration: " ++
    match e with
    | unreadable path => "no configuration file at '" ++ path ++ "'"
    | unknownFormat path => "'" ++ path ++ "' is of no known format"
    | malformed path => "'" ++ path ++ "' is malformed"
    | badSection name => "'" ++ name ++ "' is no section"
    | badValue name => "'" ++ name ++ "' has a value of the wrong kind"

/-! ## Lenient values -/

namespace Json

/-- The number, where integers beyond 63 bits count as floating-point numbers. -/
def Number.settled : Number → Number
  | .integer i => if Decimal.FitsInt64 i then .integer i else .float (Float.ofInt i)
  | n => n

/-- The text that a scalar stands for. -/
def asText? : Json → Option String
  | .string s => some s
  | .bool b => some (if b then "true" else "false")
  | .number n =>
    match n.settled with
    | .integer i => some (toString i)
    | .float x => some (Decimal.plain.render x)
  | _ => none

/-- The natural number of 64 bits that a scalar stands for. Floating-point numbers are rounded, and
those out of range give the nearest bound. -/
def asNatural? : Json → Option Nat
  | .bool b => some b.toNat
  | .number n =>
    match n.settled with
    | .integer i => if 0 ≤ i then some i.toNat else none
    | .float x => some x.round.toUInt64.toNat
  | .string s =>
    let word := String.ofList (s.toList.map Char.toLower)
    if word ∈ ["true", "on", "yes"] then some 1
    else if word ∈ ["false", "off", "no"] then some 0
    else (Decimal.naturalOf? s).filter (· < UInt64.size)
  | _ => none

end Json

/-! ## Sections -/

/-- The fields of a section, by name or in order. -/
inductive ConfigSection where
  | named (fields : List (String × Json))
  | ordered (fields : List Json)

namespace ConfigSection

def ofJson? : Json → Option ConfigSection
  | .object members => some (.named members)
  | .array items => some (.ordered items)
  | _ => none

/-- The field with a name, which is also known by its place in the order. -/
def field? (s : ConfigSection) (name : String) (place : Nat) : Option Json :=
  match s with
  | named fields => fields.lookup name
  | ordered fields => fields[place]?

/-- A field's value, or the default where it is not set. -/
def read {α : Type} (s : ConfigSection) (name : String) (place : Nat) (default : α)
    (convert : Json → Option α) : Except ConfigError α :=
  match s.field? name place with
  | none => .ok default
  | some v =>
    match convert v with
    | some a => .ok a
    | none => .error (.badValue name)

end ConfigSection

/-- A section of the settings, which may be left out. -/
def configSection (v : Json) (name : String) : Except ConfigError ConfigSection :=
  match v.member? name with
  | none => .ok (.named [])
  | some v =>
    match ConfigSection.ofJson? v with
    | some s => .ok s
    | none => .error (.badSection name)

/-- Reads the section field by field; a field that is not given keeps its default. -/
def ValidationConfig.ofSection (s : ConfigSection) : Except ConfigError ValidationConfig := do
  return {
    placeholderMarker :=
      ← s.read "placeholder_marker" 0 ValidationConfig.default.placeholderMarker asText?
    minHypothesisChars :=
      ← s.read "min_hypothesis_chars" 1 ValidationConfig.default.minHypothesisChars asNatural? }

/-- Reads the section as that of validation is read. -/
def PublishConfig.ofSection (s : ConfigSection) : Except ConfigError PublishConfig := do
  return {
    keyPrefix := ← s.read "key_prefix" 0 PublishConfig.default.keyPrefix asText?
    writeTimeout := ← s.read "write_timeout_ms" 1 PublishConfig.default.writeTimeout asNatural? }

/-- The settings that a value holds. Members that are none of the settings do not count. -/
def EngineConfig.ofLayers (v : Json) : Except ConfigError EngineConfig := do
  return {
    validation := ← ValidationConfig.ofSection (← configSection v "validation")
    publish := ← PublishConfig.ofSection (← configSection v "publish") }

end CampaignRouting
