import CampaignRouting.Graph.Rule

/-! What the nodes of a campaign graph carry, kind by kind. -/

namespace CampaignRouting

/-- Landing pages are known by their ids. -/
abbrev PageId := String

/-- The entry point of a campaign. -/
structure Traffic where
  /-- Where visitors go that match no segment. -/
  defaultPage : Option PageId
deriving BEq, Repr

/-- How the texts of a segment come to other languages. -/
inductive TranslationMode where
  | none | auto | manual
deriving DecidableEq, Repr

namespace TranslationMode

def all : List TranslationMode := [none, auto, manual]

def name : TranslationMode → String
  | none => "none"
  | auto => "auto"
  | manual => "manual"

end TranslationMode

/-- A group of visitors. -/
structure Segment where
  title : String
  description : String
  /-- Segments of higher priority are tried first. -/
  priority : Float
  primaryPage : Option PageId
  rules : List Rule
  translationMode : TranslationMode
  /-- Free-form translations by locale. -/
  translations : SortedMap Json
deriving BEq

/-- How far a test has come. -/
inductive AbTestStatus where
  | draft | running | paused | completed
deriving DecidableEq, Repr

namespace AbTestStatus

def all : List AbTestStatus := [draft, running, paused, completed]

def name : AbTestStatus → String
  | draft => "draft"
  | running => "running"
  | paused => "paused"
  | completed => "completed"

end AbTestStatus

/-- The statistical confidence that a winner needs. -/
inductive Confidence where
  | ninety | ninetyFive | ninetyNine
deriving DecidableEq, Repr

namespace Confidence

/-- The level in percent. -/
def percent : Confidence → UInt8
  | ninety => 90
  | ninetyFive => 95
  | ninetyNine => 99

/-- The level of a percentage, if it is one of the three. -/
def ofPercent? (n : UInt8) : Option Confidence :=
  if n = 90 then some ninety
  else if n = 95 then some ninetyFive
  else if n = 99 then some ninetyNine
  else none

end Confidence

/-- When a test may stop. -/
structure CompletionCriteria where
  minSampleSize : Option UInt64
  minDurationDays : Option UInt32
  maxDurationDays : Option UInt32
deriving BEq, DecidableEq, Repr

/-- At least one condition is set. -/
def CompletionCriteria.IsSet (c : CompletionCriteria) : Prop :=
  c.minSampleSize.isSome ∨ c.minDurationDays.isSome ∨ c.maxDurationDays.isSome

instance (c : CompletionCriteria) : Decidable c.IsSet := by
  unfold CompletionCriteria.IsSet; infer_instance

/-- One arm of an A/B test, as the test itself lists it. -/
structure Arm where
  id : String
  name : String
  page : Option PageId
  /-- The share of the test's visitors, in percent. -/
  allocation : Float
  isControl : Bool
deriving BEq, Repr

/-- A test between arms, which are drawn as variants or listed by the test itself. -/
structure AbTest where
  title : String
  hypothesis : String
  status : AbTestStatus
  primaryMetric : Option String
  completionCriteria : Option CompletionCriteria
  confidence : Confidence
  poolingPercent : Float
  arms : List Arm
  winner : Option String
deriving BEq, Repr

/-- A destination of its own. -/
structure Variant where
  title : String
  page : Option PageId
  /-- The share of visitors, in percent. -/
  share : Option Float
deriving BEq, Repr

/-- A remark for those who edit the campaign. -/
structure Note where
  text : String
deriving BEq, DecidableEq, Repr

/-- A form that a campaign may ask visitors to fill in. -/
structure Form where
  formId : Option String
  title : String
deriving BEq, DecidableEq, Repr

/-! ## Empty payloads -/

def Traffic.blank : Traffic := ⟨none⟩

def Segment.blank : Segment where
  title := ""
  description := ""
  priority := 0.0
  primaryPage := none
  rules := []
  translationMode := .none
  translations := ∅

/-- A new test pools nobody; a test that is read pools a fifth unless it says otherwise. -/
def AbTest.blank : AbTest where
  title := ""
  hypothesis := ""
  status := .draft
  primaryMetric := none
  completionCriteria := none
  confidence := .ninetyFive
  poolingPercent := 0.0
  arms := []
  winner := none

def Variant.blank : Variant := ⟨"", none, none⟩

def Note.blank : Note := ⟨""⟩

def Form.blank : Form := ⟨none, ""⟩

end CampaignRouting
