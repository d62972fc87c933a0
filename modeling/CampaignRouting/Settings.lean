import CampaignRouting.Json.Record

/-! Settings of a campaign as a whole. The router gets them unchanged. -/

namespace CampaignRouting
open Json

/-- An aim that visitors may reach, beside the primary one. -/
structure Goal where
  id : String
  name : String
  type : String
  target : Option String
deriving BEq, DecidableEq, Repr

/-- Settings of a campaign. -/
structure Settings where
  /-- The length of a visit, in minutes. -/
  sessionDuration : UInt32
  /-- How long a conversion counts for a visit, in days. -/
  attributionPeriod : UInt32
  primaryGoal : String
  customGoals : List Goal
deriving BEq, DecidableEq, Repr

def Settings.default : Settings := ⟨0, 0, "", []⟩

def Goal.codec : Codec Goal :=
  .record "struct CustomGoal"
    (.cons (.required "id" .string) <|
      .cons (.withDefault "name" "" .string) <|
      .cons (.withDefault "type" "" .string) <|
      .cons (.optional "target" .string) .nil)
    (fun (id, name, type, target, ()) => ⟨id, name, type, target⟩)
    (fun g => (g.id, g.name, g.type, g.target, ()))

def Settings.codec : Codec Settings :=
  .record "struct CampaignSettings"
    (.cons (.withDefault "sessionDuration" 0 .uint32) <|
      .cons (.withDefault "attributionPeriod" 0 .uint32) <|
      .cons (.withDefault "primaryGoal" "" .string) <|
      .cons (.withDefault "customGoals" [] (.list Goal.codec)) .nil)
    (fun (session, attribution, primary, custom, ()) => ⟨session, attribution, primary, custom⟩)
    (fun s => (s.sessionDuration, s.attributionPeriod, s.primaryGoal, s.customGoals, ()))

end CampaignRouting
