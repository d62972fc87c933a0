import CampaignRouting.Publish.Publisher
import CampaignRouting.Report
import CampaignRouting.Routing.Compile

/-! The whole way of a campaign from its graph into the store: it is validated, compiled and
published. Nothing is written unless the report on it allows that. -/

namespace CampaignRouting

/-- Why a campaign was not published. -/
inductive PublishError where
  | noTargets
  | blocked (report : Report)
  | badRoot (error : StructureError)

def PublishError.message : PublishError → String
  | noTargets => "No publish targets were given"
  | blocked report =>
    "Campaign cannot be published: " ++ toString report.summary.critical ++ " critical issue(s), "
      ++ toString report.summary.errors ++ " error(s)"
  | badRoot error => error.message

/-- What came of a campaign that was published. Some writes may have failed all the same. -/
structure Receipt where
  report : Report
  table : RoutingTable
  outcome : Outcome

/-- Publishes a campaign. -/
def EngineConfig.run (config : EngineConfig) (g : Graph) (settings : Settings) (c : Context)
    (targets : List Target) (s : Store) : Except PublishError Receipt × Store :=
  if targets.isEmpty then (.error .noTargets, s)
  else
    let report := g.report config.validation c
    if report.canPublish then
      match RoutingTable.compile g settings with
      | .error e => (.error (.badRoot e), s)
      | .ok table =>
        let (outcome, s) := config.publish.publish table targets s
        (.ok ⟨report, table, outcome⟩, s)
    else (.error (.blocked report), s)

end CampaignRouting
