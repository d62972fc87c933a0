import CampaignRouting.Publish.Store
import CampaignRouting.Publish.Target
import CampaignRouting.Routing.Basic

/-! Publication of a routing table. The table is written to all targets side by side, once for each
key, and the outcome tells which writes came through. -/

namespace CampaignRouting

/-- A write that is due. -/
structure Write where
  key : String
  target : Target
deriving BEq, DecidableEq, Repr

/-- The writes whose keys have not been taken; the first with a key takes it. -/
def distinctWrites (taken : List String) : List Write → List Write
  | [] => []
  | w :: ws =>
    if w.key ∈ taken then distinctWrites taken ws
    else w :: distinctWrites (w.key :: taken) ws

/-- A write that failed, and the target that it was for. -/
structure FailedWrite where
  target : Target
  key : String
  error : StoreError
deriving BEq, DecidableEq, Repr

/-- How the writes to some targets ended, in the order of the targets. -/
structure Outcome where
  written : List String
  failed : List FailedWrite
deriving BEq, DecidableEq, Repr

/-- What a publication amounts to. -/
inductive PublishStatus where
  | published
  /-- Some places still hold an older table. -/
  | partly
  | nothingPublished
deriving DecidableEq, Repr

def PublishStatus.name : PublishStatus → String
  | published => "Published"
  | partly => "Partial"
  | nothingPublished => "NothingPublished"

namespace Outcome

def empty : Outcome := ⟨[], []⟩

/-- No write failed. -/
def Complete (o : Outcome) : Prop := o.failed = []

instance (o : Outcome) : Decidable o.Complete := by unfold Complete; infer_instance

/-- The keys that may still hold an older table. -/
def failedKeys (o : Outcome) : List String := o.failed.map (·.key)

def status (o : Outcome) : PublishStatus :=
  if o.Complete then .published
  else if o.written.isEmpty then .nothingPublished
  else .partly

/-- Adds how one write ended before the others. -/
def record (w : Write) (result : Except StoreError Unit) (o : Outcome) : Outcome :=
  match result with
  | .ok () => { o with written := w.key :: o.written }
  | .error e => { o with failed := ⟨w.target, w.key, e⟩ :: o.failed }

end Outcome

/-- An order in which writes that run side by side come to an end. -/
structure Schedule where
  order : List Write → List Write
  perm : ∀ ws, (order ws).Perm ws

/-- Writes end in the order of their delays. -/
def Schedule.byDelay (s : Store) : Schedule where
  order ws := ws.mergeSort fun v w => (s.behaviour v.key).delay ≤ (s.behaviour w.key).delay
  perm ws := List.mergeSort_perm ws _

namespace PublishConfig

/-- The writes for some targets. -/
def writes (config : PublishConfig) (targets : List Target) : List Write :=
  distinctWrites [] (targets.map fun t => ⟨t.key config, t⟩)

/-- Writes a table to some targets; the writes end in the order of a schedule. -/
def publishIn (config : PublishConfig) (schedule : Schedule) (table : RoutingTable)
    (targets : List Target) (s : Store) : Outcome × Store :=
  let text := table.toText
  let writes := config.writes targets
  let outcome := writes.foldr
    (fun w => Outcome.record w ((s.behaviour w.key).result config.writeTimeout)) .empty
  (outcome, (schedule.order writes).foldl (fun s w => s.put config.writeTimeout w.key text) s)

/-- Writes a table to some targets, each write as slow as the store makes it. -/
def publish (config : PublishConfig) (table : RoutingTable) (targets : List Target) (s : Store) :
    Outcome × Store :=
  config.publishIn (.byDelay s) table targets s

/-- Writes a table to the targets that failed before. -/
def retry (config : PublishConfig) (table : RoutingTable) (before : Outcome) (s : Store) :
    Outcome × Store :=
  config.publish table (before.failed.map (·.target)) s

end PublishConfig
end CampaignRouting
