import CampaignRouting.Publish.Pipeline

/-! Sessions: a store, a routing table at hand and the outcome of the last publication, through any
number of steps, each of which does at most one thing to the store. -/

namespace CampaignRouting

/-- A store and what is at hand for it. -/
structure Session where
  config : EngineConfig
  /-- The settings of a second publisher over the same store. -/
  standard : PublishConfig
  store : Store
  table : RoutingTable
  last : Outcome

namespace Session

/-- A session with an empty store and nothing at hand. -/
def startWith (config : EngineConfig) (standard : PublishConfig) : Session :=
  ⟨config, standard, .empty, .empty, .empty⟩

def start (config : EngineConfig) : Session := startWith config .default

/-! ## Operations on a store -/

/-- What can be done to a store, by any publisher, with any table and after any outcome. -/
inductive Operation where
  /-- From now on the store answers writes to a key in another way. -/
  | behave (key : String) (behaviour : Behaviour)
  | publish (config : PublishConfig) (table : RoutingTable) (targets : List Target)
  /-- Publishes to the targets that failed before. -/
  | retry (config : PublishConfig) (table : RoutingTable) (before : Outcome)
  /-- Takes a campaign the whole way. -/
  | run (config : EngineConfig) (graph : Graph) (settings : Settings) (context : Context)
      (targets : List Target)

/-- What an operation comes to. -/
inductive Reply where
  | done
  | outcome (o : Outcome)
  | receipt (r : Receipt)
  | failed (e : PublishError)

/-- Does an operation, and tells what it comes to. -/
def Operation.apply (s : Store) : Operation → Reply × Store
  | behave key b => (.done, s.behave key b)
  | publish config table targets =>
    let (o, s) := config.publish table targets s
    (.outcome o, s)
  | retry config table before =>
    let (o, s) := config.retry table before s
    (.outcome o, s)
  | run config g settings c targets =>
    match config.run g settings c targets s with
    | (.ok r, s) => (.receipt r, s)
    | (.error e, s) => (.failed e, s)

/-! ## Steps of a session -/

/-- Which settings a step publishes with. -/
inductive Publisher where
  /-- Those of the session. -/
  | own
  | standard
deriving DecidableEq, Repr

/-- One step of a session. -/
inductive Step where
  | behave (key : String) (behaviour : Behaviour)
  /-- Takes another table to hand. -/
  | take (table : RoutingTable)
  /-- Publishes the table at hand. -/
  | publish (publisher : Publisher) (targets : List Target)
  /-- Publishes the table at hand to the targets that failed at last. -/
  | retry (publisher : Publisher)
  | run (graph : Graph) (settings : Settings) (context : Context) (targets : List Target)

/-- The settings that a publisher goes by. -/
def publishConfig (s : Session) : Publisher → PublishConfig
  | .own => s.config.publish
  | .standard => s.standard

/-- Keeps at hand what an operation has come to. -/
def noting (s : Session) : Reply → Session
  | .done | .failed _ => s
  | .outcome o => { s with last := o }
  | .receipt r => { s with table := r.table, last := r.outcome }

/-- Does an operation to the store of the session. -/
def perform (s : Session) (op : Operation) : Reply × Session :=
  let (reply, store) := op.apply s.store
  (reply, { s.noting reply with store })

def step (s : Session) : Step → Reply × Session
  | .behave key b => s.perform (.behave key b)
  | .take table => (.done, { s with table })
  | .publish publisher targets => s.perform (.publish (s.publishConfig publisher) s.table targets)
  | .retry publisher => s.perform (.retry (s.publishConfig publisher) s.table s.last)
  | .run g settings c targets => s.perform (.run s.config g settings c targets)

end Session
end CampaignRouting
