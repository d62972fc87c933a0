import CampaignRouting.CommandLine.Plan
import CampaignRouting.Config.Load
import CampaignRouting.Graph.Document
import CampaignRouting.Publish.Pipeline

/-! The commands: `validate` prints the report on a graph, `compile` its routing table, and
`publish` takes it the whole way into a store in memory, and tells what was written. -/

namespace CampaignRouting.CommandLine

/-- What a command line asks for. -/
inductive Command where
  | validate (graph : String) (context : Option String)
  | compile (graph : String) (settings output : Option String)
  | publish (graph : String) (settings context : Option String) (campaign : String)
      (route : Option String) (domains : List String)
deriving DecidableEq, Repr

/-- A command with the options that stand before it. -/
structure Invocation where
  config : Option String
  jsonLogs : Bool
  command : Command
deriving DecidableEq, Repr

/-! ## Arguments -/

namespace Command

def validateOptions : List KnownOption := [.path "context"]

def compileOptions : List KnownOption :=
  [.path "settings", (KnownOption.path "output").withLetter 'o']

def publishOptions : List KnownOption :=
  [.path "settings", .path "context", .text "campaign-id", .text "route",
    (KnownOption.text "domain").repeatable]

/-- The command with a name and arguments. -/
def ofArguments (name : String) (args : List String) : Except UsageError Command :=
  match name with
  | "validate" => do
    let as ← Arguments.read validateOptions false args
    return .validate (← as.onlyPath "graph") (as.option? "context")
  | "compile" => do
    let as ← Arguments.read compileOptions false args
    return .compile (← as.onlyPath "graph") (as.option? "settings") (as.option? "output")
  | "publish" => do
    let as ← Arguments.read publishOptions false args
    return .publish (← as.onlyPath "graph") (as.option? "settings") (as.option? "context")
      ((as.option? "campaign-id").getD "preview") (as.option? "route") (as.values "domain")
  | name => .error (.unknownCommand name)

end Command

namespace Invocation

def options : List KnownOption :=
  [(KnownOption.path "config").withLetter 'c', .flag "json-logs"]

/-- The variable that names a configuration file where no option does. -/
def configVariable : String := "ROUTEGRAPH_CONFIG"

/-- The path of the configuration file, if there is to be one. It must not be empty. -/
def configPath (as : Arguments) (env : Environment) : Except UsageError (Option String) :=
  match (as.option? "config").or (env.lookup configVariable) with
  | some "" => .error (.missingValue "config")
  | path => .ok path

/-- Reads a command line: the options of the program, then the command with its own. -/
def ofArguments (env : Environment) (args : List String) : Except UsageError Invocation := do
  let as ← Arguments.read options true args
  match as.operands with
  | [] => .error (.missingOperand "command")
  | name :: args =>
    return ⟨← configPath as env, (as.option? "json-logs").isSome, ← Command.ofArguments name args⟩

end Invocation

/-! ## Input files -/

/-- The paths of the files that a command reads. -/
def Command.inputs : Command → List String
  | validate graph context => graph :: context.toList
  | compile graph settings _ => graph :: settings.toList
  | publish graph settings context _ _ _ => graph :: settings.toList ++ context.toList

/-- All paths that are looked at for an invocation. -/
def Invocation.inputs (i : Invocation) (formats : List ConfigFormat) : List String :=
  i.config.toList.flatMap (configPaths formats) ++ i.command.inputs

/-- How the text of a file is read. -/
abbrev Reader := String → Except FileError String

/-- The text of a file; the error names the file. -/
def readFile (read : Reader) (path : String) : Except String String :=
  (read path).mapError fun e => "Failed to read '" ++ path ++ "': " ++ e.message

/-- The graph in a file. -/
def readGraph (read : Reader) (path : String) : Except String Graph := do
  let text ← readFile read path
  (Graph.ofText text).mapError fun e => "Invalid graph '" ++ path ++ "': " ++ e.message

/-- A value from a file, or the default where no file is given. -/
def readOr {α : Type} (read : Reader) (codec : Json.Codec α) (default : α) :
    Option String → Except String α
  | none => .ok default
  | some path => do
    let text ← readFile read path
    (codec.ofText text).mapError fun e => "Failed to parse '" ++ path ++ "': " ++ e.message

/-- The settings of the campaign, for which no file need be given. -/
def readSettings (read : Reader) : Option String → Except String Settings :=
  readOr read Settings.codec .default

/-- The context of validation. Without a file there are no pages, so nothing is fit for visitors. -/
def readContext (read : Reader) : Option String → Except String Context :=
  readOr read Context.codec .empty

/-! ## Plans -/

/-- The target of a route, which is a workspace, a project and a slug between slashes. -/
def routeTarget (route : String) : Except String Target :=
  match Text.splitText '/' route with
  | [workspace, project, slug] => .ok (.production workspace project slug)
  | _ => .error ("Route '" ++ route ++ "' must look like workspace/project/slug")

/-- What a campaign is published to: always its preview, then the route and the domains given. -/
def targets (campaign : String) (route : Option String) (domains : List String) :
    Except String (List Target) := do
  let production ← match route with
    | none => pure []
    | some route => do pure [← routeTarget route]
  return .preview campaign :: production ++ domains.map .customDomain

/-- Prints the report, and ends with the answer to whether it allows the campaign. -/
def validatePlan (config : EngineConfig) (g : Graph) (c : Context) : Plan :=
  let report := g.report config.validation c
  ⟨[.print report.toPrettyText], if report.canPublish then .success else .refusal⟩

/-- Prints the routing table, or writes it to a file. -/
def compilePlan (g : Graph) (settings : Settings) (output : Option String) : Plan :=
  match RoutingTable.compile g settings with
  | .error e => .fail ("Compilation failed: " ++ e.message)
  | .ok table =>
    match output with
    | none => ⟨[.print table.toPrettyText], .success⟩
    | some path =>
      let complaint (e : FileError) := "Failed to write output '" ++ path ++ "': " ++ e.message
      ⟨[.write path table.toPrettyText complaint], .success⟩

/-- The lines about a publication: its status, all keys that are in the store now, and the writes
that failed. -/
def receiptLines (receipt : Receipt) (s : Store) : List String :=
  ("Publish status: " ++ receipt.outcome.status.name)
    :: s.keys.map ("  -> wrote " ++ ·)
    ++ receipt.outcome.failed.map fun f => "  -> failed " ++ f.key ++ ": " ++ f.error.message

/-- Publishes into a store of its own. A report that stands in the way is printed. -/
def publishPlan (config : EngineConfig) (g : Graph) (settings : Settings) (c : Context)
    (targets : List Target) : Plan :=
  match config.run g settings c targets .empty with
  | (.ok receipt, s) => ⟨(receiptLines receipt s).map .print, .success⟩
  | (.error (.blocked report), _) =>
    ⟨[.print report.toPrettyText], .failure "Publish blocked by validation"⟩
  | (.error e, _) => .fail e.message

/-- The plan of a command. A route is looked at before any file is read; then the graph, the
settings and the context are read in this order. -/
def Command.plan (config : EngineConfig) (read : Reader) : Command → Except String Plan
  | validate graph context => do
    let g ← readGraph read graph
    return validatePlan config g (← readContext read context)
  | compile graph settings output => do
    let g ← readGraph read graph
    return compilePlan g (← readSettings read settings) output
  | publish graph settings context campaign route domains => do
    let targets ← targets campaign route domains
    let g ← readGraph read graph
    let settings ← readSettings read settings
    return publishPlan config g settings (← readContext read context) targets

/-- The plan of an invocation. The engine's settings are loaded before anything else. -/
def Invocation.plan (env : Environment) (read : Reader) (formats : List ConfigFormat)
    (i : Invocation) : Plan :=
  .ofAttempt do
    let config ← (EngineConfig.load read i.config env formats).mapError ConfigError.message
    i.command.plan config read

/-- What a command line comes to. -/
def plan (env : Environment) (read : Reader) (formats : List ConfigFormat) (args : List String) :
    Plan :=
  match Invocation.ofArguments env args with
  | .ok i => i.plan env read formats
  | .error e => ⟨[], .misuse e⟩

/-- What a program runs on, its files apart. -/
structure Machine where
  /-- The formats of configuration files that there are readers of. -/
  formats : List ConfigFormat
  /-- The directory that relative paths are taken from. -/
  here : Files.Route
  faults : WriteFaults

/-- At the top of the tree, with room for all that is written. -/
def Machine.plain : Machine := ⟨ConfigFormat.standard, [], .never⟩

/-- Runs a command line on a tree of files. -/
def run (env : Environment) (files : Files) (args : List String) (m : Machine := .plain) : Result :=
  (plan env (files.readFrom m.here) m.formats args).run files m.here m.faults

end CampaignRouting.CommandLine
