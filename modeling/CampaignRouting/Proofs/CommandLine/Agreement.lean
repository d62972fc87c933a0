import CampaignRouting.CommandLine.Command
import CampaignRouting.Proofs.Files
import CampaignRouting.Proofs.Json.Token
import CampaignRouting.Proofs.Publish.Pipeline

/-!
# Commands on the same files

The commands agree about a campaign whose files can all be read: `publish` goes through where
`validate` allows it, else it prints the same report, and what goes through compiles
(`CommandLine.Inputs.agree`). A command that fails has done nothing before, except that a blocked
publication has printed its report, and that the output of a compilation may have broken off after
its file was opened (`CommandLine.commands_agree`). The plans of all commands show it, one by one
(`Command.plan_cases`); what carries a plan out never fails by itself, but for a file that cannot be
written (`Plan.run_write`).
-/

namespace CampaignRouting.CommandLine

/-! ## Plans -/

/-- Lines as they are printed. -/
def printed (lines : List String) : String :=
  lines.foldr (fun line text => line ++ "\n" ++ text) ""

/-- Lines are printed one after the other, and no file is touched. -/
theorem carryOut_print (here : Files.Route) (faults : WriteFaults) (exit : Exit)
    (lines : List String) (t : Traces) :
    (carryOut (Traces.outlet here faults) exit (lines.map .print)).run t =
      (exit, ⟨t.stdout ++ printed lines, t.files⟩) := by
  induction lines generalizing t with
  | nil =>
    rw [printed, List.foldr_nil, String.append_empty]
    rfl
  | cons line lines ih =>
    have hstep := ih ⟨t.stdout ++ line ++ "\n", t.files⟩
    rw [List.map_cons, carryOut]
    refine hstep.trans ?_
    simp [printed, String.append_assoc]

namespace Plan

variable {here : Files.Route} {faults : WriteFaults} {files : Files}

/-- A plan of lines alone prints them and cannot fail. -/
theorem run_lines (lines : List String) (exit : Exit) :
    run ⟨lines.map .print, exit⟩ files here faults = ⟨printed lines, exit, files⟩ := by
  rw [run, carryOut_print, String.empty_append]

theorem run_print (line : String) (exit : Exit) :
    run ⟨[.print line], exit⟩ files here faults = ⟨line ++ "\n", exit, files⟩ := by
  have hline : printed [line] = line ++ "\n" := by
    rw [printed, List.foldr_cons, List.foldr_nil, String.append_empty]
  rw [← hline]
  exact run_lines [line] exit

/-- A plan that writes a file fails exactly if the write does. -/
theorem run_write (path text : String) (complaint : FileError → String) (exit : Exit) :
    run ⟨[.write path text complaint], exit⟩ files here faults =
      match files.writeFrom here faults path text with
      | (.ok (), files) => ⟨"", exit, files⟩
      | (.error e, files) => ⟨"", .failure (complaint e), files⟩ := by
  match h : files.writeFrom here faults path text with
  | (.ok (), files') =>
    simp [run, carryOut, Traces.outlet, StateT.run, bind, StateT.bind, h]
    rfl
  | (.error e, files') =>
    simp [run, carryOut, Traces.outlet, StateT.run, bind, StateT.bind, h]
    rfl

end Plan

variable {config : EngineConfig} {g : Graph} {settings : Settings} {c : Context}
  {ts : List Target}

/-- What may be published compiles, so there is a table to print. -/
theorem compilePlan_of_canPublish (settings : Settings)
    (h : (g.report config.validation c).canPublish = true) :
    ∃ text, compilePlan g settings none = ⟨[.print text], .success⟩ := by
  obtain ⟨t, ht⟩ := RoutingTable.exists_compile_of_canPublish settings h
  rw [compilePlan, ht]
  exact ⟨_, rfl⟩

/-- A publication that is blocked prints the report that validation prints. -/
theorem publishPlan_of_blocked (hts : ts ≠ [])
    (h : (g.report config.validation c).canPublish = false) :
    publishPlan config g settings c ts =
      ⟨[.print (g.report config.validation c).toPrettyText],
        .failure "Publish blocked by validation"⟩ := by
  rw [publishPlan, EngineConfig.run_of_blocked hts h]

/-- In a store of its own no publication fails, so there are only lines to print. -/
theorem publishPlan_of_canPublish (settings : Settings) (hts : ts ≠ [])
    (h : (g.report config.validation c).canPublish = true) :
    ∃ lines : List String, publishPlan config g settings c ts = ⟨lines.map .print, .success⟩ := by
  obtain ⟨t, o, s, -, -, hrun⟩ := EngineConfig.run_of_canPublish settings .empty hts h
  rw [publishPlan, hrun]
  exact ⟨_, rfl⟩

/-! ## Targets -/

/-- A workspace, a project and a slug between slashes. -/
def RouteWellFormed (route : String) : Prop := route.toList.count '/' = 2

instance (route : String) : Decidable (RouteWellFormed route) := by
  unfold RouteWellFormed; infer_instance

theorem exists_routeTarget_iff {route : String} :
    (∃ target, routeTarget route = .ok target) ↔ RouteWellFormed route := by
  have hlength : (Text.splitText '/' route).length = route.toList.count '/' + 1 := by
    rw [Text.splitText, List.length_map, Text.length_split]
  have hthree : RouteWellFormed route ↔ (Text.splitText '/' route).length = 3 := by
    rw [hlength, Nat.succ_inj, RouteWellFormed]
  rw [hthree, List.length_eq_three, routeTarget]
  constructor
  · rintro ⟨target, h⟩
    split at h
    · next workspace project slug hsplit => exact ⟨workspace, project, slug, hsplit⟩
    · cases h
  · rintro ⟨workspace, project, slug, hsplit⟩
    rw [hsplit]
    exact ⟨_, rfl⟩

theorem targets_some (campaign route : String) (domains : List String) :
    targets campaign (some route) domains = (routeTarget route).map fun target =>
      .preview campaign :: target :: domains.map .customDomain := by
  simp only [targets]
  cases routeTarget route <;> rfl

theorem exists_targets_iff (campaign : String) {route : Option String} (domains : List String) :
    (∃ ts, targets campaign route domains = .ok ts) ↔ ∀ r ∈ route, RouteWellFormed r := by
  cases route with
  | none => exact ⟨fun _ => nofun, fun _ => ⟨_, rfl⟩⟩
  | some r => simp [targets_some, map_eq_ok_iff, ← exists_routeTarget_iff]

/-- The preview is always among the targets. -/
theorem targets_ne_nil {campaign : String} {route : Option String} {domains : List String}
    (h : targets campaign route domains = .ok ts) : ts ≠ [] := by
  cases route with
  | none =>
    cases h
    exact nofun
  | some r =>
    obtain ⟨target, -, rfl⟩ := map_eq_ok_iff.1 (targets_some .. ▸ h)
    exact nofun

/-! ## Commands -/

/-- Files of a campaign that can all be read, and what they hold. -/
structure Inputs (m : Machine) (env : Environment) (files : Files) where
  configPath : Option String
  graphPath : String
  settingsPath : Option String
  contextPath : Option String
  config : EngineConfig
  graph : Graph
  settings : Settings
  context : Context
  loads_config : EngineConfig.load (files.readFrom m.here) configPath env m.formats = .ok config
  reads_graph : readGraph (files.readFrom m.here) graphPath = .ok graph
  reads_settings : readSettings (files.readFrom m.here) settingsPath = .ok settings
  reads_context : readContext (files.readFrom m.here) contextPath = .ok context

variable {m : Machine} {env : Environment} {files : Files} {args : List String}

/-- Once the settings are loaded, a run is what the plan of its command comes to. -/
theorem run_of_load {configPath : Option String} {logs : Bool} {command : Command}
    (hargs : Invocation.ofArguments env args = .ok ⟨configPath, logs, command⟩)
    (hconfig : EngineConfig.load (files.readFrom m.here) configPath env m.formats = .ok config) :
    run env files args m =
      (Plan.ofAttempt (command.plan config (files.readFrom m.here))).run files m.here m.faults := by
  simp only [run, plan, hargs, Invocation.plan, hconfig]
  rfl

namespace Inputs

variable (i : Inputs m env files)

def report : Report := i.graph.report i.config.validation i.context

/-- The arguments ask to validate the campaign. -/
def Validates (args : List String) : Prop :=
  ∃ logs, Invocation.ofArguments env args =
    .ok ⟨i.configPath, logs, .validate i.graphPath i.contextPath⟩

/-- The arguments ask to print the compiled campaign. -/
def Compiles (args : List String) : Prop :=
  ∃ logs, Invocation.ofArguments env args =
    .ok ⟨i.configPath, logs, .compile i.graphPath i.settingsPath none⟩

/-- The arguments ask to publish the campaign, under any name, and to any domains. -/
def Publishes (args : List String) : Prop :=
  ∃ logs campaign route domains, (∀ r ∈ route, RouteWellFormed r) ∧
    Invocation.ofArguments env args = .ok ⟨i.configPath, logs,
      .publish i.graphPath i.settingsPath i.contextPath campaign route domains⟩

variable {i}

theorem Validates.run_eq (h : i.Validates args) :
    run env files args m = ⟨i.report.toPrettyText ++ "\n",
      if i.report.canPublish then .success else .refusal, files⟩ := by
  obtain ⟨logs, hargs⟩ := h
  rw [run_of_load hargs i.loads_config, Command.plan, i.reads_graph, i.reads_context]
  exact Plan.run_print ..

theorem Compiles.run_of_canPublish (h : i.Compiles args) (hpublish : i.report.canPublish = true) :
    ∃ text, run env files args m = ⟨text ++ "\n", .success, files⟩ := by
  obtain ⟨logs, hargs⟩ := h
  obtain ⟨text, hplan⟩ := compilePlan_of_canPublish i.settings hpublish
  refine ⟨text, ?_⟩
  rw [run_of_load hargs i.loads_config, Command.plan, i.reads_graph, i.reads_settings]
  exact (congrArg (Plan.run · files m.here m.faults) hplan).trans (Plan.run_print ..)

theorem Publishes.run_eq (h : i.Publishes args) : ∃ ts ≠ [], run env files args m =
    (publishPlan i.config i.graph i.settings i.context ts).run files m.here m.faults := by
  obtain ⟨logs, campaign, route, domains, hroute, hargs⟩ := h
  obtain ⟨ts, hts⟩ := (exists_targets_iff campaign domains).2 hroute
  refine ⟨ts, targets_ne_nil hts, ?_⟩
  rw [run_of_load hargs i.loads_config, Command.plan, hts, i.reads_graph, i.reads_settings,
    i.reads_context]
  rfl

theorem Publishes.run_of_blocked (h : i.Publishes args) (hblocked : i.report.canPublish = false) :
    run env files args m =
      ⟨i.report.toPrettyText ++ "\n", .failure "Publish blocked by validation", files⟩ := by
  obtain ⟨ts, hts, hrun⟩ := h.run_eq
  rw [hrun, publishPlan_of_blocked hts hblocked]
  exact Plan.run_print ..

theorem Publishes.run_of_canPublish (h : i.Publishes args) (hpublish : i.report.canPublish = true) :
    ∃ text, run env files args m = ⟨text, .success, files⟩ := by
  obtain ⟨ts, hts, hrun⟩ := h.run_eq
  obtain ⟨lines, hplan⟩ := publishPlan_of_canPublish i.settings hts hpublish
  rw [hrun, hplan]
  exact ⟨_, Plan.run_lines ..⟩

variable (i) in
/-- What came of the commands on the campaign agrees. -/
structure Agree (validated compiled published : Result) : Prop where
  decides : validated.exit.code = 0 ∨ validated.exit.code = 2
  prints : validated.stdout = i.report.toPrettyText ++ "\n"
  goesThrough : validated.exit.code = 0 ↔ published.exit.code = 0
  blocked : validated.exit.code = 2 ↔
    published.exit.code = 1 ∧ published.exit.failure? = some "Publish blocked by validation"
  printsAlike : validated.exit.code = 2 → published.stdout = validated.stdout
  compiles : validated.exit.code = 0 → compiled.exit.code = 0

/-- The commands agree, as all of them go by one report. -/
theorem agree {vs cs ps : List String} (hv : i.Validates vs) (hc : i.Compiles cs)
    (hp : i.Publishes ps) :
    i.Agree (run env files vs m) (run env files cs m) (run env files ps m) := by
  rw [hv.run_eq]
  cases h : i.report.canPublish with
  | true =>
    obtain ⟨_, hcompiled⟩ := hc.run_of_canPublish h
    obtain ⟨_, hpublished⟩ := hp.run_of_canPublish h
    rw [hcompiled, hpublished]
    exact ⟨.inl rfl, rfl, iff_of_true rfl rfl, iff_of_false nofun nofun, nofun, fun _ => rfl⟩
  | false =>
    rw [hp.run_of_blocked h]
    exact ⟨.inr rfl, rfl, iff_of_false nofun nofun, iff_of_true rfl ⟨rfl, rfl⟩, fun _ => rfl, nofun⟩

end Inputs

/-! ## Failures -/

/-- The arguments ask to write a campaign, compiled to a table, to a file at a path. -/
structure CompilesTo (m : Machine) (env : Environment) (files : Files) (args : List String)
    (table : RoutingTable) (path : String) : Prop where
  asks : ∃ configPath logs graphPath settingsPath g settings,
    Invocation.ofArguments env args =
      .ok ⟨configPath, logs, .compile graphPath settingsPath (some path)⟩ ∧
    readGraph (files.readFrom m.here) graphPath = .ok g ∧
    readSettings (files.readFrom m.here) settingsPath = .ok settings ∧
    RoutingTable.compile g settings = .ok table

/-- What a command line leaves behind that fails. -/
inductive Failed (m : Machine) (env : Environment) (files : Files) (args : List String) :
    Result → Prop
  /-- Nothing has been done. -/
  | nothing (message : String) : Failed m env files args ⟨"", .failure message, files⟩
  /-- A publication is blocked, and its report has been printed. -/
  | blocked (i : Inputs m env files) (publishes : i.Publishes args)
      (blocks : i.report.canPublish = false) : Failed m env files args
        ⟨i.report.toPrettyText ++ "\n", .failure "Publish blocked by validation", files⟩
  /-- The output of a compilation has broken off after its file was opened, which holds what was
  written by then. -/
  | brokenOff {table : RoutingTable} {path name : String} {e : FileError} {length : Nat}
      (compiles : CompilesTo m env files args table path) (opens : files.Opens m.here path name)
      (breaks : m.faults name table.toPrettyText = some (.brokenOff e length)) :
      Failed m env files args
        ⟨"", .failure ("Failed to write output '" ++ path ++ "': " ++ e.message),
          files.insert name (String.ofList (table.toPrettyText.toList.take length))⟩

/-- Where the plan of a command fails, it has left no more behind than it may. -/
theorem Command.failed_of_plan {configPath : Option String} {logs : Bool} {command : Command}
    {p : Plan} (hargs : Invocation.ofArguments env args = .ok ⟨configPath, logs, command⟩)
    (hconfig : EngineConfig.load (files.readFrom m.here) configPath env m.formats = .ok config)
    (h : command.plan config (files.readFrom m.here) = .ok p)
    (hfailed : (p.run files m.here m.faults).exit.code = 1) :
    Failed m env files args (p.run files m.here m.faults) := by
  cases command with
  | validate graph context =>
    obtain ⟨g, -, h⟩ := bind_eq_ok_iff.1 h
    obtain ⟨c, -, h⟩ := bind_eq_ok_iff.1 h
    cases h
    rw [validatePlan, Plan.run_print] at hfailed
    dsimp only at hfailed
    split at hfailed <;> cases hfailed
  | compile graph settings output =>
    obtain ⟨g, hg, h⟩ := bind_eq_ok_iff.1 h
    obtain ⟨s, hs, h⟩ := bind_eq_ok_iff.1 h
    cases h
    unfold compilePlan at hfailed ⊢
    cases htable : RoutingTable.compile g s with
    | error e => exact .nothing _
    | ok table =>
      rw [htable] at hfailed
      cases output with
      | none =>
        dsimp only at hfailed
        rw [Plan.run_print] at hfailed
        cases hfailed
      | some path =>
        dsimp only at hfailed ⊢
        rw [Plan.run_write] at hfailed ⊢
        match hwrite : files.writeFrom m.here m.faults path table.toPrettyText with
        | (.ok (), files') =>
          rw [hwrite] at hfailed
          cases hfailed
        | (.error e, files') =>
          rcases Files.writeFrom_error hwrite with rfl | ⟨name, length, hopens, hbreaks, rfl⟩
          · exact .nothing _
          · exact .brokenOff ⟨⟨configPath, logs, graph, settings, g, s, hargs, hg, hs, htable⟩⟩
              hopens hbreaks
  | publish graph settings context campaign route domains =>
    obtain ⟨ts, hts, h⟩ := bind_eq_ok_iff.1 h
    obtain ⟨g, hg, h⟩ := bind_eq_ok_iff.1 h
    obtain ⟨s, hs, h⟩ := bind_eq_ok_iff.1 h
    obtain ⟨c, hc, h⟩ := bind_eq_ok_iff.1 h
    cases h
    cases hpublish : (g.report config.validation c).canPublish with
    | true =>
      obtain ⟨lines, hplan⟩ := publishPlan_of_canPublish s (targets_ne_nil hts) hpublish
      rw [hplan, Plan.run_lines] at hfailed
      cases hfailed
    | false =>
      rw [publishPlan_of_blocked (targets_ne_nil hts) hpublish, Plan.run_print]
      exact .blocked ⟨configPath, graph, settings, context, config, g, s, c, hconfig, hg, hs, hc⟩
        ⟨logs, campaign, route, domains, (exists_targets_iff campaign domains).1 ⟨ts, hts⟩, hargs⟩
        hpublish

/-- Every run that ends with the code of a failure is accounted for, at whichever stage it fails. -/
theorem failed_of_code {env : Environment} {files : Files} {args : List String}
    (h : (run env files args m).exit.code = 1) :
    Failed m env files args (run env files args m) := by
  cases hargs : Invocation.ofArguments env args with
  | error e =>
    simp only [run, plan, hargs] at h
    cases h
  | ok invocation =>
    obtain ⟨configPath, logs, command⟩ := invocation
    cases hconfig : EngineConfig.load (files.readFrom m.here) configPath env m.formats with
    | error e =>
      simp only [run, plan, hargs, Invocation.plan, hconfig]
      exact .nothing _
    | ok config =>
      rw [run_of_load hargs hconfig] at h ⊢
      cases hplan : command.plan config (files.readFrom m.here) with
      | error message => exact .nothing message
      | ok p =>
        rw [hplan] at h
        exact Command.failed_of_plan hargs hconfig hplan h

/-- The commands agree about a campaign whose files can be read; and whatever a command line asks
for, where it fails it has left no more behind than it may. -/
theorem commands_agree (m : Machine) (env : Environment) (files : Files) :
    (∀ (i : Inputs m env files) (vs cs ps : List String),
      i.Validates vs → i.Compiles cs → i.Publishes ps →
        i.Agree (run env files vs m) (run env files cs m) (run env files ps m)) ∧
    ∀ args, (run env files args m).exit.code = 1 →
      Failed m env files args (run env files args m) :=
  ⟨fun _ _ _ _ => Inputs.agree, fun _ => failed_of_code⟩

/-- A campaign that leads everyone home, and pages among which there is a home. -/
def homeFiles : Files :=
  ((∅ : Files).insert "graph.json"
    "\x7b\"nodes\":[[\"in\",\"traffic\",null,[\"home\"]]],\"edges\":[]\x7d").insert "pages.json"
    "\x7b\"landingPages\":\x7b\"home\":\"published\"\x7d\x7d"

/-- The campaign can be read from its files, and may be published. -/
theorem exists_inputs_homeFiles :
    ∃ i : Inputs .plain [] homeFiles, i.configPath = none ∧ i.graphPath = "graph.json" ∧
      i.settingsPath = none ∧ i.contextPath = some "pages.json" ∧ i.config = .default ∧
      i.report.canPublish = true := by
  have hread : ((readGraph homeFiles.read "graph.json").bind fun g =>
      (readContext homeFiles.read (some "pages.json")).map fun c =>
        (g.report .default c).canPublish) = .ok true := by decide +kernel
  obtain ⟨g, hg, hread⟩ := bind_eq_ok_iff.1 hread
  obtain ⟨c, hc, hpublish⟩ := map_eq_ok_iff.1 hread
  let i : Inputs .plain [] homeFiles := {
    configPath := none
    graphPath := "graph.json"
    settingsPath := none
    contextPath := some "pages.json"
    config := .default
    graph := g
    settings := .default
    context := c
    loads_config := rfl
    reads_graph := hg
    reads_settings := rfl
    reads_context := hc }
  exact ⟨i, rfl, rfl, rfl, rfl, rfl, hpublish⟩

/-- With its pages the campaign goes through; without them its publication is blocked. -/
theorem commands_agree_homeFiles :
    (∃ i : Inputs .plain [] homeFiles, i.report.canPublish = true ∧
      i.Agree (run [] homeFiles ["validate", "graph.json", "--context", "pages.json"])
        (run [] homeFiles ["compile", "graph.json"])
        (run [] homeFiles ["publish", "graph.json", "--context=pages.json", "--route", "a/b/c"])) ∧
    Failed .plain [] homeFiles ["publish", "graph.json"]
      (run [] homeFiles ["publish", "graph.json"]) := by
  obtain ⟨hagree, hfailed⟩ := commands_agree .plain [] homeFiles
  obtain ⟨i, hconfig, hgraph, hsettings, hcontext, -, hpublish⟩ := exists_inputs_homeFiles
  have hvalidates : i.Validates ["validate", "graph.json", "--context", "pages.json"] := by
    rw [Inputs.Validates, hconfig, hgraph, hcontext]
    exact ⟨false, rfl⟩
  have hcompiles : i.Compiles ["compile", "graph.json"] := by
    rw [Inputs.Compiles, hconfig, hgraph, hsettings]
    exact ⟨false, rfl⟩
  have hpublishes : i.Publishes
      ["publish", "graph.json", "--context=pages.json", "--route", "a/b/c"] := by
    rw [Inputs.Publishes, hconfig, hgraph, hsettings, hcontext]
    exact ⟨false, "preview", some "a/b/c", [], by decide, rfl⟩
  exact ⟨⟨i, hpublish, hagree i _ _ _ hvalidates hcompiles hpublishes⟩,
    hfailed _ (by decide +kernel)⟩

/-- A machine whose disk is full: files can still be opened, but nothing fits into them. -/
def Machine.full : Machine :=
  { Machine.plain with
    faults := fun _ _ => some (.brokenOff ⟨28, "StorageFull", "No space left on device"⟩ 0) }

/-- An environment in which the engine's settings do not load. -/
def wordyTimeout : Environment := [("ROUTEGRAPH__PUBLISH__WRITE_TIMEOUT_MS", "soon")]

/-- That all files of a campaign read and parse is not enough for it to be validated, and a command
that fails may have emptied a file. -/
theorem homeFiles_readable_yet_failing :
    ((∃ g, readGraph homeFiles.read "graph.json" = .ok g) ∧
      (∃ c, readContext homeFiles.read (some "pages.json") = .ok c) ∧
      (run wordyTimeout homeFiles ["validate", "graph.json", "--context", "pages.json"]).exit.code
        = 1) ∧
    ((run [] homeFiles ["compile", "graph.json", "-o", "table.json"] .full).exit.code = 1 ∧
      homeFiles.get? "table.json" = none ∧
      (run [] homeFiles ["compile", "graph.json", "-o", "table.json"] .full).files.get?
        "table.json" = some "") := by
  have hgraph : (readGraph homeFiles.read "graph.json").isOk = true := by decide +kernel
  have hcontext : (readContext homeFiles.read (some "pages.json")).isOk = true := by
    decide +kernel
  refine ⟨⟨?_, ?_, by decide +kernel⟩, by decide +kernel, by decide +kernel, by decide +kernel⟩
  · cases h : readGraph homeFiles.read "graph.json" with
    | ok g => exact ⟨g, rfl⟩
    | error e => exact absurd (h ▸ hgraph) nofun
  · cases h : readContext homeFiles.read (some "pages.json") with
    | ok c => exact ⟨c, rfl⟩
    | error e => exact absurd (h ▸ hcontext) nofun

end CampaignRouting.CommandLine
