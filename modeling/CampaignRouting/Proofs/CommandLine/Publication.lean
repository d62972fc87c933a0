import CampaignRouting.Proofs.CommandLine.Arguments
import CampaignRouting.Proofs.Publish.Keys

/-!
# What a publication on the command line tells

A route is taken apart at its slashes and put together again in its key (`key_of_routeTarget`), and
one that does not come apart into three is refused before any file is looked at
(`run_of_bad_route`). A publication that goes through writes to a store of its own, in which every
write succeeds, so it tells the keys of its targets, each once and in ascending order
(`publication_told`).
-/

namespace CampaignRouting

/-! ## Every write succeeds -/

theorem Store.fault?_behaviour_empty (limit : Nat) (k : String) :
    ((Store.empty.behaviour k).fault? limit) = none := by
  simp [Store.behaviour, Store.empty, Behaviour.fault?, Behaviour.Late, Behaviour.healthy]

theorem SortedMap.mem_keys_iff {α : Type} {m : SortedMap α} {k : String} :
    k ∈ m.keys ↔ (m.get? k).isSome := by
  simp only [keys, List.mem_map, Prod.exists, exists_and_right, exists_eq_right, mem_entries_iff,
    Option.isSome_iff_exists]

theorem SortedMap.keys_ascending {α : Type} (m : SortedMap α) : m.keys.Pairwise (· < ·) :=
  List.pairwise_map.2 m.ascending

namespace PublishConfig

variable (config : PublishConfig) (table : RoutingTable) (targets : List Target)

/-- Nothing fails in a store in which no behaviour has been set. -/
theorem failed_publish_empty : (config.publish table targets .empty).1.failed = [] := by
  have h := (config.publish_settles table targets .empty).failedKeys
  simpa [Store.fault?_behaviour_empty, Outcome.failedKeys] using h

/-- Such a store holds the keys of the targets, and no others. -/
theorem mem_keys_publish_empty (k : String) :
    k ∈ (config.publish table targets .empty).2.keys ↔ k ∈ config.keys targets := by
  have h := config.get?_publish table targets .empty k
  simp only [Store.fault?_behaviour_empty, and_true] at h
  rw [Store.keys, SortedMap.mem_keys_iff, ← Store.get?, h]
  split
  · next hk => simpa using hk
  · next hk => simpa [Store.get?, Store.empty] using hk

end PublishConfig

namespace CommandLine

variable {config : EngineConfig} {g : Graph} {settings : Settings} {c : Context}
  {ts : List Target} {m : Machine} {env : Environment} {files : Files} {args : List String}

/-! ## Routes -/

/-- The key of a route is that of the text as it was given. -/
theorem key_of_routeTarget {route : String} {target : Target} (h : routeTarget route = .ok target)
    (config : PublishConfig) : target.key config = config.keyPrefix ++ ":route:" ++ route := by
  rw [routeTarget] at h
  split at h
  · next w p s hsplit =>
    cases h
    have hpieces : Text.split '/' route.toList = [w.toList, p.toList, s.toList] := by
      simpa [Text.splitText, Function.comp_def] using congrArg (List.map String.toList) hsplit
    have hjoin := Text.join_split '/' route.toList
    rw [hpieces] at hjoin
    rw [Target.key, ← String.toList_inj]
    simp [← hjoin, Text.join]
  · cases h

/-- A route that does not come apart is named in the error. -/
theorem routeTarget_of_not_wellFormed {route : String} (h : ¬RouteWellFormed route) :
    routeTarget route =
      .error ("Route '" ++ route ++ "' must look like workspace/project/slug") := by
  rw [← exists_routeTarget_iff, routeTarget] at h
  rw [routeTarget]
  split at h
  · exact absurd ⟨_, rfl⟩ h
  · rfl

/-- The places that are written to, by their keys. -/
theorem exists_key_targets_iff {campaign : String} {route : Option String} {domains : List String}
    (h : targets campaign route domains = .ok ts) (config : PublishConfig) (k : String) :
    (∃ t ∈ ts, t.key config = k) ↔ k = (Target.preview campaign).key config ∨
      (∃ r ∈ route, k = config.keyPrefix ++ ":route:" ++ r) ∨
      ∃ host ∈ domains, k = (Target.customDomain host).key config := by
  cases route with
  | none =>
    cases h
    simp [eq_comm]
  | some r =>
    obtain ⟨target, htarget, rfl⟩ := map_eq_ok_iff.1 (targets_some .. ▸ h)
    simp [eq_comm, key_of_routeTarget htarget]

/-- A route that does not come apart is refused, whatever the files hold. -/
theorem run_of_bad_route {configPath : Option String} {logs : Bool} {graph : String}
    {settings context : Option String} {campaign route : String} {domains : List String}
    (hargs : Invocation.ofArguments env args =
      .ok ⟨configPath, logs, .publish graph settings context campaign (some route) domains⟩)
    (hconfig : EngineConfig.load (files.readFrom m.here) configPath env m.formats = .ok config)
    (hroute : ¬RouteWellFormed route) :
    run env files args m =
      ⟨"", .failure ("Route '" ++ route ++ "' must look like workspace/project/slug"), files⟩ := by
  rw [run_of_load hargs hconfig, Command.plan, targets_some, routeTarget_of_not_wellFormed hroute]
  rfl

/-! ## Publications that go through -/

/-- What is printed about a publication all writes of which succeeded. -/
def publishedLines (keys : List String) : List String :=
  "Publish status: Published" :: keys.map ("  -> wrote " ++ ·)

/-- Without failures the status is the best one, and no line tells of a failure. -/
theorem receiptLines_of_failed_eq_nil (receipt : Receipt) (s : Store)
    (h : receipt.outcome.failed = []) : receiptLines receipt s = publishedLines s.keys := by
  have hstatus : receipt.outcome.status = .published :=
    Outcome.status_eq_published_iff.2 (by rw [Outcome.failedKeys, h, List.map_nil])
  rw [receiptLines, hstatus, h, List.map_nil, List.append_nil]
  rfl

/-- A publication that is not blocked tells the keys of its targets. -/
theorem publishPlan_told (settings : Settings) (hts : ts ≠ [])
    (h : (g.report config.validation c).canPublish = true) :
    ∃ keys : List String, keys.Pairwise (· < ·) ∧
      (∀ k, k ∈ keys ↔ ∃ t ∈ ts, t.key config.publish = k) ∧
      publishPlan config g settings c ts = ⟨(publishedLines keys).map .print, .success⟩ := by
  obtain ⟨t, o, s, -, ho, hrun⟩ := EngineConfig.run_of_canPublish settings .empty hts h
  have hfailed : o.failed = [] := by
    have hempty := config.publish.failed_publish_empty t ts
    rwa [ho] at hempty
  have hkeys := config.publish.mem_keys_publish_empty t ts
  rw [ho] at hkeys
  refine ⟨s.keys, s.entries.keys_ascending, fun k => (hkeys k).trans PublishConfig.mem_keys, ?_⟩
  rw [publishPlan, hrun]
  exact congrArg (fun lines => Plan.mk (lines.map .print) .success)
    (receiptLines_of_failed_eq_nil ⟨_, t, o⟩ s hfailed)

namespace Inputs

/-- The arguments ask to publish the campaign to some places. -/
def PublishesTo (i : Inputs m env files) (campaign : String) (route : Option String)
    (domains : List String) (args : List String) : Prop :=
  ∃ logs, Invocation.ofArguments env args = .ok ⟨i.configPath, logs,
    .publish i.graphPath i.settingsPath i.contextPath campaign route domains⟩

/-- The paths of the files can be given as arguments. -/
structure Nameable (i : Inputs m env files) : Prop where
  graph : i.graphPath ≠ ""
  settings : "" ∉ i.settingsPath
  context : "" ∉ i.contextPath
  config : "" ∉ i.configPath
  noConfig : i.configPath = none → env.lookup Invocation.configVariable = none

/-- What comes of a publication that goes through: it tells some keys, and no file is touched. -/
structure Told (i : Inputs m env files) (campaign : String) (route : Option String)
    (domains : List String) (keys : List String) (result : Result) : Prop where
  ascending : keys.Pairwise (· < ·)
  /-- The keys are those of the preview, the route and the domains. -/
  mem_keys : ∀ k, k ∈ keys ↔ k = (Target.preview campaign).key i.config.publish ∨
    (∃ r ∈ route, k = i.config.publish.keyPrefix ++ ":route:" ++ r) ∨
    ∃ host ∈ domains, k = (Target.customDomain host).key i.config.publish
  result_eq : result = ⟨printed (publishedLines keys), .success, files⟩

variable {i : Inputs m env files} {campaign : String} {route : Option String}
  {domains : List String}

theorem Nameable.exists_publishesTo (h : i.Nameable) (campaign : String) (route : Option String)
    (domains : List String) : ∃ args, i.PublishesTo campaign route domains args :=
  ⟨_, false, ofArguments_publish campaign route domains h.config h.noConfig h.settings h.context
    h.graph⟩

/-- A publication that goes through tells the keys of its targets. -/
theorem PublishesTo.tells (h : i.PublishesTo campaign route domains args)
    (hroute : ∀ r ∈ route, RouteWellFormed r) (hpublish : i.report.canPublish = true) :
    ∃ keys, i.Told campaign route domains keys (run env files args m) := by
  obtain ⟨logs, hargs⟩ := h
  obtain ⟨ts, hts⟩ := (exists_targets_iff campaign domains).2 hroute
  obtain ⟨keys, hascending, hkeys, hplan⟩ :=
    publishPlan_told i.settings (targets_ne_nil hts) hpublish
  refine ⟨keys, hascending, fun k => (hkeys k).trans (exists_key_targets_iff hts _ k), ?_⟩
  rw [run_of_load hargs i.loads_config, Command.plan, hts, i.reads_graph, i.reads_settings,
    i.reads_context]
  exact (congrArg (Plan.run · files m.here m.faults) hplan).trans (Plan.run_lines ..)

end Inputs

/-- What the publications of a campaign to some domains come to on the command line. -/
structure TellsPublications (m : Machine) (env : Environment) (files : Files) (campaign : String)
    (domains : List String) : Prop where
  /-- A route is accepted if and only if it has exactly two slashes. -/
  accepts : ∀ route : String,
    (∃ target, routeTarget route = .ok target) ↔ route.toList.count '/' = 2
  /-- The key of a route ends in the route as it was given. -/
  keeps : ∀ (route : String) (target : Target), routeTarget route = .ok target →
    ∀ config : PublishConfig, target.key config = config.keyPrefix ++ ":route:" ++ route
  /-- With a route that is not accepted the command fails, whatever the files hold. -/
  refuses : ∀ (args : List String) (configPath : Option String) (config : EngineConfig)
    (logs : Bool) (graph : String) (settings context : Option String) (route : String),
    Invocation.ofArguments env args =
      .ok ⟨configPath, logs, .publish graph settings context campaign (some route) domains⟩ →
    EngineConfig.load (files.readFrom m.here) configPath env m.formats = .ok config →
    route.toList.count '/' ≠ 2 →
    run env files args m =
      ⟨"", .failure ("Route '" ++ route ++ "' must look like workspace/project/slug"), files⟩
  /-- Any route can be asked for. -/
  asks : ∀ (i : Inputs m env files) (route : Option String), i.Nameable →
    ∃ args, i.PublishesTo campaign route domains args
  /-- Where the route is accepted, the files can all be read and the report allows it, the command
  goes through. -/
  tells : ∀ (i : Inputs m env files) (route : Option String) (args : List String),
    i.PublishesTo campaign route domains args → (∀ r ∈ route, r.toList.count '/' = 2) →
    i.report.canPublish = true → ∃ keys, i.Told campaign route domains keys (run env files args m)

/-- A publication whose route is well-formed goes through as soon as the report allows it, and tells
exactly the keys of its targets, in ascending order and each once. -/
theorem publication_told (m : Machine) (env : Environment) (files : Files) (campaign : String)
    (domains : List String) : TellsPublications m env files campaign domains where
  accepts _ := exists_routeTarget_iff
  keeps _ _ := key_of_routeTarget
  refuses _ _ _ _ _ _ _ _ := run_of_bad_route
  asks _ route h := h.exists_publishesTo campaign route domains
  tells _ _ _ h := h.tells

/-- Two spellings of one domain and a route with nothing between its slashes; and a route with one
slash too many, which is found before the graph is missed. -/
theorem publication_told_homeFiles :
    (∃ args keys, keys.Pairwise (· < ·) ∧
      (∀ k, k ∈ keys ↔ k = "campaign:preview:spring" ∨ k = "campaign:route://" ∨
        k = "campaign:domain:shop.example") ∧
      run [] homeFiles args = ⟨printed (publishedLines keys), .success, homeFiles⟩) ∧
    run [] homeFiles ["publish", "none.json", "--campaign-id", "spring", "--route", "a/b/c/d"] =
      ⟨"", .failure ("Route '" ++ "a/b/c/d" ++ "' must look like workspace/project/slug"),
        homeFiles⟩ := by
  constructor
  · obtain ⟨i, hnone, hgraph, hsettings, hcontext, hconfig, hpublish⟩ := exists_inputs_homeFiles
    have hnameable : i.Nameable :=
      ⟨by simp [hgraph], by simp [hsettings], by simp [hcontext], by simp [hnone], fun _ => rfl⟩
    have htold := publication_told .plain [] homeFiles "spring" ["Shop.example.", "shop.example"]
    obtain ⟨args, hargs⟩ := htold.asks i (some "//") hnameable
    obtain ⟨keys, hkeys⟩ := htold.tells i (some "//") args hargs (by decide) hpublish
    refine ⟨args, keys, hkeys.ascending, fun k => (hkeys.mem_keys k).trans ?_, hkeys.result_eq⟩
    have hpreview : (Target.preview "spring").key .default = "campaign:preview:spring" := by decide
    have hroute : PublishConfig.default.keyPrefix ++ ":route:" ++ "//" = "campaign:route://" := by
      decide
    have hhosts : ∀ host ∈ ["Shop.example.", "shop.example"],
        (Target.customDomain host).key .default = "campaign:domain:shop.example" := by decide
    simp [hconfig, EngineConfig.default, hpreview, hroute, hhosts]
  · exact (publication_told .plain [] homeFiles "spring" []).refuses _ none .default false
      "none.json" none none "a/b/c/d" rfl rfl (by decide)

end CommandLine
end CampaignRouting
