import CampaignRouting.Proofs.Routing.Agreement
import CampaignRouting.Publish.Pipeline

/-!
# Runs of the pipeline

A run ends in one of three ways, and which one is told by its targets and the report on the graph
(`run_of_no_targets`, `run_of_blocked`, `run_of_canPublish`). Validation looks for the entry point
as compilation does, so a graph that passes it compiles. Where a run fails, the store is as it was
before, down to the number of writes that were begun.
-/

namespace CampaignRouting.EngineConfig

variable {config : EngineConfig} {g : Graph} {settings : Settings} {c : Context}
  {targets : List Target} {s : Store}

theorem run_of_no_targets (h : targets = []) :
    config.run g settings c targets s = (.error .noTargets, s) := by
  rw [run, h]
  rfl

theorem run_of_blocked (h : targets ≠ [])
    (hblocked : (g.report config.validation c).canPublish = false) :
    config.run g settings c targets s =
      (.error (.blocked (g.report config.validation c)), s) := by
  rw [run, if_neg (by simpa using h)]
  simp [hblocked]

theorem run_of_compile {t : RoutingTable} {o : Outcome} {s' : Store} (h : targets ≠ [])
    (hpublish : (g.report config.validation c).canPublish = true)
    (ht : RoutingTable.compile g settings = .ok t)
    (ho : config.publish.publish t targets s = (o, s')) :
    config.run g settings c targets s =
      (.ok ⟨g.report config.validation c, t, o⟩, s') := by
  rw [run, if_neg (by simpa using h)]
  simp [hpublish, ht, ho]

theorem run_of_canPublish (settings : Settings) (s : Store) (h : targets ≠ [])
    (hpublish : (g.report config.validation c).canPublish = true) :
    ∃ t o s', RoutingTable.compile g settings = .ok t ∧
      config.publish.publish t targets s = (o, s') ∧
      config.run g settings c targets s = (.ok ⟨g.report config.validation c, t, o⟩, s') := by
  obtain ⟨t, ht⟩ := RoutingTable.exists_compile_of_canPublish settings hpublish
  exact ⟨t, _, _, ht, rfl, run_of_compile h hpublish ht rfl⟩

/-- A run that fails leaves the store alone, and does not fail in compilation. -/
theorem run_error {e : PublishError} {s' : Store}
    (hrun : config.run g settings c targets s = (.error e, s')) :
    (∀ e', e ≠ .badRoot e') ∧ s' = s := by
  by_cases h : targets = []
  · rw [run_of_no_targets h] at hrun
    cases hrun
    exact ⟨nofun, rfl⟩
  · cases hpublish : (g.report config.validation c).canPublish with
    | false =>
      rw [run_of_blocked h hpublish] at hrun
      cases hrun
      exact ⟨nofun, rfl⟩
    | true =>
      obtain ⟨_, _, _, _, _, hok⟩ := run_of_canPublish settings s h hpublish
      rw [hok] at hrun
      cases hrun

/-- A run that succeeds has published the table of its receipt. -/
theorem run_ok {r : Receipt} {s' : Store}
    (hrun : config.run g settings c targets s = (.ok r, s')) :
    config.publish.publish r.table targets s = (r.outcome, s') := by
  by_cases h : targets = []
  · rw [run_of_no_targets h] at hrun
    cases hrun
  · cases hpublish : (g.report config.validation c).canPublish with
    | false =>
      rw [run_of_blocked h hpublish] at hrun
      cases hrun
    | true =>
      obtain ⟨_, _, _, _, ho, hok⟩ := run_of_canPublish settings s h hpublish
      rw [hok] at hrun
      cases hrun
      exact ho

/-- A run is all or nothing up to the writes. -/
theorem run_all_or_nothing (config : EngineConfig) (g : Graph) (settings : Settings) (c : Context)
    (targets : List Target) (s : Store) :
    (targets = [] → config.run g settings c targets s = (.error .noTargets, s)) ∧
    (targets ≠ [] → (g.report config.validation c).canPublish = false →
      config.run g settings c targets s =
        (.error (.blocked (g.report config.validation c)), s)) ∧
    (targets ≠ [] → (g.report config.validation c).canPublish = true →
      ∃ t o s', RoutingTable.compile g settings = .ok t ∧
        config.publish.publish t targets s = (o, s') ∧
        config.run g settings c targets s =
          (.ok ⟨g.report config.validation c, t, o⟩, s')) ∧
    (∀ e s', config.run g settings c targets s = (.error e, s') →
      (∀ e', e ≠ .badRoot e') ∧ s' = s) :=
  ⟨run_of_no_targets, run_of_blocked, run_of_canPublish settings s, fun _ _ => run_error⟩

/-- The campaign goes out, though the write to one of its targets hangs. -/
theorem run_evenSplit :
    ∃ t o s', RoutingTable.compile .evenSplit .default = .ok t ∧
      EngineConfig.default.run .evenSplit .default Graph.evenSplitContext
          [.preview "spring", .customDomain "Example.org."]
          (Store.empty.behave "campaign:preview:spring" ⟨true, 0, none⟩) =
        (.ok ⟨Graph.evenSplit.report .default Graph.evenSplitContext, t, o⟩, s') ∧
      o.written = ["campaign:domain:example.org"] ∧
      o.failedKeys = ["campaign:preview:spring"] := by
  obtain ⟨t, o, s', ht, ho, hrun⟩ :=
    (run_all_or_nothing .default .evenSplit .default Graph.evenSplitContext
      [.preview "spring", .customDomain "Example.org."] _).2.2.1 (by decide)
      Graph.canPublish_evenSplit
  have hfst := congrArg Prod.fst ho
  subst hfst
  exact ⟨t, _, s', ht, hrun, rfl, rfl⟩

end CampaignRouting.EngineConfig
