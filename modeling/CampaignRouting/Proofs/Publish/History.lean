import CampaignRouting.Proofs.Publish.FanOut
import CampaignRouting.Proofs.Publish.Pipeline
import CampaignRouting.Publish.Session

/-!
# What publications leave in the store

Any number of publishers publish tables, take campaigns the whole way and retry what has failed at
any time before, while the store answers as it likes. The outcomes they are told are a complete
account of the store (`Operation.follows_history`): under each key stands the table of the last
publication that lists the key as written, and every write that was begun is listed somewhere. A
session does such operations and nothing else (`store_run`), so the same holds of its store
(`store_follows_history`).
-/

namespace CampaignRouting

/-- A publication that has come to its end. -/
structure Publication where
  table : RoutingTable
  outcome : Outcome

namespace Publication

/-- What stands under a key after some publications, the last of which is the last in the list. -/
def text? (k : String) : List Publication → Option String
  | [] => none
  | p :: ps => (text? k ps).or (if k ∈ p.outcome.written then some p.table.toText else none)

/-- The number of writes. -/
def size (p : Publication) : Nat := p.outcome.written.length + p.outcome.failed.length

theorem text?_eq_none_iff {k : String} {ps : List Publication} :
    text? k ps = none ↔ ∀ p ∈ ps, k ∉ p.outcome.written := by
  induction ps with
  | nil => simp [text?]
  | cons p ps ih => simp [text?, ih, and_comm]

theorem isSome_text?_iff {k : String} {ps : List Publication} :
    (text? k ps).isSome ↔ ∃ p ∈ ps, k ∈ p.outcome.written := by
  rw [← Option.ne_none_iff_isSome, Ne, text?_eq_none_iff]
  push Not
  rfl

/-- The last publication that has written a key counts. -/
theorem text?_eq_some_iff {k v : String} {ps : List Publication} :
    text? k ps = some v ↔ ∃ before p after, ps = before ++ p :: after ∧
      k ∈ p.outcome.written ∧ (∀ q ∈ after, k ∉ q.outcome.written) ∧ v = p.table.toText := by
  induction ps with
  | nil => simp [text?]
  | cons p ps ih =>
    rw [text?, Option.or_eq_some_iff, ih, text?_eq_none_iff]
    constructor
    · rintro (⟨before, q, after, rfl, hq⟩ | ⟨hnone, hp⟩)
      · exact ⟨p :: before, q, after, rfl, hq⟩
      · split at hp
        · next hk => exact ⟨[], p, ps, rfl, hk, hnone, (Option.some.inj hp).symm⟩
        · cases hp
    · rintro ⟨before, q, after, hsplit, hk, hafter, rfl⟩
      cases before with
      | nil =>
        obtain ⟨rfl, rfl⟩ := List.cons.inj hsplit
        exact .inr ⟨hafter, by rw [if_pos hk]⟩
      | cons b before =>
        obtain ⟨rfl, rfl⟩ := List.cons.inj hsplit
        exact .inl ⟨before, q, after, rfl, hk, hafter, rfl⟩

end Publication

/-- The store is as some publications say that they have left it, if it was empty at first. -/
structure Store.Follows (s : Store) (ps : List Publication) : Prop where
  holds : ∀ k, (s.get? k).isSome ↔ ∃ p ∈ ps, k ∈ p.outcome.written
  /-- A key holds the table of the last publication that has written it. -/
  last : ∀ k v, s.get? k = some v ↔ ∃ before p after, ps = before ++ p :: after ∧
    k ∈ p.outcome.written ∧ (∀ q ∈ after, k ∉ q.outcome.written) ∧ v = p.table.toText
  puts : s.puts = (ps.map fun p => p.outcome.written.length + p.outcome.failed.length).sum

theorem Store.follows_of_text? {s : Store} {ps : List Publication}
    (hget : ∀ k, s.get? k = Publication.text? k ps) (hputs : s.puts = (ps.map (·.size)).sum) :
    s.Follows ps where
  holds k := by rw [hget, Publication.isSome_text?_iff]
  last k v := by rw [hget, Publication.text?_eq_some_iff]
  puts := hputs

namespace Session

/-! ## One operation -/

namespace Operation

variable {s : Store} {op : Operation}

/-- The publication that an operation makes, if it makes one. -/
def publication? (s : Store) : Operation → Option Publication
  | behave _ _ => none
  | publish config table targets => some ⟨table, (config.publish table targets s).1⟩
  | retry config table before => some ⟨table, (config.retry table before s).1⟩
  | run config g settings c targets =>
    match (config.run g settings c targets s).1 with
    | .ok r => some ⟨r.table, r.outcome⟩
    | .error _ => none

/-- An operation leaves what the store holds alone, or makes one publication. -/
theorem publication?_cases (s : Store) (op : Operation) :
    (op.publication? s = none ∧ (op.apply s).2.entries = s.entries ∧
      (op.apply s).2.puts = s.puts) ∨
    ∃ p config targets, op.publication? s = some p ∧
      Settles config p.table targets s p.outcome (op.apply s).2 := by
  cases op with
  | behave key b => exact .inl ⟨rfl, rfl, rfl⟩
  | publish config table targets =>
    exact .inr ⟨_, config, targets, rfl, config.publish_settles table targets s⟩
  | retry config table before =>
    exact .inr ⟨_, config, _, rfl, config.publish_settles table _ s⟩
  | run config g settings c targets =>
    match hrun : config.run g settings c targets s with
    | (.ok r, s') =>
      have hsettles := config.publish.publish_settles r.table targets s
      rw [EngineConfig.run_ok hrun] at hsettles
      refine .inr ⟨⟨r.table, r.outcome⟩, config.publish, targets, ?_, ?_⟩
      · rw [publication?, hrun]
      · rwa [apply, hrun]
    | (.error e, s') =>
      obtain ⟨-, rfl⟩ := EngineConfig.run_error hrun
      exact .inl ⟨by rw [publication?, hrun], by rw [apply, hrun], by rw [apply, hrun]⟩

/-- A run that fails changes nothing at all. -/
theorem apply_of_failed {e : PublishError} (h : (op.apply s).1 = .failed e) :
    (op.apply s).2 = s := by
  cases op with
  | run config g settings c targets =>
    match hrun : config.run g settings c targets s with
    | (.ok r, s') =>
      rw [apply, hrun] at h
      cases h
    | (.error e', s') =>
      obtain ⟨-, rfl⟩ := EngineConfig.run_error hrun
      rw [apply, hrun]
  | behave | publish | retry => cases h

theorem apply_of_none (h : op.publication? s = none) :
    (op.apply s).2.entries = s.entries ∧ (op.apply s).2.puts = s.puts := by
  rcases publication?_cases s op with ⟨-, hstore⟩ | ⟨p, _, _, hp, -⟩
  · exact hstore
  · exact absurd (h.symm.trans hp) nofun

/-- A write that fails is not listed as written, and leaves its key alone. -/
theorem get?_of_failed {p : Publication} {f : FailedWrite} (hp : op.publication? s = some p)
    (hf : f ∈ p.outcome.failed) :
    f.key ∉ p.outcome.written ∧ (op.apply s).2.get? f.key = s.get? f.key := by
  rcases publication?_cases s op with ⟨hnone, -⟩ | ⟨p', _, _, hp', hsettles⟩
  · exact absurd (hp.symm.trans hnone) nofun
  · cases hp.symm.trans hp'
    have hkey : f.key ∉ p.outcome.written := fun hk =>
      (List.nodup_append.1 hsettles.nodup).2.2 _ hk _ (List.mem_map.2 ⟨f, hf, rfl⟩) rfl
    exact ⟨hkey, by rw [hsettles.content, if_neg hkey]⟩

theorem get?_apply (s : Store) (op : Operation) (k : String) :
    (op.apply s).2.get? k =
      (Publication.text? k (op.publication? s).toList).or (s.get? k) := by
  rcases publication?_cases s op with ⟨hp, hentries, -⟩ | ⟨p, config, targets, hp, hsettles⟩
  · rw [hp, Store.get?, hentries]
    rfl
  · rw [hp, hsettles.content]
    by_cases hk : k ∈ p.outcome.written <;> simp [Publication.text?, hk]

theorem puts_apply (s : Store) (op : Operation) :
    (op.apply s).2.puts = s.puts + ((op.publication? s).toList.map (·.size)).sum := by
  rcases publication?_cases s op with ⟨hp, -, hputs⟩ | ⟨p, config, targets, hp, hsettles⟩
  · simp [hp, hputs]
  · have hlength := hsettles.perm.length_eq
    rw [List.length_append, Outcome.failedKeys, List.length_map] at hlength
    simp [hp, hsettles.puts, Publication.size, hlength]

/-! ## Any number of operations -/

/-- The store after some operations. -/
def applyAll (s : Store) (ops : List Operation) : Store :=
  ops.foldl (fun s op => (op.apply s).2) s

/-- The publications that some operations make. -/
def history (s : Store) : List Operation → List Publication
  | [] => []
  | op :: ops => (op.publication? s).toList ++ history (op.apply s).2 ops

theorem applyAll_append (s : Store) (ops later : List Operation) :
    applyAll s (ops ++ later) = applyAll (applyAll s ops) later :=
  List.foldl_append

theorem history_append (s : Store) (ops later : List Operation) :
    history s (ops ++ later) = history s ops ++ history (applyAll s ops) later := by
  induction ops generalizing s with
  | nil => rfl
  | cons op ops ih =>
    rw [List.cons_append, history, ih, history, List.append_assoc]
    rfl

theorem get?_applyAll (s : Store) (ops : List Operation) (k : String) :
    (applyAll s ops).get? k = (Publication.text? k (history s ops)).or (s.get? k) := by
  induction ops generalizing s with
  | nil => rfl
  | cons op ops ih =>
    rw [applyAll, List.foldl_cons, ← applyAll, ih, get?_apply, history, ← Option.or_assoc]
    congr 1
    cases op.publication? s <;> simp [Publication.text?]

theorem puts_applyAll (s : Store) (ops : List Operation) :
    (applyAll s ops).puts = s.puts + ((history s ops).map (·.size)).sum := by
  induction ops generalizing s with
  | nil => rfl
  | cons op ops ih =>
    rw [applyAll, List.foldl_cons, ← applyAll, ih, puts_apply, history, List.map_append,
      List.sum_append]
    omega

/-- What is in the store stays there. -/
theorem isSome_get?_applyAll {k : String} (ops : List Operation) (h : (s.get? k).isSome) :
    ((applyAll s ops).get? k).isSome := by
  rw [get?_applyAll, Option.isSome_or, h, Bool.or_true]

/-- Whatever is done to a store that was empty, the outcomes account for all that it holds, and for
every write. -/
theorem follows_history (ops : List Operation) :
    (applyAll .empty ops).Follows (history .empty ops) :=
  Store.follows_of_text? (fun k => (get?_applyAll .empty ops k).trans Option.or_none)
    ((puts_applyAll .empty ops).trans (Nat.zero_add _))

end Operation

/-! ## Sessions -/

variable {s : Session} {step : Step}

/-- What a step does to the store. -/
def operation? (s : Session) : Step → Option Operation
  | .behave key b => some (.behave key b)
  | .take _ => none
  | .publish publisher targets => some (.publish (s.publishConfig publisher) s.table targets)
  | .retry publisher => some (.retry (s.publishConfig publisher) s.table s.last)
  | .run g settings c targets => some (.run s.config g settings c targets)

/-- The publication that a step makes, if it makes one. -/
def publication? (s : Session) (step : Step) : Option Publication :=
  match (s.step step).1 with
  | .done | .failed _ => none
  | .outcome o => some ⟨s.table, o⟩
  | .receipt r => some ⟨r.table, r.outcome⟩

/-- The session after some steps. -/
def run (s : Session) (steps : List Step) : Session :=
  steps.foldl (fun s step => (s.step step).2) s

/-- The publications that some steps make. -/
def history (s : Session) : List Step → List Publication
  | [] => []
  | step :: steps => (s.publication? step).toList ++ (s.step step).2.history steps

/-- What some steps do to the store. -/
def operations (s : Session) : List Step → List Operation
  | [] => []
  | step :: steps => (s.operation? step).toList ++ (s.step step).2.operations steps

theorem step_of_operation {op : Operation} (h : s.operation? step = some op) :
    s.step step = s.perform op := by
  cases step with
  | take => cases h
  | behave | publish | retry | run =>
    cases h
    rfl

theorem step_of_no_operation (h : s.operation? step = none) :
    (s.step step).2.store = s.store ∧ (s.step step).1 = .done := by
  cases step with
  | take => exact ⟨rfl, rfl⟩
  | behave | publish | retry | run => cases h

theorem config_step (s : Session) (step : Step) : (s.step step).2.config = s.config := by
  cases hop : s.operation? step with
  | none =>
    cases step with
    | take => rfl
    | behave | publish | retry | run => cases hop
  | some op =>
    rw [step_of_operation hop]
    change (s.noting (op.apply s.store).1).config = s.config
    cases (op.apply s.store).1 <;> rfl

theorem store_step (s : Session) (step : Step) :
    (s.step step).2.store = Operation.applyAll s.store (s.operation? step).toList := by
  cases h : s.operation? step with
  | none => exact (step_of_no_operation h).1
  | some op =>
    rw [step_of_operation h]
    rfl

theorem publication?_eq (s : Session) (step : Step) :
    s.publication? step = (s.operation? step).bind (·.publication? s.store) := by
  cases step with
  | run g settings c targets =>
    match hrun : s.config.run g settings c targets s.store with
    | (.ok r, store) =>
      simp [publication?, Session.step, perform, operation?, Operation.publication?,
        Operation.apply, hrun]
    | (.error e, store) =>
      simp [publication?, Session.step, perform, operation?, Operation.publication?,
        Operation.apply, hrun]
  | behave | take | publish | retry => rfl

theorem publication?_toList (s : Session) (step : Step) :
    (s.publication? step).toList = Operation.history s.store (s.operation? step).toList := by
  rw [publication?_eq]
  cases s.operation? step with
  | none => rfl
  | some op => exact (List.append_nil _).symm

/-- A run that fails leaves the whole session alone. -/
theorem step_of_failed {e : PublishError} (h : (s.step step).1 = .failed e) :
    (s.step step).2 = s := by
  cases hop : s.operation? step with
  | none => exact absurd ((step_of_no_operation hop).2.symm.trans h) nofun
  | some op =>
    rw [step_of_operation hop] at h ⊢
    have hreply : (op.apply s.store).1 = .failed e := h
    calc (s.perform op).2
        = { s.noting (op.apply s.store).1 with store := (op.apply s.store).2 } := rfl
      _ = { s.noting (.failed e) with store := s.store } := by
        rw [hreply, Operation.apply_of_failed hreply]
      _ = s := rfl

/-- A session does some operations to its store, and nothing else. -/
theorem store_run (s : Session) (steps : List Step) :
    (s.run steps).store = Operation.applyAll s.store (s.operations steps) := by
  induction steps generalizing s with
  | nil => rfl
  | cons step steps ih =>
    rw [run, List.foldl_cons, ← run, ih, store_step, operations, Operation.applyAll_append]

theorem config_run (s : Session) (steps : List Step) : (s.run steps).config = s.config := by
  induction steps generalizing s with
  | nil => rfl
  | cons step steps ih =>
    rw [run, List.foldl_cons, ← run, ih, config_step]

theorem history_eq (s : Session) (steps : List Step) :
    s.history steps = Operation.history s.store (s.operations steps) := by
  induction steps generalizing s with
  | nil => rfl
  | cons step steps ih =>
    rw [history, ih, store_step, publication?_toList, operations, Operation.history_append]

/-- A run whose report forbids it fails with that report. -/
theorem step_run_of_blocked {g : Graph} {c : Context} {targets : List Target} (settings : Settings)
    (h : targets ≠ []) (hblocked : (g.report s.config.validation c).canPublish = false) :
    (s.step (.run g settings c targets)).1 =
      .failed (.blocked (g.report s.config.validation c)) := by
  change ((Operation.run s.config g settings c targets).apply s.store).1 = _
  rw [Operation.apply, EngineConfig.run_of_blocked h hblocked]

/-- A run whose report allows it publishes the compiled campaign. -/
theorem publication?_run_of_canPublish {g : Graph} {c : Context} {targets : List Target}
    (settings : Settings) (h : targets ≠ [])
    (hpublish : (g.report s.config.validation c).canPublish = true) :
    ∃ t, RoutingTable.compile g settings = .ok t ∧ s.publication? (.run g settings c targets) =
      some ⟨t, (s.config.publish.publish t targets s.store).1⟩ := by
  obtain ⟨t, o, s', ht, ho, hrun⟩ := EngineConfig.run_of_canPublish settings s.store h hpublish
  refine ⟨t, ht, ?_⟩
  rw [publication?_eq, operation?, Option.bind_some, Operation.publication?, hrun, ho]

/-- The store of a session is as some publications say, and whatever may come next, it is only
changed by writes that succeed. -/
structure FollowsHistory (s : Session) (ps : List Publication) : Prop where
  follows : s.store.Follows ps
  keeps : ∀ later k, (s.store.get? k).isSome → ((s.run later).store.get? k).isSome
  failed : ∀ step e, (s.step step).1 = .failed e → (s.step step).2 = s
  /-- Nor does a step change what the store holds that publishes nothing. -/
  idle : ∀ step, s.publication? step = none →
    (s.step step).2.store.entries = s.store.entries ∧ (s.step step).2.store.puts = s.store.puts
  failedWrite : ∀ step p, s.publication? step = some p → ∀ f ∈ p.outcome.failed,
    f.key ∉ p.outcome.written ∧ (s.step step).2.store.get? f.key = s.store.get? f.key

/-- The outcomes that a session has been told account for all that its store holds, and for every
write. -/
theorem store_follows_history (config : EngineConfig) (standard : PublishConfig)
    (steps : List Step) : ((startWith config standard).run steps).FollowsHistory
      ((startWith config standard).history steps) where
  follows := by
    rw [store_run, history_eq]
    exact Operation.follows_history _
  keeps later k h := by
    rw [store_run]
    exact Operation.isSome_get?_applyAll _ h
  failed _ _ := step_of_failed
  idle step h := by
    rw [store_step]
    rw [publication?_eq] at h
    cases hop : operation? _ step with
    | none => exact ⟨rfl, rfl⟩
    | some op => exact Operation.apply_of_none (by rwa [hop] at h)
  failedWrite step p hp f hf := by
    rw [publication?_eq] at hp
    obtain ⟨op, hop, hp⟩ := Option.bind_eq_some_iff.1 hp
    rw [store_step, hop]
    exact Operation.get?_of_failed hp hf

/-- A preview that hangs is retried by the other publisher, under a key of its own, which outlives
a run that is blocked by its report and one that goes through. -/
theorem store_follows_retried_preview :
    let start := startWith .default ⟨"stage", 250⟩
    let hang := Step.behave "campaign:preview:spring" ⟨true, 0, none⟩
    let publish := Step.publish .own [.preview "spring"]
    let steps := [hang, publish, .retry .standard]
    let s := start.run steps
    let blocked := Step.run .evenSplit .default .empty [.preview "spring"]
    let through :=
      Step.run .evenSplit .default Graph.evenSplitContext [.customDomain "Example.org."]
    ((start.run [hang]).step publish).2.store.get? "campaign:preview:spring" =
      (start.run [hang]).store.get? "campaign:preview:spring" ∧
    s.store.keys = ["stage:preview:spring"] ∧ s.store.puts = 2 ∧ (s.step blocked).2 = s ∧
    ((s.run [blocked, through]).store.get? "stage:preview:spring").isSome ∧
    ∃ t, RoutingTable.compile .evenSplit .default = .ok t ∧
      (start.run (steps ++ [through])).store.get? "campaign:domain:example.org" =
        some t.toText := by
  intro start hang publish steps s blocked through
  have hhang := store_follows_history .default ⟨"stage", 250⟩ [hang]
  have hs := store_follows_history .default ⟨"stage", 250⟩ steps
  have hall := store_follows_history .default ⟨"stage", 250⟩ (steps ++ [through])
  have hkeys : s.store.keys = ["stage:preview:spring"] := by decide +kernel
  have hputs : s.store.puts = 2 := by decide +kernel
  have hsome : (s.store.get? "stage:preview:spring").isSome := by decide +kernel
  have htimeout := hhang.failedWrite publish _ rfl ⟨.preview "spring", _, .timeout 5000⟩ (.head _)
  have hconfig : s.config = .default := config_run start steps
  have hpages : (Graph.evenSplit.report s.config.validation .empty).canPublish = false :=
    Bool.eq_false_iff.2 fun h => absurd (Graph.canPublish_report.1 h).2.2.1 (by decide)
  have hblocked :=
    step_run_of_blocked .default (List.cons_ne_nil (Target.preview "spring") []) hpages
  have hpublish :
      (Graph.evenSplit.report s.config.validation Graph.evenSplitContext).canPublish = true := by
    rw [hconfig]
    exact Graph.canPublish_evenSplit
  obtain ⟨t, ht, hthrough⟩ := publication?_run_of_canPublish .default
    (List.cons_ne_nil (Target.customDomain "Example.org.") []) hpublish
  have hhistory : start.history (steps ++ [through]) = start.history steps ++ [⟨t, _⟩] :=
    congrArg (fun p => start.history steps ++ (p.toList ++ [])) hthrough
  have hwritten : "campaign:domain:example.org" ∈
      (s.config.publish.publish t [.customDomain "Example.org."] s.store).1.written := by
    rw [(s.config.publish.publish_settles t _ s.store).written, hconfig]
    decide +kernel
  refine ⟨htimeout.2, hkeys, hputs, hs.failed blocked _ hblocked, hs.keeps _ _ hsome, t, ht, ?_⟩
  exact (hall.follows.last _ _).2 ⟨_, _, [], hhistory, hwritten, nofun, rfl⟩

end Session
end CampaignRouting
