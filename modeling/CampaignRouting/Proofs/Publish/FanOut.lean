import CampaignRouting.Proofs.SortedMap
import CampaignRouting.Publish.Publisher
import Mathlib.Data.List.Perm.Basic
import Mathlib.Logic.Relation

/-!
# Publication as writes side by side

All writes of a publication are under way at once, and any of them may be the next to end. A
`FanOut` is a publication between two such events. Each write keeps to its own key, so the order in
which they end makes no difference (`publish_eq_of_runs`), and what comes of them is told key by key
(`publish_settles`): every key of the targets is written once, and its write fails or not as the
store answers for this key alone.
-/

namespace CampaignRouting

/-! ## One write -/

namespace Behaviour

/-- Why a write fails that is given so much time. -/
def fault? (b : Behaviour) (limit : Nat) : Option StoreError :=
  if b.Late limit then some (.timeout limit) else b.failure

/-- A write fails exactly if there is something to fail for. -/
theorem result_eq (b : Behaviour) (limit : Nat) :
    b.result limit = (b.fault? limit).elim (.ok ()) .error := by
  unfold result fault?
  split
  · rfl
  · cases b.failure <;> rfl

end Behaviour

namespace Store

variable {limit : Nat} {s : Store} {key k text : String} {keys keys' : List String}

theorem puts_put : (s.put limit key text).puts = s.puts + 1 := rfl

@[simp] theorem behaviour_put : (s.put limit key text).behaviour k = s.behaviour k := rfl

/-- A write that succeeds changes its key alone, one that fails nothing. -/
theorem get?_put : (s.put limit key text).get? k =
    if k = key ∧ (s.behaviour key).fault? limit = none then some text else s.get? k := by
  rw [put, Behaviour.result_eq]
  cases (s.behaviour key).fault? limit with
  | none => simp [get?]
  | some e => simp [get?]

/-- Two writes of one text may change places, be they to one key. -/
theorem put_put_comm (s : Store) (limit : Nat) (k l text : String) :
    (s.put limit k text).put limit l text = (s.put limit l text).put limit k text := by
  simp only [put, behaviour]
  congr 1
  cases ((s.behaviours.get? k).getD .healthy).result limit <;>
    cases ((s.behaviours.get? l).getD .healthy).result limit <;>
    simp [SortedMap.insert_insert_comm s.entries k l]

/-- Puts one text under several keys, one after the other. -/
def putAll (s : Store) (limit : Nat) (text : String) (keys : List String) : Store :=
  keys.foldl (fun s key => s.put limit key text) s

theorem putAll_cons :
    s.putAll limit text (k :: keys) = (s.put limit k text).putAll limit text keys := rfl

theorem putAll_append :
    s.putAll limit text (keys ++ keys') = (s.putAll limit text keys).putAll limit text keys' :=
  List.foldl_append

/-- The order of writes makes no difference to the store. -/
theorem putAll_perm (h : keys.Perm keys') :
    s.putAll limit text keys = s.putAll limit text keys' :=
  h.foldl_eq' (fun k _ l _ s => s.put_put_comm limit k l text) s

theorem behaviours_putAll (s : Store) (limit : Nat) (text : String) (keys : List String) :
    (s.putAll limit text keys).behaviours = s.behaviours := by
  induction keys generalizing s with
  | nil => rfl
  | cons key keys ih => exact ih (s.put limit key text)

theorem puts_putAll (s : Store) (limit : Nat) (text : String) (keys : List String) :
    (s.putAll limit text keys).puts = s.puts + keys.length := by
  induction keys generalizing s with
  | nil => rfl
  | cons key keys ih =>
    rw [putAll_cons, ih, puts_put, List.length_cons]
    omega

/-- After all writes the text stands under the keys whose writes succeed. -/
theorem get?_putAll (s : Store) (limit : Nat) (text : String) (keys : List String) (k : String) :
    (s.putAll limit text keys).get? k =
      if k ∈ keys ∧ (s.behaviour k).fault? limit = none then some text else s.get? k := by
  induction keys generalizing s with
  | nil => simp [putAll]
  | cons key keys ih =>
    rw [putAll_cons, ih, behaviour_put, get?_put]
    grind

end Store

/-! ## The writes that are due -/

/-- The keys of the writes are those asked for, without repetitions. -/
theorem map_key_distinctWrites (taken : List String) (ws : List Write) :
    (distinctWrites taken ws).map (·.key) =
      ((ws.map (·.key)).filter (· ∉ taken)).eraseDups := by
  induction ws generalizing taken with
  | nil => simp [distinctWrites]
  | cons w ws ih =>
    rw [distinctWrites, List.map_cons]
    split
    · rw [ih, List.filter_cons_of_neg (by simpa)]
    · rw [List.map_cons, ih, List.filter_cons_of_pos (by simpa), List.eraseDups_cons,
        List.filter_filter]
      congr 2
      exact List.filter_congr fun k _ => by simp [beq_eq_decide]

/-- The first of several writes with one key is the one that is due. -/
theorem find?_distinctWrites (taken : List String) (ws : List Write) {key : String}
    (h : key ∉ taken) :
    (distinctWrites taken ws).find? (·.key = key) = ws.find? (·.key = key) := by
  induction ws generalizing taken with
  | nil => rfl
  | cons w ws ih =>
    rw [distinctWrites, List.find?_cons]
    by_cases hkey : w.key = key
    · rw [if_neg (hkey ▸ h), List.find?_cons]
      simp [hkey]
    · split
      · rw [ih _ h]
        simp [hkey]
      · rw [List.find?_cons, ih _ (by simp [h, Ne.symm hkey])]

theorem nodup_eraseDups (l : List String) : l.eraseDups.Nodup := by
  cases l with
  | nil => simp
  | cons a l =>
    rw [List.eraseDups_cons, List.nodup_cons]
    exact ⟨by simp [List.mem_eraseDups], nodup_eraseDups _⟩
termination_by l.length
decreasing_by exact Nat.lt_succ_of_le (List.length_filter_le ..)

/-- Writes with different keys are all due. -/
theorem distinctWrites_eq_self {taken : List String} {ws : List Write}
    (hnodup : (ws.map (·.key)).Nodup) (hfree : ∀ w ∈ ws, w.key ∉ taken) :
    distinctWrites taken ws = ws := by
  induction ws generalizing taken with
  | nil => rfl
  | cons w ws ih =>
    obtain ⟨hhead, hrest⟩ := List.nodup_cons.1 hnodup
    rw [distinctWrites, if_neg (hfree w (by simp)), ih hrest]
    intro v hv
    have hne : v.key ≠ w.key := fun h => hhead (List.mem_map.2 ⟨v, hv, h⟩)
    simp [hne, hfree v (List.mem_cons_of_mem _ hv)]

namespace PublishConfig

/-- The keys of some targets, each where it comes first. -/
def keys (config : PublishConfig) (targets : List Target) : List String :=
  (targets.map (·.key config)).eraseDups

variable {config : PublishConfig} {targets : List Target} {table : RoutingTable} {s : Store}

theorem mem_keys {k : String} : k ∈ config.keys targets ↔ ∃ t ∈ targets, t.key config = k := by
  rw [keys, List.mem_eraseDups, List.mem_map]

theorem nodup_keys (config : PublishConfig) (targets : List Target) :
    (config.keys targets).Nodup := nodup_eraseDups _

/-- There is one write for each key of the targets. -/
theorem map_key_writes (config : PublishConfig) (targets : List Target) :
    (config.writes targets).map (·.key) = config.keys targets := by
  rw [writes, map_key_distinctWrites, List.map_map, keys]
  simp [Function.comp_def]

theorem nodup_map_key_writes (config : PublishConfig) (targets : List Target) :
    ((config.writes targets).map (·.key)).Nodup :=
  config.map_key_writes targets ▸ config.nodup_keys targets

/-- A write that is due is for the first target with its key. -/
theorem find?_of_mem_writes {w : Write} (h : w ∈ config.writes targets) :
    targets.find? (·.key config = w.key) = some w.target := by
  have hfind : (config.writes targets).find? (·.key = w.key) = some w := by
    obtain ⟨before, after, hsplit⟩ := List.append_of_mem h
    have hnodup := config.nodup_map_key_writes targets
    rw [hsplit, List.map_append, List.map_cons, List.nodup_append] at hnodup
    rw [hsplit, List.find?_append, List.find?_eq_none.2, Option.none_or, List.find?_cons]
    · simp
    · intro v hv
      have hne := hnodup.2.2 v.key (List.mem_map.2 ⟨v, hv, rfl⟩) w.key (by simp)
      simpa using hne
  rw [writes, find?_distinctWrites _ _ (by simp), List.find?_map] at hfind
  obtain ⟨t, ht, rfl⟩ := Option.map_eq_some_iff.1 hfind
  simpa [Function.comp_def] using ht

end PublishConfig

/-! ## What is recorded -/

/-- How the store, as it is, would let a write fail. -/
def Write.failure? (limit : Nat) (s : Store) (w : Write) : Option FailedWrite :=
  ((s.behaviour w.key).fault? limit).map fun e => ⟨w.target, w.key, e⟩

namespace Outcome

/-- How some writes end. -/
def ofWrites (limit : Nat) (s : Store) (ws : List Write) : Outcome where
  written := (ws.map (·.key)).filter fun k => (s.behaviour k).fault? limit = none
  failed := ws.filterMap (·.failure? limit s)

/-- The outcome that is recorded write by write is that of all writes. -/
theorem foldr_record (limit : Nat) (s : Store) (ws : List Write) :
    ws.foldr (fun w => record w ((s.behaviour w.key).result limit)) empty =
      ofWrites limit s ws := by
  induction ws with
  | nil => rfl
  | cons w ws ih =>
    rw [List.foldr_cons, ih, Behaviour.result_eq, ofWrites, ofWrites, List.map_cons,
      List.filter_cons, List.filterMap_cons, Write.failure?]
    cases (s.behaviour w.key).fault? limit <;> rfl

theorem failedKeys_ofWrites (limit : Nat) (s : Store) (ws : List Write) :
    (ofWrites limit s ws).failedKeys =
      (ws.map (·.key)).filter fun k => (s.behaviour k).fault? limit ≠ none := by
  rw [failedKeys, ofWrites, List.map_filterMap, List.filter_map, ← List.filterMap_eq_map,
    ← List.filterMap_eq_filter, List.filterMap_filterMap]
  refine List.filterMap_congr fun w _ => ?_
  cases h : (s.behaviour w.key).fault? limit <;> simp [Write.failure?, h, Option.guard]

end Outcome

/-- A publication in closed form, in which its schedule does not appear. -/
theorem PublishConfig.publishIn_eq (config : PublishConfig) (schedule : Schedule)
    (table : RoutingTable) (targets : List Target) (s : Store) :
    config.publishIn schedule table targets s =
      (.ofWrites config.writeTimeout s (config.writes targets),
        s.putAll config.writeTimeout table.toText (config.keys targets)) := by
  rw [publishIn, Outcome.foldr_record, ← config.map_key_writes targets,
    ← Store.putAll_perm ((schedule.perm _).map _), Store.putAll, List.foldl_map]

/-! ## Side by side -/

/-- A publication under way. -/
structure FanOut where
  store : Store
  pending : List Write
  /-- The keys whose writes have ended, the last one first, and how each of them did. -/
  ended : List (String × Except StoreError Unit)

namespace FanOut

/-- No write has ended yet. -/
def start (ws : List Write) (s : Store) : FanOut := ⟨s, ws, []⟩

/-- Any write that is under way may be the next to end. -/
inductive Step (limit : Nat) (text : String) (f : FanOut) : FanOut → Prop where
  | ends {before after : List Write} {w : Write} (h : f.pending = before ++ w :: after) :
    Step limit text f
      ⟨f.store.put limit w.key text, before ++ after,
        (w.key, (f.store.behaviour w.key).result limit) :: f.ended⟩

/-- Any number of writes end one after the other. -/
def Runs (limit : Nat) (text : String) : FanOut → FanOut → Prop :=
  Relation.ReflTransGen (Step limit text)

/-- How the writes ended that have, in the order of the writes. -/
def outcome (f : FanOut) (ws : List Write) : Outcome :=
  ws.foldr (fun w o => (f.ended.lookup w.key).elim o (Outcome.record w · o)) .empty

variable {limit : Nat} {text : String} {ws : List Write} {s : Store} {f f' : FanOut}

/-- What a publication knows of its writes at any time, `s` being the store it began with. -/
structure Tracks (limit : Nat) (text : String) (ws : List Write) (s : Store) (f : FanOut) :
    Prop where
  keys : (f.ended.map (·.1) ++ f.pending.map (·.key)).Perm (ws.map (·.key))
  results : ∀ e ∈ f.ended, e.2 = (s.behaviour e.1).result limit
  store : f.store = s.putAll limit text (f.ended.map (·.1)).reverse

theorem tracks_start (limit : Nat) (text : String) (ws : List Write) (s : Store) :
    (start ws s).Tracks limit text ws s :=
  ⟨.refl _, nofun, rfl⟩

/-- One more write ends: it is pending no longer, and the store has taken it up. -/
theorem Tracks.step (h : f.Tracks limit text ws s) (hstep : Step limit text f f') :
    f'.Tracks limit text ws s := by
  cases hstep with
  | @ends before after w hsplit =>
    refine ⟨?_, fun e he => ?_, ?_⟩
    · refine .trans ?_ h.keys
      rw [hsplit, List.map_append, List.map_append, List.map_cons, List.map_cons,
        List.cons_append, ← List.append_assoc, ← List.append_assoc]
      exact List.perm_middle.symm
    · rcases List.mem_cons.1 he with rfl | he
      · rw [Store.behaviour, h.store, Store.behaviours_putAll]
        rfl
      · exact h.results e he
    · rw [List.map_cons, List.reverse_cons, Store.putAll_append, ← h.store]
      rfl

/-- What each step tracks, a whole run does. -/
theorem Tracks.runs (h : f.Tracks limit text ws s) (hruns : Runs limit text f f') :
    f'.Tracks limit text ws s := by
  induction hruns with
  | refl => exact h
  | tail _ hstep ih => exact ih.step hstep

/-- When no write is pending, the outcome is that of all writes. -/
theorem Tracks.outcome_eq (h : f.Tracks limit text ws s) (hnodup : (ws.map (·.key)).Nodup)
    (hdone : f.pending = []) : f.outcome ws = .ofWrites limit s ws := by
  have hkeys := h.keys
  rw [hdone, List.map_nil, List.append_nil] at hkeys
  have hended : (f.ended.map (·.1)).Nodup := hkeys.nodup_iff.2 hnodup
  rw [outcome, ← Outcome.foldr_record]
  refine List.foldr_ext _ _ _ fun w hw o => ?_
  obtain ⟨e, he, hkey⟩ := List.mem_map.1 (hkeys.mem_iff.2 (List.mem_map.2 ⟨w, hw, rfl⟩))
  have hlookup : f.ended.lookup w.key = some ((s.behaviour w.key).result limit) := by
    rw [lookup_eq_some_iff_mem hended, ← hkey, ← h.results e he]
    exact he
  rw [hlookup, Option.elim_some]

theorem Tracks.store_eq (h : f.Tracks limit text ws s) (hdone : f.pending = []) :
    f.store = s.putAll limit text (ws.map (·.key)) := by
  have hkeys := h.keys
  rw [hdone, List.map_nil, List.append_nil] at hkeys
  rw [h.store]
  exact Store.putAll_perm ((List.reverse_perm _).trans hkeys)

/-- The writes may end in any order. -/
theorem exists_runs_of_perm {order : List Write} (h : order.Perm f.pending) :
    ∃ f', Runs limit text f f' ∧ f'.pending = [] ∧
      f'.ended.map (·.1) = (order.map (·.key)).reverse ++ f.ended.map (·.1) := by
  induction order generalizing f with
  | nil => exact ⟨f, .refl, h.nil_eq.symm, by simp⟩
  | cons w order ih =>
    obtain ⟨before, after, hsplit⟩ := List.append_of_mem (h.mem_iff.1 List.mem_cons_self)
    have hrest : order.Perm (before ++ after) := by
      rw [hsplit] at h
      exact (List.perm_cons w).1 (h.trans List.perm_middle)
    obtain ⟨f', hruns, hdone, hended⟩ := ih (f := ⟨_, before ++ after, _⟩) hrest
    exact ⟨f', .head (.ends hsplit) hruns, hdone, by simp [hended]⟩

end FanOut

/-! ## What a publication comes to -/

/-- What has come of the publication of a table, told key by key. -/
structure Settles (config : PublishConfig) (table : RoutingTable) (targets : List Target)
    (s : Store) (o : Outcome) (s' : Store) : Prop where
  written : o.written =
    (config.keys targets).filter fun k => (s.behaviour k).fault? config.writeTimeout = none
  failedKeys : o.failedKeys =
    (config.keys targets).filter fun k => (s.behaviour k).fault? config.writeTimeout ≠ none
  /-- A failure is told of the first target with the key. -/
  target : ∀ f ∈ o.failed, targets.find? (·.key config = f.key) = some f.target
  error : ∀ f ∈ o.failed, (s.behaviour f.key).fault? config.writeTimeout = some f.error
  content : ∀ k, s'.get? k = if k ∈ o.written then some table.toText else s.get? k
  behaviours : s'.behaviours = s.behaviours
  puts : s'.puts = s.puts + (config.keys targets).length

namespace Settles

variable {config : PublishConfig} {table : RoutingTable} {targets : List Target}
  {s s' s₂ s₂' : Store} {o o₂ : Outcome}

/-- No key is lost between those written and those that failed. -/
theorem perm (h : Settles config table targets s o s') :
    (o.written ++ o.failedKeys).Perm (config.keys targets) := by
  rw [h.written, h.failedKeys]
  simpa using List.filter_append_perm
    (fun k => decide ((s.behaviour k).fault? config.writeTimeout = none)) (config.keys targets)

theorem nodup (h : Settles config table targets s o s') : (o.written ++ o.failedKeys).Nodup :=
  h.perm.nodup_iff.2 (config.nodup_keys targets)

theorem mem_or_mem (h : Settles config table targets s o s') {k : String} :
    k ∈ o.written ∨ k ∈ o.failedKeys ↔ ∃ t ∈ targets, t.key config = k := by
  rw [← List.mem_append, h.perm.mem_iff, PublishConfig.mem_keys]

/-- A failure is told of the first target with its key, and for the reason of the store. -/
theorem mem_failed_iff (h : Settles config table targets s o s') {f : FailedWrite} :
    f ∈ o.failed ↔ targets.find? (·.key config = f.key) = some f.target ∧
      (s.behaviour f.key).fault? config.writeTimeout = some f.error := by
  refine ⟨fun hf => ⟨h.target f hf, h.error f hf⟩, fun ⟨htarget, herror⟩ => ?_⟩
  have hkey : f.key ∈ o.failedKeys := by
    rw [h.failedKeys, List.mem_filter, PublishConfig.mem_keys]
    refine ⟨⟨f.target, List.mem_of_find?_eq_some htarget, ?_⟩, by simp [herror]⟩
    simpa using List.find?_some htarget
  obtain ⟨f', hf', hkey⟩ := List.mem_map.1 hkey
  have htarget' := h.target f' hf'
  have herror' := h.error f' hf'
  rw [hkey, htarget, Option.some.injEq] at htarget'
  rw [hkey, herror, Option.some.injEq] at herror'
  obtain ⟨t, k, e⟩ := f
  obtain ⟨t', k', e'⟩ := f'
  simp only at hkey htarget' herror'
  exact hkey ▸ htarget' ▸ herror' ▸ hf'

/-- How the write to a key ends depends on the answers for this key alone. -/
theorem congr_key (h : Settles config table targets s o s')
    (h₂ : Settles config table targets s₂ o₂ s₂') {k : String}
    (hk : s₂.behaviour k = s.behaviour k) :
    (k ∈ o₂.written ↔ k ∈ o.written) ∧
      ∀ f : FailedWrite, f.key = k → (f ∈ o₂.failed ↔ f ∈ o.failed) := by
  refine ⟨by simp [h.written, h₂.written, hk], fun f hf => ?_⟩
  rw [h.mem_failed_iff, h₂.mem_failed_iff, hf, hk]

end Settles

/-- A publication settles all keys of its targets. -/
theorem PublishConfig.publish_settles (config : PublishConfig) (table : RoutingTable)
    (targets : List Target) (s : Store) :
    Settles config table targets s (config.publish table targets s).1
      (config.publish table targets s).2 := by
  rw [publish, publishIn_eq]
  have hfailed : ∀ f ∈ (Outcome.ofWrites config.writeTimeout s (config.writes targets)).failed,
      targets.find? (·.key config = f.key) = some f.target ∧
        (s.behaviour f.key).fault? config.writeTimeout = some f.error := by
    intro f hf
    obtain ⟨w, hw, hfail⟩ := List.mem_filterMap.1 hf
    obtain ⟨e, he, rfl⟩ := Option.map_eq_some_iff.1 hfail
    exact ⟨find?_of_mem_writes hw, he⟩
  refine ⟨?_, ?_, fun f hf => (hfailed f hf).1, fun f hf => (hfailed f hf).2, fun k => ?_, ?_, ?_⟩
  · rw [Outcome.ofWrites, map_key_writes]
  · rw [Outcome.failedKeys_ofWrites, map_key_writes]
  · simp [Store.get?_putAll, Outcome.ofWrites, map_key_writes]
  · exact Store.behaviours_putAll ..
  · exact Store.puts_putAll ..

namespace Outcome

theorem status_eq_published_iff {o : Outcome} : o.status = .published ↔ o.failedKeys = [] := by
  cases hf : o.failed <;> cases hw : o.written <;> simp [status, Complete, failedKeys, hf, hw]

theorem status_eq_nothingPublished_iff {o : Outcome} :
    o.status = .nothingPublished ↔ o.failedKeys ≠ [] ∧ o.written = [] := by
  cases hf : o.failed <;> cases hw : o.written <;> simp [status, Complete, failedKeys, hf, hw]

theorem status_eq_partly_iff {o : Outcome} :
    o.status = .partly ↔ o.failedKeys ≠ [] ∧ o.written ≠ [] := by
  cases hf : o.failed <;> cases hw : o.written <;> simp [status, Complete, failedKeys, hf, hw]

end Outcome

namespace FanOut

variable {config : PublishConfig} {table : RoutingTable} {targets : List Target} {s : Store}
  {f : FanOut}

/-- In whatever order the writes end, publication comes to the same. -/
theorem publish_eq_of_runs
    (hruns : Runs config.writeTimeout table.toText (start (config.writes targets) s) f)
    (hdone : f.pending = []) :
    (f.outcome (config.writes targets), f.store) = config.publish table targets s := by
  have h := (tracks_start _ _ _ s).runs hruns
  rw [h.outcome_eq (config.nodup_map_key_writes targets) hdone, h.store_eq hdone,
    config.map_key_writes, PublishConfig.publish, PublishConfig.publishIn_eq]

theorem perm_keys_of_runs
    (hruns : Runs config.writeTimeout table.toText (start (config.writes targets) s) f)
    (hdone : f.pending = []) : (f.ended.map (·.1)).Perm (config.keys targets) := by
  have h := ((tracks_start _ _ _ s).runs hruns).keys
  rwa [hdone, List.map_nil, List.append_nil, config.map_key_writes] at h

/-- What a publication comes to all writes of which have ended: there is one write for each key of
the targets, each key is either written or reported with its first target and the reason, as the
store answers for that key, and the store holds the table under the keys that are written and is
otherwise as before. -/
structure Conserves (config : PublishConfig) (table : RoutingTable) (targets : List Target)
    (s : Store) (f : FanOut) (o : Outcome) : Prop where
  /-- It comes to the same as if the writes had ended in the order of their delays. -/
  publish_eq : (o, f.store) = config.publish table targets s
  writesEach : (f.ended.map (·.1)).Perm (config.keys targets)
  settles : Settles config table targets s o f.store
  nodup : (o.written ++ o.failedKeys).Nodup
  mem_or_mem : ∀ k, k ∈ o.written ∨ k ∈ o.failedKeys ↔ ∃ t ∈ targets, t.key config = k
  /-- What becomes of a key depends on the answers for this key alone. -/
  congr_key : ∀ s₂ k, s₂.behaviour k = s.behaviour k →
    (k ∈ (config.publish table targets s₂).1.written ↔ k ∈ o.written) ∧
    ∀ w : FailedWrite, w.key = k →
      (w ∈ (config.publish table targets s₂).1.failed ↔ w ∈ o.failed)
  published : o.status = .published ↔ o.failedKeys = []
  nothingPublished : o.status = .nothingPublished ↔ o.failedKeys ≠ [] ∧ o.written = []
  partly : o.status = .partly ↔ o.failedKeys ≠ [] ∧ o.written ≠ []

theorem conserves_of_runs
    (hruns : Runs config.writeTimeout table.toText (start (config.writes targets) s) f)
    (hdone : f.pending = []) :
    Conserves config table targets s f (f.outcome (config.writes targets)) := by
  have hpublish := publish_eq_of_runs hruns hdone
  have hsettles := config.publish_settles table targets s
  rw [← hpublish] at hsettles
  exact {
    publish_eq := hpublish
    writesEach := perm_keys_of_runs hruns hdone
    settles := hsettles
    nodup := hsettles.nodup
    mem_or_mem := fun _ => hsettles.mem_or_mem
    congr_key := fun s₂ _ => hsettles.congr_key (config.publish_settles table targets s₂)
    published := Outcome.status_eq_published_iff
    nothingPublished := Outcome.status_eq_nothingPublished_iff
    partly := Outcome.status_eq_partly_iff }

/-- Publication of a table. The writes may end in any order, and in whatever order they do, it comes
to the same. -/
theorem publication_conserves_keys (config : PublishConfig) (table : RoutingTable)
    (targets : List Target) (s : Store) :
    (∀ order : List Write, order.Perm (config.writes targets) →
      ∃ f, Runs config.writeTimeout table.toText (start (config.writes targets) s) f ∧
        f.pending = [] ∧ f.ended.map (·.1) = (order.map (·.key)).reverse) ∧
    ∀ f, Runs config.writeTimeout table.toText (start (config.writes targets) s) f →
      f.pending = [] → Conserves config table targets s f (f.outcome (config.writes targets)) := by
  refine ⟨fun order horder => ?_, fun f => conserves_of_runs⟩
  obtain ⟨f, hruns, hdone, hended⟩ := exists_runs_of_perm (f := start _ s) horder
  exact ⟨f, hruns, hdone, by simpa [start] using hended⟩

/-- Two spellings of one host and a preview whose write hangs, and which is the first to be given
up. -/
theorem publication_past_hanging_preview :
    let targets : List Target :=
      [.customDomain "Example.org.", .preview "spring", .customDomain "example.org"]
    let s := Store.empty.behave "campaign:preview:spring" ⟨true, 0, none⟩
    let ws := PublishConfig.default.writes targets
    ∃ f, Runs PublishConfig.default.writeTimeout RoutingTable.empty.toText (start ws s) f ∧
      f.pending = [] ∧
      f.ended.map (·.1) = ["campaign:domain:example.org", "campaign:preview:spring"] ∧
      (f.outcome ws).written = ["campaign:domain:example.org"] ∧
      (f.outcome ws).status = .partly := by
  intro targets s ws
  obtain ⟨horders, hends⟩ :=
    publication_conserves_keys .default .empty targets s
  obtain ⟨f, hruns, hdone, hended⟩ := horders ws.reverse (List.reverse_perm _)
  have h := hends f hruns hdone
  have ho : f.outcome ws = (PublishConfig.default.publish .empty targets s).1 :=
    congrArg Prod.fst h.publish_eq
  refine ⟨f, hruns, hdone, hended.trans rfl, ho ▸ rfl, h.partly.2 ?_⟩
  exact ⟨ho ▸ by decide, ho ▸ by decide⟩

end FanOut
end CampaignRouting
