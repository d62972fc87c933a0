import CampaignRouting.Proofs.Publish.FanOut
import Mathlib.Data.List.Chain

/-!
# Retries

What a publication leaves undone can be tried again, and again, while the store answers as it
likes. A retry finds its keys by way of the targets of the failures, which are those that failed
(`keys_retry`), so it splits the keys that are still open into those it writes and those it leaves
(`retry_follows`). A chain of such calls therefore deals every key of the first targets out to one
call, or leaves it open to the end (`retries_converge`).
-/

namespace CampaignRouting

/-- The store with other answers from now on. -/
def Store.answering (s : Store) (behaviours : SortedMap Behaviour) : Store := { s with behaviours }

namespace PublishConfig

/-- Retries, one after the other, each of what the call before it has left undone. Before each of
them the store may take up other answers. -/
def retries (config : PublishConfig) (table : RoutingTable) :
    Outcome × Store → List (SortedMap Behaviour) → List (Outcome × Store)
  | _, [] => []
  | before, behaviours :: later =>
    let call := config.retry table before.1 (before.2.answering behaviours)
    call :: config.retries table call later

/-- A publication and the retries after it. -/
def calls (config : PublishConfig) (table : RoutingTable) (targets : List Target) (s : Store)
    (answers : List (SortedMap Behaviour)) : List (Outcome × Store) :=
  config.publish table targets s :: config.retries table (config.publish table targets s) answers

end PublishConfig

/-! ## One retry -/

/-- The failures are of different keys, and tell these by their targets. -/
structure Outcome.Retryable (o : Outcome) (config : PublishConfig) : Prop where
  key_target : ∀ f ∈ o.failed, f.target.key config = f.key
  nodup : o.failedKeys.Nodup

variable {config : PublishConfig} {table : RoutingTable} {targets : List Target} {s s' : Store}
  {o : Outcome}

theorem Settles.retryable (h : Settles config table targets s o s') : o.Retryable config where
  key_target f hf := by simpa using List.find?_some (h.target f hf)
  nodup := (List.nodup_append.1 h.nodup).2.1

/-- The writes of a retry are those that failed, in the same order. -/
theorem Outcome.Retryable.writes_retry (h : o.Retryable config) :
    config.writes (o.failed.map (·.target)) = o.failed.map fun f => ⟨f.key, f.target⟩ := by
  have hwrites : (o.failed.map (·.target)).map (fun t => (⟨t.key config, t⟩ : Write)) =
      o.failed.map fun f => ⟨f.key, f.target⟩ := by
    rw [List.map_map]
    exact List.map_congr_left fun f hf => by simp [h.key_target f hf]
  rw [PublishConfig.writes, hwrites, distinctWrites_eq_self _ (by simp)]
  simpa [Function.comp_def, failedKeys] using h.nodup

theorem Outcome.Retryable.keys_retry (h : o.Retryable config) :
    config.keys (o.failed.map (·.target)) = o.failedKeys := by
  rw [← config.map_key_writes, h.writes_retry, List.map_map]
  rfl

namespace Retry

/-- How a retry `b` relates to the call before it: it tries the keys that this has left open, and
splits them. -/
structure Follows (config : PublishConfig) (table : RoutingTable) (a b : Outcome × Store) :
    Prop where
  keys : (config.writes (a.1.failed.map (·.target))).map (·.key) = a.1.failedKeys
  nodup : a.1.failedKeys.Nodup
  puts : b.2.puts = a.2.puts + a.1.failedKeys.length
  perm : (b.1.written ++ b.1.failedKeys).Perm a.1.failedKeys
  sublist : b.1.failedKeys.Sublist a.1.failedKeys
  content : ∀ k, b.2.get? k = if k ∈ b.1.written then some table.toText else a.2.get? k

theorem retry_follows {a : Outcome × Store} (h : a.1.Retryable config)
    (behaviours : SortedMap Behaviour) :
    Follows config table a (config.retry table a.1 (a.2.answering behaviours)) := by
  have hsettles := config.publish_settles table (a.1.failed.map (·.target))
    (a.2.answering behaviours)
  have hkeys := h.keys_retry
  refine ⟨?_, h.nodup, ?_, ?_, ?_, hsettles.content⟩
  · rw [config.map_key_writes, hkeys]
  · exact hkeys ▸ hsettles.puts
  · exact hkeys ▸ hsettles.perm
  · rw [← hkeys, PublishConfig.retry, hsettles.failedKeys]
    exact List.filter_sublist

theorem isChain_retries {a : Outcome × Store} (h : a.1.Retryable config)
    (answers : List (SortedMap Behaviour)) :
    (a :: config.retries table a answers).IsChain (Follows config table) := by
  induction answers generalizing a with
  | nil => exact .singleton a
  | cons behaviours later ih =>
    exact .cons_cons (retry_follows h behaviours)
      (ih (config.publish_settles table _ _).retryable)

/-! ## Chains of calls -/

variable {a : Outcome × Store} {l : List (Outcome × Store)}

/-- The keys that are open are dealt out to the calls, but for those that the last one leaves. -/
theorem perm_of_isChain (h : (a :: l).IsChain (Follows config table)) :
    (l.flatMap (·.1.written) ++ (l.getLastD a).1.failedKeys).Perm a.1.failedKeys := by
  induction l generalizing a with
  | nil => exact .refl _
  | cons b l ih =>
    obtain ⟨hfollows, hrest⟩ := List.isChain_cons_cons.1 h
    rw [List.flatMap_cons, List.append_assoc, List.getLastD_cons]
    exact ((ih hrest).append_left _).trans hfollows.perm

/-- What has been written stays. -/
theorem get?_of_isChain (h : (a :: l).IsChain (Follows config table)) {k : String}
    (hk : a.2.get? k = some table.toText ∨ k ∈ l.flatMap (·.1.written)) :
    (l.getLastD a).2.get? k = some table.toText := by
  induction l generalizing a with
  | nil => simpa using hk
  | cons b l ih =>
    obtain ⟨hfollows, hrest⟩ := List.isChain_cons_cons.1 h
    rw [List.getLastD_cons]
    refine ih hrest ?_
    rw [hfollows.content]
    rw [List.flatMap_cons, List.mem_append] at hk
    grind

theorem pairwise_sublist (h : l.IsChain (Follows config table)) :
    l.Pairwise fun a b => b.1.failedKeys.Sublist a.1.failedKeys := by
  have htrans : IsTrans (Outcome × Store) fun a b => b.1.failedKeys.Sublist a.1.failedKeys :=
    ⟨fun _ _ _ hab hbc => hbc.trans hab⟩
  exact List.isChain_iff_pairwise.1 (h.imp fun _ _ hfollows => hfollows.sublist)

/-- Behind a complete call there is nothing left to do. -/
theorem pairwise_complete (h : l.IsChain (Follows config table)) :
    l.Pairwise fun a b => a.1.Complete → b.1.Complete ∧ b.2.puts = a.2.puts := by
  have htrans : IsTrans (Outcome × Store) fun a b =>
      a.1.Complete → b.1.Complete ∧ b.2.puts = a.2.puts :=
    ⟨fun _ _ _ hab hbc ha => ⟨(hbc (hab ha).1).1, (hbc (hab ha).1).2.trans (hab ha).2⟩⟩
  refine List.isChain_iff_pairwise.1 (h.imp fun a b hfollows ha => ?_)
  have hopen : a.1.failedKeys = [] := by rw [Outcome.failedKeys, ha, List.map_nil]
  have hsublist := hfollows.sublist
  have hputs := hfollows.puts
  rw [hopen] at hsublist hputs
  exact ⟨List.map_eq_nil_iff.1 (List.sublist_nil.1 hsublist), hputs⟩

end Retry

/-- A publication and the retries after it, of which `last` is the last, have dealt out the keys of
the targets. -/
structure PublishConfig.Converges (config : PublishConfig) (table : RoutingTable)
    (targets : List Target) (calls : List (Outcome × Store)) (last : Outcome × Store) : Prop where
  disjoint : calls.Pairwise fun a b => a.1.written.Disjoint b.1.written
  /-- A retry tries the keys that the call before it has left open, each once. -/
  tries : calls.IsChain fun a b =>
    (config.writes (a.1.failed.map (·.target))).map (·.key) = a.1.failedKeys ∧
    a.1.failedKeys.Nodup ∧ b.2.puts = a.2.puts + a.1.failedKeys.length
  nodup : (calls.flatMap (·.1.written) ++ last.1.failedKeys).Nodup
  mem_or_mem : ∀ k, k ∈ calls.flatMap (·.1.written) ∨ k ∈ last.1.failedKeys ↔
    ∃ t ∈ targets, t.key config = k
  sublist : calls.Pairwise fun a b => b.1.failedKeys.Sublist a.1.failedKeys
  complete : calls.Pairwise fun a b => a.1.Complete → b.1.Complete ∧ b.2.puts = a.2.puts
  content : ∀ k ∈ calls.flatMap (·.1.written), last.2.get? k = some table.toText

/-- A publication and any number of retries, while the store answers now in one way and now in
another. -/
theorem PublishConfig.retries_converge (config : PublishConfig) (table : RoutingTable)
    (targets : List Target) (s : Store) (answers : List (SortedMap Behaviour)) :
    let first := config.publish table targets s
    config.Converges table targets (config.calls table targets s answers)
      ((config.retries table first answers).getLastD first) := by
  intro first
  set calls := config.calls table targets s answers with hcalls
  set last := (config.retries table first answers).getLastD first
  have hfirst : Settles config table targets s first.1 first.2 :=
    config.publish_settles table targets s
  have hchain : calls.IsChain (Retry.Follows config table) :=
    Retry.isChain_retries hfirst.retryable answers
  have hperm : (calls.flatMap (·.1.written) ++ last.1.failedKeys).Perm (config.keys targets) := by
    rw [hcalls, PublishConfig.calls, List.flatMap_cons, List.append_assoc]
    exact ((Retry.perm_of_isChain hchain).append_left _).trans hfirst.perm
  have hnodup := hperm.nodup_iff.2 (config.nodup_keys targets)
  exact {
    disjoint := (List.nodup_flatMap.1 (List.nodup_append.1 hnodup).1).2
    tries := hchain.imp fun _ _ h => ⟨h.keys, h.nodup, h.puts⟩
    nodup := hnodup
    mem_or_mem := fun k => by rw [← List.mem_append, hperm.mem_iff, mem_keys]
    sublist := Retry.pairwise_sublist hchain
    complete := Retry.pairwise_complete hchain
    content := fun k hk => by
      refine Retry.get?_of_isChain hchain ?_
      rw [hcalls, PublishConfig.calls, List.flatMap_cons, List.mem_append] at hk
      exact hk.imp_left fun h => by rw [hfirst.content, if_pos h] }

/-- The preview fails, hangs at the first retry and is written by the second; the third finds
nothing to do. -/
theorem PublishConfig.retries_until_preview :
    let answer (b : Behaviour) : SortedMap Behaviour :=
      (∅ : SortedMap Behaviour).insert "campaign:preview:spring" b
    let busy := answer ⟨false, 0, some (.unavailable "busy")⟩
    let hanging := answer ⟨true, 0, none⟩
    let retry (call : Outcome × Store) (answers : SortedMap Behaviour) :=
      PublishConfig.default.retry .empty call.1 (call.2.answering answers)
    let first := PublishConfig.default.publish .empty
      [.preview "spring", .customDomain "example.org"] (Store.empty.answering busy)
    let second := retry first hanging
    let third := retry second ∅
    let fourth := retry third ∅
    [first, second, third, fourth].map (·.1.written) =
      [["campaign:domain:example.org"], [], ["campaign:preview:spring"], []] ∧
    third.1.Complete ∧ fourth.1.Complete ∧ fourth.2.puts = third.2.puts ∧
    fourth.2.get? "campaign:preview:spring" = some RoutingTable.empty.toText := by
  intro answer busy hanging retry first second third fourth
  have hconverges :
      PublishConfig.default.Converges .empty [.preview "spring", .customDomain "example.org"]
        [first, second, third, fourth] fourth :=
    PublishConfig.default.retries_converge .empty
      [.preview "spring", .customDomain "example.org"] (Store.empty.answering busy) [hanging, ∅, ∅]
  have hthird : third.1.Complete := by decide
  have hfourth := (List.pairwise_cons.1 hconverges.complete.tail.tail).1 fourth (by simp) hthird
  have hmem : "campaign:preview:spring" ∈ third.1.written := by decide
  refine ⟨by decide +kernel, hthird, hfourth.1, hfourth.2, hconverges.content _ ?_⟩
  exact List.mem_flatMap.2 ⟨third, by simp, hmem⟩

end CampaignRouting
