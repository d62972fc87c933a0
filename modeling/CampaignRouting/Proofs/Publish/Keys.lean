import CampaignRouting.Proofs.Publish.FanOut
import CampaignRouting.Text.Split

/-!
# Keys as names of targets

A key is the prefix, a mark for the kind of the target and the place within the kind (`key_eq`).
Whatever the prefix is, the mark and the place can be told from it (`key_inj`): the marks differ in
their second letter, and nothing stands behind the place. So targets share a key only if they are in
the same place (`Target.SamePlace`), and a publication to targets of all kinds is, for each kind,
the publication to its targets alone (`PublishConfig.keys_identify_targets`).
-/

namespace CampaignRouting

namespace Text

variable {sep : Char} {piece piece' rest rest' : List Char}

theorem split_append_sep (h : sep ∉ piece) :
    split sep (piece ++ sep :: rest) = piece :: split sep rest := by
  induction piece with
  | nil => simp [split]
  | cons c piece ih =>
    obtain ⟨hc, hpiece⟩ : c ≠ sep ∧ sep ∉ piece := by simpa [eq_comm] using h
    rw [List.cons_append, split, if_neg hc, ih hpiece]

/-- The first separator ends a piece that does not hold it. -/
theorem append_sep_inj (h : sep ∉ piece) (h' : sep ∉ piece') :
    piece ++ sep :: rest = piece' ++ sep :: rest' ↔ piece = piece' ∧ rest = rest' := by
  refine ⟨fun heq => ?_, fun ⟨hpiece, hrest⟩ => by rw [hpiece, hrest]⟩
  have hsplit := congrArg (split sep) heq
  rw [split_append_sep h, split_append_sep h', List.cons.injEq] at hsplit
  exact ⟨hsplit.1, by rw [← join_split sep rest, hsplit.2, join_split]⟩

end Text

namespace Target

def kind : Target → Kind
  | preview _ => .preview
  | production .. => .production
  | customDomain _ => .customDomain

/-- What stands between the prefix and the place in the keys of a kind. -/
def Kind.mark : Kind → String
  | preview => ":preview:"
  | production => ":route:"
  | customDomain => ":domain:"

/-- What a key says about a target of a known kind. -/
def place : Target → String
  | preview campaign => campaign
  | production workspace project slug => workspace ++ "/" ++ project ++ "/" ++ slug
  | customDomain host => normalHost host

/-- Two targets are one place to write to. -/
def SamePlace : Target → Target → Prop
  | preview campaign, preview campaign' => campaign = campaign'
  | production workspace project slug, production workspace' project' slug' =>
    workspace ++ "/" ++ project ++ "/" ++ slug = workspace' ++ "/" ++ project' ++ "/" ++ slug'
  | customDomain host, customDomain host' => normalHost host = normalHost host'
  | _, _ => False

variable {t u : Target}

theorem samePlace_iff : SamePlace t u ↔ t.kind = u.kind ∧ t.place = u.place := by
  cases t <;> cases u <;> simp [SamePlace, kind, place]

theorem key_eq (config : PublishConfig) (t : Target) :
    t.key config = config.keyPrefix ++ (t.kind.mark ++ t.place) := by
  cases t <;> simp only [key, kind, Kind.mark, place, String.append_assoc]

theorem Kind.mark_append_inj {k l : Kind} {p q : String} :
    k.mark ++ p = l.mark ++ q ↔ k = l ∧ p = q := by
  cases k <;> cases l <;> simp [mark, ← String.toList_inj]

theorem key_inj (config : PublishConfig) :
    t.key config = u.key config ↔ t.kind = u.kind ∧ t.place = u.place := by
  rw [key_eq, key_eq, ← Kind.mark_append_inj, ← String.toList_inj,
    @String.toList_append config.keyPrefix, @String.toList_append config.keyPrefix,
    List.append_cancel_left_eq, String.toList_inj]

theorem key_eq_iff_samePlace (config : PublishConfig) :
    t.key config = u.key config ↔ SamePlace t u :=
  (key_inj config).trans samePlace_iff.symm

theorem slash_inj {w w' rest rest' : String} (hw : '/' ∉ w.toList) (hw' : '/' ∉ w'.toList) :
    w ++ ("/" ++ rest) = w' ++ ("/" ++ rest') ↔ w = w' ∧ rest = rest' := by
  simpa [← String.toList_inj] using Text.append_sep_inj hw hw'

theorem SamePlace.eq_of_production {w p s w' p' s' : String}
    (h : SamePlace (production w p s) (production w' p' s'))
    (hw : '/' ∉ w.toList) (hp : '/' ∉ p.toList) (hw' : '/' ∉ w'.toList) (hp' : '/' ∉ p'.toList) :
    production w p s = production w' p' s' := by
  simp only [SamePlace, String.append_assoc] at h
  rw [slash_inj hw hw', slash_inj hp hp'] at h
  obtain ⟨rfl, rfl, rfl⟩ := h
  rfl

end Target

/-- Where writes with one key agree about `p`, those that satisfy it are due as if they were
alone. -/
theorem filter_distinctWrites {p : Write → Bool} {taken taken' : List String} {ws : List Write}
    (hkeys : ∀ v ∈ ws, ∀ w ∈ ws, v.key = w.key → p v = p w)
    (htaken : ∀ w ∈ ws, p w → (w.key ∈ taken ↔ w.key ∈ taken')) :
    (distinctWrites taken ws).filter p = distinctWrites taken' (ws.filter p) := by
  induction ws generalizing taken taken' with
  | nil => rfl
  | cons w ws ih =>
    have hkeys' := fun v hv u hu => hkeys v (.tail _ hv) u (.tail _ hu)
    have htaken' := fun v hv => htaken v (.tail _ hv)
    rw [distinctWrites]
    cases hp : p w with
    | true =>
      have hhead := htaken w (.head _) hp
      rw [List.filter_cons_of_pos hp, distinctWrites]
      by_cases hmem : w.key ∈ taken
      -- the same is taken on both sides as long as it may concern writes that satisfy `p`
      · rw [if_pos hmem, if_pos (hhead.1 hmem), ih hkeys' htaken']
      · rw [if_neg hmem, if_neg (mt hhead.2 hmem), List.filter_cons_of_pos hp]
        refine congrArg (w :: ·) (ih hkeys' fun v hv hpv => ?_)
        rw [List.mem_cons, List.mem_cons, htaken' v hv hpv]
    | false =>
      rw [List.filter_cons_of_neg (by simp [hp])]
      split
      · exact ih hkeys' htaken'
      · rw [List.filter_cons_of_neg (by simp [hp])]
        refine ih hkeys' fun v hv hpv => ?_
        have hne : v.key ≠ w.key := fun h => by
          rw [hkeys v (.tail _ hv) w (.head _) h, hp] at hpv
          cases hpv
        simp [hne, htaken' v hv hpv]

namespace PublishConfig

variable {config : PublishConfig} {targets : List Target} {table : RoutingTable} {s : Store}
  {u : Target}

theorem filter_writes (config : PublishConfig) (targets : List Target) (k : Target.Kind) :
    (config.writes targets).filter (·.target.kind = k) =
      config.writes (targets.filter (·.kind = k)) := by
  refine (filter_distinctWrites (fun v hv w hw h => ?_) fun _ _ _ => Iff.rfl).trans ?_
  · obtain ⟨t, -, rfl⟩ := List.mem_map.1 hv
    obtain ⟨u, -, rfl⟩ := List.mem_map.1 hw
    simp only [((Target.key_inj config).1 h).1]
  · rw [List.filter_map]
    rfl

theorem key_mem_keys_iff :
    u.key config ∈ config.keys targets ↔ ∃ t ∈ targets, Target.SamePlace t u := by
  simp only [mem_keys, Target.key_eq_iff_samePlace]

/-- What a publication leaves under a key depends only on whether it is one of its keys. -/
theorem get?_publish (config : PublishConfig) (table : RoutingTable) (targets : List Target)
    (s : Store) (k : String) : (config.publish table targets s).2.get? k =
      if k ∈ config.keys targets ∧ (s.behaviour k).fault? config.writeTimeout = none
      then some table.toText else s.get? k := by
  have h := config.publish_settles table targets s
  rw [h.content, h.written]
  simp only [List.mem_filter, decide_eq_true_eq]

theorem key_mem_keys_filter_kind :
    u.key config ∈ config.keys (targets.filter (·.kind = u.kind)) ↔
      u.key config ∈ config.keys targets := by
  simp only [mem_keys, List.mem_filter, decide_eq_true_eq]
  constructor
  · rintro ⟨t, ⟨ht, -⟩, h⟩
    exact ⟨t, ht, h⟩
  · rintro ⟨t, ht, h⟩
    exact ⟨t, ⟨ht, ((Target.key_inj config).1 h).1⟩, h⟩

/-- Keys identify targets. Two targets share a key if and only if they are the same place: of one
kind, with equal campaigns, equal routes or hosts that are equal once they are normal; and a route
whose workspace and project have no slash in them names a single target. So targets of one kind are
written as if there were no others, and under the key of a target a publication leaves what it
leaves there without the targets of other kinds. -/
theorem keys_identify_targets (config : PublishConfig) :
    (∀ t u : Target, t.key config = u.key config ↔ Target.SamePlace t u) ∧
    (∀ w p s w' p' s' : String, '/' ∉ w.toList → '/' ∉ p.toList → '/' ∉ w'.toList →
      '/' ∉ p'.toList →
      ((Target.production w p s).key config = (Target.production w' p' s').key config ↔
        Target.production w p s = .production w' p' s')) ∧
    (∀ (targets : List Target) (k : Target.Kind),
      (config.writes targets).filter (·.target.kind = k) =
        config.writes (targets.filter (·.kind = k))) ∧
    ∀ (table : RoutingTable) (targets : List Target) (s : Store) (u : Target),
      ((∀ t ∈ targets, ¬Target.SamePlace t u) →
        (config.publish table targets s).2.get? (u.key config) = s.get? (u.key config)) ∧
      (config.publish table targets s).2.get? (u.key config) =
        (config.publish table (targets.filter (·.kind = u.kind)) s).2.get? (u.key config) := by
  refine ⟨fun t u => Target.key_eq_iff_samePlace config, fun w p s w' p' s' hw hp hw' hp' => ?_,
    config.filter_writes, fun table targets s u => ⟨fun hothers => ?_, ?_⟩⟩
  · refine ⟨fun h => ?_, congrArg (Target.key config)⟩
    exact ((Target.key_eq_iff_samePlace config).1 h).eq_of_production hw hp hw' hp'
  · rw [get?_publish, if_neg]
    rintro ⟨hmem, -⟩
    obtain ⟨t, ht, hsame⟩ := key_mem_keys_iff.1 hmem
    exact hothers t ht hsame
  · simp only [get?_publish, key_mem_keys_filter_kind]

/-- With a prefix that looks like keys itself: a project with a slash in it can be read in two ways,
a workspace and a project without one cannot, and a preview is not a route though its campaign is
called like one. -/
theorem keys_of_routes :
    let config : PublishConfig := { PublishConfig.default with keyPrefix := "a:route:b:domain:" }
    (Target.production "w" "p/q" "s").key config = (Target.production "w" "p" "q/s").key config ∧
    (Target.production "w" "p" "q/s").key config ≠ (Target.production "w" "q" "q/s").key config ∧
    (Target.preview "x:route:w/p/q/s").key config ≠ (Target.production "w" "p" "q/s").key config ∧
    (config.publish .empty [.production "w" "p" "s"] .empty).2.get?
      ((Target.preview "w/p/s").key config) = none := by
  intro config
  obtain ⟨hsame, hroutes, -, hpublish⟩ := keys_identify_targets config
  refine ⟨(hsame _ _).2 rfl, ?_, fun h => (hsame _ _).1 h, ?_⟩
  · have hroute := hroutes "w" "p" "q/s" "w" "q" "q/s" (by decide) (by decide) (by decide)
      (by decide)
    exact mt hroute.1 (by decide)
  · refine ((hpublish .empty [.production "w" "p" "s"] .empty (.preview "w/p/s")).1 ?_).trans rfl
    rintro t ht hplace
    obtain rfl := List.mem_singleton.1 ht
    exact hplace

end PublishConfig
end CampaignRouting
