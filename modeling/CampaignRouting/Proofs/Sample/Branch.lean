import CampaignRouting.Proofs.Publish.Keys
import CampaignRouting.Proofs.Sample.Document
import CampaignRouting.Proofs.Sample.Shares
import CampaignRouting.Proofs.Validation.Fitness

/-!
# The branches of a made-up campaign

A segment and all that it leads to are fit for visitors by themselves (`Hangs.sound`). Their ids
begin with that of the segment, so branches of different segments have nothing to do with each other
(`Below.unique`), and parts with nothing in common may be put together (`Sound.append`).
-/

namespace CampaignRouting

/-! ## Graphs put together -/

namespace Graph

variable {g h : Graph} {id : String}

theorem resolve?_append : (g ++ h).resolve? id = (g.resolve? id).or (h.resolve? id) :=
  List.find?_append

theorem trafficNodes_append : (g ++ h).trafficNodes = g.trafficNodes ++ h.trafficNodes :=
  List.filter_append ..

theorem ownedVariants_append :
    (g ++ h).ownedVariants id = g.ownedVariants id ++ h.ownedVariants id := by
  have hnodes : (g ++ h).ownedBy id = g.ownedBy id ++ h.ownedBy id := List.filter_append ..
  rw [ownedVariants, hnodes, List.filterMap_append]
  rfl

/-- Where no edge of one graph leads into the other, all lead where they did before. -/
theorem routedVariants_append (hg : ∀ e ∈ g.edges, h.resolve? e.target = none)
    (hh : ∀ e ∈ h.edges, g.resolve? e.target = none) :
    (g ++ h).routedVariants id = g.routedVariants id ++ h.routedVariants id := by
  have hedges : (g ++ h).edgesFrom id = g.edgesFrom id ++ h.edgesFrom id := List.filter_append ..
  rw [routedVariants, hedges, List.filterMap_append]
  congr 1
  · refine List.filterMap_congr fun e he => ?_
    rw [resolve?_append, hg e (List.mem_filter.1 he).1, Option.or_none]
  · refine List.filterMap_congr fun e he => ?_
    rw [resolve?_append, hh e (List.mem_filter.1 he).1, Option.none_or]

end Graph

namespace Sample

/-- A part of a campaign whose nodes are fit. All ids in it are of some kind, but for that of the
entry point, where edges may begin. -/
structure Sound (c : Context) (p : String → Prop) (g : Graph) : Prop where
  ids : ∀ n ∈ g.nodes, p n.id
  parents : ∀ n ∈ g.nodes, ∀ id, n.parent = some id → p id
  sources : ∀ e ∈ g.edges, e.source = "traffic" ∨ p e.source
  targets : ∀ e ∈ g.edges, p e.target
  /-- What leaves the entry point counts for no segment. -/
  segments : ∀ n ∈ g.nodes, n.type = .segment → n.id ≠ "traffic"
  distinct : (g.nodes.map (·.id)).Nodup
  fit : ∀ n ∈ g.nodes, g.Fit c n

namespace Sound

variable {c : Context} {p q : String → Prop} {g h : Graph} {id : String}

theorem routedVariants_eq_nil (hg : Sound c p g) (hid : ¬p id) (hentry : id ≠ "traffic") :
    g.routedVariants id = [] := by
  have hedges : g.edgesFrom id = [] := by
    refine List.filter_eq_nil_iff.2 fun e he heq => ?_
    obtain rfl : e.source = id := of_decide_eq_true heq
    exact (hg.sources e he).elim hentry hid
  rw [Graph.routedVariants, hedges, List.filterMap_nil]

theorem ownedVariants_eq_nil (hg : Sound c p g) (hid : ¬p id) : g.ownedVariants id = [] := by
  have hnodes : g.ownedBy id = [] :=
    List.filter_eq_nil_iff.2 fun n hn heq => hid (hg.parents n hn id (of_decide_eq_true heq))
  rw [Graph.ownedVariants, hnodes, List.filterMap_nil]

/-- Parts with no id in common do not disturb each other. -/
theorem append (hg : Sound c p g) (hh : Sound c q h) (hpq : ∀ id, p id → ¬q id) :
    Sound c (fun id => p id ∨ q id) (g ++ h) where
  ids := List.forall_mem_append.2 ⟨fun n hn => .inl (hg.ids n hn), fun n hn => .inr (hh.ids n hn)⟩
  parents := List.forall_mem_append.2 ⟨fun n hn id hid => .inl (hg.parents n hn id hid),
    fun n hn id hid => .inr (hh.parents n hn id hid)⟩
  sources := List.forall_mem_append.2 ⟨fun e he => (hg.sources e he).imp_right .inl,
    fun e he => (hh.sources e he).imp_right .inr⟩
  targets := List.forall_mem_append.2
    ⟨fun e he => .inl (hg.targets e he), fun e he => .inr (hh.targets e he)⟩
  segments := List.forall_mem_append.2 ⟨hg.segments, hh.segments⟩
  distinct := by
    show ((g.nodes ++ h.nodes).map _).Nodup
    rw [List.map_append]
    refine hg.distinct.append hh.distinct fun id hid hid' => ?_
    obtain ⟨n, hn, rfl⟩ := List.mem_map.1 hid
    obtain ⟨m, hm, heq⟩ := List.mem_map.1 hid'
    exact hpq _ (hg.ids n hn) (heq ▸ hh.ids m hm)
  fit := by
    have hrouted (id : String) : (g ++ h).routedVariants id =
        g.routedVariants id ++ h.routedVariants id := by
      refine Graph.routedVariants_append (fun e he => ?_) fun e he => ?_
      · exact Graph.resolve?_eq_none fun n hn heq => hpq _ (hg.targets e he) (heq ▸ hh.ids n hn)
      · exact Graph.resolve?_eq_none fun n hn heq => hpq _ (hg.ids n hn) (heq ▸ hh.targets e he)
    refine List.forall_mem_append.2 ⟨fun n hn => ?_, fun n hn => ?_⟩
    · have hid : ¬q n.id := hpq _ (hg.ids n hn)
      refine (Graph.fit_congr (fun htype => ?_) fun _ => ?_).2 (hg.fit n hn)
      · rw [hrouted, hh.routedVariants_eq_nil hid (hg.segments n hn htype), List.append_nil]
      · rw [Graph.ownedVariants_append, hh.ownedVariants_eq_nil hid, List.append_nil]
    · have hid : ¬p n.id := fun hid => hpq _ hid (hh.ids n hn)
      refine (Graph.fit_congr (fun htype => ?_) fun _ => ?_).2 (hh.fit n hn)
      · rw [hrouted, hg.routedVariants_eq_nil hid (hh.segments n hn htype), List.nil_append]
      · rw [Graph.ownedVariants_append, hg.ownedVariants_eq_nil hid, List.nil_append]

end Sound

/-! ## Ids -/

/-- The id of a segment, or one that goes on behind it with a dash. -/
def Below (segment id : String) : Prop := id = segment ∨ ∃ rest, id = segment ++ "-" ++ rest

def segmentId (i : Nat) : String := "segment-" ++ toString i

theorem Below.exists_rest {i : Nat} {id : String} (h : Below (segmentId i) id) :
    ∃ rest, id.toList ++ ['-'] = "segment-".toList ++ ((Nat.repr i).toList ++ '-' :: rest) := by
  rcases h with rfl | ⟨rest, rfl⟩
  · exact ⟨[], by simp [segmentId, toString]⟩
  · exact ⟨rest.toList ++ ['-'], by simp [segmentId, toString]⟩

/-- The number of the segment ends at the next dash. -/
theorem Below.unique {i j : Nat} {id : String} (hi : Below (segmentId i) id)
    (hj : Below (segmentId j) id) : i = j := by
  obtain ⟨rest, hi⟩ := hi.exists_rest
  obtain ⟨rest', hj⟩ := hj.exists_rest
  have hdash (n : Nat) : '-' ∉ (Nat.repr n).toList := fun h => by
    rw [Nat.repr, String.toList_ofList] at h
    exact absurd (Nat.isDigit_of_mem_toDigits (by decide) (by decide) h) (by decide)
  have hnumbers := List.append_cancel_left (hi.symm.trans hj)
  have hsame := ((Text.append_sep_inj (hdash i) (hdash j)).1 hnumbers).1
  exact Nat.repr_inj.1 (String.toList_inj.1 hsame)

theorem not_below_traffic (i : Nat) : ¬Below (segmentId i) "traffic" := by
  intro h
  obtain ⟨rest, h⟩ := h.exists_rest
  simp at h

/-! ## Variants -/

/-- One of the pages that there are to link to. -/
def Offers (size : Size) (page : PageId) : Prop := ∃ i < size.pages, page = pageId i

theorem Offers.live {size : Size} {page : PageId} (h : Offers size page) :
    size.known.Live (some page) := by
  obtain ⟨i, hi, rfl⟩ := h
  refine ⟨_, rfl, fun hblank => ?_, ?_⟩
  · exact absurd (hblank 'l' (by simp [pageId])) (by decide)
  · refine (SortedMap.get?_ofList size.nodup_pageEntries _).trans ?_
    exact (lookup_eq_some_iff_mem size.nodup_pageEntries).2
      (List.mem_map.2 ⟨i, List.mem_range.2 hi, rfl⟩)

theorem validShare_whole {share : Nat} (h : share ≤ 100) :
    ValidShare (some (Float.ofInt share)) := by
  have hall : ∀ n < 101, (0.0 : Float) ≤ Float.ofInt (n : Nat) ∧ Float.ofInt (n : Nat) ≤ 100.0 := by
    decide +kernel
  exact ⟨_, rfl, hall share (Nat.lt_succ_of_le h)⟩

/-- A variant with a share and a number, from which it has its id. -/
def VariantFor (size : Size) (parent : Option String) (name : Nat → String) (a : Nat × Nat)
    (n : Node) : Prop :=
  ∃ title page, Offers size page ∧
    n = ⟨name a.2, parent, .variant ⟨title, some page, some (Float.ofInt a.1)⟩⟩

/-- Variants that have been given shares and numbers one by one. -/
abbrev Numbered (size : Size) (parent : Option String) (name : Nat → String) :
    List (Nat × Nat) → List Node → Prop :=
  List.Forall₂ (VariantFor size parent name)

namespace Numbered

variable {size : Size} {parent : Option String} {name : Nat → String} {l : List (Nat × Nat)}
  {ns : List Node}

theorem map_id (h : Numbered size parent name l ns) :
    ns.map (·.id) = (l.map (·.2)).map name := by
  induction h with
  | nil => rfl
  | cons h _ ih =>
    obtain ⟨title, page, -, rfl⟩ := h
    exact congrArg (_ :: ·) ih

theorem filterMap_share (h : Numbered size parent name l ns) :
    (ns.filterMap (·.variant?)).filterMap (·.share) =
      (l.map (·.1)).map fun n : Nat => Float.ofInt n := by
  induction h with
  | nil => rfl
  | cons h _ ih =>
    obtain ⟨title, page, -, rfl⟩ := h
    exact congrArg (_ :: ·) ih

theorem length_variants (h : Numbered size parent name l ns) :
    (ns.filterMap (·.variant?)).length = l.length := by
  induction h with
  | nil => rfl
  | cons h _ ih =>
    obtain ⟨title, page, -, rfl⟩ := h
    exact congrArg (· + 1) ih

theorem forall_mem (h : Numbered size parent name l ns) :
    ∀ n ∈ ns, ∃ i v, n = ⟨name i, parent, .variant v⟩ := by
  intro n hn
  obtain ⟨a, -, title, page, -, rfl⟩ := exists_of_forall₂_right h n hn
  exact ⟨_, _, rfl⟩

section
variable {k : Nat} (hk : 0 < k) (h : Numbered size parent name (shares k).zipIdx ns)
include hk h

theorem shareAll : ShareAll (ns.filterMap (·.variant?)) := by
  rw [ShareAll, h.filterMap_share, List.zipIdx_map_fst, total_shares hk]
  decide +kernel

/-- Every variant is fit, whatever graph it is in. -/
theorem fit (g : Graph) : ∀ n ∈ ns, g.Fit size.known n := by
  intro n hn
  obtain ⟨a, ha, title, page, hpage, rfl⟩ := exists_of_forall₂_right h n hn
  exact ⟨hpage.live, validShare_whole (le_of_mem_shares hk (List.fst_mem_of_mem_zipIdx ha))⟩

omit hk in
theorem nodup {s : String} (hname : name = fun i => s ++ toString i) :
    (ns.map (·.id)).Nodup := by
  subst hname
  rw [h.map_id, List.zipIdx_map_snd]
  exact List.Nodup.map (fun _ _ h => Nat.repr_inj.1 ((String.append_right_inj s).1 h))
    (List.nodup_range' ..)

end
end Numbered

/-! ## What hangs below a segment -/

/-- What a segment leads to, with which it makes a sound part of a campaign. -/
structure Hangs (c : Context) (segment : String) (d : Graph) : Prop where
  ids : ∀ n ∈ d.nodes, ∃ rest, n.id = segment ++ "-" ++ rest
  parents : ∀ n ∈ d.nodes, ∀ id, n.parent = some id → Below segment id
  types : ∀ n ∈ d.nodes, n.type = .variant ∨ n.type = .abTest
  distinct : (d.nodes.map (·.id)).Nodup
  sources : ∀ e ∈ d.edges, e.source = segment
  targets : ∀ e ∈ d.edges, ∃ n ∈ d.nodes, e.target = n.id
  shares : d.routedVariants segment ≠ [] → ShareAll (d.routedVariants segment)
  fit : ∀ n ∈ d.nodes, d.Fit c n

def edgeTo (source target : String) : Edge := ⟨source ++ "->" ++ target, source, target⟩

/-- A segment to which the entry point leads. -/
def segmentAlone (id : String) (s : Segment) : Graph :=
  ⟨[⟨id, none, .segment s⟩], [edgeTo "traffic" id]⟩

/-- The segment is fit if its page is, as what hangs below it shares its visitors. -/
theorem Hangs.sound {c : Context} {segment : String} {d : Graph} {s : Segment}
    (h : Hangs c segment d) (hentry : segment ≠ "traffic") (hs : c.Live s.primaryPage) :
    Sound c (Below segment) (segmentAlone segment s ++ d) := by
  have hfar : ∀ n ∈ d.nodes, n.id ≠ segment := by
    intro n hn heq
    obtain ⟨rest, hrest⟩ := h.ids n hn
    have hlength := congrArg (·.toList.length) (heq.symm.trans hrest)
    simp at hlength
  have halone : (segmentAlone segment s).routedVariants segment = [] := by
    have hedges : (segmentAlone segment s).edgesFrom segment = [] :=
      List.filter_eq_nil_iff.2 (by simpa [segmentAlone, edgeTo] using hentry.symm)
    rw [Graph.routedVariants, hedges, List.filterMap_nil]
  have hrouted : (segmentAlone segment s ++ d).routedVariants segment =
      d.routedVariants segment := by
    rw [Graph.routedVariants_append, halone, List.nil_append]
    · exact List.forall_mem_singleton.2 (Graph.resolve?_eq_none hfar)
    · intro e he
      obtain ⟨n, hn, htarget⟩ := h.targets e he
      exact Graph.resolve?_eq_none
        (List.forall_mem_singleton.2 fun heq => hfar n hn (heq.trans htarget).symm)
  constructor
  · exact List.forall_mem_cons.2 ⟨.inl rfl, fun n hn => .inr (h.ids n hn)⟩
  · exact List.forall_mem_cons.2 ⟨nofun, h.parents⟩
  · exact List.forall_mem_cons.2 ⟨.inl rfl, fun e he => .inr (.inl (h.sources e he))⟩
  · refine List.forall_mem_cons.2 ⟨.inl rfl, fun e he => ?_⟩
    obtain ⟨n, hn, htarget⟩ := h.targets e he
    exact htarget ▸ .inr (h.ids n hn)
  · refine List.forall_mem_cons.2 ⟨fun _ => hentry, fun n hn htype => ?_⟩
    rcases h.types n hn with hother | hother <;> exact absurd (htype.symm.trans hother) nofun
  · refine List.nodup_cons.2 ⟨fun hmem => ?_, h.distinct⟩
    obtain ⟨n, hn, heq⟩ := List.mem_map.1 hmem
    exact hfar n hn heq
  · refine List.forall_mem_cons.2 ⟨⟨hs, ?_⟩, fun n hn => ?_⟩
    · rw [hrouted]
      exact h.shares
    · refine (Graph.fit_congr (fun htype => ?_) fun _ => ?_).2 (h.fit n hn)
      · rcases h.types n hn with hother | hother <;> exact absurd (htype.symm.trans hother) nofun
      · rw [Graph.ownedVariants_append]
        rfl

section
variable {size : Size} {segment : String} {k : Nat} {ns : List Node}

/-- Variants that the segment leads to one by one. -/
theorem hangs_variants (hk : 0 < k) (h : Numbered size none
    (fun i => segment ++ "-variant-" ++ toString i) (shares k).zipIdx ns) :
    Hangs size.known segment ⟨ns, ns.map fun n => edgeTo segment n.id⟩ where
  ids n hn := by
    obtain ⟨i, v, rfl⟩ := h.forall_mem n hn
    exact ⟨"variant-" ++ toString i, by simp [← String.toList_inj]⟩
  parents n hn id hid := by
    obtain ⟨i, v, rfl⟩ := h.forall_mem n hn
    cases hid
  types n hn := by
    obtain ⟨i, v, rfl⟩ := h.forall_mem n hn
    exact .inl rfl
  distinct := h.nodup rfl
  sources := List.forall_mem_map.2 fun _ _ => rfl
  targets := List.forall_mem_map.2 fun n hn => ⟨n, hn, rfl⟩
  shares _ := by
    have hedges : Graph.edgesFrom ⟨ns, ns.map fun n => edgeTo segment n.id⟩ segment =
        ns.map fun n => edgeTo segment n.id :=
      List.filter_eq_self.2 (List.forall_mem_map.2 fun _ _ => decide_eq_true rfl)
    have hrouted : Graph.routedVariants ⟨ns, ns.map fun n => edgeTo segment n.id⟩ segment =
        ns.filterMap (·.variant?) := by
      rw [Graph.routedVariants, hedges, List.filterMap_map]
      refine List.filterMap_congr fun n hn => ?_
      have hresolve : Graph.resolve? ⟨ns, ns.map fun n => edgeTo segment n.id⟩ n.id = some n :=
        Graph.resolve?_of_mem (h.nodup rfl) hn
      exact congrArg (Option.bind · Node.variant?) hresolve
    rw [hrouted]
    exact h.shareAll hk
  fit := h.fit hk _

/-- A test that owns variants, which the segment leads to by way of the test. -/
theorem hangs_test (hk : 1 < k) (h : Numbered size (some (segment ++ "-test"))
    (fun i => segment ++ "-test" ++ "-node-" ++ toString i) (shares k).zipIdx ns) {t : AbTest}
    (hmetric : t.primaryMetric = some "signup")
    (harms : t.arms.map (·.allocation) = (shares k).map fun n : Nat => Float.ofInt n) :
    Hangs size.known segment ⟨⟨segment ++ "-test", none, .abTest t⟩ :: ns,
      [edgeTo segment (segment ++ "-test")]⟩ where
  ids := by
    refine List.forall_mem_cons.2 ⟨⟨"test", by simp [← String.toList_inj]⟩, fun n hn => ?_⟩
    obtain ⟨i, v, rfl⟩ := h.forall_mem n hn
    exact ⟨"test-node-" ++ toString i, by simp [← String.toList_inj]⟩
  parents := by
    refine List.forall_mem_cons.2 ⟨nofun, fun n hn id hid => ?_⟩
    obtain ⟨i, v, rfl⟩ := h.forall_mem n hn
    obtain rfl := Option.some.inj hid
    exact .inr ⟨"test", by simp [← String.toList_inj]⟩
  types := by
    refine List.forall_mem_cons.2 ⟨.inr rfl, fun n hn => ?_⟩
    obtain ⟨i, v, rfl⟩ := h.forall_mem n hn
    exact .inl rfl
  distinct := by
    refine List.nodup_cons.2 ⟨fun hmem => ?_, h.nodup rfl⟩
    obtain ⟨n, hn, heq⟩ := List.mem_map.1 hmem
    obtain ⟨i, v, rfl⟩ := h.forall_mem n hn
    have hlength := congrArg (·.toList.length) heq
    simp at hlength
  sources := List.forall_mem_singleton.2 rfl
  targets := List.forall_mem_singleton.2 ⟨_, .head _, rfl⟩
  shares hne := by
    refine absurd ?_ hne
    simp [Graph.routedVariants, Graph.edgesFrom, Graph.resolve?, edgeTo, Node.variant?]
  fit := by
    refine List.forall_mem_cons.2 ⟨?_, h.fit (by omega) _⟩
    have howned : Graph.ownedVariants ⟨⟨segment ++ "-test", none, .abTest t⟩ :: ns,
        [edgeTo segment (segment ++ "-test")]⟩ (segment ++ "-test") =
          ns.filterMap (·.variant?) := by
      have hnodes : ns.filter (·.parent = some (segment ++ "-test")) = ns := by
        refine List.filter_eq_self.2 fun n hn => ?_
        obtain ⟨i, v, rfl⟩ := h.forall_mem n hn
        exact decide_eq_true rfl
      exact congrArg (List.filterMap Node.variant?) hnodes
    refine ⟨?_, ?_, fun _ => ?_, ?_⟩
    · rw [howned, h.length_variants, List.length_zipIdx, length_shares (by omega)]
      exact hk
    · rw [howned]
      exact h.shareAll (by omega)
    · rw [harms, total_shares (by omega)]
      decide +kernel
    · exact ⟨_, hmetric, by decide⟩

end

end Sample
end CampaignRouting
