import CampaignRouting.Proofs.Sample.Branch
import CampaignRouting.Proofs.Validation.Decision

/-!
# Made-up campaigns may be published

Whatever the dice, the files of a campaign are read as a graph and a context, and the report on
these allows publication (`canPublish_campaign`), if there are pages at all. They are the files that
the program writes (`Order.plan_writes_campaign`). Each step of making a campaign up gives values
that stand for a part of the graph (`Parts.StandFor`) of a known shape; the segments are then put
together one by one, by induction on their number (`Sound.foldl`).
-/

namespace CampaignRouting.Sample
open CommandLine Dice

section
variable {size : Size} (hpages : 0 < size.pages)
include hpages

/-! ## Pages and variants -/

theorem always_somePage : Always (somePage size) (Offers size) :=
  (always_throwBelow hpages).bind fun i hi => .pure ⟨i, hi, rfl⟩

theorem always_traffic : Always (traffic size) fun p => ∃ page, Offers size page ∧
    p.StandFor ⟨[⟨"traffic", none, .traffic ⟨some page⟩⟩], []⟩ :=
  (always_somePage hpages).bind fun page hpage =>
    .pure ⟨page, hpage, .cons ⟨_, rfl, stored_traffic⟩ .nil, rfl⟩

/-- Variants come with their edges. -/
theorem always_variants (segment : String) {k : Nat} (hk : 0 < k) :
    Always ((shares k).zipIdx.mapM fun (share, i) => variant size segment i share) fun ps =>
      ∃ g, (ps.foldl (· ++ ·) Parts.empty).StandFor g ∧ Hangs size.known segment g := by
  let alone (n : Node) : Graph := ⟨[n], [edgeTo segment n.id]⟩
  have hone : ∀ a ∈ (shares k).zipIdx, Always (variant size segment a.2 a.1) fun p => ∃ n,
      VariantFor size none (fun i => segment ++ "-variant-" ++ toString i) a n ∧
        p.StandFor (alone n) :=
    fun a ha => (always_somePage hpages).bind fun page hpage => .pure
      ⟨_, ⟨_, page, hpage, rfl⟩, .cons ⟨_, rfl,
        stored_variant (le_of_mem_shares hk (List.fst_mem_of_mem_zipIdx ha))⟩ .nil, rfl⟩
  have hfold (ns : List Node) (g : Graph) : (ns.map alone).foldl (· ++ ·) g =
      g ++ ⟨ns, ns.map fun n => edgeTo segment n.id⟩ := by
    induction ns generalizing g with
    | nil => exact congr_arg₂ Graph.mk (List.append_nil _).symm (List.append_nil _).symm
    | cons n ns ih =>
      exact (ih _).trans (congr_arg₂ Graph.mk (List.append_assoc ..) (List.append_assoc ..))
  refine (Always.mapM hone).mono fun ps hps => ?_
  obtain ⟨ns, hns, hstand⟩ := exists_between hps
  have hparts := Parts.StandFor.empty.foldl (List.forall₂_map_right_iff.2 hstand.flip)
  have hwhole : _ = (⟨ns, ns.map fun n => edgeTo segment n.id⟩ : Graph) := hfold ns .empty
  exact ⟨_, hwhole ▸ hparts, hangs_variants hk hns⟩

/-! ## Segments -/

/-- A test lists its arms, and owns them as variants too. -/
theorem always_test (segment : String) {k : Nat} (hk : 1 < k) :
    Always (test size segment k) fun p =>
      ∃ g, p.StandFor g ∧ Hangs size.known segment g := by
  have hone : ∀ a ∈ (shares k).zipIdx, Always (armNode size (segment ++ "-test") a.2 a.1)
      fun v => ∃ n, VariantFor size (some (segment ++ "-test"))
        (fun i => segment ++ "-test" ++ "-node-" ++ toString i) a n ∧ StandsFor v n :=
    fun a ha => (always_somePage hpages).bind fun page hpage => .pure
      ⟨_, ⟨_, page, hpage, rfl⟩, _, rfl,
        stored_variant (le_of_mem_shares (by omega) (List.fst_mem_of_mem_zipIdx ha))⟩
  refine (Always.mapM hone).bind fun children hchildren => .pure ?_
  obtain ⟨ns, hns, hstand⟩ := exists_between hchildren
  obtain ⟨t, hmetric, harms, hstored⟩ := @stored_test size (segment ++ "-test") segment (shares k)
    fun share hshare => le_of_mem_shares (by omega) hshare
  have hallocations : t.arms.map (·.allocation) = (shares k).map fun n : Nat => Float.ofInt n := by
    rw [harms, List.mapIdx_eq_zipIdx_map, List.map_map]
    nth_rewrite 2 [← List.zipIdx_map_fst 0 (shares k)]
    rw [List.map_map]
    rfl
  exact ⟨⟨⟨segment ++ "-test", none, .abTest t⟩ :: ns, [edgeTo segment (segment ++ "-test")]⟩,
    ⟨.cons ⟨_, rfl, hstored⟩ hstand.flip, rfl⟩, hangs_test hk hns hmetric hallocations⟩

theorem always_destinations (segment : String) : Always (destinations size segment) fun p =>
    ∃ g, p.StandFor g ∧ Hangs size.known segment g := by
  refine Always.any.bind fun m _ => ?_
  have hvariants := always_variants hpages segment m.succ_pos
  by_cases hm : 1 < m + 1
  · show Always (if 1 < m + 1 then _ >>= _ else _) _
    rw [if_pos hm]
    refine Always.any.bind fun tested _ => ?_
    cases tested with
    | true => exact always_test hpages segment hm
    | false => exact hvariants.bind fun _ h => .pure h
  · show Always (if 1 < m + 1 then _ else pure false >>= _) _
    rw [if_neg hm]
    exact hvariants.bind fun _ h => .pure h

/-- A segment with what it leads to, which is fit and has no entry point. -/
theorem always_segment (i : Nat) : Always (segment size i) fun p =>
    ∃ g, (Sound size.known (Below (segmentId i)) g ∧ g.trafficNodes = []) ∧ p.StandFor g := by
  refine Always.any.bind fun country _ => Always.any.bind fun device _ =>
    (always_somePage hpages).bind fun page hpage =>
    (always_throwBelow (by decide)).bind fun priority hpriority =>
    (always_destinations hpages _).bind fun p hp => .pure ?_
  obtain ⟨d, hstand, hd⟩ := hp
  obtain ⟨s, hprimary, hstored⟩ := stored_segment hpriority
  have hentry : segmentId i ≠ "traffic" := fun h => not_below_traffic i (.inl h.symm)
  have hsound := hd.sound hentry (hprimary ▸ hpage.live)
  have hentries : Graph.trafficNodes (segmentAlone (segmentId i) s ++ d) = [] := by
    refine List.filter_eq_nil_iff.2 (List.forall_mem_cons.2 ⟨?_, fun n hn => ?_⟩)
    · simp [Node.type, Payload.type]
    · rcases hd.types n hn with htype | htype <;> simp [htype]
  exact ⟨_, ⟨hsound, hentries⟩, .append ⟨.cons ⟨_, rfl, hstored⟩ .nil, rfl⟩ hstand⟩

end

/-! ## Campaigns -/

/-- Branches of different segments make a sound whole with what is there before them. -/
theorem Sound.foldl {c : Context} {p : String → Prop} {g : Graph} {is : List Nat}
    {gs : List Graph}
    (hall : List.Forall₂ (fun i h => Sound c (Below (segmentId i)) h ∧ h.trafficNodes = []) is gs)
    (hdistinct : is.Nodup) (hg : Sound c p g)
    (hfar : ∀ i ∈ is, ∀ id, p id → ¬Below (segmentId i) id) :
    (∃ q, Sound c q (gs.foldl (· ++ ·) g)) ∧
      (gs.foldl (· ++ ·) g).trafficNodes = g.trafficNodes := by
  induction hall generalizing p g with
  | nil => exact ⟨⟨p, hg⟩, rfl⟩
  | cons h _ ih =>
    obtain ⟨hsound, hentries⟩ := h
    obtain ⟨hi, hdistinct⟩ := List.nodup_cons.1 hdistinct
    obtain ⟨hnear, hfar⟩ := List.forall_mem_cons.1 hfar
    have hwhole := ih hdistinct (hg.append hsound hnear) fun j hj id hid hbelow =>
      hid.elim (hfar j hj id · hbelow) fun hid => hi (hid.unique hbelow ▸ hj)
    rw [Graph.trafficNodes_append, hentries, List.append_nil] at hwhole
    exact hwhole

theorem sound_root {size : Size} {page : PageId} (hpage : Offers size page) :
    Sound size.known (· = "traffic") ⟨[⟨"traffic", none, .traffic ⟨some page⟩⟩], []⟩ where
  ids := List.forall_mem_singleton.2 rfl
  parents := List.forall_mem_singleton.2 nofun
  sources := nofun
  targets := nofun
  segments := List.forall_mem_singleton.2 nofun
  distinct := List.nodup_singleton _
  fit := List.forall_mem_singleton.2 hpage.live

/-- The files of a campaign are read, and what they hold may be published, whatever the dice and
the settings. -/
theorem canPublish_campaign {size : Size} (hpages : 0 < size.pages) (dice : Dice)
    (config : ValidationConfig) :
    ∃ g, Graph.ofText (fileText ((campaign size).run dice).1.document) = .ok g ∧
      Context.codec.ofText (fileText size.context) = .ok size.known ∧
      (g.report config size.known).canPublish = true := by
  have hcampaign : Always (campaign size) fun p => ∃ g q, p.StandFor g ∧
      Sound size.known q g ∧ ∃ n, g.trafficNodes = [n] := by
    refine (always_traffic hpages).bind fun root hroot =>
      (Always.mapM fun i _ => always_segment hpages i).bind fun ps hps => .pure ?_
    obtain ⟨page, hpage, hroot⟩ := hroot
    obtain ⟨gs, hgs, hstand⟩ := exists_between hps
    obtain ⟨⟨q, hsound⟩, hentries⟩ := Sound.foldl hgs List.nodup_range (sound_root hpage)
      fun i _ id hid hbelow => not_below_traffic i (hid ▸ hbelow)
    exact ⟨_, q, hroot.foldl hstand.flip, hsound, _, hentries⟩
  obtain ⟨g, q, hstand, hsound, hentry⟩ := hcampaign dice
  obtain ⟨page, -, -, hstatus⟩ := Offers.live ⟨0, hpages, rfl⟩
  have hhasPages := Context.hasPages_iff.2 ⟨page, Option.isSome_iff_exists.2 ⟨_, hstatus⟩⟩
  exact ⟨g, hstand.ofText hsound.distinct, ofText_context size, Graph.canPublish_report.2
    ⟨fun n hn _ => hsound.fit n hn, nofun, hhasPages, Graph.root_eq_ok_iff.2 hentry⟩⟩

/-- So the program writes a campaign that may be published, and the pages that it leads to. -/
theorem Order.plan_writes_campaign {o : Order} (hpages : 0 < o.size.pages)
    (hvariants : 0 < o.size.maxVariants) (dice : Dice) (config : ValidationConfig) :
    ∃ text context g,
      .write o.output text FileError.details ∈ (o.plan dice).actions ∧
      (∀ path, o.context = some path →
        .write path context FileError.details ∈ (o.plan dice).actions) ∧
      Graph.ofText text = .ok g ∧ Context.codec.ofText context = .ok o.size.known ∧
      (g.report config o.size.known).canPublish = true := by
  obtain ⟨g, hgraph, hcontext, hpublish⟩ :=
    canPublish_campaign hpages ((o.seed.map Dice.ofSeed).getD dice) config
  have hmakes : ¬(o.size.pages = 0 ∨ o.size.maxVariants = 0) := by omega
  refine ⟨_, _, g, ?_, fun path hpath => ?_, hgraph, hcontext, hpublish⟩
  · rw [Order.plan, if_neg hmakes]
    exact List.mem_append_left _ (.tail _ (.head _))
  · rw [Order.plan, if_neg hmakes, hpath]
    exact List.mem_append_right _ (.head _)

end CampaignRouting.Sample
