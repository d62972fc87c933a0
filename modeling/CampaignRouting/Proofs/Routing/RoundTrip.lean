import CampaignRouting.Proofs.Graph.RoundTrip
import CampaignRouting.Proofs.Routing.Projection

/-!
# The round trip of routing tables

The router reads from the text of a table what has been compiled, whether the text is compact or
indented (`RoutingTable.text_round_trip`). A table nests its translations one level less deep than a
document does, so what could be read from a document stays within the depth that a reader allows.
-/

namespace CampaignRouting

open Json (Codec)

/-! ## Tables that are read back -/

theorem Goal.codec_restores (g : Goal) : Goal.codec.Restores 1 g :=
  .record (by decide) rfl
    ⟨.always rfl (.string _), .always rfl (.string _), .always rfl (.string _),
      .always rfl (.optionString _), trivial⟩

theorem RoutedVariant.codec_restores {v : RoutedVariant}
    (hfloats : ∀ x ∈ v.share, (Json.Number.float x).ReadsBack) :
    RoutedVariant.codec.Restores 1 v :=
  .record (by decide) rfl
    ⟨.always rfl (.string _), .always rfl (.string _), .always rfl (.optionString _),
      .always rfl (.option (fun x hx => .float (hfloats x hx)) nofun), .always rfl (.bool _),
      .always rfl (.optionString _), trivial⟩

namespace RoutedSegment

def floats (s : RoutedSegment) : List Float :=
  s.priority :: (s.rules.flatMap Rule.floats ++
    (s.translations.entries.flatMap (·.2.floats) ++ s.variants.flatMap (·.share.toList)))

/-- In a table that may nest 127 deep, 123 levels are left for a translation. -/
structure Sound (s : RoutedSegment) : Prop where
  rules : ∀ r ∈ s.rules, r.Sound
  translations : ∀ e ∈ s.translations.entries, e.2.Canonical 123

theorem ruleCodec_restores {r : Rule} (h : r.Sound)
    (hfloats : ∀ x ∈ r.floats, (Json.Number.float x).ReadsBack) : ruleCodec.Restores 2 r := by
  refine .record (by decide) rfl ?_
  exact ⟨.always rfl (.string _), .always rfl (RuleType.codec_restores _),
    .always rfl (RuleOperator.codec_restores _), .always rfl (Rule.value_restores h hfloats),
    .always rfl (.string _), .always rfl (.option (fun _ _ => .bool _) nofun), trivial⟩

theorem codec_restores {s : RoutedSegment} (h : s.Sound)
    (hfloats : ∀ x ∈ s.floats, (Json.Number.float x).ReadsBack) : codec.Restores 125 s := by
  obtain ⟨hpriority, hfloats⟩ := List.forall_mem_cons.1 hfloats
  obtain ⟨hruleFloats, hfloats⟩ := List.forall_mem_append.1 hfloats
  obtain ⟨htranslationFloats, hshares⟩ := List.forall_mem_append.1 hfloats
  have hrules : ruleCodec.list.Restores 3 s.rules := .list fun r hr =>
    ruleCodec_restores (h.rules r hr) fun x hx => hruleFloats x (List.mem_flatMap.2 ⟨r, hr, hx⟩)
  have htranslations : Codec.json.sortedMap.Restores 124 s.translations := .sortedMap fun e he =>
    have hcanonical := h.translations e he
    .json hcanonical.fits hcanonical.sorted_eq <| Json.Number.readsBack_of_floats hcanonical.inRange
      fun x hx => htranslationFloats x (List.mem_flatMap.2 ⟨e, he, hx⟩)
  have hvariants : RoutedVariant.codec.list.Restores 2 s.variants := .list fun v hv =>
    RoutedVariant.codec_restores fun x hx =>
      hshares x (List.mem_flatMap.2 ⟨v, hv, Option.mem_toList.2 hx⟩)
  refine .record (by decide) rfl ?_
  exact ⟨.always rfl (.string _), .always rfl (.string _), .always rfl (.string _),
    .always rfl (.float hpriority), .always rfl (.optionString _),
    .always rfl (hrules.mono (by decide)), .always rfl (TranslationMode.codec_restores _),
    .always rfl htranslations, .always rfl (hvariants.mono (by decide)), trivial⟩

end RoutedSegment

namespace RoutingTable

variable {t : RoutingTable}

def floats (t : RoutingTable) : List Float := t.segments.flatMap (·.floats)

/-- The rules of all segments are sound. -/
def Sound (t : RoutingTable) : Prop := ∀ s ∈ t.segments, s.Sound

/-- A sound table is restored if its numbers are. -/
theorem codec_restores (h : t.Sound)
    (hfloats : ∀ x ∈ t.floats, (Json.Number.float x).ReadsBack) :
    codec.Restores Codec.maxDepth t := by
  have hsegments : RoutedSegment.codec.list.Restores 126 t.segments := .list fun s hs =>
    RoutedSegment.codec_restores (h s hs) fun x hx => hfloats x (List.mem_flatMap.2 ⟨s, hs, hx⟩)
  have hgoals : Goal.codec.list.Restores 2 t.customGoals := .list fun g _ => g.codec_restores
  refine .record (by decide) rfl ?_
  exact ⟨.always rfl (.optionString _), .always rfl hsegments, .always rfl (.uint32 _),
    .always rfl (.uint32 _), .always rfl (.string _), .always rfl (hgoals.mono (by decide)),
    trivial⟩

end RoutingTable

/-! ## Where tables come from -/

theorem RoutedSegment.rule_sound_of_gives {k : Nat} {r : Rule}
    (h : RoutedSegment.ruleCodec.Gives k r) : r.Sound := by
  obtain ⟨⟨_, _, _, value, _, _, ⟨⟩⟩, rfl, -, -, -, hvalue, -⟩ := h.record
  intro v hv
  cases hv
  exact .of_gives (hvalue.of_some rfl rfl).option

theorem RoutedSegment.Sound.of_gives {s : RoutedSegment}
    (h : RoutedSegment.codec.Gives 125 s) : s.Sound := by
  obtain ⟨⟨_, _, _, _, _, rules, _, translations, _, ⟨⟩⟩, rfl, hfields⟩ := h.record
  obtain ⟨-, -, -, -, -, hrules, -, htranslations, -⟩ := hfields
  have hrules := hrules.of_required rfl rfl
  have htranslations := htranslations.of_required rfl rfl
  exact ⟨fun r hr => rule_sound_of_gives (hrules.list r hr),
    fun e he => (htranslations.sortedMap e he).json⟩

namespace RoutingTable

variable {t : RoutingTable}

/-- A table that is read is sound. -/
theorem Sound.of_ofText {text : String} (h : ofText text = .ok t) : t.Sound := by
  obtain ⟨⟨_, segments, _, _, _, _, ⟨⟩⟩, rfl, -, hsegments, -⟩ := (Codec.Gives.of_ofText h).record
  intro s hs
  exact .of_gives ((hsegments.of_required rfl rfl).list s hs)

/-- Compilation copies rules and translations from segments of the graph. -/
theorem Sound.of_compile {g : Graph} {settings : Settings}
    (hg : ∀ n ∈ g.nodes, n.payload.Sound) (h : compile g settings = .ok t) : t.Sound := by
  intro s hs
  obtain ⟨n, hn, p, hp, rfl⟩ := (mem_segments_of_compile h).1 hs
  have hsound := hg n hn.mem_nodes
  rw [hp] at hsound
  exact ⟨hsound.rules, fun e he => (hsound.translations e he).mono (by decide)⟩

/-- The tables that are compiled from graphs that texts give, or read from a text. -/
inductive Obtained : RoutingTable → Prop
  | compiled {g : Graph} {settings : Settings} {t : RoutingTable} (hg : g.FromTexts)
      (h : compile g settings = .ok t) : Obtained t
  | read {text : String} {t : RoutingTable} (h : ofText text = .ok t) : Obtained t

/-- So is one that is compiled from a graph that is read. -/
theorem Obtained.sound (h : t.Obtained) : t.Sound := by
  cases h with
  | compiled hg h => exact .of_compile hg.sound h
  | read h => exact .of_ofText h

/-- A table is read back from either of its texts. -/
theorem text_round_trip (h : t.Obtained)
    (hfloats : ∀ x ∈ t.floats, (Json.Number.float x).ReadsBack) :
    ofText t.toText = .ok t ∧ ofText t.toPrettyText = .ok t := by
  have hrestores := codec_restores h.sound hfloats
  exact ⟨hrestores.ofText_toText, hrestores.ofText_toPrettyText⟩

/-- A campaign with one segment, which has a rule and a translation and leads to one variant. -/
def cityCampaign : String :=
  "\x7b\"nodes\":[[\"in\",\"traffic\",null,[\"home\"]]," ++
    "[\"s\",\"segment\",null,[\"\",\"\",5,null,[[\"r\",\"city\",\"in\",[1.5]]],\"none\"," ++
      "\x7b\"de\":[[2.5]]\x7d]],[\"v\",\"variant\",null,[\"\",\"home\",50]]]," ++
    "\"edges\":[[\"a\",\"in\",\"s\"],[\"b\",\"s\",\"v\"]]\x7d"

theorem text_round_trip_cityCampaign : ∃ g t, Graph.ofText cityCampaign = .ok g ∧
    compile g .default = .ok t ∧ ofText t.toText = .ok t ∧ ofText t.toPrettyText = .ok t := by
  have hread : ((Graph.ofText cityCampaign).map fun g =>
      (g.trafficNodes.map (·.id), (g.projection "in").flatMap (·.floats))) =
        .ok (["in"], [5.0, 1.5, 2.5, 50.0]) := by decide +kernel
  obtain ⟨g, hg, h⟩ := map_eq_ok_iff.1 hread
  obtain ⟨htraffic, hprojection⟩ := Prod.mk.inj h
  obtain ⟨n, hn, hid⟩ := List.map_eq_singleton_iff.1 htraffic
  have hroot := g.root_of_trafficNodes
  rw [hn] at hroot
  obtain ⟨traffic, -, hroot⟩ := hroot
  have hcompile := compile_of_root_ok .default hroot
  have hfloats : ∀ x ∈ [5.0, 1.5, 2.5, 50.0], (Json.Number.float x).ReadsBack := by
    simp only [List.forall_mem_cons]
    refine ⟨⟨'5', ['.', '0'], ?_, rfl⟩, ⟨'1', ['.', '5'], ?_, rfl⟩, ⟨'2', ['.', '5'], ?_, rfl⟩,
      ⟨'5', ['0', '.', '0'], ?_, rfl⟩, by simp⟩ <;> decide +kernel
  refine ⟨g, _, hg, hcompile, text_round_trip (.compiled (.text hg) hcompile) fun x hx => ?_⟩
  obtain ⟨s, hs, hx⟩ := List.mem_flatMap.1 hx
  refine hfloats x (hprojection ▸ List.mem_flatMap.2 ⟨s, ?_, hx⟩)
  exact hid ▸ mem_byPriority.1 hs

end RoutingTable
end CampaignRouting
