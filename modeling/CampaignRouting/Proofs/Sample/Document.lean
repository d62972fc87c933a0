import CampaignRouting.Proofs.Graph.Acceptance
import CampaignRouting.Proofs.Graph.RoundTrip
import CampaignRouting.Proofs.Json.Place
import CampaignRouting.Proofs.Sample.Dice
import CampaignRouting.Sample.Command
import CampaignRouting.Validation.Context
import Std.Data.String.ToNat

/-!
# Made-up documents are read

The values that a campaign is made up of stand for the nodes and edges of a graph
(`Parts.StandFor`), and the file with these values is read as this graph (`Parts.StandFor.ofText`).
The file is written with the members of its objects sorted, so this is said of data that have been
sorted. What each kind of node stands for is seen by reading its data; only the arms of a test, of
which there are any number, are read apart from the rest (`read_testData`). The file that lists the
pages is read as the context in which all of them are published (`ofText_context`).
-/

namespace CampaignRouting.Sample
open Json (Codec Frame Source Tree)

/-! ## Documents -/

/-- A node of a document that gives a node of a graph, once it has been written and read. -/
structure Stored (d : DocumentNode) (n : Node) : Prop where
  fits : d.data.Fits Payload.maxDepth
  legible : ∀ m ∈ d.data.numbers, m.ReadsBack
  gives : DocumentNode.Gives { d with data := d.data.sorted } n

/-- A value in a document that stands for a node. -/
def StandsFor (v : Json) (n : Node) : Prop :=
  ∃ d : DocumentNode, v = DocumentNode.codec.write d ∧ Stored d n

/-- The data are sorted along with all the rest. -/
theorem sorted_write_node (d : DocumentNode) : (DocumentNode.codec.write d).sorted =
    (DocumentNode.codec.write { d with data := d.data.sorted }).sorted := by
  obtain ⟨id, type, parent, data⟩ := d
  have hwrite (members : List (String × Json)) (v : Json) :
      (Json.object (members ++ [("data", v)])).sorted =
        (Json.object (members ++ [("data", v.sorted)])).sorted := by
    induction members with
    | nil => exact congrArg (fun v => Json.object [("data", v)]) (Json.sorted_sorted v).symm
    | cons m members ih =>
      exact congrArg (fun ms => Json.object (insertEntry m.1 m.2.sorted ms)) (Json.object.inj ih)
  cases parent with
  | none => exact hwrite [("id", .string id), ("type", .string type)] data
  | some p =>
    exact hwrite [("id", .string id), ("type", .string type), ("parentId", .string p)] data

theorem sorted_write_document (ds : List DocumentNode) (es : List Edge) :
    (Document.codec.write ⟨ds, es⟩).sorted =
      (Document.codec.write ⟨ds.map fun d => { d with data := d.data.sorted }, es⟩).sorted := by
  have hnodes : (Json.array (ds.map DocumentNode.codec.write)).sorted =
      (Json.array ((ds.map fun d => { d with data := d.data.sorted }).map
        DocumentNode.codec.write)).sorted := by
    rw [Json.sorted_array, Json.sorted_array, List.map_map, List.map_map, List.map_map]
    exact congrArg Json.array (List.map_congr_left fun d _ => sorted_write_node d)
  exact congrArg (fun v => Json.object (insertEntry "nodes" v
    [("edges", (Json.array (es.map Edge.codec.write)).sorted)])) hnodes

namespace Parts

/-- The values stand for the nodes and edges of a graph, one by one. -/
structure StandFor (p : Parts) (g : Graph) : Prop where
  nodes : List.Forall₂ StandsFor p.nodes g.nodes
  edges : p.edges = g.edges.map Edge.codec.write

namespace StandFor

variable {p q : Parts} {g h : Graph}

theorem empty : Parts.empty.StandFor .empty := ⟨.nil, rfl⟩

theorem append (hp : p.StandFor g) (hq : q.StandFor h) : (p ++ q).StandFor (g ++ h) where
  nodes := List.rel_append hp.nodes hq.nodes
  edges := by
    show p.edges ++ q.edges = (g.edges ++ h.edges).map _
    rw [hp.edges, hq.edges, List.map_append]

theorem foldl {ps : List Parts} {gs : List Graph} (hall : List.Forall₂ StandFor ps gs)
    (hp : p.StandFor g) : (ps.foldl (· ++ ·) p).StandFor (gs.foldl (· ++ ·) g) := by
  induction hall generalizing p g with
  | nil => exact hp
  | cons hq _ ih => exact ih (hp.append hq)

/-- The file is read as the graph, if its ids differ. -/
theorem ofText (hp : p.StandFor g) (hids : (g.nodes.map (·.id)).Nodup) :
    Graph.ofText (fileText p.document) = .ok g := by
  obtain ⟨ds, hvalues, hnodes⟩ := Dice.exists_between hp.nodes
  let d : Document := ⟨ds.map fun d => { d with data := d.data.sorted }, g.edges⟩
  have hdocument : p.document = Document.codec.write ⟨ds, g.edges⟩ := by
    have hvalues : p.nodes = ds.map DocumentNode.codec.write :=
      List.forall₂_eq_eq_eq ▸ List.forall₂_map_right_iff.2 hvalues
    rw [Parts.document, hvalues, hp.edges]
    rfl
  have hgives : List.Forall₂ DocumentNode.Gives d.nodes g.nodes :=
    List.forall₂_map_left_iff.2 (hnodes.imp fun _ _ h => h.gives)
  have hdata : ∀ e ∈ d.nodes, Codec.json.Restores Payload.maxDepth e.data := by
    refine List.forall_mem_map.2 fun e he => ?_
    obtain ⟨n, -, hn⟩ := exists_of_forall₂_right hnodes.flip e he
    exact .json hn.fits.sorted (Json.sorted_sorted _) fun m hm =>
      hn.legible m (Json.numbers_sorted_subset _ hm)
  have hgraph : d.graph = .ok g := by
    have hsame : d.nodes.map (·.id) = g.nodes.map (·.id) :=
      List.forall₂_eq_eq_eq ▸ List.forall₂_map_left_iff.2 (List.forall₂_map_right_iff.2
        (hgives.imp fun _ _ h => h.id.symm))
    exact Document.graph_eq_ok_iff.2 ⟨hsame ▸ hids, hgives, rfl⟩
  rw [fileText, hdocument, sorted_write_document, Graph.ofText,
    (Document.codec_restores hdata).ofText_sorted]
  exact hgraph

end StandFor
end Parts

/-! ## Nodes -/

section
variable {id title page : String} {share : Nat}

theorem readsBack_ofNat {n : Nat} (h : n < UInt64.size) : (Json.Number.integer n).ReadsBack :=
  .integer ⟨by omega, by exact_mod_cast h⟩

theorem stored_traffic :
    Stored ⟨"traffic", "traffic", none, .object [("defaultVariantId", .string page)]⟩
      ⟨"traffic", none, .traffic ⟨some page⟩⟩ where
  fits := .object (by simp) (List.forall_mem_singleton.2 (.string _))
  legible := nofun
  gives := DocumentNode.check_eq_ok_iff.1 rfl

theorem stored_variant {parent : Option String} (h : share ≤ 100) :
    Stored ⟨id, "variant", parent, .object (variantData title page share)⟩
      ⟨id, parent, .variant ⟨title, some page, some (Float.ofInt share)⟩⟩ where
  fits := .object (by simp [variantData]) <| by
    simp only [variantData, List.forall_mem_cons]
    exact ⟨.string _, .string _, .number _, nofun⟩
  legible := List.forall_mem_singleton.2 (readsBack_ofNat (h.trans_lt (by decide)))
  gives := DocumentNode.check_eq_ok_iff.1 rfl

theorem fits_rule {k : Nat} (id type value : String) : (rule id type value).Fits (k + 1) :=
  .object (by simp) <| by
    simp only [List.forall_mem_cons]
    exact ⟨.string _, .string _, .string _, .string _, nofun⟩

theorem stored_segment {country device : String} {priority : Nat} (h : priority < 100) :
    ∃ s : Segment, s.primaryPage = some page ∧ Stored
      ⟨id, "segment", none, .object [
        ("title", .string title),
        ("priority", .ofNat priority),
        ("primaryLandingPageId", .string page),
        ("rules", .array [
          rule (id ++ "-country") "country" country, rule (id ++ "-device") "device" device])]⟩
      ⟨id, none, .segment s⟩ := by
  let s : Segment := { Segment.blank with
    title := title, priority := Float.ofInt priority, primaryPage := some page,
    rules := [
      ⟨id ++ "-country", .country, .equals, some (.text country), "", none⟩,
      ⟨id ++ "-device", .device, .equals, some (.text device), "", none⟩] }
  refine ⟨s, rfl, ?_, ?_, DocumentNode.check_eq_ok_iff.1 rfl⟩
  · refine .object (by simp) ?_
    simp only [List.forall_mem_cons]
    exact ⟨.string _, .number _, .string _, .array (List.forall_mem_cons.2
      ⟨fits_rule _ _ _, List.forall_mem_singleton.2 (fits_rule _ _ _)⟩), nofun⟩
  · exact List.forall_mem_singleton.2 (readsBack_ofNat (h.trans (by decide)))

end

/-! ## Tests -/

section
variable {size : Size} {test segment : String} {l : List Nat}

/-- The arm that a test lists under a number. -/
def listedArm (size : Size) (test : String) (i share : Nat) : Arm where
  id := test ++ "-arm-" ++ toString i
  name := "Arm " ++ toString i
  page := some (pageId (i % size.pages))
  allocation := Float.ofInt share
  isControl := i = 0

theorem read_arms : Arm.codec.list.read .value
    (.ofJson (Json.array (l.mapIdx (arm size test))).sorted) =
      .ok (l.mapIdx (listedArm size test)) := by
  have harm (i share : Nat) : Arm.codec.read .value (.ofJson (arm size test i share).sorted) =
      .ok (listedArm size test i share) := by
    simp only [arm, listedArm]
    cases decide (i = 0) <;> rfl
  have hitems : (l.mapIdx (arm size test)).mapM
      (fun v => Arm.codec.read .value (.ofJson v.sorted)) =
        .ok (l.mapIdx (listedArm size test)) := by
    rw [List.mapIdx_eq_zipIdx_map, List.mapIdx_eq_zipIdx_map, List.mapM_map]
    exact mapM_eq_ok fun a _ => harm a.2 a.1
  have hlist (ts : List Tree) : Arm.codec.list.read .value (.list ts .bracket) =
      ts.mapM (Arm.codec.read .value) := by
    show (ts.mapM (Arm.codec.read .value) >>= fun as => _) = _
    cases ts.mapM (Arm.codec.read .value) <;> rfl
  rw [Json.sorted_array, Tree.ofJson, Tree.ofItems_eq_map, List.map_map, hlist, List.mapM_map]
  exact hitems

/-- The data of a test with some arms. -/
def testData (segment : String) (arms : Json) : List (String × Json) := [
  ("title", .string ("Test for " ++ segment)),
  ("hypothesis", .string "A shorter headline lifts signups"),
  ("status", .string "draft"),
  ("primaryMetric", .string "signup"),
  ("completionCriteria", .object [("minSampleSize", .ofNat 1000)]),
  ("confidenceLevel", .ofNat 95),
  ("variants", arms)]

/-- A test is read as one and the same, but for its arms. -/
theorem read_testData (segment : String) : ∃ t : AbTest, t.primaryMetric = some "signup" ∧
    ∀ arms : Json, AbTest.codec.ofValue (Json.object (testData segment arms)).sorted =
      (Arm.codec.list.read .value (.ofJson arms.sorted)).map fun l => { t with arms := l } := by
  let t : AbTest := { AbTest.blank with
    title := "Test for " ++ segment, hypothesis := "A shorter headline lifts signups",
    primaryMetric := some "signup", completionCriteria := some ⟨some 1000, none, none⟩,
    poolingPercent := 20.0 }
  -- sorted by their names, the arms come last
  let frame : Frame := .member (Tree.ofMembers [
    ("completionCriteria", .object [("minSampleSize", .ofNat 1000)]),
    ("confidenceLevel", .ofNat 95),
    ("hypothesis", .string "A shorter headline lifts signups"),
    ("primaryMetric", .string "signup"),
    ("status", .string "draft"),
    ("title", .string ("Test for " ++ segment))]) (.ofString "variants") [] .bracket
  have hframe : frame.Leads ["variants"] 7 := ⟨⟨"variants", .head _, rfl⟩, nofun⟩
  have hread : AbTest.codec.read .value (frame.fill (.ofJson (.array []))) = .ok t := rfl
  obtain ⟨_, _, ⟨⟩, -, -, hfill⟩ :=
    (Json.Fields.At.tail _ (by decide) <| .tail _ (by decide) <| .tail _ (by decide) <|
      .tail _ (by decide) <| .tail _ (by decide) <| .tail _ (by decide) <|
      .tail _ (by decide) <| .head _).record_read_fill
      (fun arms (t : AbTest) => { t with arms := arms }) (fun _ _ => rfl) hframe hread
  exact ⟨t, rfl, fun arms => hfill (.ofJson arms.sorted)⟩

theorem stored_test (h : ∀ share ∈ l, share ≤ 100) :
    ∃ t : AbTest, t.primaryMetric = some "signup" ∧ t.arms = l.mapIdx (listedArm size test) ∧
      Stored ⟨test, "ab-test", none,
        .object (testData segment (.array (l.mapIdx (arm size test))))⟩
        ⟨test, none, .abTest t⟩ := by
  obtain ⟨t, hmetric, hread⟩ := read_testData segment
  have hread := hread (.array (l.mapIdx (arm size test)))
  rw [read_arms] at hread
  have harm : ∀ v ∈ l.mapIdx (arm size test), ∃ i, ∃ share ∈ l, v = arm size test i share := by
    intro v hv
    obtain ⟨i, hi, rfl⟩ := List.mem_mapIdx.1 hv
    exact ⟨i, _, List.getElem_mem hi, rfl⟩
  refine ⟨{ t with arms := l.mapIdx (listedArm size test) }, hmetric, rfl, ?_, ?_,
    ⟨rfl, rfl, .head _, congrArg (Except.map Payload.abTest) hread⟩⟩
  · have harms : (Json.array (l.mapIdx (arm size test))).Fits 2 := .array fun v hv => by
      obtain ⟨i, share, -, rfl⟩ := harm v hv
      refine .object (by simp) ?_
      simp only [List.forall_mem_cons]
      exact ⟨.string _, .string _, .string _, .number _, .bool _, nofun⟩
    refine .object (by simp [testData]) ?_
    simp only [testData, List.forall_mem_cons]
    exact ⟨.string _, .string _, .string _, .string _,
      .object (by simp) (List.forall_mem_singleton.2 (.number _)), .number _,
      harms.mono (by decide), nofun⟩
  · have hnumbers (v : Json) : (Json.object (testData segment v)).numbers =
        .integer (1000 : Nat) :: .integer (95 : Nat) :: (v.numbers ++ []) := rfl
    rw [hnumbers, List.append_nil, List.forall_mem_cons, List.forall_mem_cons, Json.numbers_array]
    refine ⟨readsBack_ofNat (by decide), readsBack_ofNat (by decide), fun n hn => ?_⟩
    obtain ⟨v, hv, hn⟩ := List.mem_flatMap.1 hn
    obtain ⟨i, share, hshare, rfl⟩ := harm v hv
    obtain rfl := List.mem_singleton.1 hn
    exact readsBack_ofNat ((h share hshare).trans_lt (by decide))

end

/-! ## The context -/

namespace Size

/-- All pages, published. -/
def pageEntries (size : Size) : List (String × PageStatus) :=
  (List.range size.pages).map fun i => (pageId i, .published)

/-- The context that is written for a campaign. -/
def known (size : Size) : Context := ⟨.ofList size.pageEntries, false, none⟩

/-- Pages with different numbers have different ids. -/
theorem nodup_pageEntries (size : Size) : (size.pageEntries.map (·.1)).Nodup := by
  rw [pageEntries, List.map_map]
  exact List.nodup_range.map fun _ _ h => Nat.repr_inj.1 ((String.append_right_inj _).1 h)

end Size

/-- The pages are read one by one, in the order in which they are sorted. -/
theorem read_pages (size : Size) : PageStatus.codec.sortedMap.read (.text 126)
    (.ofJson (Json.object (size.pageEntries.map fun e => (e.1, .string "published"))).sorted) =
      .ok (.ofList size.pageEntries) := by
  obtain ⟨l, hperm, hsorted⟩ := Json.Rearrangement.sorted.object_map
    (fun _ : String × PageStatus => .string "published") size.nodup_pageEntries
  have hstatus : ∀ e ∈ l, PageStatus.codec.read (.text 125) (.ofJson (.string "published")) =
      .ok e.2 := by
    intro e he
    have he : e ∈ size.pageEntries := hperm.subset he
    obtain ⟨i, -, rfl⟩ := List.mem_map.1 he
    rfl
  have hentries := Codec.readEntries_ofMembers PageStatus.codec (.text 125)
    (fun _ => .string "published") hstatus ∅
  have hsame : l.foldl (fun m e => m.insert e.1 e.2) ∅ = SortedMap.ofList size.pageEntries :=
    SortedMap.ofList_eq_of_perm hperm size.nodup_pageEntries
  have hsorted : _ = Json.object (l.map fun e => (e.1, Json.string "published")) := hsorted
  rw [hsorted, Tree.ofJson]
  simp only [Codec.sortedMap, Source.enter, bind, Except.bind, hentries, hsame]
  rfl

theorem ofText_context (size : Size) :
    Context.codec.ofText (fileText size.context) = .ok size.known := by
  have hcontext : size.context = .object [("landingPages",
      .object (size.pageEntries.map fun e => (e.1, .string "published")))] := by
    rw [Size.pageEntries, List.map_map]
    rfl
  have hlegible : ∀ n ∈ size.context.sorted.numbers, n.ReadsBack := by
    intro n hn
    have hn : n ∈ size.context.numbers := Json.numbers_sorted_subset _ hn
    rw [hcontext, Json.numbers_object, List.flatMap_singleton, Json.numbers_object,
      List.flatMap_map] at hn
    obtain ⟨_, -, hn⟩ := List.mem_flatMap.1 hn
    exact absurd hn List.not_mem_nil
  let frame : Frame := .member [] (.ofString "landingPages") [] .bracket
  have hframe : frame.Leads ["landingPages"] 0 := ⟨⟨"landingPages", .head _, rfl⟩, nofun⟩
  have hempty : Context.codec.read (.text 127) (frame.fill (.ofJson (.object []))) =
      .ok .empty := rfl
  obtain ⟨_, _, ⟨⟩, -, -, hfill⟩ := (Json.Fields.At.head _).record_read_fill
    (fun pages (c : Context) => { c with pages := pages }) (fun _ _ => rfl) hframe hempty
  have hread : Context.codec.read (.text Codec.maxDepth) (.ofJson size.context.sorted) =
      .ok size.known := by
    rw [hcontext]
    exact (hfill _).trans (congrArg (Except.map _) (read_pages size))
  simp only [fileText, Codec.ofText, Json.pretty,
    Tree.ofText_print Json.Spacing.blank_indented _ hlegible, hread]
  rfl

end CampaignRouting.Sample
