import CampaignRouting.Json.Basic
import CampaignRouting.Sample.Dice

/-! Made-up campaigns of a given size, as documents: a traffic node, segments for countries and
devices, and below each segment either variants or a test with its arms. -/

namespace CampaignRouting.Sample

/-- How large a campaign is to be made. -/
structure Size where
  segments : Nat
  /-- The most variants that a segment may have. -/
  maxVariants : Nat
  /-- How many pages there are to link to. -/
  pages : Nat
deriving DecidableEq, Repr

def countries : List String := ["DE", "AT", "CH", "FR", "NL", "US"]

def devices : List String := ["mobile", "desktop", "tablet"]

/-- The id of a page, by its number. -/
def pageId (i : Nat) : String := "lp-" ++ toString i

/-- Whole percentages for some parts, as even as can be; the larger ones come first. -/
def shares (parts : Nat) : List Nat :=
  List.replicate (100 % parts) (100 / parts + 1)
    ++ List.replicate (parts - 100 % parts) (100 / parts)

/-- Nodes and edges. -/
structure Parts where
  nodes : List Json
  edges : List Json

namespace Parts

def empty : Parts := ⟨[], []⟩

def append (p q : Parts) : Parts := ⟨p.nodes ++ q.nodes, p.edges ++ q.edges⟩

instance : Append Parts := ⟨append⟩

end Parts

def edge (source target : String) : Json :=
  .object [
    ("id", .string (source ++ "->" ++ target)),
    ("source", .string source),
    ("target", .string target)]

def node (id type : String) (data : List (String × Json)) : Json :=
  .object [("id", .string id), ("type", .string type), ("data", .object data)]

/-- A node below another one. -/
def childNode (id type parent : String) (data : List (String × Json)) : Json :=
  .object [
    ("id", .string id), ("type", .string type), ("parentId", .string parent),
    ("data", .object data)]

/-- A rule that asks for one value. -/
def rule (id type value : String) : Json :=
  .object [
    ("id", .string id), ("ruleType", .string type), ("operator", .string "equals"),
    ("value", .string value)]

/-- One of the pages there are. -/
def somePage (size : Size) : StateM Dice String := do
  return pageId (← Dice.throwBelow size.pages)

/-- The entry point. -/
def traffic (size : Size) : StateM Dice Parts := do
  return ⟨[node "traffic" "traffic" [("defaultVariantId", .string (← somePage size))]], []⟩

/-- What a variant is about. -/
def variantData (title page : String) (share : Nat) : List (String × Json) :=
  [("title", .string title), ("landingPageId", .string page), ("trafficPercentage", .ofNat share)]

/-- A variant that a segment leads to. -/
def variant (size : Size) (segment : String) (i share : Nat) : StateM Dice Parts := do
  let id := segment ++ "-variant-" ++ toString i
  let page ← somePage size
  return ⟨[node id "variant" (variantData ("Variant " ++ toString i) page share)],
    [edge segment id]⟩

/-- An arm as the test lists it. -/
def arm (size : Size) (test : String) (i share : Nat) : Json :=
  .object [
    ("id", .string (test ++ "-arm-" ++ toString i)),
    ("name", .string ("Arm " ++ toString i)),
    ("landingPageId", .string (pageId (i % size.pages))),
    ("trafficAllocation", .ofNat share),
    ("isControl", .bool (i = 0))]

/-- An arm as a variant that the test owns. -/
def armNode (size : Size) (test : String) (i share : Nat) : StateM Dice Json := do
  let page ← somePage size
  return childNode (test ++ "-node-" ++ toString i) "variant" test
    (variantData ("Arm " ++ toString i) page share)

/-- A test with its arms, which are listed by it and drawn as well. -/
def test (size : Size) (segment : String) (arms : Nat) : StateM Dice Parts := do
  let id := segment ++ "-test"
  let data : List (String × Json) := [
    ("title", .string ("Test for " ++ segment)),
    ("hypothesis", .string "A shorter headline lifts signups"),
    ("status", .string "draft"),
    ("primaryMetric", .string "signup"),
    ("completionCriteria", .object [("minSampleSize", .ofNat 1000)]),
    ("confidenceLevel", .ofNat 95),
    ("variants", .array ((shares arms).mapIdx (arm size id)))]
  let children ← (shares arms).zipIdx.mapM fun (share, i) => armNode size id i share
  return ⟨node id "ab-test" data :: children, [edge segment id]⟩

/-- What a segment leads to: a test in three cases out of ten where there are several variants. -/
def destinations (size : Size) (segment : String) : StateM Dice Parts := do
  let variants := (← Dice.throwBelow size.maxVariants) + 1
  let tested ← if 1 < variants then Dice.chance 3 10 else pure false
  if tested then test size segment variants
  else
    let parts ← (shares variants).zipIdx.mapM fun (share, i) => variant size segment i share
    return parts.foldl (· ++ ·) .empty

/-- A segment for one country and one kind of device. -/
def segment (size : Size) (i : Nat) : StateM Dice Parts := do
  let id := "segment-" ++ toString i
  let country ← Dice.oneOf countries
  let device ← Dice.oneOf devices
  let page ← somePage size
  let priority ← Dice.throwBelow 100
  let data : List (String × Json) := [
    ("title", .string (country ++ " " ++ device ++ " visitors")),
    ("priority", .ofNat priority),
    ("primaryLandingPageId", .string page),
    ("rules", .array [
      rule (id ++ "-country") "country" country, rule (id ++ "-device") "device" device])]
  return ⟨[node id "segment" data], [edge "traffic" id]⟩ ++ (← destinations size id)

/-- A whole campaign. -/
def campaign (size : Size) : StateM Dice Parts := do
  let root ← traffic size
  let segments ← (List.range size.segments).mapM (segment size)
  return segments.foldl (· ++ ·) root

/-- The document of a campaign. -/
def Parts.document (p : Parts) : Json :=
  .object [("nodes", .array p.nodes), ("edges", .array p.edges)]

/-- The context in which all pages are published. -/
def Size.context (size : Size) : Json :=
  let pages := (List.range size.pages).map fun i => (pageId i, Json.string "published")
  .object [("landingPages", .object pages)]

end CampaignRouting.Sample
