import CampaignRouting.Config.Basic
import CampaignRouting.Text.Blank
import CampaignRouting.Validation.Context
import CampaignRouting.Validation.Issue

/-! The checks of a campaign: those of each kind of node, and those of the campaign as a whole. -/

namespace CampaignRouting

/-- A reference to a page, where a blank id counts as none. -/
def assigned (page : Option PageId) : Option PageId := page.filter fun id => ¬Text.AllBlank id

namespace Context

/-- A page that a node refers to has to be there, and published. -/
def checkPage (c : Context) (user : PageUser) (page : PageId) : List Issue :=
  match c.pageStatus? page with
  | none => [.pageDeleted user]
  | some .published => []
  | some _ => [.pageUnpublished user]

/-- A node that leads to a page has to name one that is fit for visitors. -/
def checkAssigned (c : Context) (user : PageUser) (page : Option PageId) : List Issue :=
  match assigned page with
  | none => [.pageUnset user]
  | some page => c.checkPage user page

/-- Visitors that match no segment need a page. Where none is named, the issue is what stands in the
way of naming one. -/
def checkTraffic (c : Context) (t : Traffic) : List Issue :=
  match assigned t.defaultPage with
  | none =>
    if c.HasPages then [.defaultPageUnset]
    else if c.LeadFormValid then [.defaultPageAwaitsPages]
    else [.defaultPageAwaitsLeadForm]
  | some page => c.checkPage .traffic page

/-- The share of a variant has to be set, and be one. -/
def checkShare : Option Float → List Issue
  | none => [.shareUnset]
  | some share => if 0.0 ≤ share ∧ share ≤ 100.0 then [] else [.shareOutOfRange share]

/-- A variant needs a page and a share. -/
def checkVariant (c : Context) (v : Variant) : List Issue :=
  c.checkAssigned .variant v.page ++ checkShare v.share

end Context

/-- The shares of some variants together; a share that is not set counts as nothing. -/
def totalShare (variants : List Variant) : Float := Percent.total (variants.filterMap (·.share))

/-- Raises an issue where variants do not share all visitors among them. -/
def checkSplit (issue : Float → Issue) (variants : List Variant) : List Issue :=
  if variants = [] ∨ Percent.SumsToHundred (totalShare variants) Percent.variantTolerance then []
  else [issue (totalShare variants)]

namespace Graph.Index

/-- The variants that edges lead to from a node. -/
def routedVariants (i : Index) (id : String) : List Variant := (i.targets id).filterMap (·.variant?)

/-- The variants that a node owns. -/
def ownedVariants (i : Index) (id : String) : List Variant := (i.children id).filterMap (·.variant?)

/-- A segment needs rules and a page, and its variants have to share all its visitors. -/
def checkSegment (i : Index) (c : Context) (id : String) (s : Segment) : List Issue :=
  c.checkAssigned .segment s.primaryPage
    ++ (if s.rules.isEmpty then [.noRules] else [])
    ++ checkSplit .segmentSplit (i.routedVariants id)

/-- The variants that a test owns count, not the arms that it lists; only the allocations of these
are looked at as well. -/
def checkTest (i : Index) (config : ValidationConfig) (id : String) (t : AbTest) : List Issue :=
  let owned := i.ownedVariants id
  let allocated := Percent.total (t.arms.map (·.allocation))
  (if owned.length < 2 then [.tooFewVariants owned.length] else [])
    ++ (if (Text.trim t.hypothesis.toList).length ≤ config.minHypothesisChars then
      [.weakHypothesis] else [])
    ++ (if t.primaryMetric.all (Text.AllBlank ·) then [.noMetric] else [])
    ++ checkSplit .testSplit owned
    ++ (if t.arms.isEmpty ∨ Percent.SumsToHundred allocated Percent.armTolerance then []
      else [.armSplit allocated])
    ++ (if t.completionCriteria.any (·.IsSet) then [] else [.noCompletionCriteria])

/-- The issues with a node. Notes and forms have none. -/
def checkNode (i : Index) (config : ValidationConfig) (c : Context) (n : Node) : List Issue :=
  match n.payload with
  | .traffic p => c.checkTraffic p
  | .segment p => i.checkSegment c n.id p
  | .abTest p => i.checkTest config n.id p
  | .variant p => c.checkVariant p
  | .note _ | .form _ => []

end Graph.Index

/-- The issues with the lead form. -/
def Context.checkLeadForm (c : Context) : List Issue :=
  if c.needsLeadForm then
    match c.leadForm with
    | none => [.leadFormMissing]
    | some form => if form.fieldCount = 0 then [.leadFormEmpty] else []
  else []

/-- The issues with the lead form, or else with the pages. -/
def Context.checkCampaign (c : Context) : List Issue :=
  match c.checkLeadForm with
  | [] => if c.HasPages then [] else [.noPages]
  | issues => issues

/-- The issue of a campaign without a single entry point. -/
def Graph.checkRoot (g : Graph) : List Issue :=
  match g.root with
  | .ok _ => []
  | .error e => [.badRoot e]

end CampaignRouting
