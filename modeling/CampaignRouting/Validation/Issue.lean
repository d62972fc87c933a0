import CampaignRouting.Graph.Index
import CampaignRouting.Validation.Finding
import CampaignRouting.Validation.Percent

/-! Everything that validation can find fault with, and how each issue is put into words. -/

namespace CampaignRouting

/-- A kind of node that refers to a landing page. -/
inductive PageUser where
  | traffic | segment | variant
deriving DecidableEq, Repr

namespace PageUser

def name : PageUser → String
  | traffic => "traffic"
  | segment => "segment"
  | variant => "variant"

/-- What the page is called in messages. -/
def subject : PageUser → String
  | traffic => "default landing page"
  | segment | variant => "landing page"

def field : PageUser → String
  | traffic => "defaultVariantId"
  | segment => "primaryLandingPageId"
  | variant => "landingPageId"

end PageUser

/-- What can be wrong with a node or a campaign, with all that its message tells. -/
inductive Issue where
  -- the default page of the traffic node
  | defaultPageUnset
  | defaultPageAwaitsLeadForm
  | defaultPageAwaitsPages
  -- landing pages in general
  | pageUnset (user : PageUser)
  | pageDeleted (user : PageUser)
  | pageUnpublished (user : PageUser)
  -- segments
  | noRules
  | segmentSplit (total : Float)
  -- tests
  | tooFewVariants (count : Nat)
  | weakHypothesis
  | noMetric
  | testSplit (total : Float)
  | armSplit (total : Float)
  | noCompletionCriteria
  -- variants
  | shareUnset
  | shareOutOfRange (share : Float)
  -- the campaign as a whole
  | leadFormMissing
  | leadFormEmpty
  | noPages
  | badRoot (error : StructureError)

namespace Issue

/-- How bad an issue is. Only errors stand in the way of publication. -/
def severity : Issue → Severity
  | noRules => .info
  | weakHypothesis | noCompletionCriteria => .warning
  | _ => .error

/-- The id that an issue is known by. -/
def id : Issue → String
  | defaultPageUnset => "traffic-missing-default"
  | defaultPageAwaitsLeadForm => "traffic-lead-form-incomplete"
  | defaultPageAwaitsPages => "traffic-no-landing-pages"
  | pageUnset user => user.name ++ "-missing-landing-page"
  | pageDeleted user => user.name ++ "-landing-page-deleted"
  | pageUnpublished user => user.name ++ "-landing-page-unpublished"
  | noRules => "segment-no-rules"
  | segmentSplit _ => "segment-variant-split"
  | tooFewVariants _ => "ab-test-min-variants"
  | weakHypothesis => "ab-test-weak-hypothesis"
  | noMetric => "ab-test-missing-metric"
  | testSplit _ => "ab-test-traffic-split"
  | armSplit _ => "ab-test-allocation-sum"
  | noCompletionCriteria => "ab-test-no-completion-criteria"
  | shareUnset | shareOutOfRange _ => "variant-invalid-traffic"
  | leadFormMissing => "lead-form-missing"
  | leadFormEmpty => "lead-form-empty"
  | noPages => "no-landing-pages"
  | badRoot _ => "traffic-source-count"

def message : Issue → String
  | defaultPageUnset => "Select a default landing page for visitors who match no segment"
  | defaultPageAwaitsLeadForm =>
    "Finish the lead capture form before creating a default landing page"
  | defaultPageAwaitsPages => "Create a landing page to use as the default destination"
  | pageUnset user => "Select a " ++ user.subject
  | pageDeleted user => "The selected " ++ user.subject ++ " no longer exists"
  | pageUnpublished user => "Publish the selected " ++ user.subject ++ " first"
  | noRules => "This segment has no targeting rules and will match every visitor"
  | segmentSplit total =>
    "Variant traffic in this segment adds up to " ++ Percent.text total
      ++ "%, it must add up to 100%"
  | tooFewVariants count => "An A/B test needs at least 2 variants, found " ++ toString count
  | weakHypothesis => "Describe what you expect this test to show"
  | noMetric => "Choose the primary metric this test is judged on"
  | testSplit total =>
    "Variant traffic adds up to " ++ Percent.text total ++ "%, it must add up to 100%"
  | armSplit total =>
    "Test allocations add up to " ++ Percent.text total ++ "%, they must add up to 100%"
  | noCompletionCriteria => "Set a sample size or duration so the test knows when to stop"
  | shareUnset => "Set the share of traffic this variant receives"
  | shareOutOfRange share =>
    "Traffic percentage must be between 0 and 100, got " ++ Percent.text share
  | leadFormMissing => "This campaign collects leads but has no lead capture form"
  | leadFormEmpty => "Add at least one field to the lead capture form"
  | noPages => "Create at least one landing page before publishing"
  | badRoot error => error.message

/-- The field of the payload that an issue is about, if it is about one. -/
def field? : Issue → Option String
  | defaultPageUnset | defaultPageAwaitsLeadForm | defaultPageAwaitsPages =>
    some PageUser.traffic.field
  | pageUnset user | pageDeleted user | pageUnpublished user => some user.field
  | noRules => some "rules"
  | weakHypothesis => some "hypothesis"
  | noMetric => some "primaryMetric"
  | armSplit _ => some "variants"
  | noCompletionCriteria => some "completionCriteria"
  | shareUnset | shareOutOfRange _ => some "trafficPercentage"
  | segmentSplit _ | tooFewVariants _ | testSplit _ => none
  | leadFormMissing | leadFormEmpty | noPages | badRoot _ => none

/-- The order in which issues of the campaign as a whole have to be solved. -/
def priority? : Issue → Option UInt32
  | leadFormMissing | leadFormEmpty => some 1
  | noPages => some 2
  | badRoot _ => some 3
  | _ => none

/-- The finding that tells of an issue. -/
def finding (i : Issue) : Finding where
  id := i.id
  isValid := false
  message := i.message
  severity := i.severity
  field := i.field?
  priority := i.priority?

end Issue
end CampaignRouting
