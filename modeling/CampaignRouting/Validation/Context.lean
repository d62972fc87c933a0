import CampaignRouting.Graph.Payload
import CampaignRouting.Json.Record

/-! What is known about a project beyond the campaign graph: its landing pages, and whether the
campaign needs a form for leads. Pages that have been deleted are simply not there. -/

namespace CampaignRouting
open Json

/-- How far a page has come. Only published ones are fit for visitors. -/
inductive PageStatus where
  | draft | published | archived
deriving DecidableEq, Repr

namespace PageStatus

def all : List PageStatus := [draft, published, archived]

def name : PageStatus → String
  | draft => "draft"
  | published => "published"
  | archived => "archived"

def codec : Codec PageStatus := .enum all name

end PageStatus

/-- The form for leads, of which only the number of fields matters. -/
structure LeadForm where
  fieldCount : Nat
deriving BEq, DecidableEq, Repr

/-- What is known about the project of a campaign. -/
structure Context where
  pages : SortedMap PageStatus
  needsLeadForm : Bool
  leadForm : Option LeadForm
deriving BEq

namespace Context

def empty : Context := ⟨∅, false, none⟩

def withPage (c : Context) (page : PageId) (status : PageStatus) : Context :=
  { c with pages := c.pages.insert page status }

/-- The campaign collects leads, with the given form or still without one. -/
def withLeadForm (c : Context) (form : Option LeadForm) : Context :=
  { c with needsLeadForm := true, leadForm := form }

/-- The status of a page that is there. -/
def pageStatus? (c : Context) (page : PageId) : Option PageStatus := c.pages.get? page

/-- The project has some page, published or not. -/
def HasPages (c : Context) : Prop := c.pages.isEmpty = false

instance (c : Context) : Decidable c.HasPages := by unfold HasPages; infer_instance

/-- No form is needed, or there is one with at least one field. -/
def LeadFormValid (c : Context) : Prop :=
  c.needsLeadForm = true → ∃ form, c.leadForm = some form ∧ 0 < form.fieldCount

instance (c : Context) : Decidable c.LeadFormValid :=
  decidable_of_iff
    (c.needsLeadForm = false ∨ (c.leadForm.any fun form => 0 < form.fieldCount)) <| by
    unfold LeadFormValid
    cases c.needsLeadForm <;> cases c.leadForm <;> simp

end Context

/-! ## JSON form -/

def LeadForm.codec : Codec LeadForm :=
  .record "struct LeadForm" (.cons (.required "fieldCount" .size) .nil)
    (fun (n, ()) => ⟨n⟩) (fun f => (f.fieldCount, ()))

def Context.codec : Codec Context :=
  .record "struct ValidationContext"
    (.cons (.withDefault "landingPages" ∅ (.sortedMap PageStatus.codec)) <|
      .cons (.withDefault "requiresLeadForm" false .bool) <|
      .cons (.optional "leadForm" LeadForm.codec) .nil)
    (fun (pages, needs, form, ()) => ⟨pages, needs, form⟩)
    (fun c => (c.pages, c.needsLeadForm, c.leadForm, ()))

end CampaignRouting
