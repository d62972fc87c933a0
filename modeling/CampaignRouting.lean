import CampaignRouting.Main
import CampaignRouting.Proofs.CommandLine.Agreement
import CampaignRouting.Proofs.CommandLine.Publication
import CampaignRouting.Proofs.Config.Texts
import CampaignRouting.Proofs.Graph.Readers
import CampaignRouting.Proofs.Graph.Respelling
import CampaignRouting.Proofs.Graph.RoundTrip
import CampaignRouting.Proofs.Publish.History
import CampaignRouting.Proofs.Publish.Hosts
import CampaignRouting.Proofs.Publish.Retry
import CampaignRouting.Proofs.Routing.Arms
import CampaignRouting.Proofs.Routing.Edits
import CampaignRouting.Proofs.Routing.Inert
import CampaignRouting.Proofs.Routing.Placeholders
import CampaignRouting.Proofs.Routing.RoundTrip
import CampaignRouting.Proofs.Routing.RuleValue
import CampaignRouting.Proofs.Sample.Campaign
import CampaignRouting.Proofs.Validation.Edges
import CampaignRouting.Proofs.Validation.Pages
import CampaignRouting.Proofs.Validation.Precedence
import CampaignRouting.Proofs.Validation.RoundTrip
import CampaignRouting.Proofs.Validation.Settings
