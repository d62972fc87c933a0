import CampaignRouting.Config.Basic
import CampaignRouting.Json.Tagged
import CampaignRouting.Text.Blank

/-! Targets, the places that a routing table is written to, and the store keys that stand for
them. -/

namespace CampaignRouting
open Json

/-- A place that a routing table is written to. -/
inductive Target where
  | preview (campaign : String)
  | production (workspace project slug : String)
  | customDomain (host : String)
deriving BEq, DecidableEq, Repr

/-- An ASCII capital letter in lower case; all other characters stay. -/
def lowerAscii (c : Char) : Char := if 'A' ≤ c ∧ c ≤ 'Z' then Char.ofNat (c.toNat + 32) else c

/-- A host as it is written in keys: without blanks around it, then without dots at its end, and
with ASCII letters in lower case. -/
def normalHost (host : String) : String :=
  String.ofList ((Text.dropEndWhile (· = '.') (Text.trim host.toList)).map lowerAscii)

namespace Target

/-- The key under which the store keeps the table for a target. -/
def key (config : PublishConfig) : Target → String
  | preview campaign => config.keyPrefix ++ ":preview:" ++ campaign
  | production workspace project slug =>
    config.keyPrefix ++ ":route:" ++ workspace ++ "/" ++ project ++ "/" ++ slug
  | customDomain host => config.keyPrefix ++ ":domain:" ++ normalHost host

/-! ## JSON form -/

/-- The kinds of targets, by which their JSON forms are tagged. -/
inductive Kind where
  | preview | production | customDomain
deriving DecidableEq, Repr

def Kind.all : List Kind := [.preview, .production, .customDomain]

def Kind.name : Kind → String
  | preview => "preview"
  | production => "production"
  | customDomain => "custom-domain"

def previewCodec : Codec String :=
  .record "struct variant PublishTarget::Preview" (.cons (.required "campaign_id" .string) .nil)
    (fun (campaign, ()) => campaign) (fun campaign => (campaign, ()))

def productionCodec : Codec (String × String × String) :=
  .record "struct variant PublishTarget::Production"
    (.cons (.required "workspace" .string) <|
      .cons (.required "project" .string) <|
      .cons (.required "slug" .string) .nil)
    (fun (workspace, project, slug, ()) => (workspace, project, slug))
    (fun (workspace, project, slug) => (workspace, project, slug, ()))

def customDomainCodec : Codec String :=
  .record "struct variant PublishTarget::CustomDomain" (.cons (.required "host" .string) .nil)
    (fun (host, ()) => host) (fun host => (host, ()))

/-- Reads the tag first, wherever it stands, and then the fields of its kind. -/
def read (source : Source) (t : Tree) : Except Json.Error Target := do
  let (kind, fields) ← readTagged "PublishTarget" "kind" Kind.all Kind.name source t
  match kind with
  | .preview => (previewCodec.read .buffered fields).map .preview
  | .production => (productionCodec.read .buffered fields).map fun (w, p, s) => .production w p s
  | .customDomain => (customDomainCodec.read .buffered fields).map .customDomain

/-- The object with the tag before the fields. -/
def tagged (kind : Kind) : Json → Json
  | .object members => .object (("kind", .string kind.name) :: members)
  | v => v

def toJson : Target → Json
  | preview campaign => tagged .preview (previewCodec.write campaign)
  | production w p s => tagged .production (productionCodec.write (w, p, s))
  | customDomain host => tagged .customDomain (customDomainCodec.write host)

def codec : Codec Target := ⟨read, toJson⟩

end Target
end CampaignRouting
