import CampaignRouting.Validation.Checks

/-! Validation of a graph: the findings about its nodes, and those about the campaign. -/

namespace CampaignRouting

/-- Whether `part` stands somewhere in a text. -/
def occursIn (part : List Char) : List Char → Bool
  | [] => part.isEmpty
  | c :: cs => part.isPrefixOf (c :: cs) || occursIn part cs

/-- The node holds a place in the editor until its author fills it in. -/
def ValidationConfig.IsPlaceholder (config : ValidationConfig) (n : Node) : Prop :=
  config.placeholderMarker ≠ "" ∧ occursIn config.placeholderMarker.toList n.id.toList = true

instance (config : ValidationConfig) (n : Node) : Decidable (config.IsPlaceholder n) := by
  unfold ValidationConfig.IsPlaceholder; infer_instance

namespace Graph

/-- What there is to say about a node, if anything. -/
def nodeResult? (i : Index) (config : ValidationConfig) (c : Context) (n : Node) :
    Option NodeResult :=
  match i.checkNode config c n with
  | [] => none
  | issues => some ⟨n.id, n.type, n.title, issues.map (·.finding)⟩

/-- The findings about the nodes of a graph, in node order. Place holders are passed over, and nodes
without findings do not show. -/
def validate (g : Graph) (config : ValidationConfig) (c : Context) : List NodeResult :=
  (g.nodes.filter fun n => ¬config.IsPlaceholder n).filterMap (nodeResult? g.index config c)

/-- The findings that concern the campaign as a whole, the most fundamental first. -/
def criticalFindings (g : Graph) (c : Context) : List Finding :=
  (c.checkCampaign ++ g.checkRoot).map (·.finding)

end Graph
end CampaignRouting
