import CampaignRouting.Graph.Payload

/-! Campaign graphs. Visitors enter at the traffic node and are routed along edges to segments,
and on to variants and tests. -/

namespace CampaignRouting

/-- The kinds of nodes. -/
inductive NodeType where
  | traffic | segment | abTest | variant | note | form
deriving DecidableEq, Repr

namespace NodeType

/-- All kinds, in the order in which a reader tries their tags. -/
def all : List NodeType := [traffic, segment, abTest, variant, note, form]

/-- The tag of a kind in a document. -/
def name : NodeType → String
  | traffic => "traffic"
  | segment => "segment"
  | abTest => "ab-test"
  | variant => "variant"
  | note => "note"
  | form => "form"

/-- The type with a tag. Tests have two older spellings. -/
def ofTag? (tag : String) : Option NodeType :=
  if tag = "abTest" ∨ tag = "ab_test" then some abTest
  else all.find? (·.name = tag)

end NodeType

/-- What a node carries, by its kind. -/
inductive Payload where
  | traffic (p : Traffic)
  | segment (p : Segment)
  | abTest (p : AbTest)
  | variant (p : Variant)
  | note (p : Note)
  | form (p : Form)
deriving BEq

def Payload.type : Payload → NodeType
  | traffic _ => .traffic
  | segment _ => .segment
  | abTest _ => .abTest
  | variant _ => .variant
  | note _ => .note
  | form _ => .form

/-- A node of a campaign. -/
structure Node where
  id : String
  /-- The node that owns this one: a test owns its variants. -/
  parent : Option String
  payload : Payload
deriving BEq

namespace Node

def type (n : Node) : NodeType := n.payload.type

/-- The title that people see. -/
def title (n : Node) : String :=
  match n.payload with
  | .traffic _ => "Traffic"
  | .segment p => p.title
  | .abTest p => p.title
  | .variant p => p.title
  | .note _ => "Note"
  | .form p => p.title

/-- The payload, if the node is an entry point. -/
def traffic? (n : Node) : Option Traffic :=
  match n.payload with
  | .traffic p => some p
  | _ => none

/-- The payload, if the node is a segment. -/
def segment? (n : Node) : Option Segment :=
  match n.payload with
  | .segment p => some p
  | _ => none

/-- The payload, if the node is a variant. -/
def variant? (n : Node) : Option Variant :=
  match n.payload with
  | .variant p => some p
  | _ => none

end Node

/-- A way from one node to another. Its ends are ids, which need not be those of nodes. -/
structure Edge where
  id : String
  source : String
  target : String
deriving BEq, DecidableEq, Repr

/-- A campaign as it is drawn: nodes and edges, both in order. -/
structure Graph where
  nodes : List Node
  edges : List Edge
deriving BEq

namespace Graph

/-- The graph with nothing in it. -/
def empty : Graph := ⟨[], []⟩

/-- The nodes and edges of both graphs, in order. -/
def append (g h : Graph) : Graph := ⟨g.nodes ++ h.nodes, g.edges ++ h.edges⟩

instance : Append Graph := ⟨append⟩

end Graph
end CampaignRouting
