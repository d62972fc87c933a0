import CampaignRouting.Graph.Basic
import Std.Data.HashMap

/-! Tables over a graph, made once, by which nodes and edges are found without a walk: nodes by id,
edges by source, nodes by parent. -/

namespace CampaignRouting

/-- Why a graph has no single entry point. -/
inductive StructureError where
  | noTraffic
  | severalTraffic (ids : List String)
deriving DecidableEq, Repr

def StructureError.message : StructureError → String
  | noTraffic => "Campaign graph has no traffic node"
  | severalTraffic ids =>
    "Campaign graph has " ++ toString ids.length ++ " traffic nodes, expected exactly one: "
      ++ ", ".intercalate ids

/-- The entry point of a campaign. -/
structure Root where
  id : String
  traffic : Traffic
deriving BEq

namespace Graph

/-- The entry points in node order. -/
def roots (g : Graph) : List Root := g.nodes.filterMap fun n => n.traffic?.map fun t => ⟨n.id, t⟩

/-- The only entry point. -/
def root (g : Graph) : Except StructureError Root :=
  match g.roots with
  | [] => .error .noTraffic
  | [r] => .ok r
  | rs => .error (.severalTraffic (rs.map (·.id)))

/-- Tables of the nodes and edges of a graph. -/
structure Index where
  byId : Std.HashMap String Node
  bySource : Std.HashMap String (List Edge)
  byParent : Std.HashMap String (List Node)

/-- Puts `a` before what is listed under `key`. -/
def file {α : Type} (key : String) (a : α) (table : Std.HashMap String (List α)) :
    Std.HashMap String (List α) :=
  table.insert key (a :: table.getD key [])

/-- The tables are filled from the last node and edge to the first, so that of several nodes with
one id the first stays, and lists come out in order. -/
def index (g : Graph) : Index where
  byId := g.nodes.foldr (fun n table => table.insert n.id n) ∅
  bySource := g.edges.foldr (fun e table => file e.source e table) ∅
  byParent := g.nodes.foldr (fun n table => n.parent.elim table fun p => file p n table) ∅

namespace Index

/-- The node with an id. -/
def node? (i : Index) (id : String) : Option Node := i.byId[id]?

/-- The edges that leave a node, in edge order. -/
def outEdges (i : Index) (id : String) : List Edge := i.bySource.getD id []

/-- The nodes that the edges leaving a node lead to. Edges to nowhere are skipped. -/
def targets (i : Index) (id : String) : List Node := (i.outEdges id).filterMap (i.node? ·.target)

/-- The nodes that a node owns, in node order. -/
def children (i : Index) (id : String) : List Node := i.byParent.getD id []

end Index
end Graph
end CampaignRouting
