import CampaignRouting.Graph.Codec

/-! Editor documents, the stored form of campaign graphs. A document is read as a whole before any
of its nodes is looked at; then the nodes are checked one by one, and the first fault counts. -/

namespace CampaignRouting
open Json

/-- A node whose payload has not been checked yet. -/
structure DocumentNode where
  id : String
  type : String
  parent : Option String
  data : Json
deriving BEq

/-- A document whose nodes have not been checked yet. -/
structure Document where
  nodes : List DocumentNode
  edges : List Edge
deriving BEq

/-- Data of any shape are taken; a parent is written only where there is one. -/
def DocumentNode.codec : Codec DocumentNode :=
  .record "struct EditorNode"
    (.cons (.required "id" .string) <|
      .cons (Field.alsoNamed (.required "type" .string) ["kind"]) <|
      .cons (Field.hidden (Field.alsoNamed (.optional "parentId" .string) ["parentNode"])) <|
      .cons (Field.alsoNamed (.withDefault "data" .null .json) ["payload"]) .nil)
    (fun (id, type, parent, data, ()) => ⟨id, type, parent, data⟩)
    (fun n => (n.id, n.type, n.parent, n.data, ()))

/-- A document may leave out its nodes or its edges. -/
def Document.codec : Codec Document :=
  .record "struct EditorDocument"
    (.cons (.withDefault "nodes" [] (.list DocumentNode.codec)) <|
      .cons (.withDefault "edges" [] (.list Edge.codec)) .nil)
    (fun (nodes, edges, ()) => ⟨nodes, edges⟩)
    (fun d => (d.nodes, d.edges, ()))

/-- Why a document is no graph. -/
inductive GraphError where
  | malformed (error : Json.Error)
  | unknownType (id tag : String)
  | invalidPayload (id : String) (type : NodeType) (error : Json.Error)
  | duplicateId (id : String)
deriving DecidableEq, Repr

def GraphError.message : GraphError → String
  | malformed error => "Failed to parse graph JSON: " ++ error.message
  | unknownType id tag => "Node '" ++ id ++ "' has an unknown type: '" ++ tag ++ "'"
  | invalidPayload id type error =>
    "Node '" ++ id ++ "' has an invalid " ++ type.name ++ " payload: " ++ error.message
  | duplicateId id => "Node id '" ++ id ++ "' appears more than once"

/-- The node with its payload checked. Without data it has an empty payload. -/
def DocumentNode.check (n : DocumentNode) : Except GraphError Node :=
  match NodeType.ofTag? n.type with
  | none => .error (.unknownType n.id n.type)
  | some type =>
    let data := match n.data with
      | .null => .object []
      | data => data
    match Payload.ofJson type data with
    | .ok payload => .ok ⟨n.id, n.parent, payload⟩
    | .error e => .error (.invalidPayload n.id type e)

/-- The nodes, checked in order, where the ids in `seen` are taken. -/
def checkNodes (seen : List String) : List DocumentNode → Except GraphError (List Node)
  | [] => .ok []
  | n :: ns =>
    if n.id ∈ seen then .error (.duplicateId n.id)
    else do
      let node ← n.check
      return node :: (← checkNodes (n.id :: seen) ns)

/-- The graph that a document describes. -/
def Document.graph (d : Document) : Except GraphError Graph := do
  return ⟨← checkNodes [] d.nodes, d.edges⟩

namespace Graph

/-- The document of a graph, with all payloads complete. -/
def document (g : Graph) : Document where
  nodes := g.nodes.map fun n => ⟨n.id, n.type.name, n.parent, n.payload.toJson⟩
  edges := g.edges

/-- Reads a graph from the text of a document. -/
def ofText (s : String) : Except GraphError Graph :=
  match Document.codec.ofText s with
  | .ok d => d.graph
  | .error e => .error (.malformed e)

/-- Reads and writes graphs as their documents. -/
def codec : Codec Graph :=
  Document.codec.refine (fun d => d.graph.mapError fun e => .unsupported e.message) document

/-- The document of a graph as text, with as little space as can be. -/
def toText (g : Graph) : String := codec.toText g

end Graph
end CampaignRouting
