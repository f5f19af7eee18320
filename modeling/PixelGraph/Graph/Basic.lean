-- SUMMARY: The graph of parameters and conversions, and what can be read from it.
import PixelGraph.Conversion.Inference
import PixelGraph.Error

/-!
# Graphs

A graph is a growing list of nodes. A node refers to the outputs of earlier nodes by their
position in the list and never owns them. Next to the nodes the graph keeps an edge for
every input, in the order in which the nodes were added.
-/

namespace PixelGraph

/-- One output of a node. -/
structure Output where
  node : Nat
  index : Nat
deriving DecidableEq, Repr, Inhabited

def Output.text (o : Output) : String :=
  s!"%{o.node}:{o.index}"

instance : ToString Output := ⟨Output.text⟩

/-! ## Operations -/

/-- What a node does. -/
inductive Op
  /-- A tensor that the graph is given. -/
  | parameter (desc : TensorDesc)
  | rgbToNv12 (conversion : RgbConversion)
deriving DecidableEq, Repr

namespace Op

def conversionTypeName : String := "RGBtoNV12"

def typeName : Op → String
  | .parameter _ => "Parameter"
  | .rgbToNv12 _ => conversionTypeName

/-- The operation set that an operation first appeared in. -/
def version : Op → String
  | .parameter _ => "opset1"
  | .rgbToNv12 _ => "opset8"

def format? : Op → Option PixelFormat
  | .parameter _ => none
  | .rgbToNv12 c => some c.format

def visitAttributes {V : Type} [AttributeVisitor V] (op : Op) (visitor : V) : Visit V Op :=
  match op with
  | .parameter _ => ⟨true, op, visitor⟩
  | .rgbToNv12 c => (c.visitAttributes visitor).map .rgbToNv12

def attributes (op : Op) : AttributeMap :=
  (op.visitAttributes AttributeWriter.empty).visitor.attrs

@[simp] theorem attributes_parameter (desc : TensorDesc) :
    (parameter desc).attributes = .empty := rfl

@[simp] theorem toList_attributes_rgbToNv12 (c : RgbConversion) :
    (rgbToNv12 c).attributes.toList = [(RgbConversion.formatName, c.format.text)] := rfl

end Op

/-! ## Nodes and edges -/

structure Node where
  op : Op
  inputs : List Output
  /-- Inferred from the inputs when the node is added. -/
  outputs : List TensorDesc
deriving DecidableEq, Repr

/-- One use of a node's output by a later node. -/
structure Edge where
  producer : Nat
  consumer : Nat
deriving DecidableEq, Repr

structure Graph where
  nodes : Array Node := #[]
  edges : Array Edge := #[]
  results : Array Output := #[]
deriving DecidableEq, Repr, Inhabited

namespace Graph

def empty : Graph := {}

def size (g : Graph) : Nat :=
  g.nodes.size

def isEmpty (g : Graph) : Bool :=
  g.nodes.isEmpty

def node (g : Graph) (id : Nat) : Except GraphError Node :=
  match g.nodes[id]? with
  | some n => .ok n
  | none   => .error (.unknownNode id)

/-- The nodes that use a node, once for every use. -/
def consumers (g : Graph) (id : Nat) : List Nat :=
  (g.edges.toList.filter (·.producer = id)).map Edge.consumer

def desc (g : Graph) (o : Output) : Except GraphError TensorDesc := do
  let n ← g.node o.node
  match n.outputs[o.index]? with
  | some x => .ok x
  | none   => .error (.outputOutOfRange o.node o.index n.outputs.length)

/-- The tensors at the given outputs. The first output that there is not fails. -/
def inputDescs (g : Graph) (inputs : List Output) : Except GraphError (List TensorDesc) :=
  inputs.mapM g.desc

def attributes (g : Graph) (id : Nat) : Except Error AttributeMap := do
  let n ← (g.node id).mapError .graph
  return n.op.attributes

/-- The graph with one more node, which is not checked. -/
def push (g : Graph) (n : Node) : Graph :=
  { g with
    nodes := g.nodes.push n
    edges := g.edges ++ (n.inputs.map fun o => Edge.mk o.node g.size).toArray }

@[simp] theorem size_push (g : Graph) (n : Node) : (g.push n).size = g.size + 1 := by
  simp [size, push]

@[simp] theorem results_push (g : Graph) (n : Node) : (g.push n).results = g.results := rfl

theorem node_push (g : Graph) (n : Node) (id : Nat) :
    (g.push n).node id = if id = g.size then .ok n else g.node id := by
  simp only [node, push, size, Array.getElem?_push]
  by_cases h : id = g.nodes.size <;> simp [h]

/-- The uses of a node among the inputs of another. -/
theorem uses_eq_replicate (inputs : List Output) (id consumer : Nat) :
    ((inputs.map fun o => Edge.mk o.node consumer).filter (·.producer = id)).map Edge.consumer =
      List.replicate (inputs.countP (·.node = id)) consumer := by
  induction inputs with
  | nil => rfl
  | cons o os ih => by_cases h : o.node = id <;> simp [h, ih, List.replicate_succ]

theorem consumers_push (g : Graph) (n : Node) (id : Nat) :
    (g.push n).consumers id =
      g.consumers id ++ List.replicate (n.inputs.countP (·.node = id)) g.size := by
  rw [← uses_eq_replicate]
  simp [consumers, push]

end Graph

end PixelGraph
