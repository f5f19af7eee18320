-- SUMMARY: The calls that add one node, as data.
import PixelGraph.Graph.Build

/-!
# Constructions

A construction is a call that adds one node to a graph, with its arguments. As data it can
be kept, compared and run on any graph.
-/

namespace PixelGraph

inductive Construction
  | parameter (desc : TensorDesc)
  | rgbToNv12 (rgb : Output)
  | withPlanes (y uv : Output)
  | cloneNode (id : Nat) (inputs : List Output)
  | cloneOp (op : Op) (inputs : List Output)
  | fromAttributes (attrs : AttributeMap) (inputs : List Output)
  | build (typeName : String) (attrs : AttributeMap) (inputs : List Output)
  | rebuild (id : Nat) (inputs : List Output)
deriving DecidableEq, Repr

/-- The call that a construction stands for. It gives the id of the new node. -/
def Construction.call : Construction → BuildM Error Nat
  | .parameter desc => return (← Graph.parameter desc).node
  | .rgbToNv12 rgb => Graph.rgbToNv12 rgb
  | .withPlanes y uv => Graph.withPlanes y uv
  | .cloneNode id inputs => Graph.cloneNode id inputs
  | .cloneOp op inputs => Graph.cloneOp op inputs
  | .fromAttributes attrs inputs => Graph.fromAttributes attrs inputs
  | .build typeName attrs inputs => Graph.build typeName attrs inputs
  | .rebuild id inputs => Graph.rebuild id inputs

end PixelGraph
