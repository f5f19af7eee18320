-- SUMMARY: The text of a graph.
import PixelGraph.Graph.Basic

/-!
# Dumps

A graph is written one line a node, with the type and attributes of the node, its inputs
and what it outputs. The results of the graph follow, one line each.
-/

namespace PixelGraph

/-- The entries of a map between brackets, and nothing at all if there are none. -/
def AttributeMap.text (m : AttributeMap) : String :=
  if m.isEmpty then ""
  else "[" ++ ", ".intercalate (m.toList.map fun e => s!"{e.1}={e.2}") ++ "]"

def Op.text (op : Op) : String :=
  op.typeName ++ op.attributes.text

def Node.text (n : Node) : String :=
  n.op.text ++ "(" ++ ", ".intercalate (n.inputs.map Output.text) ++ ") -> (" ++
    ", ".intercalate (n.outputs.map TensorDesc.text) ++ ")"

namespace Graph

def nodeLine (n : Node) (id : Nat) : String :=
  s!"%{id} = {n.text}\n"

def resultLine (o : Output) : String :=
  s!"return {o.text}\n"

def dump (g : Graph) : String :=
  String.join (g.nodes.toList.zipIdx.map fun (n, id) => nodeLine n id) ++
    String.join (g.results.toList.map resultLine)

end Graph

end PixelGraph
