-- SUMMARY: The errors of all parts of the library under one type.
import PixelGraph.Conversion.Error
import PixelGraph.Attribute.Visitor

/-!
# Errors

Building a graph can fail in any of its parts. The message of an error names the part.
-/

namespace PixelGraph

inductive GraphError
  | unknownNode (node : Nat)
  | outputOutOfRange (node index count : Nat)
  /-- Inputs for a node that takes none. -/
  | unexpectedInputs (typeName : String) (count : Nat)
deriving DecidableEq, Repr

def GraphError.message : GraphError → String
  | .unknownNode node => s!"node {node} does not exist"
  | .outputOutOfRange node index count =>
    s!"node {node} has {count} outputs, but output {index} is referenced"
  | .unexpectedInputs typeName count => s!"{typeName} takes no inputs, but {count} were given"

inductive Error
  | shape (e : ShapeError)
  | graph (e : GraphError)
  | conversion (e : ConversionError)
  | attribute (e : AttributeError)
deriving DecidableEq, Repr

def Error.message : Error → String
  | .shape e      => s!"shape error: {e.message}"
  | .graph e      => s!"graph error: {e.message}"
  | .conversion e => s!"color conversion error: {e.message}"
  | .attribute e  => s!"attribute error: {e.message}"

end PixelGraph
