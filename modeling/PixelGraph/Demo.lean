-- SUMMARY: A graph with a packed and a two-plane conversion.
import PixelGraph.Graph.Build

/-!
# Demo

The graph converts a packed frame whose number of images is open, and two planes that come
apart already.
-/

namespace PixelGraph.Demo

/-- A tensor with the given extents. -/
def tensor (extents : List Int32) (t : ElementType) : BuildM Error TensorDesc := do
  return ⟨← ofExcept ((Shape.ofExtents (extents.map (.word ∘ .int32))).mapError .shape), t⟩

/-- Makes an output of a node a result of the graph. -/
def result (id index : Nat) : BuildM Error Unit :=
  (Graph.addResult ⟨id, index⟩).adapt .graph

def build : BuildM Error Unit := do
  let rgb ← Graph.parameter (← tensor [-1, 480, 640, 3] .u8)
  let nv12 ← Graph.rgbToNv12 rgb
  result nv12 0
  let y ← Graph.parameter (← tensor [1, 480, 640, 1] .f32)
  let uv ← Graph.parameter (← tensor [1, 240, 320, 2] .f32)
  let planes ← Graph.withPlanes y uv
  result planes 0
  result planes 1

/-- The demo graph, or the reason why it cannot be built. -/
def graph : Except Error Graph :=
  match Graph.empty.run build with
  | (.ok (), g)   => .ok g
  | (.error e, _) => .error e

end PixelGraph.Demo
