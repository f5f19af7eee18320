-- SUMMARY: The graphs that calls lead to, whatever operations are copied into them.
import PixelGraph.Proofs.Conversion.Images
import PixelGraph.Proofs.Graph.Growth

/-!
# Reachable graphs

A graph is reachable if calls lead to it from the empty graph, in any order, whether they
fail or not. An operation may be taken from another reachable graph and its attributes may
be loaded anew before it is copied. Reachable graphs are just those that grow by admitted
nodes and by results.
-/

namespace PixelGraph

/-- The operation after readers have been led past its attributes, one after another. -/
def Op.load (op : Op) (readers : List AttributeReader) : Op :=
  readers.foldl (fun op reader => (op.visitAttributes reader).value) op

namespace Graph

inductive Reachable : Graph → Prop
  | empty : Reachable .empty
  /-- A call that adds a node and is given no operation to copy. -/
  | construct {g : Graph} (hg : g.Reachable) (c : Construction)
      (hc : ∀ op inputs, c ≠ .cloneOp op inputs) : (g.run c.call).2.Reachable
  /-- A copy of an operation of a reachable graph, with attributes loaded into it. -/
  | cloneOp {g source : Graph} {id : Nat} {n : Node} (hg : g.Reachable)
      (hsource : source.Reachable) (hn : source.node id = .ok n)
      (readers : List AttributeReader) (inputs : List Output) :
      (g.run (cloneOp (n.op.load readers) inputs)).2.Reachable
  | addResult {g : Graph} (hg : g.Reachable) (o : Output) : (g.run (addResult o)).2.Reachable

variable {g : Graph}

theorem Reachable.grown (hg : g.Reachable) : g.Grown := by
  induction hg with
  | empty => exact .empty
  | construct _ c _ ih => exact ih.of_addsOne c.addsOne
  | cloneOp _ _ _ _ inputs ih _ => exact ih.of_addsOne (readsOnly_cloneOp _ inputs).addsOne
  | addResult _ o ih => exact ih.of_addResult o

/-- A conversion is only accepted of one input or of two. -/
theorem inputs_of_conversionOutputs {c : RgbConversion} {inputs : List Output}
    {outputs : List TensorDesc} (houtputs : g.conversionOutputs c inputs = .ok outputs) :
    (∃ rgb, inputs = [rgb]) ∨ ∃ y uv, inputs = [y, uv] := by
  obtain ⟨descs, hdescs, hinfer⟩ := conversionOutputs_eq_ok_iff.1 houtputs
  have hlength : inputs.length = descs.length := (inputDescs_eq_ok_iff.1 hdescs).length_eq
  obtain ⟨-, ⟨_, _, rfl, -⟩ | ⟨_, _, rfl, -⟩⟩ := RgbConversion.infer_eq_ok_iff.1 hinfer
  · exact .inl (List.length_eq_one_iff.1 hlength)
  · exact .inr (List.length_eq_two.1 hlength)

theorem Reachable.push (hg : g.Reachable) {n : Node} (hn : g.Admits n) : (g.push n).Reachable := by
  cases hn with
  | parameter desc => exact hg.construct (.parameter desc) nofun
  | @conversion inputs outputs houtputs =>
    have hpush : (g.run (convert {} inputs)).2 = g.push ⟨.rgbToNv12 {}, inputs, outputs⟩ := by
      rw [run_convert, houtputs]
    rw [← hpush]
    obtain ⟨rgb, rfl⟩ | ⟨y, uv, rfl⟩ := inputs_of_conversionOutputs houtputs
    · exact hg.construct (.rgbToNv12 rgb) nofun
    · exact hg.construct (.withPlanes y uv) nofun

theorem Grown.reachable (hg : g.Grown) : g.Reachable := by
  induction hg with
  | empty => exact .empty
  | push _ hn ih => exact ih.push hn
  | @pushResult g o x _ ho ih =>
    have hrun : (g.run (addResult o)).2 = g.pushResult o := by
      rw [run_addResult, ho]
      rfl
    exact hrun ▸ ih.addResult o

theorem reachable_iff_grown : g.Reachable ↔ g.Grown :=
  ⟨Reachable.grown, Grown.reachable⟩

/-! ## A copy of a loaded operation -/

def packedFrame : TensorDesc :=
  ⟨⟨[.dynamic, .static 480, .static 640, .static 3]⟩, .u8⟩

def nv12Frame : TensorDesc :=
  ⟨⟨[.dynamic, .static 720, .static 640, .static 1]⟩, .u8⟩

def nv21Reader : AttributeReader :=
  .ofMap (.ofList [("format", "RGB_TO_NV21")])

/-- A frame and its conversion. -/
def converted : Graph :=
  ((Graph.empty.run (Construction.parameter packedFrame).call).2.run
    (Construction.rgbToNv12 ⟨0, 0⟩).call).2

/-- The same with a copy of the conversion, into which the other format was loaded. -/
def recopied : Graph :=
  (converted.run (cloneOp (Op.load (.rgbToNv12 {}) [nv21Reader]) [⟨0, 0⟩])).2

theorem reachable_converted : converted.Reachable :=
  (Reachable.empty.construct (.parameter packedFrame) nofun).construct (.rgbToNv12 ⟨0, 0⟩) nofun

theorem node_converted : converted.node 1 = .ok ⟨.rgbToNv12 {}, [⟨0, 0⟩], [nv12Frame]⟩ := rfl

theorem reachable_recopied : recopied.Reachable :=
  reachable_converted.cloneOp reachable_converted node_converted [nv21Reader] [⟨0, 0⟩]

theorem node_recopied : recopied.node 2 = .ok ⟨.rgbToNv12 {}, [⟨0, 0⟩], [nv12Frame]⟩ := rfl

-- The copy is one to NV12 all the same, though the operation that was copied is not.
example : Op.load (.rgbToNv12 {}) [nv21Reader] = .rgbToNv12 ⟨.nv21⟩ := by decide

end Graph

end PixelGraph
