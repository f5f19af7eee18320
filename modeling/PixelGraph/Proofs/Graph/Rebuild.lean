-- SUMMARY: Building a node from its type and attributes does what copying the node does.
import PixelGraph.Proofs.Graph.Loading
import PixelGraph.Proofs.Graph.Validity
import PixelGraph.Proofs.Json.Form

/-!
# Rebuilding

A node can be added again in two ways: by copying its operation, or from the name of its type
and its attributes. The attributes of a conversion read back as the conversion, also after
they were written to JSON, and every conversion in a reachable graph is one to NV12, which is
what building from attributes asks for. From there on both ways are the same call.
-/

namespace PixelGraph

/-! ## Attributes of a conversion -/

namespace RgbConversion

theorem get?_attributes (c : RgbConversion) :
    (Op.rgbToNv12 c).attributes.get? formatName = some c.format.text := by
  change (AttributeMap.empty.insert formatName c.format.text).get? formatName = _
  rw [AttributeMap.get?_insert, if_pos rfl]

theorem formatOf_attributes (c : RgbConversion) :
    formatOf (Op.rgbToNv12 c).attributes = .ok c.format :=
  formatOf_eq_ok_iff.2 c.get?_attributes

end RgbConversion

/-- The attributes of an operation can be written to JSON and read back. -/
theorem Op.read?_write_attributes (op : Op) :
    JsonForm.read? (JsonForm.write op.attributes) = some op.attributes :=
  JsonForm.read?_write op.attributes

namespace Graph

variable {g : Graph} {id : Nat} {n : Node}

theorem conversionOf_attributes {c : RgbConversion} (hc : c.format = .nv12) :
    conversionOf (Op.rgbToNv12 c).attributes = .ok c := by
  rw [conversionOf_eq, c.formatOf_attributes]
  obtain ⟨f⟩ := c
  cases hc
  rfl

/-! ## Two ways to add a node again -/

theorem run_build_attributes {c : RgbConversion} (hc : c.format = .nv12) (inputs : List Output) :
    g.run (build Op.conversionTypeName (Op.rgbToNv12 c).attributes inputs) =
      g.run (rgbToNv12Of inputs) := by
  rw [build, if_pos rfl, run_fromAttributes, conversionOf_attributes hc]

theorem run_build_of_ne {typeName : String} (hname : typeName ≠ Op.conversionTypeName)
    (attrs : AttributeMap) (inputs : List Output) :
    g.run (build typeName attrs inputs) =
      (.error (.attribute (.unsupportedType typeName)), g) := by
  rw [build, if_neg hname, run_throw]

/-- A conversion in a reachable graph is built from its attributes just as it is copied, with
the same id or error and the same graph, and a parameter is never built from attributes. -/
theorem run_build_eq_run_cloneNode (hg : g.Reachable) (hn : g.node id = .ok n)
    (inputs : List Output) :
    ∃ attrs, g.attributes id = .ok attrs ∧ JsonForm.read? (JsonForm.write attrs) = some attrs ∧
      match n.op with
      | .rgbToNv12 _ =>
        g.run (build n.op.typeName attrs inputs) = g.run (cloneNode id inputs)
      | .parameter _ =>
        attrs = .empty ∧ g.run (build n.op.typeName attrs inputs) =
          (.error (.attribute (.unsupportedType n.op.typeName)), g) := by
  refine ⟨n.op.attributes, attributes_of_node_eq_ok hn, n.op.read?_write_attributes, ?_⟩
  cases hg.grown.valid.nodes hn with
  | parameter desc =>
    have hname : (Op.parameter desc).typeName ≠ Op.conversionTypeName := by
      change "Parameter" ≠ Op.conversionTypeName
      decide
    exact ⟨rfl, run_build_of_ne hname _ inputs⟩
  | @conversion c _ _ _ hformat =>
    have hclone : g.run (cloneNode id inputs) = g.run (rgbToNv12Of inputs) := by
      rw [run_cloneNode, hn]
      rfl
    exact (run_build_attributes hformat inputs).trans hclone.symm

/-- The copy of a loaded conversion is rebuilt as it is cloned. On the frame both give the same
new node, and given a second input that is not there, both fail on it. -/
theorem run_build_recopied :
    recopied.Reachable ∧
    recopied.node 2 = .ok ⟨.rgbToNv12 {}, [⟨0, 0⟩], [nv12Frame]⟩ ∧
    recopied.attributes 2 = .ok (.ofList [("format", "RGB_TO_NV12")]) ∧
    (recopied.run (build "RGBtoNV12" (.ofList [("format", "RGB_TO_NV12")]) [⟨0, 0⟩]) =
        recopied.run (cloneNode 2 [⟨0, 0⟩]) ∧
      recopied.run (cloneNode 2 [⟨0, 0⟩]) =
        (.ok 3, recopied.push ⟨.rgbToNv12 {}, [⟨0, 0⟩], [nv12Frame]⟩)) ∧
    recopied.run (build "RGBtoNV12" (.ofList [("format", "RGB_TO_NV12")]) [⟨0, 0⟩, ⟨3, 0⟩]) =
      recopied.run (cloneNode 2 [⟨0, 0⟩, ⟨3, 0⟩]) ∧
    recopied.run (cloneNode 2 [⟨0, 0⟩, ⟨3, 0⟩]) = (.error (.graph (.unknownNode 3)), recopied) := by
  obtain ⟨attrs, hattrs, -, hrun⟩ :=
    run_build_eq_run_cloneNode reachable_recopied node_recopied [⟨0, 0⟩]
  obtain ⟨attrs', hattrs', -, hrun'⟩ :=
    run_build_eq_run_cloneNode reachable_recopied node_recopied [⟨0, 0⟩, ⟨3, 0⟩]
  cases hattrs
  cases hattrs'
  exact ⟨reachable_recopied, node_recopied, rfl, ⟨hrun, rfl⟩, hrun', rfl⟩

end Graph

end PixelGraph
