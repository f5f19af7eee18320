-- SUMMARY: Every node of a reachable graph is a parameter or follows from its inputs, which come before it.
import PixelGraph.Proofs.Graph.Reachable

/-!
# Validity

The node that is added last is checked against the graph it is added to. Nodes are only ever
appended, so everything the check found is found again later, and each node of a reachable
graph still agrees with all of it.
-/

namespace PixelGraph.Graph

variable {g h : Graph} {id : Nat} {n : Node} {o : Output}

/-- A node under an id that agrees with a graph. A conversion is one to NV12 of one input or
of two, all of them outputs of nodes that come before it and all of them images, and its
outputs are what is inferred from them. -/
inductive ValidNode (g : Graph) (id : Nat) : Node → Prop
  | parameter (desc : TensorDesc) : g.ValidNode id ⟨.parameter desc, [], [desc]⟩
  | conversion {c : RgbConversion} {inputs : List Output} {descs outputs : List TensorDesc}
      (hformat : c.format = .nv12)
      (harity : inputs.length = 1 ∨ inputs.length = 2)
      (hearlier : ∀ o ∈ inputs, o.node < id ∧
        ∃ producer, g.node o.node = .ok producer ∧ o.index < producer.outputs.length)
      (hdescs : g.inputDescs inputs = .ok descs)
      (himages : ∀ x ∈ descs, x.IsImage)
      (hinfer : c.infer descs = .ok outputs) :
      g.ValidNode id ⟨.rgbToNv12 c, inputs, outputs⟩

/-- A graph that all its nodes agree with and that has all its results. -/
structure Valid (g : Graph) : Prop where
  nodes : ∀ ⦃id n⦄, g.node id = .ok n → g.ValidNode id n
  results : ∀ o ∈ g.results.toList, ∃ x, g.desc o = .ok x

theorem ValidNode.mono (hn : g.ValidNode id n) (hgh : g.NodesIn h) : h.ValidNode id n := by
  cases hn with
  | parameter desc => exact .parameter desc
  | conversion hformat harity hearlier hdescs himages hinfer =>
    refine .conversion hformat harity (fun o ho => ?_) (hgh.inputDescs hdescs) himages hinfer
    obtain ⟨hlt, producer, hproducer, hindex⟩ := hearlier o ho
    exact ⟨hlt, producer, hgh hproducer, hindex⟩

theorem ValidNode.input_lt (hn : g.ValidNode id n) (ho : o ∈ n.inputs) : o.node < id := by
  cases hn with
  | parameter desc => exact absurd ho List.not_mem_nil
  | conversion _ _ hearlier => exact (hearlier o ho).1

/-- An admitted node agrees with the graph under the next id. -/
theorem Admits.validNode (hn : g.Admits n) : g.ValidNode g.size n := by
  cases hn with
  | parameter desc => exact .parameter desc
  | @conversion inputs outputs houtputs =>
    obtain ⟨descs, hdescs, hinfer⟩ := conversionOutputs_eq_ok_iff.1 houtputs
    obtain ⟨himages, hforms⟩ := RgbConversion.infer_eq_ok_iff.1 hinfer
    have hlength : inputs.length = descs.length := (inputDescs_eq_ok_iff.1 hdescs).length_eq
    have harity : inputs.length = 1 ∨ inputs.length = 2 := by
      rcases hforms with ⟨rgb, plane, rfl, -⟩ | ⟨y, uv, rfl, -⟩
      · exact .inl hlength
      · exact .inr hlength
    refine .conversion rfl harity (fun o ho => ?_) hdescs himages hinfer
    obtain ⟨x, -, hx⟩ := exists_desc_of_mem_inputs hdescs ho
    obtain ⟨producer, hproducer, hget⟩ := desc_eq_ok_iff.1 hx
    obtain ⟨hindex, -⟩ := List.getElem?_eq_some_iff.1 hget
    exact ⟨lt_size_of_desc_eq_ok hx, producer, hproducer, hindex⟩

/-- Checked once more, a node of a graph is admitted to it again. -/
theorem ValidNode.admits (hn : g.ValidNode id n) : g.Admits n := by
  cases hn with
  | parameter desc => exact .parameter desc
  | @conversion c _ _ _ hformat _ _ hdescs _ hinfer =>
    obtain ⟨f⟩ := c
    obtain rfl : f = .nv12 := hformat
    exact .conversion (conversionOutputs_eq_ok_iff.2 ⟨_, hdescs, hinfer⟩)

theorem Valid.push (hg : g.Valid) (hn : g.Admits n) : (g.push n).Valid where
  nodes := by
    intro id m hm
    rw [node_push] at hm
    split at hm
    case isTrue hid =>
      cases hm
      exact hid ▸ hn.validNode.mono (nodesIn_push g n)
    case isFalse => exact (hg.nodes hm).mono (nodesIn_push g n)
  results := by
    intro o ho
    obtain ⟨x, hx⟩ := hg.results o ho
    exact ⟨x, (nodesIn_push g n).desc hx⟩

theorem Valid.pushResult (hg : g.Valid) {x : TensorDesc} (hx : g.desc o = .ok x) :
    (g.pushResult o).Valid where
  nodes := fun _ _ hn => (hg.nodes hn).mono (nodesIn_of_nodes_eq rfl)
  results := by
    intro p hp
    rcases List.mem_append.1 (Array.toList_push ▸ hp) with hold | hnew
    · exact hg.results p hold
    · exact ⟨x, List.mem_singleton.1 hnew ▸ hx⟩

theorem Grown.valid (hg : g.Grown) : g.Valid := by
  induction hg with
  | empty => exact ⟨nofun, nofun⟩
  | push _ hn ih => exact ih.push hn
  | pushResult _ hx ih => exact ih.pushResult hx

/-- Whatever calls were made, every node still agrees with the graph. -/
theorem validNode_of_reachable (hg : g.Reachable) (hn : g.node id = .ok n) : g.ValidNode id n :=
  hg.grown.valid.nodes hn

/-- The copy of a conversion that was loaded with another format is valid like any node. -/
theorem validNode_recopied :
    recopied.Reachable ∧
    recopied.node 2 = .ok ⟨.rgbToNv12 {}, [⟨0, 0⟩], [nv12Frame]⟩ ∧
    recopied.ValidNode 2 ⟨.rgbToNv12 {}, [⟨0, 0⟩], [nv12Frame]⟩ :=
  ⟨reachable_recopied, node_recopied, validNode_of_reachable reachable_recopied node_recopied⟩

end PixelGraph.Graph
