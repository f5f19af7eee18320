-- SUMMARY: When nodes and outputs are found in a graph, and what finds the same in another one.
import PixelGraph.Graph.Build
import PixelGraph.Proofs.Checks

/-!
# Lookup

What a conversion takes from a graph are the descriptions of its inputs, and these are found
by way of the nodes alone. A graph in which every node of another stands under the same id
therefore gives all answers that the other gives. Graphs that have the same nodes under certain
ids give the same answers, failures included, to all who ask for no others.
-/

namespace PixelGraph.Graph

variable {g h : Graph} {id : Nat} {ids ids' : List Nat} {n : Node} {o : Output} {x : TensorDesc}
  {c : RgbConversion} {inputs : List Output} {descs outputs : List TensorDesc}

/-! ## Nodes and outputs -/

theorem node_eq_ok_iff : g.node id = .ok n ↔ g.nodes[id]? = some n := by
  unfold node
  split
  case h_1 m hm => rw [hm, Except.ok.injEq, Option.some.injEq]
  case h_2 hm => rw [hm]; exact ⟨nofun, nofun⟩

theorem lt_size_of_node_eq_ok (hn : g.node id = .ok n) : id < g.size := by
  obtain ⟨hlt, -⟩ := Array.getElem?_eq_some_iff.1 (node_eq_ok_iff.1 hn)
  exact hlt

theorem attributes_of_node_eq_ok (hn : g.node id = .ok n) :
    g.attributes id = .ok n.op.attributes := by
  unfold attributes
  rw [hn]
  rfl

theorem desc_eq_ok_iff :
    g.desc o = .ok x ↔ ∃ n, g.node o.node = .ok n ∧ n.outputs[o.index]? = some x := by
  unfold desc
  rw [bind_eq_ok_iff]
  refine exists_congr fun n => and_congr_right fun _ => ?_
  split
  case h_1 y hy => rw [hy, Except.ok.injEq, Option.some.injEq]
  case h_2 hy => rw [hy]; exact ⟨nofun, nofun⟩

theorem lt_size_of_desc_eq_ok (ho : g.desc o = .ok x) : o.node < g.size := by
  obtain ⟨n, hn, -⟩ := desc_eq_ok_iff.1 ho
  exact lt_size_of_node_eq_ok hn

theorem inputDescs_eq_ok_iff :
    g.inputDescs inputs = .ok descs ↔ List.Forall₂ (fun o x => g.desc o = .ok x) inputs descs :=
  mapM_eq_ok_iff

theorem exists_desc_of_mem_inputs (hdescs : g.inputDescs inputs = .ok descs) (ho : o ∈ inputs) :
    ∃ x ∈ descs, g.desc o = .ok x := by
  rw [inputDescs_eq_ok_iff] at hdescs
  induction hdescs with
  | nil => exact absurd ho List.not_mem_nil
  | @cons a y as ys hy _ ih =>
    rcases List.mem_cons.1 ho with rfl | ho
    · exact ⟨y, List.mem_cons_self, hy⟩
    · obtain ⟨z, hz, hdesc⟩ := ih ho
      exact ⟨z, List.mem_cons_of_mem y hz, hdesc⟩

theorem conversionOutputs_eq_ok_iff :
    g.conversionOutputs c inputs = .ok outputs ↔
      ∃ descs, g.inputDescs inputs = .ok descs ∧ c.infer descs = .ok outputs := by
  unfold conversionOutputs
  rw [bind_eq_ok_iff]
  simp only [mapError_eq_ok_iff]

/-! ## Larger graphs -/

/-- Every node of the first graph stands in the second under the same id. -/
def NodesIn (g h : Graph) : Prop :=
  ∀ ⦃id n⦄, g.node id = .ok n → h.node id = .ok n

theorem nodesIn_push (g : Graph) (n : Node) : g.NodesIn (g.push n) := by
  intro id m hm
  have hne : id ≠ g.size := Nat.ne_of_lt (lt_size_of_node_eq_ok hm)
  rw [node_push, if_neg hne]
  exact hm

theorem node_size_push (g : Graph) (n : Node) : (g.push n).node g.size = .ok n := by
  rw [node_push, if_pos rfl]

/-- Other edges or results change nothing that is found. -/
theorem nodesIn_of_nodes_eq (heq : g.nodes = h.nodes) : g.NodesIn h := by
  intro id n hn
  rw [node_eq_ok_iff] at hn ⊢
  exact heq ▸ hn

namespace NodesIn

theorem desc (hgh : g.NodesIn h) (ho : g.desc o = .ok x) : h.desc o = .ok x := by
  obtain ⟨n, hn, hx⟩ := desc_eq_ok_iff.1 ho
  exact desc_eq_ok_iff.2 ⟨n, hgh hn, hx⟩

theorem inputDescs (hgh : g.NodesIn h) (hdescs : g.inputDescs inputs = .ok descs) :
    h.inputDescs inputs = .ok descs :=
  inputDescs_eq_ok_iff.2 ((inputDescs_eq_ok_iff.1 hdescs).imp fun _ _ => hgh.desc)

theorem conversionOutputs (hgh : g.NodesIn h) (houtputs : g.conversionOutputs c inputs = .ok outputs) :
    h.conversionOutputs c inputs = .ok outputs := by
  obtain ⟨descs, hdescs, hinfer⟩ := conversionOutputs_eq_ok_iff.1 houtputs
  exact conversionOutputs_eq_ok_iff.2 ⟨descs, hgh.inputDescs hdescs, hinfer⟩

end NodesIn

/-! ## Graphs alike under certain ids -/

/-- Under certain ids the second graph has the nodes that the first has, and no others. -/
def AgreesOn (g : Graph) (ids : List Nat) (h : Graph) : Prop :=
  ∀ id ∈ ids, h.node id = g.node id

theorem agreesOn_refl (g : Graph) (ids : List Nat) : g.AgreesOn ids g := fun _ _ => rfl

theorem agreesOn_push (hids : ∀ id ∈ ids, id < g.size) (n : Node) : g.AgreesOn ids (g.push n) := by
  intro id hid
  rw [node_push, if_neg (Nat.ne_of_lt (hids id hid))]

namespace AgreesOn

theorem mono (hgh : g.AgreesOn ids h) (hsub : ids' ⊆ ids) : g.AgreesOn ids' h := fun id hid =>
  hgh id (hsub hid)

theorem desc (hgh : g.AgreesOn ids h) (ho : o.node ∈ ids) : h.desc o = g.desc o := by
  unfold Graph.desc
  rw [hgh o.node ho]

theorem inputDescs (hgh : g.AgreesOn (inputs.map Output.node) h) :
    h.inputDescs inputs = g.inputDescs inputs := by
  induction inputs with
  | nil => rfl
  | cons o os ih =>
    have hfirst : h.desc o = g.desc o := hgh.desc List.mem_cons_self
    have hothers : os.mapM h.desc = os.mapM g.desc := ih (hgh.mono (List.subset_cons_self _ _))
    unfold Graph.inputDescs
    rw [List.mapM_cons, List.mapM_cons, hfirst, hothers]

theorem conversionOutputs (hgh : g.AgreesOn (inputs.map Output.node) h) (c : RgbConversion) :
    h.conversionOutputs c inputs = g.conversionOutputs c inputs := by
  unfold Graph.conversionOutputs
  rw [hgh.inputDescs]

end AgreesOn

end PixelGraph.Graph
