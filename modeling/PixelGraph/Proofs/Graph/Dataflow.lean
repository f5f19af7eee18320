-- SUMMARY: What the checks of single conversions say of whole paths through a reachable graph.
import Mathlib.Logic.Relation
import PixelGraph.Proofs.Conversion.Acceptance
import PixelGraph.Proofs.Graph.Validity

/-!
# Dataflow

A conversion checks only its own inputs, but what it finds carries on from node to node. All
nodes that a conversion comes from give images of one element type. A plane that was made from a
packed image has one channel, however many conversions give it back as it is, so none of them takes
it for an image or for a UV plane.
-/

namespace PixelGraph

/-! ## Element types -/

/-- All outputs of the node are images whose elements have the type. -/
def Node.GivesImages (n : Node) (t : ElementType) : Prop :=
  ∀ x ∈ n.outputs, x.rank = 4 ∧ x.elementType = t

/-- A conversion keeps the type of the elements, which is the same for all its inputs. -/
theorem RgbConversion.Converts.exists_elementType {descs outputs : List TensorDesc}
    (hconverts : Converts descs outputs) :
    ∃ t : ElementType, (t = .u8 ∨ t.isReal = true) ∧ outputs ≠ [] ∧
      (∀ x ∈ outputs, x.rank = 4 ∧ x.elementType = t) ∧
      ∀ x ∈ descs, x.rank = 4 ∧ x.elementType = t := by
  cases hconverts with
  | packed helements => exact ⟨_, helements, by simp [TensorDesc.rank]⟩
  | planes helements => exact ⟨_, helements, by simp [TensorDesc.rank]⟩

namespace Graph

variable {g : Graph} {id a : Nat} {n p : Node} {o o' : Output} {x : TensorDesc}
  {t : ElementType} {c : RgbConversion} {inputs : List Output} {outputs : List TensorDesc}

/-- The outputs of a conversion are what the tensors at its inputs are converted to. -/
theorem ValidNode.converts (hn : g.ValidNode id ⟨.rgbToNv12 c, inputs, outputs⟩) :
    ∃ descs, g.inputDescs inputs = .ok descs ∧ RgbConversion.Converts descs outputs := by
  cases hn with
  | conversion _ _ _ hdescs _ hinfer =>
    exact ⟨_, hdescs, RgbConversion.converts_of_infer_eq_ok hinfer⟩

/-- A node that gives one image gives images of the same type only. -/
theorem ValidNode.givesImages_of_mem (hp : g.ValidNode a p) (hx : x ∈ p.outputs)
    (hrank : x.rank = 4) : p.GivesImages x.elementType := by
  have hvalid := hp
  cases hp with
  | parameter desc =>
    obtain rfl := List.mem_singleton.1 hx
    intro y hy
    obtain rfl := List.mem_singleton.1 hy
    exact ⟨hrank, rfl⟩
  | conversion =>
    obtain ⟨descs, -, hconverts⟩ := hvalid.converts
    obtain ⟨t, -, -, houtputs, -⟩ := hconverts.exists_elementType
    intro y hy
    rw [(houtputs x hx).2]
    exact houtputs y hy

/-- The inputs of a node that gives images are images of the same type. -/
theorem ValidNode.desc_of_givesImages (hn : g.ValidNode id n) (hgives : n.GivesImages t)
    (ho : o ∈ n.inputs) : ∃ x, g.desc o = .ok x ∧ x.rank = 4 ∧ x.elementType = t := by
  have hvalid := hn
  cases hn with
  | parameter desc => exact absurd ho List.not_mem_nil
  | @conversion _ inputs _ outputs =>
    obtain ⟨descs, hdescs, hconverts⟩ := hvalid.converts
    obtain ⟨t', -, hne, houtputs, hinputs⟩ := hconverts.exists_elementType
    obtain ⟨y, hy⟩ := List.exists_mem_of_ne_nil outputs hne
    have htype : t' = t := (houtputs y hy).2.symm.trans (hgives y hy).2
    obtain ⟨x, hx, hdesc⟩ := exists_desc_of_mem_inputs hdescs ho
    exact ⟨x, hdesc, htype ▸ hinputs x hx⟩

/-- The first id is that of a node from which the node under the second id has an input. -/
def Feeds (g : Graph) (a id : Nat) : Prop :=
  ∃ n, g.node id = .ok n ∧ ∃ o ∈ n.inputs, o.node = a

theorem Valid.givesImages_of_feeds (hg : g.Valid) (hn : g.node id = .ok n)
    (hgives : n.GivesImages t) (hfeeds : g.Feeds a id) :
    ∃ p, g.node a = .ok p ∧ p.GivesImages t := by
  obtain ⟨m, hm, o, ho, rfl⟩ := hfeeds
  cases hn.symm.trans hm
  obtain ⟨x, hx, hrank, rfl⟩ := (hg.nodes hn).desc_of_givesImages hgives ho
  obtain ⟨p, hp, hget⟩ := desc_eq_ok_iff.1 hx
  exact ⟨p, hp, (hg.nodes hp).givesImages_of_mem (List.mem_of_getElem? hget) hrank⟩

theorem Valid.givesImages_of_path (hg : g.Valid) (hn : g.node id = .ok n)
    (hgives : n.GivesImages t) (hpath : Relation.ReflTransGen g.Feeds a id) :
    ∃ p, g.node a = .ok p ∧ p.GivesImages t := by
  induction hpath using Relation.ReflTransGen.head_induction_on with
  | refl => exact ⟨n, hn, hgives⟩
  | head hfeeds _ ih =>
    obtain ⟨m, hm, hmgives⟩ := ih
    exact hg.givesImages_of_feeds hm hmgives hfeeds

/-- Whatever a conversion comes from, through any number of nodes, gives images, and their elements
have the type that those of the conversion have. -/
theorem exists_elementType_of_path (hg : g.Reachable)
    (hn : g.node id = .ok ⟨.rgbToNv12 c, inputs, outputs⟩)
    (hpath : Relation.ReflTransGen g.Feeds a id) :
    ∃ p t, g.node a = .ok p ∧ (t = .u8 ∨ t.isReal = true) ∧
      ∀ x ∈ p.outputs ++ outputs, x.rank = 4 ∧ x.elementType = t := by
  have hvalid := hg.grown.valid
  obtain ⟨descs, -, hconverts⟩ := (hvalid.nodes hn).converts
  obtain ⟨t, helements, -, houtputs, -⟩ := hconverts.exists_elementType
  obtain ⟨p, hp, hgives⟩ := hvalid.givesImages_of_path hn houtputs hpath
  exact ⟨p, t, hp, helements, List.forall_mem_append.2 ⟨hgives, houtputs⟩⟩

def chromaPlane : TensorDesc :=
  ⟨⟨[.dynamic, .static 360, .static 320, .static 2]⟩, .u8⟩

/-- The plane of a packed frame as the Y plane of a conversion, and a conversion of its outputs. -/
def mirrored : Graph :=
  (((converted.run (Construction.parameter chromaPlane).call).2.run
    (Construction.withPlanes ⟨1, 0⟩ ⟨2, 0⟩).call).2.run
    (Construction.withPlanes ⟨3, 0⟩ ⟨3, 1⟩).call).2

theorem reachable_mirrored : mirrored.Reachable :=
  ((reachable_converted.construct (.parameter chromaPlane) nofun).construct
    (.withPlanes ⟨1, 0⟩ ⟨2, 0⟩) nofun).construct (.withPlanes ⟨3, 0⟩ ⟨3, 1⟩) nofun

theorem node_mirrored_packed :
    mirrored.node 1 = .ok ⟨.rgbToNv12 {}, [⟨0, 0⟩], [nv12Frame]⟩ := rfl

theorem node_mirrored_first :
    mirrored.node 3 = .ok ⟨.rgbToNv12 {}, [⟨1, 0⟩, ⟨2, 0⟩], [nv12Frame, chromaPlane]⟩ := rfl

theorem node_mirrored_second :
    mirrored.node 4 = .ok ⟨.rgbToNv12 {}, [⟨3, 0⟩, ⟨3, 1⟩], [nv12Frame, chromaPlane]⟩ := rfl

/-- The last conversion comes from the frame by way of a conversion of each form. -/
theorem exists_elementType_mirrored :
    mirrored.Reachable ∧
    mirrored.node 4 = .ok ⟨.rgbToNv12 {}, [⟨3, 0⟩, ⟨3, 1⟩], [nv12Frame, chromaPlane]⟩ ∧
    Relation.ReflTransGen mirrored.Feeds 0 4 ∧
    ∃ p t, mirrored.node 0 = .ok p ∧ (t = .u8 ∨ t.isReal = true) ∧
      ∀ x ∈ p.outputs ++ [nv12Frame, chromaPlane], x.rank = 4 ∧ x.elementType = t := by
  have hpacked : mirrored.Feeds 0 1 := ⟨_, node_mirrored_packed, _, List.mem_cons_self, rfl⟩
  have hfirst : mirrored.Feeds 1 3 := ⟨_, node_mirrored_first, _, List.mem_cons_self, rfl⟩
  have hsecond : mirrored.Feeds 3 4 := ⟨_, node_mirrored_second, _, List.mem_cons_self, rfl⟩
  have hpath : Relation.ReflTransGen mirrored.Feeds 0 4 :=
    .head hpacked (.head hfirst (.single hsecond))
  exact ⟨reachable_mirrored, node_mirrored_second, hpath,
    exists_elementType_of_path reachable_mirrored node_mirrored_second hpath⟩

end Graph

/-! ## Packed planes -/

/-- An image that is known to have one channel. -/
def TensorDesc.IsPlane (x : TensorDesc) : Prop :=
  ∃ n h w t, x = ⟨⟨[n, h, w, .static 1]⟩, t⟩

namespace RgbConversion.Converts

theorem isPlane_of_packed {x : TensorDesc} {outputs : List TensorDesc}
    (hconverts : Converts [x] outputs) : ∃ plane : TensorDesc, outputs = [plane] ∧ plane.IsPlane := by
  cases hconverts with
  | packed => exact ⟨_, rfl, _, _, _, _, rfl⟩

theorem outputs_eq_of_planes {y uv : TensorDesc} {outputs : List TensorDesc}
    (hconverts : Converts [y, uv] outputs) : outputs = [y, uv] := by
  cases hconverts with
  | planes => rfl

/-- A packed image has three channels, if it is known how many. -/
theorem not_isPlane_packed {x : TensorDesc} {outputs : List TensorDesc}
    (hconverts : Converts [x] outputs) : ¬ x.IsPlane := by
  rintro ⟨n, h, w, t, rfl⟩
  cases hconverts with
  | packed _ hchannel => simp [Dim.MayBe] at hchannel

/-- A UV plane has two channels, if it is known how many. -/
theorem not_isPlane_uv {y uv : TensorDesc} {outputs : List TensorDesc}
    (hconverts : Converts [y, uv] outputs) : ¬ uv.IsPlane := by
  rintro ⟨n, h, w, t, rfl⟩
  cases hconverts with
  | planes _ _ huv => simp [Dim.MayBe] at huv

end RgbConversion.Converts

namespace Graph

variable {g : Graph} {id : Nat} {n : Node} {o o' rgb y uv : Output} {x : TensorDesc}
  {c : RgbConversion} {outputs : List TensorDesc}

theorem ValidNode.converts_packed (hn : g.ValidNode id ⟨.rgbToNv12 c, [rgb], outputs⟩) :
    ∃ x, g.desc rgb = .ok x ∧ RgbConversion.Converts [x] outputs := by
  obtain ⟨descs, hdescs, hconverts⟩ := hn.converts
  cases inputDescs_eq_ok_iff.1 hdescs with
  | cons hx hnil =>
    cases hnil
    exact ⟨_, hx, hconverts⟩

theorem ValidNode.converts_planes (hn : g.ValidNode id ⟨.rgbToNv12 c, [y, uv], outputs⟩) :
    ∃ x x', g.desc y = .ok x ∧ g.desc uv = .ok x' ∧ RgbConversion.Converts [x, x'] outputs := by
  obtain ⟨descs, hdescs, hconverts⟩ := hn.converts
  cases inputDescs_eq_ok_iff.1 hdescs with
  | cons hx hrest =>
    cases hrest with
    | cons hx' hnil =>
      cases hnil
      exact ⟨_, _, hx, hx', hconverts⟩

/-- The second output is the one that a conversion of two planes gives for the first. -/
inductive Mirrors (g : Graph) : Output → Output → Prop
  | y {id : Nat} {c : RgbConversion} {y uv : Output} {outputs : List TensorDesc}
      (hn : g.node id = .ok ⟨.rgbToNv12 c, [y, uv], outputs⟩) : g.Mirrors y ⟨id, 0⟩
  | uv {id : Nat} {c : RgbConversion} {y uv : Output} {outputs : List TensorDesc}
      (hn : g.node id = .ok ⟨.rgbToNv12 c, [y, uv], outputs⟩) : g.Mirrors uv ⟨id, 1⟩

theorem Valid.desc_of_mirrors (hg : g.Valid) (hmirrors : g.Mirrors o o') (ho : g.desc o = .ok x) :
    g.desc o' = .ok x := by
  cases hmirrors with
  | y hn =>
    obtain ⟨x', x'', hx', -, hconverts⟩ := (hg.nodes hn).converts_planes
    obtain rfl := hconverts.outputs_eq_of_planes
    cases ho.symm.trans hx'
    exact desc_eq_ok_iff.2 ⟨_, hn, rfl⟩
  | uv hn =>
    obtain ⟨x', x'', -, hx'', hconverts⟩ := (hg.nodes hn).converts_planes
    obtain rfl := hconverts.outputs_eq_of_planes
    cases ho.symm.trans hx''
    exact desc_eq_ok_iff.2 ⟨_, hn, rfl⟩

theorem Valid.desc_of_chain (hg : g.Valid) (hchain : Relation.ReflTransGen g.Mirrors o o')
    (ho : g.desc o = .ok x) : g.desc o' = .ok x := by
  induction hchain with
  | refl => exact ho
  | tail _ hmirrors ih => exact hg.desc_of_mirrors hmirrors ih

theorem Valid.isPlane_of_packed (hg : g.Valid)
    (hn : g.node id = .ok ⟨.rgbToNv12 c, [rgb], outputs⟩) :
    ∃ plane : TensorDesc, g.desc ⟨id, 0⟩ = .ok plane ∧ plane.IsPlane := by
  obtain ⟨x, -, hconverts⟩ := (hg.nodes hn).converts_packed
  obtain ⟨plane, rfl, hplane⟩ := hconverts.isPlane_of_packed
  exact ⟨plane, desc_eq_ok_iff.2 ⟨_, hn, rfl⟩, hplane⟩

/-- A node takes what is known to have one channel for a Y plane or not at all. -/
theorem ValidNode.inputs_of_isPlane (hn : g.ValidNode id n) (ho : o ∈ n.inputs)
    (hx : g.desc o = .ok x) (hplane : x.IsPlane) :
    ∃ c uv outputs, n = ⟨.rgbToNv12 c, [o, uv], outputs⟩ ∧ uv ≠ o := by
  have hvalid := hn
  cases hn with
  | parameter desc => exact absurd ho List.not_mem_nil
  | @conversion c inputs _ outputs _ harity =>
    rcases harity with hone | htwo
    · obtain ⟨rgb, rfl⟩ := List.length_eq_one_iff.1 hone
      obtain ⟨x', hx', hconverts⟩ := hvalid.converts_packed
      obtain rfl := List.mem_singleton.1 ho
      cases hx.symm.trans hx'
      exact absurd hplane hconverts.not_isPlane_packed
    · obtain ⟨y, uv, rfl⟩ := List.length_eq_two.1 htwo
      obtain ⟨x', x'', -, hx'', hconverts⟩ := hvalid.converts_planes
      have huv : uv ≠ o := by
        rintro rfl
        cases hx.symm.trans hx''
        exact hconverts.not_isPlane_uv hplane
      rcases List.mem_pair.1 ho with rfl | rfl
      · exact ⟨c, uv, outputs, rfl, huv⟩
      · exact absurd rfl huv

/-- The plane of a packed image, or what conversions mirror of it, is used as a Y plane only. -/
theorem inputs_of_packed_chain (hg : g.Reachable)
    (hpacked : g.node id = .ok ⟨.rgbToNv12 c, [rgb], outputs⟩)
    (hchain : Relation.ReflTransGen g.Mirrors ⟨id, 0⟩ o) {j : Nat} (hn : g.node j = .ok n)
    (ho : o ∈ n.inputs) : ∃ c uv outputs, n = ⟨.rgbToNv12 c, [o, uv], outputs⟩ ∧ uv ≠ o := by
  have hvalid := hg.grown.valid
  obtain ⟨plane, hfirst, hplane⟩ := hvalid.isPlane_of_packed hpacked
  have hdesc : g.desc o = .ok plane := hvalid.desc_of_chain hchain hfirst
  exact (hvalid.nodes hn).inputs_of_isPlane ho hdesc hplane

/-- The plane that was mirrored once more is still a Y plane to the last conversion. -/
theorem inputs_of_packed_chain_mirrored :
    mirrored.Reachable ∧
    mirrored.node 1 = .ok ⟨.rgbToNv12 {}, [⟨0, 0⟩], [nv12Frame]⟩ ∧
    Relation.ReflTransGen mirrored.Mirrors ⟨1, 0⟩ ⟨3, 0⟩ ∧
    mirrored.node 4 = .ok ⟨.rgbToNv12 {}, [⟨3, 0⟩, ⟨3, 1⟩], [nv12Frame, chromaPlane]⟩ ∧
    ∃ c uv outputs, (⟨.rgbToNv12 {}, [⟨3, 0⟩, ⟨3, 1⟩], [nv12Frame, chromaPlane]⟩ : Node) =
      ⟨.rgbToNv12 c, [⟨3, 0⟩, uv], outputs⟩ ∧ uv ≠ ⟨3, 0⟩ := by
  have hchain : Relation.ReflTransGen mirrored.Mirrors ⟨1, 0⟩ ⟨3, 0⟩ :=
    .single (.y node_mirrored_first)
  exact ⟨reachable_mirrored, node_mirrored_packed, hchain, node_mirrored_second,
    inputs_of_packed_chain reachable_mirrored node_mirrored_packed hchain node_mirrored_second
      List.mem_cons_self⟩

end Graph

end PixelGraph
