-- SUMMARY: What a call that adds a node can do to a graph, and the graphs that grow this way.
import PixelGraph.Graph.Construction
import PixelGraph.Proofs.Graph.Lookup

/-!
# Growth

There are many calls that add a node, but only two kinds of node are ever added: parameters,
and conversions to NV12 whose outputs follow from their inputs. A call that fails adds
nothing. Of the graph, a call reads no other nodes than those it names. What holds of all graphs
that calls lead to is therefore shown along the growth of a graph by such nodes and by results.
-/

namespace PixelGraph

namespace Graph

/-! ## Calls that add a node -/

/-- The nodes that calls add to a graph. -/
inductive Admits (g : Graph) : Node → Prop
  | parameter (desc : TensorDesc) : g.Admits ⟨.parameter desc, [], [desc]⟩
  | conversion {inputs : List Output} {outputs : List TensorDesc}
      (houtputs : g.conversionOutputs {} inputs = .ok outputs) :
      g.Admits ⟨.rgbToNv12 {}, inputs, outputs⟩

theorem Admits.mono {g h : Graph} {n : Node} (hn : g.Admits n) (hgh : g.NodesIn h) : h.Admits n := by
  cases hn with
  | parameter desc => exact .parameter desc
  | conversion houtputs => exact .conversion (hgh.conversionOutputs houtputs)

/-- A call that adds one node and gives its id, or fails and changes nothing. -/
def AddsOne (call : BuildM Error Nat) : Prop :=
  ∀ g : Graph, (∃ e, g.run call = (.error e, g)) ∨
    ∃ n, g.Admits n ∧ g.run call = (.ok g.size, g.push n)

/-- A call that adds one node and gives its id, or fails and changes nothing. Which it does, with
what node or error, follows from the nodes under certain ids. -/
def ReadsOnly (ids : List Nat) (call : BuildM Error Nat) : Prop :=
  ∀ g : Graph, (∃ e, ∀ h, g.AgreesOn ids h → h.run call = (.error e, h)) ∨
    ∃ n, g.Admits n ∧ ∀ h, g.AgreesOn ids h → h.run call = (.ok h.size, h.push n)

variable {ids ids' : List Nat} {call : BuildM Error Nat}

theorem ReadsOnly.addsOne (hcall : ReadsOnly ids call) : AddsOne call := by
  intro g
  rcases hcall g with ⟨e, hrun⟩ | ⟨n, hn, hrun⟩
  · exact .inl ⟨e, hrun g (g.agreesOn_refl ids)⟩
  · exact .inr ⟨n, hn, hrun g (g.agreesOn_refl ids)⟩

theorem ReadsOnly.mono (hcall : ReadsOnly ids call) (hsub : ids ⊆ ids') : ReadsOnly ids' call := by
  intro g
  rcases hcall g with ⟨e, hrun⟩ | ⟨n, hn, hrun⟩
  · exact .inl ⟨e, fun h hgh => hrun h (hgh.mono hsub)⟩
  · exact .inr ⟨n, hn, fun h hgh => hrun h (hgh.mono hsub)⟩

theorem readsOnly_throw (e : Error) : ReadsOnly ids (throw e) := fun _ =>
  .inl ⟨e, fun h _ => h.run_throw e⟩

theorem readsOnly_query_bind {α : Type} {read : Graph → Except Error α}
    {next : α → BuildM Error Nat} (hread : ∀ g h : Graph, g.AgreesOn ids h → read h = read g)
    (hnext : ∀ a, ReadsOnly ids (next a)) : ReadsOnly ids (query read >>= next) := by
  intro g
  cases hg : read g with
  | error e =>
    refine .inl ⟨e, fun h hgh => ?_⟩
    rw [run_bind, run_query, hread g h hgh, hg]
  | ok a =>
    have hbind : ∀ h, g.AgreesOn ids h → h.run (query read >>= next) = h.run (next a) := by
      intro h hgh
      rw [run_bind, run_query, hread g h hgh, hg]
    rcases hnext a g with ⟨e, hrun⟩ | ⟨n, hn, hrun⟩
    · exact .inl ⟨e, fun h hgh => (hbind h hgh).trans (hrun h hgh)⟩
    · exact .inr ⟨n, hn, fun h hgh => (hbind h hgh).trans (hrun h hgh)⟩

theorem readsOnly_parameter (desc : TensorDesc) :
    ReadsOnly ids (do return (← parameter desc).node) := fun _ =>
  .inr ⟨_, .parameter desc, fun h _ => by rw [run_bind, run_parameter]; rfl⟩

theorem readsOnly_convert (inputs : List Output) :
    ReadsOnly (inputs.map Output.node) (convert {} inputs) := by
  intro g
  cases houtputs : g.conversionOutputs {} inputs with
  | error e =>
    refine .inl ⟨e, fun h hgh => ?_⟩
    rw [run_convert, hgh.conversionOutputs, houtputs]
  | ok outputs =>
    refine .inr ⟨_, .conversion houtputs, fun h hgh => ?_⟩
    rw [run_convert, hgh.conversionOutputs, houtputs]

theorem readsOnly_rgbToNv12Of (inputs : List Output) :
    ReadsOnly (inputs.map Output.node) (rgbToNv12Of inputs) := by
  match inputs with
  | [] => exact readsOnly_throw _
  | [rgb] => exact readsOnly_convert [rgb]
  | [y, uv] => exact readsOnly_convert [y, uv]
  | _ :: _ :: _ :: _ => exact readsOnly_throw _

theorem readsOnly_cloneOp (op : Op) (inputs : List Output) :
    ReadsOnly (inputs.map Output.node) (cloneOp op inputs) := by
  cases op with
  | parameter desc =>
    simp only [cloneOp]
    split
    · exact readsOnly_parameter desc
    · exact readsOnly_throw _
  | rgbToNv12 c => exact readsOnly_rgbToNv12Of inputs

/-- Reading a node and going on with it reads that node and what is read then. -/
theorem readsOnly_node_bind {id : Nat} {next : Node → BuildM Error Nat}
    (hnext : ∀ n, ReadsOnly ids (next n)) :
    ReadsOnly (id :: ids) (do next (← query fun g => (g.node id).mapError .graph)) := by
  refine readsOnly_query_bind (fun g h hgh => ?_) fun n => (hnext n).mono (List.subset_cons_self _ _)
  rw [hgh id List.mem_cons_self]

theorem readsOnly_fromAttributes (attrs : AttributeMap) (inputs : List Output) :
    ReadsOnly (inputs.map Output.node) (fromAttributes attrs inputs) :=
  readsOnly_query_bind (fun _ _ _ => rfl) fun _ => readsOnly_rgbToNv12Of inputs

theorem readsOnly_build (typeName : String) (attrs : AttributeMap) (inputs : List Output) :
    ReadsOnly (inputs.map Output.node) (build typeName attrs inputs) := by
  unfold build
  split
  · exact readsOnly_fromAttributes attrs inputs
  · exact readsOnly_throw _

end Graph

namespace Construction

/-- The ids of the nodes that a call names. -/
def nodeIds : Construction → List Nat
  | .parameter _ => []
  | .rgbToNv12 rgb => [rgb.node]
  | .withPlanes y uv => [y.node, uv.node]
  | .cloneNode id inputs => id :: inputs.map Output.node
  | .cloneOp _ inputs => inputs.map Output.node
  | .fromAttributes _ inputs => inputs.map Output.node
  | .build _ _ inputs => inputs.map Output.node
  | .rebuild id inputs => id :: inputs.map Output.node

/-- What a call comes to follows from the nodes it names. -/
theorem readsOnly (c : Construction) : Graph.ReadsOnly c.nodeIds c.call := by
  cases c with
  | parameter desc => exact Graph.readsOnly_parameter desc
  | rgbToNv12 rgb => exact Graph.readsOnly_convert [rgb]
  | withPlanes y uv => exact Graph.readsOnly_convert [y, uv]
  | cloneNode id inputs =>
    exact Graph.readsOnly_node_bind fun n => Graph.readsOnly_cloneOp n.op inputs
  | cloneOp op inputs => exact Graph.readsOnly_cloneOp op inputs
  | fromAttributes attrs inputs => exact Graph.readsOnly_fromAttributes attrs inputs
  | build typeName attrs inputs => exact Graph.readsOnly_build typeName attrs inputs
  | rebuild id inputs =>
    exact Graph.readsOnly_node_bind fun n =>
      Graph.readsOnly_build n.op.typeName n.op.attributes inputs

theorem addsOne (c : Construction) : Graph.AddsOne c.call := c.readsOnly.addsOne

end Construction

namespace Graph

/-! ## Growing graphs -/

/-- The graph with an output made a result, which is not checked. -/
def pushResult (g : Graph) (o : Output) : Graph :=
  { g with results := g.results.push o }

/-- The graphs that grow from the empty one, node by node and result by result. -/
inductive Grown : Graph → Prop
  | empty : Grown .empty
  | push {g : Graph} {n : Node} (hg : g.Grown) (hn : g.Admits n) : (g.push n).Grown
  | pushResult {g : Graph} {o : Output} {x : TensorDesc} (hg : g.Grown) (ho : g.desc o = .ok x) :
      (g.pushResult o).Grown

variable {g : Graph}

theorem Grown.of_addsOne (hg : g.Grown) {call : BuildM Error Nat} (hcall : AddsOne call) :
    (g.run call).2.Grown := by
  rcases hcall g with ⟨e, hrun⟩ | ⟨n, hn, hrun⟩
  · rw [hrun]
    exact hg
  · rw [hrun]
    exact hg.push hn

theorem Grown.of_addResult (hg : g.Grown) (o : Output) : (g.run (addResult o)).2.Grown := by
  rw [run_addResult]
  cases ho : g.desc o with
  | error e => exact hg
  | ok x => exact hg.pushResult ho

end Graph

end PixelGraph
