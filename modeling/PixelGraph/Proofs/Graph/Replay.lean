-- SUMMARY: A node can be copied on its own inputs, and copying all nodes builds the same graph again.
import PixelGraph.Proofs.Graph.Validity

/-!
# Replay

A copy of a node is checked anew. A reachable graph still has the node's inputs as they were
when the node was added, so a copy on these passes. A graph is replayed by copying its nodes in
the order of their ids, each with the inputs it has, and by making its results results again.
The copies find their inputs where the nodes found theirs, because the nodes before them were
given the same ids.
-/

namespace PixelGraph.Graph

variable {g : Graph} {id : Nat} {n : Node}

/-! ## Copies of one node -/

/-- A copy of an admitted node on its own inputs is that node once more. -/
theorem Admits.run_cloneOp (hn : g.Admits n) :
    g.run (cloneOp n.op n.inputs) = (.ok g.size, g.push n) := by
  cases hn with
  | parameter desc => rfl
  | @conversion inputs outputs houtputs =>
    have hrun : g.run (convert {} inputs) = (.ok g.size, g.push ⟨.rgbToNv12 {}, inputs, outputs⟩) := by
      rw [run_convert, houtputs]
    obtain ⟨o, rfl⟩ | ⟨o, p, rfl⟩ := inputs_of_conversionOutputs houtputs
    · exact hrun
    · exact hrun

/-- A node of a reachable graph can always be copied on its own inputs. The copy gets the next id
and is the same node, with the same attributes. -/
theorem run_cloneNode_self (hg : g.Reachable) (hn : g.node id = .ok n) :
    g.run (cloneNode id n.inputs) = (.ok g.size, g.push n) ∧
      (g.push n).node g.size = .ok n ∧ (g.push n).attributes g.size = g.attributes id := by
  have hcopy : (g.push n).node g.size = .ok n := g.node_size_push n
  refine ⟨?_, hcopy, ?_⟩
  · rw [run_cloneNode, hn]
    exact (hg.grown.valid.nodes hn).admits.run_cloneOp
  · rw [attributes_of_node_eq_ok hcopy, attributes_of_node_eq_ok hn]

/-- A copy of a copy, which was made of a conversion with another format. -/
theorem run_cloneNode_self_recopied :
    recopied.Reachable ∧
    recopied.node 2 = .ok ⟨.rgbToNv12 {}, [⟨0, 0⟩], [nv12Frame]⟩ ∧
    ∃ g, recopied.run (cloneNode 2 [⟨0, 0⟩]) = (.ok 3, g) ∧
      g.node 3 = .ok ⟨.rgbToNv12 {}, [⟨0, 0⟩], [nv12Frame]⟩ ∧
      g.attributes 3 = .ok (.ofList [("format", "RGB_TO_NV12")]) := by
  obtain ⟨hrun, hcopy, hattributes⟩ := run_cloneNode_self reachable_recopied node_recopied
  exact ⟨reachable_recopied, node_recopied, _, hrun, hcopy, hattributes⟩

/-! ## The calls of a replay -/

/-- Copies nodes with the inputs they have. Gives the ids of the copies. -/
def cloneAll (nodes : List Node) : BuildM Error (List Nat) :=
  nodes.mapM fun n => cloneOp n.op n.inputs

/-- Makes outputs results, in order. -/
def addResults (outputs : List Output) : BuildM Error PUnit :=
  outputs.forM fun o => (addResult o).adapt .graph

/-- Builds a graph again, node by node and then result by result. The first call that fails
ends the replay. -/
def replay (g : Graph) : BuildM Error (List Nat) := do
  let ids ← cloneAll g.nodes.toList
  addResults g.results.toList
  return ids

/-! ## Nodes -/

theorem run_cloneAll_append {ms ns : List Node} :
    g.run (cloneAll (ms ++ ns)) = g.run (do
      let ids ← cloneAll ms
      let more ← cloneAll ns
      return ids ++ more) := by
  unfold cloneAll
  rw [List.mapM_append]

/-- The graph before any output was made a result. -/
def withoutResults (g : Graph) : Graph :=
  { g with results := #[] }

theorem Grown.run_cloneAll (hg : g.Grown) :
    Graph.empty.run (cloneAll g.nodes.toList) = (.ok (List.range g.size), g.withoutResults) := by
  induction hg with
  | empty => rfl
  | @push g n _ hn ih =>
    have hnode : g.withoutResults.run (cloneAll [n]) = (.ok [g.size], g.withoutResults.push n) := by
      have hadmits : g.withoutResults.Admits n := hn.mono (nodesIn_of_nodes_eq rfl)
      rw [cloneAll, List.mapM_cons, run_bind, hadmits.run_cloneOp]
      rfl
    have hnodes : (g.push n).nodes.toList = g.nodes.toList ++ [n] := Array.toList_push
    rw [hnodes, run_cloneAll_append, run_bind, ih]
    dsimp only
    rw [run_bind, hnode, size_push, List.range_succ]
    rfl
  | pushResult _ _ ih => exact ih

/-! ## Results -/

theorem run_addResults {outputs : List Output} (houtputs : ∀ o ∈ outputs, ∃ x, g.desc o = .ok x) :
    g.run (addResults outputs) = (.ok (), { g with results := g.results ++ outputs.toArray }) := by
  induction outputs generalizing g with
  | nil => simp [addResults]
  | cons o os ih =>
    obtain ⟨x, hx⟩ := houtputs o List.mem_cons_self
    have hrun : g.run ((addResult o).adapt Error.graph) = (.ok (), g.pushResult o) := by
      rw [run_adapt, run_addResult, hx]
      rfl
    have hrest : ∀ p ∈ os, ∃ x, (g.pushResult o).desc p = .ok x := fun p hp =>
      houtputs p (List.mem_cons_of_mem o hp)
    unfold addResults
    rw [List.forM_eq_forM, List.forM_cons, run_bind, hrun]
    refine (ih hrest).trans ?_
    simp [pushResult]

/-- No call of the replay fails, every node gets the id it has, and the graph is the same. -/
theorem run_replay (hg : g.Reachable) :
    Graph.empty.run g.replay = (.ok (List.range g.size), g) := by
  have hresults : ∀ o ∈ g.results.toList, ∃ x, g.withoutResults.desc o = .ok x := by
    intro o ho
    obtain ⟨x, hx⟩ := hg.grown.valid.results o ho
    exact ⟨x, (nodesIn_of_nodes_eq rfl).desc hx⟩
  unfold replay
  rw [run_bind, hg.grown.run_cloneAll]
  dsimp only
  rw [run_bind, run_addResults hresults]
  simp [withoutResults]

/-- The graph with the copy of a loaded conversion, and the copy as a result. -/
def recopiedWithResult : Graph :=
  (recopied.run (addResult ⟨2, 0⟩)).2

theorem run_replay_recopiedWithResult :
    recopiedWithResult.Reachable ∧
    recopiedWithResult.results = #[⟨2, 0⟩] ∧
    Graph.empty.run recopiedWithResult.replay = (.ok [0, 1, 2], recopiedWithResult) :=
  have hreachable : recopiedWithResult.Reachable := reachable_recopied.addResult ⟨2, 0⟩
  ⟨hreachable, rfl, run_replay hreachable⟩

end PixelGraph.Graph
