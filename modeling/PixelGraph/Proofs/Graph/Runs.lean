-- SUMMARY: Sequences of calls: a call that fails changes nothing, and one that succeeds only appends.
import PixelGraph.Proofs.Graph.Reachable

/-!
# Runs

A run makes calls on a graph one after the other and goes on after a call that fails. A call
either fails, and then the graph is the one before it, or it appends a node or a result. Both
kinds of appending leave what is in the graph where it is, so ids and outputs that were given
out before or during a run stay good to its end.
-/

namespace PixelGraph

/-! ## Calls and their effects -/

/-- A call that can change a graph: one that adds a node, or one that makes an output a
result. -/
inductive Call
  | construct (c : Construction)
  | addResult (o : Output)
deriving DecidableEq, Repr

/-- What a call that succeeds has added. -/
inductive Reply
  | node (id : Nat)
  | result (o : Output)
deriving DecidableEq, Repr

def Call.action : Call → BuildM Error Reply
  | .construct c => return .node (← c.call)
  | .addResult o => do
    (Graph.addResult o).adapt .graph
    return .result o

namespace Graph

/-- What a call can come to: an outcome, and the graph after it. -/
inductive Effect (g : Graph) : Call → Except Error Reply × Graph → Prop
  | fails (call : Call) (e : Error) : g.Effect call (.error e, g)
  | addsNode (c : Construction) {n : Node} (hn : g.Admits n) :
      g.Effect (.construct c) (.ok (.node g.size), g.push n)
  | addsResult {o : Output} {x : TensorDesc} (ho : g.desc o = .ok x) :
      g.Effect (.addResult o) (.ok (.result o), g.pushResult o)

theorem effect_run (g : Graph) (call : Call) : g.Effect call (g.run call.action) := by
  cases call with
  | construct c =>
    simp only [Call.action]
    rw [run_bind]
    rcases c.addsOne g with ⟨e, hrun⟩ | ⟨n, hn, hrun⟩
    · rw [hrun]
      exact .fails _ e
    · rw [hrun]
      exact .addsNode c hn
  | addResult o =>
    simp only [Call.action]
    rw [run_bind, run_adapt, run_addResult]
    cases ho : g.desc o with
    | error e => exact .fails _ (.graph e)
    | ok x => exact .addsResult ho

/-! ## Failures -/

theorem push_ne_self (g : Graph) (n : Node) : g.push n ≠ g := by
  intro heq
  have hsize := congrArg size heq
  rw [size_push] at hsize
  exact Nat.succ_ne_self g.size hsize

theorem pushResult_ne_self (g : Graph) (o : Output) : g.pushResult o ≠ g := by
  intro heq
  have hsize : (g.results.push o).size = g.results.size := congrArg (·.results.size) heq
  rw [Array.size_push] at hsize
  exact Nat.succ_ne_self g.results.size hsize

/-- A call leaves the graph just as it was exactly if it fails. -/
theorem run_eq_self_iff_error (g : Graph) (call : Call) :
    (g.run call.action).2 = g ↔ ∃ e, (g.run call.action).1 = .error e := by
  have heffect := g.effect_run call
  generalize g.run call.action = r at heffect ⊢
  cases heffect with
  | fails call e => exact iff_of_true rfl ⟨e, rfl⟩
  | addsNode c hn => exact iff_of_false (g.push_ne_self _) nofun
  | addsResult ho => exact iff_of_false (g.pushResult_ne_self _) nofun

/-! ## Runs -/

/-- The calls of a run, each on the graph that the one before it leaves: the outcomes and the
graph at the end. -/
def runAll (g : Graph) : List Call → List (Except Error Reply) × Graph
  | [] => ([], g)
  | call :: calls =>
    let first := g.run call.action
    let others := first.2.runAll calls
    (first.1 :: others.1, others.2)

/-- The ids that calls gave to nodes, in the order of the calls. -/
def nodesAdded (outcomes : List (Except Error Reply)) : List Nat :=
  outcomes.filterMap fun
    | .ok (.node id) => some id
    | _ => none

/-- The outputs that calls made results, in the order of the calls. -/
def resultsAdded (outcomes : List (Except Error Reply)) : List Output :=
  outcomes.filterMap fun
    | .ok (.result o) => some o
    | _ => none

theorem nodesAdded_append (r s : List (Except Error Reply)) :
    nodesAdded (r ++ s) = nodesAdded r ++ nodesAdded s :=
  List.filterMap_append

theorem resultsAdded_append (r s : List (Except Error Reply)) :
    resultsAdded (r ++ s) = resultsAdded r ++ resultsAdded s :=
  List.filterMap_append

/-- The second graph is the first with what the outcomes say was added, and nothing else. -/
structure Extends (g : Graph) (outcomes : List (Except Error Reply)) (h : Graph) : Prop where
  nodes : ∀ ⦃id n⦄, g.node id = .ok n → h.node id = .ok n
  descs : ∀ ⦃o x⦄, g.desc o = .ok x → h.desc o = .ok x
  consumers : ∀ j, g.consumers j <+: h.consumers j
  size : h.size = g.size + (nodesAdded outcomes).length
  ids : nodesAdded outcomes = List.range' g.size (nodesAdded outcomes).length
  results : h.results.toList = g.results.toList ++ resultsAdded outcomes
  resolved : ∀ o ∈ resultsAdded outcomes, ∃ x, h.desc o = .ok x

namespace Extends

variable {g h k : Graph} {r s : List (Except Error Reply)}

theorem refl (g : Graph) : g.Extends [] g where
  nodes := fun _ _ hn => hn
  descs := fun _ _ hx => hx
  consumers := fun _ => List.prefix_rfl
  size := rfl
  ids := rfl
  results := (List.append_nil _).symm
  resolved := nofun

theorem trans (hgh : g.Extends r h) (hhk : h.Extends s k) : g.Extends (r ++ s) k where
  nodes := fun _ _ hn => hhk.nodes (hgh.nodes hn)
  descs := fun _ _ hx => hhk.descs (hgh.descs hx)
  consumers := fun j => (hgh.consumers j).trans (hhk.consumers j)
  size := by
    rw [nodesAdded_append, List.length_append, hhk.size, hgh.size, Nat.add_assoc]
  ids := by
    rw [nodesAdded_append, List.length_append, ← List.range'_append_1, ← hgh.ids, ← hgh.size,
      ← hhk.ids]
  results := by
    rw [resultsAdded_append, hhk.results, hgh.results, List.append_assoc]
  resolved := by
    intro o ho
    rw [resultsAdded_append] at ho
    rcases List.mem_append.1 ho with hfirst | hsecond
    · obtain ⟨x, hx⟩ := hgh.resolved o hfirst
      exact ⟨x, hhk.descs hx⟩
    · exact hhk.resolved o hsecond

end Extends

/-- What one call adds is what its outcome says. -/
theorem Effect.extends {g : Graph} {call : Call} {r : Except Error Reply × Graph}
    (heffect : g.Effect call r) : g.Extends [r.1] r.2 := by
  cases heffect with
  | fails call e => exact { Extends.refl g with }
  | @addsNode c n hn =>
    exact {
      nodes := g.nodesIn_push n
      descs := fun _ _ => (g.nodesIn_push n).desc
      consumers := fun j => by
        rw [consumers_push]
        exact List.prefix_append _ _
      size := g.size_push n
      ids := rfl
      results := (List.append_nil _).symm
      resolved := nofun }
  | @addsResult o x ho =>
    have hnodes : g.NodesIn (g.pushResult o) := nodesIn_of_nodes_eq rfl
    exact {
      nodes := hnodes
      descs := fun _ _ => hnodes.desc
      consumers := fun _ => List.prefix_rfl
      size := rfl
      ids := rfl
      results := Array.toList_push
      resolved := by
        intro p hp
        obtain rfl := List.mem_singleton.1 hp
        exact ⟨x, hnodes.desc ho⟩ }

/-- Whatever calls are made, the graph is only added to: every node, output and consumer
stays, and each call that succeeds adds what it says. -/
theorem extends_runAll (g : Graph) (calls : List Call) :
    g.Extends (g.runAll calls).1 (g.runAll calls).2 := by
  induction calls generalizing g with
  | nil => exact .refl g
  | cons call calls ih => exact (g.effect_run call).extends.trans (ih _)

-- The call that fails takes no id.
example :
    (Graph.empty.runAll [.construct (.parameter packedFrame), .construct (.rgbToNv12 ⟨0, 1⟩),
      .construct (.rgbToNv12 ⟨0, 0⟩), .addResult ⟨1, 0⟩]).1 =
    [.ok (.node 0), .error (.graph (.outputOutOfRange 0 1 1)), .ok (.node 1),
      .ok (.result ⟨1, 0⟩)] := rfl

end Graph

end PixelGraph
