-- SUMMARY: Two calls that name only nodes from before both of them come to the same in either order.
import Mathlib.Data.List.Count
import Mathlib.Logic.Equiv.Basic
import PixelGraph.Proofs.Graph.Consumers

/-!
# Independence

A call reads only the nodes it names. Two calls that name only nodes from before both of them
therefore fail or add just what they would add alone, whichever is made first. The order shows in
nothing but the ids: the node that is added first has the smaller one. The two graphs are one
graph up to an exchange of these ids, and so are the consumers, which follow from the nodes.
-/

namespace PixelGraph

/-! ## Other ids -/

/-- The output of a node that has a new id. -/
def Output.rename (σ : Nat → Nat) (o : Output) : Output :=
  ⟨σ o.node, o.index⟩

/-- The node with inputs from nodes that have new ids. -/
def Node.rename (σ : Nat → Nat) (n : Node) : Node :=
  { n with inputs := n.inputs.map (Output.rename σ) }

theorem Node.rename_eq_self {σ : Nat → Nat} {n : Node} (hkept : ∀ o ∈ n.inputs, σ o.node = o.node) :
    n.rename σ = n := by
  have hinputs : n.inputs.map (Output.rename σ) = n.inputs.map id := by
    refine List.map_congr_left fun o ho => ?_
    rw [Output.rename, hkept o ho]
    rfl
  unfold Node.rename
  rw [hinputs, List.map_id]

namespace Graph

variable {g h : Graph} {σ : Equiv.Perm Nat} {na nb : Node}

/-- The second graph is the first with new ids for its nodes. The consumers of a node are the
same, but they may come in another order. -/
structure Renamed (σ : Equiv.Perm Nat) (g h : Graph) : Prop where
  nodes : ∀ id, h.nodes[σ id]? = (g.nodes[id]?).map (Node.rename σ)
  consumers : ∀ id, (h.consumers (σ id)).Perm ((g.consumers id).map σ)

theorem renamed_refl (g : Graph) : Renamed (Equiv.refl Nat) g g where
  nodes := by
    intro i
    have hrename : Node.rename (Equiv.refl Nat) = id := by
      funext n
      exact n.rename_eq_self fun _ _ => rfl
    rw [hrename, Option.map_id]
    rfl
  consumers := by
    intro i
    rw [Equiv.coe_refl, List.map_id]
    exact .refl _

/-- A node under its new id uses another just as often. -/
theorem uses_of_renamed_nodes (hnodes : ∀ id, h.nodes[σ id]? = (g.nodes[id]?).map (Node.rename σ))
    (i j : Nat) : h.uses (σ i) (σ j) = g.uses i j := by
  have hi := hnodes i
  cases hn : g.nodes[i]? with
  | none =>
    rw [hn] at hi
    unfold uses node
    rw [hn, hi]
    rfl
  | some n =>
    rw [hn] at hi
    rw [uses_of_node_eq_ok (node_eq_ok_iff.2 hi), uses_of_node_eq_ok (node_eq_ok_iff.2 hn)]
    unfold Node.rename
    rw [List.countP_map]
    refine List.countP_congr fun o _ => ?_
    simp [Output.rename]

/-- The consumers follow from the nodes, so it is enough to look at these. -/
theorem Renamed.of_nodes (hg : g.Grown) (hh : h.Grown)
    (hnodes : ∀ id, h.nodes[σ id]? = (g.nodes[id]?).map (Node.rename σ)) : Renamed σ g h where
  nodes := hnodes
  consumers := by
    intro j
    refine List.perm_iff_count.2 fun i => ?_
    obtain ⟨i, rfl⟩ := σ.surjective i
    rw [List.count_map_of_injective _ _ σ.injective, hh.indexed.count, hg.indexed.count,
      uses_of_renamed_nodes hnodes]

/-! ## Two new nodes -/

theorem getElem?_nodes_push (g : Graph) (n : Node) (id : Nat) :
    (g.push n).nodes[id]? = if id = g.size then some n else g.nodes[id]? := by
  unfold push size
  rw [Array.getElem?_push]

/-- The inputs of a node come before it, so an exchange of later ids keeps them. -/
theorem ValidNode.rename_swap_eq_self {id : Nat} {n : Node} (hn : g.ValidNode id n)
    (hid : id ≤ g.size) : n.rename (Equiv.swap g.size (g.size + 1)) = n := by
  refine n.rename_eq_self fun o ho => ?_
  have hlt : o.node < g.size := Nat.lt_of_lt_of_le (hn.input_lt ho) hid
  exact Equiv.swap_apply_of_ne_of_ne (by omega) (by omega)

/-- Nodes that can both be added to a graph can be added in either order. -/
theorem renamed_push_push (hg : g.Grown) (ha : g.Admits na) (hb : g.Admits nb) :
    Renamed (Equiv.swap g.size (g.size + 1)) ((g.push na).push nb) ((g.push nb).push na) := by
  have hab : ((g.push na).push nb).Grown := (hg.push ha).push (hb.mono (g.nodesIn_push na))
  have hba : ((g.push nb).push na).Grown := (hg.push hb).push (ha.mono (g.nodesIn_push nb))
  refine .of_nodes hab hba fun id => ?_
  simp only [getElem?_nodes_push, size_push]
  rcases eq_or_ne id g.size with rfl | hfirst
  · have hna := ha.validNode.rename_swap_eq_self (Nat.le_refl g.size)
    rw [Equiv.swap_apply_left, if_pos rfl, if_neg (Nat.succ_ne_self _).symm, if_pos rfl,
      Option.map_some, hna]
  rcases eq_or_ne id (g.size + 1) with rfl | hsecond
  · have hnb := hb.validNode.rename_swap_eq_self (Nat.le_refl g.size)
    rw [Equiv.swap_apply_right, if_neg (Nat.succ_ne_self _).symm, if_pos rfl, if_pos rfl,
      Option.map_some, hnb]
  rw [Equiv.swap_apply_of_ne_of_ne hfirst hsecond, if_neg hsecond, if_neg hfirst, if_neg hsecond,
    if_neg hfirst]
  cases hold : g.nodes[id]? with
  | none => rfl
  | some n =>
    have hn : g.node id = .ok n := node_eq_ok_iff.2 hold
    have hid : id ≤ g.size := Nat.le_of_lt (lt_size_of_node_eq_ok hn)
    rw [Option.map_some, (hg.valid.nodes hn).rename_swap_eq_self hid]

/-! ## Two calls -/

/-- What a call comes to on two graphs, the second of which has new ids: the same error, or the
same node. -/
inductive SameOutcome (σ : Equiv.Perm Nat) (g h : Graph) :
    Except Error Nat → Except Error Nat → Prop
  | fails (e : Error) : SameOutcome σ g h (.error e) (.error e)
  | adds {i j : Nat} {n : Node} (hid : σ i = j) (hg : g.node i = .ok n) (hh : h.node j = .ok n) :
      SameOutcome σ g h (.ok i) (.ok j)

/-- The exchange of the next two ids, if each of two calls takes one. -/
def exchange (g : Graph) (a b : Construction) : Equiv.Perm Nat :=
  if (g.run a.call).1.isOk ∧ (g.run b.call).1.isOk then Equiv.swap g.size (g.size + 1)
  else Equiv.refl Nat

theorem node_push_push (g : Graph) (n m : Node) :
    ((g.push n).push m).node g.size = .ok n ∧ ((g.push n).push m).node (g.size + 1) = .ok m := by
  have hlast := node_size_push (g.push n) m
  rw [size_push] at hlast
  exact ⟨nodesIn_push _ m (g.node_size_push n), hlast⟩

/-- Two calls that name only nodes of a graph can be made on it in either order. Each fails or
adds what it does in the other order, the results are the same, and the graphs are the same after
an exchange of the two new ids. -/
theorem run_run_comm (hg : g.Reachable) {a b : Construction} (ha : ∀ id ∈ a.nodeIds, id < g.size)
    (hb : ∀ id ∈ b.nodeIds, id < g.size) :
    let afterA := g.run a.call
    let afterAB := afterA.2.run b.call
    let afterB := g.run b.call
    let afterBA := afterB.2.run a.call
    let σ := g.exchange a b
    SameOutcome σ afterAB.2 afterBA.2 afterA.1 afterBA.1 ∧
      SameOutcome σ afterAB.2 afterBA.2 afterAB.1 afterB.1 ∧
      afterBA.2.results = afterAB.2.results ∧ Renamed σ afterAB.2 afterBA.2 := by
  have hself : ∀ ids, g.AgreesOn ids g := g.agreesOn_refl
  unfold exchange
  -- What each call does is settled on `g`, and it does the same after the other one.
  rcases a.readsOnly g with ⟨ea, hrunA⟩ | ⟨na, hna, hrunA⟩
  · rcases b.readsOnly g with ⟨eb, hrunB⟩ | ⟨nb, -, hrunB⟩
    · simp only [hrunA g (hself _), hrunB g (hself _)]
      exact ⟨.fails ea, .fails eb, trivial, g.renamed_refl⟩
    · simp only [hrunA g (hself _), hrunB g (hself _), hrunA _ (agreesOn_push ha nb)]
      have hnode := g.node_size_push nb
      exact ⟨.fails ea, .adds rfl hnode hnode, trivial, renamed_refl _⟩
  · rcases b.readsOnly g with ⟨eb, hrunB⟩ | ⟨nb, hnb, hrunB⟩
    · simp only [hrunA g (hself _), hrunB g (hself _), hrunB _ (agreesOn_push hb na)]
      have hnode := g.node_size_push na
      exact ⟨.adds rfl hnode hnode, .fails eb, trivial, renamed_refl _⟩
    · simp only [hrunA g (hself _), hrunB g (hself _), hrunA _ (agreesOn_push ha nb),
        hrunB _ (agreesOn_push hb na), Except.isOk, Except.toBool, and_self, if_true, size_push]
      obtain ⟨hfirstA, hsecondB⟩ := g.node_push_push na nb
      obtain ⟨hfirstB, hsecondA⟩ := g.node_push_push nb na
      exact ⟨.adds (Equiv.swap_apply_left _ _) hfirstA hsecondA,
        .adds (Equiv.swap_apply_right _ _) hsecondB hfirstB, rfl,
        renamed_push_push hg.grown hna hnb⟩

/-- A conversion of both outputs of another, and a copy of that other one. -/
theorem run_run_comm_convertedTwice :
    let a := Construction.withPlanes ⟨2, 0⟩ ⟨2, 1⟩
    let b := Construction.cloneNode 2 [⟨0, 0⟩, ⟨2, 1⟩]
    let afterAB := ((convertedTwice.run a.call).2.run b.call).2
    let afterBA := ((convertedTwice.run b.call).2.run a.call).2
    convertedTwice.Reachable ∧ (∀ id ∈ a.nodeIds, id < convertedTwice.size) ∧
      (∀ id ∈ b.nodeIds, id < convertedTwice.size) ∧
      afterAB.consumers 2 = [3, 3, 4, 4, 5] ∧ afterBA.consumers 2 = [3, 3, 4, 5, 5] ∧
      Renamed (Equiv.swap 4 5) afterAB afterBA := by
  have hsize : convertedTwice.size = 4 := rfl
  have ha : ∀ id ∈ (Construction.withPlanes ⟨2, 0⟩ ⟨2, 1⟩).nodeIds, id < convertedTwice.size := by
    simp [Construction.nodeIds, hsize]
  have hb : ∀ id ∈ (Construction.cloneNode 2 [⟨0, 0⟩, ⟨2, 1⟩]).nodeIds,
      id < convertedTwice.size := by
    simp [Construction.nodeIds, hsize]
  obtain ⟨-, -, -, hrenamed⟩ := run_run_comm reachable_convertedTwice ha hb
  exact ⟨reachable_convertedTwice, ha, hb, rfl, rfl, hrenamed⟩

end Graph

end PixelGraph
