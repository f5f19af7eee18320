-- SUMMARY: The edges of a reachable graph list for each node just the nodes that use it.
import PixelGraph.Proofs.Graph.Validity

/-!
# Consumers

The edges repeat what the nodes say of their inputs. Each call that adds a node adds its edges
as well, so the two never drift apart: a node is listed as a consumer once for each of its
inputs, and later consumers come after earlier ones.
-/

namespace PixelGraph.Graph

variable {g : Graph} {i j : Nat} {n : Node}

/-- How many inputs of one node are outputs of another. An id without a node has no inputs. -/
def uses (g : Graph) (i j : Nat) : Nat :=
  match g.node i with
  | .ok n    => n.inputs.countP (·.node = j)
  | .error _ => 0

theorem uses_of_node_eq_ok (hn : g.node i = .ok n) : g.uses i j = n.inputs.countP (·.node = j) := by
  rw [uses, hn]

theorem exists_node_of_uses_ne_zero (h : g.uses i j ≠ 0) : ∃ n, g.node i = .ok n := by
  unfold uses at h
  split at h
  case h_1 n hn => exact ⟨n, hn⟩
  case h_2 => exact absurd rfl h

theorem uses_push (g : Graph) (n : Node) (i j : Nat) :
    (g.push n).uses i j = if i = g.size then n.inputs.countP (·.node = j) else g.uses i j := by
  unfold uses
  rw [node_push]
  by_cases hi : i = g.size
  · rw [if_pos hi, if_pos hi]
  · rw [if_neg hi, if_neg hi]

theorem uses_size (g : Graph) (j : Nat) : g.uses g.size j = 0 := by
  refine Decidable.byContradiction fun huses => ?_
  obtain ⟨n, hn⟩ := exists_node_of_uses_ne_zero huses
  exact Nat.lt_irrefl _ (lt_size_of_node_eq_ok hn)

/-! ## The index -/

/-- The consumers of every node are those that use it, as often as they do and in order. -/
structure Indexed (g : Graph) : Prop where
  ascending : ∀ j, (g.consumers j).Pairwise (· ≤ ·)
  count : ∀ j i, (g.consumers j).count i = g.uses i j

namespace Indexed

theorem exists_node (hg : g.Indexed) (hi : i ∈ g.consumers j) :
    ∃ n, g.node i = .ok n ∧ ∃ o ∈ n.inputs, o.node = j := by
  have hcount : 0 < g.uses i j := hg.count j i ▸ List.count_pos_iff.2 hi
  obtain ⟨n, hn⟩ := exists_node_of_uses_ne_zero (Nat.ne_of_gt hcount)
  rw [uses_of_node_eq_ok hn] at hcount
  obtain ⟨o, ho, hnode⟩ := List.countP_pos_iff.1 hcount
  exact ⟨n, hn, o, ho, of_decide_eq_true hnode⟩

theorem lt_size (hg : g.Indexed) (hi : i ∈ g.consumers j) : i < g.size := by
  obtain ⟨n, hn, -⟩ := hg.exists_node hi
  exact lt_size_of_node_eq_ok hn

theorem empty : Graph.empty.Indexed where
  ascending := fun _ => .nil
  count := fun _ _ => rfl

/-- A new node has the greatest id, so listing it at the end keeps the order. -/
theorem push (hg : g.Indexed) (n : Node) : (g.push n).Indexed where
  ascending := by
    intro j
    rw [consumers_push]
    refine List.pairwise_append.2 ⟨hg.ascending j, ?_, ?_⟩
    · exact List.pairwise_replicate.2 (.inr (Nat.le_refl g.size))
    · intro a ha b hb
      rw [List.eq_of_mem_replicate hb]
      exact Nat.le_of_lt (hg.lt_size ha)
  count := by
    intro j i
    rw [consumers_push, List.count_append, List.count_replicate, hg.count, uses_push]
    by_cases hi : i = g.size
    · subst hi
      rw [uses_size, if_pos rfl, if_pos (beq_self_eq_true _), Nat.zero_add]
    · rw [if_neg hi, if_neg (by simpa using Ne.symm hi), Nat.add_zero]

theorem pushResult (hg : g.Indexed) (o : Output) : (g.pushResult o).Indexed :=
  ⟨hg.ascending, hg.count⟩

end Indexed

theorem Grown.indexed (hg : g.Grown) : g.Indexed := by
  induction hg with
  | empty => exact .empty
  | push _ _ ih => exact ih.push _
  | pushResult _ _ ih => exact ih.pushResult _

/-- The edges that nodes call for, in the order of their consumers. -/
def edgesOf (nodes : List Node) : List Edge :=
  nodes.zipIdx.flatMap fun (n, id) => n.inputs.map fun o => ⟨o.node, id⟩

/-- The edges of a graph say nothing that its nodes do not. -/
theorem Grown.edges_eq (hg : g.Grown) : g.edges.toList = edgesOf g.nodes.toList := by
  induction hg with
  | empty => rfl
  | @push g n _ _ ih =>
    have hedges : (g.push n).edges.toList = g.edges.toList ++ n.inputs.map fun o => ⟨o.node, g.size⟩ := by
      simp [Graph.push]
    have hnodes : (g.push n).nodes.toList = g.nodes.toList ++ [n] := Array.toList_push
    rw [hedges, hnodes, ih, edgesOf, edgesOf, List.zipIdx_append, List.flatMap_append]
    simp [size]
  | pushResult _ _ ih => exact ih

/-- A consumer comes after every node it uses. -/
theorem Grown.lt_of_mem_consumers (hg : g.Grown) (hi : i ∈ g.consumers j) : j < i := by
  obtain ⟨n, hn, o, ho, rfl⟩ := hg.indexed.exists_node hi
  exact (hg.valid.nodes hn).input_lt ho

/-- The consumers of an id ascend, and each node is among them once for each input that it has
from there. All of them are nodes that come after; an id without a node has none. -/
theorem consumers_of_reachable (hg : g.Reachable) (j : Nat) :
    (g.consumers j).Pairwise (· ≤ ·) ∧
    (∀ i n, g.node i = .ok n → (g.consumers j).count i = n.inputs.countP (·.node = j)) ∧
    (g.size ≤ j → g.consumers j = []) ∧
    ∀ i ∈ g.consumers j, j < i ∧ i < g.size := by
  have hindexed := hg.grown.indexed
  have hbounds : ∀ i ∈ g.consumers j, j < i ∧ i < g.size := fun i hi =>
    ⟨hg.grown.lt_of_mem_consumers hi, hindexed.lt_size hi⟩
  refine ⟨hindexed.ascending j, fun i n hn => ?_, fun hj => ?_, hbounds⟩
  · rw [hindexed.count, uses_of_node_eq_ok hn]
  · refine List.eq_nil_iff_forall_not_mem.2 fun i hi => ?_
    obtain ⟨hlow, hhigh⟩ := hbounds i hi
    exact Nat.lt_irrefl j (Nat.lt_of_lt_of_le (Nat.lt_trans hlow hhigh) hj)

def yPlane : TensorDesc :=
  ⟨⟨[.dynamic, .static 480, .static 640, .static 1]⟩, .f32⟩

def uvPlane : TensorDesc :=
  ⟨⟨[.dynamic, .static 240, .static 320, .static 2]⟩, .f32⟩

/-- Two planes, their conversion, and a conversion of both its outputs. -/
def convertedTwice : Graph :=
  ((((Graph.empty.run (Construction.parameter yPlane).call).2.run
    (Construction.parameter uvPlane).call).2.run
    (Construction.withPlanes ⟨0, 0⟩ ⟨1, 0⟩).call).2.run
    (Construction.withPlanes ⟨2, 0⟩ ⟨2, 1⟩).call).2

theorem reachable_convertedTwice : convertedTwice.Reachable :=
  (((Reachable.empty.construct (.parameter yPlane) nofun).construct
    (.parameter uvPlane) nofun).construct (.withPlanes ⟨0, 0⟩ ⟨1, 0⟩) nofun).construct
    (.withPlanes ⟨2, 0⟩ ⟨2, 1⟩) nofun

/-- A node that gives both planes of a conversion has the conversion as a consumer twice. -/
theorem consumers_convertedTwice :
    convertedTwice.Reachable ∧ convertedTwice.consumers 2 = [3, 3] ∧
    (convertedTwice.consumers 2).count 3 = 2 ∧
    ∀ i ∈ convertedTwice.consumers 2, 2 < i ∧ i < convertedTwice.size := by
  obtain ⟨-, hcount, -, hbounds⟩ := consumers_of_reachable reachable_convertedTwice 2
  exact ⟨reachable_convertedTwice, rfl, hcount 3 _ rfl, hbounds⟩

end PixelGraph.Graph
