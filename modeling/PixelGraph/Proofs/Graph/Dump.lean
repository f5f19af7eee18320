-- SUMMARY: The text of a reachable graph shows all that the graph holds.
import PixelGraph.Graph.Dump
import PixelGraph.Proofs.Graph.Consumers
import PixelGraph.Proofs.Text.Tensor

/-!
# Dumps

The lines of a dump are delimited, down to the numbers in them, so a dump can stand for one
sequence of nodes and results only. It leaves out what a parameter describes and what the
edges are. In a reachable graph the one is the output of the parameter and the other follows
from the inputs of the nodes.
-/

namespace PixelGraph

/-! ## Outputs -/

theorem Output.toList_text (o : Output) :
    o.text.toList = ['%'] ++ (Nat.toDigits 10 o.node ++ ([':'] ++ Nat.toDigits 10 o.index)) := by
  simp only [text, String.toList_append, List.append_assoc, Nat.toString_eq_repr, Nat.toList_repr]
  rfl

theorem Output.delimited_text : Delimited (fun o : Output => o.text.toList) Char.isDigit := by
  have hparts : Delimited
      (fun o : Output => Nat.toDigits 10 o.node ++ ([':'] ++ Nat.toDigits 10 o.index))
      Char.isDigit := by
    refine delimited_digits.append (delimited_digits.after [':']) node index (fun i s _ => ?_) ?_
    · exact stops_cons.2 (by decide)
    · rintro ⟨n, i⟩ ⟨m, j⟩ rfl rfl
      rfl
  simpa only [toList_text] using hparts.after ['%']

/-! ## Nodes -/

/-- What a dump shows of a node: of a parameter only that it is one, and of a conversion the
format. -/
structure Sketch where
  format? : Option PixelFormat
  inputs : List Output
  outputs : List TensorDesc

def Node.sketch (n : Node) : Sketch :=
  ⟨n.op.format?, n.inputs, n.outputs⟩

namespace Sketch

def opText : Option PixelFormat → String
  | none   => "Parameter"
  | some f => "RGBtoNV12[format=" ++ f.text ++ "]"

/-- A list of outputs or tensors up to its closing parenthesis. -/
def listChars {α : Type} (text : α → String) (as : List α) : List Char :=
  ['('] ++ ([',', ' '].intercalate (as.map fun a => (text a).toList) ++ [')'])

def chars (k : Sketch) : List Char :=
  (opText k.format?).toList ++
    (listChars Output.text k.inputs ++ ([' ', '-', '>', ' '] ++ listChars TensorDesc.text k.outputs))

theorem delimited_opText : Delimited (fun f => (opText f).toList) (· != '(') := by
  apply delimited_of_forall_mem
  · intro f f' h
    rcases f with _ | _ | _ <;> rcases f' with _ | _ | _ <;> first | rfl | exact absurd h (by decide)
  · intro f
    apply List.all_eq_true.1
    rcases f with _ | _ | _ <;> rfl

theorem delimited_listChars {α : Type} {text : α → String} {p : Char → Bool}
    (htext : Delimited (fun a => (text a).toList) p) (hcomma : p ',' = false)
    (hclose : p ')' = false) (hfirst : Begins (fun a => (text a).toList) (· != ')')) :
    Delimited (listChars text) anything := by
  have hparen : ∀ c, (p c || c == ',') = true → (c != ')') = true := by
    apply bne_of_eq_false
    rw [hclose]
    rfl
  exact ((htext.intercalate hcomma hfirst hparen).before [] (by decide)).after ['(']

theorem delimited_inputs : Delimited (listChars Output.text) anything := by
  apply delimited_listChars Output.delimited_text
  · decide
  · decide
  · intro o
    exact ⟨'%', _, o.toList_text, by decide⟩

theorem delimited_outputs : Delimited (listChars TensorDesc.text) anything := by
  apply delimited_listChars TensorDesc.delimited_text
  · rfl
  · rfl
  · exact TensorDesc.begins_text.mono (bne_of_eq_false (by decide))

theorem delimited_chars : Delimited chars anything := by
  have hlists : Delimited (fun l : List Output × List TensorDesc =>
      listChars Output.text l.1 ++ ([' ', '-', '>', ' '] ++ listChars TensorDesc.text l.2)) anything :=
    delimited_inputs.append (delimited_outputs.after _) Prod.fst Prod.snd
      (fun _ _ _ => stops_anything) fun _ _ => Prod.ext
  refine delimited_opText.append hlists format? (fun k => (k.inputs, k.outputs)) (fun l s _ => ?_) ?_
  · exact stops_cons.2 (by decide)
  · rintro ⟨f, is, os⟩ ⟨f', is', os'⟩ rfl ⟨⟩
    rfl

end Sketch

theorem Op.text_eq_opText (op : Op) : op.text = Sketch.opText op.format? := by
  cases op with
  | parameter desc => rfl
  | rgbToNv12 c =>
    obtain ⟨f⟩ := c
    cases f <;> decide

theorem Node.toList_text (n : Node) : n.text.toList = n.sketch.chars := by
  unfold text
  rw [Op.text_eq_opText]
  simp [Sketch.chars, Sketch.listChars, sketch, Function.comp_def]

namespace Graph

/-! ## Lines -/

/-- The line of a node, from what it shows of the node and its id. -/
def lineChars (l : Sketch × Nat) : List Char :=
  ['%'] ++ (Nat.toDigits 10 l.2 ++ ([' ', '=', ' '] ++ (l.1.chars ++ ['\n'])))

def resultChars (o : Output) : List Char :=
  ['r', 'e', 't', 'u', 'r', 'n', ' '] ++ (o.text.toList ++ ['\n'])

theorem toList_nodeLine (n : Node) (id : Nat) : (nodeLine n id).toList = lineChars (n.sketch, id) := by
  unfold lineChars
  rw [← n.toList_text]
  simp only [nodeLine, String.toList_append, List.append_assoc, Nat.toString_eq_repr, Nat.toList_repr]
  rfl

theorem toList_resultLine (o : Output) : (resultLine o).toList = resultChars o := by
  simp only [resultLine, String.toList_append, List.append_assoc]
  rfl

theorem delimited_lineChars : Delimited lineChars anything := by
  have hchars : Delimited (fun k : Sketch => [' ', '=', ' '] ++ (k.chars ++ ['\n'])) anything :=
    (Sketch.delimited_chars.before [] rfl).after _
  refine (delimited_digits.append hchars Prod.snd Prod.fst (fun k s _ => ?_) ?_).after ['%']
  · exact stops_cons.2 (by decide)
  · rintro ⟨k, i⟩ ⟨l, j⟩ rfl rfl
    rfl

theorem delimited_resultChars : Delimited resultChars anything :=
  (Output.delimited_text.before [] (by decide)).after _

/-! ## Dumps -/

/-- What a dump shows of the nodes, with their ids. -/
def sketches (g : Graph) : List (Sketch × Nat) :=
  (g.nodes.toList.map Node.sketch).zipIdx

/-- The lines of nodes and then those of results. -/
def dumpChars (l : List (Sketch × Nat) × List Output) : List Char :=
  l.1.flatMap lineChars ++ l.2.flatMap resultChars

theorem toList_dump (g : Graph) : g.dump.toList = dumpChars (g.sketches, g.results.toList) := by
  simp [dump, dumpChars, sketches, List.zipIdx_map, List.flatMap_map, toList_nodeLine,
    toList_resultLine, Prod.map]

/-- The first characters of the lines tell where the nodes end. -/
theorem delimited_dumpChars : Delimited dumpChars fun c => c == '%' || c == 'r' := by
  have hnodes : Delimited (fun l : List (Sketch × Nat) => l.flatMap lineChars) (· == '%') :=
    delimited_lineChars.flatMap (fun _ => ⟨'%', _, rfl, rfl⟩) fun _ _ => rfl
  have hresults : Delimited (fun os : List Output => os.flatMap resultChars) (· == 'r') :=
    delimited_resultChars.flatMap (fun _ => ⟨'r', _, rfl, rfl⟩) fun _ _ => rfl
  have hmore : Delimited (fun os : List Output => os.flatMap resultChars)
      (fun c => c == '%' || c == 'r') :=
    hresults.mono fun c hc => Bool.or_eq_true_iff.2 (.inr hc)
  refine hnodes.append hmore Prod.fst Prod.snd (fun os s hs => ?_) fun _ _ => Prod.ext
  cases os with
  | nil => exact hs.mono fun c hc => Bool.or_eq_true_iff.2 (.inl hc)
  | cons o os => exact stops_cons.2 (by decide)

variable {g h : Graph}

theorem map_sketch_eq_of_dump_eq (hdump : g.dump = h.dump) :
    g.nodes.toList.map Node.sketch = h.nodes.toList.map Node.sketch ∧ g.results = h.results := by
  have hchars := congrArg String.toList hdump
  rw [toList_dump, toList_dump] at hchars
  obtain ⟨hsketches, hresults⟩ := Prod.mk.inj (delimited_dumpChars.injective hchars)
  refine ⟨?_, Array.toList_inj.1 hresults⟩
  have hfst := congrArg (List.map Prod.fst) hsketches
  unfold sketches at hfst
  rwa [List.zipIdx_map_fst, List.zipIdx_map_fst] at hfst

/-! ## What a dump leaves out -/

/-- The description of a parameter is the one output of its node. -/
theorem ValidNode.eq_of_sketch_eq {i j : Nat} {n m : Node} (hn : g.ValidNode i n)
    (hm : h.ValidNode j m) (hsketch : n.sketch = m.sketch) : n = m := by
  cases hn with
  | parameter desc =>
    cases hm with
    | parameter desc' =>
      cases hsketch
      rfl
    | conversion => cases hsketch
  | @conversion c =>
    cases hm with
    | parameter desc' => cases hsketch
    | @conversion c' =>
      obtain ⟨f⟩ := c
      obtain ⟨f'⟩ := c'
      cases hsketch
      rfl

theorem Valid.nodes_eq (hg : g.Valid) (hh : h.Valid)
    (hsketch : g.nodes.toList.map Node.sketch = h.nodes.toList.map Node.sketch) :
    g.nodes = h.nodes := by
  refine Array.ext_getElem? fun id => ?_
  have hid : (g.nodes[id]?).map Node.sketch = (h.nodes[id]?).map Node.sketch := by
    rw [← Array.getElem?_toList, ← Array.getElem?_toList, ← List.getElem?_map, hsketch,
      List.getElem?_map]
  cases hn : g.nodes[id]? with
  | none =>
    rw [hn] at hid
    exact (Option.map_eq_none_iff.1 hid.symm).symm
  | some n =>
    rw [hn] at hid
    obtain ⟨m, hm, hmn⟩ := Option.map_eq_some_iff.1 hid.symm
    have hvalid := hg.nodes (node_eq_ok_iff.2 hn)
    rw [hm, hvalid.eq_of_sketch_eq (hh.nodes (node_eq_ok_iff.2 hm)) hmn.symm]

/-- A reachable graph can be told from its dump, with its edges. -/
theorem eq_of_dump_eq (hg : g.Reachable) (hh : h.Reachable) (hdump : g.dump = h.dump) : g = h := by
  obtain ⟨hsketch, hresults⟩ := map_sketch_eq_of_dump_eq hdump
  have hnodes : g.nodes = h.nodes := hg.grown.valid.nodes_eq hh.grown.valid hsketch
  have hedges : g.edges = h.edges := by
    rw [← Array.toList_inj, hg.grown.edges_eq, hh.grown.edges_eq, hnodes]
  cases g
  cases h
  cases hnodes
  cases hedges
  cases hresults
  rfl

/-- The frame and its conversion, which is built from attributes after a call that fails. -/
def builtAfterFailure : Graph :=
  (((Graph.empty.run (Construction.parameter packedFrame).call).2.run
    (Construction.withPlanes ⟨0, 0⟩ ⟨0, 1⟩).call).2.run
    (Construction.build "RGBtoNV12" (.ofList [("format", "RGB_TO_NV12")]) [⟨0, 0⟩]).call).2

theorem eq_builtAfterFailure :
    converted.Reachable ∧ builtAfterFailure.Reachable ∧
    converted.dump = builtAfterFailure.dump ∧ converted = builtAfterFailure :=
  have hbuilt : builtAfterFailure.Reachable :=
    ((Reachable.empty.construct (.parameter packedFrame) nofun).construct
      (.withPlanes ⟨0, 0⟩ ⟨0, 1⟩) nofun).construct (.build _ _ _) nofun
  have hdump : converted.dump = builtAfterFailure.dump := rfl
  ⟨reachable_converted, hbuilt, hdump, eq_of_dump_eq reachable_converted hbuilt hdump⟩

end Graph

end PixelGraph
