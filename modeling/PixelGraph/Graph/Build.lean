-- SUMMARY: The calls that change a graph, each of which checks before it adds.
import PixelGraph.Graph.Basic

/-!
# Building graphs

A call that changes the graph runs in a monad with the graph as its state. A failure keeps
the state, so a call has to do all its checks before it adds anything.
-/

namespace PixelGraph

/-- A call on a graph that can fail. -/
abbrev BuildM (ε : Type) := ExceptT ε (StateM Graph)

namespace Graph

variable {ε α β : Type}

/-- What a call gives on a graph, and the graph after it. -/
def run (g : Graph) (call : BuildM ε α) : Except ε α × Graph :=
  StateT.run (ExceptT.run call) g

/-- Reads the graph and fails if the reading does. -/
def query (read : Graph → Except ε α) : BuildM ε α :=
  ExceptT.mk fun g => (read g, g)

/-- Adds a node without checking it and gives its id. -/
def insert (n : Node) : BuildM ε Nat :=
  ExceptT.mk fun g => (.ok g.size, g.push n)

@[simp] theorem run_pure (g : Graph) (a : α) : g.run (pure a : BuildM ε α) = (.ok a, g) := rfl

@[simp] theorem run_throw (g : Graph) (e : ε) : g.run (throw e : BuildM ε α) = (.error e, g) := rfl

@[simp] theorem run_query (g : Graph) (read : Graph → Except ε α) :
    g.run (query read) = (read g, g) := rfl

@[simp] theorem run_insert (g : Graph) (n : Node) :
    g.run (insert n : BuildM ε Nat) = (.ok g.size, g.push n) := rfl

@[simp] theorem run_modify (g : Graph) (f : Graph → Graph) :
    g.run (modify f : BuildM ε Unit) = (.ok (), f g) := rfl

theorem run_bind (g : Graph) (call : BuildM ε α) (next : α → BuildM ε β) :
    g.run (call >>= next) =
      match g.run call with
      | (.ok a, g')    => g'.run (next a)
      | (.error e, g') => (.error e, g') := by
  change (match g.run call with | (r, g') => StateT.run (ExceptT.bindCont next r) g') = _
  rcases g.run call with ⟨_ | _, _⟩ <;> rfl

theorem run_adapt {ε' : Type} (g : Graph) (call : BuildM ε α) (f : ε → ε') :
    g.run (call.adapt f) = match g.run call with | (r, h) => (r.mapError f, h) := rfl

/-! ## Parameters and results -/

def parameter (desc : TensorDesc) : BuildM ε Output := do
  let id ← insert ⟨.parameter desc, [], [desc]⟩
  return ⟨id, 0⟩

def addResult (o : Output) : BuildM GraphError Unit := do
  let _ ← query (·.desc o)
  modify fun g => { g with results := g.results.push o }

@[simp] theorem run_parameter (g : Graph) (desc : TensorDesc) :
    g.run (parameter desc : BuildM ε Output) =
      (.ok ⟨g.size, 0⟩, g.push ⟨.parameter desc, [], [desc]⟩) := rfl

theorem run_addResult (g : Graph) (o : Output) :
    g.run (addResult o) =
      match g.desc o with
      | .ok _    => (.ok (), { g with results := g.results.push o })
      | .error e => (.error e, g) := by
  rw [addResult, run_bind, run_query]
  cases g.desc o <;> rfl

/-! ## Conversions -/

/-- The outputs of a conversion of the given inputs, all of which have to be in the graph. -/
def conversionOutputs (g : Graph) (c : RgbConversion) (inputs : List Output) :
    Except Error (List TensorDesc) := do
  let descs ← (g.inputDescs inputs).mapError .graph
  (c.infer descs).mapError .conversion

/-- Adds a conversion of the given inputs. -/
def convert (c : RgbConversion) (inputs : List Output) : BuildM Error Nat := do
  let outputs ← query (·.conversionOutputs c inputs)
  insert ⟨.rgbToNv12 c, inputs, outputs⟩

theorem run_convert (g : Graph) (c : RgbConversion) (inputs : List Output) :
    g.run (convert c inputs) =
      match g.conversionOutputs c inputs with
      | .ok outputs => (.ok g.size, g.push ⟨.rgbToNv12 c, inputs, outputs⟩)
      | .error e    => (.error e, g) := by
  rw [convert, run_bind, run_query]
  cases g.conversionOutputs c inputs <;> rfl

/-- Adds a conversion of a packed image to NV12. -/
def rgbToNv12 (rgb : Output) : BuildM Error Nat :=
  convert {} [rgb]

/-- Adds a conversion of a Y plane and a UV plane to NV12. -/
def withPlanes (y uv : Output) : BuildM Error Nat :=
  convert {} [y, uv]

/-- Adds a conversion to NV12 in the form that fits the number of inputs. -/
def rgbToNv12Of : List Output → BuildM Error Nat
  | [rgb]   => rgbToNv12 rgb
  | [y, uv] => withPlanes y uv
  | inputs  => throw (.conversion (.arity inputs.length))

/-! ## Copies -/

/-- Adds a node with the same operation on other inputs. A conversion becomes one to NV12. -/
def cloneOp (op : Op) (inputs : List Output) : BuildM Error Nat :=
  match op with
  | .parameter desc =>
    if inputs.isEmpty then
      return (← parameter desc).node
    else
      throw (.graph (.unexpectedInputs op.typeName inputs.length))
  | .rgbToNv12 _ => rgbToNv12Of inputs

def cloneNode (id : Nat) (inputs : List Output) : BuildM Error Nat := do
  let n ← query fun g => (g.node id).mapError .graph
  cloneOp n.op inputs

theorem run_cloneNode (g : Graph) (id : Nat) (inputs : List Output) :
    g.run (cloneNode id inputs) =
      match g.node id with
      | .ok n    => g.run (cloneOp n.op inputs)
      | .error e => (.error (.graph e), g) := by
  rw [cloneNode, run_bind, run_query]
  cases g.node id <;> rfl

/-! ## Loading from attributes -/

/-- The conversion that attributes describe, which has to be one to NV12. -/
def conversionOf (attrs : AttributeMap) : Except AttributeError RgbConversion := do
  let loaded := ({} : RgbConversion).visitAttributes (AttributeReader.ofMap attrs)
  loaded.visitor.finish
  let format := loaded.value.format
  if format = .nv12 then
    return loaded.value
  else
    throw (.unexpected Op.conversionTypeName RgbConversion.formatName format.text)

/-- Adds a conversion whose attributes say that it is one to NV12. -/
def fromAttributes (attrs : AttributeMap) (inputs : List Output) : BuildM Error Nat := do
  let _ ← query fun _ => (conversionOf attrs).mapError .attribute
  rgbToNv12Of inputs

theorem run_fromAttributes (g : Graph) (attrs : AttributeMap) (inputs : List Output) :
    g.run (fromAttributes attrs inputs) =
      match conversionOf attrs with
      | .ok _    => g.run (rgbToNv12Of inputs)
      | .error e => (.error (.attribute e), g) := by
  rw [fromAttributes, run_bind, run_query]
  cases conversionOf attrs <;> rfl

/-- Adds a node of a named type. Only conversions are built from attributes. -/
def build (typeName : String) (attrs : AttributeMap) (inputs : List Output) : BuildM Error Nat :=
  if typeName = Op.conversionTypeName then fromAttributes attrs inputs
  else throw (.attribute (.unsupportedType typeName))

/-- Adds a node of the type and with the attributes of another. -/
def rebuild (id : Nat) (inputs : List Output) : BuildM Error Nat := do
  let n ← query fun g => (g.node id).mapError .graph
  build n.op.typeName n.op.attributes inputs

end Graph

end PixelGraph
