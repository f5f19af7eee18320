-- SUMMARY: When a node is built from attributes, and otherwise which of all errors is reported.
import PixelGraph.Proofs.Attribute.Spelling
import PixelGraph.Proofs.Graph.Loading
import PixelGraph.Proofs.Rules

/-!
# Outcomes of building

A call that builds a node from attributes goes through many checks: of the type name, of the
format, of the number of inputs, of each input and of the tensors at the inputs. It adds the node
just if all of them pass, and otherwise reports the first that does not. Of the attributes only
the format is read.
-/

namespace PixelGraph

namespace Graph

variable {g h : Graph} {id : Nat} {o : Output} {typeName : String} {attrs : AttributeMap}
  {c : RgbConversion} {inputs : List Output} {outputs : List TensorDesc}

/-! ## Success -/

/-- What is asked of a call for it to build a node with the given outputs. -/
structure Builds (g : Graph) (typeName : String) (attrs : AttributeMap) (inputs : List Output)
    (outputs : List TensorDesc) : Prop where
  typeName : typeName = Op.conversionTypeName
  format : attrs.get? RgbConversion.formatName = some (PixelFormat.text .nv12)
  arity : inputs.length = 1 ∨ inputs.length = 2
  accepted : ∃ descs, List.Forall₂ (fun o x => g.desc o = .ok x) inputs descs ∧
    RgbConversion.infer {} descs = .ok outputs

theorem run_convert_eq_ok_iff :
    g.run (convert c inputs) = (.ok id, h) ↔
      ∃ outputs, g.conversionOutputs c inputs = .ok outputs ∧ id = g.size ∧
        h = g.push ⟨.rgbToNv12 c, inputs, outputs⟩ := by
  rw [run_convert]
  cases g.conversionOutputs c inputs with
  | error e => simp
  | ok outputs => simp [eq_comm]

theorem run_rgbToNv12Of_eq_ok_iff :
    g.run (rgbToNv12Of inputs) = (.ok id, h) ↔
      (inputs.length = 1 ∨ inputs.length = 2) ∧ g.run (convert {} inputs) = (.ok id, h) := by
  match inputs with
  | [] => exact iff_of_false nofun fun hrun => by simp at hrun
  | [rgb] => exact (and_iff_right (.inl rfl)).symm
  | [y, uv] => exact (and_iff_right (.inr rfl)).symm
  | _ :: _ :: _ :: _ => exact iff_of_false nofun fun hrun => by simp at hrun

theorem conversionOf_eq_ok_iff :
    conversionOf attrs = .ok c ↔
      c = {} ∧ attrs.get? RgbConversion.formatName = some (PixelFormat.text .nv12) := by
  rw [← RgbConversion.formatOf_eq_ok_iff, conversionOf_eq]
  cases RgbConversion.formatOf attrs with
  | error e => simp
  | ok f =>
    cases f with
    | nv12 => simp [eq_comm]
    | nv21 => simp

theorem run_fromAttributes_eq_ok_iff :
    g.run (fromAttributes attrs inputs) = (.ok id, h) ↔
      attrs.get? RgbConversion.formatName = some (PixelFormat.text .nv12) ∧
        g.run (rgbToNv12Of inputs) = (.ok id, h) := by
  rw [run_fromAttributes]
  cases hloaded : conversionOf attrs with
  | ok c => exact (and_iff_right (conversionOf_eq_ok_iff.1 hloaded).2).symm
  | error e =>
    refine iff_of_false nofun fun hrun => ?_
    cases hloaded.symm.trans (conversionOf_eq_ok_iff.2 ⟨rfl, hrun.1⟩)

theorem run_build_eq_ok_iff :
    g.run (build typeName attrs inputs) = (.ok id, h) ↔
      ∃ outputs, g.Builds typeName attrs inputs outputs ∧ id = g.size ∧
        h = g.push ⟨.rgbToNv12 {}, inputs, outputs⟩ := by
  unfold build
  by_cases hname : typeName = Op.conversionTypeName
  · rw [if_pos hname, run_fromAttributes_eq_ok_iff, run_rgbToNv12Of_eq_ok_iff,
      run_convert_eq_ok_iff]
    simp only [conversionOutputs_eq_ok_iff, inputDescs_eq_ok_iff]
    constructor
    · rintro ⟨hformat, harity, outputs, haccepted, hadded⟩
      exact ⟨outputs, ⟨hname, hformat, harity, haccepted⟩, hadded⟩
    · rintro ⟨outputs, hbuilds, hadded⟩
      exact ⟨hbuilds.format, hbuilds.arity, outputs, hbuilds.accepted, hadded⟩
  · rw [if_neg hname]
    exact iff_of_false nofun fun ⟨_, hbuilds, _⟩ => hname hbuilds.typeName

/-! ## Rules -/

/-- Why an output is not in the graph. -/
inductive Unresolved (g : Graph) (o : Output) : GraphError → Prop
  | unknownNode (hnode : g.nodes[o.node]? = none) : g.Unresolved o (.unknownNode o.node)
  | outputOutOfRange {n : Node} (hnode : g.nodes[o.node]? = some n)
      (hindex : n.outputs[o.index]? = none) :
      g.Unresolved o (.outputOutOfRange o.node o.index n.outputs.length)

/-- What inference reports of the tensors at the inputs. -/
def Rejected (g : Graph) (inputs : List Output) : Rule ConversionError :=
  fun e => ∃ descs, List.Forall₂ (fun o x => g.desc o = .ok x) inputs descs ∧
    RgbConversion.infer {} descs = .error e

/-- A format is given. -/
def formatGiven (attrs : AttributeMap) : Rule AttributeError :=
  .require (attrs.get? RgbConversion.formatName ≠ none) (.missing RgbConversion.formatName)

/-- The format is spelled as in the table. -/
def formatSpelled (attrs : AttributeMap) : Rule AttributeError :=
  fun e => ∃ text, attrs.get? RgbConversion.formatName = some text ∧
    (∀ entry ∈ PixelFormat.spellings.entries, entry.1 ≠ text) ∧
    e = .invalidValue RgbConversion.formatName text

/-- The format is no other than NV12. -/
def formatAccepted (attrs : AttributeMap) : Rule AttributeError :=
  fun e => ∃ f : PixelFormat, attrs.get? RgbConversion.formatName = some f.text ∧ f ≠ .nv12 ∧
    e = .unexpected Op.conversionTypeName RgbConversion.formatName f.text

/-- The rules of attributes, the ones that take precedence first. -/
def formatRules (attrs : AttributeMap) : List (Rule AttributeError) :=
  [formatGiven attrs, formatSpelled attrs, formatAccepted attrs]

/-- The rules of inputs, in the order of the inputs and before those of inference. -/
def inputRules (g : Graph) (inputs : List Output) : List (Rule Error) :=
  (inputs.map g.Unresolved).map (Rule.map .graph) ++ [g.Rejected inputs].map (Rule.map .conversion)

/-- The rules of a call that builds a node, the ones that take precedence first. -/
def buildRules (g : Graph) (typeName : String) (attrs : AttributeMap) (inputs : List Output) :
    List (Rule Error) :=
  .require (typeName = Op.conversionTypeName) (.attribute (.unsupportedType typeName)) ::
    ((formatRules attrs).map (Rule.map .attribute) ++
      .require (inputs.length = 1 ∨ inputs.length = 2) (.conversion (.arity inputs.length)) ::
        g.inputRules inputs)

/-! ## Failure -/

theorem desc_eq_error_of_unresolved {e : GraphError} (he : g.Unresolved o e) :
    g.desc o = .error e := by
  unfold desc node
  cases he with
  | unknownNode hnode =>
    rw [hnode]
    rfl
  | outputOutOfRange hnode hindex =>
    rw [hnode]
    dsimp only [bind, Except.bind]
    rw [hindex]

theorem unresolved_of_desc_eq_error {e : GraphError} (he : g.desc o = .error e) :
    g.Unresolved o e := by
  unfold desc node at he
  cases hnode : g.nodes[o.node]? with
  | none =>
    rw [hnode] at he
    cases he
    exact .unknownNode hnode
  | some n =>
    rw [hnode] at he
    dsimp only [bind, Except.bind] at he
    cases hindex : n.outputs[o.index]? with
    | none =>
      rw [hindex] at he
      cases he
      exact .outputOutOfRange hnode hindex
    | some x =>
      rw [hindex] at he
      cases he

theorem failsBy_desc (g : Graph) (o : Output) : FailsBy (g.desc o) [g.Unresolved o] :=
  .single fun _ => ⟨unresolved_of_desc_eq_error, desc_eq_error_of_unresolved⟩

theorem failsBy_inputDescs (g : Graph) (inputs : List Output) :
    FailsBy (g.inputDescs inputs) (inputs.map g.Unresolved) :=
  .mapM g.failsBy_desc inputs

theorem failsBy_infer_descs {descs : List TensorDesc} (hdescs : g.inputDescs inputs = .ok descs) :
    FailsBy (RgbConversion.infer {} descs) [g.Rejected inputs] := by
  apply FailsBy.single
  intro e
  constructor
  · intro he
    exact ⟨descs, inputDescs_eq_ok_iff.1 hdescs, he⟩
  · rintro ⟨descs', hdescs', he⟩
    cases hdescs.symm.trans (inputDescs_eq_ok_iff.2 hdescs')
    exact he

theorem failsBy_conversionOutputs (g : Graph) (inputs : List Output) :
    FailsBy (g.conversionOutputs {} inputs) (g.inputRules inputs) :=
  ((g.failsBy_inputDescs inputs).mapError Error.graph).bind fun _ hdescs =>
    (failsBy_infer_descs (mapError_eq_ok_iff.1 hdescs)).mapError Error.conversion

theorem kept_formatGiven {text : String} (hgiven : attrs.get? RgbConversion.formatName = some text) :
    (formatGiven attrs).Kept := by
  apply Rule.kept_require
  rw [hgiven]
  exact Option.some_ne_none text

theorem formatSpelled_iff {text : String} (hgiven : attrs.get? RgbConversion.formatName = some text)
    (hvalue : PixelFormat.spellings.value? text = none) (e : AttributeError) :
    formatSpelled attrs e ↔ e = .invalidValue RgbConversion.formatName text := by
  constructor
  · rintro ⟨text', hgiven', -, rfl⟩
    cases hgiven.symm.trans hgiven'
    rfl
  · rintro rfl
    exact ⟨text, hgiven, SpellingTable.value?_eq_none_iff.1 hvalue, rfl⟩

theorem kept_formatSpelled {f : PixelFormat}
    (hgiven : attrs.get? RgbConversion.formatName = some f.text) : (formatSpelled attrs).Kept := by
  rintro e ⟨text, hgiven', hnone, -⟩
  cases hgiven.symm.trans hgiven'
  cases f.value?_text.symm.trans (SpellingTable.value?_eq_none_iff.2 hnone)

theorem formatAccepted_iff {f : PixelFormat}
    (hgiven : attrs.get? RgbConversion.formatName = some f.text) (e : AttributeError) :
    formatAccepted attrs e ↔
      f ≠ .nv12 ∧ e = .unexpected Op.conversionTypeName RgbConversion.formatName f.text := by
  constructor
  · rintro ⟨f', hgiven', hne, rfl⟩
    have htext : f.text = f'.text := Option.some.inj (hgiven.symm.trans hgiven')
    have hvalue : some f = some f' := by
      rw [← f.value?_text, htext, f'.value?_text]
    cases hvalue
    exact ⟨hne, rfl⟩
  · rintro ⟨hne, rfl⟩
    exact ⟨f, hgiven, hne, rfl⟩

theorem failsBy_conversionOf (attrs : AttributeMap) :
    FailsBy (conversionOf attrs) (formatRules attrs) := by
  rw [conversionOf_eq]
  -- A format that is in the table keeps the first two rules, and any failure to find one breaks them.
  cases hformat : RgbConversion.formatOf attrs with
  | ok f =>
    have hgiven := RgbConversion.formatOf_eq_ok_iff.1 hformat
    refine FailsBy.kept ?_ (kept_formatGiven hgiven)
    refine FailsBy.kept ?_ (kept_formatSpelled hgiven)
    cases f with
    | nv12 => exact (FailsBy.ok _).kept fun e he => ((formatAccepted_iff hgiven e).1 he).1 rfl
    | nv21 => exact .error fun e => (formatAccepted_iff hgiven e).trans (and_iff_right nofun)
  | error e =>
    unfold RgbConversion.formatOf at hformat
    cases hgiven : attrs.get? RgbConversion.formatName with
    | none =>
      rw [hgiven] at hformat
      cases hformat
      exact .error fun _ => Rule.require_iff fun hne => hne hgiven
    | some text =>
      rw [hgiven] at hformat
      dsimp only at hformat
      refine FailsBy.kept ?_ (kept_formatGiven hgiven)
      cases hvalue : PixelFormat.spellings.value? text with
      | none =>
        rw [hvalue] at hformat
        cases hformat
        exact .error (formatSpelled_iff hgiven hvalue)
      | some f =>
        rw [hvalue] at hformat
        cases hformat

theorem failsBy_run_query_bind {α β ε : Type} {read : Graph → Except ε α} {next : α → BuildM ε β}
    {rs rs' : List (Rule ε)} (hread : FailsBy (read g) rs)
    (hnext : ∀ a, read g = .ok a → FailsBy (g.run (next a)).1 rs') :
    FailsBy (g.run (query read >>= next)).1 (rs ++ rs') := by
  have hrun : (g.run (query read >>= next)).1 = read g >>= fun a => (g.run (next a)).1 := by
    rw [run_bind, run_query]
    cases read g with
    | error e => rfl
    | ok a => rfl
  rw [hrun]
  exact hread.bind hnext

theorem failsBy_run_convert (g : Graph) (inputs : List Output) :
    FailsBy (g.run (convert {} inputs)).1 (g.inputRules inputs) := by
  rw [← List.append_nil (g.inputRules inputs)]
  exact failsBy_run_query_bind (g.failsBy_conversionOutputs inputs) fun _ _ => .ok _

theorem failsBy_run_rgbToNv12Of (g : Graph) (inputs : List Output) :
    FailsBy (g.run (rgbToNv12Of inputs)).1
      (.require (inputs.length = 1 ∨ inputs.length = 2) (.conversion (.arity inputs.length)) ::
        g.inputRules inputs) := by
  match inputs with
  | [] => exact .error fun _ => Rule.require_iff nofun
  | [rgb] => exact (g.failsBy_run_convert [rgb]).kept (Rule.kept_require (.inl rfl))
  | [y, uv] => exact (g.failsBy_run_convert [y, uv]).kept (Rule.kept_require (.inr rfl))
  | _ :: _ :: _ :: _ => exact .error fun _ => Rule.require_iff (by simp)

theorem failsBy_run_build (g : Graph) (typeName : String) (attrs : AttributeMap)
    (inputs : List Output) :
    FailsBy (g.run (build typeName attrs inputs)).1 (g.buildRules typeName attrs inputs) := by
  unfold build
  split
  case isTrue hname =>
    have hattrs := (failsBy_conversionOf attrs).mapError Error.attribute
    refine FailsBy.kept ?_ (Rule.kept_require hname)
    exact failsBy_run_query_bind hattrs fun _ _ => g.failsBy_run_rgbToNv12Of inputs
  case isFalse hname => exact .error fun _ => Rule.require_iff hname

theorem run_build_eq_error_iff {e : Error} :
    g.run (build typeName attrs inputs) = (.error e, h) ↔
      FirstBroken (g.buildRules typeName attrs inputs) e ∧ h = g := by
  have hfails := g.failsBy_run_build typeName attrs inputs e
  rcases (readsOnly_build typeName attrs inputs).addsOne g with ⟨e', hrun⟩ | ⟨n, -, hrun⟩
  · rw [hrun] at hfails ⊢
    rw [Prod.mk.injEq, hfails, eq_comm (a := g)]
  · rw [hrun] at hfails ⊢
    exact iff_of_false nofun fun hbroken => nomatch hfails.2 hbroken.1

/-! ## Other attributes -/

theorem run_build_congr {attrs' : AttributeMap}
    (hformat : attrs'.get? RgbConversion.formatName = attrs.get? RgbConversion.formatName) :
    g.run (build typeName attrs' inputs) = g.run (build typeName attrs inputs) := by
  have hconversion : conversionOf attrs' = conversionOf attrs := by
    rw [conversionOf_eq, conversionOf_eq, RgbConversion.formatOf, hformat]
    rfl
  unfold build
  split
  · rw [run_fromAttributes, run_fromAttributes, hconversion]
  · rfl

/-- A node is built just if all that is asked is met, and the error is that of the first rule that
is broken. Attributes under other names make no difference to either. -/
theorem run_build_iff (g : Graph) (typeName : String) (attrs : AttributeMap)
    (inputs : List Output) :
    (∀ id h, g.run (build typeName attrs inputs) = (.ok id, h) ↔
      ∃ outputs, g.Builds typeName attrs inputs outputs ∧ id = g.size ∧
        h = g.push ⟨.rgbToNv12 {}, inputs, outputs⟩) ∧
    (∀ e h, g.run (build typeName attrs inputs) = (.error e, h) ↔
      FirstBroken (g.buildRules typeName attrs inputs) e ∧ h = g) ∧
    ∀ attrs' : AttributeMap,
      attrs'.get? RgbConversion.formatName = attrs.get? RgbConversion.formatName →
      g.run (build typeName attrs' inputs) = g.run (build typeName attrs inputs) :=
  ⟨fun _ _ => run_build_eq_ok_iff, fun _ _ => run_build_eq_error_iff, fun _ => run_build_congr⟩

def nv12Attributes : AttributeMap :=
  .ofList [("format", "RGB_TO_NV12")]

/-- The same with an attribute that conversions do not have. -/
def planarAttributes : AttributeMap :=
  nv12Attributes.insert "layout" "planar"

/-- The attribute that is not read changes neither what is built nor which input fails. -/
theorem run_build_planarAttributes :
    planarAttributes.get? RgbConversion.formatName = nv12Attributes.get? RgbConversion.formatName ∧
    converted.run (build "RGBtoNV12" nv12Attributes [⟨0, 0⟩]) = (.ok 2, recopied) ∧
    converted.run (build "RGBtoNV12" planarAttributes [⟨0, 0⟩]) = (.ok 2, recopied) ∧
    converted.run (build "RGBtoNV12" planarAttributes [⟨0, 0⟩, ⟨1, 1⟩]) =
      (.error (.graph (.outputOutOfRange 1 1 1)), converted) := by
  have hformat : planarAttributes.get? RgbConversion.formatName =
      nv12Attributes.get? RgbConversion.formatName := by
    rw [planarAttributes, AttributeMap.get?_insert, if_neg (by decide)]
  obtain ⟨hbuilt, -, hother⟩ := run_build_iff converted "RGBtoNV12" nv12Attributes [⟨0, 0⟩]
  obtain ⟨-, -, hother'⟩ := run_build_iff converted "RGBtoNV12" nv12Attributes [⟨0, 0⟩, ⟨1, 1⟩]
  have hrun : converted.run (build "RGBtoNV12" nv12Attributes [⟨0, 0⟩]) = (.ok 2, recopied) :=
    (hbuilt 2 recopied).2 ⟨[nv12Frame],
      ⟨rfl, rfl, .inl rfl, [packedFrame], .cons rfl .nil, rfl⟩, rfl, rfl⟩
  exact ⟨hformat, hrun, (hother _ hformat).trans hrun, (hother' _ hformat).trans rfl⟩

end Graph

end PixelGraph
