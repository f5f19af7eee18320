-- SUMMARY: Loading attributes into a copied conversion and then copying it, beside building from the attributes.
import PixelGraph.Proofs.Graph.Reachable

/-!
# Loading

A conversion with given attributes can be added in two ways: built from the attributes, or by
loading them into an operation that is at hand and copying that. Both fail alike on attributes
that name no format. A format other than NV12 is where they part: building rejects it, but a
copy is always a conversion to NV12, whatever format was loaded into what is copied.
-/

namespace PixelGraph

/-! ## Formats in attributes -/

namespace RgbConversion

/-- The format that attributes name, or what is wrong with them. -/
def formatOf (attrs : AttributeMap) : Except AttributeError PixelFormat :=
  match attrs.get? formatName with
  | none => .error (.missing formatName)
  | some text =>
    match PixelFormat.spellings.value? text with
    | none => .error (.invalidValue formatName text)
    | some f => .ok f

/-- The format that is loaded replaces the one of the conversion. -/
theorem visitAttributes_ofMap (c : RgbConversion) (attrs : AttributeMap) :
    c.visitAttributes (AttributeReader.ofMap attrs) =
      match formatOf attrs with
      | .ok f    => ⟨true, ⟨f⟩, .ofMap attrs⟩
      | .error e => ⟨false, c, ⟨attrs, some e⟩⟩ := by
  change Visit.map mk ((AttributeReader.ofMap attrs).visit formatName _ c.format) = _
  unfold AttributeReader.visit formatOf AttributeReader.ofMap
  cases hname : attrs.get? formatName with
  | none => rfl
  | some text =>
    dsimp only
    cases hvalue : PixelFormat.spellings.value? text with
    | none => rfl
    | some f => rfl

theorem eq_text_of_value?_eq_some {text : String} {f : PixelFormat}
    (hvalue : PixelFormat.spellings.value? text = some f) : text = f.text := by
  unfold PixelFormat.spellings at hvalue
  rw [SpellingTable.value?_cons, SpellingTable.value?_cons] at hvalue
  split at hvalue
  case isTrue h =>
    cases hvalue
    exact h.symm
  case isFalse =>
    split at hvalue
    case isTrue h =>
      cases hvalue
      exact h.symm
    case isFalse => cases hvalue

theorem formatOf_eq_ok_iff {attrs : AttributeMap} {f : PixelFormat} :
    formatOf attrs = .ok f ↔ attrs.get? formatName = some f.text := by
  unfold formatOf
  constructor
  · intro hok
    split at hok
    case h_1 => cases hok
    case h_2 text hname =>
      split at hok
      case h_1 => cases hok
      case h_2 f' hvalue =>
        cases hok
        rw [hname, eq_text_of_value?_eq_some hvalue]
  · intro hname
    rw [hname]
    dsimp only
    rw [PixelFormat.value?_text]

end RgbConversion

namespace Graph

variable {g : Graph}

/-! ## The two ways -/

/-- Copies an operation after attributes were loaded into it. Attributes that cannot be loaded
fail. -/
def cloneLoaded (op : Op) (attrs : AttributeMap) (inputs : List Output) : BuildM Error Nat := do
  let loaded := op.visitAttributes (AttributeReader.ofMap attrs)
  let _ ← query fun _ => loaded.visitor.finish.mapError .attribute
  cloneOp loaded.value inputs

theorem run_cloneLoaded (g : Graph) (c : RgbConversion) (attrs : AttributeMap)
    (inputs : List Output) :
    g.run (cloneLoaded (.rgbToNv12 c) attrs inputs) =
      match RgbConversion.formatOf attrs with
      | .ok _    => g.run (rgbToNv12Of inputs)
      | .error e => (.error (.attribute e), g) := by
  unfold cloneLoaded Op.visitAttributes
  dsimp only
  rw [RgbConversion.visitAttributes_ofMap, run_bind, run_query]
  cases RgbConversion.formatOf attrs with
  | ok f => rfl
  | error e => rfl

theorem conversionOf_eq (attrs : AttributeMap) :
    conversionOf attrs =
      match RgbConversion.formatOf attrs with
      | .ok .nv12 => .ok {}
      | .ok f     => .error (.unexpected Op.conversionTypeName RgbConversion.formatName f.text)
      | .error e  => .error e := by
  unfold conversionOf
  rw [RgbConversion.visitAttributes_ofMap]
  cases RgbConversion.formatOf attrs with
  | ok f =>
    cases f with
    | nv12 => rfl
    | nv21 => rfl
  | error e => rfl

theorem conversionOutputs_ne_attribute (g : Graph) (c : RgbConversion) (inputs : List Output)
    (e : AttributeError) : g.conversionOutputs c inputs ≠ .error (.attribute e) := by
  unfold conversionOutputs
  cases g.inputDescs inputs with
  | error _ => exact nofun
  | ok descs =>
    change (c.infer descs).mapError Error.conversion ≠ _
    cases c.infer descs with
    | error _ => exact nofun
    | ok _ => exact nofun

theorem run_convert_ne_attribute (g : Graph) (c : RgbConversion) (inputs : List Output)
    (e : AttributeError) : (g.run (convert c inputs)).1 ≠ .error (.attribute e) := by
  have houtputs := g.conversionOutputs_ne_attribute c inputs e
  rw [run_convert]
  cases hfailed : g.conversionOutputs c inputs with
  | ok _ => exact nofun
  | error e' =>
    rw [hfailed] at houtputs
    rintro ⟨⟩
    exact houtputs rfl

/-- Adding a conversion never fails because of an attribute. -/
theorem run_rgbToNv12Of_ne_attribute (g : Graph) (inputs : List Output) (e : AttributeError) :
    (g.run (rgbToNv12Of inputs)).1 ≠ .error (.attribute e) := by
  match inputs with
  | [] => exact nofun
  | [rgb] => exact g.run_convert_ne_attribute {} [rgb] e
  | [y, uv] => exact g.run_convert_ne_attribute {} [y, uv] e
  | _ :: _ :: _ :: _ => exact nofun

/-- Both ways come to the same, be it an id or an error, just if the attributes do not name the
format NV21. If they do, the copy is made as if they named NV12. -/
theorem run_cloneLoaded_eq_iff (g : Graph) (c : RgbConversion) (attrs : AttributeMap)
    (inputs : List Output) :
    g.run (cloneLoaded (.rgbToNv12 c) attrs inputs) = g.run (fromAttributes attrs inputs) ↔
      attrs.get? RgbConversion.formatName ≠ some (PixelFormat.text .nv21) := by
  rw [ne_eq, ← RgbConversion.formatOf_eq_ok_iff, run_cloneLoaded, run_fromAttributes,
    conversionOf_eq]
  cases RgbConversion.formatOf attrs with
  | error e => exact iff_of_true rfl nofun
  | ok f =>
    cases f with
    | nv12 => exact iff_of_true rfl nofun
    | nv21 =>
      refine iff_of_false (fun heq => ?_) (fun hne => hne rfl)
      exact g.run_rgbToNv12Of_ne_attribute inputs _ (congrArg Prod.fst heq)

/-- One frame and its conversion. -/
def convertedOne : Graph :=
  ((Graph.empty.run
    (Construction.parameter ⟨⟨[.static 1, .static 480, .static 640, .static 3]⟩, .u8⟩).call).2.run
      (Construction.rgbToNv12 ⟨0, 0⟩).call).2

def nv12One : Node :=
  ⟨.rgbToNv12 {}, [⟨0, 0⟩], [⟨⟨[.static 1, .static 720, .static 640, .static 1]⟩, .u8⟩]⟩

/-- A format that was loaded is lost in the copy, though building from it fails. -/
theorem run_cloneLoaded_nv21 :
    convertedOne.Reachable ∧ convertedOne.node 1 = .ok nv12One ∧
    convertedOne.run (cloneLoaded (.rgbToNv12 {}) (.ofList [("format", "RGB_TO_NV21")])
      [⟨0, 0⟩]) = (.ok 2, convertedOne.push nv12One) ∧
    convertedOne.run (fromAttributes (.ofList [("format", "RGB_TO_NV21")]) [⟨0, 0⟩]) =
      (.error (.attribute (.unexpected "RGBtoNV12" "format" "RGB_TO_NV21")), convertedOne) :=
  ⟨(Reachable.empty.construct (.parameter _) nofun).construct (.rgbToNv12 ⟨0, 0⟩) nofun,
    rfl, rfl, rfl⟩

end Graph

end PixelGraph
