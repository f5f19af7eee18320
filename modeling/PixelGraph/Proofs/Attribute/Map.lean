-- SUMMARY: What a map holds after a sequence of insertions.
import PixelGraph.Attribute.Map

/-!
# Insertions into a map

Of the entries put into a map under one name, the last counts.
-/

namespace PixelGraph

namespace AttributeMap

variable {m : AttributeMap} {es : List (String × String)} {name value : String}

theorem get?_foldl_insert (es : List (String × String)) (m : AttributeMap) (name : String) :
    (es.foldl (fun m e => m.insert e.1 e.2) m).get? name =
      ((es.reverse.find? (fun e => e.1 = name)).map Prod.snd).or (m.get? name) := by
  induction es generalizing m with
  | nil => simp
  | cons e es ih =>
    rw [List.foldl_cons, ih, get?_insert, List.reverse_cons, List.find?_append, Option.map_or,
      Option.or_assoc]
    by_cases h : e.1 = name
    case pos => simp [h]
    case neg => simp [h]

theorem get?_ofList (es : List (String × String)) (name : String) :
    (ofList es).get? name = (es.reverse.find? (fun e => e.1 = name)).map Prod.snd := by
  rw [ofList, get?_foldl_insert, get?_empty, Option.or_none]

theorem mem_names_iff : name ∈ m.toList.map Prod.fst ↔ (m.get? name).isSome = true := by
  simp [toList, get?]

theorem mem_names_ofList_iff : name ∈ (ofList es).toList.map Prod.fst ↔ name ∈ es.map Prod.fst := by
  simp [mem_names_iff, get?_ofList]

/-- The last entry with the name has the value. -/
def Leaves (es : List (String × String)) (name value : String) : Prop :=
  ∃ before after, es = before ++ (name, value) :: after ∧ ∀ e ∈ after, e.1 ≠ name

theorem Leaves.mem (h : Leaves es name value) : (name, value) ∈ es := by
  obtain ⟨before, after, rfl, -⟩ := h
  simp

theorem get?_ofList_eq_some_iff : (ofList es).get? name = some value ↔ Leaves es name value := by
  rw [get?_ofList, Option.map_eq_some_iff]
  constructor
  · rintro ⟨⟨name', value'⟩, hfind, rfl⟩
    obtain ⟨hname, after, before, hreverse, hafter⟩ := List.find?_eq_some_iff_append.1 hfind
    obtain rfl : name' = name := by simpa using hname
    refine ⟨before.reverse, after.reverse, ?_, by simpa using hafter⟩
    simpa using congrArg List.reverse hreverse
  · rintro ⟨before, after, rfl, hafter⟩
    refine ⟨(name, value), List.find?_eq_some_iff_append.2 ⟨by simp, ?_⟩, rfl⟩
    exact ⟨after.reverse, before.reverse, by simp, by simpa using hafter⟩

/-- Where all entries with a name have one value, it does not matter which is the last. -/
theorem get?_ofList_of_mem (hmem : (name, value) ∈ es)
    (hunique : ∀ value', (name, value') ∈ es → value' = value) :
    (ofList es).get? name = some value := by
  have hnames : name ∈ (ofList es).toList.map Prod.fst :=
    mem_names_ofList_iff.2 (List.mem_map.2 ⟨_, hmem, rfl⟩)
  obtain ⟨value', hvalue'⟩ := Option.isSome_iff_exists.1 (mem_names_iff.1 hnames)
  have hlast : Leaves es name value' := get?_ofList_eq_some_iff.1 hvalue'
  rw [hvalue', hunique value' hlast.mem]

end AttributeMap

end PixelGraph
