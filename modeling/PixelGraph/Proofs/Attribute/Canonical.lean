-- SUMMARY: A map has one form, given by the last value that was inserted under each name.
import PixelGraph.Graph.Dump
import PixelGraph.Proofs.Attribute.Map
import PixelGraph.Proofs.Json.Form
import PixelGraph.Proofs.Text.Utf8
import Mathlib.Data.Finset.Card

/-!
# The form of a map

A map lists its names in ascending order and each of them once, so maps that have the same value
under every name are the same map. What a sequence of insertions leaves behind thus depends on the
last value of each name only and not on the order of the insertions, and the same holds of
whatever is written from the map.
-/

namespace PixelGraph

namespace AttributeMap

variable {m m' : AttributeMap} {es es' : List (String × String)} {name value : String}

/-! ## Entries -/

theorem nodup_names (m : AttributeMap) : (m.toList.map Prod.fst).Nodup := by
  apply List.pairwise_map.2
  exact m.sorted.imp String.ne_of_lt

theorem get?_eq_some_iff : m.get? name = some value ↔ (name, value) ∈ m.toList := by
  have hmem {v : String} (h : m.get? name = some v) : (name, v) ∈ m.toList := by
    obtain ⟨⟨name', _⟩, hfind, rfl⟩ := Option.map_eq_some_iff.1 h
    have hname : name' = name := by simpa using List.find?_some hfind
    subst hname
    exact List.mem_of_find?_eq_some hfind
  constructor
  · exact hmem
  · intro h
    have hsome : (m.get? name).isSome := mem_names_iff.1 (List.mem_map.2 ⟨_, h, rfl⟩)
    obtain ⟨v, hv⟩ := Option.isSome_iff_exists.1 hsome
    have hentry : (name, v) = (name, value) :=
      List.inj_on_of_nodup_map m.nodup_names (hmem hv) h rfl
    cases hentry
    exact hv

/-- A map is what it has under each name. -/
theorem ext_get? (h : ∀ name, m.get? name = m'.get? name) : m = m' := by
  have hmem : ∀ e, e ∈ m.toList ↔ e ∈ m'.toList := by
    rintro ⟨name, value⟩
    rw [← get?_eq_some_iff, ← get?_eq_some_iff, h]
  have hperm : m.toList.Perm m'.toList :=
    (List.perm_ext_iff_of_nodup m.nodup_names.of_map m'.nodup_names.of_map).2 hmem
  apply eq_of_entries_eq
  apply hperm.eq_of_pairwise _ m.sorted m'.sorted
  exact fun d e _ _ hlt hgt => absurd hgt (String.lt_asymm hlt)

/-! ## Insertions -/

/-- Under every name the last values agree, or there is none in either sequence. -/
def Agree (es es' : List (String × String)) : Prop :=
  ∀ name value, Leaves es name value ↔ Leaves es' name value

theorem ofList_eq_iff : ofList es = ofList es' ↔ Agree es es' := by
  simp only [Agree, ← get?_ofList_eq_some_iff]
  constructor
  · intro h name value
    rw [h]
  · intro h
    exact ext_get? fun name => Option.ext (h name)

theorem size_ofList (es : List (String × String)) :
    (ofList es).size = (es.map Prod.fst).toFinset.card := by
  have hnames : ((ofList es).toList.map Prod.fst).toFinset = (es.map Prod.fst).toFinset := by
    ext name
    simp only [List.mem_toFinset, mem_names_ofList_iff]
  rw [← hnames, List.toFinset_card_of_nodup (nodup_names _), List.length_map]
  rfl

/-! ## Canonical form -/

theorem pairwise_utf8 (m : AttributeMap) : m.toList.Pairwise (fun d e => utf8 d.1 < utf8 e.1) :=
  m.sorted.imp utf8_lt_utf8

/-- Inserting a sequence of entries into the empty map lists each of their names once, in strictly
ascending order by bytes, with the value that was inserted last, which is also what is found under
the name. Two sequences give the same map, and so the same list, the same JSON and the same
attributes in the line of a node, just if the last values of every name agree. -/
theorem ofList_canonical (es : List (String × String)) :
    (∀ name, ((ofList es).toList.map Prod.fst).count name =
      if name ∈ es.map Prod.fst then 1 else 0) ∧
    (ofList es).toList.Pairwise (fun d e => utf8 d.1 < utf8 e.1) ∧
    (∀ name value, (name, value) ∈ (ofList es).toList ↔ Leaves es name value) ∧
    (∀ name value, (ofList es).get? name = some value ↔ (name, value) ∈ (ofList es).toList) ∧
    (ofList es).size = (es.map Prod.fst).toFinset.card ∧
    (∀ es', (ofList es = ofList es' ↔ Agree es es') ∧
      ((ofList es).toList = (ofList es').toList ↔ Agree es es') ∧
      (JsonForm.write (ofList es) = JsonForm.write (ofList es') ↔ Agree es es') ∧
      (Agree es es' → (ofList es).text = (ofList es').text)) ∧
    ∀ op : Op, op.text = op.typeName ++ op.attributes.text := by
  refine ⟨?_, pairwise_utf8 _, ?_, fun _ _ => get?_eq_some_iff, size_ofList es, ?_,
    fun _ => rfl⟩
  · intro name
    rw [(nodup_names _).count]
    simp only [mem_names_ofList_iff]
  · intro name value
    rw [← get?_eq_some_iff, get?_ofList_eq_some_iff]
  · intro es'
    refine ⟨ofList_eq_iff, ?_, JsonForm.write_inj.trans ofList_eq_iff, ?_⟩
    · rw [← ofList_eq_iff]
      exact ⟨eq_of_entries_eq, congrArg toList⟩
    · intro hagree
      rw [ofList_eq_iff.2 hagree]

/-- Insertions in two orders, one of them with a value that is replaced. -/
theorem ofList_canonical_reordered :
    let es := [("été", "1"), ("a", "0"), ("b", "2"), ("a", "3")]
    let es' := [("a", "3"), ("b", "2"), ("été", "1")]
    Agree es es' ∧ (ofList es).text = (ofList es').text ∧
    (ofList es).toList = [("a", "3"), ("b", "2"), ("été", "1")] := by
  obtain ⟨-, -, -, -, -, horder, -⟩ :=
    ofList_canonical [("été", "1"), ("a", "0"), ("b", "2"), ("a", "3")]
  obtain ⟨hsame, -, -, htext⟩ := horder [("a", "3"), ("b", "2"), ("été", "1")]
  have hagree := hsame.1 (by decide)
  exact ⟨hagree, htext hagree, by decide⟩

end AttributeMap

end PixelGraph
