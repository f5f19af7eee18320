-- SUMMARY: What a reader loads into slots over any sequence of visits, and which failure it keeps.
import PixelGraph.Attribute.Slots
import PixelGraph.Proofs.Attribute.Spelling
import PixelGraph.Proofs.Rules

/-!
# Reading attributes

A reader is led through names and slots. Each visit is judged by the attributes alone: it loads
the value that they give the slot under the name, or changes nothing. A failure does not end the
sequence, but the reader keeps the first one.
-/

namespace PixelGraph

namespace AttributeReader

variable {r : AttributeReader} {e : AttributeError}

theorem visit_of_reads {α : Type} {table : SpellingTable α} {name text : String} {v : α}
    (hname : r.attrs.get? name = some text) (hreads : table.Reads text v) (w : α) :
    r.visit name table w = ⟨true, v, r⟩ := by
  simp [visit, hname, SpellingTable.value?_eq_some_iff.2 hreads]

theorem fail_of_error_eq_some (h : r.error = some e) (e' : AttributeError) : r.fail e' = r := by
  rw [fail, h]

theorem finish_of_error_eq_some (h : r.error = some e) : r.finish = .error e := by
  rw [finish, h]

end AttributeReader

namespace Slots

variable {ι : Type} {S : Slots ι} {attrs : AttributeMap} {name : String} {i : ι}

/-! ## What attributes give a slot -/

/-- The text under the name spells the value in the table of the slot. -/
def Offers (S : Slots ι) (attrs : AttributeMap) (name : String) (i : ι) (v : S.Value i) : Prop :=
  ∃ text, attrs.get? name = some text ∧ (S.table i).Reads text v

/-- What is wrong with attributes that give the slot no value under the name. -/
inductive Refuses (S : Slots ι) (attrs : AttributeMap) (name : String) (i : ι) : Rule AttributeError
  | missing (hname : attrs.get? name = none) : S.Refuses attrs name i (.missing name)
  | invalidValue {text : String} (hname : attrs.get? name = some text)
      (htable : ∀ e ∈ (S.table i).entries, e.1 ≠ text) :
      S.Refuses attrs name i (.invalidValue name text)

theorem Offers.unique {v w : S.Value i} (hv : S.Offers attrs name i v)
    (hw : S.Offers attrs name i w) : v = w := by
  obtain ⟨text, hname, hreads⟩ := hv
  obtain ⟨text', hname', hreads'⟩ := hw
  cases hname.symm.trans hname'
  exact hreads.unique hreads'

theorem Offers.not_refuses {v : S.Value i} {e : AttributeError} (hv : S.Offers attrs name i v) :
    ¬ S.Refuses attrs name i e := by
  obtain ⟨text, hname, hreads⟩ := hv
  intro he
  cases he with
  | missing hnone => cases hname.symm.trans hnone
  | invalidValue hname' htable =>
    cases hname.symm.trans hname'
    exact htable _ hreads.mem_entries rfl

theorem Refuses.unique {e e' : AttributeError} (he : S.Refuses attrs name i e)
    (he' : S.Refuses attrs name i e') : e' = e := by
  cases he with
  | missing hnone =>
    cases he' with
    | missing => rfl
    | invalidValue hname => cases hname.symm.trans hnone
  | invalidValue hname =>
    cases he' with
    | missing hnone => cases hname.symm.trans hnone
    | invalidValue hname' =>
      cases hname.symm.trans hname'
      rfl

theorem exists_offers_or_refuses (S : Slots ι) (attrs : AttributeMap) (name : String) (i : ι) :
    (∃ v, S.Offers attrs name i v) ∨ ∃ e, S.Refuses attrs name i e := by
  cases hname : attrs.get? name with
  | none => exact .inr ⟨_, .missing hname⟩
  | some text =>
    cases hvalue : (S.table i).value? text with
    | none => exact .inr ⟨_, .invalidValue hname (SpellingTable.value?_eq_none_iff.1 hvalue)⟩
    | some v => exact .inl ⟨v, text, hname, SpellingTable.value?_eq_some_iff.1 hvalue⟩

theorem kept_refuses_iff : (S.Refuses attrs name i).Kept ↔ ∃ v, S.Offers attrs name i v := by
  constructor
  · intro hkept
    apply (S.exists_offers_or_refuses attrs name i).resolve_right
    exact fun ⟨e, he⟩ => hkept e he
  · rintro ⟨v, hv⟩ e
    exact hv.not_refuses

/-! ## One visit -/

/-- A visit by its verdict and the values of all slots before and after it. -/
structure Loads (S : Slots ι) (attrs : AttributeMap) (name : String) (i : ι)
    (before : S.Values) (accepted : Bool) (after : S.Values) : Prop where
  accepted_iff : accepted = true ↔ ∃ v, S.Offers attrs name i v
  loaded : ∀ v, S.Offers attrs name i v → after i = v
  others : ∀ j, j ≠ i → after j = before j
  refused : accepted = false → after = before

variable [DecidableEq ι] {r : AttributeReader} {vs : S.Values}

theorem visit_of_offers {v : S.Value i} (hv : S.Offers r.attrs name i v) :
    S.visit r vs name i = ⟨true, vs.set i v, r⟩ := by
  obtain ⟨text, hname, hreads⟩ := hv
  exact congrArg (Visit.map (vs.set i)) (r.visit_of_reads hname hreads (vs i))

theorem visit_of_refuses {e : AttributeError} (he : S.Refuses r.attrs name i e) :
    S.visit r vs name i = ⟨false, vs, r.fail e⟩ := by
  change Visit.map (vs.set i) (r.visit name (S.table i) (vs i)) = _
  cases he with
  | missing hname => simp [AttributeReader.visit, Visit.map, hname]
  | invalidValue hname htable =>
    simp [AttributeReader.visit, Visit.map, hname, SpellingTable.value?_eq_none_iff.2 htable]

/-- A visit is judged by the attributes, whatever failed before. -/
theorem exists_loads_visit (S : Slots ι) (r : AttributeReader) (vs : S.Values) (name : String)
    (i : ι) :
    ∃ accepted after r', S.visit r vs name i = ⟨accepted, after, r'⟩ ∧ r'.attrs = r.attrs ∧
      S.Loads r.attrs name i vs accepted after := by
  rcases S.exists_offers_or_refuses r.attrs name i with ⟨v, hv⟩ | ⟨e, he⟩
  · refine ⟨_, _, _, visit_of_offers hv, rfl, iff_of_true rfl ⟨v, hv⟩, ?_, ?_, nofun⟩
    · intro w hw
      rw [Values.set_self]
      exact hv.unique hw
    · intro j hj
      exact Values.set_of_ne vs v hj
  · have hnone : ¬ ∃ v, S.Offers r.attrs name i v := fun ⟨_, hv⟩ => hv.not_refuses he
    refine ⟨_, _, _, visit_of_refuses he, r.fail_attrs e, iff_of_false nofun hnone, ?_, ?_, ?_⟩
    · exact fun v hv => absurd ⟨v, hv⟩ hnone
    · exact fun _ _ => rfl
    · exact fun _ => rfl

/-! ## Any sequence of visits -/

/-- The values before each visit of a sequence and, last, those at its end. -/
def Tour.states {V : Type} (tour : Tour V S) (vs : S.Values) : List S.Values :=
  vs :: tour.visits.map Prod.snd

theorem length_visits_tour {V : Type} [AttributeVisitor V] (S : Slots ι) (visitor : V)
    (vs : S.Values) (visits : List (String × ι)) :
    (S.tour visitor vs visits).visits.length = visits.length := by
  induction visits generalizing visitor vs with
  | nil => rfl
  | cons p rest ih => exact congrArg Nat.succ (ih _ _)

variable {visits : List (String × ι)} {k : Nat}

theorem exists_loads_tour (r : AttributeReader) (vs : S.Values) (hk : visits[k]? = some (name, i)) :
    ∃ before accepted after, ((S.tour r vs visits).states vs)[k]? = some before ∧
      (S.tour r vs visits).visits[k]? = some (accepted, after) ∧
      S.Loads r.attrs name i before accepted after := by
  induction visits generalizing r vs k with
  | nil => cases hk
  | cons p rest ih =>
    obtain ⟨first, j⟩ := p
    obtain ⟨accepted, after, r', hvisit, hattrs, hloads⟩ := S.exists_loads_visit r vs first j
    rw [tour_cons_of_visit_eq hvisit]
    cases k with
    | zero =>
      cases hk
      exact ⟨vs, accepted, after, rfl, rfl, hloads⟩
    | succ k =>
      rw [← hattrs]
      exact ih r' after hk

/-- A visit is accepted just if nothing is wrong with the attributes for it. -/
theorem exists_accepted_iff_kept (vs : S.Values) (hk : visits[k]? = some (name, i)) :
    (∃ after, (S.tour (AttributeReader.ofMap attrs) vs visits).visits[k]? = some (true, after)) ↔
      (S.Refuses attrs name i).Kept := by
  obtain ⟨_, accepted, after, -, hvisit, hloads⟩ := exists_loads_tour (.ofMap attrs) vs hk
  rw [hvisit, kept_refuses_iff]
  exact Iff.trans (by simp) hloads.accepted_iff

theorem exists_refused_of_refuses (vs : S.Values) (hk : visits[k]? = some (name, i))
    {e : AttributeError} (he : S.Refuses attrs name i e) :
    ∃ after, (S.tour (AttributeReader.ofMap attrs) vs visits).visits[k]? = some (false, after) := by
  obtain ⟨_, accepted, after, -, hvisit, hloads⟩ := exists_loads_tour (.ofMap attrs) vs hk
  cases accepted with
  | false => exact ⟨after, hvisit⟩
  | true =>
    obtain ⟨v, hv⟩ := hloads.accepted_iff.1 rfl
    exact absurd he hv.not_refuses

/-! ## The failure that is kept -/

/-- A reader that has failed is not changed any more. -/
theorem visitor_tour_of_error_eq_some {e : AttributeError} (h : r.error = some e) (vs : S.Values)
    (visits : List (String × ι)) : (S.tour r vs visits).visitor = r := by
  induction visits generalizing vs with
  | nil => rfl
  | cons p rest ih =>
    obtain ⟨name, i⟩ := p
    rcases S.exists_offers_or_refuses r.attrs name i with ⟨v, hv⟩ | ⟨e', he'⟩
    · rw [tour_cons_of_visit_eq (visit_of_offers hv)]
      exact ih _
    · have hvisit : S.visit r vs name i = ⟨false, vs, r⟩ := by
        rw [visit_of_refuses he', r.fail_of_error_eq_some h]
      rw [tour_cons_of_visit_eq hvisit]
      exact ih _

theorem failsBy_finish_tour (S : Slots ι) (attrs : AttributeMap) (vs : S.Values)
    (visits : List (String × ι)) :
    FailsBy (S.tour (AttributeReader.ofMap attrs) vs visits).visitor.finish
      (visits.map fun p => S.Refuses attrs p.1 p.2) := by
  induction visits generalizing vs with
  | nil => exact .ok ()
  | cons p rest ih =>
    obtain ⟨name, i⟩ := p
    rcases S.exists_offers_or_refuses attrs name i with ⟨v, hv⟩ | ⟨e, he⟩
    · rw [tour_cons_of_visit_eq (visit_of_offers (r := .ofMap attrs) hv)]
      exact (ih _).kept fun e => hv.not_refuses
    · -- The error of this visit stays to the end.
      have hfailed : ((AttributeReader.ofMap attrs).fail e).error = some e := rfl
      rw [tour_cons_of_visit_eq (visit_of_refuses (r := .ofMap attrs) he),
        visitor_tour_of_error_eq_some hfailed, AttributeReader.finish_of_error_eq_some hfailed]
      exact .error fun e' => ⟨he.unique, fun heq => heq ▸ he⟩

theorem finish_tour_eq_ok_iff (S : Slots ι) (attrs : AttributeMap) (vs : S.Values)
    (visits : List (String × ι)) :
    (S.tour (AttributeReader.ofMap attrs) vs visits).visitor.finish = .ok () ↔
      ∀ visit ∈ (S.tour (AttributeReader.ofMap attrs) vs visits).visits, visit.1 = true := by
  rw [(S.failsBy_finish_tour attrs vs visits).eq_ok_iff, List.forall_mem_map]
  constructor
  · intro hkept visit hvisit
    obtain ⟨k, hk⟩ := List.mem_iff_getElem?.1 hvisit
    have hlt : k < visits.length := by
      rw [← S.length_visits_tour (AttributeReader.ofMap attrs) vs visits]
      exact (List.getElem?_eq_some_iff.1 hk).1
    have hp : visits[k]? = some visits[k] := List.getElem?_eq_getElem hlt
    obtain ⟨after, hafter⟩ :=
      (exists_accepted_iff_kept vs hp).2 (hkept _ (List.getElem_mem hlt))
    cases hk.symm.trans hafter
    rfl
  · intro haccepted p hp
    obtain ⟨k, hk⟩ := List.mem_iff_getElem?.1 hp
    obtain ⟨_, _, _, -, hvisit, hloads⟩ := exists_loads_tour (.ofMap attrs) vs hk
    exact kept_refuses_iff.2 (hloads.accepted_iff.1 (haccepted _ (List.mem_of_getElem? hvisit)))

theorem finish_tour_eq_error_iff (S : Slots ι) (attrs : AttributeMap) (vs : S.Values)
    (visits : List (String × ι)) (e : AttributeError) :
    let tour := S.tour (AttributeReader.ofMap attrs) vs visits
    tour.visitor.finish = .error e ↔
      ∃ (k : Nat) (name : String) (i : ι), visits[k]? = some (name, i) ∧
        (∃ after, tour.visits[k]? = some (false, after)) ∧
        (∀ j < k, ∃ after, tour.visits[j]? = some (true, after)) ∧ S.Refuses attrs name i e := by
  dsimp only
  rw [S.failsBy_finish_tour attrs vs visits e, FirstBroken.iff_getElem?]
  simp only [List.getElem?_map, Option.map_eq_some_iff]
  constructor
  · rintro ⟨k, ⟨_, ⟨⟨name, i⟩, hk, rfl⟩, he⟩, hkept⟩
    refine ⟨k, name, i, hk, exists_refused_of_refuses vs hk he, fun j hj => ?_, he⟩
    have hlt : j < visits.length := Nat.lt_trans hj (List.getElem?_eq_some_iff.1 hk).1
    have hp : visits[j]? = some visits[j] := List.getElem?_eq_getElem hlt
    exact (exists_accepted_iff_kept vs hp).2 (hkept j hj _ ⟨_, hp, rfl⟩)
  · rintro ⟨k, name, i, hk, -, haccepted, he⟩
    refine ⟨k, ⟨_, ⟨_, hk, rfl⟩, he⟩, ?_⟩
    rintro j hj _ ⟨p, hp, rfl⟩
    exact (exists_accepted_iff_kept vs hp).1 (haccepted j hj)

/-- Each visit is carried out and judged by the attributes alone. The reader succeeds just if all
visits are accepted, and otherwise reports what is wrong with the attributes for the first visit
that is not. -/
theorem tour_ofMap (S : Slots ι) (attrs : AttributeMap) (vs : S.Values)
    (visits : List (String × ι)) :
    let tour := S.tour (AttributeReader.ofMap attrs) vs visits
    tour.visits.length = visits.length ∧
    (∀ (k : Nat) name i, visits[k]? = some (name, i) →
      ∃ before accepted after, (tour.states vs)[k]? = some before ∧
        tour.visits[k]? = some (accepted, after) ∧ S.Loads attrs name i before accepted after) ∧
    (tour.visitor.finish = .ok () ↔ ∀ visit ∈ tour.visits, visit.1 = true) ∧
    ∀ e, tour.visitor.finish = .error e ↔
      ∃ (k : Nat) (name : String) (i : ι), visits[k]? = some (name, i) ∧
        (∃ after, tour.visits[k]? = some (false, after)) ∧
        (∀ j < k, ∃ after, tour.visits[j]? = some (true, after)) ∧ S.Refuses attrs name i e :=
  ⟨S.length_visits_tour _ vs visits, fun _ _ _ => exists_loads_tour (.ofMap attrs) vs,
    S.finish_tour_eq_ok_iff attrs vs visits, S.finish_tour_eq_error_iff attrs vs visits⟩

/-- One slot for a format. -/
def formatSlot : Slots Unit where
  Value _ := PixelFormat
  table _ := PixelFormat.spellings
  decEq _ := inferInstance

/-- Of two visits that fail the first is reported, and a later one still loads its value. -/
theorem tour_ofMap_formatSlot :
    let tour := formatSlot.tour
      (AttributeReader.ofMap (.ofList [("format", "RGB_TO_NV21"), ("mode", "SLOW")]))
      (fun _ => .nv12) [("mode", ()), ("other", ()), ("format", ())]
    tour.visitor.finish = .error (.invalidValue "mode" "SLOW") ∧
    ∃ after, tour.visits[2]? = some (true, after) ∧ after () = .nv21 := by
  obtain ⟨-, hvisits, -, hfinish⟩ := formatSlot.tour_ofMap
    (.ofList [("format", "RGB_TO_NV21"), ("mode", "SLOW")]) (fun _ => .nv12)
    [("mode", ()), ("other", ()), ("format", ())]
  obtain ⟨_, accepted, after, -, hvisit, hload⟩ := hvisits 2 "format" () rfl
  have hoffers : formatSlot.Offers (.ofList [("format", "RGB_TO_NV21"), ("mode", "SLOW")])
      "format" () .nv21 :=
    ⟨"RGB_TO_NV21", rfl, [("RGB_TO_NV12", .nv12)], [], rfl, by decide⟩
  refine ⟨(hfinish _).2 ⟨0, "mode", (), rfl, ⟨_, rfl⟩, nofun, .invalidValue rfl (by decide)⟩,
    after, ?_, hload.loaded _ hoffers⟩
  rw [hvisit, hload.accepted_iff.2 ⟨_, hoffers⟩]

end Slots

end PixelGraph
