-- SUMMARY: Values written to attributes by a sequence of visits are read back by the same sequence.
import PixelGraph.Proofs.Attribute.Map
import PixelGraph.Proofs.Attribute.Reading

/-!
# Reading back what was written

A writer that is led through names and slots collects the spellings of the values and changes
none of them. If no name is used for two slots and every spelling is read as the value it is of,
then a reader that is led through the same sequence gives every visited slot its value again,
whatever the slots held before. A conversion is the case of one slot, for its format.
-/

namespace PixelGraph

namespace Slots

variable {ι : Type} {S : Slots ι} {vs : S.Values} {visits : List (String × ι)}

/-! ## Entries -/

/-- The entry that a visit makes in the attributes that are written. -/
def entry (S : Slots ι) (vs : S.Values) (p : String × ι) : String × String :=
  (p.1, (S.table p.2).spelling (vs p.2))

/-- Where every name stands for one slot, the last entry of a name is as good as any. -/
theorem offers_ofList_entries {p : String × ι}
    (hnames : ∀ p ∈ visits, ∀ q ∈ visits, p.1 = q.1 → p.2 = q.2)
    (hvalue : (S.table p.2).value? ((S.table p.2).spelling (vs p.2)) = some (vs p.2))
    (hp : p ∈ visits) : S.Offers (.ofList (visits.map (S.entry vs))) p.1 p.2 (vs p.2) := by
  refine ⟨(S.table p.2).spelling (vs p.2), ?_, SpellingTable.value?_eq_some_iff.1 hvalue⟩
  apply AttributeMap.get?_ofList_of_mem
  · exact List.mem_map.2 ⟨p, hp, rfl⟩
  · intro value' hvalue'
    obtain ⟨q, hq, hentry⟩ := List.mem_map.1 hvalue'
    obtain ⟨hname, rfl⟩ := Prod.mk.inj hentry
    rw [hnames p hp q hq hname.symm]

/-! ## The end of a sequence -/

/-- The values at the end of a sequence of visits. -/
def Tour.final {V : Type} (tour : Tour V S) (vs : S.Values) : S.Values :=
  (tour.states vs).getLast (List.cons_ne_nil _ _)

theorem Tour.final_cons {V : Type} (visit : Bool × S.Values) (rest : List (Bool × S.Values))
    (visitor : V) (vs : S.Values) :
    (⟨visit :: rest, visitor⟩ : Tour V S).final vs = (⟨rest, visitor⟩ : Tour V S).final visit.2 :=
  List.getLast_cons _

/-! ## Writing -/

variable [DecidableEq ι]

theorem visit_writer (w : AttributeWriter) (vs : S.Values) (p : String × ι) :
    S.visit w vs p.1 p.2 = ⟨true, vs, ⟨w.attrs.insert (S.entry vs p).1 (S.entry vs p).2⟩⟩ := by
  change Visit.map (vs.set p.2) (w.visit p.1 (S.table p.2) (vs p.2)) = _
  simp [AttributeWriter.visit, Visit.map, entry]

theorem tour_writer (w : AttributeWriter) (vs : S.Values) (visits : List (String × ι)) :
    S.tour w vs visits =
      ⟨List.replicate visits.length (true, vs),
        ⟨(visits.map (S.entry vs)).foldl (fun m e => m.insert e.1 e.2) w.attrs⟩⟩ := by
  induction visits generalizing w with
  | nil => rfl
  | cons p rest ih =>
    rw [tour_cons_of_visit_eq (visit_writer w vs p), ih]
    rfl

theorem tour_empty (S : Slots ι) (vs : S.Values) (visits : List (String × ι)) :
    S.tour AttributeWriter.empty vs visits =
      ⟨List.replicate visits.length (true, vs), ⟨.ofList (visits.map (S.entry vs))⟩⟩ :=
  tour_writer .empty vs visits

/-! ## Reading -/

/-- Attributes that offer every visited slot a value are loaded completely. -/
theorem tour_of_offers {attrs : AttributeMap} (vs vs' : S.Values)
    (hoffers : ∀ p ∈ visits, S.Offers attrs p.1 p.2 (vs p.2)) :
    let loaded := S.tour (AttributeReader.ofMap attrs) vs' visits
    loaded.visitor = .ofMap attrs ∧ (∀ visit ∈ loaded.visits, visit.1 = true) ∧
    ∀ i, loaded.final vs' i = if i ∈ visits.map Prod.snd then vs i else vs' i := by
  induction visits generalizing vs' with
  | nil => exact ⟨rfl, nofun, fun i => rfl⟩
  | cons p rest ih =>
    obtain ⟨hfirst, hrest⟩ := List.forall_mem_cons.1 hoffers
    obtain ⟨hvisitor, hvisits, hfinal⟩ := ih (vs'.set p.2 (vs p.2)) hrest
    rw [tour_cons_of_visit_eq (visit_of_offers (r := .ofMap attrs) hfirst)]
    refine ⟨hvisitor, List.forall_mem_cons.2 ⟨rfl, hvisits⟩, fun j => ?_⟩
    rw [Tour.final_cons, hfinal j]
    by_cases hj : j = p.2
    case pos =>
      subst hj
      simp
    case neg => simp only [List.map_cons, List.mem_cons, hj, false_or, Values.set_of_ne _ _ hj]

end Slots

/-! ## Conversions -/

namespace RgbConversion

theorem visitAttributes_empty (c : RgbConversion) :
    c.visitAttributes AttributeWriter.empty =
      ⟨true, c, ⟨.ofList [(formatName, c.format.text)]⟩⟩ := rfl

theorem visitAttributes_ofMap_format (c base : RgbConversion) :
    base.visitAttributes (AttributeReader.ofMap (.ofList [(formatName, c.format.text)])) =
      ⟨true, c, .ofMap (.ofList [(formatName, c.format.text)])⟩ := by
  have hname : (AttributeMap.ofList [(formatName, c.format.text)]).get? formatName =
      some c.format.text := rfl
  have hreads : PixelFormat.spellings.Reads c.format.text c.format :=
    SpellingTable.value?_eq_some_iff.1 c.format.value?_text
  exact congrArg (Visit.map mk) (AttributeReader.visit_of_reads hname hreads base.format)

end RgbConversion

/-! ## Round trips -/

/-- What a sequence of visits writes, it reads back. The writer accepts every visit, changes no
slot and ends with the names that were visited. The reader accepts every visit and gives each
visited slot its value. In particular a conversion has its format restored from the one attribute
that is written. -/
theorem reads_back_written :
    (∀ {ι : Type} [DecidableEq ι] (S : Slots ι) (visits : List (String × ι)) (vs vs' : S.Values),
      (∀ p ∈ visits, ∀ q ∈ visits, p.1 = q.1 → p.2 = q.2) →
      (∀ p ∈ visits, (S.table p.2).value? ((S.table p.2).spelling (vs p.2)) = some (vs p.2)) →
      let written := S.tour AttributeWriter.empty vs visits
      let loaded := S.tour (AttributeReader.ofMap written.visitor.attrs) vs' visits
      (written.visits = List.replicate visits.length (true, vs) ∧
        ∀ name, name ∈ written.visitor.attrs.toList.map Prod.fst ↔ name ∈ visits.map Prod.fst) ∧
      (loaded.visits.length = visits.length ∧ ∀ visit ∈ loaded.visits, visit.1 = true) ∧
      loaded.visitor.finish = .ok () ∧
      ∀ p ∈ visits, loaded.final vs' p.2 = vs p.2) ∧
    ∀ c base : RgbConversion,
      let written := c.visitAttributes AttributeWriter.empty
      let loaded := base.visitAttributes (AttributeReader.ofMap written.visitor.attrs)
      (written.accepted = true ∧ written.value = c) ∧
      written.visitor.attrs.toList = [(RgbConversion.formatName, c.format.text)] ∧
      loaded.accepted = true ∧ loaded.value = c ∧ loaded.visitor.finish = .ok () := by
  constructor
  · intro ι _ S visits vs vs' hnames hvalues
    have hoffers : ∀ p ∈ visits,
        S.Offers (.ofList (visits.map (S.entry vs))) p.1 p.2 (vs p.2) :=
      fun p hp => Slots.offers_ofList_entries hnames (hvalues p hp) hp
    obtain ⟨hvisitor, hvisits, hfinal⟩ := Slots.tour_of_offers vs vs' hoffers
    rw [Slots.tour_empty]
    refine ⟨⟨rfl, fun name => ?_⟩, ⟨S.length_visits_tour _ vs' visits, hvisits⟩, ?_, ?_⟩
    · rw [AttributeMap.mem_names_ofList_iff, List.map_map]
      rfl
    · exact congrArg AttributeReader.finish hvisitor
    · intro p hp
      exact (hfinal p.2).trans (if_pos (List.mem_map.2 ⟨p, hp, rfl⟩))
  · intro c base
    rw [c.visitAttributes_empty]
    dsimp only
    rw [c.visitAttributes_ofMap_format base]
    exact ⟨⟨rfl, rfl⟩, rfl, rfl, rfl, rfl⟩

/-- Two slots for formats, one of them with short names. -/
def formatSlots : Slots Bool where
  Value _ := PixelFormat
  table short := bif short then ⟨[("12", .nv12), ("21", .nv21)]⟩ else PixelFormat.spellings
  decEq _ := inferInstance

/-- A sequence that comes to one slot under two names and to another twice. -/
def formatVisits : List (String × Bool) :=
  [("far", true), ("near", false), ("format", false), ("far", true)]

/-- Formats that were exchanged are put right again. -/
theorem reads_back_written_formatVisits :
    let written := formatSlots.tour AttributeWriter.empty (bif · then .nv12 else .nv21) formatVisits
    let loaded := formatSlots.tour (AttributeReader.ofMap written.visitor.attrs)
      (bif · then .nv21 else .nv12) formatVisits
    (∀ p ∈ formatVisits, ∀ q ∈ formatVisits, p.1 = q.1 → p.2 = q.2) ∧
    loaded.visitor.finish = .ok () ∧
    loaded.final (bif · then .nv21 else .nv12) true = .nv12 ∧
    loaded.final (bif · then .nv21 else .nv12) false = .nv21 := by
  have hnames : ∀ p ∈ formatVisits, ∀ q ∈ formatVisits, p.1 = q.1 → p.2 = q.2 := by decide
  obtain ⟨-, -, hfinish, hvalues⟩ := reads_back_written.1 formatSlots formatVisits
    (bif · then .nv12 else .nv21) (bif · then .nv21 else .nv12) hnames (by decide)
  exact ⟨hnames, hfinish, hvalues ("far", true) (by decide), hvalues ("near", false) (by decide)⟩

end PixelGraph
