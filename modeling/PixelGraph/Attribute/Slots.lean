-- SUMMARY: Any number of attribute values of different enumerations, visited in any sequence.
import PixelGraph.Attribute.Visitor

/-!
# Attribute slots

A slot holds a value of one enumeration. A visitor is led through a sequence of names and
slots: a name may come more than once, and so may a slot. The sequence goes on after a
visit that the visitor does not accept.
-/

namespace PixelGraph

/-- The type and the spellings of the value in each slot. -/
structure Slots (ι : Type) where
  Value : ι → Type
  table : (i : ι) → SpellingTable (Value i)
  decEq : (i : ι) → DecidableEq (Value i)

namespace Slots

variable {ι : Type} {V : Type}

instance (S : Slots ι) (i : ι) : DecidableEq (S.Value i) := S.decEq i

/-- A value in each slot. -/
abbrev Values (S : Slots ι) : Type :=
  (i : ι) → S.Value i

/-- The values with the value of one slot replaced. -/
def Values.set [DecidableEq ι] {S : Slots ι} (vs : S.Values) (i : ι) (v : S.Value i) : S.Values :=
  fun j => if h : j = i then h ▸ v else vs j

@[simp] theorem Values.set_self [DecidableEq ι] {S : Slots ι} (vs : S.Values) (i : ι)
    (v : S.Value i) : vs.set i v i = v := by
  simp [Values.set]

@[simp] theorem Values.set_of_ne [DecidableEq ι] {S : Slots ι} (vs : S.Values) {i j : ι}
    (v : S.Value i) (h : j ≠ i) : vs.set i v j = vs j := by
  simp [Values.set, h]

/-- Replacing a value by itself changes nothing. -/
@[simp] theorem Values.set_get [DecidableEq ι] {S : Slots ι} (vs : S.Values) (i : ι) :
    vs.set i (vs i) = vs := by
  funext j
  by_cases h : j = i
  case pos => subst h; simp
  case neg => simp [h]

/-- One attribute visited: the values of all slots afterwards. -/
def visit [DecidableEq ι] [AttributeVisitor V] (S : Slots ι) (visitor : V) (vs : S.Values)
    (name : String) (i : ι) : Visit V S.Values :=
  (AttributeVisitor.visit visitor name (S.table i) (vs i)).map (vs.set i)

/-- What a sequence of visits leaves behind: the verdict and the values after each visit,
and the visitor at the end. -/
structure Tour (V : Type) (S : Slots ι) where
  visits : List (Bool × S.Values)
  visitor : V

/-- The visits of a sequence of names and slots. -/
def tour [DecidableEq ι] [AttributeVisitor V] (S : Slots ι) (visitor : V) (vs : S.Values) :
    List (String × ι) → Tour V S
  | [] => ⟨[], visitor⟩
  | (name, i) :: rest =>
    let first := S.visit visitor vs name i
    let others := S.tour first.visitor first.value rest
    ⟨(first.accepted, first.value) :: others.visits, others.visitor⟩

section

variable [DecidableEq ι] [AttributeVisitor V] {S : Slots ι} {vs : S.Values}

theorem tour_cons_of_visit_eq {visitor visitor' : V} {vs' : S.Values} {name : String} {i : ι}
    {accepted : Bool} (h : S.visit visitor vs name i = ⟨accepted, vs', visitor'⟩)
    (rest : List (String × ι)) :
    S.tour visitor vs ((name, i) :: rest) =
      ⟨(accepted, vs') :: (S.tour visitor' vs' rest).visits,
        (S.tour visitor' vs' rest).visitor⟩ := by
  rw [tour, h]

end

end Slots

end PixelGraph
