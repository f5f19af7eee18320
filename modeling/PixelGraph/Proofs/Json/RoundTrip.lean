-- SUMMARY: The compact text of a JSON value is read as that value.
import PixelGraph.Json.Basic
import PixelGraph.Proofs.Checks
import PixelGraph.Proofs.Json.Literals

/-!
# Round trip

Reading the compact text of a value gives the value again, for values of any size and depth.
What follows the text of a nested value is a comma or a bracket, by which no number goes on.
Each nested step reads a character, so there are always enough of them for the text.
-/

namespace PixelGraph.Json

variable {fuel n : Nat} {c : Char} {cs more rest : List Char} {v : Json} {vs : List Json}
  {ms : List (Option String × Json)}

/-! ## Beginnings -/

/-- The characters that a compact text can begin with, or more of them. -/
def startsValue (c : Char) : Bool :=
  !isBlank c && c != ']'

theorem startsValue_of_isDigit (hc : c.isDigit = true) : startsValue c = true := by
  have hspace : c ≠ ' ' := ne_of_eq_false hc rfl
  have htab : c ≠ '\t' := ne_of_eq_false hc rfl
  have hnewline : c ≠ '\n' := ne_of_eq_false hc rfl
  have hreturn : c ≠ '\r' := ne_of_eq_false hc rfl
  have hbracket : c ≠ ']' := ne_of_eq_false hc rfl
  simp [startsValue, isBlank, hspace, htab, hnewline, hreturn, hbracket]

theorem begins_render : Begins render startsValue := by
  intro v
  cases v with
  | null => exact ⟨'n', _, rfl, rfl⟩
  | bool b =>
    cases b with
    | true => exact ⟨'t', _, rfl, rfl⟩
    | false => exact ⟨'f', _, rfl, rfl⟩
  | natural n => exact (begins_digits.mono fun _ => startsValue_of_isDigit) n
  | string s => exact ⟨'"', _, rfl, rfl⟩
  | array vs => exact ⟨'[', _, rfl, rfl⟩
  | object ms => exact ⟨'{', _, rfl, rfl⟩
  | other => exact ⟨'-', _, rfl, rfl⟩

theorem isBlank_of_startsValue (hc : startsValue c = true) : isBlank c = false := by
  simp only [startsValue, Bool.and_eq_true, Bool.not_eq_true'] at hc
  exact hc.1

theorem stops_render (v : Json) (s : List Char) : Stops isBlank (render v ++ s) :=
  begins_render.stops_append (fun _ => isBlank_of_startsValue) v

theorem skipBlanks_of_stops (hcs : Stops isBlank cs) : skipBlanks cs = cs :=
  hcs.dropWhile_eq_self

/-! ## Steps -/

/-- What begins with a digit is a number. -/
theorem scan_of_isDigit (hc : c.isDigit = true) :
    scan (fuel + 1) (c :: cs) = do
      let (n, rest) ← scanNumber (c :: cs)
      return (ofNumber n, rest) := by
  have hhead : ∀ {d ds}, d.isDigit = false → c :: cs = d :: ds → False := fun hd heq =>
    ne_of_eq_false hc hd (List.cons.inj heq).1
  rw [scan]
  · exact fun _ => hhead rfl
  · exact fun _ => hhead rfl
  · exact fun _ => hhead rfl
  · exact fun _ => hhead rfl
  · exact fun _ => hhead rfl
  · exact fun _ => hhead rfl

theorem scan_natural (hrest : Stops continuesNumber rest) :
    scan (fuel + 1) (Nat.toDigits 10 n ++ rest) = some (.natural n, rest) := by
  have hnumber := scanNumber_toDigits (n := n) hrest
  obtain ⟨c, cs, hdigits, hc⟩ := begins_digits n
  rw [hdigits, List.cons_append] at hnumber ⊢
  rw [scan_of_isDigit hc, hnumber]
  rfl

/-- The number that has no value is read without one. -/
theorem scan_other (hrest : Stops continuesNumber rest) :
    scan (fuel + 1) ('-' :: '0' :: rest) = some (.other, rest) := by
  have hzero : scanUnsigned ('0' :: rest) = some (some 0, rest) := scanUnsigned_toDigits (n := 0) hrest
  rw [scan, scanNumber, hzero]
  · rfl
  all_goals nofun

theorem scan_string (s : String) (rest : List Char) :
    scan (fuel + 1) (quote s ++ rest) = some (.string s, rest) := by
  unfold quote
  rw [List.cons_append, List.append_assoc, List.singleton_append, scan, scanText_quote]
  rfl

theorem scanItems_last (hv : scan fuel cs = some (v, ']' :: rest)) :
    scanItems (fuel + 1) cs = some ([v], rest) := by
  rw [scanItems, hv]
  rfl

theorem scanItems_more (hv : scan fuel cs = some (v, ',' :: more)) (hmore : Stops isBlank more)
    (hvs : scanItems fuel more = some (vs, rest)) :
    scanItems (fuel + 1) cs = some (v :: vs, rest) := by
  rw [scanItems, hv]
  change (scanItems fuel (skipBlanks more) >>= _) = _
  rw [skipBlanks_of_stops hmore, hvs]
  rfl

theorem scan_array (hcs : Stops (fun c => isBlank c || c == ']') cs)
    (hvs : scanItems fuel cs = some (vs, rest)) :
    scan (fuel + 1) ('[' :: cs) = some (.array vs, rest) := by
  have hblank : Stops isBlank cs := hcs.mono fun c hc => by rw [hc]; rfl
  rw [scan, skipBlanks_of_stops hblank]
  split
  case h_1 => exact absurd (stops_cons.1 hcs) (by decide)
  case h_2 =>
    rw [hvs]
    rfl

theorem scanMembers_last (name : String) (hcs : Stops isBlank cs)
    (hv : scan fuel cs = some (v, '}' :: rest)) :
    scanMembers (fuel + 1) (quote name ++ ':' :: cs) = some ([(some name, v)], rest) := by
  unfold quote
  rw [List.cons_append, List.append_assoc, List.singleton_append, scanMembers, scanText_quote]
  change (scan fuel (skipBlanks cs) >>= _) = _
  rw [skipBlanks_of_stops hcs, hv]
  rfl

theorem scanMembers_more (name : String) (hcs : Stops isBlank cs)
    (hv : scan fuel cs = some (v, ',' :: more)) (hmore : Stops isBlank more)
    (hms : scanMembers fuel more = some (ms, rest)) :
    scanMembers (fuel + 1) (quote name ++ ':' :: cs) = some ((some name, v) :: ms, rest) := by
  unfold quote
  rw [List.cons_append, List.append_assoc, List.singleton_append, scanMembers, scanText_quote]
  change (scan fuel (skipBlanks cs) >>= _) = _
  rw [skipBlanks_of_stops hcs, hv]
  change (scanMembers fuel (skipBlanks more) >>= _) = _
  rw [skipBlanks_of_stops hmore, hms]
  rfl

theorem ofMembers_map_some (ms : List (String × Json)) :
    ofMembers (ms.map fun m => (some m.1, m.2)) = .object ms := by
  unfold ofMembers
  rw [mapM_map_of_forall_eq_some]
  exact fun _ => rfl

theorem scan_object (hcs : Stops (fun c => isBlank c || c == '}') cs)
    {members : List (String × Json)}
    (hms : scanMembers fuel cs = some (members.map fun m => (some m.1, m.2), rest)) :
    scan (fuel + 1) ('{' :: cs) = some (.object members, rest) := by
  have hblank : Stops isBlank cs := hcs.mono fun c hc => by rw [hc]; rfl
  rw [scan, skipBlanks_of_stops hblank]
  split
  case h_1 => exact absurd (stops_cons.1 hcs) (by decide)
  case h_2 =>
    rw [hms]
    change some (ofMembers _, rest) = _
    rw [ofMembers_map_some]

/-! ## Values -/

theorem length_render_pos (v : Json) : 0 < (render v).length := by
  obtain ⟨c, cs, hv, -⟩ := begins_render v
  rw [hv]
  exact Nat.succ_pos _

/-- An item is not the closing bracket. -/
theorem stops_renderItems (v : Json) (vs : List Json) (s : List Char) :
    Stops (fun c => isBlank c || c == ']') (renderItems (v :: vs) ++ s) := by
  have htext : renderItems (v :: vs) ++ s = render v ++ (renderMoreItems vs ++ s) :=
    List.append_assoc _ _ _
  rw [htext]
  refine begins_render.stops_append (fun c hc => ?_) v
  rw [startsValue, Bool.and_eq_true, Bool.not_eq_true', bne_iff_ne] at hc
  rw [hc.1, Bool.false_or, beq_eq_false_iff_ne]
  exact hc.2

mutual

/-- A value is read from its text, and nothing of what follows, in as many nested steps as the
text has characters. -/
theorem scan_render (v : Json) {fuel : Nat} {rest : List Char}
    (hfuel : (render v).length ≤ fuel) (hrest : Stops continuesNumber rest) :
    scan fuel (render v ++ rest) = some (v, rest) := by
  obtain ⟨fuel, rfl⟩ := Nat.exists_eq_add_one.2 (Nat.lt_of_lt_of_le (length_render_pos v) hfuel)
  match v with
  | .null => rfl
  | .bool true => rfl
  | .bool false => rfl
  | .natural n => exact scan_natural hrest
  | .string s => exact scan_string s rest
  | .array [] => rfl
  | .array (v :: vs) =>
    apply scan_array (stops_renderItems v vs rest)
    exact scanItems_renderItems (v :: vs) (List.cons_ne_nil v vs) (Nat.le_of_succ_le_succ hfuel)
  | .object [] => rfl
  | .object (m :: ms) =>
    apply scan_object (stops_cons.2 rfl)
    exact scanMembers_renderMembers (m :: ms) (List.cons_ne_nil m ms)
      (Nat.le_of_succ_le_succ hfuel)
  | .other => exact scan_other hrest

theorem scanItems_renderItems (vs : List Json) {fuel : Nat} {rest : List Char} (hvs : vs ≠ [])
    (hfuel : (renderItems vs).length ≤ fuel) :
    scanItems fuel (renderItems vs ++ rest) = some (vs, rest) := by
  match vs with
  | [] => exact absurd rfl hvs
  | [v] =>
    have htext : renderItems [v] ++ rest = render v ++ ']' :: rest := List.append_assoc _ _ _
    have hlength : (renderItems [v]).length = (render v).length + 1 := List.length_append
    obtain ⟨fuel, rfl⟩ : ∃ k, fuel = k + 1 := Nat.exists_eq_add_one.2 (by omega)
    rw [htext]
    exact scanItems_last (scan_render v (by omega) (stops_cons.2 rfl))
  | v :: w :: ws =>
    have htext : renderItems (v :: w :: ws) ++ rest =
        render v ++ ',' :: (renderItems (w :: ws) ++ rest) := List.append_assoc _ _ _
    have hlength : (renderItems (v :: w :: ws)).length =
        (render v).length + ((renderItems (w :: ws)).length + 1) := List.length_append
    obtain ⟨fuel, rfl⟩ : ∃ k, fuel = k + 1 := Nat.exists_eq_add_one.2 (by omega)
    have hmore : scanItems fuel (renderItems (w :: ws) ++ rest) = some (w :: ws, rest) :=
      scanItems_renderItems (w :: ws) (List.cons_ne_nil w ws) (by omega)
    rw [htext]
    refine scanItems_more (scan_render v (by omega) (stops_cons.2 rfl)) ?_ hmore
    exact (stops_renderItems w ws rest).mono fun c hc => by rw [hc]; rfl

theorem scanMembers_renderMembers (ms : List (String × Json)) {fuel : Nat} {rest : List Char}
    (hms : ms ≠ []) (hfuel : (renderMembers ms).length ≤ fuel) :
    scanMembers fuel (renderMembers ms ++ rest) =
      some (ms.map fun m => (some m.1, m.2), rest) := by
  match ms with
  | [] => exact absurd rfl hms
  | [(name, v)] =>
    have htext : renderMembers [(name, v)] ++ rest =
        quote name ++ ':' :: (render v ++ '}' :: rest) := by
      simp [renderMembers, renderMoreMembers]
    have hlength : (renderMembers [(name, v)]).length =
        (quote name).length + ((render v).length + 1 + 1) := by
      simp [renderMembers, renderMoreMembers]
    obtain ⟨fuel, rfl⟩ : ∃ k, fuel = k + 1 := Nat.exists_eq_add_one.2 (by omega)
    rw [htext]
    exact scanMembers_last name (stops_render v _) (scan_render v (by omega) (stops_cons.2 rfl))
  | (name, v) :: m :: ms =>
    have htext : renderMembers ((name, v) :: m :: ms) ++ rest =
        quote name ++ ':' :: (render v ++ ',' :: (renderMembers (m :: ms) ++ rest)) := by
      simp [renderMembers, renderMoreMembers]
    have hlength : (renderMembers ((name, v) :: m :: ms)).length =
        (quote name).length + ((render v).length + ((renderMembers (m :: ms)).length + 1) + 1) := by
      simp [renderMembers, renderMoreMembers]
    obtain ⟨fuel, rfl⟩ : ∃ k, fuel = k + 1 := Nat.exists_eq_add_one.2 (by omega)
    have hmore : scanMembers fuel (renderMembers (m :: ms) ++ rest) =
        some ((m :: ms).map fun m => (some m.1, m.2), rest) :=
      scanMembers_renderMembers (m :: ms) (List.cons_ne_nil m ms) (by omega)
    rw [htext]
    exact scanMembers_more name (stops_render v _) (scan_render v (by omega) (stops_cons.2 rfl))
      (stops_cons.2 rfl) hmore

end

/-- Any value can be read back from its compact text. -/
theorem parse?_render (v : Json) : parse? (String.ofList (render v)) = some v := by
  have hblank : skipBlanks (render v) = render v := by
    have hstops := stops_render v []
    rw [List.append_nil] at hstops
    exact skipBlanks_of_stops hstops
  have hscan : scan (2 * (render v).length + 1) (render v) = some (v, []) := by
    have hfuel : (render v).length ≤ 2 * (render v).length + 1 := by omega
    have hscan := scan_render v hfuel stops_nil
    rw [List.append_nil] at hscan
    exact hscan
  unfold parse?
  rw [String.toList_ofList, hblank]
  change (scan (2 * (render v).length + 1) (render v) >>= _) = _
  rw [hscan]
  rfl

end PixelGraph.Json
