-- SUMMARY: Ways of writing values from which one can tell where the text of a value ends.

/-!
# Delimited text

A text can stand before another without getting lost in it if one can tell where it ends. For
most texts this depends on how the other one begins: after the digits of a number anything may
come but a digit. Delimited texts can be put one after the other, and lists of them can be
written with separators between their items.
-/

namespace PixelGraph

variable {α β γ : Type} {v : α → List Char} {w : β → List Char} {write : α → List Char}
  {p q : Char → Bool} {s t : List Char}

/-! ## Beginnings -/

/-- The text does not begin with one of certain characters. -/
def Stops (p : Char → Bool) (s : List Char) : Prop :=
  ∀ c rest, s = c :: rest → p c = false

theorem stops_nil : Stops p [] := nofun

theorem stops_cons {c : Char} : Stops p (c :: s) ↔ p c = false := by
  constructor
  · intro h
    exact h c s rfl
  · rintro h _ _ ⟨⟩
    exact h

theorem Stops.mono (hs : Stops q s) (hpq : ∀ c, p c = true → q c = true) : Stops p s := by
  intro c rest hc
  refine Bool.eq_false_iff.2 fun hp => ?_
  exact Bool.eq_false_iff.1 (hs c rest hc) (hpq c hp)

/-- No character is excluded. -/
def anything : Char → Bool :=
  fun _ => false

theorem stops_anything : Stops anything s := fun _ _ _ => rfl

theorem ne_of_eq_false {c d : Char} (hc : p c = true) (hd : p d = false) : c ≠ d := by
  rintro rfl
  exact Bool.false_ne_true (hd.symm.trans hc)

theorem bne_of_eq_false {d : Char} (hd : p d = false) : ∀ c, p c = true → (c != d) = true := by
  intro c hc
  rw [bne_iff_ne]
  exact ne_of_eq_false hc hd

/-- The text of each value begins, and with one of certain characters. -/
def Begins (write : α → List Char) (p : Char → Bool) : Prop :=
  ∀ a, ∃ c rest, write a = c :: rest ∧ p c = true

namespace Begins

theorem mono (hw : Begins write p) (hpq : ∀ c, p c = true → q c = true) : Begins write q := by
  intro a
  obtain ⟨c, rest, ha, hc⟩ := hw a
  exact ⟨c, rest, ha, hpq c hc⟩

theorem append (hw : Begins write p) (v : α → List Char) : Begins (fun a => write a ++ v a) p := by
  intro a
  obtain ⟨c, rest, ha, hc⟩ := hw a
  exact ⟨c, rest ++ v a, congrArg (· ++ v a) ha, hc⟩

theorem ne_append (hw : Begins write p) (hs : Stops p s) (a : α) : s ≠ write a ++ t := by
  obtain ⟨c, rest, ha, hc⟩ := hw a
  rw [ha]
  intro heq
  exact Bool.eq_false_iff.1 (hs c (rest ++ t) heq) hc

theorem stops_append (hw : Begins write q) (hqp : ∀ c, q c = true → p c = false) (a : α) :
    Stops p (write a ++ s) := by
  obtain ⟨c, rest, ha, hc⟩ := hw a
  rw [ha]
  exact stops_cons.2 (hqp c hc)

/-- One can tell whether a further value follows. -/
theorem stops_flatMap (hw : Begins write q) (hqp : ∀ c, q c = true → p c = false)
    (hs : Stops (fun c => p c || q c) s) (as : List α) : Stops p (as.flatMap write ++ s) := by
  cases as with
  | nil => exact hs.mono fun c hc => by rw [hc]; rfl
  | cons a as =>
    rw [List.flatMap_cons, List.append_assoc]
    exact hw.stops_append hqp a

end Begins

theorem Stops.takeWhile_eq_nil (hs : Stops p s) : s.takeWhile p = [] := by
  cases s with
  | nil => rfl
  | cons c rest => rw [List.takeWhile_cons, stops_cons.1 hs]; rfl

theorem Stops.dropWhile_eq_self (hs : Stops p s) : s.dropWhile p = s := by
  cases s with
  | nil => rfl
  | cons c rest => rw [List.dropWhile_cons, stops_cons.1 hs]; rfl

theorem takeWhile_append_of_stops {a : List Char} (ha : ∀ c ∈ a, p c = true) (hs : Stops p s) :
    (a ++ s).takeWhile p = a := by
  rw [List.takeWhile_append_of_pos ha, hs.takeWhile_eq_nil, List.append_nil]

theorem dropWhile_append_of_stops {a : List Char} (ha : ∀ c ∈ a, p c = true) (hs : Stops p s) :
    (a ++ s).dropWhile p = s := by
  rw [List.dropWhile_append_of_pos ha, hs.dropWhile_eq_self]

/-! ## Delimited ways of writing -/

/-- What is written can be told from what follows it, if that does not begin with one of
certain characters, by which the text of a value could go on. -/
def Delimited (write : α → List Char) (p : Char → Bool) : Prop :=
  ∀ ⦃a b s t⦄, Stops p s → Stops p t → write a ++ s = write b ++ t → a = b ∧ s = t

/-- A text of certain characters ends where they do. -/
theorem delimited_of_forall_mem (hinj : ∀ a b, write a = write b → a = b)
    (hmem : ∀ a, ∀ c ∈ write a, p c = true) : Delimited write p := by
  intro a b s t hs ht heq
  have hab : write a = write b := by
    have htake := congrArg (List.takeWhile p) heq
    rw [takeWhile_append_of_stops (hmem a) hs, takeWhile_append_of_stops (hmem b) ht] at htake
    exact htake
  rw [hab] at heq
  exact ⟨hinj a b hab, List.append_cancel_left heq⟩

namespace Delimited

theorem injective (hw : Delimited write p) {a b : α} (hab : write a = write b) : a = b :=
  (hw stops_nil stops_nil (congrArg (· ++ []) hab)).1

theorem mono (hw : Delimited write p) (hpq : ∀ c, p c = true → q c = true) : Delimited write q :=
  fun _ _ _ _ hs ht heq => hw (hs.mono hpq) (ht.mono hpq) heq

/-- The same text in front of every value. -/
theorem after (start : List Char) (hw : Delimited write p) :
    Delimited (fun a => start ++ write a) p := by
  intro a b s t hs ht heq
  rw [List.append_assoc, List.append_assoc] at heq
  exact hw hs ht (List.append_cancel_left heq)

/-- With a character at the end by which the text cannot go on, anything may follow. -/
theorem before {c : Char} (rest : List Char) (hw : Delimited write p) (hc : p c = false) :
    Delimited (fun a => write a ++ c :: rest) anything := by
  intro a b s t _ _ heq
  rw [List.append_assoc, List.append_assoc] at heq
  obtain ⟨hab, hrest⟩ := hw (stops_cons.2 hc) (stops_cons.2 hc) heq
  have hrest' : (c :: rest) ++ s = (c :: rest) ++ t := hrest
  exact ⟨hab, List.append_cancel_left hrest'⟩

/-- Two parts of a value, one after the other. -/
theorem append (hv : Delimited v p) (hw : Delimited w q) (k : γ → α) (l : γ → β)
    (hstops : ∀ b s, Stops q s → Stops p (w b ++ s))
    (hparts : ∀ x y, k x = k y → l x = l y → x = y) :
    Delimited (fun x => v (k x) ++ w (l x)) q := by
  intro x y s t hs ht heq
  rw [List.append_assoc, List.append_assoc] at heq
  obtain ⟨hk, hrest⟩ := hv (hstops _ s hs) (hstops _ t ht) heq
  obtain ⟨hl, hst⟩ := hw hs ht hrest
  exact ⟨hparts x y hk hl, hst⟩

/-! ## Lists -/

/-- Values one after the other, each of which begins where no text goes on. -/
theorem flatMap (hw : Delimited write p) (hstart : Begins write q)
    (hqp : ∀ c, q c = true → p c = false) :
    Delimited (fun as : List α => as.flatMap write) (fun c => p c || q c) := by
  have hend : ∀ {a as s t}, Stops (fun c => p c || q c) s → s ≠ (a :: as).flatMap write ++ t := by
    intro a as s t hs
    rw [List.flatMap_cons, List.append_assoc]
    exact hstart.ne_append (hs.mono fun c hc => Bool.or_eq_true_iff.2 (.inr hc)) a
  intro as bs s t hs ht heq
  induction as generalizing bs with
  | nil =>
    cases bs with
    | nil => exact ⟨rfl, heq⟩
    | cons b bs => exact absurd heq (hend hs)
  | cons a as ih =>
    cases bs with
    | nil => exact absurd heq.symm (hend ht)
    | cons b bs =>
      simp only [List.flatMap_cons, List.append_assoc] at heq
      obtain ⟨rfl, hrest⟩ := hw (hstart.stops_flatMap hqp hs as) (hstart.stops_flatMap hqp ht bs) heq
      obtain ⟨rfl, hst⟩ := ih hrest
      exact ⟨rfl, hst⟩

end Delimited

/-- Items with a separator between them are the first item and the others with the separator
in front of each. -/
theorem intercalate_map_cons (sep : List Char) (write : α → List Char) (a : α) (as : List α) :
    sep.intercalate ((a :: as).map write) = write a ++ as.flatMap fun b => sep ++ write b := by
  induction as generalizing a with
  | nil => simp
  | cons b bs ih => simpa using ih b

/-- Items between commas. By the characters in `q` a list could go on, be it with a further
item or with its first. -/
theorem Delimited.intercalate (hw : Delimited write p) (hcomma : p ',' = false)
    (hfirst : Begins write q) (hq : ∀ c, (p c || c == ',') = true → q c = true) :
    Delimited (fun as : List α => [',', ' '].intercalate (as.map write)) q := by
  have hstart : Begins (fun b => [',', ' '] ++ write b) (· == ',') := fun _ => ⟨',', _, rfl, rfl⟩
  have hafter : ∀ c, (c == ',') = true → p c = false := fun c hc => (beq_iff_eq.1 hc).symm ▸ hcomma
  have hmore := (hw.after [',', ' ']).flatMap hstart hafter
  have hend : ∀ {a} {as : List α} {s t}, Stops q s →
      s ≠ [',', ' '].intercalate ((a :: as).map write) ++ t := by
    intro a as s t hs
    rw [intercalate_map_cons, List.append_assoc]
    exact hfirst.ne_append hs a
  intro as bs s t hs ht heq
  match as, bs with
  | [], [] => exact ⟨rfl, heq⟩
  | [], b :: bs => exact absurd heq (hend hs)
  | a :: as, [] => exact absurd heq.symm (hend ht)
  | a :: as, b :: bs =>
    have hs' := hs.mono hq
    have ht' := ht.mono hq
    simp only [intercalate_map_cons, List.append_assoc] at heq
    obtain ⟨rfl, hrest⟩ :=
      hw (hstart.stops_flatMap hafter hs' as) (hstart.stops_flatMap hafter ht' bs) heq
    obtain ⟨rfl, hst⟩ := hmore hs' ht' hrest
    exact ⟨rfl, hst⟩

end PixelGraph
