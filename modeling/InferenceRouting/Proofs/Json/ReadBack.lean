import Mathlib.Data.List.Forall2
import InferenceRouting.Json.Portable
import InferenceRouting.Proofs.Json.Strings
import InferenceRouting.Proofs.Json.Numerals

/-!
# Reading what was written

`ReadsAs cs t` says that the reader takes exactly `cs` off any text that begins with it, and finds
the document `t` there.  The rules for it follow the writer, one for each kind of value: `items` and
`members` carry it along a list separated by commas, and the reader's bound is never in the way,
since a text is longer than anything inside it.

From these, `Portable.read_back`: the text of a portable value is read as that value, in the order
of its keys.
-/

namespace InferenceRouting.Json

open InferenceRouting.Json.Tree

variable {real : Binary64 → List Char} {cs : List Char} {t : Tree}

/-- The reader takes `cs` off any text that goes on with something else, and finds `t`.  The first
character is neither a blank nor the end of a list. -/
structure ReadsAs (cs : List Char) (t : Tree) : Prop where
  opens : ∃ c r, cs = c :: r ∧ isBlank c = false ∧ c ≠ ']'
  scan : ∀ fuel rest, cs.length ≤ fuel → Stops rest → scanValue fuel (cs ++ rest) = some (t, rest)

/-- Items after the first are behind a comma. -/
theorem renderItems_cons (j j' : Json) (js : List Json) :
    renderItems real (j :: j' :: js) = renderWith real j ++ ',' :: renderItems real (j' :: js) := by
  rw [renderItems]
  simp

/-- Members after the first are behind a comma. -/
theorem renderMembers_cons (k : String) (v : Json) (m : String × Json)
    (ms : List (String × Json)) :
    renderMembers real ((k, v) :: m :: ms)
      = renderString k ++ ':' :: renderWith real v ++ ',' :: renderMembers real (m :: ms) := by
  rw [renderMembers]
  simp

/-- The first member begins with the quote of its key. -/
theorem renderMembers_opens (m : String × Json) (ms : List (String × Json)) :
    ∃ r, renderMembers real (m :: ms) = '"' :: r := by
  obtain ⟨k, v⟩ := m
  have hquote : ∀ more, ∃ r, renderString k ++ more = '"' :: r := fun more =>
    ⟨_, by rw [renderString, List.cons_append, List.cons_append]⟩
  cases ms with
  | nil =>
    rw [renderMembers]
    exact hquote _
  | cons m ms =>
    rw [renderMembers_cons, List.append_assoc]
    exact hquote _

/-- Nothing is skipped before a character that is not a blank. -/
theorem skipBlank_cons {c : Char} (h : isBlank c = false) (rest : List Char) :
    skipBlank (c :: rest) = c :: rest := by
  simp [skipBlank, h]

namespace ReadsAs

/-- A text that stands alone is read whole. -/
theorem parse_eq (h : ReadsAs cs t) : Tree.parse cs = some t := by
  have hscan : scanValue (cs.length + 1) (cs ++ []) = some (t, []) :=
    h.scan _ _ (Nat.le_succ _) stops_nil
  rw [List.append_nil] at hscan
  rw [Tree.parse, hscan]
  rfl

/-- A rule whose text starts with a given character: the reader has one step to take there. -/
theorem of_scan {c : Char} {r : List Char} (hblank : isBlank c = false) (hclose : c ≠ ']')
    (h : ∀ fuel rest, r.length ≤ fuel → Stops rest →
      scanValue (fuel + 1) (c :: (r ++ rest)) = some (t, rest)) : ReadsAs (c :: r) t where
  opens := ⟨c, r, rfl, hblank, hclose⟩
  scan := by
    intro fuel rest hfuel hstop
    obtain ⟨fuel, rfl⟩ : ∃ k, fuel = k + 1 := ⟨fuel - 1, by simp at hfuel; omega⟩
    exact h fuel rest (by simpa using hfuel) hstop

/-! ## Values without parts -/

theorem null : ReadsAs (renderWith real .null) .null :=
  of_scan (by decide) (by decide) fun _ _ _ _ => by
    simp [scanValue, skipBlank_cons (c := 'n') (by decide)]

theorem bool (b : Bool) : ReadsAs (renderWith real (.bool b)) (.bool b) := by
  cases b
  · exact of_scan (by decide) (by decide) fun _ _ _ _ => by
      simp [scanValue, skipBlank_cons (c := 'f') (by decide)]
  · exact of_scan (by decide) (by decide) fun _ _ _ _ => by
      simp [scanValue, skipBlank_cons (c := 't') (by decide)]

/-- A string in quotes. -/
theorem string (s : String) : ReadsAs (renderString s) (.text (some s)) := by
  unfold renderString
  rw [List.cons_append]
  refine of_scan (by decide) (by decide) fun fuel rest _ _ => ?_
  rw [scanValue, skipBlank_cons (by decide), List.append_assoc, List.singleton_append]
  simp [scanString_escaped]

/-- A digit is not a blank. -/
theorem isBlank_digit {c : Char} (h : c.isDigit = true) : isBlank c = false := by
  rw [isBlank, Bool.eq_false_iff]
  intro hc
  simp only [decide_eq_true_eq, Bool.or_eq_true] at hc
  rcases hc with ((rfl | rfl) | rfl) | rfl <;> exact absurd h (by decide)

/-- A digit begins a number without a sign. -/
theorem scanValue_digit {c : Char} (h : c.isDigit = true) (fuel : Nat) (r : List Char) :
    scanValue (fuel + 1) (c :: r)
      = (scanNumber false (c :: r)).map fun p => (.numeral p.1, p.2) := by
  rw [scanValue, skipBlank_cons (isBlank_digit h)]
  split
  -- the seven beginnings of other values
  iterate 7 (next heq => obtain ⟨rfl, -⟩ := List.cons.inj heq; exact absurd h (by decide))
  · rfl

/-- An integer in decimal. -/
theorem int (n : Int) : ReadsAs (renderWith real (.num (.int n))) (.numeral (numeral n)) := by
  obtain ⟨c, r, hdigits⟩ := List.exists_cons_of_ne_nil (Decimal.digits_ne_nil n.natAbs)
  have hc : c.isDigit = true := Decimal.all_isDigit_digits n.natAbs c (by simp [hdigits])
  rw [renderWith]
  by_cases hneg : n < 0
  · rw [renderInt, if_pos hneg]
    refine of_scan (by decide) (by decide) fun fuel rest _ hstop => ?_
    rw [scanValue, skipBlank_cons (by decide)]
    simp [scanNumber_digits true n.natAbs hstop, numeral, hneg]
  · have hclose : c ≠ ']' := by
      rintro rfl
      exact absurd hc (by decide)
    rw [renderInt, if_neg hneg, hdigits]
    refine of_scan (isBlank_digit hc) hclose fun fuel rest _ hstop => ?_
    rw [scanValue_digit hc, ← List.cons_append, ← hdigits, scanNumber_digits false n.natAbs hstop]
    simp [numeral, hneg]

/-! ## Lists -/

/-- The last item is followed by the closing bracket. -/
theorem scanItems_last (h : ReadsAs cs t) {fuel : Nat} (hfuel : cs.length ≤ fuel)
    (rest : List Char) : scanItems (fuel + 1) (cs ++ ']' :: rest) = some ([t], rest) := by
  have hscan := h.scan fuel (']' :: rest) hfuel (stops_cons (by decide))
  simp [scanItems, hscan, skipBlank_cons (c := ']') (by decide)]

/-- Any other is followed by a comma and the next. -/
theorem scanItems_next (h : ReadsAs cs t) {fuel : Nat} (hfuel : cs.length ≤ fuel)
    (more : List Char) :
    scanItems (fuel + 1) (cs ++ ',' :: more) = (scanItems fuel more).map fun p => (t :: p.1, p.2) := by
  have hscan := h.scan fuel (',' :: more) hfuel (stops_cons (by decide))
  cases hmore : scanItems fuel more <;>
    simp [scanItems, hscan, skipBlank_cons (c := ',') (by decide), hmore]

/-- Items are read one by one, up to the closing bracket. -/
theorem items {js : List Json} {ts : List Tree}
    (h : List.Forall₂ (fun j t => ReadsAs (renderWith real j) t) js ts) (hne : js ≠ [])
    {fuel : Nat} (hfuel : (renderItems real js).length < fuel) (rest : List Char) :
    scanItems fuel (renderItems real js ++ ']' :: rest) = some (ts, rest) := by
  induction h generalizing fuel with
  | nil => exact absurd rfl hne
  | @cons j t js ts hj hjs ih =>
    obtain ⟨fuel, rfl⟩ : ∃ k, fuel = k + 1 := ⟨fuel - 1, by omega⟩
    cases hjs with
    | nil =>
      rw [renderItems] at hfuel ⊢
      exact hj.scanItems_last (by omega) rest
    | cons hj' hjs' =>
      rw [renderItems_cons] at hfuel ⊢
      simp only [List.length_append, List.length_cons] at hfuel
      rw [List.append_assoc, List.cons_append, hj.scanItems_next (by omega),
        ih (List.cons_ne_nil _ _) (by omega)]
      rfl

/-- A list of items begins as its first item does. -/
theorem items_opens {j : Json} {js : List Json} {ts : List Tree}
    (h : List.Forall₂ (fun j t => ReadsAs (renderWith real j) t) (j :: js) ts) :
    ∃ c r, renderItems real (j :: js) = c :: r ∧ isBlank c = false ∧ c ≠ ']' := by
  obtain ⟨t, ts, hj, -, rfl⟩ := List.forall₂_cons_left_iff.mp h
  obtain ⟨c, r, hopen, hfirst⟩ := hj.opens
  cases js with
  | nil => exact ⟨c, r, by rw [renderItems, hopen], hfirst⟩
  | cons j' js => exact ⟨c, _, by rw [renderItems_cons, hopen, List.cons_append], hfirst⟩

/-- An array of values that are read back. -/
theorem arr {js : List Json} {ts : List Tree}
    (h : List.Forall₂ (fun j t => ReadsAs (renderWith real j) t) js ts) :
    ReadsAs (renderWith real (.arr js)) (.items ts) := by
  rw [renderWith, List.cons_append]
  refine of_scan (by decide) (by decide) fun fuel rest hfuel _ => ?_
  rw [scanValue, skipBlank_cons (by decide), List.append_assoc, List.singleton_append]
  cases js with
  | nil =>
    obtain rfl := List.forall₂_nil_left_iff.mp h
    simp [renderItems, skipBlank_cons (c := ']') (by decide)]
  | cons j js =>
    obtain ⟨c, r, hopen, hblank, hclose⟩ := items_opens h
    rw [List.length_append, List.length_singleton] at hfuel
    have hitems := items h (List.cons_ne_nil _ _) hfuel rest
    rw [hopen, List.cons_append] at hitems ⊢
    simp [skipBlank_cons hblank, hclose, hitems]

/-! ## Objects -/

variable {key : String} {fuel : Nat}

/-- A member is a string, a colon and a value. -/
theorem scanMembers_eq (h : ReadsAs cs t) (hfuel : cs.length ≤ fuel) {c : Char}
    (hc : c = ',' ∨ c = '}') (rest : List Char) :
    scanMembers (fuel + 1) (renderString key ++ ':' :: cs ++ c :: rest)
      = if c = ',' then (scanMembers fuel rest).map fun p => ((some key, t) :: p.1, p.2)
        else some ([(some key, t)], rest) := by
  have hstop : Stops (c :: rest) := by
    rcases hc with rfl | rfl <;> exact stops_cons (by decide)
  have hscan := h.scan fuel (c :: rest) hfuel hstop
  have htext : renderString key ++ ':' :: cs ++ c :: rest
      = '"' :: (key.toList.flatMap escapeChar ++ '"' :: ':' :: (cs ++ c :: rest)) := by
    simp [renderString]
  rw [htext, scanMembers, skipBlank_cons (by decide)]
  rcases hc with rfl | rfl
  · cases hmore : scanMembers fuel rest <;>
      simp [scanString_escaped, skipBlank_cons (c := ':') (by decide), hscan,
        skipBlank_cons (c := ',') (by decide), hmore]
  · simp [scanString_escaped, skipBlank_cons (c := ':') (by decide), hscan,
      skipBlank_cons (c := '\x7d') (by decide)]

/-- The last member is followed by the closing brace. -/
theorem scanMembers_last (h : ReadsAs cs t) (hfuel : cs.length ≤ fuel) (rest : List Char) :
    scanMembers (fuel + 1) (renderString key ++ ':' :: cs ++ '}' :: rest)
      = some ([(some key, t)], rest) := by
  rw [h.scanMembers_eq hfuel (.inr rfl)]
  simp

/-- Any other is followed by a comma and the next. -/
theorem scanMembers_next (h : ReadsAs cs t) (hfuel : cs.length ≤ fuel) (more : List Char) :
    scanMembers (fuel + 1) (renderString key ++ ':' :: cs ++ ',' :: more)
      = (scanMembers fuel more).map fun p => ((some key, t) :: p.1, p.2) := by
  rw [h.scanMembers_eq hfuel (.inl rfl)]
  simp

/-- Members are read one by one, up to the closing brace. -/
theorem members {ms : List (String × Json)} {us : List (Option String × Tree)}
    (h : List.Forall₂ (fun m u => u.1 = some m.1 ∧ ReadsAs (renderWith real m.2) u.2) ms us)
    (hne : ms ≠ []) (hfuel : (renderMembers real ms).length < fuel) (rest : List Char) :
    scanMembers fuel (renderMembers real ms ++ '}' :: rest) = some (us, rest) := by
  induction h generalizing fuel with
  | nil => exact absurd rfl hne
  | @cons m u ms us hm hms ih =>
    obtain ⟨k, v⟩ := m
    obtain ⟨_, t⟩ := u
    obtain ⟨rfl, hv⟩ : _ = some k ∧ ReadsAs (renderWith real v) t := hm
    obtain ⟨fuel, rfl⟩ : ∃ k, fuel = k + 1 := ⟨fuel - 1, by omega⟩
    cases hms with
    | nil =>
      rw [renderMembers] at hfuel ⊢
      simp only [List.length_append, List.length_cons] at hfuel
      exact hv.scanMembers_last (by omega) rest
    | cons hm' hms' =>
      rw [renderMembers_cons] at hfuel ⊢
      simp only [List.length_append, List.length_cons] at hfuel
      rw [List.append_assoc, List.cons_append, hv.scanMembers_next (by omega),
        ih (List.cons_ne_nil _ _) (by omega)]
      rfl

/-- An object of values that are read back. -/
theorem obj {ms : List (String × Json)} {us : List (Option String × Tree)}
    (h : List.Forall₂ (fun m u => u.1 = some m.1 ∧ ReadsAs (renderWith real m.2) u.2) ms us) :
    ReadsAs (renderWith real (.obj ms)) (.members us) := by
  rw [renderWith, List.cons_append]
  refine of_scan (by decide) (by decide) fun fuel rest hfuel _ => ?_
  rw [scanValue, skipBlank_cons (by decide), List.append_assoc, List.singleton_append]
  cases ms with
  | nil =>
    obtain rfl := List.forall₂_nil_left_iff.mp h
    simp [renderMembers, skipBlank_cons (c := '\x7d') (by decide)]
  | cons m ms =>
    obtain ⟨r, hopen⟩ : ∃ r, renderMembers real (m :: ms) = '"' :: r := renderMembers_opens m ms
    rw [List.length_append, List.length_singleton] at hfuel
    have hmembers := members h (List.cons_ne_nil _ _) hfuel rest
    rw [hopen, List.cons_append] at hmembers ⊢
    simp [skipBlank_cons (c := '"') (by decide), hmembers]

end ReadsAs

/-! ## The value behind the text -/

variable {depth : Nat}

/-- What each element of a list has, the list has. -/
theorem exists_forall₂ {α β : Type} {r : α → β → Prop} {as : List α}
    (h : ∀ a ∈ as, ∃ b, r a b) : ∃ bs, List.Forall₂ r as bs := by
  induction as with
  | nil => exact ⟨[], .nil⟩
  | cons a as ih =>
    obtain ⟨b, hb⟩ := h a (by simp)
    obtain ⟨bs, hbs⟩ := ih fun a ha => h a (by simp [ha])
    exact ⟨b :: bs, .cons hb hbs⟩

/-- Items that denote values in order. -/
theorem itemsToJson?_of {js : List Json} {ts : List Tree}
    (h : List.Forall₂ (fun j t => t.toJson? depth = some j.inOrder) js ts) :
    itemsToJson? depth ts = some (js.map inOrder) := by
  induction h with
  | nil => rfl
  | cons hj _ ih => simp [itemsToJson?, hj, ih]

/-- Members that denote values in order. -/
theorem membersToJson?_of {ms : List (String × Json)} {us : List (Option String × Tree)}
    (h : List.Forall₂ (fun m u => u.1 = some m.1 ∧ u.2.toJson? depth = some m.2.inOrder) ms us) :
    membersToJson? depth us = some (ms.map fun m => (m.1, m.2.inOrder)) := by
  induction h with
  | nil => rfl
  | @cons m u ms us hm _ ih =>
    obtain ⟨_, t⟩ := u
    obtain ⟨rfl, ht⟩ : _ = some m.1 ∧ t.toJson? depth = some m.2.inOrder := hm
    simp [membersToJson?, ht, ih]

/-- **Read back.**  The text of a portable value is read as a document that denotes the value, with
the members of every object in the order of their keys. -/
theorem Portable.read_back {j : Json} (h : j.Portable depth) :
    ∃ t, ReadsAs (renderWith real j) t ∧ t.toJson? depth = some j.inOrder := by
  induction h with
  | null => exact ⟨.null, .null, rfl⟩
  | bool b => exact ⟨.bool b, .bool b, rfl⟩
  | @int depth n low high =>
    refine ⟨.numeral (numeral n), .int n, ?_⟩
    simp [toJson?, Numeral.number?_written low high, inOrder]
  | str s => exact ⟨.text (some s), .string s, rfl⟩
  | arr _ ih =>
    obtain ⟨ts, hts⟩ := exists_forall₂ ih
    refine ⟨.items ts, .arr (hts.imp fun _ _ h => h.1), ?_⟩
    rw [toJson?, itemsToJson?_of (hts.imp fun _ _ h => h.2), inOrder, itemsInOrder_eq_map]
    rfl
  | @obj depth members _ _ ih =>
    have hmembers : ∀ m ∈ members, ∃ u : Option String × Tree, u.1 = some m.1
        ∧ ReadsAs (renderWith real m.2) u.2 ∧ u.2.toJson? depth = some m.2.inOrder := fun m hm =>
      (ih m hm).elim fun t ht => ⟨(some m.1, t), rfl, ht⟩
    obtain ⟨us, hus⟩ := exists_forall₂ hmembers
    refine ⟨.members us, .obj (hus.imp fun _ _ h => ⟨h.1, h.2.1⟩), ?_⟩
    rw [toJson?, membersToJson?_of (hus.imp fun _ _ h => ⟨h.1, h.2.2⟩), inOrder,
      membersInOrder_eq_map]
    rfl

end InferenceRouting.Json
