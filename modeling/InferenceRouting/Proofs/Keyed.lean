/-!
# Lists with distinct keys

Slots, acquisitions, holders, sweeps and handoffs are kept in lists in which a number occurs once,
nodes in a list in which an id does.  An element of such a list splits it in two parts without its
key, and finding it, changing it or leaving it out acts on that split alone.
-/

namespace InferenceRouting.Keyed

variable {α β κ : Type} {key : α → κ} {l pre post : List α} {x : α}

/-- An element splits a list with distinct keys in two parts without its key. -/
theorem exists_split (hn : (l.map key).Nodup) (hx : x ∈ l) :
    ∃ pre post, l = pre ++ x :: post ∧ ∀ y ∈ pre ++ post, key y ≠ key x := by
  obtain ⟨pre, post, rfl⟩ := List.append_of_mem hx
  refine ⟨pre, post, rfl, fun y hy heq => ?_⟩
  simp only [List.map_append, List.map_cons, List.nodup_append, List.nodup_cons] at hn
  obtain ⟨-, ⟨hpost, -⟩, hpre⟩ := hn
  rcases List.mem_append.mp hy with hy | hy
  · exact hpre (key y) (List.mem_map_of_mem hy) (key x) List.mem_cons_self heq
  · exact hpost (heq ▸ List.mem_map_of_mem hy)

/-- Elements with the same key are the same. -/
theorem eq_of_mem {y : α} (hn : (l.map key).Nodup) (hx : x ∈ l) (hy : y ∈ l)
    (h : key y = key x) : y = x := by
  obtain ⟨pre, post, rfl, hne⟩ := exists_split hn hx
  rcases List.mem_append.mp hy with hy | hy
  · exact absurd h (hne y (List.mem_append_left _ hy))
  · rcases List.mem_cons.mp hy with rfl | hy
    · rfl
    · exact absurd h (hne y (List.mem_append_right _ hy))

variable [DecidableEq κ]

/-- Leaving out what has the key of an element leaves the two parts. -/
theorem filter_ne (h : ∀ y ∈ pre ++ post, key y ≠ key x) :
    (pre ++ x :: post).filter (fun y => decide (key y ≠ key x)) = pre ++ post := by
  have hpre : pre.filter (fun y => decide (key y ≠ key x)) = pre :=
    List.filter_eq_self.mpr fun y hy => decide_eq_true (h y (List.mem_append_left _ hy))
  have hpost : post.filter (fun y => decide (key y ≠ key x)) = post :=
    List.filter_eq_self.mpr fun y hy => decide_eq_true (h y (List.mem_append_right _ hy))
  simp only [List.filter_append, List.filter_cons, hpre, hpost]
  simp

/-- An element comes before what is left without its key, up to order. -/
theorem perm_cons_filter (hn : (l.map key).Nodup) (hx : x ∈ l) :
    l.Perm (x :: l.filter fun y => decide (key y ≠ key x)) := by
  obtain ⟨pre, post, rfl, hne⟩ := exists_split hn hx
  rw [filter_ne hne]
  exact List.perm_middle

/-- What is left of a list, and what has a key that is left no more, make up the list. -/
theorem perm_of_sublist {m : List α} (hn : (l.map key).Nodup) (h : m.Sublist l) :
    (m ++ l.filter fun y => decide (key y ∉ m.map key)).Perm l := by
  induction h with
  | slnil => exact .refl _
  | @cons m l x hsub ih =>
      obtain ⟨hx, hn⟩ := List.nodup_cons.mp hn
      have hgone : key x ∉ m.map key := fun hin => hx ((hsub.map key).subset hin)
      have hrest : (x :: l).filter (fun y => decide (key y ∉ m.map key)) =
          x :: l.filter (fun y => decide (key y ∉ m.map key)) :=
        List.filter_cons_of_pos (decide_eq_true hgone)
      rw [hrest]
      exact List.perm_middle.trans ((ih hn).cons x)
  | @cons_cons m l x hsub ih =>
      obtain ⟨hx, hn⟩ := List.nodup_cons.mp hn
      have hrest : l.filter (fun y => decide (key y ∉ (x :: m).map key)) =
          l.filter (fun y => decide (key y ∉ m.map key)) := by
        refine List.filter_congr fun y hy => ?_
        have hne : key y ≠ key x := fun heq => hx (heq ▸ List.mem_map_of_mem hy)
        simp [hne]
      rw [List.filter_cons_of_neg (by simp), hrest]
      exact (ih hn).cons x

/-- Leaving out a key that does not occur leaves the list. -/
theorem filter_ne_of_notMem {k : κ} (h : k ∉ l.map key) :
    l.filter (fun y => decide (key y ≠ k)) = l :=
  List.filter_eq_self.mpr fun _ hy =>
    decide_eq_true fun heq => h (heq ▸ List.mem_map_of_mem hy)

/-- Changing what has the key of an element changes the element alone. -/
theorem map_ite (f : α → α) (h : ∀ y ∈ pre ++ post, key y ≠ key x) :
    (pre ++ x :: post).map (fun y => if key y = key x then f y else y) = pre ++ f x :: post := by
  have hpart (part : List α) (hp : ∀ y ∈ part, key y ≠ key x) :
      part.map (fun y => if key y = key x then f y else y) = part := by
    calc part.map (fun y => if key y = key x then f y else y)
        = part.map id := List.map_congr_left fun y hy => if_neg (hp y hy)
      _ = part := List.map_id part
  have hpre := hpart pre fun y hy => h y (List.mem_append_left _ hy)
  have hpost := hpart post fun y hy => h y (List.mem_append_right _ hy)
  simp only [List.map_append, List.map_cons, hpre, hpost, if_true]

/-- An element is found by its key. -/
theorem find?_eq (h : ∀ y ∈ pre ++ post, key y ≠ key x) :
    (pre ++ x :: post).find? (fun y => key y == key x) = some x := by
  refine List.find?_eq_some_iff_append.mpr ⟨by simp, pre, post, rfl, fun y hy => ?_⟩
  simpa using h y (List.mem_append_left _ hy)

/-- What is found by a key is an element with that key. -/
theorem of_find?_eq_some {k : κ} (h : l.find? (fun y => key y == k) = some x) :
    x ∈ l ∧ key x = k :=
  ⟨List.mem_of_find?_eq_some h, by simpa using List.find?_some h⟩

/-- What is looked up is in the list. -/
theorem mem_of_lookup {k : κ} {b : β} {l : List (κ × β)} (h : l.lookup k = some b) :
    (k, b) ∈ l := by
  obtain ⟨pre, post, rfl, -⟩ := List.lookup_eq_some_iff.mp h
  simp

/-- What is in a list with distinct keys is looked up. -/
theorem lookup_eq_some {k : κ} {b : β} {l : List (κ × β)} (hn : (l.map Prod.fst).Nodup)
    (h : (k, b) ∈ l) : l.lookup k = some b := by
  obtain ⟨pre, post, rfl, hne⟩ := exists_split hn h
  refine List.lookup_eq_some_iff.mpr ⟨pre, post, rfl, fun y hy => ?_⟩
  have := hne y (List.mem_append_left _ hy)
  simpa using this.symm

/-- With distinct keys it does not matter in which order a list is looked through. -/
theorem lookup_perm {l m : List (κ × β)} (hn : (l.map Prod.fst).Nodup) (h : m.Perm l) (k : κ) :
    m.lookup k = l.lookup k := by
  cases hl : l.lookup k with
  | some b =>
      have hdistinct : (m.map Prod.fst).Nodup := (h.map Prod.fst).nodup_iff.mpr hn
      exact lookup_eq_some hdistinct (h.mem_iff.mpr (mem_of_lookup hl))
  | none =>
      refine List.lookup_eq_none_iff.mpr fun b hb => ?_
      exact List.lookup_eq_none_iff.mp hl b (h.mem_iff.mp hb)

/-- A key that is not found does not occur. -/
theorem notMem_of_lookup_eq_none {k : κ} {l : List (κ × β)} (h : l.lookup k = none) :
    k ∉ l.map Prod.fst := by
  intro hk
  obtain ⟨y, hy, rfl⟩ := List.mem_map.mp hk
  have := List.lookup_eq_none_iff.mp h y hy
  simp at this

theorem lookup_isSome {k : κ} {l : List (κ × β)} :
    (l.lookup k).isSome ↔ k ∈ l.map Prod.fst := by
  rw [Option.isSome_iff_ne_none]
  constructor
  · intro hsome
    obtain ⟨b, hb⟩ := Option.ne_none_iff_exists'.mp hsome
    exact List.mem_map_of_mem (mem_of_lookup hb)
  · intro hk hnone
    exact notMem_of_lookup_eq_none hnone hk

/-- Leaving out a key leaves nothing to be found by it. -/
theorem find?_filter_self (k : κ) (l : List α) :
    (l.filter fun y => decide (key y ≠ k)).find? (fun y => key y == k) = none := by
  simp

/-- Leaving out a key, what has another key is found as before. -/
theorem find?_filter_of_ne {k m : κ} (h : m ≠ k) (l : List α) :
    (l.filter fun y => decide (key y ≠ k)).find? (fun y => key y == m) =
      l.find? (fun y => key y == m) := by
  rw [List.find?_filter]
  congr 1
  funext y
  by_cases hy : key y = m
  · simp [hy, h]
  · simp [hy]

/-- What is looked up is found by its key. -/
theorem lookup_eq_find? (k : κ) (l : List (κ × β)) :
    l.lookup k = (l.find? fun y => y.1 == k).map Prod.snd := by
  induction l with
  | nil => rfl
  | cons y rest ih =>
      obtain ⟨m, b⟩ := y
      by_cases hm : m = k
      · simp [hm]
      · have hne : (k == m) = false := beq_false_of_ne (Ne.symm hm)
        simp [List.lookup_cons, hm, hne, ih]

/-- Leaving out a key leaves nothing to be looked up by it. -/
theorem lookup_filter_self (k : κ) (l : List (κ × β)) :
    (l.filter fun y => decide (y.1 ≠ k)).lookup k = none := by
  rw [lookup_eq_find?, find?_filter_self]
  rfl

/-- Leaving out a key, what has another key is looked up as before. -/
theorem lookup_filter_of_ne {k m : κ} (h : m ≠ k) (l : List (κ × β)) :
    (l.filter fun y => decide (y.1 ≠ k)).lookup m = l.lookup m := by
  rw [lookup_eq_find?, find?_filter_of_ne h, lookup_eq_find?]

end InferenceRouting.Keyed
