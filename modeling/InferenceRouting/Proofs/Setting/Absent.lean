import InferenceRouting.Setting.Toml.Writer

/-!
# Absent values

A format without a notation for absence leaves the absent members of a table out.  The TOML writer
does so: it writes a tree as it writes the tree without them (`Toml.write?_withoutAbsent`).
-/

namespace InferenceRouting

namespace Setting

mutual

/-- A tree without the absent members of its tables. -/
def withoutAbsent : Setting → Setting
  | .list items => .list (itemsWithoutAbsent items)
  | .table members => .table (membersWithoutAbsent members)
  | s => s

/-- Items, each without the absent members of its tables. -/
def itemsWithoutAbsent : List Setting → List Setting
  | [] => []
  | s :: rest => withoutAbsent s :: itemsWithoutAbsent rest

/-- The members of a table that are not absent. -/
def membersWithoutAbsent : List (String × Setting) → List (String × Setting)
  | [] => []
  | (_, .null) :: rest => membersWithoutAbsent rest
  | (name, s) :: rest => (name, withoutAbsent s) :: membersWithoutAbsent rest

end

theorem itemsWithoutAbsent_eq_map (items : List Setting) :
    itemsWithoutAbsent items = items.map withoutAbsent := by
  induction items with
  | nil => rfl
  | cons s rest ih => rw [itemsWithoutAbsent, List.map_cons, ih]

/-- A member that is there stays. -/
theorem membersWithoutAbsent_cons {s : Setting} (h : s ≠ .null) (name : String)
    (rest : List (String × Setting)) :
    membersWithoutAbsent ((name, s) :: rest) =
      (name, withoutAbsent s) :: membersWithoutAbsent rest := by
  cases s <;> first | rfl | exact absurd rfl h

end Setting

namespace Toml

open Setting

/-- What is written for a list, item by item. -/
theorem mapM_cons {α β : Type} (write : α → Option β) (a : α) (rest : List α) :
    (a :: rest).mapM write = (write a).bind fun b => (rest.mapM write).map (b :: ·) := by
  rw [List.mapM_cons]
  cases write a with
  | none => rfl
  | some b => cases rest.mapM write <;> rfl

/-- Reading the images of items, when the image of an item is read as the image of what the item is
read as. -/
theorem mapM_map {α β : Type} {read : α → Option β} {f : α → α} {g : β → β}
    (h : ∀ a, read (f a) = (read a).map g) (as : List α) :
    (as.map f).mapM read = (as.mapM read).map (List.map g) := by
  induction as with
  | nil => rfl
  | cons a rest ih =>
    rw [List.map_cons, mapM_cons, mapM_cons, h, ih]
    cases read a with
    | none => rfl
    | some b => cases rest.mapM read <;> rfl

/-- A scalar is written as before. -/
theorem scalarText?_withoutAbsent (s : Setting) :
    scalarText? s.withoutAbsent = scalarText? s := by
  cases s <;> rfl

/-- So is a value on one line. -/
theorem valueText?_withoutAbsent (s : Setting) : valueText? s.withoutAbsent = valueText? s := by
  cases s with
  | list items =>
    simp only [Setting.withoutAbsent, valueText?, itemsWithoutAbsent_eq_map, List.mapM_map,
      Function.comp_def, scalarText?_withoutAbsent]
  | _ => rfl

/-- A list is one of tables as it was, each without its absent members. -/
theorem tables?_withoutAbsent (items : List Setting) :
    tables? (itemsWithoutAbsent items) = (tables? items).map (List.map membersWithoutAbsent) := by
  rw [itemsWithoutAbsent_eq_map]
  cases items with
  | nil => rfl
  | cons first rest =>
    refine mapM_map (fun s => ?_) (first :: rest)
    cases s <;> rfl

/-- So is a member on its line. -/
theorem memberLine?_withoutAbsent (name : String) (s : Setting) :
    memberLine? name s.withoutAbsent = memberLine? name s := by
  cases s with
  | list items =>
    have hvalue := valueText?_withoutAbsent (.list items)
    simp only [Setting.withoutAbsent] at hvalue
    simp only [Setting.withoutAbsent, memberLine?, tables?_withoutAbsent, hvalue]
    cases tables? items <;> rfl
  | _ => rfl

/-- What is written for each member of a table, one after another, where nothing is written for an
absent one. -/
theorem mapM_flatten_withoutAbsent {α : Type} {write write' : String × Setting → Option (List α)}
    (habsent : ∀ name, write' (name, .null) = some [])
    (hmember : ∀ name s, write (name, s.withoutAbsent) = write' (name, s))
    (members : List (String × Setting)) :
    ((membersWithoutAbsent members).mapM write).map List.flatten =
      (members.mapM write').map List.flatten := by
  induction members with
  | nil => rfl
  | cons m rest ih =>
    obtain ⟨name, s⟩ := m
    by_cases hs : s = .null
    · subst hs
      rw [membersWithoutAbsent, ih, mapM_cons, habsent]
      cases rest.mapM write' <;> rfl
    · rw [membersWithoutAbsent_cons hs, mapM_cons, mapM_cons, hmember]
      cases write' (name, s) with
      | none => rfl
      | some text =>
        have hcons : ∀ texts : Option (List (List α)),
            (texts.map (text :: ·)).map List.flatten =
              (texts.map List.flatten).map (text ++ ·) := by
          rintro (_ | texts) <;> rfl
        simp only [Option.bind_some, hcons, ih]

/-- So are all members that stand on lines of their own. -/
theorem plainLines?_withoutAbsent (members : List (String × Setting)) :
    plainLines? (membersWithoutAbsent members) = plainLines? members := by
  have hlines : ∀ ms : List (String × Setting), plainLines? ms =
      (ms.mapM fun m => memberLine? m.1 m.2).map List.flatten := by
    intro ms
    rw [plainLines?]
    cases ms.mapM fun m => memberLine? m.1 m.2 <;> rfl
  rw [hlines, hlines]
  exact mapM_flatten_withoutAbsent (fun _ => rfl) memberLine?_withoutAbsent members

/-- What is written for a member of a table as sections of its own. -/
def innerSections? (fuel : Nat) (path : List String) (m : String × Setting) :
    Option (List (List Char)) :=
  let path := path ++ [m.1]
  match m.2 with
  | .table inner => sections? fuel ('[' :: pathText path ++ [']', '\n']) path inner
  | .list items =>
    match tables? items with
    | some tables =>
      (tables.mapM (sections? fuel ('[' :: '[' :: pathText path ++ [']', ']', '\n']) path)).map
        List.flatten
    | none => some []
  | _ => some []

/-- The sections of a table: its own lines, and then the sections within it. -/
theorem sections?_succ (fuel : Nat) (header : List Char) (path : List String)
    (members : List (String × Setting)) :
    sections? (fuel + 1) header path members =
      (plainLines? members).bind fun lines =>
        ((members.mapM (innerSections? fuel path)).map List.flatten).map
          ((header ++ lines) :: ·) := by
  rw [sections?]
  cases plainLines? members with
  | none => rfl
  | some lines =>
    change ((members.mapM (innerSections? fuel path)).bind fun inner =>
      some ((header ++ lines) :: inner.flatten)) = _
    cases members.mapM (innerSections? fuel path) <;> rfl

/-- The sections of a table are those of the table without its absent members. -/
theorem sections?_withoutAbsent (fuel : Nat) : ∀ (header : List Char) (path : List String)
    (members : List (String × Setting)),
    sections? fuel header path (membersWithoutAbsent members) =
      sections? fuel header path members := by
  induction fuel with
  | zero => intro header path members; rfl
  | succ fuel ih =>
    intro header path members
    have hinner : ∀ name s, innerSections? fuel path (name, s.withoutAbsent) =
        innerSections? fuel path (name, s) := by
      intro name s
      cases s with
      | table inner => exact ih _ _ inner
      | list items =>
        simp only [Setting.withoutAbsent, innerSections?, tables?_withoutAbsent]
        cases tables? items with
        | none => rfl
        | some tables =>
          simp only [Option.map_some, List.mapM_map, Function.comp_def, ih]
      | _ => rfl
    rw [sections?_succ, sections?_succ, plainLines?_withoutAbsent,
      mapM_flatten_withoutAbsent (fun _ => rfl) hinner]

mutual

/-- Sections are as deep as before. -/
theorem depth_withoutAbsent : ∀ s : Setting, depth s.withoutAbsent = depth s
  | .list items => by
    rw [Setting.withoutAbsent, depth, depth, depthOfItems_withoutAbsent items]
  | .table members => by
    rw [Setting.withoutAbsent, depth, depth, depthOfMembers_withoutAbsent members]
  | .null | .flag _ | .integer _ | .fraction | .text _ => rfl

theorem depthOfItems_withoutAbsent :
    ∀ items, depthOfItems (itemsWithoutAbsent items) = depthOfItems items
  | [] => rfl
  | s :: rest => by
    rw [itemsWithoutAbsent, depthOfItems, depthOfItems, depth_withoutAbsent s,
      depthOfItems_withoutAbsent rest]

theorem depthOfMembers_withoutAbsent :
    ∀ members, depthOfMembers (membersWithoutAbsent members) = depthOfMembers members
  | [] => rfl
  | (name, s) :: rest => by
    by_cases hs : s = .null
    · subst hs
      rw [membersWithoutAbsent, depthOfMembers_withoutAbsent rest, depthOfMembers]
      exact (Nat.zero_max _).symm
    · rw [membersWithoutAbsent_cons hs, depthOfMembers, depthOfMembers, depth_withoutAbsent s,
        depthOfMembers_withoutAbsent rest]

end

/-- A document does not show which members are absent. -/
theorem write?_withoutAbsent (s : Setting) : write? s.withoutAbsent = write? s := by
  cases s with
  | table members =>
    have hdepth := depth_withoutAbsent (.table members)
    simp only [Setting.withoutAbsent] at hdepth
    simp only [Setting.withoutAbsent, write?, hdepth, sections?_withoutAbsent]
  | _ => rfl

end Toml

end InferenceRouting
