import Mender.Proofs.Source.Walk

namespace Mender.Source

open Mender.Source.Tree

/-- Rows that more items were put into: what `extra` holds, row by row from some depth on, in one piece in each
row. -/
inductive Grown {α : Type} : (extra rows grown : List (List α)) → Prop
  | same {rows} : Grown [] rows rows
  | past {extra} : Grown extra [] extra
  | put {items extra rows grown} (left right) : Grown extra rows grown →
      Grown (items :: extra) ((left ++ right) :: rows) ((left ++ (items ++ right)) :: grown)
  | later {extra row rows grown} : Grown extra rows grown → Grown extra (row :: rows) (row :: grown)

namespace Grown

variable {α : Type} {extra rows grown : List (List α)}

theorem besideLevels_self (extra rows : List (List α)) : Grown extra rows (besideLevels extra rows) := by
  induction extra generalizing rows with
  | nil =>
    rw [nil_besideLevels]
    exact .same
  | cons items extra ih =>
    cases rows with
    | nil => exact .past
    | cons row rows => exact .put [] row (ih rows)

theorem self_besideLevels (rows extra : List (List α)) : Grown extra rows (besideLevels rows extra) := by
  induction extra generalizing rows with
  | nil =>
    rw [besideLevels_nil]
    exact .same
  | cons items extra ih =>
    cases rows with
    | nil => exact .past
    | cons row rows =>
      have here : Grown (items :: extra) ((row ++ []) :: rows) ((row ++ (items ++ [])) :: besideLevels rows extra) :=
        .put row [] (ih rows)
      rwa [List.append_nil, List.append_nil] at here

theorem beside_right (more : Grown extra rows grown) (right : List (List α)) :
    Grown extra (besideLevels rows right) (besideLevels grown right) := by
  induction more generalizing right with
  | same => exact .same
  | past =>
    rw [nil_besideLevels]
    exact besideLevels_self _ right
  | put front back more ih =>
    cases right with
    | nil => exact .put front back more
    | cons row right =>
      simp only [besideLevels, List.append_assoc]
      exact .put front (back ++ row) (ih right)
  | later more ih =>
    cases right with
    | nil => exact .later more
    | cons row right => exact .later (ih right)

theorem beside_left (more : Grown extra rows grown) (left : List (List α)) :
    Grown extra (besideLevels left rows) (besideLevels left grown) := by
  induction more generalizing left with
  | same => exact .same
  | past =>
    rw [besideLevels_nil]
    exact self_besideLevels left _
  | put front back more ih =>
    cases left with
    | nil => exact .put front back more
    | cons row left =>
      simp only [besideLevels, ← List.append_assoc row]
      exact .put (row ++ front) back (ih left)
  | later more ih =>
    cases left with
    | nil => exact .later more
    | cons row left => exact .later (ih left)

/-- Items that are none make no difference. -/
theorem flatten_eq (more : Grown extra rows grown) (none : extra.flatten = []) :
    grown.flatten = rows.flatten := by
  induction more with
  | same => rfl
  | past => exact none
  | put front back more ih =>
    obtain ⟨here, later⟩ := List.append_eq_nil_iff.mp none
    rw [List.flatten_cons, List.flatten_cons, here, List.nil_append, ih later]
  | later more ih => rw [List.flatten_cons, List.flatten_cons, ih none]

/-- The items of one row come in one piece. -/
theorem exists_flatten {items : List α} (more : Grown (items :: extra) rows grown) (none : extra.flatten = []) :
    ∃ front back, rows.flatten = front ++ back ∧ grown.flatten = front ++ items ++ back := by
  generalize all : items :: extra = rest at more
  induction more with
  | same => cases all
  | past =>
    cases all
    refine ⟨[], [], rfl, ?_⟩
    rw [List.flatten_cons, none, List.append_nil, List.append_nil, List.nil_append]
  | @put _ _ rows _ front back more =>
    cases all
    refine ⟨front, back ++ rows.flatten, ?_, ?_⟩
    · rw [List.flatten_cons, List.append_assoc]
    · rw [List.flatten_cons, more.flatten_eq none]
      simp only [List.append_assoc]
  | @later _ row _ _ more ih =>
    obtain ⟨front, back, before, after⟩ := ih all
    refine ⟨row ++ front, back, ?_, ?_⟩
    · rw [List.flatten_cons, before, List.append_assoc]
    · rw [List.flatten_cons, after, List.append_assoc, List.append_assoc, List.append_assoc]

end Grown

/-- A place in a tree where statements may stand, with all that stands around it. No statement stands in an
assignment: its children are its targets and its value. -/
inductive Slot where
  | here (form : Form) (block : form ≠ .assignment) (before after : List Tree)
  | inside (form : Form) (before : List Tree) (inner : Slot) (after : List Tree)

/-- What is read off a node depends on its form and on the forms of its children, and of these the held ones are
overlooked. -/
structure Overlooks {α : Type} (g : Tree → List α) (held : List Tree) : Prop where
  overlooked : ∀ f before after, f ≠ Form.assignment →
    g (node f (before ++ held ++ after)) = g (node f (before ++ after))
  alike : ∀ f before t u after, form t = form u → g (node f (before ++ t :: after)) = g (node f (before ++ u :: after))

namespace Slot

/-- The tree that has these statements in the place. -/
def fill : Slot → List Tree → Tree
  | here form _ before after, held => node form (before ++ held ++ after)
  | inside form before inner after, held => node form (before ++ inner.fill held :: after)

theorem form_fill (slot : Slot) (held : List Tree) : (slot.fill held).form = (slot.fill []).form := by
  cases slot <;> rfl

open scoped List in
theorem forms_fill (slot : Slot) (held : List Tree) :
    (slot.fill held).forms ~ held.flatMap forms ++ (slot.fill []).forms := by
  induction slot with
  | here form block before after =>
    simp only [fill, forms_node, List.append_nil, List.flatMap_append, List.append_assoc]
    calc form :: (before.flatMap forms ++ (held.flatMap forms ++ after.flatMap forms))
      _ ~ form :: (held.flatMap forms ++ (before.flatMap forms ++ after.flatMap forms)) :=
        (List.perm_append_comm_assoc _ _ _).cons form
      _ ~ held.flatMap forms ++ form :: (before.flatMap forms ++ after.flatMap forms) := List.perm_middle.symm
  | inside form before inner after ih =>
    simp only [fill, forms_node, List.flatMap_append, List.flatMap_cons]
    calc form :: (before.flatMap forms ++ ((inner.fill held).forms ++ after.flatMap forms))
      _ ~ form :: (before.flatMap forms ++ (held.flatMap forms ++ ((inner.fill []).forms ++ after.flatMap forms))) := by
        rw [← List.append_assoc (held.flatMap forms)]
        exact ((ih.append_right _).append_left _).cons form
      _ ~ form :: (held.flatMap forms ++ (before.flatMap forms ++ ((inner.fill []).forms ++ after.flatMap forms))) :=
        (List.perm_append_comm_assoc _ _ _).cons form
      _ ~ held.flatMap forms ++ form :: (before.flatMap forms ++ ((inner.fill []).forms ++ after.flatMap forms)) :=
        List.perm_middle.symm

section Reading

variable {α : Type} {g : Tree → List α} {held : List Tree}

theorem grown_fill (slot : Slot) (overlooks : Overlooks g held) :
    Grown ((forestLevels held).map (List.flatMap g)) ((slot.fill []).levels.map (List.flatMap g))
      ((slot.fill held).levels.map (List.flatMap g)) := by
  -- The root is the first row, and the same is read off it; the held statements come into the rows below.
  induction slot with
  | here form block before after =>
    have root : [node form (before ++ held ++ after)].flatMap g = [node form (before ++ [] ++ after)].flatMap g := by
      rw [List.flatMap_singleton, List.flatMap_singleton, overlooks.overlooked form before after block, List.append_nil]
    rw [fill, fill, levels, levels, List.map_cons, List.map_cons, root]
    refine .later ?_
    simp only [forestLevels_append, map_flatMap_besideLevels, forestLevels, besideLevels_assoc,
      nil_besideLevels]
    exact (Grown.besideLevels_self _ _).beside_left _
  | inside form before inner after ih =>
    have root : [node form (before ++ inner.fill held :: after)].flatMap g =
        [node form (before ++ inner.fill [] :: after)].flatMap g := by
      rw [List.flatMap_singleton, List.flatMap_singleton, overlooks.alike form before _ _ after (inner.form_fill held)]
    rw [fill, fill, levels, levels, List.map_cons, List.map_cons, root]
    refine .later ?_
    simp only [forestLevels_append, map_flatMap_besideLevels, forestLevels]
    exact (ih.beside_right _).beside_left _

theorem flatten_forestLevels_eq_nil {ts : List Tree} (none : ∀ t ∈ ts, ∀ s ∈ t.nodes, g s = []) :
    ((forestLevels ts).map (List.flatMap g)).flatten = [] := by
  rw [flatMap_rows, List.flatMap_eq_nil_iff]
  intro s member
  obtain ⟨t, inside, below⟩ := List.mem_flatMap.mp ((forestLevels_perm ts).mem_iff.mp member)
  exact none t inside s below

/-- Nothing to be read off the held statements makes no difference. -/
theorem flatMap_walk_fill (slot : Slot) (overlooks : Overlooks g held) (none : ∀ t ∈ held, ∀ s ∈ t.nodes, g s = []) :
    (slot.fill held).walk.flatMap g = (slot.fill []).walk.flatMap g := by
  rw [walk, walk, ← flatMap_rows, ← flatMap_rows]
  exact (slot.grown_fill overlooks).flatten_eq (flatten_forestLevels_eq_nil none)

/-- What is read off a statement in the place comes in one piece, if nothing is read off what stands below it. -/
theorem exists_flatMap_walk_fill (slot : Slot) {f : Form} {ts : List Tree} (overlooks : Overlooks g [node f ts])
    (none : ∀ t ∈ ts, ∀ s ∈ t.nodes, g s = []) :
    ∃ front back, (slot.fill []).walk.flatMap g = front ++ back ∧
      (slot.fill [node f ts]).walk.flatMap g = front ++ g (node f ts) ++ back := by
  have rows : forestLevels [node f ts] = [node f ts] :: forestLevels ts := by
    rw [forestLevels, forestLevels, besideLevels_nil, levels]
  have more := slot.grown_fill overlooks
  rw [rows, List.map_cons, List.flatMap_singleton] at more
  rw [walk, walk, ← flatMap_rows, ← flatMap_rows]
  exact more.exists_flatten (flatten_forestLevels_eq_nil none)

end Reading

/-- Whatever stands in a tree stands in such a place, unless it is the whole tree or a part of an assignment. -/
theorem exists_fill {t s : Tree} (member : s ∈ t.nodes) (proper : s ≠ t)
    (block : ∀ ts, node .assignment ts ∈ t.nodes → s ∉ ts) : ∃ slot : Slot, t = slot.fill [s] := by
  induction t with
  | node f ts ih =>
    rw [nodes_node] at member
    obtain ⟨u, child, below⟩ := List.mem_flatMap.mp ((List.mem_cons.mp member).resolve_left proper)
    obtain ⟨before, after, rfl⟩ := List.append_of_mem child
    by_cases top : s = u
    · cases top
      have noParts : f ≠ .assignment := by
        rintro rfl
        exact block _ (mem_nodes_self _) child
      exact ⟨.here f noParts before after, by rw [fill, List.append_assoc, List.singleton_append]⟩
    · have blockBelow : ∀ us, node .assignment us ∈ u.nodes → s ∉ us := by
        intro us inside
        refine block us ?_
        rw [nodes_node]
        exact List.mem_cons_of_mem _ (List.mem_flatMap.mpr ⟨u, child, inside⟩)
      obtain ⟨inner, rfl⟩ := ih u child below top blockBelow
      exact ⟨.inside f before inner after, rfl⟩

end Slot

end Mender.Source
