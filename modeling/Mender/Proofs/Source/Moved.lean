import Mender.Proofs.Source.Unbound

namespace Mender

def Defect.moved (move : Position → Position) (d : Defect) : Defect := { d with position := d.position.map move }

namespace Source

def Form.moved (move : Position → Position) : Form → Form
  | .name id use place => .name id use (move place)
  | .importing origin place => .importing origin (move place)
  | f => f

namespace Tree

section Moved

variable (move : Position → Position)

mutual

def moved : Tree → Tree
  | node f ts => node (f.moved move) (movedAll ts)

def movedAll : List Tree → List Tree
  | [] => []
  | t :: ts => moved t :: movedAll ts

end

theorem movedAll_eq_map (ts : List Tree) : movedAll move ts = ts.map (moved move) := by
  induction ts with
  | nil => rfl
  | cons t ts ih => rw [movedAll, ih, List.map_cons]

theorem moved_node (f : Form) (ts : List Tree) :
    (node f ts).moved move = node (f.moved move) (ts.map (moved move)) := by
  rw [moved, movedAll_eq_map]

theorem form_moved (t : Tree) : (t.moved move).form = t.form.moved move := by
  cases t
  rw [moved_node]
  rfl

theorem levels_moved (t : Tree) : (t.moved move).levels = t.levels.map (List.map (moved move)) := by
  induction t with
  | node f ts ih =>
    have forest : forestLevels (ts.map (moved move)) = (forestLevels ts).map (List.map (moved move)) := by
      induction ts with
      | nil => rfl
      | cons t ts later =>
        obtain ⟨first, rest⟩ := List.forall_mem_cons.mp ih
        rw [List.map_cons, forestLevels, forestLevels, first, later rest, map_besideLevels fun _ _ => List.map_append]
    rw [moved_node, levels, levels, forest, List.map_cons, List.map_singleton, moved_node]

theorem walk_moved (t : Tree) : (t.moved move).walk = t.walk.map (moved move) := by
  rw [walk, walk, levels_moved, List.map_flatten]

theorem isExportList_moved (t : Tree) : (t.moved move).isExportList = t.isExportList := by
  obtain ⟨f, ts⟩ := t
  rw [moved_node]
  cases f <;> rfl

theorem word?_moved (f : Form) : (f.moved move).word? = f.word? := by cases f <;> rfl

theorem binds_moved (f : Form) : (f.moved move).binds = f.binds := by
  cases f with
  | name _ use _ => cases use <;> rfl
  | _ => rfl

theorem loads?_moved (f : Form) : (f.moved move).loads? = f.loads?.map fun p => (p.1, move p.2) := by
  cases f with
  | name _ use _ => cases use <;> rfl
  | _ => rfl

theorem exported_moved (t : Tree) : (t.moved move).exported = t.exported := by
  obtain ⟨f, ts⟩ := t
  by_cases assigns : f = .assignment
  · cases assigns
    cases ts using List.reverseRecOn with
    | nil => rfl
    | append_singleton targets value =>
      have words : ((value.moved move).walk.filterMap fun s => s.form.word?) =
          value.walk.filterMap fun s => s.form.word? := by
        rw [walk_moved, List.filterMap_map]
        exact List.filterMap_congr fun s _ => by rw [Function.comp_apply, form_moved, word?_moved]
      have lists : (targets.map (moved move)).any isExportList = targets.any isExportList := by
        rw [List.any_map]
        exact congrArg targets.any (funext (isExportList_moved move))
      rw [moved_node, List.map_append, List.map_singleton]
      exact (exported_assignment _ _).trans (by rw [exported_assignment, words, lists])
  · rw [moved_node, exported_of_ne assigns, exported_of_ne]
    cases f <;> first | exact (assigns rfl).elim | nofun

theorem uses_moved (t : Tree) : (t.moved move).uses = t.uses := by
  unfold uses
  rw [exported_moved, form_moved]
  cases t.form with
  | name _ use _ => cases use <;> rfl
  | _ => rfl

theorem usedNames_moved (t : Tree) : (t.moved move).usedNames = t.usedNames := by
  rw [usedNames, walk_moved, List.flatMap_map]
  exact List.flatMap_congr fun s _ => uses_moved move s

theorem boundNames_moved (t : Tree) : (t.moved move).boundNames = t.boundNames := by
  rw [boundNames, walk_moved, List.flatMap_map]
  exact List.flatMap_congr fun s _ => by rw [form_moved, binds_moved]

/-- Names loaded from a moved tree stand at the moved places. -/
theorem loadedNames_moved (t : Tree) :
    (t.moved move).loadedNames = t.loadedNames.map fun p => (p.1, move p.2) := by
  rw [loadedNames, loadedNames, walk_moved, List.filterMap_map, List.map_filterMap]
  exact List.filterMap_congr fun s _ => by rw [Function.comp_apply, form_moved, loads?_moved]

theorem imported_moved (t : Tree) : (t.moved move).imported = t.imported.map fun p => (p.1, move p.2) := by
  obtain ⟨f, ts⟩ := t
  rw [moved_node]
  cases f with
  | importing origin place =>
    rw [Form.moved, imported, imported, List.filterMap_map, List.map_filterMap]
    refine List.filterMap_congr fun s _ => ?_
    rw [Function.comp_apply, form_moved]
    cases s.form with
    | «alias» dotted renamed =>
      by_cases star : dotted = ("*" : Text) <;> simp [Form.moved, star]
    | _ => rfl
  | _ => rfl

theorem missing_moved (t : Tree) : (t.moved move).missing = t.missing.map fun p => (p.1, move p.2) := by
  rw [missing, boundNames_moved, loadedNames_moved]
  exact firstByKey_map (fun _ => rfl) _ _

end Moved

end Tree

/-- Unused imports of a moved tree are the same, at the moved places. -/
theorem unusedImports_moved (move : Position → Position) (t : Tree) :
    unusedImports (t.moved move) = (unusedImports t).map (Defect.moved move) := by
  have all : (t.moved move).walk.flatMap Tree.imported =
      (t.walk.flatMap Tree.imported).map fun p => (p.1, move p.2) := by
    rw [Tree.walk_moved, List.flatMap_map, List.map_flatMap]
    exact List.flatMap_congr fun s _ => Tree.imported_moved move s
  rw [unusedImports, unusedImports, all, Tree.usedNames_moved, List.filter_map, List.map_map, List.map_map]
  rfl

end Source

end Mender
