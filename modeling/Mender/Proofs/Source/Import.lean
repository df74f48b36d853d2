import Mender.Proofs.Source.Slot
import Mender.Proofs.Source.Unbound
import Mender.Proofs.Source.Unused

namespace Mender.Source

open Mender.Source.Tree

/-- Nothing in the tree uses a name, and no word stands in it. -/
structure Silent (t : Tree) : Prop where
  unused : ∀ n, n ∉ t.usedNames
  wordless : ∀ n, Form.word n ∉ t.forms

namespace Slot

variable {held : List Tree}

theorem word_mem_forms_fill (slot : Slot) (silent : ∀ t ∈ held, Silent t) (n : Text) :
    Form.word n ∈ (slot.fill held).forms ↔ Form.word n ∈ (slot.fill []).forms := by
  rw [(slot.forms_fill held).mem_iff, List.mem_append, or_iff_right]
  intro member
  obtain ⟨t, inside, word⟩ := List.mem_flatMap.mp member
  exact (silent t inside).wordless n word

/-- Silent statements make no difference to the names that are used, even in the value of an assignment. -/
theorem mem_usedNames_fill (slot : Slot) (silent : ∀ t ∈ held, Silent t) {n : Text} :
    n ∈ (slot.fill held).usedNames ↔ n ∈ (slot.fill []).usedNames := by
  induction slot with
  | here f block before after =>
    have below : (∃ t ∈ before ++ held ++ after, n ∈ t.usedNames) ↔ ∃ t ∈ before ++ [] ++ after, n ∈ t.usedNames := by
      simp only [List.mem_append, or_and_right, exists_or, List.not_mem_nil, or_false]
      refine or_congr_left (or_iff_left ?_)
      rintro ⟨t, inside, used⟩
      exact (silent t inside).unused n used
    rw [fill, fill, mem_usedNames_node, mem_usedNames_node, below, uses_of_ne block]
  | inside f before inner after ih =>
    have below : (∃ t ∈ before ++ inner.fill held :: after, n ∈ t.usedNames) ↔
        ∃ t ∈ before ++ inner.fill [] :: after, n ∈ t.usedNames := by
      simp only [List.mem_append, List.mem_cons, or_and_right, exists_or, exists_eq_left, ih]
    rw [fill, fill, mem_usedNames_node, mem_usedNames_node, below]
    refine or_congr_left ?_
    by_cases assigns : f = .assignment
    · cases assigns
      exact mem_exported_congr (inner.form_fill held) (inner.word_mem_forms_fill silent) before after
    · rw [uses_of_ne assigns]

/-- Trees that use no names and hold no words do not change which names are used. -/
theorem uses_fill (slot : Slot) (silent : ∀ t ∈ held, Silent t) {n : Text} :
    (slot.fill held).Uses n ↔ (slot.fill []).Uses n := by
  rw [← mem_usedNames, ← mem_usedNames, slot.mem_usedNames_fill silent]

/-- A tree in a slot adds its names to those bound around it. -/
theorem mem_boundNames_fill (slot : Slot) {n : Text} :
    n ∈ (slot.fill held).boundNames ↔ (∃ t ∈ held, n ∈ t.boundNames) ∨ n ∈ (slot.fill []).boundNames := by
  simp only [mem_boundNames_iff_forms, (slot.forms_fill held).mem_iff, List.mem_append, List.mem_flatMap]
  constructor
  · rintro ⟨f, ⟨t, inside, form⟩ | rest, binds⟩
    · exact Or.inl ⟨t, inside, f, form, binds⟩
    · exact Or.inr ⟨f, rest, binds⟩
  · rintro (⟨t, inside, f, form, binds⟩ | ⟨f, rest, binds⟩)
    · exact ⟨f, Or.inl ⟨t, inside, form⟩, binds⟩
    · exact ⟨f, Or.inr rest, binds⟩

end Slot

/-- The defects of an import of names that nothing uses. -/
def importDefects (place : Position) (aliases : List (Text × Option Text)) : List Defect :=
  aliases.map fun a => unusedDefect (Form.aliasName a.1 a.2) place

section Statement

variable {origin : Option Text} {place : Position} {aliases : List (Text × Option Text)}

theorem mem_forms_importStatement {f : Form} : f ∈ (importStatement origin place aliases).forms ↔
    f = .importing origin place ∨ ∃ a ∈ aliases, f = .alias a.1 a.2 := by
  rw [importStatement, forms_node, List.mem_cons, List.flatMap_map, List.mem_flatMap]
  exact or_congr_right (exists_congr fun a => and_congr_right fun _ => List.mem_singleton)

theorem importedHere_importStatement (origin : Option Text) (place : Position) (aliases : List (Text × Option Text)) :
    (importStatement origin place aliases).importedHere = aliases.map fun a => ⟨origin, place, a.1, a.2⟩ := by
  rw [importStatement, importedHere, List.filterMap_map]
  exact List.filterMap_eq_map_iff_forall_eq_some.mpr fun a _ => rfl

theorem mem_boundNames_importStatement {n : Text} :
    n ∈ (importStatement origin place aliases).boundNames ↔ ∃ a ∈ aliases, Form.aliasName a.1 a.2 = n := by
  rw [mem_boundNames_iff_forms]
  constructor
  · rintro ⟨f, inside, binds⟩
    obtain rfl | ⟨a, member, rfl⟩ := mem_forms_importStatement.mp inside
    · cases binds
    · exact ⟨a, member, (List.mem_singleton.mp binds).symm⟩
  · rintro ⟨a, member, rfl⟩
    exact ⟨_, mem_forms_importStatement.mpr (Or.inr ⟨a, member, rfl⟩), List.mem_singleton_self _⟩

theorem silent_importStatement : Silent (importStatement origin place aliases) where
  unused := by
    intro n used
    rw [importStatement, mem_usedNames_node] at used
    obtain here | ⟨t, child, below⟩ := used
    · cases here
    · obtain ⟨a, -, rfl⟩ := List.mem_map.mp child
      obtain here | ⟨t, child, -⟩ := mem_usedNames_node.mp below
      · cases here
      · cases child
  wordless := by
    intro n word
    obtain here | ⟨a, -, below⟩ := mem_forms_importStatement.mp word
    · cases here
    · cases below

namespace Slot

theorem uses_fill_import (slot : Slot) {n : Text} :
    (slot.fill [importStatement origin place aliases]).Uses n ↔ (slot.fill []).Uses n :=
  slot.uses_fill (List.forall_mem_singleton.mpr silent_importStatement)

/-- An import elsewhere does not change whether an alias is idle. -/
theorem idle_fill_import (slot : Slot) {a : ImportedName} :
    (slot.fill [importStatement origin place aliases]).Idle a ↔ (slot.fill []).Idle a :=
  and_congr_right fun _ => not_congr slot.uses_fill_import

theorem mem_boundNames_fill_import (slot : Slot) {n : Text} :
    n ∈ (slot.fill [importStatement origin place aliases]).boundNames ↔
      (∃ a ∈ aliases, Form.aliasName a.1 a.2 = n) ∨ n ∈ (slot.fill []).boundNames := by
  rw [mem_boundNames_fill]
  simp only [List.mem_singleton, exists_eq_left, mem_boundNames_importStatement]

/-- An import loads nothing. -/
theorem loadedNames_fill_import (slot : Slot) :
    (slot.fill [importStatement origin place aliases]).loadedNames = (slot.fill []).loadedNames := by
  have overlooks : Overlooks (fun s : Tree => s.form.loads?.toList) [importStatement origin place aliases] :=
    ⟨fun _ _ _ _ => rfl, fun _ _ _ _ _ _ => rfl⟩
  have read : ∀ t : Tree, t.loadedNames = t.walk.flatMap fun s => s.form.loads?.toList := fun t =>
    List.filterMap_eq_flatMap_toList _ _
  rw [read, read]
  refine slot.flatMap_walk_fill overlooks (List.forall_mem_singleton.mpr fun s inside => ?_)
  obtain here | ⟨a, -, below⟩ := mem_forms_importStatement.mp (mem_forms.mpr ⟨s, inside, rfl⟩)
  · rw [here]
    rfl
  · rw [below]
    rfl

/-- The names of an import are imported in one piece. -/
theorem exists_importedHere_fill_import (slot : Slot) (origin : Option Text) (place : Position)
    (aliases : List (Text × Option Text)) :
    ∃ front back, (slot.fill []).walk.flatMap importedHere = front ++ back ∧
      (slot.fill [importStatement origin place aliases]).walk.flatMap importedHere =
        front ++ (aliases.map fun a => ⟨origin, place, a.1, a.2⟩) ++ back := by
  have overlooks : Overlooks importedHere [importStatement origin place aliases] := by
    constructor
    · intro f before after _
      cases f with
      | importing =>
        rw [importedHere, importedHere, List.append_assoc, List.filterMap_append, List.filterMap_append,
          List.filterMap_append]
        rfl
      | _ => rfl
    · intro f before t u after alike
      cases f with
      | importing =>
        simp only [importedHere, List.filterMap_append, List.filterMap_cons, alike]
      | _ => rfl
  have leaves : ∀ t ∈ aliases.map fun a => node (.alias a.1 a.2) [], ∀ s ∈ t.nodes, importedHere s = [] := by
    intro t child s inside
    obtain ⟨a, -, rfl⟩ := List.mem_map.mp child
    rw [nodes_node, List.flatMap_nil, List.mem_singleton] at inside
    rw [inside]
    rfl
  obtain ⟨front, back, less, more⟩ := slot.exists_flatMap_walk_fill overlooks leaves
  rw [← importStatement, importedHere_importStatement] at more
  exact ⟨front, back, less, more⟩

/-- The imports that nothing uses are those of the tree without the import, and its own that are idle there. -/
theorem exists_unusedImports_fill_import (slot : Slot) (origin : Option Text) (place : Position)
    (aliases : List (Text × Option Text)) :
    ∃ front back, unusedImports (slot.fill []) = front ++ back ∧
      unusedImports (slot.fill [importStatement origin place aliases]) =
        front ++ ((aliases.map fun a => (⟨origin, place, a.1, a.2⟩ : ImportedName)).filter fun a =>
          (slot.fill []).Idle a).map ImportedName.defect ++ back := by
  obtain ⟨front, back, less, more⟩ := slot.exists_importedHere_fill_import origin place aliases
  have same : (fun a => decide ((slot.fill [importStatement origin place aliases]).Idle a)) =
      fun a => decide ((slot.fill []).Idle a) :=
    funext fun a => decide_eq_decide.mpr slot.idle_fill_import
  let told (l : List ImportedName) : List Defect := (l.filter fun a => (slot.fill []).Idle a).map ImportedName.defect
  refine ⟨told front, told back, ?_, ?_⟩
  · rw [unusedImports_eq, less, List.filter_append, List.map_append]
  · rw [unusedImports_eq, more, same, List.filter_append, List.filter_append, List.map_append, List.map_append]

end Slot

end Statement

end Mender.Source
