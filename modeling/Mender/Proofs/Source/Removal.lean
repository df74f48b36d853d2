import Mender.Proofs.Source.Import

namespace Mender.Source

section Removal

variable (slot : Slot) {origin : Option Text} {place : Position} {aliases : List (Text × Option Text)}

/-- An unused import binds nothing that is loaded. -/
theorem unboundNames_fill_import
    (unused : ∀ a ∈ aliases, ¬(slot.fill [importStatement origin place aliases]).Uses (Form.aliasName a.1 a.2)) :
    unboundNames (slot.fill [importStatement origin place aliases]) = unboundNames (slot.fill []) := by
  rw [unboundNames_eq, unboundNames_eq, Tree.missing, slot.loadedNames_fill_import]
  refine congrArg (List.map _) (firstByKey_congr ?_)
  rintro ⟨n, where'⟩ loaded
  rw [List.mem_append, List.mem_append, slot.mem_boundNames_fill_import]
  refine or_congr_left (or_iff_right ?_)
  rintro ⟨a, member, rfl⟩
  have load := Tree.mem_loadedNames.mp loaded
  exact unused a member (slot.uses_fill_import.mpr (.loaded load))

theorem exists_unusedImports_fill_of_unused (star : ∀ a ∈ aliases, a.1 ≠ "*")
    (unused : ∀ a ∈ aliases, ¬(slot.fill [importStatement origin place aliases]).Uses (Form.aliasName a.1 a.2)) :
    ∃ front back, unusedImports (slot.fill []) = front ++ back ∧
      unusedImports (slot.fill [importStatement origin place aliases]) =
        front ++ importDefects place aliases ++ back := by
  obtain ⟨front, back, less, more⟩ := slot.exists_unusedImports_fill_import origin place aliases
  have idle : ∀ a ∈ aliases.map fun a => (⟨origin, place, a.1, a.2⟩ : ImportedName), (slot.fill []).Idle a := by
    intro b imported
    obtain ⟨a, member, rfl⟩ := List.mem_map.mp imported
    exact slot.idle_fill_import.mp ⟨star a member, unused a member⟩
  rw [List.filter_eq_self.mpr fun a member => decide_eq_true (idle a member), List.map_map] at more
  exact ⟨front, back, less, more⟩

/-- An import of which all names are told to be unused can be taken away from wherever it stands. The rest of the
module gets the defects that it had, in the order that it had them. -/
theorem check_without_import {blanks : Bool} {text : Text} {found : List Defect}
    (checked : check blanks (.tree (slot.fill [importStatement origin place aliases])) text = .ok found)
    (told : ∀ a ∈ aliases, a.1 ≠ "*" ∧ unusedDefect (Form.aliasName a.1 a.2) place ∈ found) (rest : Text) :
    ∃ left, check blanks (.tree (slot.fill [])) rest = .ok left ∧
      underRule "missing-binding" left = underRule "missing-binding" found ∧
      (∃ front back, underRule "unused-binding" found = front ++ importDefects place aliases ++ back ∧
        underRule "unused-binding" left = front ++ back) ∧
      (blankLines blanks text = blankLines blanks rest → found.length = left.length + aliases.length ∧
        ∃ front back, found = front ++ importDefects place aliases ++ back ∧ left = front ++ back) := by
  have unused : ∀ a ∈ aliases,
      ¬(slot.fill [importStatement origin place aliases]).Uses (Form.aliasName a.1 a.2) := by
    intro a member
    have inside := mem_underRule.mpr ⟨(told a member).2, rfl⟩
    rw [unused_of_check checked, (byPlace_perm _).mem_iff] at inside
    exact not_uses_of_mem_unusedImports inside
  have unbound := unboundNames_fill_import slot unused
  obtain ⟨front, back, less, more⟩ :=
    exists_unusedImports_fill_of_unused slot (fun a member => (told a member).1) unused
  have beside : ∀ d ∈ importDefects place aliases, d.position = some place := by
    intro d member
    obtain ⟨a, -, rfl⟩ := List.mem_map.mp member
    rfl
  have checkedLeft := check_tree blanks (slot.fill []) rest
  refine ⟨_, checkedLeft, ?_, ?_, ?_⟩
  · rw [unbound_of_check checked, unbound_of_check checkedLeft, unbound]
  · rw [unused_of_check checked, unused_of_check checkedLeft, less, more]
    exact byPlace_block beside front back
  · intro lines
    obtain ⟨front', back', whole, without⟩ :=
      byPlace_block beside front (back ++ unboundNames (slot.fill []) ++ blankLines blanks rest)
    rw [check_tree, Except.ok.injEq, more, unbound, lines] at checked
    rw [less]
    simp only [List.append_assoc] at checked whole without ⊢
    rw [whole] at checked
    rw [without, ← checked]
    refine ⟨?_, front', back', rfl, rfl⟩
    rw [importDefects]
    simp only [List.length_append, List.length_map]
    omega

end Removal

/-- The body of a function, with a call of a name that nothing binds. -/
def functionBody : Slot :=
  .inside .other []
    (.here (.definition "f") (by decide) [] [.node .other [loadTree "g" (.behind 2 4)]]) []

/-- An import of two names in front of the call. -/
def functionImport : Tree :=
  importStatement none (.behind 1 4) [("os.path", none), ("sys", some "system")]

def functionFound : List Defect :=
  [unusedDefect "os" (.behind 1 4), unusedDefect "system" (.behind 1 4), unboundDefect "g" (.behind 2 4)]

theorem functionBody_without_import :
    check true (.tree (functionBody.fill [functionImport]))
        "def f():\n    import os.path, sys as system\n    g()\n" = .ok functionFound ∧
      ∃ left, check true (.tree (functionBody.fill [])) "def f():\n    g()\n" = .ok left ∧
        functionFound.length = left.length + 2 ∧
        underRule "missing-binding" left = [unboundDefect "g" ⟨3, 5, by decide, by decide⟩] := by
  have listed : unusedImports (functionBody.fill [functionImport]) ++ unboundNames (functionBody.fill [functionImport])
      ++ blankLines true "def f():\n    import os.path, sys as system\n    g()\n" = functionFound := by decide +kernel
  have checked : check true (.tree (functionBody.fill [functionImport]))
      "def f():\n    import os.path, sys as system\n    g()\n" = .ok functionFound := by
    rw [check_tree, listed, byPlace_of_sorted (by decide +kernel)]
  obtain ⟨left, checkedLeft, missing, -, lines⟩ :=
    check_without_import functionBody checked (by decide +kernel) "def f():\n    g()\n"
  exact ⟨checked, left, checkedLeft, (lines (by decide +kernel)).1, missing.trans (by decide +kernel)⟩

end Mender.Source
