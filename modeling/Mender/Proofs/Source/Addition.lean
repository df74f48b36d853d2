import Mender.Proofs.Edit.Locality
import Mender.Proofs.Generator.Binding
import Mender.Proofs.Source.Import
import Mender.Proofs.Source.Moved

namespace Mender

theorem Position.line_down_one (p : Position) : (p.down 1).line = p.line + 1 := by
  have := p.one_le_line
  simp only [Position.down]
  omega

theorem Position.column_down (p : Position) (lines : Int) : (p.down lines).column = p.column := rfl

/-- What holds of all identifiers: there is no quote, no blank and no point in them. -/
structure Text.IsPlainName (n : Text) : Prop where
  some : n ≠ []
  quoteless : ∀ c ∈ n, c.isQuote = false
  blankless : ∀ c ∈ n, c.isBlank = false
  pointless : CodePoint.ofChar '.' ∉ n

namespace Text.IsPlainName

variable {n : Text} (plain : n.IsPlainName)

include plain

theorem quotable : n.IsQuotable := ⟨plain.some, plain.quoteless⟩

theorem aliasName_eq : Source.Form.aliasName n none = n :=
  isFirstPart_iff.mp ⟨plain.pointless, Or.inl rfl⟩

theorem trimRight_importLine : (importLine n).trimRight = importLine n := by
  obtain ⟨front, c, rfl⟩ := (List.eq_nil_or_concat' n).resolve_left plain.some
  have last : ¬c.isBlank = true := by simp [plain.blankless c (by simp)]
  rw [trimRight, trimRightWhere, importLine, ← List.append_assoc, List.reverse_append, List.reverse_singleton,
    List.singleton_append, List.dropWhile_cons_of_neg last]
  simp

theorem lines_importLine (t : Text) : (importLine n ++ "\n" ++ t).lines = importLine n :: t.lines := by
  have unbroken : lineFeed ∉ importLine n := by
    intro member
    obtain lead | here := List.mem_append.mp member
    · exact absurd lead (by decide)
    · exact absurd (plain.blankless _ here) (by decide)
  have single : (importLine n).lines = [importLine n] := by
    rw [← lines_ofLines (List.forall_mem_singleton.mpr unbroken) (List.cons_ne_nil _ _), ofLines_singleton]
  have feed : (importLine n ++ "\n" ++ t : Text) = importLine n ++ lineFeed :: t := by
    rw [List.append_assoc]
    rfl
  rw [feed, lines_append_lineFeed, single, List.singleton_append]

end Text.IsPlainName

namespace Source

theorem standsUpTo_down (d e : Defect) :
    standsUpTo (d.moved (·.down 1)) (e.moved (·.down 1)) = standsUpTo d e := by
  obtain ⟨_, _, p, _, _⟩ := d
  obtain ⟨_, _, q, _, _⟩ := e
  rw [Bool.eq_iff_iff, standsUpTo_iff, standsUpTo_iff]
  -- A defect without a position stands in front of all others, which start at line one.
  cases p with
  | none =>
    cases q with
    | none => rfl
    | some q =>
      have := q.one_le_line
      simp only [Defect.moved, Defect.line, Defect.column, Option.map_none, Option.map_some, Option.getD_none,
        Option.getD_some, Position.line_down_one, Position.column_down]
      omega
  | some p =>
    cases q with
    | none =>
      have := p.one_le_line
      simp only [Defect.moved, Defect.line, Defect.column, Option.map_none, Option.map_some, Option.getD_none,
        Option.getD_some, Position.line_down_one, Position.column_down]
      omega
    | some q =>
      simp only [Defect.moved, Defect.line, Defect.column, Option.map_some, Option.getD_some, Position.line_down_one,
        Position.column_down]
      omega

/-- Moving all defects down by a line keeps their order. -/
theorem byPlace_down (defects : List Defect) :
    byPlace (defects.map (Defect.moved (·.down 1))) = (byPlace defects).map (Defect.moved (·.down 1)) :=
  (List.map_mergeSort fun d _ e _ => (standsUpTo_down d e).symm).symm

theorem trailingDefect_succ (number : Nat) (line : Text) :
    trailingDefect (number + 1) line = (trailingDefect number line).moved (·.down 1) := by
  simp only [trailingDefect, Defect.moved, Option.map_some, Position.down, Defect.mk.injEq, Option.some.injEq,
    Position.mk.injEq, and_true, true_and]
  omega

/-- The line of the import ends in no blank, and the others are one line further down. -/
theorem blankLines_importLine {n : Text} (plain : n.IsPlainName) (blanks : Bool) (t : Text) :
    blankLines blanks (importLine n ++ "\n" ++ t) = (blankLines blanks t).map (Defect.moved (·.down 1)) := by
  have trimmed : ¬(importLine n).trimRight ≠ importLine n := not_not.mpr plain.trimRight_importLine
  have all : trailingBlanks (importLine n ++ "\n" ++ t) = (trailingBlanks t).map (Defect.moved (·.down 1)) := by
    rw [trailingBlanks, trailingBlanks, plain.lines_importLine, List.zipIdx_cons,
      List.filter_cons_of_neg (by simpa using trimmed), List.zipIdx_succ, List.filter_map, List.map_map, List.map_map]
    exact List.map_congr_left fun p _ => trailingDefect_succ p.2 p.1
  cases blanks with
  | false => rfl
  | true => exact all

section Known

variable (slot : Slot) (origin : Option Text) (place : Position) (dotted : Text) (renamed : Option Text)

/-- An import of one name takes the defects of this name away. -/
theorem missing_fill_import : (slot.fill [importStatement origin place [(dotted, renamed)]]).missing =
    (slot.fill []).missing.filter fun p => p.1 ≠ Form.aliasName dotted renamed := by
  rw [Tree.missing, slot.loadedNames_fill_import]
  refine firstByKey_of_known fun p _ => ?_
  rw [List.mem_append, List.mem_append, slot.mem_boundNames_fill_import, ← or_assoc]
  simp [eq_comm]

theorem unusedImports_fill_of_used (used : (slot.fill []).Uses (Form.aliasName dotted renamed)) :
    unusedImports (slot.fill [importStatement origin place [(dotted, renamed)]]) = unusedImports (slot.fill []) := by
  obtain ⟨front, back, less, more⟩ := slot.exists_unusedImports_fill_import origin place [(dotted, renamed)]
  have busy : ¬(slot.fill []).Idle ⟨origin, place, dotted, renamed⟩ := fun idle => idle.2 used
  rw [List.map_singleton, List.filter_cons_of_neg (by simpa using busy), List.filter_nil, List.map_nil,
    List.append_nil] at more
  rw [less, more]

end Known

def moduleTree (body : List Tree) : Tree := .node .other body

/-- The module with an import of a name on a line of its own in front. -/
def moduleWithImport (n : Text) (body : List Tree) : Tree :=
  moduleTree (importStatement none .textStart [(n, none)] :: body.map (Tree.moved (·.down 1)))

def moduleTop (body : List Tree) : Slot := .here .other nofun [] body

section Module

variable {n : Text} (plain : n.IsPlainName) (body : List Tree)

theorem fill_moduleTop : (moduleTop (body.map (Tree.moved (·.down 1)))).fill [] = (moduleTree body).moved (·.down 1) :=
  (Tree.moved_node (·.down 1) .other body).symm

include plain

/-- The import takes every use of its name off the missing ones and moves the others down. -/
theorem missing_moduleWithImport : (moduleWithImport n body).missing =
    ((moduleTree body).missing.filter fun p => p.1 ≠ n).map fun p => (p.1, p.2.down 1) := by
  have filled := missing_fill_import (moduleTop (body.map (Tree.moved (·.down 1)))) none .textStart n none
  rw [plain.aliasName_eq, fill_moduleTop, Tree.missing_moved, List.filter_map] at filled
  exact filled

/-- The import is used, so the unused ones are those of before, one line down. -/
theorem unusedImports_moduleWithImport (used : (moduleTree body).Uses n) :
    unusedImports (moduleWithImport n body) = (unusedImports (moduleTree body)).map (Defect.moved (·.down 1)) := by
  have usedBelow : ((moduleTop (body.map (Tree.moved (·.down 1)))).fill []).Uses (Form.aliasName n none) := by
    rw [plain.aliasName_eq, fill_moduleTop, ← Tree.mem_usedNames, Tree.usedNames_moved, Tree.mem_usedNames]
    exact used
  have filled := unusedImports_fill_of_used _ none .textStart n none usedBelow
  rw [fill_moduleTop, unusedImports_moved] at filled
  exact filled

end Module

/-- A missing name stands among the missing names once. -/
theorem exists_missing_eq {t : Tree} {n : Text} {place : Position} (member : (n, place) ∈ t.missing) :
    ∃ front back, t.missing = front ++ (n, place) :: back ∧ t.missing.filter (fun p => p.1 ≠ n) = front ++ back := by
  obtain ⟨front, back, parts⟩ := List.append_of_mem member
  have distinct := t.nodup_missing
  rw [parts, List.map_append, List.map_cons, List.nodup_middle, List.nodup_cons, ← List.map_append] at distinct
  have others : ∀ p ∈ front ++ back, p.1 ≠ n := by
    intro p inside same
    have there := List.mem_map_of_mem (f := Prod.fst) inside
    rw [same] at there
    exact distinct.1 there
  refine ⟨front, back, parts, ?_⟩
  rw [parts, List.filter_append, List.filter_cons_of_neg (by simp), ← List.filter_append]
  exact List.filter_eq_self.mpr fun p inside => decide_eq_true (others p inside)

/-- What is left of the report on a module without one missing name. -/
theorem exists_check_without {t : Tree} {n : Text} {place : Position} {blanks : Bool} {text : Text}
    {found : List Defect} (checked : check blanks (.tree t) text = .ok found) (missing : (n, place) ∈ t.missing) :
    ∃ front back, found = front ++ unboundDefect n place :: back ∧
      byPlace (unusedImports t ++ (t.missing.filter fun p => p.1 ≠ n).map (fun p => unboundDefect p.1 p.2) ++
        blankLines blanks text) = front ++ back := by
  obtain ⟨before, after, parts, others⟩ := exists_missing_eq missing
  let tell (p : Text × Position) : Defect := unboundDefect p.1 p.2
  have beside : ∀ d ∈ [unboundDefect n place], d.position = some place := List.forall_mem_singleton.mpr rfl
  obtain ⟨front, back, whole, without⟩ :=
    byPlace_block beside (unusedImports t ++ before.map tell) (after.map tell ++ blankLines blanks text)
  refine ⟨front, back, ?_, ?_⟩
  · have arranged : unusedImports t ++ (before ++ (n, place) :: after).map tell ++ blankLines blanks text =
        unusedImports t ++ before.map tell ++ [unboundDefect n place] ++
          (after.map tell ++ blankLines blanks text) := by
      simp [tell]
    rw [check_tree, Except.ok.injEq, unboundNames_eq, parts, arranged, whole] at checked
    rw [← checked, List.append_assoc, List.singleton_append]
  · rw [others, ← without, List.map_append]
    simp only [List.append_assoc, tell]

/-- The rule for missing bindings, with the standard template, puts an import of a missing name in front of the text,
unless a line of the text is that import already. With this import in front, the module has the defects that it had
but for the one of the name, all one line further down. -/
theorem check_with_import {body : List Tree} {n : Text} {place : Position} (plain : n.IsPlainName) {blanks : Bool}
    {text : Text} {found : List Defect} (checked : check blanks (.tree (moduleTree body)) text = .ok found)
    (told : unboundDefect n place ∈ found) :
    ruleFixes (.fit Tuning.standardTemplate) (unboundDefect n place) text =
        .ok (if importLine n ∈ text.lines then [] else [bindingFix n place], none) ∧
      (bindingFix n place).apply text = .ok (importLine n ++ "\n" ++ text) ∧
      ∃ front back, found = front ++ unboundDefect n place :: back ∧
        (∀ other, unboundDefect n other ∉ front ++ back) ∧
        check blanks (.tree (moduleWithImport n body)) (importLine n ++ "\n" ++ text) =
          .ok ((front ++ back).map (Defect.moved (·.down 1))) := by
  have missing := (unboundDefect_mem_check checked).mp told
  have used : (moduleTree body).Uses n := .loaded (Tree.of_mem_missing missing).1
  obtain ⟨front, back, parts, left⟩ := exists_check_without checked missing
  have tells := tellsLoads_of_check checked
  rw [parts] at tells
  refine ⟨ruleFixes_unbound plain.quotable place text, apply_bindingFix n place text, ?_⟩
  refine ⟨front, back, parts, tells.alone, ?_⟩
  have unbound : unboundNames (moduleWithImport n body) =
      (((moduleTree body).missing.filter fun p => p.1 ≠ n).map fun p => unboundDefect p.1 p.2).map
        (Defect.moved (·.down 1)) := by
    rw [unboundNames_eq, missing_moduleWithImport plain, List.map_map, List.map_map]
    rfl
  rw [check_tree, unusedImports_moduleWithImport plain body used, unbound, blankLines_importLine plain,
    ← List.map_append, ← List.map_append, byPlace_down, left]

/-- A module that imports a name without using it, and uses one without importing it. -/
def mixedUp : List Tree :=
  [importStatement none .textStart [("sys", none)], .node .other [loadTree "os" (.behind 1 0)]]

def mixedUpFound : List Defect :=
  [unusedDefect "sys" .textStart, unboundDefect "os" (.behind 1 0)]

theorem mixedUp_with_import :
    check true (.tree (moduleTree mixedUp)) "import sys\nos\n" = .ok mixedUpFound ∧
      ruleFixes (.fit Tuning.standardTemplate) (unboundDefect "os" ⟨2, 1, by decide, by decide⟩) "import sys\nos\n" =
        .ok ([bindingFix "os" ⟨2, 1, by decide, by decide⟩], none) ∧
      ∃ left, check true (.tree (moduleWithImport "os" mixedUp)) "import os\nimport sys\nos\n" = .ok left ∧
        left.length + 1 = mixedUpFound.length := by
  have listed : unusedImports (moduleTree mixedUp) ++ unboundNames (moduleTree mixedUp) ++
      blankLines true "import sys\nos\n" = mixedUpFound := by decide +kernel
  have checked : check true (.tree (moduleTree mixedUp)) "import sys\nos\n" = .ok mixedUpFound := by
    rw [check_tree, listed, byPlace_of_sorted (by decide +kernel)]
  have plain : ("os" : Text).IsPlainName := ⟨by decide, by decide, by decide, by decide⟩
  have told : unboundDefect "os" ⟨2, 1, by decide, by decide⟩ ∈ mixedUpFound := by decide
  obtain ⟨fixes, -, front, back, found, -, repaired⟩ := check_with_import plain checked told
  refine ⟨checked, fixes, _, repaired, ?_⟩
  rw [found, List.length_map, List.length_append, List.length_append, List.length_cons]
  omega

end Source

end Mender
