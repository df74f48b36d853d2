import Mender.Source.Check
import Mender.Proofs.Ranking.Order

namespace Mender.Source

/-- The order of a report: by line, and within a line by column. -/
def standsUpTo (a b : Defect) : Bool :=
  a.line.getD 0 < b.line.getD 0 || (a.line.getD 0 = b.line.getD 0 && a.column.getD 0 ≤ b.column.getD 0)

theorem standsUpTo_iff {a b : Defect} : standsUpTo a b ↔ a.line.getD 0 < b.line.getD 0 ∨
    a.line.getD 0 = b.line.getD 0 ∧ a.column.getD 0 ≤ b.column.getD 0 := by
  simp [standsUpTo]

theorem standsUpTo_trans (a b c : Defect) (first : standsUpTo a b) (second : standsUpTo b c) : standsUpTo a c := by
  rw [standsUpTo_iff] at first second ⊢
  omega

theorem standsUpTo_total (a b : Defect) : standsUpTo a b || standsUpTo b a := by
  rw [Bool.or_eq_true, standsUpTo_iff, standsUpTo_iff]
  omega

/-- Sorting by place is stable, so it may come before or after a filter. -/
theorem filter_byPlace (p : Defect → Bool) (defects : List Defect) :
    (byPlace defects).filter p = byPlace (defects.filter p) :=
  filter_mergeSort standsUpTo_trans standsUpTo_total p defects

theorem byPlace_perm (defects : List Defect) : (byPlace defects).Perm defects := List.mergeSort_perm _ _

theorem byPlace_of_sorted {defects : List Defect} (sorted : defects.Pairwise (standsUpTo · ·)) :
    byPlace defects = defects :=
  List.mergeSort_of_pairwise sorted

/-- Defects at one place that come together are reported together, and the others as without them. -/
theorem byPlace_block {place : Position} {block : List Defect} (beside : ∀ d ∈ block, d.position = some place)
    (before after : List Defect) :
    ∃ front back, byPlace (before ++ block ++ after) = front ++ block ++ back ∧
      byPlace (before ++ after) = front ++ back := by
  refine mergeSort_block standsUpTo_trans standsUpTo_total (unusedDefect [] place) before after ?_
  intro d member
  have line : d.line = some place.line := congrArg (Option.map Position.line) (beside d member)
  have column : d.column = some place.column := congrArg (Option.map Position.column) (beside d member)
  rw [standsUpTo_iff, standsUpTo_iff, line, column]
  exact ⟨.inr ⟨rfl, le_rfl⟩, .inr ⟨rfl, le_rfl⟩⟩

theorem unusedDefect_inj {n n' : Text} {place place' : Position} :
    unusedDefect n place = unusedDefect n' place' ↔ n = n' ∧ place = place' := by
  simp [unusedDefect]

theorem unboundDefect_inj {n n' : Text} {place place' : Position} :
    unboundDefect n place = unboundDefect n' place' ↔ n = n' ∧ place = place' := by
  simp [unboundDefect]

theorem rule_unusedImports {t : Tree} {d : Defect} (member : d ∈ unusedImports t) :
    d.rule = some "unused-binding" := by
  obtain ⟨p, _, rfl⟩ := List.mem_map.mp member
  rfl

theorem rule_unboundNames {t : Tree} {d : Defect} (member : d ∈ unboundNames t) :
    d.rule = some "missing-binding" := by
  obtain ⟨p, _, rfl⟩ := List.mem_map.mp member
  rfl

/-- What the lines of a text add to the report. -/
def blankLines (blanks : Bool) (text : Text) : List Defect := if blanks then trailingBlanks text else []

theorem rule_blankLines {blanks : Bool} {text : Text} {d : Defect} (member : d ∈ blankLines blanks text) :
    d.rule = some "trailing-whitespace" := by
  obtain ⟨-, member⟩ := List.mem_ite_nil_right.mp member
  obtain ⟨p, -, rfl⟩ := List.mem_map.mp member
  rfl

/-- A tree that parses is checked for unused imports, unbound names and blanks, and the findings
sorted by place. -/
theorem check_tree (blanks : Bool) (t : Tree) (text : Text) :
    check blanks (.tree t) text = .ok (byPlace (unusedImports t ++ unboundNames t ++ blankLines blanks text)) := rfl

def underRule (rule : Text) (defects : List Defect) : List Defect := defects.filter fun d => d.rule = some rule

section Rule

variable {rule : Text} {defects : List Defect}

theorem mem_underRule {d : Defect} : d ∈ underRule rule defects ↔ d ∈ defects ∧ d.rule = some rule := by
  simp [underRule]

theorem underRule_append (defects' : List Defect) :
    underRule rule (defects ++ defects') = underRule rule defects ++ underRule rule defects' :=
  List.filter_append ..

theorem underRule_byPlace : underRule rule (byPlace defects) = byPlace (underRule rule defects) :=
  filter_byPlace _ defects

theorem underRule_self (all : ∀ d ∈ defects, d.rule = some rule) : underRule rule defects = defects :=
  List.filter_eq_self.mpr fun d member => decide_eq_true (all d member)

theorem underRule_other {rule' : Text} (other : rule' ≠ rule) (all : ∀ d ∈ defects, d.rule = some rule') :
    underRule rule defects = [] :=
  List.filter_eq_nil_iff.mpr fun d member => by simpa [all d member] using other

end Rule

section Report

variable {blanks : Bool} {t : Tree} {text : Text} {found : List Defect}

/-- The findings under one rule are those of its own check, by place. -/
theorem unused_of_check (checked : check blanks (.tree t) text = .ok found) :
    underRule "unused-binding" found = byPlace (unusedImports t) := by
  rw [check_tree, Except.ok.injEq] at checked
  subst checked
  rw [underRule_byPlace, underRule_append, underRule_append, underRule_self fun _ => rule_unusedImports,
    underRule_other (by decide) fun _ => rule_unboundNames, underRule_other (by decide) fun _ => rule_blankLines,
    List.append_nil, List.append_nil]

/-- As for unused imports, with the names that are not bound. -/
theorem unbound_of_check (checked : check blanks (.tree t) text = .ok found) :
    underRule "missing-binding" found = byPlace (unboundNames t) := by
  rw [check_tree, Except.ok.injEq] at checked
  subst checked
  rw [underRule_byPlace, underRule_append, underRule_append, underRule_self fun _ => rule_unboundNames,
    underRule_other (by decide) fun _ => rule_unusedImports, underRule_other (by decide) fun _ => rule_blankLines,
    List.nil_append, List.append_nil]

end Report

end Mender.Source
