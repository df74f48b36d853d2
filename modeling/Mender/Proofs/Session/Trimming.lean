import Mathlib.Data.List.DropRight
import Mender.Source.Check
import Mender.Proofs.Generator.Rules
import Mender.Proofs.Session.Linewise

namespace Mender

variable {ω : Type}

theorem Text.trimRight_trimRight (t : Text) : t.trimRight.trimRight = t.trimRight := by
  rw [trimRight, trimRightWhere, trimRight, trimRightWhere, List.reverse_reverse, List.dropWhile_idempotent]

/-- Blanks at the end of a line. -/
def trailing : LineFault where
  rule := Repair.stripTrailing.rule
  faulty l := l.trimRight ≠ l
  message _ := "Trailing whitespace"
  severity _ := .info
  faulty_nil := rfl

/-- A line that is stripped has no blanks at its end any more. -/
theorem Repair.stripTrailing_mends :
    Repair.stripTrailing.Mends trailing (fun t => t.isWritable) fun l => [l.trimRight] where
  repairs := by decide
  needsPosition := rfl
  faultless l m member := by
    rw [List.mem_singleton.mp member]
    exact decide_eq_false (not_not.mpr l.trimRight_trimRight)
  unbroken l unbroken m member := by
    rw [List.mem_singleton.mp member]
    exact fun feed => unbroken (l.trimRight_subset feed)
  edits := by
    intro t i front l back p whole cut line faulty
    obtain rfl : i = p.line - 1 := by omega
    have edits : Repair.stripTrailing.lineEdits p l = [contentEdit p l.trimRight] :=
      if_neg (of_decide_eq_true faulty)
    have stripped : l.trimRight.isWritable := by
      have member : l ∈ t.lines := cut.lines ▸ List.mem_append_right _ List.mem_cons_self
      exact Text.isWritable_of_subset (Text.isWritable_of_mem_lines whole member) l.trimRight_subset
    have written : ∀ u ∈ (contentEdit p l.trimRight).text, Text.isWritable u := by
      intro u text
      cases text
      exact stripped
    refine ⟨contentEdit p l.trimRight, edits, line_le cut, written, ?_, Edit.isWritable_onText whole written⟩
    rw [onText_contentEdit cut, List.append_assoc, List.singleton_append]

theorem mend_trailing (t : Text) :
    trailing.mend (fun l => [l.trimRight]) t = Text.ofLines (t.lines.map Text.trimRight) := by
  have stripped : ∀ l, trailing.mendLine (fun l => [l.trimRight]) l = [l.trimRight] := by
    intro l
    unfold LineFault.mendLine
    split_ifs with faulty
    · rfl
    · have same : l.trimRight = l := not_not.mp fun differ => faulty (decide_eq_true differ)
      rw [same]
  refine congrArg Text.ofLines ?_
  rw [List.flatMap_congr fun l _ => stripped l, List.map_eq_flatMap]

/-- Without defects that the parse shows, the oracle for modules remarks on blanks at the ends of lines only. -/
theorem Source.judge_of_blank {parse : Text → Parse} {t : Text} {tree : Tree} (parsed : parse t = .tree tree)
    (used : unusedImports tree = []) (bound : unboundNames tree = []) (w : ω) :
    ∃ found, (Oracle.judge (Source.oracle true parse) t w).1 = .ok found ∧
      (found.map Defect.remark).Perm (trailing.remarks t) := by
  have checked : check true (parse t) t = .ok (byPlace (trailingBlanks t)) := by
    rw [check, parsed, Parse.defects, used, bound]
    rfl
  refine ⟨byPlace (trailingBlanks t), ?_, ?_⟩
  · simp only [Oracle.judge, Source.oracle, checked]
    rfl
  · have same : (trailingBlanks t).map Defect.remark = trailing.remarks t := by
      rw [trailingBlanks, List.map_map]
      rfl
    rw [← same]
    exact (List.mergeSort_perm _ _).map _

/-- Where the parse shows no defects, the rules alone strip every line of the blanks at its end in one iteration,
with one fix for each line that has some. -/
theorem Session.run_strips {s : Session ω} {tuning : Tuning} {manual : Text} {client : Option (Client ω)}
    (alone : s.RulesAlone tuning manual client) {parse : Text → Source.Parse}
    (oracle : s.oracle = Source.oracle true parse)
    (blank : ∀ t, ∃ tree, parse t = .tree tree ∧ Source.unusedImports tree = [] ∧ Source.unboundNames tree = [])
    (whole : s.text.isWritable) (budget : 1 ≤ s.maxIterations) {w : ω} (going : s.cancelled w = false) :
    (s.run (Bench.fresh w)).1.AtOnce (Text.ofLines (s.text.lines.map Text.trimRight))
      (s.text.lines.countP fun l => l.trimRight ≠ l) := by
  have remarks : ∀ t w, t.isWritable = true → ∃ found, (s.oracle.judge t w).1 = .ok found ∧
      (found.map Defect.remark).Perm (trailing.remarks t) := by
    intro t w _
    obtain ⟨tree, parsed, used, bound⟩ := blank t
    rw [oracle]
    exact Source.judge_of_blank parsed used bound w
  have once := alone.run_mends Repair.stripTrailing_mends remarks whole budget going
  rwa [mend_trailing] at once

/-- The oracle for modules with a parser that sees nothing in any text. -/
def proofreader : Oracle Unit := Source.oracle true fun _ => .tree (.node .other [])

theorem proofreader_strips :
    ((unassisted "a \t\n\n b\n " proofreader).run (Bench.fresh ())).1.AtOnce "a\n\n b\n" 2 := by
  have blank : ∀ t : Text, ∃ tree, (fun _ : Text => Source.Parse.tree (.node .other [])) t = .tree tree ∧
      Source.unusedImports tree = [] ∧ Source.unboundNames tree = [] := fun _ => ⟨_, rfl, by decide, by decide⟩
  exact Session.run_strips (unassisted_rulesAlone "a \t\n\n b\n " proofreader) rfl blank (by decide)
    (Int.le_refl 1) rfl

end Mender
