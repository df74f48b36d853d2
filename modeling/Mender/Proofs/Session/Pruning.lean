import Mender.Proofs.Session.Linewise

namespace Mender

variable {ω : Type}

/-- A line that is removed leaves none in its place. -/
theorem Repair.removeLine_mends {k : LineFault} (removes : canonicalRule k.rule = Repair.removeLine.rule) :
    Repair.removeLine.Mends k (fun _ => True) fun _ => [] where
  repairs := by
    rw [ofRule?, removes]
    decide
  needsPosition := rfl
  faultless _ _ member := by cases member
  unbroken _ _ _ member := by cases member
  edits := by
    intro t i front l back p _ cut line _
    refine ⟨⟨.delete, p.lineStart, none, none⟩, rfl, cut.line_le line, nofun, ?_, trivial⟩
    have index : p.line - 1 = i := by omega
    change t.withoutLine (p.line - 1) = _
    rw [index, cut.withoutLine_eq, List.append_nil]

/-- Nothing but the lines without the fault is left. -/
theorem LineFault.mend_removing (k : LineFault) (t : Text) :
    k.mend (fun _ => []) t = Text.ofLines (t.lines.filter fun l => !k.faulty l) := by
  refine congrArg Text.ofLines ?_
  induction t.lines with
  | nil => rfl
  | cons l ls ih => cases faulty : k.faulty l <;> simp [mendLine, faulty, ih]

/-- With the rules alone, every line that the oracle finds fault with under the name of an unused binding is
removed in one iteration, with one fix for each, and the other lines stay as they are. -/
theorem Session.run_removes {s : Session ω} {k : LineFault} {tuning : Tuning} {manual : Text}
    {client : Option (Client ω)} (alone : s.RulesAlone tuning manual client)
    (removes : canonicalRule k.rule = Repair.removeLine.rule)
    (reports : ∀ t w, ∃ found, (s.oracle.judge t w).1 = .ok found ∧ found.map Defect.remark = k.remarks t)
    (budget : 1 ≤ s.maxIterations) {w : ω} (going : s.cancelled w = false) :
    (s.run (Bench.fresh w)).1.AtOnce (Text.ofLines (s.text.lines.filter fun l => !k.faulty l))
      (s.text.lines.countP k.faulty) := by
  have remarks : ∀ t w, True → ∃ found, (s.oracle.judge t w).1 = .ok found ∧
      (found.map Defect.remark).Perm (k.remarks t) := by
    intro t w _
    obtain ⟨found, answer, same⟩ := reports t w
    exact ⟨found, answer, .of_eq same⟩
  have once := alone.run_mends (Repair.removeLine_mends removes) remarks trivial budget going
  rwa [k.mend_removing] at once

/-- Imports that nobody wants. -/
def imports : LineFault where
  rule := "F401"
  faulty l := l.startsWith "import "
  message l := "unused: " ++ l
  severity l := if l.endsWith "os" then .error else .warning
  faulty_nil := rfl

/-- The oracle that finds fault with imports, at the end of the line. -/
def importOracle : Oracle Unit := fun t w =>
  (.defects ((t.lines.zipIdx.filter fun p => imports.faulty p.1).map fun p =>
    ⟨imports.message p.1, imports.severity p.1,
      some ⟨p.2 + 1, p.1.length + 1, Position.one_le_succ _, Position.one_le_succ _⟩, some imports.rule, none⟩), w)

theorem importOracle_removes :
    ((unassisted "import a\nx\nimport os\n" importOracle).run (Bench.fresh ())).1.AtOnce "x\n" 2 ∧
      ((unassisted "import a" importOracle).run (Bench.fresh ())).1.AtOnce "" 1 := by
  have reports : ∀ t w, ∃ found, (importOracle.judge t w).1 = .ok found ∧
      found.map Defect.remark = imports.remarks t := by
    intro t w
    refine ⟨_, rfl, ?_⟩
    rw [List.map_map]
    rfl
  have alone (t : Text) := unassisted_rulesAlone t importOracle
  have two := Session.run_removes (alone "import a\nx\nimport os\n") (by decide) reports (Int.le_refl 1) (w := ()) rfl
  have one := Session.run_removes (alone "import a") (by decide) reports (Int.le_refl 1) (w := ()) rfl
  exact ⟨two, one⟩

end Mender
