import Mender.Generator.Rules
import Mender.Proofs.Edit
import Mender.Proofs.Text.Quoted
import Mender.Source.Names
import Mender.Tuning

namespace Mender

def importLine (n : Text) : Text := "import " ++ n

/-- The standard template writes an import of the name. -/
theorem fill_standardTemplate (n : Text) :
    Template.fill Tuning.standardTemplate [("name", n)] = .ok (importLine n) := by
  have whole : (importLine n ++ [] : Text) = importLine n := List.append_nil _
  rw [← whole]
  rfl

theorem insert_textStart (new t : Text) (stop : Option Position) :
    applyEdits t [⟨.insert, .textStart, stop, some new⟩] = .ok (new ++ t) := by
  have fits : (⟨.insert, .textStart, stop, some new⟩ : Edit).Fits t := Nat.le_add_left 1 _
  have inside : Position.textStart.line ≠ t.lineCount + 1 := by
    change 1 ≠ t.count Text.lineFeed + 1 + 1
    omega
  have start : t.offset .textStart = 0 := by
    change t.lineStart 0 + min 0 _ = 0
    rw [Text.lineStart_zero, Nat.zero_min]
  rw [applyEdits_singleton fits]
  simp only [Edit.onText]
  rw [if_neg inside, start, Text.replaceSlice, List.take_zero, List.drop_zero, List.nil_append]
  rfl

namespace Repair

/-- The name is read back from the message, and its import put on the first line unless a line says
it already. -/
theorem bindingEdits_unbound {n : Text} (quotable : n.IsQuotable) (place : Position) (lines : List Text) :
    bindingEdits (.fit Tuning.standardTemplate) (Source.unboundDefect n place).message lines =
      .ok (if importLine n ∈ lines then [] else [⟨.insert, .textStart, none, some (importLine n ++ "\n")⟩]) := by
  have named : (Source.unboundDefect n place).message.missingName? = some n := Text.missingName?_cannotFind quotable
  have binding : bindingOf (.fit Tuning.standardTemplate) n = .ok (importLine n) := by
    rw [bindingOf, fill_standardTemplate]
    rfl
  rw [bindingEdits, named, Option.some_or]
  change (bindingOf _ n >>= fun binding => _) = _
  rw [binding]
  exact (apply_ite Except.ok _ _ _).symm

end Repair

/-- The fix for a name that nothing binds: an import of the name in front of the text. -/
def bindingFix (n : Text) (place : Position) : Fix :=
  Repair.addBinding.fixOf (Source.unboundDefect n place) [⟨.insert, .textStart, none, some (importLine n ++ "\n")⟩]

/-- There is such a fix unless a line of the text is that import already. -/
theorem ruleFixes_unbound {n : Text} (quotable : n.IsQuotable) (place : Position) (t : Text) :
    ruleFixes (.fit Tuning.standardTemplate) (Source.unboundDefect n place) t =
      .ok (if importLine n ∈ t.lines then [] else [bindingFix n place], none) := by
  have rule : (Source.unboundDefect n place).rule.bind Repair.ofRule? = some .addBinding := by
    change Repair.ofRule? "missing-binding" = _
    decide +kernel
  have edits := Repair.bindingEdits_unbound quotable place t.lines
  rw [ruleFixes, rule]
  change (Repair.edits? .addBinding _ _ _ >>= fun found => _) = _
  rw [Repair.edits?, if_neg (by decide), edits]
  by_cases already : importLine n ∈ t.lines
  · rw [if_pos already, if_pos already]
    rfl
  · rw [if_neg already, if_neg already]
    rfl

/-- The fix puts the import before the whole text. -/
theorem apply_bindingFix (n : Text) (place : Position) (t : Text) :
    (bindingFix n place).apply t = .ok (importLine n ++ "\n" ++ t) :=
  insert_textStart _ t none

end Mender
