import Mender.Proofs.Ranking
import Mender.Proofs.Text.Writable

namespace Mender

def Fix.Writable (f : Fix) : Prop := ∀ e ∈ f.edits, ∀ t ∈ e.text, t.isWritable

theorem Text.writingFault?_eq_none_iff {t : Text} : t.writingFault? = none ↔ t.isWritable := by
  have firstRun : (t.drop (t.takeWhile fun c => !c.isSurrogate).length).takeWhile CodePoint.isSurrogate = [] ↔
      t.isWritable := by
    induction t with
    | nil => exact iff_of_true rfl rfl
    | cons c t ih => cases surrogate : c.isSurrogate <;> simp [surrogate, ih]
  rw [← firstRun, writingFault?]
  dsimp only
  split <;> simp_all

theorem Fix.writingFault?_eq_none_iff {f : Fix} : f.writingFault? = none ↔ f.Writable := by
  rw [writingFault?, List.findSome?_eq_none_iff]
  refine forall₂_congr fun e _ => ?_
  rw [Option.bind_eq_none_iff]
  exact forall₂_congr fun t _ => Text.writingFault?_eq_none_iff

/-- A ranking fails on the edits that cannot be written out, and on nothing else. -/
theorem rankFixes?_eq_error_iff {candidates : List Fix} :
    (∃ fault, rankFixes? candidates = .error fault) ↔ ∃ f ∈ candidates, ¬f.Writable := by
  have edited : ∀ f ∈ candidates, f.writingFault? ≠ none → f ∈ bySureness candidates := by
    intro f member faulty
    refine mem_bySureness.mpr ⟨member, fun none => faulty ?_⟩
    rw [Fix.writingFault?, none]
    rfl
  unfold rankFixes?
  cases faults : (bySureness candidates).findSome? Fix.writingFault? with
  | none =>
    rw [List.findSome?_eq_none_iff] at faults
    refine iff_of_false (by rintro ⟨_, same⟩; cases same) ?_
    rintro ⟨f, member, unwritable⟩
    have faulty := mt Fix.writingFault?_eq_none_iff.mp unwritable
    exact faulty (faults f (edited f member faulty))
  | some fault =>
    obtain ⟨f, member, faulty⟩ := List.exists_of_findSome?_eq_some faults
    refine iff_of_true ⟨fault, rfl⟩ ⟨f, ?_, fun writable => ?_⟩
    · exact (mem_bySureness.mp member).1
    · rw [Fix.writingFault?_eq_none_iff.mpr writable] at faulty
      cases faulty

/-- Fixes that can be written out have their signatures taken without a fault. -/
theorem rankFixes?_of_writable {candidates : List Fix} (writable : ∀ f ∈ candidates, f.Writable) :
    rankFixes? candidates = .ok (rankFixes candidates) := by
  have never : ¬∃ fault, rankFixes? candidates = .error fault := by
    rw [rankFixes?_eq_error_iff]
    rintro ⟨f, member, unwritable⟩
    exact unwritable (writable f member)
  unfold rankFixes? at never ⊢
  split at never
  · exact (never ⟨_, rfl⟩).elim
  · rfl

end Mender
