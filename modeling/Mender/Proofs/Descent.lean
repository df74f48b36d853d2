import Mender.Fix
import Mender.Proofs.Bench

namespace Mender

/-- The texts on the way of some fixes, the first one included. The way ends at a fix that does not
apply. -/
def textsAlong (t : Text) : List Fix → List Text
  | [] => [t]
  | f :: fixes =>
    match f.apply t with
    | .ok u => t :: textsAlong u fixes
    | .error _ => [t]

/-- The memo has fewer defects for the second text than for the first. -/
def Fewer (m : Memo) (t u : Text) : Prop :=
  ∃ before after, m.find? t = some before ∧ m.find? u = some after ∧ after.length < before.length

namespace Fewer

variable {m : Memo} {t u v : Text}

theorem irrefl : ¬Fewer m t t := by
  rintro ⟨before, after, atBefore, atAfter, fewer⟩
  rw [atBefore] at atAfter
  cases atAfter
  exact Nat.lt_irrefl _ fewer

theorem trans (first : Fewer m t u) (second : Fewer m u v) : Fewer m t v := by
  obtain ⟨before, middle, atT, atU, fewer⟩ := first
  obtain ⟨same, after, atU', atV, further⟩ := second
  rw [atU] at atU'
  cases atU'
  exact ⟨before, after, atT, atV, Nat.lt_trans further fewer⟩

theorem mono {ω : Type} {o : Oracle ω} {later : Memo} (fewer : Fewer m t u)
    (grows : Memo.Grows o m later) : Fewer later t u := by
  obtain ⟨before, after, atT, atU, less⟩ := fewer
  exact ⟨before, after, grows.kept atT, grows.kept atU, less⟩

end Fewer

/-- Every fix applies to the text that those before it lead to, and the text that comes of it has
fewer defects. -/
inductive Descent (m : Memo) : Text → List Fix → Text → Prop
  | stay {t} : Descent m t [] t
  | accept {t u v f fixes} : f.apply t = .ok u → Fewer m t u → Descent m u fixes v →
      Descent m t (f :: fixes) v

namespace Descent

variable {m : Memo} {t u v : Text} {fixes more : List Fix}

theorem trans (first : Descent m t fixes u) (second : Descent m u more v) :
    Descent m t (fixes ++ more) v := by
  induction first with
  | stay => exact second
  | accept applied fewer _ ih => exact .accept applied fewer (ih second)

theorem mono {ω : Type} {o : Oracle ω} {later : Memo} (descent : Descent m t fixes u)
    (grows : Memo.Grows o m later) : Descent later t fixes u := by
  induction descent with
  | stay => exact .stay
  | accept applied fewer _ ih => exact .accept applied (fewer.mono grows) ih

/-- Every text on the way down but the first has fewer defects than the first. -/
theorem fewer_of_mem (descent : Descent m t fixes v) (member : u ∈ textsAlong t fixes) :
    u = t ∨ Fewer m t u := by
  induction descent with
  | stay => exact Or.inl (List.mem_singleton.mp member)
  | accept applied fewer _ ih =>
    simp only [textsAlong, applied, List.mem_cons] at member
    rcases member with same | later
    · exact Or.inl same
    · rcases ih later with same | further
      · exact Or.inr (same ▸ fewer)
      · exact Or.inr (fewer.trans further)

theorem pairwise_fewer (descent : Descent m t fixes u) :
    (textsAlong t fixes).Pairwise (Fewer m) := by
  induction descent with
  | stay => exact List.pairwise_singleton _ _
  | accept applied fewer rest ih =>
    simp only [textsAlong, applied, List.pairwise_cons]
    refine ⟨fun later member => ?_, ih⟩
    rcases rest.fewer_of_mem member with same | further
    · exact same ▸ fewer
    · exact fewer.trans further

/-- No text comes up twice. -/
theorem nodup (descent : Descent m t fixes u) : (textsAlong t fixes).Nodup := by
  refine descent.pairwise_fewer.imp ?_
  intro earlier later fewer same
  exact Fewer.irrefl (same ▸ fewer)

/-- A descent passes one text more than it has fixes. -/
theorem length_textsAlong (descent : Descent m t fixes u) :
    (textsAlong t fixes).length = fixes.length + 1 := by
  induction descent with
  | stay => rfl
  | accept applied _ _ ih => simp only [textsAlong, applied, List.length_cons, ih]

theorem getLast?_textsAlong (descent : Descent m t fixes u) :
    (textsAlong t fixes).getLast? = some u := by
  induction descent with
  | stay => rfl
  | accept applied _ _ ih =>
    simp only [textsAlong, applied, List.getLast?_cons, ih, Option.getD_some]

theorem eq_of_nil (descent : Descent m t [] u) : u = t := by
  cases descent
  rfl

/-- Only the empty way ends where it starts. -/
theorem eq_iff (descent : Descent m t fixes u) : u = t ↔ fixes = [] := by
  constructor
  · rintro rfl
    cases descent with
    | stay => rfl
    | accept applied fewer rest =>
      have last := List.mem_of_getLast? rest.getLast?_textsAlong
      rcases rest.fewer_of_mem last with same | further
      · exact (Fewer.irrefl (same ▸ fewer)).elim
      · exact (Fewer.irrefl (fewer.trans further)).elim
  · rintro rfl
    exact descent.eq_of_nil

end Descent

end Mender
