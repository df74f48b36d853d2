import Mathlib.Data.List.Chain
import Mender.Diff.Unified

namespace Mender.Diff

section Parted

variable {α : Type}

/-- Two sequences parted by some of the runs that they share. -/
inductive Parted : List α → List α → List (Piece α) → Prop
  | differing (a b : List α) : Parted a b (changed a b)
  | sharing {a a' b b' items : List α} {left right : List (Piece α)} : items ≠ [] → Parted a b left →
      Parted a' b' right → Parted (a ++ (items ++ a')) (b ++ (items ++ b')) (left ++ .same items :: right)

namespace Parted

variable {a b : List α} {ps : List (Piece α)}

theorem flatMap_old (parted : Parted a b ps) : ps.flatMap Piece.old = a := by
  induction parted with
  | differing a b => cases a <;> cases b <;> simp [changed, Piece.old]
  | sharing _ _ _ before after => rw [List.flatMap_append, List.flatMap_cons, before, after, Piece.old]

theorem flatMap_new (parted : Parted a b ps) : ps.flatMap Piece.new = b := by
  induction parted with
  | differing a b => cases a <;> cases b <;> simp [changed, Piece.new]
  | sharing _ _ _ before after => rw [List.flatMap_append, List.flatMap_cons, before, after, Piece.new]

end Parted

/-- The second piece may come after the first: what follows a change is a run that stayed the same, and not empty. -/
def Piece.Precedes : Piece α → Piece α → Prop
  | .change _ _, .change _ _ => False
  | .change _ _, .same items => items ≠ []
  | .same _, _ => True

/-- Two changes never follow each other, and a common piece behind a change is not empty. -/
theorem Parted.isChain {a b : List α} {ps : List (Piece α)} (parted : Parted a b ps) : ps.IsChain Piece.Precedes := by
  induction parted with
  | differing a b =>
    unfold changed
    split
    · exact .nil
    · exact .singleton _
  | sharing filled _ _ before after =>
    refine List.isChain_append.mpr ⟨before, List.isChain_cons.mpr ⟨fun _ _ => trivial, after⟩, ?_⟩
    rintro p - q first
    cases Option.some.inj first
    cases p with
    | same => trivial
    | change => exact filled

/-- A list in front of a run, the run, and what comes after it. -/
theorem take_append_run (a : List α) (left length : Nat) :
    a.take left ++ ((a.drop left).take length ++ a.drop (left + length)) = a := by
  rw [← List.drop_drop, List.take_append_drop, List.take_append_drop]

end Parted

section Joined

variable {α : Type}

/-- A run that stayed the same takes in the one after it, if there is one. -/
theorem joinSame_same (items : List α) (rest : List (Piece α)) :
    ∃ more rest', joinSame (.same items :: rest) = .same (items ++ more) :: rest' ∧
      (joinSame rest = .same more :: rest' ∨ more = [] ∧ joinSame rest = rest') := by
  rw [joinSame]
  split
  next more rest' joined => exact ⟨more, rest', rfl, Or.inl joined⟩
  · exact ⟨[], joinSame rest, by rw [List.append_nil], Or.inr ⟨rfl, rfl⟩⟩

theorem flatMap_joinSame {side : Piece α → List α} (same : ∀ items, side (.same items) = items)
    (ps : List (Piece α)) : (joinSame ps).flatMap side = ps.flatMap side := by
  induction ps with
  | nil => rfl
  | cons p rest ih =>
    cases p with
    | change removed added => rw [joinSame, List.flatMap_cons, List.flatMap_cons, ih]
    | same items =>
      obtain ⟨more, rest', joined, before | ⟨rfl, before⟩⟩ := joinSame_same items rest
      · rw [joined, List.flatMap_cons, List.flatMap_cons, ← ih, before, List.flatMap_cons, same, same, same,
          List.append_assoc]
      · rw [joined, List.flatMap_cons, List.flatMap_cons, ← ih, before, List.append_nil]

/-- Joining neighbouring common pieces brings no two changes together. -/
theorem isChain_joinSame {ps : List (Piece α)} (chain : ps.IsChain Piece.Precedes) :
    (joinSame ps).IsChain Piece.Precedes := by
  induction ps with
  | nil => exact .nil
  | cons p rest ih =>
    obtain ⟨next, later⟩ := List.isChain_cons.mp chain
    cases p with
    | change removed added =>
      refine List.isChain_cons.mpr ⟨?_, ih later⟩
      cases rest with
      | nil => exact fun _ none => nomatch none
      | cons q rest =>
        cases q with
        | change => exact (next _ rfl).elim
        | same items =>
          obtain ⟨more, rest', joined, -⟩ := joinSame_same items rest
          rw [joined]
          rintro _ ⟨⟩
          exact List.append_ne_nil_of_left_ne_nil (next _ rfl) more
    | same items =>
      have after := ih later
      obtain ⟨more, rest', joined, before | ⟨-, before⟩⟩ := joinSame_same items rest
      · rw [before] at after
        rw [joined]
        exact List.isChain_cons.mpr ⟨fun _ _ => trivial, after.tail⟩
      · rw [before] at after
        rw [joined]
        exact List.isChain_cons.mpr ⟨fun _ _ => trivial, after⟩

end Joined

section Cut

variable {α : Type} [DecidableEq α]

theorem take_sharedLength (a b : List α) : b.take (sharedLength a b) = a.take (sharedLength a b) := by
  induction a generalizing b with
  | nil => simp [sharedLength]
  | cons x a ih =>
    cases b with
    | nil => simp [sharedLength]
    | cons y b =>
      unfold sharedLength
      split
      next same => rw [same, List.take_succ_cons, List.take_succ_cons, ih]
      · rfl

/-- The items of the shared run, read off either sequence. -/
theorem take_sharedRun (a : List α) (b : List (Anchored α)) :
    ((b.drop (sharedRun a b).right).take (sharedRun a b).length).map (·.1) =
      (a.drop (sharedRun a b).left).take (sharedRun a b).length := by
  rw [List.map_take]
  exact take_sharedLength (a.drop (sharedRun a b).left) ((b.drop (sharedRun a b).right).map (·.1))

theorem rawPieces_eq (a : List α) (b : List (Anchored α)) :
    rawPieces a b =
      let run := sharedRun a b
      if 0 < run.length then
        rawPieces (a.take run.left) (b.take run.right)
          ++ .same ((a.drop run.left).take run.length)
            :: rawPieces (a.drop (run.left + run.length)) (b.drop (run.right + run.length))
      else changed a (b.map (·.1)) := by
  rw [rawPieces]
  rfl

theorem parted_rawPieces (a : List α) (b : List (Anchored α)) : Parted a (b.map (·.1)) (rawPieces a b) := by
  induction a, b using rawPieces.induct with
  | case2 a b left right length found none =>
    rw [rawPieces_eq, found]
    simp only [if_neg none]
    exact .differing a _
  | case1 a b left right length found some before after =>
    have within := sharedRun_within a b
    have alike := take_sharedRun a b
    rw [rawPieces_eq]
    simp only [found, if_pos some] at within alike ⊢
    have filled : (a.drop left).take length ≠ [] := by
      rw [← List.length_pos_iff_ne_nil, List.length_take, List.length_drop]
      omega
    have parted := Parted.sharing filled before after
    rwa [take_append_run, ← alike, ← List.map_append, ← List.map_append, take_append_run, alike] at parted

theorem flatMap_old_pieces (a b : List α) : (pieces a b).flatMap Piece.old = a :=
  (flatMap_joinSame (fun _ => rfl) _).trans (parted_rawPieces a (anchored b)).flatMap_old

/-- Whether an item may start a run depends on the item alone, wherever it stands. -/
theorem exists_anchored (b : List α) : ∃ anchor : α → Bool, anchored b = b.map fun x => (x, anchor x) := by
  unfold anchored
  split
  · exact ⟨fun _ => true, rfl⟩
  · exact ⟨_, rfl⟩

theorem map_fst_anchored (b : List α) : (anchored b).map (·.1) = b := by
  obtain ⟨anchor, anchors⟩ := exists_anchored b
  rw [anchors, List.map_map]
  exact List.map_id b

theorem flatMap_new_pieces (a b : List α) : (pieces a b).flatMap Piece.new = b :=
  (flatMap_joinSame (fun _ => rfl) _).trans <|
    (parted_rawPieces a (anchored b)).flatMap_new.trans (map_fst_anchored b)

theorem isChain_pieces (a b : List α) : (pieces a b).IsChain Piece.Precedes :=
  isChain_joinSame (parted_rawPieces a (anchored b)).isChain

end Cut

end Mender.Diff
