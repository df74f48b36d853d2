import Mender.Proofs.Diff.Pieces

namespace Mender.Diff

variable {α : Type}

/-- The next item joins those that were passed, last one first. -/
theorem reverse_cons_append (y : α) (b q : List α) : (y :: b).reverse ++ q = b.reverse ++ y :: q := by
  rw [List.reverse_cons, List.append_assoc, List.singleton_append]

variable (anchor : α → Bool)

/-- The places of the anchors of `b`, which starts at place `j`. -/
def marksFrom (j : Nat) : List α → List (Nat × α)
  | [] => []
  | y :: b => if anchor y then (j, y) :: marksFrom (j + 1) b else marksFrom (j + 1) b

variable {anchor}

theorem anchors_eq_marksFrom (b : List α) : anchors (b.map fun x => (x, anchor x)) = marksFrom anchor 0 b := by
  unfold anchors
  generalize 0 = j
  induction b generalizing j with
  | nil => rfl
  | cons y b ih =>
    rw [List.map_cons, List.zipIdx_cons, marksFrom]
    split
    next marked => simp only [List.filterMap_cons, if_pos marked, ih]
    next unmarked => simp only [List.filterMap_cons, if_neg unmarked, ih]

variable [DecidableEq α] (anchor)

/-- How long the run of anchors is with which both sequences end; their last items come first. -/
def endRun : List α → List α → Nat
  | x :: p, y :: q => if anchor y ∧ x = y then endRun p q + 1 else 0
  | _, _ => 0

/-- For each anchor of `b`, which comes after `q`, the run that ends with it and with `p`. -/
def runsAfter (p q : List α) : List α → List Nat
  | [] => []
  | y :: b => if anchor y then endRun anchor p (y :: q) :: runsAfter p (y :: q) b else runsAfter p (y :: q) b

variable {anchor}

theorem endRun_le_left (p q : List α) : endRun anchor p q ≤ endRun anchor p p := by
  induction p generalizing q with
  | nil => exact Nat.le_refl _
  | cons x p ih =>
    cases q with
    | nil => exact Nat.zero_le _
    | cons y q =>
      unfold endRun
      split
      next both =>
        rw [if_pos ⟨both.2 ▸ both.1, rfl⟩]
        exact Nat.succ_le_succ (ih q)
      · exact Nat.zero_le _

theorem endRun_comm (p q : List α) : endRun anchor p q = endRun anchor q p := by
  induction p generalizing q with
  | nil => cases q <;> rfl
  | cons x p ih =>
    cases q with
    | nil => rfl
    | cons y q =>
      unfold endRun
      rw [ih q]
      refine if_congr ?_ rfl rfl
      constructor
      · rintro ⟨marked, rfl⟩
        exact ⟨marked, rfl⟩
      · rintro ⟨marked, rfl⟩
        exact ⟨marked, rfl⟩

theorem endRun_le_right (p q : List α) : endRun anchor p q ≤ endRun anchor q q :=
  endRun_comm p q ▸ endRun_le_left q p

theorem runsAfter_nil (q b : List α) (j : Nat) : runsAfter anchor [] q b = (marksFrom anchor j b).map fun _ => 0 := by
  induction b generalizing q j with
  | nil => rfl
  | cons y b ih =>
    unfold runsAfter marksFrom
    split
    · rw [List.map_cons, ← ih (y :: q)]
      rfl
    · exact ih _ _

/-- The run that ends right before place `j`, if the last anchor stands there. -/
def runBefore (before : Option (Nat × Nat)) (j : Nat) : Nat :=
  match before with
  | some (i, n) => if i + 1 = j then n else 0
  | none => 0

theorem runLengths_cons (x : α) (j : Nat) (y : α) (marks : List (Nat × α)) (n : Nat) (above : List Nat)
    (before : Option (Nat × Nat)) :
    runLengths x ((j, y) :: marks) (n :: above) before =
      (if x = y then runBefore before j + 1 else 0) :: runLengths x marks above (some (j, n)) := by
  cases before with
  | none => rfl
  | some e => by_cases next : e.1 + 1 = j <;> simp [runLengths, runBefore, next]

variable (anchor) in
/-- One more row: the runs that end with `x` are made from those that end with the item before it. -/
theorem runLengths_runsAfter (x : α) (p q b : List α) (before : Option (Nat × Nat))
    (known : runBefore before q.length = endRun anchor p q) (past : ∀ e ∈ before, e.1 < q.length) :
    runLengths x (marksFrom anchor q.length b) (runsAfter anchor p q b) before = runsAfter anchor (x :: p) q b := by
  induction b generalizing q before with
  | nil => rfl
  | cons y b ih =>
    by_cases marked : anchor y = true
    · rw [marksFrom, runsAfter, runsAfter, if_pos marked, if_pos marked, if_pos marked, runLengths_cons, known]
      refine congrArg₂ List.cons ?_ (ih (y :: q) _ (if_pos rfl) ?_)
      · rw [endRun]
        exact if_congr (by rw [and_iff_right marked]) rfl rfl
      · rintro _ ⟨⟩
        exact Nat.lt_succ_self _
    · rw [marksFrom, runsAfter, runsAfter, if_neg marked, if_neg marked, if_neg marked]
      refine ih (y :: q) before ?_ fun e last => Nat.lt_succ_of_lt (past e last)
      have none : endRun anchor p (y :: q) = 0 := by
        cases p with
        | nil => rfl
        | cons => exact if_neg fun both => marked both.1
      rw [none]
      cases before with
      | none => rfl
      | some e =>
        have earlier := past e rfl
        exact if_neg (by rw [List.length_cons]; omega)

variable (anchor) in
/-- The runs of a row that come after `q`, with the places at which they end. -/
def endsAfter (p q : List α) : List α → List (Nat × Nat)
  | [] => []
  | y :: b =>
    if anchor y then (q.length, endRun anchor p (y :: q)) :: endsAfter p (y :: q) b else endsAfter p (y :: q) b

variable (anchor) in
/-- The lengths that are stored at a row are the common runs that end there. -/
theorem zip_marksFrom_runsAfter (p q b : List α) :
    ((marksFrom anchor q.length b).map (·.1)).zip (runsAfter anchor p q b) = endsAfter anchor p q b := by
  induction b generalizing q with
  | nil => rfl
  | cons y b ih =>
    unfold marksFrom runsAfter endsAfter
    split
    · exact congrArg _ (ih (y :: q))
    · exact ih (y :: q)

theorem endsAfter_append (p q b b' : List α) :
    endsAfter anchor p q (b ++ b') = endsAfter anchor p q b ++ endsAfter anchor p (b.reverse ++ q) b' := by
  induction b generalizing q with
  | nil => rfl
  | cons y b ih =>
    rw [List.cons_append, endsAfter, endsAfter, ih, reverse_cons_append]
    split <;> rfl

/-- Each length in a row is that of the run with which `p` and some part of the other sequence end.
-/
theorem exists_suffix_of_mem_endsAfter {p q b : List α} {e : Nat × Nat} (member : e ∈ endsAfter anchor p q b) :
    ∃ q', q' <:+ b.reverse ++ q ∧ e.2 = endRun anchor p q' := by
  induction b generalizing q with
  | nil => cases member
  | cons y b ih =>
    have later : e ∈ endsAfter anchor p (y :: q) b → ∃ q', q' <:+ (y :: b).reverse ++ q ∧ e.2 = endRun anchor p q' := by
      rw [reverse_cons_append]
      exact ih
    rw [endsAfter] at member
    split at member
    · rcases List.mem_cons.mp member with rfl | member
      · exact ⟨y :: q, ⟨b.reverse, (reverse_cons_append y b q).symm⟩, rfl⟩
      · exact later member
    · exact later member

theorem longerRun_of_le {i : Nat} {best : Run} {ends : List (Nat × Nat)} (short : ∀ e ∈ ends, e.2 ≤ best.length) :
    longerRun i best ends = best := by
  unfold longerRun
  induction ends with
  | nil => rfl
  | cons e ends ih =>
    obtain ⟨here, later⟩ := List.forall_mem_cons.mp short
    simp only [List.foldl_cons, if_neg (Nat.not_lt.mpr here)]
    exact ih later

theorem longerRun_append (i : Nat) (best : Run) (ends ends' : List (Nat × Nat)) :
    longerRun i best (ends ++ ends') = longerRun i (longerRun i best ends) ends' := List.foldl_append

variable (anchor) in
/-- The longest run so far of a sequence with itself, whose first items, last one first, are `p`: it is at the same
place on both sides, since no run is longer than the one that ends at the same place of both. -/
structure Diagonal (p : List α) (best : Run) : Prop where
  same : best.left = best.right
  within : best.left ≤ p.length
  longest : ∀ q, q <:+ p → endRun anchor q q ≤ best.length

/-- In a row only the run that ends at the same place of both sequences can be longer than all before it. -/
theorem longerRun_row {p : List α} {best : Run} (diagonal : Diagonal anchor p best) (x : α) (a : List α) :
    longerRun p.length best (endsAfter anchor (x :: p) [] (p.reverse ++ x :: a)) =
      let here := endRun anchor (x :: p) (x :: p)
      if best.length < here then ⟨p.length, p.length, here⟩ else best := by
  have earlier : longerRun p.length best (endsAfter anchor (x :: p) [] p.reverse) = best := by
    refine longerRun_of_le fun e member => ?_
    obtain ⟨q, ending, length⟩ := exists_suffix_of_mem_endsAfter member
    rw [List.reverse_reverse, List.append_nil] at ending
    rw [length]
    exact (endRun_le_right _ q).trans (diagonal.longest q ending)
  have later : ∀ best : Run, endRun anchor (x :: p) (x :: p) ≤ best.length →
      longerRun p.length best (endsAfter anchor (x :: p) (x :: p) a) = best := by
    refine fun best long => longerRun_of_le fun e member => ?_
    obtain ⟨q, -, length⟩ := exists_suffix_of_mem_endsAfter member
    rw [length]
    exact (endRun_le_left _ q).trans long
  rw [endsAfter_append, longerRun_append, earlier, List.reverse_reverse, List.append_nil, endsAfter]
  by_cases marked : anchor x = true
  · rw [if_pos marked, ← List.singleton_append, longerRun_append]
    refine later _ ?_
    simp only [longerRun, List.foldl_cons, List.foldl_nil]
    split
    · exact Nat.le_refl _
    next short => exact Nat.not_lt.mp short
  · have none : endRun anchor (x :: p) (x :: p) = 0 := if_neg fun both => marked both.1
    rw [if_neg marked, none, later best (none ▸ Nat.zero_le _)]
    rfl

/-- One row more: the best run is still at the same place on both sides. -/
theorem Diagonal.next {p : List α} {best : Run} (diagonal : Diagonal anchor p best) (x : α) (a : List α) :
    Diagonal anchor (x :: p) (longerRun p.length best (endsAfter anchor (x :: p) [] (p.reverse ++ x :: a))) := by
  have suffixes : ∀ {q}, q <:+ x :: p → q = x :: p ∨ endRun anchor q q ≤ best.length := fun ending =>
    (List.suffix_cons_iff.mp ending).imp_right (diagonal.longest _)
  rw [longerRun_row diagonal]
  dsimp only
  split
  next longer =>
    refine ⟨rfl, Nat.le_succ _, fun q ending => ?_⟩
    rcases suffixes ending with rfl | short
    · exact Nat.le_refl _
    · exact short.trans longer.le
  next short =>
    refine ⟨diagonal.same, Nat.le_succ_of_le diagonal.within, fun q ending => ?_⟩
    rcases suffixes ending with rfl | short'
    · exact Nat.not_lt.mp short
    · exact short'

/-- By induction on the rows that are left. -/
theorem diagonal_longestRun {p : List α} {best : Run} (diagonal : Diagonal anchor p best) (a : List α) :
    Diagonal anchor (a.reverse ++ p)
      (longestRun (marksFrom anchor 0 (p.reverse ++ a)) a p.length (runsAfter anchor p [] (p.reverse ++ a)) best) := by
  induction a generalizing p best with
  | nil => exact diagonal
  | cons x a ih =>
    have row := runLengths_runsAfter anchor x p [] (p.reverse ++ x :: a) none (by cases p <;> rfl) nofun
    have ends := zip_marksFrom_runsAfter anchor (x :: p) [] (p.reverse ++ x :: a)
    have after := ih (diagonal.next x a)
    rw [reverse_cons_append] at after
    rw [List.length_nil] at row ends
    rw [longestRun, reverse_cons_append, row, ends]
    exact after

theorem sharedLength_self (a : List α) : sharedLength a a = a.length := by
  induction a with
  | nil => rfl
  | cons x a ih => rw [sharedLength, if_pos rfl, ih, List.length_cons]

/-- A sequence is like itself from the start. -/
theorem sharedStart_self (a : List α) : sharedStart a (anchored a) = (0, 0) := by
  obtain ⟨anchor, anchors⟩ := exists_anchored a
  have start : Diagonal anchor ([] : List α) ⟨0, 0, 0⟩ :=
    ⟨rfl, Nat.le_refl _, fun q ending => by rw [List.suffix_nil.mp ending]; exact Nat.le_refl _⟩
  have diagonal := diagonal_longestRun start a
  rw [List.reverse_nil, List.nil_append, runsAfter_nil [] a 0, ← anchors_eq_marksFrom, ← anchors,
    List.append_nil] at diagonal
  have back : ∀ left ≤ a.length,
      left - sharedLength (a.take left).reverse (((anchored a).take left).map (·.1)).reverse = 0 := by
    intro left bound
    rw [List.map_take, map_fst_anchored, sharedLength_self, List.length_reverse, List.length_take]
    omega
  obtain ⟨best, found⟩ : ∃ best, longestRun (Diff.anchors (anchored a)) a 0
      ((Diff.anchors (anchored a)).map fun _ => 0) ⟨0, 0, 0⟩ = best := ⟨_, rfl⟩
  rw [List.length_nil, found] at diagonal
  have inside := diagonal.within
  rw [List.length_reverse] at inside
  simp only [sharedStart, found]
  split
  · rfl
  next some => rw [← diagonal.same, back _ (by omega)]

theorem sharedRun_self (a : List α) : sharedRun a (anchored a) = ⟨0, 0, a.length⟩ := by
  unfold sharedRun
  rw [sharedStart_self]
  simp only [List.drop_zero, map_fst_anchored, sharedLength_self]

/-- Equal sequences have no change among their pieces. -/
theorem pieces_self (a : List α) : pieces a a = if a.isEmpty then [] else [.same a] := by
  have nothing : rawPieces ([] : List α) [] = [] := by
    rw [rawPieces_eq]
    rfl
  have bound : (anchored a).length = a.length := by
    rw [← List.length_map (·.1), map_fst_anchored]
  cases a with
  | nil => exact congrArg joinSame nothing
  | cons x a =>
    rw [pieces, rawPieces_eq, sharedRun_self]
    simp only [List.take_zero, List.drop_zero, List.take_length, Nat.zero_add, List.drop_length]
    rw [← bound, List.drop_length, nothing, bound, if_pos (List.length_pos_of_mem List.mem_cons_self)]
    rfl

end Mender.Diff
