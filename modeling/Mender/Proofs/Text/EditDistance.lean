import Mathlib.Data.List.Induction
import Mathlib.Order.Bounds.Basic
import Mender.Text.EditDistance

namespace Mender

/-- A change of one item of a sequence, at an index. -/
inductive SingleEdit (α : Type) where
  | insert (index : Nat) (new : α)
  | delete (index : Nat)
  | substitute (index : Nat) (new : α)

namespace SingleEdit

variable {α : Type}

/-- The sequence after the change, if it has the index. -/
def apply (l : List α) : SingleEdit α → Option (List α)
  | insert index new => if index ≤ l.length then some (l.insertIdx index new) else none
  | delete index => if index < l.length then some (l.eraseIdx index) else none
  | substitute index new => if index < l.length then some (l.set index new) else none

theorem apply_insertLast (l : List α) (y : α) : (insert l.length y).apply l = some (l ++ [y]) := by
  simp [apply]

theorem apply_deleteLast (l : List α) (x : α) : (delete l.length).apply (l ++ [x]) = some l := by
  simp [apply, List.eraseIdx_append_of_length_le]

theorem apply_substituteLast (l : List α) (x y : α) :
    (substitute l.length y).apply (l ++ [x]) = some (l ++ [y]) := by
  simp [apply, List.set_append_right]

theorem insertIdx_concat {l : List α} {index : Nat} (inside : index ≤ l.length) (new x : α) :
    (l ++ [x]).insertIdx index new = l.insertIdx index new ++ [x] := by
  induction l generalizing index with
  | nil =>
    obtain rfl : index = 0 := Nat.le_zero.mp inside
    rfl
  | cons y l ih =>
    cases index with
    | zero => rfl
    | succ index =>
      rw [List.cons_append, List.insertIdx_succ_cons, List.insertIdx_succ_cons, ih (Nat.le_of_succ_le_succ inside),
        List.cons_append]

/-- A change leaves the place of a further item at the end. -/
theorem apply_concat {l m : List α} {e : SingleEdit α} (change : e.apply l = some m) (x : α) :
    e.apply (l ++ [x]) = some (m ++ [x]) := by
  have size : (l ++ [x]).length = l.length + 1 := by simp
  cases e with
  | insert index new =>
    obtain ⟨inside, ⟨⟩⟩ := Option.ite_none_right_eq_some.mp change
    rw [apply, if_pos (by omega), insertIdx_concat inside]
  | delete index =>
    obtain ⟨inside, ⟨⟩⟩ := Option.ite_none_right_eq_some.mp change
    rw [apply, if_pos (by omega), List.eraseIdx_append_of_lt_length inside]
  | substitute index new =>
    obtain ⟨inside, ⟨⟩⟩ := Option.ite_none_right_eq_some.mp change
    rw [apply, if_pos (by omega), List.set_append_left _ _ inside]

theorem foldlM_apply_cons {k l m : List α} {e : SingleEdit α} {script : List (SingleEdit α)}
    (change : e.apply k = some l) (run : script.foldlM apply l = some m) : (e :: script).foldlM apply k = some m := by
  rw [List.foldlM_cons, change]
  exact run

theorem foldlM_apply_concat {l m : List α} {script : List (SingleEdit α)} (run : script.foldlM apply l = some m)
    (x : α) : script.foldlM apply (l ++ [x]) = some (m ++ [x]) := by
  induction script generalizing l with
  | nil =>
    cases run
    rfl
  | cons e script ih =>
    rw [List.foldlM_cons] at run
    obtain ⟨changed, change, run⟩ := Option.bind_eq_some_iff.mp run
    exact foldlM_apply_cons (apply_concat change x) (ih run)

theorem foldlM_apply_insertLast {l m : List α} {script : List (SingleEdit α)} (run : script.foldlM apply l = some m)
    (y : α) : (script ++ [insert m.length y]).foldlM apply l = some (m ++ [y]) := by
  rw [List.foldlM_append, run]
  exact foldlM_apply_cons (apply_insertLast m y) rfl

/-- A change concerns the end, or is a change of what stands before the last item. -/
theorem apply_concat_eq_some {x : α} {l m : List α} {e : SingleEdit α} (change : e.apply (l ++ [x]) = some m) :
    (∃ y, m = l ++ [x] ++ [y]) ∨ m = l ∨ (∃ y, m = l ++ [y]) ∨ ∃ m', e.apply l = some m' ∧ m = m' ++ [x] := by
  have before {m' : List α} (change' : e.apply l = some m') : ∃ m', e.apply l = some m' ∧ m = m' ++ [x] :=
    ⟨m', change', Option.some.inj (change.symm.trans (apply_concat change' x))⟩
  have size : (l ++ [x]).length = l.length + 1 := by simp
  cases e with
  | insert index new =>
    by_cases inside : index ≤ l.length
    · exact Or.inr (Or.inr (Or.inr (before (if_pos inside))))
    · obtain ⟨atMost, ⟨⟩⟩ := Option.ite_none_right_eq_some.mp change
      obtain rfl : index = (l ++ [x]).length := by omega
      exact Or.inl ⟨new, List.insertIdx_length_self⟩
  | delete index =>
    by_cases inside : index < l.length
    · exact Or.inr (Or.inr (Or.inr (before (if_pos inside))))
    · obtain ⟨atMost, -⟩ := Option.ite_none_right_eq_some.mp change
      obtain rfl : index = l.length := by omega
      exact Or.inr (Or.inl (Option.some.inj (change.symm.trans (apply_deleteLast l x))))
  | substitute index new =>
    by_cases inside : index < l.length
    · exact Or.inr (Or.inr (Or.inr (before (if_pos inside))))
    · obtain ⟨atMost, -⟩ := Option.ite_none_right_eq_some.mp change
      obtain rfl : index = l.length := by omega
      exact Or.inr (Or.inr (Or.inl ⟨new, Option.some.inj (change.symm.trans (apply_substituteLast l x new))⟩))

end SingleEdit

section Rows

variable {α : Type} [DecidableEq α]

theorem nextRow_nil (x : α) (row : List Nat) (left : Nat) : nextRow x [] row left = [left] := by
  rw [nextRow]
  simp

theorem length_nextRow (x : α) {target : List α} {row : List Nat} (full : row.length = target.length + 1)
    (left : Nat) : (nextRow x target row left).length = target.length + 1 := by
  induction target generalizing row left with
  | nil => rfl
  | cons y target ih =>
    match row, full with
    | corner :: above :: row, full =>
      rw [nextRow, List.length_cons, ih (Nat.succ.inj full), List.length_cons]

theorem getLastD_nextRow (x : α) (target : List α) (row : List Nat) (left default : Nat) :
    (nextRow x target row left).getLastD default = (nextRow x target row left).getLastD 0 := by
  obtain ⟨tail, starts⟩ : ∃ tail, nextRow x target row left = left :: tail := by
    unfold nextRow
    split <;> exact ⟨_, rfl⟩
  rw [starts, List.getLastD_cons, List.getLastD_cons]

/-- One more item of the target makes a row longer by one distance. -/
theorem nextRow_concat (x y : α) {target : List α} {row : List Nat} (full : row.length = target.length + 1)
    (above left : Nat) :
    nextRow x (target ++ [y]) (row ++ [above]) left = nextRow x target row left ++
      [min (above + 1) (min ((nextRow x target row left).getLastD 0 + 1)
        (row.getLastD 0 + if x = y then 0 else 1))] := by
  induction target generalizing row left with
  | nil =>
    obtain ⟨corner, rfl⟩ := List.length_eq_one_iff.mp full
    rfl
  | cons z target ih =>
    match row, full with
    | corner :: next :: row, full =>
      have rest := ih (Nat.succ.inj full : (next :: row).length = target.length + 1)
      rw [List.cons_append] at rest
      simp only [List.cons_append, nextRow, rest, List.getLastD_cons]
      rw [getLastD_nextRow x target (next :: row) _ left]

theorem distanceRow_concat_left (source target : List α) (x : α) :
    distanceRow (source ++ [x]) target = nextRow x target (distanceRow source target) (source.length + 1) := by
  rw [distanceRow, List.zipIdx_append, List.foldl_append, Nat.add_comm source.length]
  rfl

theorem length_distanceRow (source target : List α) : (distanceRow source target).length = target.length + 1 := by
  induction source using List.reverseRecOn with
  | nil => exact List.length_range
  | append_singleton source x ih => rw [distanceRow_concat_left, length_nextRow x ih]

theorem distanceRow_concat (source target : List α) (y : α) :
    distanceRow source (target ++ [y]) = distanceRow source target ++ [rowDistance source (target ++ [y])] := by
  have longer : ∃ last, distanceRow source (target ++ [y]) = distanceRow source target ++ [last] := by
    induction source using List.reverseRecOn with
    | nil => exact ⟨target.length + 1, by simp [distanceRow, List.range_succ]⟩
    | append_singleton source x ih =>
      obtain ⟨last, row⟩ := ih
      rw [distanceRow_concat_left, row, nextRow_concat x y (length_distanceRow source target),
        ← distanceRow_concat_left]
      exact ⟨_, rfl⟩
  obtain ⟨last, row⟩ := longer
  rw [rowDistance, row, List.getLastD_concat]

theorem rowDistance_nil_left (target : List α) : rowDistance [] target = target.length := by
  rw [rowDistance, distanceRow, List.range_succ]
  exact List.getLastD_concat

theorem rowDistance_nil_right (source : List α) : rowDistance source [] = source.length := by
  cases source using List.reverseRecOn with
  | nil => rfl
  | append_singleton source x =>
    rw [rowDistance, distanceRow_concat_left, nextRow_nil, List.length_append, List.length_singleton]
    rfl

/-- The row's last entry follows the recurrence for the last items of both sequences. -/
theorem rowDistance_concat_concat (source target : List α) (x y : α) :
    rowDistance (source ++ [x]) (target ++ [y]) = min (rowDistance source (target ++ [y]) + 1)
      (min (rowDistance (source ++ [x]) target + 1) (rowDistance source target + if x = y then 0 else 1)) := by
  rw [rowDistance, distanceRow_concat_left, distanceRow_concat, nextRow_concat x y (length_distanceRow source target),
    List.getLastD_concat, ← distanceRow_concat_left]
  rfl

/-- It does not matter which of two sequences has a row for each of its items. -/
theorem rowDistance_comm (source target : List α) : rowDistance source target = rowDistance target source := by
  induction source using List.reverseRecOn generalizing target with
  | nil => rw [rowDistance_nil_left, rowDistance_nil_right]
  | append_singleton source x ihSource =>
    induction target using List.reverseRecOn with
    | nil => rw [rowDistance_nil_left, rowDistance_nil_right]
    | append_singleton target y ihTarget =>
      rw [rowDistance_concat_concat, rowDistance_concat_concat, ihSource (target ++ [y]), ihSource target, ihTarget]
      simp only [eq_comm (a := x)]
      omega

end Rows

section Distance

variable {α : Type} [DecidableEq α]

/-- The exchange of the two sequences, so that the longer one has the rows, makes no difference. -/
theorem editDistance_eq_rowDistance (source target : List α) :
    editDistance source target = rowDistance source target := by
  unfold editDistance
  split
  · exact rowDistance_comm target source
  · rfl

theorem editDistance_nil_left (target : List α) : editDistance [] target = target.length := by
  rw [editDistance_eq_rowDistance, rowDistance_nil_left]

theorem editDistance_nil_right (source : List α) : editDistance source [] = source.length := by
  rw [editDistance_eq_rowDistance, rowDistance_nil_right]

/-- The recurrence for the last items: insert, delete, or change one for the other. -/
theorem editDistance_concat_concat (source target : List α) (x y : α) :
    editDistance (source ++ [x]) (target ++ [y]) = min (editDistance source (target ++ [y]) + 1)
      (min (editDistance (source ++ [x]) target + 1) (editDistance source target + if x = y then 0 else 1)) := by
  simp only [editDistance_eq_rowDistance]
  exact rowDistance_concat_concat source target x y

/-- Which of the sequences is turned into which does not matter. -/
theorem editDistance_comm (source target : List α) : editDistance source target = editDistance target source := by
  rw [editDistance_eq_rowDistance, editDistance_eq_rowDistance, rowDistance_comm]

/-- One more item makes at most one more edit. -/
theorem editDistance_concat_left_le (source target : List α) (x : α) :
    editDistance (source ++ [x]) target ≤ editDistance source target + 1 := by
  cases target using List.reverseRecOn with
  | nil => simp [editDistance_nil_right]
  | append_singleton target y =>
    rw [editDistance_concat_concat]
    omega

theorem editDistance_concat_right_le (source target : List α) (y : α) :
    editDistance source (target ++ [y]) ≤ editDistance source target + 1 := by
  rw [editDistance_comm source, editDistance_comm source]
  exact editDistance_concat_left_le target source y

theorem editDistance_le_concat_left (source target : List α) (x : α) :
    editDistance source target ≤ editDistance (source ++ [x]) target + 1 := by
  induction target using List.reverseRecOn with
  | nil =>
    rw [editDistance_nil_right, editDistance_nil_right, List.length_append]
    omega
  | append_singleton target y ih =>
    have longer := editDistance_concat_right_le source target y
    rw [editDistance_concat_concat]
    omega

theorem editDistance_substitute_le (source target : List α) (x y : α) :
    editDistance (source ++ [x]) target ≤ editDistance (source ++ [y]) target + 1 := by
  induction target using List.reverseRecOn with
  | nil => simp [editDistance_nil_right]
  | append_singleton target z ih =>
    rw [editDistance_concat_concat, editDistance_concat_concat]
    split <;> split <;> omega

theorem editDistance_concat_le_concat {source changed : List α}
    (near : ∀ target, editDistance source target ≤ editDistance changed target + 1) (target : List α) (x : α) :
    editDistance (source ++ [x]) target ≤ editDistance (changed ++ [x]) target + 1 := by
  induction target using List.reverseRecOn with
  | nil =>
    have near := near []
    simp only [editDistance_nil_right, List.length_append] at near ⊢
    omega
  | append_singleton target y ih =>
    have nearAll := near (target ++ [y])
    have nearRest := near target
    rw [editDistance_concat_concat, editDistance_concat_concat]
    omega

/-- A single edit comes no more than one closer to a target. -/
theorem editDistance_le_of_apply {source changed : List α} {e : SingleEdit α}
    (change : e.apply source = some changed) (target : List α) :
    editDistance source target ≤ editDistance changed target + 1 := by
  induction source using List.reverseRecOn generalizing changed target with
  | nil =>
    cases e with
    | insert index new =>
      obtain ⟨inside, ⟨⟩⟩ := Option.ite_none_right_eq_some.mp change
      obtain rfl : index = 0 := Nat.le_zero.mp inside
      exact editDistance_le_concat_left [] target new
    | delete index | substitute index new => simp [SingleEdit.apply] at change
  | append_singleton source x ih =>
    obtain ⟨y, rfl⟩ | rfl | ⟨y, rfl⟩ | ⟨rest, before, rfl⟩ := SingleEdit.apply_concat_eq_some change
    · exact editDistance_le_concat_left (source ++ [x]) target y
    · exact editDistance_concat_left_le changed target x
    · exact editDistance_substitute_le source target x y
    · exact editDistance_concat_le_concat (ih before) target x

theorem editDistance_self (l : List α) : editDistance l l = 0 := by
  induction l using List.reverseRecOn with
  | nil => exact editDistance_nil_left []
  | append_singleton l x ih =>
    rw [editDistance_concat_concat, if_pos rfl, ih]
    omega

/-- No script is shorter than the distance, by induction over the script: each single edit changes
the distance by at most one. -/
theorem editDistance_le_length {source target : List α} {script : List (SingleEdit α)}
    (run : script.foldlM SingleEdit.apply source = some target) :
    editDistance source target ≤ script.length := by
  induction script generalizing source with
  | nil =>
    cases run
    rw [editDistance_self]
    exact Nat.zero_le _
  | cons e script ih =>
    rw [List.foldlM_cons] at run
    obtain ⟨changed, change, run⟩ := Option.bind_eq_some_iff.mp run
    have first := editDistance_le_of_apply change target
    have rest := ih run
    rw [List.length_cons]
    omega

/-- A script is written along the recursion of the distance: the last item goes, a new one comes, or the last item
stays or is replaced. -/
theorem exists_script (source target : List α) : ∃ script : List (SingleEdit α),
    script.foldlM SingleEdit.apply source = some target ∧ script.length = editDistance source target := by
  induction source using List.reverseRecOn generalizing target with
  | nil =>
    induction target using List.reverseRecOn with
    | nil => exact ⟨[], rfl, (editDistance_self []).symm⟩
    | append_singleton target y ih =>
      obtain ⟨script, run, size⟩ := ih
      refine ⟨_, SingleEdit.foldlM_apply_insertLast run y, ?_⟩
      simp [size, editDistance_nil_left]
  | append_singleton source x ihSource =>
    have deleted := SingleEdit.apply_deleteLast source x
    induction target using List.reverseRecOn with
    | nil =>
      obtain ⟨script, run, size⟩ := ihSource []
      refine ⟨_, SingleEdit.foldlM_apply_cons deleted run, ?_⟩
      simp [size, editDistance_nil_right]
    | append_singleton target y ihTarget =>
      have least := editDistance_concat_concat source target x y
      obtain gone | new | both :
          editDistance (source ++ [x]) (target ++ [y]) = editDistance source (target ++ [y]) + 1 ∨
          editDistance (source ++ [x]) (target ++ [y]) = editDistance (source ++ [x]) target + 1 ∨
          editDistance (source ++ [x]) (target ++ [y]) = editDistance source target + if x = y then 0 else 1 := by
        omega
      · obtain ⟨script, run, size⟩ := ihSource (target ++ [y])
        refine ⟨_, SingleEdit.foldlM_apply_cons deleted run, ?_⟩
        rw [List.length_cons, size, gone]
      · obtain ⟨script, run, size⟩ := ihTarget
        refine ⟨_, SingleEdit.foldlM_apply_insertLast run y, ?_⟩
        rw [List.length_append, List.length_singleton, size, new]
      · obtain ⟨script, run, size⟩ := ihSource target
        have kept := SingleEdit.foldlM_apply_concat run y
        by_cases same : x = y
        · refine ⟨script, same ▸ kept, ?_⟩
          rw [size, both, if_pos same, Nat.add_zero]
        · refine ⟨_, SingleEdit.foldlM_apply_cons (SingleEdit.apply_substituteLast source x y) kept, ?_⟩
          rw [List.length_cons, size, both, if_neg same]

/-- The edit distance is the least number of single edits in a script that turns one sequence into the other. -/
theorem editDistance_isLeast (source target : List α) :
    IsLeast {n | ∃ script : List (SingleEdit α), script.foldlM SingleEdit.apply source = some target ∧
      script.length = n} (editDistance source target) := by
  constructor
  · exact exists_script source target
  · rintro n ⟨script, run, rfl⟩
    exact editDistance_le_length run

end Distance

end Mender
