namespace Mender.Diff

variable {α : Type} [DecidableEq α]

inductive Piece (α : Type) where
  | same (items : List α)
  | change (removed added : List α)

/-- How many items two sequences share at their start. -/
def sharedLength : List α → List α → Nat
  | x :: a, y :: b => if x = y then sharedLength a b + 1 else 0
  | _, _ => 0

theorem sharedLength_le_left (a b : List α) : sharedLength a b ≤ a.length := by
  induction a generalizing b with
  | nil => simp [sharedLength]
  | cons x a ih =>
    cases b with
    | nil => simp [sharedLength]
    | cons y b =>
      simp only [sharedLength, List.length_cons]
      split
      · have := ih b
        omega
      · omega

/-- An item together with whether it may start a run. -/
abbrev Anchored (α : Type) := α × Bool

/-- The items that may start a run. In a sequence of 200 items or more those are the items that make
up no more than about a hundredth of it. -/
def anchored (items : List α) : List (Anchored α) :=
  if items.length < 200 then items.map fun x => (x, true)
  else items.map fun x => (x, items.count x ≤ items.length / 100 + 1)

/-- The places of the items that may start a run. -/
def anchors (b : List (Anchored α)) : List (Nat × α) :=
  b.zipIdx.filterMap fun ((y, anchor), j) => if anchor then some (j, y) else none

/-- The lengths of the runs that end with `x` and each anchor, from those of the item before `x`.
`before` is the last anchor passed, with the length of the run that ended there. -/
def runLengths (x : α) : (anchors : List (Nat × α)) → (above : List Nat) →
    (before : Option (Nat × Nat)) → List Nat
  | (j, y) :: anchors, length :: above, before =>
    let run : Nat :=
      if x = y then
        match before with
        | some (i, n) => if i + 1 = j then n + 1 else 1
        | none => 1
      else 0
    run :: runLengths x anchors above (some (j, length))
  | _, _, _ => []

/-- A run that two sequences share: a place in each of them, counted from zero, and a length. -/
structure Run where
  left : Nat
  right : Nat
  length : Nat

/-- The longer of a run and the runs that end at place `i`, the earliest of equally long ones. -/
def longerRun (i : Nat) (best : Run) (runs : List (Nat × Nat)) : Run :=
  runs.foldl (fun best (j, n) => if best.length < n then ⟨i, j, n⟩ else best) best

/-- The longest run of anchors, the earliest in `a` and then in `b` of equally long ones. -/
def longestRun (anchors : List (Nat × α)) : (a : List α) → (i : Nat) → (above : List Nat) → Run → Run
  | [], _, _, best => best
  | x :: a, i, above, best =>
    let row := runLengths x anchors above none
    longestRun anchors a (i + 1) row (longerRun i best ((anchors.map (·.1)).zip row))

/-- Where the longest shared run starts in both sequences. -/
def sharedStart (a : List α) (b : List (Anchored α)) : Nat × Nat :=
  let marks := anchors b
  let best := longestRun marks a 0 (marks.map fun _ => 0) ⟨0, 0, 0⟩
  let left := best.left + 1 - best.length
  let right := best.right + 1 - best.length
  if best.length = 0 then (0, 0)
  else
    let more := sharedLength (a.take left).reverse ((b.take right).map (·.1)).reverse
    (left - more, right - more)

/-- A changed run, unless it is empty on both sides. -/
def changed (removed added : List α) : List (Piece α) :=
  if removed.isEmpty && added.isEmpty then [] else [.change removed added]

/-- The longest run that both sequences share, by where it starts and how long it is. -/
def sharedRun (a : List α) (b : List (Anchored α)) : Run :=
  let start := sharedStart a b
  ⟨start.1, start.2, sharedLength (a.drop start.1) ((b.drop start.2).map (·.1))⟩

theorem sharedRun_within (a : List α) (b : List (Anchored α)) :
    (sharedRun a b).length ≤ a.length - (sharedRun a b).left := by
  have bound := sharedLength_le_left (a.drop (sharedRun a b).left)
    ((b.drop (sharedRun a b).right).map (·.1))
  rwa [List.length_drop] at bound

/-- The pieces of two sequences; runs that touch on both sides are not joined yet. -/
def rawPieces (a : List α) (b : List (Anchored α)) : List (Piece α) :=
  match _found : sharedRun a b with
  | ⟨left, right, length⟩ =>
    if _h : 0 < length then
      rawPieces (a.take left) (b.take right)
        ++ .same ((a.drop left).take length)
          :: rawPieces (a.drop (left + length)) (b.drop (right + length))
    else changed a (b.map (·.1))
termination_by a.length
decreasing_by
  all_goals
    have within := sharedRun_within a b
    simp only [_found] at within
    simp only [List.length_drop, List.length_take]
    omega

/-- Joins neighbouring runs that are the same. -/
def joinSame : List (Piece α) → List (Piece α)
  | [] => []
  | .change removed added :: rest => .change removed added :: joinSame rest
  | .same items :: rest =>
    match joinSame rest with
    | .same more :: rest => .same (items ++ more) :: rest
    | rest => .same items :: rest

def pieces (a b : List α) : List (Piece α) := joinSame (rawPieces a (anchored b))

end Mender.Diff
