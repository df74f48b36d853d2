import Mathlib.Data.List.TakeWhile
import Mender.Number.Numeral
import Mender.Proofs.Diff.Hunks
import Mender.Proofs.Json.Written

namespace Mender

theorem CodePoint.filter_digitValue? {c : CodePoint} (decimal : c.isDigit = true) :
    c.digitValue?.filter (· < 10) = some (c.val - 48) := by
  have within := decimal
  simp only [isDigit, CodePoint.within, Bool.and_eq_true, decide_eq_true_eq] at within
  have top : '9'.toNat = 57 := rfl
  have value : c.digitValue? = some (c.val - 48) := if_pos decimal
  rw [value]
  exact Option.filter_some_pos (decide_eq_true (by omega))

/-- The digits of a number are read as that number. -/
theorem Numeral.digitsValue?_ofNat (n : Nat) : digitsValue? 10 (Text.ofNat n) = some n := by
  have value : ∀ (digits : List Char) (init : Nat), (∀ c ∈ digits, (CodePoint.ofChar c).isDigit = true) →
      (digits.map CodePoint.ofChar).foldlM
        (fun n c => (c.digitValue?.filter (· < 10)).map fun d => n * 10 + d) init =
        some (Nat.ofDigitChars 10 digits init) := by
    intro digits
    induction digits with
    | nil => exact fun _ _ => rfl
    | cons c digits ih =>
      intro init decimal
      obtain ⟨first, others⟩ := List.forall_mem_cons.mp decimal
      have digit := CodePoint.filter_digitValue? first
      rw [List.map_cons, List.foldlM_cons, digit]
      refine (ih _ others).trans ?_
      rw [Nat.ofDigitChars, Nat.ofDigitChars, List.foldl_cons, Nat.mul_comm]
      rfl
  have some : (Text.ofNat n).isEmpty = false := by
    rw [Text.ofNat_eq_map, List.isEmpty_map]
    exact List.isEmpty_eq_false_iff.mpr Nat.toDigits_ne_nil
  rw [digitsValue?, some, Text.ofNat_eq_map]
  refine (value _ 0 fun c digit => ?_).trans (congrArg _ Nat.ofDigitChars_ten_toDigits)
  exact Text.isDigit_of_mem_ofNat (n := n) (by rw [Text.ofNat_eq_map]; exact List.mem_map_of_mem digit)

namespace Diff

/-- How many lines are before a range that is given by its number and its length. -/
def linesBefore? (number length : Nat) : Option Nat :=
  if length = 0 then some number
  else
    match number with
    | 0 => none
    | before + 1 => some before

/-- A range as a header gives it: how many lines are before it, and how many are in it. -/
def range? (t : Text) : Option (Nat × Nat) :=
  match t.splitOn (CodePoint.ofChar ',') with
  | [number] => do
    let number ← Numeral.digitsValue? 10 number
    let before ← linesBefore? number 1
    some (before, 1)
  | [number, length] => do
    let number ← Numeral.digitsValue? 10 number
    let length ← Numeral.digitsValue? 10 length
    let before ← linesBefore? number length
    some (before, length)
  | _ => none

/-- The ranges of both texts that a header gives. -/
def header? (line : Text) : Option ((Nat × Nat) × (Nat × Nat)) :=
  match line.splitOn (CodePoint.ofChar ' ') with
  | [opening, minus :: old, plus :: new, closing] =>
    if opening = "@@" ∧ minus = '-' ∧ plus = '+' ∧ closing = "@@\n" then do
      let old ← range? old
      let new ← range? new
      some (old, new)
    else none
  | _ => none

/-- A range is made of digits and commas. -/
theorem isDigit_or_comma_of_mem_rangeText {start length : Nat} {c : CodePoint} (member : c ∈ rangeText start length) :
    c.isDigit = true ∨ c = ',' := by
  unfold rangeText at member
  split at member
  · exact Or.inl (Text.isDigit_of_mem_ofNat member)
  · rcases List.mem_append.mp member with member | member
    · rcases List.mem_append.mp member with member | member
      · exact Or.inl (Text.isDigit_of_mem_ofNat member)
      · exact Or.inr (List.mem_singleton.mp member)
    · exact Or.inl (Text.isDigit_of_mem_ofNat member)

theorem range?_rangeText (start length : Nat) : range? (rangeText start length) = some (start, length) := by
  have noComma : ∀ n : Nat, CodePoint.ofChar ',' ∉ Text.ofNat n := fun n member =>
    Bool.noConfusion (Text.isDigit_of_mem_ofNat member)
  unfold rangeText
  by_cases one : length = 1
  · have split : (Text.ofNat (start + 1)).splitOn (CodePoint.ofChar ',') = [Text.ofNat (start + 1)] := by
      have split :=
        List.splitOn_intercalate _ (List.forall_mem_singleton.mpr (noComma (start + 1))) (List.cons_ne_nil _ _)
      rwa [List.intercalate_singleton] at split
    rw [if_pos one, range?, split, one]
    simp only [Numeral.digitsValue?_ofNat, linesBefore?, Option.bind_eq_bind, Option.bind_some]
    rfl
  · generalize number : (if length = 0 then start else start + 1) = n
    have split : (Text.ofNat n ++ "," ++ Text.ofNat length).splitOn (CodePoint.ofChar ',') =
        [Text.ofNat n, Text.ofNat length] := by
      have joined : [CodePoint.ofChar ','].intercalate [Text.ofNat n, Text.ofNat length] =
          Text.ofNat n ++ "," ++ Text.ofNat length := by
        rw [List.intercalate_cons_of_ne_nil (List.cons_ne_nil _ _), List.intercalate_singleton]
        rfl
      rw [← joined]
      refine List.splitOn_intercalate _ ?_ (List.cons_ne_nil _ _)
      exact List.forall_mem_cons.mpr ⟨noComma _, List.forall_mem_singleton.mpr (noComma _)⟩
    rw [if_neg one, range?, split]
    simp only [Numeral.digitsValue?_ofNat, Option.bind_eq_bind, Option.bind_some, ← number, linesBefore?]
    split <;> rfl

/-- The four numbers of a header are read back as they were printed. -/
theorem header?_render (oldStart oldLength newStart newLength : Nat) :
    header? ("@@ -" ++ rangeText oldStart oldLength ++ " +" ++ rangeText newStart newLength ++ " @@\n") =
      some ((oldStart, oldLength), (newStart, newLength)) := by
  have noBlank : ∀ start length, CodePoint.ofChar ' ' ∉ rangeText start length := by
    intro start length member
    rcases isDigit_or_comma_of_mem_rangeText member with digit | comma
    · cases digit
    · cases comma
  let words : List Text := ["@@", CodePoint.ofChar '-' :: rangeText oldStart oldLength,
    CodePoint.ofChar '+' :: rangeText newStart newLength, "@@\n"]
  have joined : [CodePoint.ofChar ' '].intercalate words =
      "@@ -" ++ rangeText oldStart oldLength ++ " +" ++ rangeText newStart newLength ++ " @@\n" := by
    simp only [List.append_assoc]
    rfl
  have whole : ∀ word ∈ words, CodePoint.ofChar ' ' ∉ word := by
    rintro word member blank
    simp only [words, List.mem_cons, List.not_mem_nil, or_false] at member
    rcases member with rfl | rfl | rfl | rfl
    · revert blank
      decide
    · exact noBlank _ _ ((List.mem_cons.mp blank).resolve_left (by decide))
    · exact noBlank _ _ ((List.mem_cons.mp blank).resolve_left (by decide))
    · revert blank
      decide
  have split := List.splitOn_intercalate _ whole (List.cons_ne_nil _ _)
  rw [joined] at split
  rw [header?, split]
  simp only [words, range?_rangeText]
  rfl

/-- A patch in the middle of its lines: how many lines of the old text are passed and which are left, the new text as
far as it is made, and how many lines of both texts the hunk still owes. -/
structure Patching where
  passed : Nat
  left : List Text
  made : List Text
  oldDue : Nat
  newDue : Nat

namespace Patching

/-- Goes on to a hunk with these ranges. -/
def enter (p : Patching) (old new : Nat × Nat) : Option Patching :=
  let skipped := old.1 - p.passed
  if p.passed ≤ old.1 ∧ skipped ≤ p.left.length ∧ p.made.length + skipped = new.1 then
    some ⟨old.1, p.left.drop skipped, p.made ++ p.left.take skipped, old.2, new.2⟩
  else none

def remove (p : Patching) (line : Text) : Option Patching :=
  match p.left, p.oldDue with
  | next :: left, due + 1 =>
    if next = line then some { p with passed := p.passed + 1, left := left, oldDue := due } else none
  | _, _ => none

def add (p : Patching) (line : Text) : Option Patching :=
  match p.newDue with
  | due + 1 => some { p with made := p.made ++ [line], newDue := due }
  | 0 => none

/-- Takes one more line of the patch. -/
def step (p : Patching) (line : Text) : Option Patching :=
  if p.oldDue = 0 ∧ p.newDue = 0 then do
    let (old, new) ← header? line
    p.enter old new
  else
    match line with
    | [] => none
    | mark :: line =>
      if mark = ' ' then do
        let p ← p.remove line
        p.add line
      else if mark = '-' then p.remove line
      else if mark = '+' then p.add line
      else none

/-- The new text if no hunk owes a line. -/
def finish (p : Patching) : Option (List Text) :=
  if p.oldDue = 0 ∧ p.newDue = 0 then some (p.made ++ p.left) else none

/-- The new text after the last lines of a patch. -/
def run (p : Patching) (lines : List Text) : Option (List Text) := (lines.foldlM step p).bind finish

end Patching

/-- The lines that a patch makes out of the old ones. The first two lines of a patch name both texts. -/
def patch (old : List Text) : (lines : List Text) → Option (List Text)
  | [] => some old
  | first :: second :: lines =>
    if first.take 4 = "--- " ∧ second.take 4 = "+++ " then Patching.run ⟨0, old, [], 0, 0⟩ lines else none
  | [_] => none

def Hunk.old (h : Hunk) : List Text := h.pieces.flatMap Piece.old

def Hunk.new (h : Hunk) : List Text := h.pieces.flatMap Piece.new

theorem Hunk.old_add (h : Hunk) (p : Piece Text) : (h.add p).old = h.old ++ p.old := by
  rw [old, add, List.flatMap_append, List.flatMap_singleton]
  rfl

theorem Hunk.new_add (h : Hunk) (p : Piece Text) : (h.add p).new = h.new ++ p.new := by
  rw [new, add, List.flatMap_append, List.flatMap_singleton]
  rfl

theorem Hunk.old_singleton (i j : Nat) (p : Piece Text) : Hunk.old ⟨i, j, [p]⟩ = p.old := List.flatMap_singleton ..

theorem Hunk.new_singleton (i j : Nat) (p : Piece Text) : Hunk.new ⟨i, j, [p]⟩ = p.new := List.flatMap_singleton ..

namespace Patching

variable {passed oldDue newDue : Nat} {left made : List Text}

theorem remove_next (line : Text) :
    remove ⟨passed, line :: left, made, oldDue + 1, newDue⟩ line = some ⟨passed + 1, left, made, oldDue, newDue⟩ :=
  if_pos rfl

theorem step_removed (line : Text) :
    step ⟨passed, line :: left, made, oldDue + 1, newDue⟩ ("-" ++ line) =
      some ⟨passed + 1, left, made, oldDue, newDue⟩ :=
  (if_neg fun none => Nat.succ_ne_zero _ none.1).trans (remove_next line)

theorem step_added (line : Text) :
    step ⟨passed, left, made, oldDue, newDue + 1⟩ ("+" ++ line) =
      some ⟨passed, left, made ++ [line], oldDue, newDue⟩ := if_neg fun none => Nat.succ_ne_zero _ none.2

theorem step_kept (line : Text) :
    step ⟨passed, line :: left, made, oldDue + 1, newDue + 1⟩ (" " ++ line) =
      some ⟨passed + 1, left, made ++ [line], oldDue, newDue⟩ :=
  (if_neg fun none => Nat.succ_ne_zero _ none.1).trans (congrArg (·.bind fun p => p.add line) (remove_next line))

theorem foldlM_removed (items : List Text) :
    (items.map fun (line : Text) => "-" ++ line).foldlM step
      ⟨passed, items ++ left, made, items.length + oldDue, newDue⟩ =
        some ⟨passed + items.length, left, made, oldDue, newDue⟩ := by
  induction items generalizing passed with
  | nil => rw [List.length_nil, Nat.zero_add]; rfl
  | cons line items ih =>
    rw [List.map_cons, List.foldlM_cons, List.length_cons, Nat.add_right_comm _ 1 oldDue, ← Nat.add_assoc,
      Nat.add_right_comm passed, List.cons_append, step_removed]
    exact ih

theorem foldlM_added (items : List Text) :
    (items.map fun (line : Text) => "+" ++ line).foldlM step ⟨passed, left, made, oldDue, items.length + newDue⟩ =
      some ⟨passed, left, made ++ items, oldDue, newDue⟩ := by
  induction items generalizing made with
  | nil => rw [List.length_nil, Nat.zero_add, List.append_nil]; rfl
  | cons line items ih =>
    rw [List.map_cons, List.foldlM_cons, List.length_cons, Nat.add_right_comm, step_added,
      List.append_cons made line items]
    exact ih

theorem foldlM_kept (items : List Text) :
    (items.map fun (line : Text) => " " ++ line).foldlM step
      ⟨passed, items ++ left, made, items.length + oldDue, items.length + newDue⟩ =
        some ⟨passed + items.length, left, made ++ items, oldDue, newDue⟩ := by
  induction items generalizing passed made with
  | nil => rw [List.length_nil, Nat.zero_add, Nat.zero_add, List.append_nil]; rfl
  | cons line items ih =>
    rw [List.map_cons, List.foldlM_cons, List.length_cons, Nat.add_right_comm _ 1 oldDue,
      Nat.add_right_comm _ 1 newDue, ← Nat.add_assoc, Nat.add_right_comm passed, List.cons_append, step_kept,
      List.append_cons made line items]
    exact ih

theorem foldlM_cons_of {p p' : Patching} {line : Text} (first : step p line = some p') (more : List Text) :
    (line :: more).foldlM step p = more.foldlM step p' := by
  rw [List.foldlM_cons, first]
  rfl

theorem foldlM_append_of {p p' : Patching} {lines : List Text} (first : lines.foldlM step p = some p')
    (more : List Text) : (lines ++ more).foldlM step p = more.foldlM step p' := by
  rw [List.foldlM_append, first]
  rfl

theorem run_append_of {p p' : Patching} {lines : List Text} (first : lines.foldlM step p = some p')
    (more : List Text) : run p (lines ++ more) = run p' more := by
  rw [run, foldlM_append_of first]
  rfl

/-- The lines of a piece take its old lines from what is left, and put its new lines to what is
made. -/
theorem foldlM_body (p : Piece Text) :
    p.body.foldlM step ⟨passed, p.old ++ left, made, p.old.length + oldDue, p.new.length + newDue⟩ =
      some ⟨passed + p.old.length, left, made ++ p.new, oldDue, newDue⟩ := by
  cases p with
  | same items => exact foldlM_kept items
  | change removed added => exact (foldlM_append_of (foldlM_removed removed) _).trans (foldlM_added added)

/-- A hunk whose header announces its lines is used up by them, with nothing due at the end. -/
theorem foldlM_bodies (ps : List (Piece Text)) :
    (ps.flatMap Piece.body).foldlM step
      ⟨passed, ps.flatMap Piece.old ++ left, made, (ps.flatMap Piece.old).length, (ps.flatMap Piece.new).length⟩ =
        some ⟨passed + (ps.flatMap Piece.old).length, left, made ++ ps.flatMap Piece.new, 0, 0⟩ := by
  induction ps generalizing passed made with
  | nil => simp only [List.flatMap_nil, List.append_nil]; rfl
  | cons p ps ih =>
    simp only [List.flatMap_cons, List.append_assoc, List.length_append]
    refine (foldlM_append_of (foldlM_body p) _).trans (ih.trans ?_)
    rw [Nat.add_assoc, List.append_assoc]

/-- Lines before a hunk are copied up to the place its header tells. -/
theorem enter_of_skipped {skipped : List Text} {old new : Nat × Nat} (oldStart : passed + skipped.length = old.1)
    (newStart : made.length + skipped.length = new.1) :
    enter ⟨passed, skipped ++ left, made, 0, 0⟩ old new = some ⟨old.1, left, made ++ skipped, old.2, new.2⟩ := by
  have between : old.1 - passed = skipped.length := by omega
  simp only [enter, between, List.drop_left, List.take_left, List.length_append]
  exact if_pos ⟨by omega, by omega, newStart⟩

/-- The lines of a hunk are taken where the hunk starts, and leave no line owed. -/
theorem foldlM_render (h : Hunk) (left : List Text) {skipped : List Text}
    (oldStart : passed + skipped.length = h.oldStart) (newStart : made.length + skipped.length = h.newStart) :
    h.render.foldlM step ⟨passed, skipped ++ (h.old ++ left), made, 0, 0⟩ =
      some ⟨h.oldStart + h.old.length, left, made ++ skipped ++ h.new, 0, 0⟩ := by
  have entered : step ⟨passed, skipped ++ (h.old ++ left), made, 0, 0⟩
      ("@@ -" ++ rangeText h.oldStart h.old.length ++ " +" ++ rangeText h.newStart h.new.length ++ " @@\n") =
      some ⟨h.oldStart, h.old ++ left, made ++ skipped, h.old.length, h.new.length⟩ := by
    unfold step
    rw [if_pos ⟨rfl, rfl⟩, header?_render]
    exact enter_of_skipped oldStart newStart
  exact (foldlM_cons_of entered _).trans (foldlM_bodies h.pieces)

/-- Between two hunks the lines are passed that neither of them shows, and the next hunk starts behind them. -/
theorem take_drop_append_drop {items : List Text} (long : 2 * context < items.length) :
    (items.drop context).take (items.length - 2 * context) ++ items.drop (items.length - context) =
      items.drop context := by
  have behind : items.drop (items.length - context) = (items.drop context).drop (items.length - 2 * context) := by
    rw [List.drop_drop]
    congr 1
    omega
  rw [behind, List.take_append_drop]

/-- The hunks after an open one make the lines after those of the hunk. -/
theorem run_of_hunked {i j : Nat} {h : Hunk} {ps : List (Piece Text)} {hs : List Hunk} (hunked : Hunked i j h ps hs)
    {skipped : List Text} (oldStart : passed + skipped.length = h.oldStart)
    (newStart : made.length + skipped.length = h.newStart) (oldEnd : h.oldStart + h.old.length = i)
    (newEnd : h.newStart + h.new.length = j) :
    run ⟨passed, skipped ++ (h.old ++ ps.flatMap Piece.old), made, 0, 0⟩ (hs.flatMap Hunk.render) =
      some (made ++ skipped ++ h.new ++ ps.flatMap Piece.new) := by
  induction hunked generalizing passed made skipped with
  | @ended _ _ h =>
    rw [List.flatMap_singleton, run, foldlM_render h _ oldStart newStart]
    rfl
  | @last _ _ h items =>
    have last := foldlM_render (h.add (.same (items.take context))) (items.drop context) oldStart newStart
    simp only [Hunk.old_add, Hunk.new_add, Piece.old, Piece.new, List.append_assoc, List.take_append_drop] at last
    simp only [List.flatMap_singleton, Piece.old, Piece.new, run, last, Option.bind_some, finish, List.append_assoc,
      List.take_append_drop]
    rfl
  | @cut i j h items ps hs long _ ih =>
    -- The open hunk ends within the run, and the next one starts in its last lines.
    have here := foldlM_render (h.add (.same (items.take context))) (items.drop context ++ ps.flatMap Piece.old)
      oldStart newStart
    have first : (items.take context).length = context := by rw [List.length_take]; omega
    have between : ((items.drop context).take (items.length - 2 * context)).length = items.length - 2 * context := by
      rw [List.length_take, List.length_drop]; omega
    have last : (items.drop (items.length - context)).length = context := by rw [List.length_drop]; omega
    have skip := take_drop_append_drop long
    simp only [Hunk.old_add, Hunk.new_add, Piece.old, Piece.new, List.append_assoc] at here
    simp only [Hunk.old_singleton, Hunk.new_singleton, Piece.old, Piece.new] at ih
    have oldNext : h.oldStart + (h.old ++ items.take context).length +
        ((items.drop context).take (items.length - 2 * context)).length = i + items.length - context := by
      simp only [List.length_append, first, between]; omega
    have newNext : (made ++ (skipped ++ (h.new ++ items.take context))).length +
        ((items.drop context).take (items.length - 2 * context)).length = j + items.length - context := by
      simp only [List.length_append, first, between]; omega
    have later := ih oldNext newNext (by simp only [last]; omega) (by simp only [last]; omega)
    have whole : items.take context ++ (items.drop context ++ ps.flatMap Piece.old) =
        (Piece.same items :: ps).flatMap Piece.old := by
      rw [← List.append_assoc, List.take_append_drop]
      rfl
    rw [← List.append_assoc, skip] at later
    rw [whole] at here
    refine (run_append_of here _).trans (later.trans ?_)
    simp only [List.append_assoc, List.flatMap_cons, Piece.new]
    rw [← List.append_assoc (List.take _ (List.drop _ _)), skip, ← List.append_assoc (List.take _ _),
      List.take_append_drop]
  | @grown _ _ h p ps hs _ ih =>
    have grown := ih oldStart newStart
      (by rw [Hunk.old_add, List.length_append, ← Nat.add_assoc]; exact congrArg (· + p.old.length) oldEnd)
      (by rw [Hunk.new_add, List.length_append, ← Nat.add_assoc]; exact congrArg (· + p.new.length) newEnd)
    simpa only [Hunk.old_add, Hunk.new_add, List.flatMap_cons, List.append_assoc] using grown

/-- All hunks together make the new lines out of the old ones. -/
theorem run_hunks (ps : List (Piece Text)) :
    run ⟨0, ps.flatMap Piece.old, [], 0, 0⟩ ((hunks ps).flatMap Hunk.render) = some (ps.flatMap Piece.new) := by
  unfold hunks
  split
  · rfl
  next items => rfl
  next items rest more =>
    have last : (items.take (items.length - context)).length = items.length - context := by
      rw [List.length_take]; omega
    have shown : items.length - context + (items.drop (items.length - context)).length = items.length := by
      rw [List.length_drop]; omega
    have hunked := hunked_hunksAfter items.length items.length
      ⟨items.length - context, items.length - context, [.same (items.drop (items.length - context))]⟩ rest
    have start : 0 + (items.take (items.length - context)).length = items.length - context := by rw [last, Nat.zero_add]
    have whole := run_of_hunked hunked start (show ([] : List Text).length + _ = _ from start)
      (by rwa [Hunk.old_singleton]) (by rwa [Hunk.new_singleton])
    rw [Hunk.old_singleton, Hunk.new_singleton, Piece.old, Piece.new, List.nil_append, ← List.append_assoc,
      List.take_append_drop] at whole
    exact whole
  · have start : 0 + ([] : List Text).length = 0 := rfl
    exact run_of_hunked (hunked_hunksAfter 0 0 ⟨0, 0, []⟩ _) start (show ([] : List Text).length + _ = _ from start)
      rfl rfl

section Inversion

variable {p p' : Patching} {line : Text} {lines more new : List Text}

/-- No line is a header that starts with something else than the sign of headers. -/
theorem header?_eq_none {c : CodePoint} (other : c ≠ '@') (line : Text) : header? (c :: line) = none := by
  obtain ⟨word, words, split, odd⟩ : ∃ word words,
      (c :: line).splitOn (CodePoint.ofChar ' ') = word :: words ∧ word ≠ ("@@" : Text) := by
    rw [List.splitOn_cons_eq_if_modifyHead]
    split
    · exact ⟨[], _, rfl, by decide⟩
    · obtain ⟨word, words, split⟩ := List.exists_cons_of_ne_nil (List.splitOn_ne_nil (CodePoint.ofChar ' ') line)
      exact ⟨c :: word, words, by rw [split]; rfl, fun same => other (List.cons.inj same).1⟩
  rw [header?, split]
  split
  next alike =>
    cases alike
    exact if_neg fun signs => odd signs.1
  · rfl

theorem left_of_remove (removed : p.remove line = some p') : p.left = line :: p'.left ∧ p'.made = p.made := by
  unfold remove at removed
  split at removed
  next next left due here owed =>
    split at removed
    next same =>
      cases removed
      exact ⟨same ▸ here, rfl⟩
    · cases removed
  · cases removed

theorem made_of_add (added : p.add line = some p') : p'.made = p.made ++ [line] := by
  unfold add at added
  split at added
  · cases added
    rfl
  · cases added

/-- What a line of a patch can be: a header, a line of both texts, one of the old text or one of the new text. -/
theorem step_cases (taken : step p line = some p') :
    (∃ old new, header? line = some (old, new) ∧ p.enter old new = some p') ∨
    (∃ l p₁, line = CodePoint.ofChar ' ' :: l ∧ p.remove l = some p₁ ∧ p₁.add l = some p') ∨
    (∃ l, line = CodePoint.ofChar '-' :: l ∧ p.remove l = some p') ∨
    ∃ l, line = CodePoint.ofChar '+' :: l ∧ p.add l = some p' := by
  unfold step at taken
  split at taken
  · obtain ⟨⟨old, new⟩, header, entered⟩ := Option.bind_eq_some_iff.mp taken
    exact Or.inl ⟨old, new, header, entered⟩
  · split at taken
    · cases taken
    next mark l =>
      split at taken
      next blank =>
        obtain ⟨p₁, removed, added⟩ := Option.bind_eq_some_iff.mp taken
        exact Or.inr (Or.inl ⟨l, p₁, by rw [blank], removed, added⟩)
      · split at taken
        next minus => exact Or.inr (Or.inr (Or.inl ⟨l, by rw [minus], taken⟩))
        · split at taken
          next plus => exact Or.inr (Or.inr (Or.inr ⟨l, by rw [plus], taken⟩))
          · cases taken

/-- What is made stays. -/
theorem made_isPrefix_of_step (taken : step p line = some p') : p.made <+: p'.made := by
  rcases step_cases taken with ⟨old, new, -, entered⟩ | ⟨l, p₁, -, removed, added⟩ | ⟨l, -, removed⟩ | ⟨l, -, added⟩
  · unfold enter at entered
    dsimp only at entered
    split at entered
    · cases entered
      exact List.prefix_append _ _
    · cases entered
  · rw [made_of_add added, (left_of_remove removed).2]
    exact List.prefix_append _ _
  · exact ⟨[], (List.append_nil _).trans (left_of_remove removed).2.symm⟩
  · rw [made_of_add added]
    exact List.prefix_append _ _

theorem run_cons (p : Patching) (line : Text) (lines : List Text) :
    run p (line :: lines) = (step p line).bind fun p => run p lines := by
  unfold run
  rw [List.foldlM_cons]
  cases step p line <;> rfl

theorem made_isPrefix_of_run (done : run p lines = some new) : p.made <+: new := by
  induction lines generalizing p with
  | nil =>
    have finished : p.finish = some new := done
    unfold finish at finished
    split at finished
    · cases finished
      exact List.prefix_append _ _
    · cases finished
  | cons line lines ih =>
    rw [run_cons] at done
    obtain ⟨p', taken, done⟩ := Option.bind_eq_some_iff.mp done
    exact (made_isPrefix_of_step taken).trans (ih done)

/-- A patch that succeeds has a state at any point between two of its lines. -/
theorem exists_of_run_append (done : run p (lines ++ more) = some new) :
    ∃ p', lines.foldlM step p = some p' ∧ run p' more = some new := by
  rw [run, List.foldlM_append] at done
  cases first : lines.foldlM step p with
  | none =>
    rw [first] at done
    cases done
  | some p' =>
    rw [first] at done
    exact ⟨p', rfl, done⟩

end Inversion

end Patching

end Diff

end Mender
