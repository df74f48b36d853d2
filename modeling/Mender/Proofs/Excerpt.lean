import Mathlib.Data.List.Forall2
import Mender.Excerpt
import Mender.Proofs.Diff.Patch
import Mender.Proofs.Text.Lines
import Mender.Proofs.Text.Quoted

namespace Mender

theorem Defect.one_le_line (d : Defect) : ∀ n ∈ d.line, 1 ≤ n := by
  intro n member
  obtain ⟨p, -, rfl⟩ := Option.map_eq_some_iff.mp member
  exact p.one_le_line

namespace Text

theorem length_ofNat_mono {m n : Nat} (le : m ≤ n) : (ofNat m).length ≤ (ofNat n).length := by
  have digits (k : Nat) : (ofNat k).length = (Nat.toDigits 10 k).length := by rw [ofNat_eq_map, List.length_map]
  have some : 0 < (Nat.toDigits 10 n).length := Nat.length_toDigits_pos
  have below : n < 10 ^ (Nat.toDigits 10 n).length := (Nat.length_toDigits_le_iff (by decide) some).mp (Nat.le_refl _)
  rw [digits, digits, Nat.length_toDigits_le_iff (by decide) some]
  exact Nat.lt_of_le_of_lt le below

theorem ofNat_ne_nil (n : Nat) : ofNat n ≠ [] := by
  rw [ofNat_eq_map, ne_eq, List.map_eq_nil_iff]
  exact Nat.toDigits_ne_nil

/-- The lines whose numbers are in a range, with their numbers. -/
def numberedLines (t : Text) (first last : Int) : List (Text × Nat) :=
  (t.lines.zipIdx 1).filter fun p => first ≤ p.2 ∧ p.2 ≤ last

section NumberedLines

variable {t : Text} {first last : Int} {p : Text × Nat} {front shown back : List Text}

/-- The lines shown are lines of the text, with numbers in the range asked for. -/
theorem mem_numberedLines (member : p ∈ t.numberedLines first last) : p.1 ∈ t.lines ∧ first ≤ p.2 ∧ p.2 ≤ last := by
  obtain ⟨inside, within⟩ := List.mem_filter.mp member
  exact ⟨List.fst_mem_of_mem_zipIdx inside, of_decide_eq_true within⟩

theorem numberedLines_eq_nil (none : last < first) : t.numberedLines first last = [] := by
  refine List.eq_nil_iff_forall_not_mem.mpr fun p member => ?_
  obtain ⟨-, above, below⟩ := mem_numberedLines member
  omega

theorem numberedLines_of_parts (lines : t.lines = front ++ (shown ++ back)) :
    t.numberedLines (front.length + 1) (front.length + shown.length) = shown.zipIdx (1 + front.length) := by
  let within (p : Text × Nat) : Bool := (front.length : Int) + 1 ≤ p.2 ∧ p.2 ≤ (front.length : Int) + shown.length
  have early : ∀ p ∈ front.zipIdx 1, ¬within p = true := by
    intro p member
    have below := List.snd_lt_add_of_mem_zipIdx member
    rw [decide_eq_true_eq]
    omega
  have here : ∀ p ∈ shown.zipIdx (1 + front.length), within p = true := by
    intro p member
    have above := List.le_snd_of_mem_zipIdx member
    have below := List.snd_lt_add_of_mem_zipIdx member
    rw [decide_eq_true_eq]
    omega
  have late : ∀ p ∈ back.zipIdx (1 + front.length + shown.length), ¬within p = true := by
    intro p member
    have above := List.le_snd_of_mem_zipIdx member
    rw [decide_eq_true_eq]
    omega
  rw [numberedLines, lines, List.zipIdx_append, List.zipIdx_append, List.filter_append, List.filter_append]
  rw [List.filter_eq_nil_iff.mpr early, List.filter_eq_self.mpr here, List.filter_eq_nil_iff.mpr late, List.nil_append,
    List.append_nil]

/-- They are a piece of the list of lines. -/
theorem numberedLines_window {start count : Nat} (inside : start + count ≤ t.lines.length) :
    t.numberedLines (start + 1) (start + count) = ((t.lines.drop start).take count).zipIdx (1 + start) := by
  have lines : t.lines = t.lines.take start ++ ((t.lines.drop start).take count ++ (t.lines.drop start).drop count) := by
    rw [List.take_append_drop, List.take_append_drop]
  have starts : (t.lines.take start).length = start := by
    rw [List.length_take]
    omega
  have counts : ((t.lines.drop start).take count).length = count := by
    rw [List.length_take, List.length_drop]
    omega
  have parts := numberedLines_of_parts lines
  rwa [starts, counts] at parts

end NumberedLines

end Text

namespace Excerpt

/-- A row for a line and its number: the number at the right end of a field, a bar, and the line. -/
def IsRow (width : Nat) (line : Text × Nat) (r : Text) : Prop :=
  ∃ gap, gap + (Text.ofNat line.2).length = width ∧
    r = List.replicate gap (CodePoint.ofChar ' ') ++ (Text.ofNat line.2 ++ (" | " ++ line.1))

/-- The line in a row, with its number. -/
def readRow? (r : Text) : Option (Text × Nat) :=
  let (numeral, rest) := (r.dropWhile fun c => !c.isDigit).span CodePoint.isDigit
  if Text.startsWith rest " | " then (Numeral.digitsValue? 10 numeral).map (rest.drop 3, ·) else none

/-- The lines in the rows of a text, with their numbers. -/
def read? (shown : Text) : Option (List (Text × Nat)) := shown.lines.mapM readRow?

/-- The excerpt tells the lines from its first to its last one, with all numbers in one column. The line that is asked
for is among them if the text has it. If none is asked for, all lines are told. -/
structure Tells (e : Excerpt) (t : Text) (line : Option Nat) : Prop where
  one_le_first : 1 ≤ e.first
  last_le : e.last ≤ t.lines.length
  holds : ∀ n ∈ line, n ≤ t.lines.length → e.first ≤ n ∧ n ≤ e.last
  whole : line = none → e.first = 1 ∧ e.last = t.lines.length
  aligned : ∃ width, List.Forall₂ (IsRow width) (t.numberedLines e.first e.last) e.rows

/-- And there are such lines, which its text gives back. -/
structure Shows (e : Excerpt) (t : Text) (line : Option Nat) : Prop extends Tells e t line where
  first_le_last : e.first ≤ e.last
  length_rows : e.rows.length = e.last - e.first + 1
  read : read? e.text = some (t.numberedLines e.first e.last)

section Row

variable {width number : Nat} {line r : Text} {p : Text × Nat}

theorem isRow_row (fits : (Text.ofNat number).length ≤ width) : IsRow width (line, number) (row width number line) := by
  refine ⟨width - (Text.ofNat number).length, Nat.sub_add_cancel fits, ?_⟩
  rw [row, Text.padLeft, List.append_assoc, List.append_assoc]

theorem IsRow.read (isRow : IsRow width p r) : readRow? r = some p := by
  obtain ⟨gap, -, rfl⟩ := isRow
  have digits : ∀ c ∈ Text.ofNat p.2, c.isDigit = true := fun c member => Text.isDigit_of_mem_ofNat member
  have numeral : (List.replicate gap (CodePoint.ofChar ' ') ++ (Text.ofNat p.2 ++ (" | " ++ p.1))).dropWhile
      (fun c => !c.isDigit) = Text.ofNat p.2 ++ CodePoint.ofChar ' ' :: ("| " ++ p.1) := by
    have blank : ∀ c ∈ List.replicate gap (CodePoint.ofChar ' '), (!c.isDigit) = true := by
      intro c member
      rw [List.eq_of_mem_replicate member]
      rfl
    obtain ⟨digit, more, first⟩ := List.exists_cons_of_ne_nil (Text.ofNat_ne_nil p.2)
    have stops := digits digit (first ▸ List.mem_cons_self)
    rw [List.dropWhile_append_of_pos blank, first, List.cons_append, List.dropWhile_cons, stops]
    rfl
  rw [readRow?, numeral, Text.span_run digits rfl]
  change Option.map _ (Numeral.digitsValue? 10 (Text.ofNat p.2)) = _
  rw [Numeral.digitsValue?_ofNat]
  rfl

theorem IsRow.unbroken (isRow : IsRow width p r) (unbroken : Text.lineFeed ∉ p.1) : Text.lineFeed ∉ r := by
  obtain ⟨gap, -, rfl⟩ := isRow
  intro feed
  rcases List.mem_append.mp feed with blank | feed
  · exact absurd (List.eq_of_mem_replicate blank) (by decide)
  rcases List.mem_append.mp feed with digit | feed
  · exact absurd (Text.isDigit_of_mem_ofNat digit) (by decide)
  rcases List.mem_append.mp feed with bar | inside
  · exact absurd bar (by decide)
  · exact unbroken inside

end Row

/-- Rows for lines give the lines back. -/
theorem mapM_readRow? {width : Nat} {ps : List (Text × Nat)} {rows : List Text}
    (aligned : List.Forall₂ (IsRow width) ps rows) : rows.mapM readRow? = some ps := by
  induction aligned with
  | nil => rfl
  | cons isRow _ ih =>
    rw [List.mapM_cons, isRow.read, ih]
    rfl

theorem unbroken_rows {width : Nat} {ps : List (Text × Nat)} {rows : List Text}
    (aligned : List.Forall₂ (IsRow width) ps rows) (unbroken : ∀ p ∈ ps, Text.lineFeed ∉ p.1) :
    ∀ r ∈ rows, Text.lineFeed ∉ r := by
  induction aligned with
  | nil => exact List.forall_mem_nil _
  | cons isRow _ ih =>
    obtain ⟨here, later⟩ := List.forall_mem_cons.mp unbroken
    exact List.forall_mem_cons.mpr ⟨isRow.unbroken here, ih later⟩

theorem forall₂_isRow {start width : Nat} {shown : List Text}
    (fits : (Text.ofNat (start + shown.length)).length ≤ width) :
    List.Forall₂ (IsRow width) (shown.zipIdx (1 + start))
      (shown.mapIdx fun i content => row width (start + i + 1) content) := by
  rw [List.mapIdx_eq_zipIdx_map, List.zipIdx_eq_map_add, List.forall₂_map_left_iff, List.forall₂_map_right_iff,
    List.forall₂_same]
  rintro ⟨content, i⟩ member
  have inside := List.snd_lt_of_mem_zipIdx member
  have number : 1 + start + i = start + i + 1 := by omega
  have le : start + i + 1 ≤ start + shown.length := by omega
  change IsRow width (content, 1 + start + i) _
  rw [number]
  exact isRow_row ((Text.length_ofNat_mono le).trans fits)

section Window

variable {e : Excerpt} {t : Text} {line : Option Nat} {first last : Int}

theorem exists_window (positive : 1 ≤ first) (some : first ≤ last) :
    ∃ start count : Nat, first = start + 1 ∧ last = start + count :=
  ⟨first.toNat - 1, (last - first + 1).toNat, by omega, by omega⟩

/-- What is told is shown as soon as it is anything. -/
theorem Tells.shows_iff (tells : e.Tells t line) : e.Shows t line ↔ e.first ≤ e.last := by
  refine ⟨Shows.first_le_last, fun some => ?_⟩
  obtain ⟨width, aligned⟩ := tells.aligned
  obtain ⟨start, count, starts, ends⟩ := exists_window tells.one_le_first some
  have inside := tells.last_le
  have size : (t.numberedLines e.first e.last).length = count := by
    rw [starts, ends, Text.numberedLines_window (by omega), List.length_zipIdx, List.length_take, List.length_drop]
    omega
  have rows := aligned.length_eq
  have unbroken : ∀ p ∈ t.numberedLines e.first e.last, Text.lineFeed ∉ p.1 := fun p member =>
    Text.lineFeed_notMem_of_mem_lines (Text.mem_numberedLines member).1
  refine { tells with first_le_last := some, length_rows := by omega, read := ?_ }
  have present : e.rows ≠ [] := List.ne_nil_of_length_pos (by omega)
  rw [read?, text, Text.lines_ofLines (unbroken_rows aligned unbroken) present, mapM_readRow? aligned]

/-- Row by row, a window holds the lines of the range, each with its number. -/
theorem aligned_window (positive : 1 ≤ first) (inside : last ≤ t.lines.length) :
    List.Forall₂ (IsRow (Text.ofInt last).length) (t.numberedLines first last)
      (((t.lines.drop (first.toNat - 1)).take (last - first + 1).toNat).mapIdx fun i content =>
        row (Text.ofInt last).length (first.toNat - 1 + i + 1) content) := by
  by_cases some : first ≤ last
  · obtain ⟨start, count, rfl, rfl⟩ := exists_window positive some
    have begins : ((start : Int) + 1).toNat - 1 = start := by omega
    have counts : ((start : Int) + count - (start + 1) + 1).toNat = count := by omega
    rw [begins, counts, Text.numberedLines_window (by omega)]
    have shown := List.length_take_le count (t.lines.drop start)
    exact forall₂_isRow (Text.length_ofNat_mono (Nat.add_le_add_left shown start))
  · have none : (last - first + 1).toNat = 0 := by omega
    rw [none, List.take_zero, Text.numberedLines_eq_nil (by omega)]
    exact .nil

/-- Around a defect with no line, or one counted from one, the excerpt tells what it should. -/
theorem around_tells {line : Option Nat} (counted : ∀ n ∈ line, 1 ≤ n) (t : Text) (radius : Nat) :
    (around t (line.map fun n : Nat => (n : Int)) radius).Tells t line := by
  cases line with
  | none =>
    have inside : (t.lines.length : Int) ≤ t.lines.length := Int.le_refl _
    exact {
      one_le_first := Int.le_refl 1
      last_le := inside
      holds := nofun
      whole := fun _ => ⟨rfl, rfl⟩
      aligned := ⟨_, aligned_window (Int.le_refl 1) inside⟩ }
  | some n =>
    have one_le := counted n rfl
    have positive : 1 ≤ max 1 ((n : Int) - radius) := Int.le_max_left _ _
    have inside : min (t.lines.length : Int) (n + radius) ≤ t.lines.length := Int.min_le_left _ _
    have above : max 1 ((n : Int) - radius) ≤ n := by omega
    have below : n ≤ t.lines.length → (n : Int) ≤ min (t.lines.length : Int) (n + radius) := by omega
    exact {
      one_le_first := positive
      last_le := inside
      holds := by
        rintro m ⟨⟩ present
        exact ⟨above, below present⟩
      whole := nofun
      aligned := ⟨_, aligned_window positive inside⟩ }

/-- The first line is held back at the start of the text only, and the last one at its end only. So the first one comes
after the last one just if a line is asked for that is more than the radius beyond the end. -/
theorem around_first_le_last {line : Option Nat} (counted : ∀ n ∈ line, 1 ≤ n) (t : Text) (radius : Nat) :
    (around t (line.map fun n : Nat => (n : Int)) radius).first ≤
        (around t (line.map fun n : Nat => (n : Int)) radius).last ↔
      ∀ n ∈ line, n ≤ t.lines.length + radius := by
  have lines := List.length_pos_of_ne_nil t.lines_ne_nil
  cases line with
  | none =>
    change (1 : Int) ≤ t.lines.length ↔ _
    exact iff_of_true (by omega) nofun
  | some n =>
    have one_le := counted n rfl
    change max 1 ((n : Int) - radius) ≤ min (t.lines.length : Int) (n + radius) ↔ _
    simp only [Option.mem_some_iff, forall_eq']
    omega

end Window

/-- An excerpt for a defect always tells the lines in its range, and shows some of them just if the line of the defect is
at most the radius beyond the end of the text. -/
theorem aroundLoosely_shows_iff (d : Defect) (t : Text) (radius : Nat) :
    ∃ e, aroundLoosely t (d.line.map fun n : Nat => (n : Int)) (.int radius) = .ok e ∧ e.Tells t d.line ∧
      (e.Shows t d.line ↔ ∀ n ∈ d.line, n ≤ t.lines.length + radius) := by
  have taken : aroundLoosely t (d.line.map fun n : Nat => (n : Int)) (.int radius) =
      .ok (around t (d.line.map fun n : Nat => (n : Int)) radius) := by
    cases d.line <;> rfl
  have tells := around_tells d.one_le_line t radius
  exact ⟨_, taken, tells, tells.shows_iff.trans (around_first_le_last d.one_le_line t radius)⟩

example : (around "a\nb\nc\nd\ne\nf\ng\nh\ni\nj" (some 10) 1).rows = ([" 9 | i", "10 | j"] : List Text) := rfl

/-- For the line after the only one, nothing is shown. -/
theorem lineAfterEnd_notShown : ∃ e, aroundLoosely "a" (some 2) (.int 0) = .ok e ∧
    e.rows = [] ∧ e.first = 2 ∧ e.last = 1 ∧ ¬e.Shows "a" (some 2) :=
  ⟨_, rfl, rfl, rfl, rfl, fun shows => absurd shows.first_le_last (by decide)⟩

end Excerpt

end Mender
