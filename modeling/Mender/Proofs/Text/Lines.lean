import Mathlib.Data.List.TakeWhile
import Mender.Defect
import Mender.Text.Lines

namespace Mender.Text

theorem lines_cons (c : CodePoint) (rest : Text) :
    lines (c :: rest) =
      if c = lineFeed then [] :: lines rest else (lines rest).modifyHead (List.cons c) := by
  obtain ⟨line, more, split⟩ := List.exists_cons_of_ne_nil (lines_ne_nil rest)
  rw [lines, split]
  rfl

theorem lines_eq_splitOn (t : Text) : t.lines = t.splitOn lineFeed := by
  induction t with
  | nil => rfl
  | cons c rest ih =>
    rw [lines_cons, ih, List.splitOn_cons_eq_if_modifyHead]
    simp only [beq_iff_eq]

theorem ofLines_lines (t : Text) : ofLines t.lines = t := by
  rw [lines_eq_splitOn]
  exact List.intercalate_splitOn lineFeed

/-- Lines that hold no line feed are read back from their joined text. -/
theorem lines_ofLines {ls : List Text} (unbroken : ∀ l ∈ ls, lineFeed ∉ l) (some : ls ≠ []) :
    (ofLines ls).lines = ls := by
  rw [lines_eq_splitOn]
  exact List.splitOn_intercalate lineFeed unbroken some

theorem lines_append_lineFeed (t u : Text) : (t ++ lineFeed :: u).lines = t.lines ++ u.lines := by
  simp only [lines_eq_splitOn]
  exact List.splitOn_append_cons_self t u

theorem lineFeed_notMem_of_mem_lines {t l : Text} (member : l ∈ t.lines) : lineFeed ∉ l := by
  induction t generalizing l with
  | nil =>
    rw [List.mem_singleton.mp member]
    exact List.not_mem_nil
  | cons c rest ih =>
    rw [lines_cons] at member
    by_cases feed : c = lineFeed
    · rw [if_pos feed] at member
      rcases List.mem_cons.mp member with rfl | later
      · exact List.not_mem_nil
      · exact ih later
    · obtain ⟨line, more, split⟩ := List.exists_cons_of_ne_nil (lines_ne_nil rest)
      rw [if_neg feed, split, List.modifyHead_cons] at member
      rw [split] at ih
      rcases List.mem_cons.mp member with rfl | later
      · simpa [Ne.symm feed] using ih List.mem_cons_self
      · exact ih (List.mem_cons_of_mem _ later)

@[simp] theorem ofLines_singleton (l : Text) : ofLines [l] = l := List.intercalate_singleton

theorem ofLines_cons {l : Text} {ls : List Text} (some : ls ≠ []) :
    ofLines (l :: ls) = l ++ lineFeed :: ofLines ls := by
  unfold ofLines
  rw [List.intercalate_cons_of_ne_nil some, List.append_assoc, List.singleton_append]

/-- Texts put together as lines are split into the lines of each. -/
theorem lines_ofLines_eq_flatMap {ls : List Text} (some : ls ≠ []) :
    (ofLines ls).lines = ls.flatMap lines := by
  induction ls with
  | nil => exact (some rfl).elim
  | cons l ls ih =>
    by_cases last : ls = []
    · simp [last]
    · rw [ofLines_cons last, lines_append_lineFeed, ih last, List.flatMap_cons]

theorem flatMap_lines {ls : List Text} (unbroken : ∀ l ∈ ls, lineFeed ∉ l) :
    ls.flatMap lines = ls := by
  by_cases none : ls = []
  · rw [none, List.flatMap_nil]
  · rw [← lines_ofLines_eq_flatMap none, lines_ofLines unbroken none]

theorem ofLines_concat {ls : List Text} (some : ls ≠ []) (l : Text) :
    ofLines (ls ++ [l]) = ofLines ls ++ lineFeed :: l := by
  induction ls with
  | nil => exact (some rfl).elim
  | cons m ls ih =>
    by_cases last : ls = []
    · simp [last, ofLines_cons]
    · have more : ls ++ [l] ≠ [] := by simp
      rw [List.cons_append, ofLines_cons more, ih last, ofLines_cons last, List.append_assoc,
        List.cons_append]

/-- The last line of one text and the first line of the next become one. -/
theorem ofLines_append_ofLines (front : List Text) (l m : Text) (back : List Text) :
    ofLines (front ++ [l]) ++ ofLines (m :: back) = ofLines (front ++ (l ++ m) :: back) := by
  induction front with
  | nil =>
    cases back with
    | nil => simp
    | cons n back => simp [ofLines_cons]
  | cons k front ih =>
    have inner : front ++ [l] ≠ [] := by simp
    have outer : front ++ (l ++ m) :: back ≠ [] := by simp
    rw [List.cons_append, List.cons_append, ofLines_cons inner, ofLines_cons outer, List.append_assoc,
      List.cons_append, ih]

def lineCount (t : Text) : Nat := t.count lineFeed + 1

/-- Where a line starts, by its index: right after so many line feeds. -/
def lineStart : Text → Nat → Nat
  | _, 0 => 0
  | [], _ + 1 => 0
  | c :: rest, i + 1 => 1 + lineStart rest (if c = lineFeed then i else i + 1)

def lineLength (t : Text) (i : Nat) : Nat :=
  ((t.drop (lineStart t i)).takeWhile fun c => c ≠ lineFeed).length

def lineEnd (t : Text) (i : Nat) : Nat := lineStart t i + lineLength t i

/-- Where a position lies in a text. A column past the end of its line is the end of the line. -/
def offset (t : Text) (p : Position) : Nat :=
  lineStart t (p.line - 1) + min (p.column - 1) (lineLength t (p.line - 1))

/-- The text with something else in the place of a slice. -/
def replaceSlice (t : Text) (start stop : Nat) (new : Text) : Text := t.take start ++ new ++ t.drop stop

/-- The text without a line and without one line feed: the one after the line, or the one before the
last line. A text of one line becomes empty. -/
def withoutLine (t : Text) (i : Nat) : Text :=
  if t.lineCount = 1 then []
  else if i + 1 < t.lineCount then t.replaceSlice (t.lineStart i) (t.lineEnd i + 1) []
  else t.replaceSlice (t.lineStart i - 1) (t.lineEnd i) []

theorem length_lines (t : Text) : t.lines.length = t.lineCount := by
  unfold lineCount
  induction t with
  | nil => rfl
  | cons c rest ih =>
    rw [lines_cons]
    by_cases feed : c = lineFeed
    · rw [if_pos feed, List.length_cons, ih, feed, List.count_cons_self]
    · rw [if_neg feed, List.length_modifyHead, ih, List.count_cons_of_ne feed]

theorem lineStart_zero (t : Text) : t.lineStart 0 = 0 := by cases t <;> rfl

theorem lineStart_append_lineFeed {l : Text} (unbroken : lineFeed ∉ l) (t : Text) (i : Nat) :
    (l ++ lineFeed :: t).lineStart (i + 1) = l.length + 1 + t.lineStart i := by
  induction l with
  | nil => simp [lineStart]
  | cons c l ih =>
    rw [List.mem_cons, not_or] at unbroken
    rw [List.cons_append, lineStart, if_neg (Ne.symm unbroken.1), ih unbroken.2, List.length_cons]
    omega

/-- A text taken apart at a line. -/
structure At (t : Text) (i : Nat) (front : List Text) (line : Text) (back : List Text) : Prop where
  lines : t.lines = front ++ line :: back
  index : front.length = i

theorem exists_at_of_getElem? {t line : Text} {i : Nat} (here : t.lines[i]? = some line) :
    ∃ front back, t.At i front line back := by
  obtain ⟨inside, same⟩ := List.getElem?_eq_some_iff.mp here
  refine ⟨t.lines.take i, t.lines.drop (i + 1), ?_, List.length_take_of_le (Nat.le_of_lt inside)⟩
  rw [← same, ← List.drop_eq_getElem_cons inside, List.take_append_drop]

/-- Every line that is in the text cuts it into what is before, the line, and what is behind. -/
theorem exists_at {t : Text} {i : Nat} (inside : i < t.lineCount) :
    ∃ front line back, t.At i front line back := by
  rw [← length_lines] at inside
  obtain ⟨front, back, cut⟩ := exists_at_of_getElem? (List.getElem?_eq_getElem inside)
  exact ⟨front, _, back, cut⟩

namespace At

variable {t line : Text} {i column : Nat} {front back : List Text}

theorem unbroken (cut : t.At i front line back) :
    (∀ l ∈ front, lineFeed ∉ l) ∧ lineFeed ∉ line ∧ ∀ l ∈ back, lineFeed ∉ l := by
  have all : ∀ l ∈ front ++ line :: back, lineFeed ∉ l := fun l member =>
    lineFeed_notMem_of_mem_lines (cut.lines ▸ member)
  refine ⟨fun l member => all l ?_, all line ?_, fun l member => all l ?_⟩
  · exact List.mem_append_left _ member
  · exact List.mem_append_right _ List.mem_cons_self
  · exact List.mem_append_right _ (List.mem_cons_of_mem _ member)

/-- A text is what comes before a column of a line, and what comes from there on. -/
theorem eq_append (cut : t.At i front line back) (column : Nat) :
    t = ofLines (front ++ [line.take column]) ++ ofLines (line.drop column :: back) := by
  rw [ofLines_append_ofLines, List.take_append_drop, ← cut.lines, ofLines_lines]

theorem lineStart_eq (cut : t.At i front line back) :
    t.lineStart i = (ofLines (front ++ [[]])).length := by
  have whole := ofLines_lines t
  rw [cut.lines] at whole
  rw [← whole, ← cut.index]
  have unbroken := cut.unbroken.1
  clear cut whole
  induction front with
  | nil => exact lineStart_zero _
  | cons l front ih =>
    rw [List.cons_append, List.cons_append, ofLines_cons (by simp), ofLines_cons (by simp),
      List.length_cons, lineStart_append_lineFeed (unbroken l List.mem_cons_self),
      ih fun m member => unbroken m (List.mem_cons_of_mem _ member), List.length_append,
      List.length_cons]
    omega

theorem length_front (cut : t.At i front line back) (inside : column ≤ line.length) :
    (ofLines (front ++ [line.take column])).length = t.lineStart i + column := by
  have joined := ofLines_append_ofLines front [] (line.take column) []
  rw [List.nil_append] at joined
  rw [← joined, List.length_append, cut.lineStart_eq]
  simp [inside]

theorem take (cut : t.At i front line back) (inside : column ≤ line.length) :
    t.take (t.lineStart i + column) = ofLines (front ++ [line.take column]) := by
  have whole := congrArg (List.take (t.lineStart i + column)) (cut.eq_append column)
  rwa [← cut.length_front inside, List.take_left, cut.length_front inside] at whole

theorem drop (cut : t.At i front line back) (inside : column ≤ line.length) :
    t.drop (t.lineStart i + column) = ofLines (line.drop column :: back) := by
  have whole := congrArg (List.drop (t.lineStart i + column)) (cut.eq_append column)
  rwa [← cut.length_front inside, List.drop_left, cut.length_front inside] at whole

theorem lineLength_eq (cut : t.At i front line back) : t.lineLength i = line.length := by
  have rest := cut.drop (Nat.zero_le _)
  rw [Nat.add_zero, List.drop_zero] at rest
  have unbroken : ∀ c ∈ line, decide (c ≠ lineFeed) = true := by
    intro c member
    refine decide_eq_true ?_
    rintro rfl
    exact cut.unbroken.2.1 member
  rw [lineLength, rest]
  by_cases last : back = []
  · rw [last, ofLines_singleton, List.takeWhile_eq_self_iff.mpr unbroken]
  · rw [ofLines_cons last, List.takeWhile_append_of_pos unbroken]
    simp

/-- Replacing a slice replaces what lies between two places in the list of lines. -/
theorem replaceSlice_eq {line' : Text} {j column' : Nat} {front' back' : List Text}
    (cut : t.At i front line back) (cut' : t.At j front' line' back') (inside : column ≤ line.length)
    (inside' : column' ≤ line'.length) (new : Text) :
    t.replaceSlice (t.lineStart i + column) (t.lineStart j + column') new =
      ofLines (front ++ (line.take column ++ new ++ line'.drop column') :: back') := by
  have middle := ofLines_append_ofLines front (line.take column) new []
  rw [ofLines_singleton] at middle
  rw [replaceSlice, cut.take inside, cut'.drop inside', middle, ofLines_append_ofLines]

theorem getElem?_lines (cut : t.At i front line back) : t.lines[i]? = some line := by
  rw [cut.lines, ← cut.index, List.getElem?_append_right (Nat.le_refl _), Nat.sub_self, List.getElem?_cons_zero]

theorem next {m : Text} (cut : t.At i front line (m :: back)) :
    t.At (i + 1) (front ++ [line]) m back where
  lines := by rw [cut.lines, List.append_assoc, List.singleton_append]
  index := by rw [List.length_append, cut.index, List.length_singleton]

theorem previous {l : Text} (cut : t.At (i + 1) (front ++ [l]) line back) :
    t.At i front l (line :: back) where
  lines := by rw [cut.lines, List.append_assoc, List.singleton_append]
  index := by
    have index := cut.index
    rw [List.length_append, List.length_singleton] at index
    omega

theorem length_back (cut : t.At i front line back) : t.lineCount = i + 1 + back.length := by
  have all := congrArg List.length cut.lines
  rw [length_lines, List.length_append, List.length_cons, cut.index] at all
  omega

theorem line_le {p : Position} (cut : t.At i front line back) (here : p.line = i + 1) :
    p.line ≤ t.lineCount := by
  have count := cut.length_back
  omega

end At

/-- A line begins one place behind the end of the line before it. -/
theorem lineStart_succ {t : Text} {i : Nat} (inside : i + 1 < t.lineCount) :
    t.lineStart (i + 1) = t.lineEnd i + 1 := by
  obtain ⟨front, line, back, cut⟩ := exists_at (Nat.lt_of_succ_lt inside)
  have more := cut.length_back
  cases back with
  | nil =>
    rw [List.length_nil] at more
    omega
  | cons m back =>
    have front_length := cut.length_front (Nat.le_refl _)
    have some : front ++ [line] ≠ [] := by simp
    rw [List.take_length] at front_length
    rw [cut.next.lineStart_eq, ofLines_concat some, List.length_append, front_length, lineEnd,
      cut.lineLength_eq]
    rfl

/-- A later line starts after the end of an earlier one. -/
theorem lineEnd_lt_lineStart {t : Text} {i j : Nat} (before : i < j) (inside : j < t.lineCount) :
    t.lineEnd i < t.lineStart j := by
  induction j with
  | zero => omega
  | succ j ih =>
    have starts := lineStart_succ inside
    by_cases adjacent : i = j
    · subst adjacent
      omega
    · have earlier := ih (by omega) (by omega)
      unfold lineEnd at starts
      omega

/-- Taking a line away takes it out of the list of lines, unless it is the only one. -/
theorem At.lines_withoutLine {t line : Text} {i : Nat} {front back : List Text}
    (cut : t.At i front line back) (several : t.lineCount ≠ 1) :
    (t.withoutLine i).lines = front ++ back := by
  have count := cut.length_back
  have unbroken : ∀ l ∈ front ++ back, lineFeed ∉ l := by
    intro l member
    rcases List.mem_append.mp member with before | after
    · exact cut.unbroken.1 l before
    · exact cut.unbroken.2.2 l after
  rw [withoutLine, if_neg several]
  cases back with
  | cons m back =>
    rw [List.length_cons] at count
    have later : i + 1 < t.lineCount := by omega
    have slice := cut.replaceSlice_eq cut.next (Nat.zero_le _) (Nat.zero_le _) []
    rw [List.take_zero, List.drop_zero, Nat.add_zero, Nat.add_zero, lineStart_succ later] at slice
    rw [if_pos later, slice]
    exact lines_ofLines unbroken (by simp)
  | nil =>
    rw [List.length_nil] at count
    have last : ¬i + 1 < t.lineCount := by omega
    obtain ⟨i, rfl⟩ := Nat.exists_eq_succ_of_ne_zero (n := i) (by omega)
    have some : front ≠ [] := List.ne_nil_of_length_eq_add_one cut.index
    obtain ⟨front, l, split⟩ := (List.eq_nil_or_concat front).resolve_left some
    rw [List.concat_eq_append] at split
    subst split
    have slice := cut.previous.replaceSlice_eq cut (Nat.le_refl _) (Nat.le_refl _) []
    rw [List.take_length, List.drop_length, ← cut.previous.lineLength_eq, ← cut.lineLength_eq] at slice
    rw [List.append_nil, List.append_nil] at slice
    rw [List.append_nil] at unbroken
    rw [if_neg last, lineStart_succ (by omega), Nat.add_sub_cancel, lineEnd, lineEnd, slice,
      List.append_nil]
    exact lines_ofLines unbroken (by simp)

theorem At.withoutLine_eq {t line : Text} {i : Nat} {front back : List Text} (cut : t.At i front line back) :
    t.withoutLine i = ofLines (front ++ back) := by
  by_cases single : t.lineCount = 1
  · have count := cut.length_back
    have none : front ++ back = [] := by
      rw [← List.length_eq_zero_iff, List.length_append, cut.index]
      omega
    rw [withoutLine, if_pos single, none]
    rfl
  · rw [← cut.lines_withoutLine single, ofLines_lines]

/-- Positions in a text come in the order of their lines, and in a line in the order of their columns. -/
theorem offset_lt_offset_iff {t : Text} {p q : Position} (p_inside : p.line ≤ t.lineCount)
    (q_inside : q.line ≤ t.lineCount) :
    t.offset q < t.offset p ↔ q.line < p.line ∨ q.line = p.line ∧
      min (q.column - 1) (t.lineLength (q.line - 1)) < min (p.column - 1) (t.lineLength (p.line - 1)) := by
  have p_line := p.one_le_line
  have q_line := q.one_le_line
  unfold offset
  rcases Nat.lt_trichotomy q.line p.line with before | same | after
  · have apart := lineEnd_lt_lineStart (t := t) (i := q.line - 1) (j := p.line - 1) (by omega) (by omega)
    unfold lineEnd at apart
    omega
  · rw [same]
    omega
  · have apart := lineEnd_lt_lineStart (t := t) (i := p.line - 1) (j := q.line - 1) (by omega) (by omega)
    unfold lineEnd at apart
    omega

end Mender.Text
