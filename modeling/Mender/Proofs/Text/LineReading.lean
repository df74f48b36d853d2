import Mender.Text.Lines

namespace Mender

/-- Which marks of a line end count when a text is read. The line feed always does. -/
structure LineReading where
  ends : CodePoint → Bool
  feeds : ends Text.lineFeed = true
  marks : ∀ c, ends c = true → c.endsLine = true

namespace LineReading

def lineFeeds : LineReading where
  ends c := c = Text.lineFeed
  feeds := by decide
  marks c feed := by
    rw [of_decide_eq_true feed]
    decide

def allMarks : LineReading := ⟨CodePoint.endsLine, by decide, fun _ => id⟩

/-- The lines of a text with their ends. -/
def lines (r : LineReading) : Text → List Text
  | [] => []
  | c :: rest =>
    if r.ends c && !Text.joinsNext c rest then [c] :: lines r rest
    else
      match lines r rest with
      | [] => [[c]]
      | line :: more => (c :: line) :: more

theorem lines_allMarks (t : Text) : allMarks.lines t = t.brokenLines := by
  induction t with
  | nil => rfl
  | cons c rest ih =>
    rw [lines, Text.brokenLines, ih]
    rfl

/-- The text ends with a mark that counts. -/
def Closed (r : LineReading) (t : Text) : Prop := t.getLast?.any r.ends = true

instance (r : LineReading) (t : Text) : Decidable (r.Closed t) := instDecidableEqBool _ _

variable {r : LineReading} {c : CodePoint} {t l s : Text}

theorem lines_ne_nil (some : t ≠ []) : r.lines t ≠ [] := by
  cases t with
  | nil => exact (some rfl).elim
  | cons c rest =>
    unfold lines
    split
    · exact List.cons_ne_nil _ _
    · split <;> exact List.cons_ne_nil _ _

theorem lines_singleton (c : CodePoint) : r.lines [c] = [[c]] := by
  unfold lines
  split <;> rfl

/-- The line goes on after a code point that is no end. -/
theorem lines_cons_of_goesOn (goesOn : (r.ends c && !Text.joinsNext c t) = false) (some : t ≠ []) :
    r.lines (c :: t) = (r.lines t).modifyHead (List.cons c) := by
  obtain ⟨line, more, split⟩ := List.exists_cons_of_ne_nil (lines_ne_nil (r := r) some)
  rw [lines, goesOn, split]
  rfl

theorem lines_cons_of_ends (stop : (r.ends c && !Text.joinsNext c t) = true) :
    r.lines (c :: t) = [c] :: r.lines t := if_pos stop

theorem flatten_lines (r : LineReading) (t : Text) : (r.lines t).flatten = t := by
  induction t with
  | nil => rfl
  | cons c rest ih =>
    by_cases last : rest = []
    · rw [last, lines_singleton]
      rfl
    · cases stop : r.ends c && !Text.joinsNext c rest with
      | true => rw [lines_cons_of_ends stop, List.flatten_cons, ih]; rfl
      | false =>
        obtain ⟨line, more, split⟩ := List.exists_cons_of_ne_nil (lines_ne_nil (r := r) last)
        rw [split] at ih
        rw [lines_cons_of_goesOn stop last, split]
        exact congrArg (List.cons c) ih

theorem joinsNext_append (some : t ≠ []) (s : Text) : Text.joinsNext c (t ++ s) = Text.joinsNext c t := by
  cases t with
  | nil => exact (some rfl).elim
  | cons => rfl

theorem flatten_brokenLines (t : Text) : t.brokenLines.flatten = t := by
  rw [← lines_allMarks, flatten_lines]

/-- A text that is a line of its own. -/
structure Whole (r : LineReading) (l : Text) : Prop where
  filled : l ≠ []
  alone : r.lines l = [l]

/-- A whole line goes on after all its code points but the last. -/
theorem Whole.tail (whole : r.Whole (c :: l)) (some : l ≠ []) :
    (r.ends c && !Text.joinsNext c l) = false ∧ r.Whole l := by
  have alone := whole.alone
  cases stop : r.ends c && !Text.joinsNext c l with
  | true =>
    rw [lines_cons_of_ends stop] at alone
    exact (lines_ne_nil some (List.cons.inj alone).2).elim
  | false =>
    refine ⟨rfl, some, ?_⟩
    rw [lines_cons_of_goesOn stop some] at alone
    obtain ⟨line, more, split⟩ := List.exists_cons_of_ne_nil (lines_ne_nil (r := r) some)
    rw [split] at alone ⊢
    cases alone
    rfl

theorem Whole.cons (whole : r.Whole l) (goesOn : c.endsLine = false) : r.Whole (c :: l) := by
  have noEnd : r.ends c = false := Bool.eq_false_iff.mpr fun stop => Bool.noConfusion (goesOn ▸ r.marks c stop)
  refine ⟨List.cons_ne_nil _ _, ?_⟩
  rw [lines_cons_of_goesOn (by rw [noEnd, Bool.false_and]) whole.filled, whole.alone]
  rfl

/-- A text without marks is a whole line with a line feed at its end. -/
theorem whole_append_lineFeed (plain : ∀ c ∈ t, c.endsLine = false) : r.Whole (t ++ [Text.lineFeed]) := by
  induction t with
  | nil => exact ⟨List.cons_ne_nil _ _, lines_singleton _⟩
  | cons c t ih =>
    obtain ⟨here, later⟩ := List.forall_mem_cons.mp plain
    exact (ih later).cons here

theorem closed_append_lineFeed (t : Text) : r.Closed (t ++ [Text.lineFeed]) := by
  rw [Closed, List.getLast?_concat]
  exact r.feeds

theorem joinsNext_of_noFeed (noFeed : s.head? ≠ some Text.lineFeed) : Text.joinsNext c s = false := by
  have other : (s.head?.any fun d => d.val == 0x0A) = false := by
    cases s with
    | nil => rfl
    | cons d s =>
      refine Bool.eq_false_iff.mpr fun feed => noFeed (congrArg some ?_)
      obtain ⟨n, code⟩ := d
      obtain rfl : n = 0x0A := eq_of_beq feed
      rfl
  rw [Text.joinsNext, other, Bool.and_false]

/-- What is written after a closed line leaves it as it is. -/
theorem lines_append_of_closed (whole : r.Whole l) (closed : r.Closed l) (noFeed : s.head? ≠ some Text.lineFeed) :
    r.lines (l ++ s) = l :: r.lines s := by
  induction l with
  | nil => exact (whole.filled rfl).elim
  | cons c l ih =>
    by_cases last : l = []
    · subst last
      have stop : r.ends c = true := closed
      exact lines_cons_of_ends (t := s) (by rw [stop, joinsNext_of_noFeed noFeed]; rfl)
    · obtain ⟨goesOn, whole⟩ := whole.tail last
      have later : r.Closed l := by
        rwa [Closed, List.getLast?_cons_of_ne_nil last] at closed
      rw [List.cons_append, lines_cons_of_goesOn (by rwa [joinsNext_append last]) (by simp [last]), ih whole later]
      rfl

/-- What is written after a line without an end goes on with it. -/
theorem lines_append_of_open (whole : r.Whole l) (unclosed : ¬r.Closed l) (some : s ≠ []) :
    r.lines (l ++ s) = (r.lines s).modifyHead (l ++ ·) := by
  induction l with
  | nil => exact (whole.filled rfl).elim
  | cons c l ih =>
    by_cases last : l = []
    · subst last
      have noEnd : r.ends c = false := Bool.eq_false_iff.mpr unclosed
      exact lines_cons_of_goesOn (by rw [noEnd, Bool.false_and]) some
    · obtain ⟨goesOn, whole⟩ := whole.tail last
      have later : ¬r.Closed l := by
        rwa [Closed, List.getLast?_cons_of_ne_nil last] at unclosed
      rw [List.cons_append, lines_cons_of_goesOn (by rwa [joinsNext_append last]) (by simp [last]), ih whole later,
        List.modifyHead_modifyHead]
      rfl

/-- A whole line is at least the start of a line when something is written after it. -/
theorem exists_lines_append (whole : r.Whole l) (noFeed : s.head? ≠ some Text.lineFeed) :
    ∃ tail more, r.lines (l ++ s) = (l ++ tail) :: more := by
  by_cases closed : r.Closed l
  · exact ⟨[], _, by rw [lines_append_of_closed whole closed noFeed, List.append_nil]⟩
  · by_cases none : s = []
    · subst none
      exact ⟨[], [], by simpa only [List.append_nil] using whole.alone⟩
    · obtain ⟨line, more, split⟩ := List.exists_cons_of_ne_nil (lines_ne_nil (r := r) none)
      exact ⟨line, more, by rw [lines_append_of_open whole closed none, split]; rfl⟩

/-- The lines of a text are whole lines, also for a reading for which fewer marks count. -/
theorem whole_of_mem_brokenLines (member : l ∈ t.brokenLines) : r.Whole l := by
  rw [← lines_allMarks] at member
  induction t generalizing l with
  | nil => cases member
  | cons c rest ih =>
    by_cases last : rest = []
    · rw [last, lines_singleton, List.mem_singleton] at member
      exact member ▸ ⟨List.cons_ne_nil _ _, lines_singleton c⟩
    cases stop : allMarks.ends c && !Text.joinsNext c rest with
    | true =>
      rw [lines_cons_of_ends stop] at member
      rcases List.mem_cons.mp member with rfl | later
      · exact ⟨List.cons_ne_nil _ _, lines_singleton c⟩
      · exact ih later
    | false =>
      obtain ⟨line, more, split⟩ := List.exists_cons_of_ne_nil (lines_ne_nil (r := allMarks) last)
      rw [lines_cons_of_goesOn stop last, split, List.modifyHead_cons] at member
      rw [split] at ih
      rcases List.mem_cons.mp member with rfl | later
      · have whole := ih List.mem_cons_self
        have start : rest = line ++ more.flatten := by rw [← flatten_lines allMarks rest, split]; rfl
        rw [start, joinsNext_append whole.filled] at stop
        have goesOn : (r.ends c && !Text.joinsNext c line) = false := by
          cases mark : r.ends c with
          | false => rfl
          | true =>
            have counts : allMarks.ends c = true := r.marks c mark
            rwa [counts] at stop
        refine ⟨List.cons_ne_nil _ _, ?_⟩
        rw [lines_cons_of_goesOn goesOn whole.filled, whole.alone]
        rfl
      · exact ih (List.mem_cons_of_mem _ later)

/-- All lines of a text but the last are closed. -/
theorem closed_of_mem_dropLast_lines (member : l ∈ (r.lines t).dropLast) : r.Closed l := by
  induction t generalizing l with
  | nil => cases member
  | cons c rest ih =>
    by_cases last : rest = []
    · rw [last, lines_singleton] at member
      cases member
    have some := lines_ne_nil (r := r) last
    cases stop : r.ends c && !Text.joinsNext c rest with
    | true =>
      rw [lines_cons_of_ends stop, List.dropLast_cons_of_ne_nil some] at member
      rcases List.mem_cons.mp member with rfl | later
      · exact (Bool.and_eq_true _ _ ▸ stop).1
      · exact ih later
    | false =>
      obtain ⟨line, more, split⟩ := List.exists_cons_of_ne_nil some
      rw [lines_cons_of_goesOn stop last, split, List.modifyHead_cons] at member
      rw [split] at ih
      cases more with
      | nil => cases member
      | cons next more =>
        rw [List.dropLast_cons_of_ne_nil (List.cons_ne_nil _ _)] at member ih
        rcases List.mem_cons.mp member with rfl | later
        · have closed := ih List.mem_cons_self
          have filled : line ≠ [] := fun none => Bool.noConfusion (none ▸ closed)
          rwa [Closed, List.getLast?_cons_of_ne_nil filled]
        · exact ih (List.mem_cons_of_mem _ later)

theorem closed_of_mem_dropLast_brokenLines (member : l ∈ t.brokenLines.dropLast) : allMarks.Closed l := by
  rw [← lines_allMarks] at member
  exact closed_of_mem_dropLast_lines member

section Written

variable {items pre post : List Text} {x y : Text}

/-- Whole lines, none of which starts with a line feed. -/
def Separate (r : LineReading) (items : List Text) : Prop :=
  ∀ item ∈ items, r.Whole item ∧ item.head? ≠ some Text.lineFeed

theorem Separate.head?_flatten (separate : r.Separate items) : items.flatten.head? ≠ some Text.lineFeed := by
  cases items with
  | nil => exact nofun
  | cons item items =>
    obtain ⟨whole, noFeed⟩ := separate item List.mem_cons_self
    obtain ⟨c, rest, start⟩ := List.exists_cons_of_ne_nil whole.filled
    rw [start] at noFeed ⊢
    exact noFeed

/-- Separate lines that are closed are read one by one. -/
theorem lines_flatten_append (separate : r.Separate (pre ++ post)) (closed : ∀ item ∈ pre, r.Closed item) :
    r.lines (pre ++ post).flatten = pre ++ r.lines post.flatten := by
  induction pre with
  | nil => rfl
  | cons item pre ih =>
    obtain ⟨here, later⟩ := List.forall_mem_cons.mp (List.cons_append ▸ separate)
    obtain ⟨closedHere, closedLater⟩ := List.forall_mem_cons.mp closed
    rw [List.cons_append, List.flatten_cons,
      lines_append_of_closed here.1 closedHere (Separate.head?_flatten later), ih later closedLater]
    rfl

theorem lines_flatten_of_closed (separate : r.Separate items) (closed : ∀ item ∈ items.dropLast, r.Closed item) :
    r.lines items.flatten = items := by
  by_cases none : items = []
  · rw [none]
    rfl
  · have cut := List.dropLast_concat_getLast none
    have last := (separate _ (List.getLast_mem none)).1
    rw [← cut] at separate
    have read := lines_flatten_append separate closed
    rwa [List.flatten_singleton, last.alone, cut] at read

/-- A line that is not closed swallows the one after it. -/
theorem lines_flatten_of_open (separate : r.Separate (pre ++ x :: y :: post)) (closed : ∀ item ∈ pre, r.Closed item)
    (unclosed : ¬r.Closed x) :
    ∃ tail more, r.lines (pre ++ x :: y :: post).flatten = pre ++ (x ++ (y ++ tail)) :: more := by
  have wholeX := (separate x (by simp)).1
  have wholeY := (separate y (by simp)).1
  have later : r.Separate post := fun item member => separate item (by simp [member])
  obtain ⟨tail, more, next⟩ := exists_lines_append wholeY later.head?_flatten
  have some : y ++ post.flatten ≠ [] := List.append_ne_nil_of_left_ne_nil wholeY.filled _
  refine ⟨tail, more, ?_⟩
  rw [lines_flatten_append separate closed, List.flatten_cons, List.flatten_cons,
    lines_append_of_open wholeX unclosed some, next]
  rfl

/-- If not all lines before the last one are closed, there is a first one that is not. -/
theorem exists_first_open (notAll : ¬∀ item ∈ items.dropLast, r.Closed item) :
    ∃ pre x y post, items = pre ++ x :: y :: post ∧ (∀ item ∈ pre, r.Closed item) ∧ ¬r.Closed x := by
  induction items with
  | nil => exact (notAll (List.forall_mem_nil _)).elim
  | cons a items ih =>
    cases items with
    | nil => exact (notAll (List.forall_mem_nil _)).elim
    | cons b items =>
      by_cases closed : r.Closed a
      · rw [List.dropLast_cons_of_ne_nil (List.cons_ne_nil _ _)] at notAll
        obtain ⟨pre, x, y, post, split, before, unclosed⟩ :=
          ih fun all => notAll (List.forall_mem_cons.mpr ⟨closed, all⟩)
        exact ⟨a :: pre, x, y, post, by rw [split]; rfl, List.forall_mem_cons.mpr ⟨closed, before⟩, unclosed⟩
      · exact ⟨[], a, b, items, rfl, List.forall_mem_nil _, closed⟩

end Written

end LineReading

end Mender
