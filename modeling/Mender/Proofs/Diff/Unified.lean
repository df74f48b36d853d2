import Mender.Proofs.Diff.Diagonal
import Mender.Proofs.Diff.Patch
import Mender.Proofs.Text.LineReading

namespace Mender.Diff

/-- The lines of all hunks that are shown for two texts. -/
def shown (older newer : Text) : List Text :=
  (hunks (pieces older.brokenLines newer.brokenLines)).flatMap Hunk.render

theorem hunks_eq_nil_iff_eq {older newer : Text} :
    hunks (pieces older.brokenLines newer.brokenLines) = [] ↔ older = newer := by
  constructor
  · intro none
    have same := flatMap_old_eq_new_of_hunks_eq_nil none
    rw [flatMap_old_pieces, flatMap_new_pieces] at same
    rw [← LineReading.flatten_brokenLines older, same, LineReading.flatten_brokenLines]
  · rintro rfl
    rw [pieces_self, hunks_eq_nil_iff]
    split
    · exact Or.inl rfl
    · exact Or.inr ⟨_, rfl⟩

/-- Nothing is written for equal texts. -/
theorem unified_self (t name : Text) : unified t t name = [] := by
  rw [unified, hunks_eq_nil_iff_eq.mpr rfl]

def heading (name : Text) : List Text := ["--- a/" ++ name ++ "\n", "+++ b/" ++ name ++ "\n"]

/-- What is written for different texts. -/
theorem unified_of_ne {older newer : Text} (different : older ≠ newer) (name : Text) :
    unified older newer name = (heading name ++ shown older newer).flatten := by
  have some : hunks (pieces older.brokenLines newer.brokenLines) ≠ [] := mt hunks_eq_nil_iff_eq.mp different
  unfold unified shown
  split
  next none => exact (some none).elim
  · rw [List.flatten_append, heading, List.flatten_cons, List.flatten_singleton]

theorem unified_eq_nil_iff {older newer : Text} (name : Text) : unified older newer name = [] ↔ older = newer := by
  constructor
  · intro none
    by_contra different
    rw [unified_of_ne different] at none
    cases none
  · rintro rfl
    exact unified_self older name

theorem patch_heading (old : List Text) (name : Text) (lines : List Text) :
    patch old (heading name ++ lines) = Patching.run ⟨0, old, [], 0, 0⟩ lines := by
  rw [heading, List.cons_append, List.cons_append, patch, if_pos ⟨rfl, rfl⟩]
  rfl

/-- The lines that are shown make the one text into the other. -/
theorem run_shown (older newer : Text) :
    Patching.run ⟨0, older.brokenLines, [], 0, 0⟩ (shown older newer) = some newer.brokenLines := by
  have run := Patching.run_hunks (pieces older.brokenLines newer.brokenLines)
  rwa [flatMap_old_pieces, flatMap_new_pieces] at run

section Separate

def signs : List CodePoint := [' ', '-', '+']

/-- A line of a piece is shown with a sign. Only an added one is not in the old text, and only a removed one is not in
the new text. -/
theorem mem_body {p : Piece Text} {x : Text} (member : x ∈ p.body) :
    ∃ sign ∈ signs, ∃ line, x = sign :: line ∧ (sign ≠ '+' → line ∈ p.old) ∧ (sign ≠ '-' → line ∈ p.new) := by
  cases p with
  | same items =>
    obtain ⟨line, inside, rfl⟩ := List.mem_map.mp member
    exact ⟨' ', by decide, line, rfl, fun _ => inside, fun _ => inside⟩
  | change removed added =>
    rcases List.mem_append.mp member with member | member
    · obtain ⟨line, inside, rfl⟩ := List.mem_map.mp member
      exact ⟨'-', by decide, line, rfl, fun _ => inside, fun minus => (minus rfl).elim⟩
    · obtain ⟨line, inside, rfl⟩ := List.mem_map.mp member
      exact ⟨'+', by decide, line, rfl, fun plus => (plus rfl).elim, fun _ => inside⟩

theorem trimmable_forall (oldHolds newHolds : Text → Prop) :
    Trimmable fun ps => ∀ p ∈ ps, (∀ line ∈ p.old, oldHolds line) ∧ ∀ line ∈ p.new, newHolds line where
  closing {before items after} all p member := by
    rcases List.mem_append.mp member with member | member
    · exact all p (by simp [member])
    · obtain ⟨old, new⟩ := all (.same items) (by simp)
      rw [List.mem_singleton.mp member]
      exact ⟨fun line inside => old line (List.mem_of_mem_take inside),
        fun line inside => new line (List.mem_of_mem_take inside)⟩
  opening {before items after} all p member := by
    rcases List.mem_cons.mp member with rfl | member
    · obtain ⟨old, new⟩ := all (.same items) (by simp)
      exact ⟨fun line inside => old line (List.mem_of_mem_drop inside),
        fun line inside => new line (List.mem_of_mem_drop inside)⟩
    · exact all p (by simp [member])

theorem endsLine_of_isDigit {c : CodePoint} (digit : c.isDigit = true) : c.endsLine = false := by
  have zero : '0'.toNat = 48 := rfl
  have nine : '9'.toNat = 57 := rfl
  simp only [CodePoint.isDigit, CodePoint.within, Bool.and_eq_true, decide_eq_true_eq, zero, nine] at digit
  simp [CodePoint.endsLine]
  omega

/-- A line that is shown is a header, or a line of the texts with its sign. -/
theorem mem_shown {older newer x : Text} (member : x ∈ shown older newer) :
    (∃ t : Text, x = CodePoint.ofChar '@' :: (t ++ [Text.lineFeed]) ∧ ∀ c ∈ t, c.endsLine = false) ∨
      ∃ sign ∈ signs, ∃ line, x = sign :: line ∧ (sign ≠ '+' → line ∈ older.brokenLines) ∧
        (sign ≠ '-' → line ∈ newer.brokenLines) := by
  obtain ⟨h, hunk, member⟩ := List.mem_flatMap.mp member
  rcases List.mem_cons.mp member with rfl | member
  · refine Or.inl ⟨"@ -" ++ rangeText h.oldStart (h.pieces.flatMap Piece.old).length ++ " +" ++
      rangeText h.newStart (h.pieces.flatMap Piece.new).length ++ " @@", ?_, ?_⟩
    · simp only [List.append_assoc]
      rfl
    · have plain : ∀ {start length}, ∀ c ∈ rangeText start length, c.endsLine = false := by
        intro start length c inside
        rcases isDigit_or_comma_of_mem_rangeText inside with digit | rfl
        · exact endsLine_of_isDigit digit
        · rfl
      simp only [List.forall_mem_append]
      exact ⟨⟨⟨⟨by decide, plain⟩, by decide⟩, plain⟩, by decide⟩
  · obtain ⟨p, piece, member⟩ := List.mem_flatMap.mp member
    obtain ⟨sign, signed, line, rfl, old, new⟩ := mem_body member
    have whole : ∀ p ∈ pieces older.brokenLines newer.brokenLines,
        (∀ line ∈ p.old, line ∈ older.brokenLines) ∧ ∀ line ∈ p.new, line ∈ newer.brokenLines := by
      refine fun p piece => ⟨fun line inside => ?_, fun line inside => ?_⟩
      · exact flatMap_old_pieces older.brokenLines newer.brokenLines ▸ List.mem_flatMap.mpr ⟨p, piece, inside⟩
      · exact flatMap_new_pieces older.brokenLines newer.brokenLines ▸ List.mem_flatMap.mpr ⟨p, piece, inside⟩
    obtain ⟨fromOld, fromNew⟩ := forall_mem_hunks (trimmable_forall _ _) whole h hunk p piece
    exact Or.inr ⟨sign, signed, line, rfl, fun plus => fromOld line (old plus), fun minus => fromNew line (new minus)⟩

variable {r : LineReading}

theorem separate_shown (older newer : Text) : r.Separate (shown older newer) := by
  intro x member
  rcases mem_shown member with ⟨t, rfl, plain⟩ | ⟨sign, signed, line, rfl, old, new⟩
  · refine ⟨(LineReading.whole_append_lineFeed plain).cons (by decide), ?_⟩
    exact fun feed => absurd (Option.some.inj feed) (by decide)
  · have noMark : ∀ sign ∈ signs, sign.endsLine = false ∧ sign ≠ Text.lineFeed := by decide
    obtain ⟨goesOn, noFeed⟩ := noMark sign signed
    have whole : r.Whole line := by
      by_cases plus : sign = '+'
      · exact LineReading.whole_of_mem_brokenLines (new (by rw [plus]; decide))
      · exact LineReading.whole_of_mem_brokenLines (old plus)
    exact ⟨whole.cons goesOn, fun feed => noFeed (Option.some.inj feed)⟩

/-- The lines that name the texts stand for themselves if the name has no mark of a line end. -/
theorem separate_heading {name : Text} (plain : ∀ c ∈ name, c.endsLine = false) : r.Separate (heading name) := by
  have line : ∀ (start : CodePoint) (opening : Text), start.endsLine = false → (∀ c ∈ opening, c.endsLine = false) →
      r.Whole (start :: (opening ++ name ++ "\n")) ∧
        (start :: (opening ++ name ++ "\n")).head? ≠ some Text.lineFeed := by
    refine fun start opening plainStart plainOpening => ⟨?_, fun feed => ?_⟩
    · exact (LineReading.whole_append_lineFeed (List.forall_mem_append.mpr ⟨plainOpening, plain⟩)).cons plainStart
    · cases Option.some.inj feed
      cases plainStart
  exact List.forall_mem_cons.mpr ⟨line '-' "-- a/" (by decide) (by decide),
    List.forall_mem_singleton.mpr (line '+' "++ b/" (by decide) (by decide))⟩

theorem closed_heading (name : Text) : ∀ line ∈ heading name, r.Closed line :=
  List.forall_mem_cons.mpr ⟨LineReading.closed_append_lineFeed _,
    List.forall_mem_singleton.mpr (LineReading.closed_append_lineFeed _)⟩

end Separate

section Swallowed

open Patching

/-- A text that starts with a closed line cannot be the same text with a sign before it. -/
theorem cons_append_ne_append {sign : CodePoint} (noMark : sign.endsLine = false) {line : Text}
    (closed : LineReading.allMarks.Closed line) (s t : Text) : sign :: (line ++ s) ≠ line ++ t := by
  induction line generalizing sign with
  | nil => exact Bool.noConfusion closed
  | cons c line ih =>
    intro same
    obtain ⟨rfl, rest⟩ := List.cons.inj same
    by_cases last : line = []
    · subst last
      exact Bool.noConfusion (noMark.symm.trans closed)
    · rw [LineReading.Closed, List.getLast?_cons_of_ne_nil last] at closed
      exact ih noMark closed rest

variable {p p' : Patching} {sign : CodePoint} {line x y tail : Text} {post more new new' : List Text}

/-- A line with a sign is the next one of the old text unless it is added, and of the new text unless it is removed. -/
theorem step_signed (signed : sign ∈ signs) (taken : step p (sign :: line) = some p') :
    (sign ≠ '+' → p.left.head? = some line) ∧ (sign ≠ '-' → p'.made = p.made ++ [line]) := by
  rcases step_cases taken with ⟨old, new, header, -⟩ | ⟨l, between, same, removed, added⟩ | ⟨l, same, removed⟩ |
    ⟨l, same, added⟩
  · have noHeader : ∀ sign ∈ signs, sign ≠ CodePoint.ofChar '@' := by decide
    rw [header?_eq_none (noHeader sign signed)] at header
    cases header
  · cases same
    obtain ⟨next, kept⟩ := left_of_remove removed
    exact ⟨fun _ => congrArg List.head? next, fun _ => kept ▸ made_of_add added⟩
  · cases same
    exact ⟨fun _ => congrArg List.head? (left_of_remove removed).1, fun minus => (minus rfl).elim⟩
  · cases same
    exact ⟨fun plus => (plus rfl).elim, fun _ => made_of_add added⟩

/-- After an added line there is another line of the new text. -/
theorem exists_eq_append_of_added (filled : y ≠ []) (follows : Follows (CodePoint.ofChar '+' :: line) y)
    (meant : run p ((CodePoint.ofChar '+' :: line) :: y :: post) = some new) :
    ∃ sign₂ line₂ rest, y = sign₂ :: line₂ ∧ sign₂ ∈ signs ∧ new = p.made ++ line :: line₂ :: rest := by
  rw [run_cons] at meant
  obtain ⟨p₁, taken, meant₁⟩ := Option.bind_eq_some_iff.mp meant
  rw [run_cons] at meant₁
  obtain ⟨p₂, taken₂, meant₂⟩ := Option.bind_eq_some_iff.mp meant₁
  obtain ⟨sign₂, line₂, rfl, signed₂, notMinus⟩ : ∃ sign₂ line₂, y = sign₂ :: line₂ ∧ sign₂ ∈ signs ∧ sign₂ ≠ '-' := by
    obtain ⟨c, line₂, rfl⟩ := List.exists_cons_of_ne_nil filled
    rcases follows rfl with next | next <;> cases next <;> exact ⟨_, line₂, rfl, by decide, by decide⟩
  obtain ⟨rest, new_eq⟩ := made_isPrefix_of_run meant₂
  rw [(step_signed signed₂ taken₂).2 notMinus, (step_signed (by decide) taken).2 (by decide)] at new_eq
  exact ⟨sign₂, line₂, rest, rfl, signed₂, by simp [← new_eq]⟩

/-- A line that has swallowed the next one is not the line that the patch means: either the old text has no such line,
or the new text goes on with a sign. -/
theorem flatten_ne_of_swallowed (signed : sign ∈ signs) (filled : y ≠ []) (follows : Follows (sign :: line) y)
    (meant : run p ((sign :: line) :: y :: post) = some new)
    (closed : ∀ l ∈ new.dropLast, LineReading.allMarks.Closed l)
    (read : run p ((sign :: line ++ (y ++ tail)) :: more) = some new') : new'.flatten ≠ new.flatten := by
  rw [run_cons] at read
  obtain ⟨q, takenToo, later⟩ := Option.bind_eq_some_iff.mp read
  obtain ⟨oldToo, madeToo⟩ := step_signed signed takenToo
  by_cases plus : sign = '+'
  · subst plus
    -- Both new texts go on with what follows the added line, but the one that is read has its sign in front.
    obtain ⟨sign₂, line₂, rest, rfl, signed₂, new_eq⟩ := exists_eq_append_of_added filled follows meant
    obtain ⟨rest', new'_eq⟩ := made_isPrefix_of_run later
    rw [madeToo (by decide)] at new'_eq
    intro same
    rw [new_eq, ← new'_eq] at same
    simp only [List.flatten_append, List.append_assoc, List.append_cancel_left_eq, List.cons_append, List.nil_append,
      List.append_eq, List.flatten_cons] at same
    cases rest with
    | nil =>
      have lengths := congrArg List.length same
      simp only [List.length_cons, List.length_append, List.flatten_nil, List.length_nil] at lengths
      omega
    | cons next rest =>
      have inside : line₂ ∈ new.dropLast := by
        rw [new_eq, List.dropLast_append_of_ne_nil (List.cons_ne_nil _ _)]
        simp
      have noMark : ∀ sign ∈ signs, sign.endsLine = false := by decide
      exact cons_append_ne_append (noMark sign₂ signed₂) (closed line₂ inside) _ _ same
  · rw [run_cons] at meant
    obtain ⟨p₁, taken, -⟩ := Option.bind_eq_some_iff.mp meant
    -- The same line of the old text is expected, once with what was swallowed and once without it.
    have next : line ++ (y ++ tail) = line :=
      Option.some.inj ((oldToo plus).symm.trans ((step_signed signed taken).1 plus))
    have none : y ++ tail = [] := List.append_cancel_left (next.trans (List.append_nil line).symm)
    exact (filled (List.append_eq_nil_iff.mp none).1).elim

end Swallowed

section Read

variable {r : LineReading} {older newer name : Text}

theorem separate_document (older newer : Text) (plain : ∀ c ∈ name, c.endsLine = false) :
    r.Separate (heading name ++ shown older newer) :=
  List.forall_mem_append.mpr ⟨separate_heading plain, separate_shown older newer⟩

/-- If all lines but the last are closed, they are read as they were meant. -/
theorem patch_of_closed (plain : ∀ c ∈ name, c.endsLine = false)
    (closed : ∀ line ∈ (shown older newer).dropLast, r.Closed line) :
    patch older.brokenLines (r.lines (heading name ++ shown older newer).flatten) = some newer.brokenLines := by
  have all : ∀ line ∈ (heading name ++ shown older newer).dropLast, r.Closed line := by
    intro line member
    by_cases none : shown older newer = []
    · rw [none, List.append_nil] at member
      exact closed_heading name line (List.dropLast_subset _ member)
    · rw [List.dropLast_append_of_ne_nil none] at member
      exact (List.mem_append.mp member).elim (closed_heading name line) (closed line)
  rw [LineReading.lines_flatten_of_closed (separate_document older newer plain) all, patch_heading, run_shown]

/-- Where a line that is not closed can be shown before another one. -/
theorem exists_open_shown (notAll : ¬∀ line ∈ (shown older newer).dropLast, r.Closed line) :
    ∃ pre sign line y post, shown older newer = pre ++ (sign :: line) :: y :: post ∧
      (∀ item ∈ pre, r.Closed item) ∧ ¬r.Closed (sign :: line) ∧ sign ∈ signs ∧
      (sign ≠ '+' → line ∈ older.brokenLines) ∧ y ≠ [] ∧ Follows (sign :: line) y := by
  obtain ⟨pre, x, y, post, split, closed, unclosed⟩ := LineReading.exists_first_open notAll
  have member : x ∈ shown older newer := by rw [split]; simp
  obtain ⟨sign, signed, line, rfl, old, -⟩ := (mem_shown member).resolve_left (by
    rintro ⟨t, rfl, -⟩
    exact unclosed (LineReading.closed_append_lineFeed (CodePoint.ofChar '@' :: t)))
  have filled := (separate_shown (r := r) older newer y (by rw [split]; simp)).1.filled
  have chain := isChain_flatMap_render (isChain_pieces older.brokenLines newer.brokenLines)
  rw [← shown, split] at chain
  exact ⟨pre, sign, line, y, post, split, closed, unclosed, signed, old, filled,
    (List.isChain_append.mp chain).2.1.rel⟩

/-- A line that runs into the next one spoils the patch. -/
theorem patch_ne_of_open (plain : ∀ c ∈ name, c.endsLine = false)
    (notAll : ¬∀ line ∈ (shown older newer).dropLast, r.Closed line) :
    (patch older.brokenLines (r.lines (heading name ++ shown older newer).flatten)).map List.flatten ≠ some newer := by
  obtain ⟨pre, sign, line, y, post, split, closed, unclosed, signed, -, filled, follows⟩ := exists_open_shown notAll
  have separate := separate_document (r := r) older newer plain
  have meant := run_shown older newer
  rw [split] at meant separate
  rw [← List.append_assoc] at separate
  obtain ⟨tail, more, read⟩ := LineReading.lines_flatten_of_open separate
    (List.forall_mem_append.mpr ⟨closed_heading name, closed⟩) unclosed
  obtain ⟨p, passed, meant⟩ := Patching.exists_of_run_append meant
  rw [split, ← List.append_assoc, read, List.append_assoc, patch_heading]
  intro patched
  obtain ⟨new', run, flat⟩ := Option.map_eq_some_iff.mp patched
  obtain ⟨p', passed', run⟩ := Patching.exists_of_run_append run
  cases passed.symm.trans passed'
  have closedNew := fun l => LineReading.closed_of_mem_dropLast_brokenLines (l := l) (t := newer)
  refine flatten_ne_of_swallowed signed filled follows meant closedNew run ?_
  rw [flat, LineReading.flatten_brokenLines]

/-- Only the last line of the old text can run into another one if all lines of the new text but its last are closed. -/
theorem closed_of_mem_dropLast_shown (oldClosed : ∀ line ∈ older.brokenLines, r.Closed line)
    (newClosed : ∀ line ∈ newer.brokenLines.dropLast, r.Closed line) :
    ∀ line ∈ (shown older newer).dropLast, r.Closed line := by
  by_contra notAll
  obtain ⟨pre, sign, line, y, post, split, -, unclosed, signed, old, filled, follows⟩ := exists_open_shown notAll
  have closed : r.Closed line := by
    by_cases plus : sign = '+'
    · subst plus
      have meant := run_shown older newer
      rw [split] at meant
      obtain ⟨p, -, meant⟩ := Patching.exists_of_run_append meant
      obtain ⟨sign₂, line₂, rest, -, -, new_eq⟩ := exists_eq_append_of_added filled follows meant
      refine newClosed line ?_
      rw [new_eq, List.dropLast_append_of_ne_nil (List.cons_ne_nil _ _)]
      simp
    · exact oldClosed line (old plus)
  refine unclosed ?_
  have some : line ≠ [] := fun none => Bool.noConfusion (none ▸ closed)
  rwa [LineReading.Closed, List.getLast?_cons_of_ne_nil some]

end Read

/-- Nothing is written exactly for equal texts. What is written under a name without marks, read line by line, is a patch
of the old text that makes the new one, if and only if all lines of its hunks but the last are closed. They are if all
lines of the old text are closed, and all lines of the new one but the last. -/
theorem unified_patches_iff (r : LineReading) (older newer name : Text) (plain : ∀ c ∈ name, c.endsLine = false) :
    (unified older newer name = [] ↔ older = newer) ∧
    ((patch older.brokenLines (r.lines (unified older newer name))).map List.flatten = some newer ↔
      ∀ line ∈ (shown older newer).dropLast, r.Closed line) ∧
    ((∀ line ∈ older.brokenLines, r.Closed line) → (∀ line ∈ newer.brokenLines.dropLast, r.Closed line) →
      patch older.brokenLines (r.lines (unified older newer name)) = some newer.brokenLines) := by
  have met : (∀ line ∈ (shown older newer).dropLast, r.Closed line) →
      patch older.brokenLines (r.lines (unified older newer name)) = some newer.brokenLines := by
    intro closed
    by_cases same : older = newer
    · rw [same, unified_self]
      rfl
    · rw [unified_of_ne same]
      exact patch_of_closed plain closed
  refine ⟨unified_eq_nil_iff name, ⟨fun patched => ?_, fun closed => ?_⟩,
    fun oldClosed newClosed => met (closed_of_mem_dropLast_shown oldClosed newClosed)⟩
  · by_cases same : older = newer
    · have none : shown older newer = [] := by
        rw [shown, hunks_eq_nil_iff_eq.mpr same]
        rfl
      rw [none]
      exact List.forall_mem_nil _
    · by_contra notAll
      rw [unified_of_ne same] at patched
      exact patch_ne_of_open plain notAll patched
  · rw [met closed, Option.map_some, LineReading.flatten_brokenLines]

theorem unified_patches_oneLine :
    (∀ c ∈ ("source" : Text), c.endsLine = false) ∧
      patch (Text.brokenLines "a\n") (LineReading.lineFeeds.lines (unified "a\n" "b" "source")) =
        some (Text.brokenLines "b") := by
  have plain : ∀ c ∈ ("source" : Text), c.endsLine = false := by decide
  exact ⟨plain, (unified_patches_iff .lineFeeds "a\n" "b" "source" plain).2.2 (by decide) (by decide)⟩

/-- Where the last line of the old text has no end, the line that replaces it is written right behind it. -/
theorem unified_openEnd :
    unified "a" "b\n" "source" = "--- a/source\n+++ b/source\n@@ -1 +1 @@\n-a+b\n" ∧
      (patch (Text.brokenLines "a") (LineReading.lineFeeds.lines (unified "a" "b\n" "source"))).map List.flatten ≠
        some "b\n" ∧
      (patch (Text.brokenLines "a") (LineReading.allMarks.lines (unified "a" "b\n" "source"))).map List.flatten ≠
        some "b\n" := by
  have replaced : pieces (Text.brokenLines "a") (Text.brokenLines "b\n") = [.change ["a"] ["b\n"]] := by
    rw [pieces, rawPieces_eq]
    rfl
  have written : unified "a" "b\n" "source" = "--- a/source\n+++ b/source\n@@ -1 +1 @@\n-a+b\n" := by
    rw [unified, replaced]
    rfl
  rw [written]
  exact ⟨rfl, by decide, by decide⟩

end Mender.Diff
