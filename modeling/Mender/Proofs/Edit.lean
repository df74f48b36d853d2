import Mender.Edit
import Mender.Proofs.Text.Lines

namespace Mender

/-- The position behind so many whole lines and, on its own line, so many code points. -/
def Position.behind (lines columns : Nat) : Position := ⟨lines + 1, columns + 1, one_le_succ _, one_le_succ _⟩

namespace Edit

/-- The text of an edit; none counts as empty. -/
def content (e : Edit) : Text := e.text.getD []

/-- The places that an edit names are in the text, its stop not before its start. Only an insertion may
start one line past the end. -/
def Fits (t : Text) (e : Edit) : Prop :=
  match e.kind, e.stop with
  | .insert, _ => e.start.line ≤ t.lineCount + 1
  | .delete, none | .replace, none => e.start.line ≤ t.lineCount
  | .delete, some stop | .replace, some stop =>
    e.start.line ≤ t.lineCount ∧ stop.line ≤ t.lineCount ∧ t.offset e.start ≤ t.offset stop

instance (t : Text) (e : Edit) : Decidable (e.Fits t) :=
  match e with
  | ⟨.insert, _, _, _⟩ => inferInstanceAs (Decidable (_ ≤ _))
  | ⟨.delete, _, none, _⟩ => inferInstanceAs (Decidable (_ ≤ _))
  | ⟨.replace, _, none, _⟩ => inferInstanceAs (Decidable (_ ≤ _))
  | ⟨.delete, _, some _, _⟩ => inferInstanceAs (Decidable (_ ∧ _ ∧ _))
  | ⟨.replace, _, some _, _⟩ => inferInstanceAs (Decidable (_ ∧ _ ∧ _))

/-- The text after an edit that fits. -/
def onText (t : Text) (e : Edit) : Text :=
  match e.kind, e.stop with
  | .insert, _ =>
    if e.start.line = t.lineCount + 1 then t ++ Text.lineFeed :: e.content
    else t.replaceSlice (t.offset e.start) (t.offset e.start) e.content
  | .delete, some stop => t.replaceSlice (t.offset e.start) (t.offset stop) []
  | .replace, some stop => t.replaceSlice (t.offset e.start) (t.offset stop) e.content
  | .delete, none => t.withoutLine (e.start.line - 1)
  | .replace, none =>
    t.replaceSlice (t.lineStart (e.start.line - 1)) (t.lineEnd (e.start.line - 1)) e.content

/-- The text after an edit, if the edit fits. -/
def onText? (t : Text) (e : Edit) : Option Text := if e.Fits t then some (e.onText t) else none

section Lines

variable {t line : Text} {p : Position} {ls front back : List Text} {i limit : Nat}

theorem lineIndex_of_le (inside : p.line ≤ limit) :
    lineIndex ls p.place.line limit = .ok (p.line - 1) := by
  have one := p.one_le_line
  have valid : ¬((p.line : Int) < 1 ∨ (limit : Int) < p.line) := by omega
  unfold lineIndex
  rw [Position.place, if_neg valid, Int.toNat_natCast]

theorem lineIndex_of_lt (outside : limit < p.line) :
    lineIndex ls p.place.line limit = .error (.lineOutside p.line ls.length) := by
  have invalid : (p.line : Int) < 1 ∨ (limit : Int) < p.line := by omega
  unfold lineIndex
  rw [Position.place, if_pos invalid]

theorem columnOffset_eq (line : Text) (p : Position) :
    columnOffset line p.place.column = min (p.column - 1) line.length := by
  have one := p.one_le_column
  have column : ((p.column : Int) - 1).toNat = p.column - 1 := by omega
  rw [columnOffset, Position.place, column]

theorem lineAt_eq (cut : t.At i front line back) : lineAt t.lines i = line := by
  rw [lineAt, List.getD_eq_getElem?_getD, cut.getElem?_lines, Option.getD_some]

theorem putLines_eq {line' : Text} {j : Nat} {front' back' : List Text}
    (cut : t.At i front line back) (cut' : t.At j front' line' back') (content : Text) :
    putLines t.lines i j content = (Text.ofLines (front ++ content :: back')).lines := by
  have before : t.lines.take i = front := by rw [cut.lines, ← cut.index, List.take_left]
  have after : t.lines.drop (j + 1) = back' := by
    rw [cut'.lines, ← cut'.index, ← List.drop_drop, List.drop_left]
    rfl
  have some : front ++ content :: back' ≠ [] := by simp
  rw [putLines, before, after, Text.lines_ofLines_eq_flatMap some, List.flatMap_append,
    List.flatMap_cons, Text.flatMap_lines cut.unbroken.1, Text.flatMap_lines cut'.unbroken.2.2,
    List.append_assoc]

theorem offset_eq (cut : t.At (p.line - 1) front line back) :
    t.offset p = t.lineStart (p.line - 1) + columnOffset line p.place.column := by
  rw [columnOffset_eq, Text.offset, cut.lineLength_eq]

/-- The order of two places, by line and then by column, is the order of their offsets. -/
theorem precedes_iff {p q : Position} {line' : Text} {front' back' : List Text}
    (cut : t.At (p.line - 1) front line back) (cut' : t.At (q.line - 1) front' line' back') :
    q.line - 1 < p.line - 1 ∨ q.line - 1 = p.line - 1 ∧
        columnOffset line' q.place.column < columnOffset line p.place.column ↔
      t.offset q < t.offset p := by
  have p_count := cut.length_back
  have q_count := cut'.length_back
  have p_line := p.one_le_line
  have q_line := q.one_le_line
  rw [Text.offset_lt_offset_iff (by omega) (by omega), cut.lineLength_eq, cut'.lineLength_eq,
    columnOffset_eq, columnOffset_eq]
  omega

theorem columnOffset_le (line : Text) (column : Int) : columnOffset line column ≤ line.length :=
  Nat.min_le_right _ _

/-- Putting a text between two places of the lines is putting it in the place of the slice. -/
theorem putLines_offsets {start stop : Position} {line' : Text} {front' back' : List Text}
    (cut : t.At (start.line - 1) front line back) (cut' : t.At (stop.line - 1) front' line' back')
    (new : Text) :
    putLines t.lines (start.line - 1) (stop.line - 1)
        (line.take (columnOffset line start.place.column) ++ new ++
          line'.drop (columnOffset line' stop.place.column)) =
      (t.replaceSlice (t.offset start) (t.offset stop) new).lines := by
  rw [putLines_eq cut cut', offset_eq cut, offset_eq cut',
    cut.replaceSlice_eq cut' (columnOffset_le _ _) (columnOffset_le _ _)]

end Lines

section Operations

variable {t new : Text} {start stop : Position}

theorem exists_at_position {p : Position} (inside : p.line ≤ t.lineCount) :
    ∃ front line back, t.At (p.line - 1) front line back := by
  have one := p.one_le_line
  exact Text.exists_at (by omega)

/-- A splice whose ends lie in the text, in this order, replaces the slice of the text between their
offsets. -/
theorem splice_of_fits (start_inside : start.line ≤ t.lineCount) (stop_inside : stop.line ≤ t.lineCount)
    (ordered : t.offset start ≤ t.offset stop) :
    splice t.lines start.place stop.place new =
      .ok (t.replaceSlice (t.offset start) (t.offset stop) new).lines := by
  obtain ⟨front, line, back, cut⟩ := exists_at_position start_inside
  obtain ⟨front', line', back', cut'⟩ := exists_at_position stop_inside
  have forward := mt (precedes_iff cut cut').mp (Nat.not_lt.mpr ordered)
  rw [splice, Text.length_lines, lineIndex_of_le start_inside, lineIndex_of_le stop_inside]
  dsimp only [Bind.bind, Except.bind]
  rw [lineAt_eq cut, lineAt_eq cut', if_neg forward, putLines_offsets cut cut']
  rfl

/-- It fails when an end lies outside, or when the ends stand the wrong way round. -/
theorem splice_of_not_fits (unfit : ¬(start.line ≤ t.lineCount ∧ stop.line ≤ t.lineCount ∧
    t.offset start ≤ t.offset stop)) :
    ∃ error, splice t.lines start.place stop.place new = .error error := by
  rw [splice, Text.length_lines]
  by_cases start_inside : start.line ≤ t.lineCount
  · rw [lineIndex_of_le start_inside]
    by_cases stop_inside : stop.line ≤ t.lineCount
    · rw [lineIndex_of_le stop_inside]
      obtain ⟨front, line, back, cut⟩ := exists_at_position start_inside
      obtain ⟨front', line', back', cut'⟩ := exists_at_position stop_inside
      have reversed := (precedes_iff cut cut').mpr (by omega)
      dsimp only [Bind.bind, Except.bind]
      rw [lineAt_eq cut, lineAt_eq cut', if_pos reversed]
      exact ⟨_, rfl⟩
    · rw [lineIndex_of_lt (Nat.not_le.mp stop_inside)]
      exact ⟨_, rfl⟩
  · rw [lineIndex_of_lt (Nat.not_le.mp start_inside)]
    exact ⟨_, rfl⟩

theorem insertAt_of_inside (inside : start.line ≤ t.lineCount) :
    insertAt t.lines start.place new =
      .ok (t.replaceSlice (t.offset start) (t.offset start) new).lines := by
  obtain ⟨front, line, back, cut⟩ := exists_at_position inside
  have start_line := start.one_le_line
  rw [insertAt, Text.length_lines, lineIndex_of_le (Nat.le_succ_of_le inside)]
  dsimp only [Bind.bind, Except.bind]
  rw [if_neg (by omega), lineAt_eq cut, putLines_offsets cut cut]
  rfl

/-- One line past the end is still a place to insert at: the text is put on a line of its own. -/
theorem insertAt_past_end (past : start.line = t.lineCount + 1) :
    insertAt t.lines start.place new = .ok (t ++ Text.lineFeed :: new).lines := by
  rw [insertAt, Text.length_lines, lineIndex_of_le (Nat.le_of_eq past)]
  dsimp only [Bind.bind, Except.bind]
  rw [if_pos (by omega), Text.lines_append_lineFeed]
  rfl

theorem replaceLine_of_inside (inside : start.line ≤ t.lineCount) :
    replaceLine t.lines start.place.line new =
      .ok (t.replaceSlice (t.lineStart (start.line - 1)) (t.lineEnd (start.line - 1)) new).lines := by
  obtain ⟨front, line, back, cut⟩ := exists_at_position inside
  have slice := cut.replaceSlice_eq cut (Nat.zero_le _) (Nat.le_refl _) new
  rw [List.take_zero, List.nil_append, List.drop_length, List.append_nil, Nat.add_zero] at slice
  rw [replaceLine, Text.length_lines, lineIndex_of_le inside]
  dsimp only [Bind.bind, Except.bind]
  rw [putLines_eq cut cut, ← slice, Text.lineEnd, cut.lineLength_eq]
  rfl

theorem removeLine_of_inside (inside : start.line ≤ t.lineCount) :
    removeLine t.lines start.place.line = .ok (t.withoutLine (start.line - 1)).lines := by
  obtain ⟨front, line, back, cut⟩ := exists_at_position inside
  rw [removeLine, Text.length_lines, lineIndex_of_le inside]
  dsimp only [Bind.bind, Except.bind]
  by_cases single : t.lineCount = 1
  · rw [if_pos single, Text.withoutLine, if_pos single]
    rfl
  · rw [if_neg single, cut.lines_withoutLine single, cut.lines, ← cut.index,
      List.eraseIdx_append_of_length_le (Nat.le_refl _), Nat.sub_self]
    rfl

end Operations

/-- On an edit that fits, work on lines and work on the text give the same. -/
theorem apply_of_fits {t : Text} {e : Edit} (fits : e.Fits t) :
    Edit.apply t.lines e = .ok (e.onText t).lines := by
  obtain ⟨kind, start, stop, text⟩ := e
  cases kind with
  | insert =>
    by_cases past : start.line = t.lineCount + 1
    · exact (insertAt_past_end past).trans (by rw [onText, if_pos past]; rfl)
    · have inside : start.line ≤ t.lineCount := Nat.le_of_lt_succ (Nat.lt_of_le_of_ne fits past)
      exact (insertAt_of_inside inside).trans (by rw [onText, if_neg past]; rfl)
  | delete =>
    cases stop with
    | none => exact removeLine_of_inside fits
    | some stop => exact splice_of_fits fits.1 fits.2.1 fits.2.2
  | replace =>
    cases stop with
    | none => exact replaceLine_of_inside fits
    | some stop => exact splice_of_fits fits.1 fits.2.1 fits.2.2

theorem apply_of_not_fits {t : Text} {e : Edit} (unfit : ¬e.Fits t) :
    ∃ error, Edit.apply t.lines e = .error error := by
  obtain ⟨kind, start, stop, text⟩ := e
  cases kind with
  | insert =>
    refine ⟨.lineOutside start.line t.lines.length, ?_⟩
    change insertAt t.lines start.place (text.getD []) = _
    rw [insertAt, lineIndex_of_lt (Text.length_lines t ▸ Nat.not_le.mp unfit)]
    rfl
  | delete =>
    cases stop with
    | none =>
      refine ⟨.lineOutside start.line t.lines.length, ?_⟩
      change removeLine t.lines start.place.line = _
      rw [removeLine, lineIndex_of_lt (Text.length_lines t ▸ Nat.not_le.mp unfit)]
      rfl
    | some stop => exact splice_of_not_fits unfit
  | replace =>
    cases stop with
    | none =>
      refine ⟨.lineOutside start.line t.lines.length, ?_⟩
      change replaceLine t.lines start.place.line (text.getD []) = _
      rw [replaceLine, lineIndex_of_lt (Text.length_lines t ▸ Nat.not_le.mp unfit)]
      rfl
    | some stop => exact splice_of_not_fits unfit

end Edit

theorem applyEdits_nil (t : Text) : applyEdits t [] = .ok t := by
  rw [applyEdits, List.foldlM_nil]
  exact congrArg Except.ok (Text.ofLines_lines t)

theorem applyEdits_singleton {t : Text} {e : Edit} (fits : e.Fits t) : applyEdits t [e] = .ok (e.onText t) := by
  rw [applyEdits, List.foldlM_cons, Edit.apply_of_fits fits]
  exact congrArg Except.ok (Text.ofLines_lines _)

/-- Edits one after the other agree on lines and on text, up to the wording of an error. -/
theorem foldlM_apply_lines (t : Text) (edits : List Edit) :
    (edits.foldlM Edit.apply t.lines).toOption = (edits.foldlM Edit.onText? t).map Text.lines := by
  induction edits generalizing t with
  | nil => rfl
  | cons e edits ih =>
    rw [List.foldlM_cons, List.foldlM_cons]
    by_cases fits : e.Fits t
    · rw [Edit.apply_of_fits fits, Edit.onText?, if_pos fits]
      exact ih (e.onText t)
    · obtain ⟨error, fails⟩ := Edit.apply_of_not_fits fits
      rw [fails, Edit.onText?, if_neg fits]
      rfl

theorem applyEdits_toOption (t : Text) (edits : List Edit) :
    (applyEdits t edits).toOption = edits.foldlM Edit.onText? t := by
  have same := foldlM_apply_lines t edits
  unfold applyEdits
  cases run : edits.foldlM Edit.apply t.lines with
  | error e =>
    rw [run] at same
    exact (Option.map_eq_none_iff.mp same.symm).symm
  | ok ls =>
    rw [run] at same
    obtain ⟨u, onText, lines⟩ := Option.map_eq_some_iff.mp same.symm
    rw [onText, ← lines]
    exact congrArg some (Text.ofLines_lines u)

/-- A list of edits fails at its first edit that does not fit the text it meets. -/
theorem foldlM_onText?_eq_none_iff {t : Text} {edits : List Edit} :
    edits.foldlM Edit.onText? t = none ↔ ∃ before e after u, edits = before ++ e :: after ∧
      before.foldlM Edit.onText? t = some u ∧ ¬e.Fits u := by
  constructor
  · intro fails
    induction edits generalizing t with
    | nil => cases fails
    | cons e edits ih =>
      by_cases fits : e.Fits t
      · rw [List.foldlM_cons, Edit.onText?, if_pos fits] at fails
        obtain ⟨before, f, after, u, split, reached, unfit⟩ := ih fails
        refine ⟨e :: before, f, after, u, by rw [split, List.cons_append], ?_, unfit⟩
        rw [List.foldlM_cons, Edit.onText?, if_pos fits]
        exact reached
      · exact ⟨[], e, edits, t, rfl, rfl, fits⟩
  · rintro ⟨before, e, after, u, rfl, reached, unfit⟩
    rw [List.foldlM_append, reached]
    dsimp only [Bind.bind, Option.bind]
    rw [List.foldlM_cons, Edit.onText?, if_neg unfit]
    rfl

/-- Edits act on the flat text, each on the result of the one before. They fail exactly if one of them
does not fit the text that those before it lead to. -/
theorem applyEdits_on_flat_text (t : Text) (edits : List Edit) :
    (∀ u, applyEdits t edits = .ok u ↔ edits.foldlM Edit.onText? t = some u) ∧
      ((∃ error, applyEdits t edits = .error error) ↔
        ∃ before e after u, edits = before ++ e :: after ∧
          before.foldlM Edit.onText? t = some u ∧ ¬e.Fits u) := by
  rw [← foldlM_onText?_eq_none_iff, ← applyEdits_toOption]
  cases applyEdits t edits with
  | ok u => simp [Except.toOption]
  | error e => simp [Except.toOption]

end Mender
