import Mender.Proofs.Edit

namespace Mender

/-- The position so many lines further down, or up where the number is negative, and never above the first line. -/
def Position.down (p : Position) (lines : Int) : Position where
  line := (max 1 (p.line + lines)).toNat
  column := p.column
  one_le_line := by omega
  one_le_column := p.one_le_column

/-- The same edit of lines that stand so many lines further down. -/
def Edit.down (e : Edit) (lines : Int) : Edit :=
  { e with start := e.start.down lines, stop := e.stop.map (·.down lines) }

namespace Edit

/-- The last line that an edit speaks of. An insertion has no use for its stop. -/
def lastLine (e : Edit) : Nat :=
  match e.kind, e.stop with
  | .insert, _ | .delete, none | .replace, none => e.start.line
  | .delete, some stop | .replace, some stop => stop.line

/-- The text has at least one line. -/
def atLeastOne (lines : List Text) : List Text := if lines = [] then [[]] else lines

section Block

variable (block : List Text) (start stop : Position) (new : Text)

/-- The first line before the start, a text, and the last line from the stop on. -/
def joined : Text :=
  let first := lineAt block 0
  let last := lineAt block (block.length - 1)
  first.take (columnOffset first start.place.column) ++ new ++ last.drop (columnOffset last stop.place.column)

/-- The stop lies before the start in the same line. -/
def Reversed : Prop :=
  block.length = 1 ∧ columnOffset (lineAt block (block.length - 1)) stop.place.column <
    columnOffset (lineAt block 0) start.place.column

instance : Decidable (Reversed block start stop) := inferInstanceAs (Decidable (_ ∧ _))

end Block

/-- The lines that come of those that an edit speaks of, unless its stop lies before its start. -/
def onBlock? (e : Edit) (block : List Text) : Option (List Text) :=
  match e.kind, e.stop with
  | .insert, _ => some (joined block e.start e.start e.content).lines
  | .delete, none => some []
  | .replace, none => some e.content.lines
  | .delete, some stop => if Reversed block e.start stop then none else some (joined block e.start stop []).lines
  | .replace, some stop =>
    if Reversed block e.start stop then none else some (joined block e.start stop e.content).lines

/-- What an edit does to its block does not depend on where the block stands. -/
theorem onBlock?_down (e : Edit) (lines : Int) (block : List Text) :
    (e.down lines).onBlock? block = e.onBlock? block := by
  obtain ⟨kind, start, stop, text⟩ := e
  cases kind <;> cases stop <;> rfl

theorem lastLine_down (e : Edit) (lines : Int) :
    (e.down lines).lastLine = (max 1 (e.lastLine + lines)).toNat := by
  obtain ⟨kind, start, stop, text⟩ := e
  cases kind <;> cases stop <;> rfl

section Blocks

variable {front block back : List Text} {start stop : Position} {new : Text}

theorem lineAt_block (front back : List Text) {i : Nat} (inside : i < block.length) :
    lineAt (front ++ block ++ back) (front.length + i) = lineAt block i := by
  have here : (front ++ block ++ back)[front.length + i]? = block[i]? := by
    rw [List.append_assoc, List.getElem?_append_right (Nat.le_add_right _ _), Nat.add_sub_cancel_left,
      List.getElem?_append_left inside]
  simp only [lineAt, List.getD_eq_getElem?_getD, here]

theorem putLines_block {last : Nat} (ends : last + 1 = front.length + block.length) (content : Text) :
    putLines (front ++ block ++ back) front.length last content = front ++ content.lines ++ back := by
  have before : (front ++ block ++ back).take front.length = front := by simp
  have after : (front ++ block ++ back).drop (front.length + block.length) = back := by simp
  rw [putLines, ends, before, after]

/-- The line of a position is found where the lines in front end. -/
theorem lineIndex_block (starts : start.line = front.length + 1) {limit : Nat} (inside : front.length < limit) :
    lineIndex (front ++ block ++ back) start.place.line limit = .ok front.length := by
  have index : start.line - 1 = front.length := by omega
  rw [lineIndex_of_le (by omega), index]

/-- A splice within a block sees neither what is before the block nor what is behind it. -/
theorem splice_block (starts : start.line = front.length + 1) (ends : stop.line = front.length + block.length)
    (some : block ≠ []) :
    (splice (front ++ block ++ back) start.place stop.place new).toOption =
      if Reversed block start stop then none
      else .some (front ++ (joined block start stop new).lines ++ back) := by
  have size := List.length_pos_iff.mpr some
  have count : (front ++ block ++ back).length = front.length + block.length + back.length := by
    rw [List.length_append, List.length_append]
  have firstLine := lineAt_block front back size
  have lastLine := lineAt_block front back (Nat.sub_one_lt (Nat.ne_of_gt size))
  have lastIndex : lineIndex (front ++ block ++ back) stop.place.line (front ++ block ++ back).length =
      .ok (front.length + (block.length - 1)) := by
    have index : stop.line - 1 = front.length + (block.length - 1) := by omega
    rw [lineIndex_of_le (by omega), index]
  rw [splice, lineIndex_block starts (by omega), lastIndex]
  dsimp only [Bind.bind, Except.bind]
  rw [Nat.add_zero] at firstLine
  rw [firstLine, lastLine, putLines_block (by omega)]
  have reversed : (front.length + (block.length - 1) < front.length ∨
      front.length + (block.length - 1) = front.length ∧
        columnOffset (lineAt block (block.length - 1)) stop.place.column <
          columnOffset (lineAt block 0) start.place.column) ↔ Reversed block start stop := by
    unfold Reversed
    omega
  simp only [reversed]
  split <;> rfl

theorem insertAt_block {line : Text} (starts : start.line = front.length + 1) :
    insertAt (front ++ [line] ++ back) start.place new =
      .ok (front ++ (joined [line] start start new).lines ++ back) := by
  have here := lineAt_block front back (List.length_pos_of_mem (List.mem_singleton_self line))
  rw [Nat.add_zero] at here
  have inside : front.length < (front ++ [line] ++ back).length + 1 := by
    simp only [List.length_append, List.length_singleton]
    omega
  rw [insertAt, lineIndex_block starts inside]
  dsimp only [Bind.bind, Except.bind]
  rw [if_neg (by simp), here, putLines_block rfl]
  rfl

theorem removeLine_block {line : Text} (starts : start.line = front.length + 1) :
    removeLine (front ++ [line] ++ back) start.place.line = .ok (atLeastOne (front ++ [] ++ back)) := by
  have erased : (front ++ [line] ++ back).eraseIdx front.length = front ++ [] ++ back := by
    rw [List.append_assoc, List.eraseIdx_append_of_length_le (Nat.le_refl _)]
    simp
  have count : (front ++ [line] ++ back).length = (front ++ [] ++ back).length + 1 := by
    simp only [List.length_append, List.length_singleton, List.length_nil]
    omega
  rw [removeLine, lineIndex_block starts (by simp)]
  dsimp only [Bind.bind, Except.bind]
  rw [erased, count]
  by_cases none : front ++ [] ++ back = []
  · rw [none]
    rfl
  · have more : (front ++ [] ++ back).length + 1 ≠ 1 := by simpa using none
    rw [if_neg more, atLeastOne, if_neg none]
    rfl

theorem replaceLine_block {line : Text} (starts : start.line = front.length + 1) :
    replaceLine (front ++ [line] ++ back) start.place.line new = .ok (front ++ new.lines ++ back) := by
  rw [replaceLine, lineIndex_block starts (by simp)]
  dsimp only [Bind.bind, Except.bind]
  rw [putLines_block rfl]
  rfl

/-- An edit changes the lines that it speaks of, and leaves those in front of them and behind them as they are. -/
theorem apply_block {e : Edit} (back : List Text) (starts : e.start.line = front.length + 1)
    (ends : e.lastLine = front.length + block.length) (some : block ≠ []) :
    (Edit.apply (front ++ block ++ back) e).toOption =
      (e.onBlock? block).map fun new => atLeastOne (front ++ new ++ back) := by
  have kept (new : Text) : atLeastOne (front ++ new.lines ++ back) = front ++ new.lines ++ back := by
    simp [atLeastOne, Text.lines_ne_nil]
  have single {e : Edit} (starts : e.start.line = front.length + 1)
      (ends : e.start.line = front.length + block.length) : ∃ line, block = [line] :=
    List.length_eq_one_iff.mp (by omega)
  have spliced {start stop : Position} (starts : start.line = front.length + 1)
      (ends : stop.line = front.length + block.length) (new : Text) :
      (splice (front ++ block ++ back) start.place stop.place new).toOption =
        (if Reversed block start stop then none else .some (joined block start stop new).lines).map fun new =>
          atLeastOne (front ++ new ++ back) := by
    rw [splice_block starts ends some]
    split
    · rfl
    · exact congrArg _ (kept _).symm
  obtain ⟨kind, start, stop, text⟩ := e
  cases kind with
  | insert =>
    obtain ⟨line, rfl⟩ := single starts ends
    exact (congrArg Except.toOption (insertAt_block starts)).trans (congrArg _ (kept _).symm)
  | delete =>
    cases stop with
    | none =>
      obtain ⟨line, rfl⟩ := single starts ends
      exact congrArg Except.toOption (removeLine_block starts)
    | some stop => exact spliced starts ends []
  | replace =>
    cases stop with
    | none =>
      obtain ⟨line, rfl⟩ := single starts ends
      exact (congrArg Except.toOption (replaceLine_block starts)).trans (congrArg _ (kept _).symm)
    | some stop => exact spliced starts ends (text.getD [])

/-- An edit acts on the block of lines it reaches over, and leaves the lines on either side alone.
-/
theorem apply_eq_ok_iff (front block back : List Text) {e : Edit} {ls made : List Text}
    (cut : ls = front ++ block ++ back) (starts : e.start.line = front.length + 1)
    (ends : e.lastLine = front.length + block.length) (some : block ≠ []) :
    Edit.apply ls e = .ok made ↔ ∃ new, e.onBlock? block = .some new ∧ atLeastOne (front ++ new ++ back) = made := by
  have same := apply_block back starts ends some
  rw [← cut] at same
  rw [← Option.map_eq_some_iff, ← same]
  cases Edit.apply ls e <;> simp [Except.toOption]

end Blocks

theorem atLeastOne_of_ne_nil {ls : List Text} (some : ls ≠ []) : atLeastOne ls = ls := if_neg some

theorem lastLine_le_lineCount {t : Text} {e : Edit} (fits : e.Fits t) (inside : e.start.line ≤ t.lineCount) :
    e.lastLine ≤ t.lineCount := by
  obtain ⟨kind, start, stop, text⟩ := e
  cases kind with
  | insert => exact inside
  | delete | replace =>
    cases stop with
    | none => exact inside
    | some stop => exact fits.2.1

theorem line_le_lastLine {t : Text} {e : Edit} (fits : e.Fits t) : e.start.line ≤ e.lastLine := by
  have ordered {start stop : Position} (inside : start.line ≤ t.lineCount ∧ stop.line ≤ t.lineCount ∧
      t.offset start ≤ t.offset stop) : start.line ≤ stop.line := by
    obtain ⟨startInside, stopInside, order⟩ := inside
    by_contra before
    have reversed := (Text.offset_lt_offset_iff startInside stopInside).mpr (Or.inl (Nat.not_le.mp before))
    omega
  obtain ⟨kind, start, stop, text⟩ := e
  cases kind with
  | insert => exact Nat.le_refl _
  | delete | replace =>
    cases stop with
    | none => exact Nat.le_refl _
    | some stop => exact ordered fits

end Edit

/-- Only an edit that fits can be applied alone. -/
theorem fits_of_applyEdits {t u : Text} {e : Edit} (run : applyEdits t [e] = .ok u) :
    e.Fits t ∧ Edit.apply t.lines e = .ok u.lines := by
  by_cases fits : e.Fits t
  · rw [applyEdits_singleton fits] at run
    cases run
    exact ⟨fits, Edit.apply_of_fits fits⟩
  · obtain ⟨error, fails⟩ := Edit.apply_of_not_fits fits
    rw [applyEdits, List.foldlM_cons, fails] at run
    cases run

theorem applyEdits_pair {t u : Text} {e f : Edit} {ls : List Text} (first : applyEdits t [e] = .ok u)
    (second : Edit.apply u.lines f = .ok ls) : applyEdits t [e, f] = .ok (Text.ofLines ls) := by
  rw [applyEdits, List.foldlM_cons, (fits_of_applyEdits first).2]
  dsimp only [Bind.bind, Except.bind]
  rw [List.foldlM_cons, second]
  rfl

/-- A list cut at four places. -/
theorem exists_cuts {α : Type} (l : List α) {i j k n : Nat} (ij : i ≤ j) (jk : j ≤ k) (kn : k ≤ n)
    (inside : n ≤ l.length) :
    ∃ a b c d e, l = a ++ b ++ c ++ d ++ e ∧ a.length = i ∧ (a ++ b).length = j ∧ (a ++ b ++ c).length = k ∧
      (a ++ b ++ c ++ d).length = n := by
  have cut {m : Nat} (l : List α) (inside : m ≤ l.length) : ∃ x y, l = x ++ y ∧ x.length = m :=
    ⟨l.take m, l.drop m, (List.take_append_drop m l).symm, List.length_take_of_le inside⟩
  obtain ⟨x₄, e, rfl, atFour⟩ := cut l inside
  obtain ⟨x₃, d, rfl, atThree⟩ := cut x₄ (by omega : k ≤ _)
  obtain ⟨x₂, c, rfl, atTwo⟩ := cut x₃ (by omega : j ≤ _)
  obtain ⟨a, b, rfl, atOne⟩ := cut x₂ (by omega : i ≤ _)
  exact ⟨a, b, c, d, e, rfl, atOne, atTwo, atThree, atFour⟩

/-- The text around two edits of lines that are apart: what each makes of its own lines is known from the text in which
both find them. -/
theorem exists_blocks {t u v : Text} {e f : Edit} (first : applyEdits t [e] = .ok u)
    (second : applyEdits t [f] = .ok v) (apart : e.lastLine < f.start.line) (inside : f.start.line ≤ t.lineCount) :
    ∃ a b c d z new new', t.lines = a ++ b ++ c ++ d ++ z ∧ b ≠ [] ∧ d ≠ [] ∧
      (e.start.line = a.length + 1 ∧ e.lastLine = a.length + b.length) ∧
      (f.start.line = a.length + b.length + c.length + 1 ∧
        f.lastLine = a.length + b.length + c.length + d.length) ∧
      (e.onBlock? b = some new ∧ a ++ new ++ c ++ d ++ z = u.lines) ∧
      (f.onBlock? d = some new' ∧ a ++ b ++ c ++ new' ++ z = v.lines) := by
  obtain ⟨fits, made⟩ := fits_of_applyEdits first
  obtain ⟨fits', made'⟩ := fits_of_applyEdits second
  have forward := Edit.line_le_lastLine fits
  have forward' := Edit.line_le_lastLine fits'
  have one := e.start.one_le_line
  have atEnd := Edit.lastLine_le_lineCount fits' inside
  rw [← Text.length_lines] at atEnd
  obtain ⟨a, b, c, d, z, cut, atOne, atTwo, atThree, atFour⟩ := exists_cuts t.lines
    (i := e.start.line - 1) (j := e.lastLine) (k := f.start.line - 1) (n := f.lastLine) (by omega) (by omega)
    (by omega) atEnd
  simp only [List.length_append] at atTwo atThree atFour
  have bSome : b ≠ [] := List.ne_nil_of_length_pos (by omega)
  have dSome : d ≠ [] := List.ne_nil_of_length_pos (by omega)
  have startsB : e.start.line = a.length + 1 := by omega
  have startsD : f.start.line = (a ++ b ++ c).length + 1 := by
    simp only [List.length_append]
    omega
  have endsD : f.lastLine = (a ++ b ++ c).length + d.length := by
    simp only [List.length_append]
    omega
  obtain ⟨new, onB, uLines⟩ := (Edit.apply_eq_ok_iff a b (c ++ d ++ z) (by simp [cut]) startsB atTwo.symm
    bSome).mp made
  obtain ⟨new', onD, vLines⟩ := (Edit.apply_eq_ok_iff (a ++ b ++ c) d z cut startsD endsD dSome).mp made'
  rw [Edit.atLeastOne_of_ne_nil (by simp [dSome])] at uLines
  rw [Edit.atLeastOne_of_ne_nil (by simp [bSome])] at vLines
  simp only [List.length_append] at startsD endsD
  simp only [← List.append_assoc] at uLines
  exact ⟨a, b, c, d, z, new, new', cut, bSome, dSome, ⟨startsB, atTwo.symm⟩, ⟨startsD, endsD⟩, ⟨onB, uLines⟩, onD,
    vLines⟩

/-- Of two edits that both apply to a text, the first speaks of lines before those of the second. Then the second may
be made first, or after the first with its lines counted anew: by as many further down as the first made the text
longer. -/
theorem applyEdits_swap {t u v : Text} {e f : Edit} (first : applyEdits t [e] = .ok u)
    (second : applyEdits t [f] = .ok v) (apart : e.lastLine < f.start.line) (inside : f.start.line ≤ t.lineCount) :
    let grown : Int := u.lineCount - t.lineCount
    (∃ w, applyEdits t [f, e] = .ok w ∧ applyEdits t [e, f.down grown] = .ok w) ∧
      ((f.down grown).start.line = f.start.line + grown ∧ (f.down grown).lastLine = f.lastLine + grown) := by
  obtain ⟨a, b, c, d, z, new, new', cut, bSome, dSome, ⟨startsB, endsB⟩, ⟨startsD, endsD⟩, ⟨onB, uLines⟩, onD,
    vLines⟩ := exists_blocks first second apart inside
  have grown : (u.lineCount : Int) - t.lineCount = new.length - b.length := by
    rw [← Text.length_lines, ← Text.length_lines, ← uLines, cut]
    simp only [List.length_append]
    omega
  rw [grown]
  have startDown : ((f.down (new.length - b.length)).start.line : Int) = f.start.line + (new.length - b.length) := by
    simp only [Edit.down, Position.down]
    omega
  have lastDown : ((f.down (new.length - b.length)).lastLine : Int) = f.lastLine + (new.length - b.length) := by
    have more := List.length_pos_iff.mpr dSome
    rw [Edit.lastLine_down]
    omega
  have early : Edit.apply v.lines e = .ok (Edit.atLeastOne (a ++ new ++ c ++ new' ++ z)) := by
    refine (Edit.apply_eq_ok_iff a b (c ++ new' ++ z) (by simp [← vLines]) startsB endsB bSome).mpr ⟨new, onB, ?_⟩
    simp only [List.append_assoc]
  have late : Edit.apply u.lines (f.down (new.length - b.length)) =
      .ok (Edit.atLeastOne (a ++ new ++ c ++ new' ++ z)) := by
    have onLater := (f.onBlock?_down (new.length - b.length) d).trans onD
    refine (Edit.apply_eq_ok_iff (a ++ new ++ c) d z uLines.symm ?_ ?_ dSome).mpr ⟨new', onLater, rfl⟩
    · simp only [List.length_append]
      omega
    · simp only [List.length_append]
      omega
  exact ⟨⟨_, applyEdits_pair second early, applyEdits_pair first late⟩, startDown, lastDown⟩

/-- Takes away what lies between the first letters of the first two lines. -/
def cutOver : Edit := ⟨.delete, .behind 0 1, some (.behind 1 1), none⟩

def dropThird : Edit := ⟨.delete, .behind 2 0, none, none⟩

theorem cutOver_swap :
    applyEdits "ab\ncd\nef" [cutOver] = .ok "ad\nef" ∧ applyEdits "ab\ncd\nef" [dropThird] = .ok "ab\ncd" ∧
      cutOver.lastLine < dropThird.start.line ∧ dropThird.start.line ≤ Text.lineCount "ab\ncd\nef" ∧
      let grown : Int := Text.lineCount "ad\nef" - Text.lineCount "ab\ncd\nef"
      (∃ w, applyEdits "ab\ncd\nef" [dropThird, cutOver] = .ok w ∧
          applyEdits "ab\ncd\nef" [cutOver, dropThird.down grown] = .ok w) ∧
        (dropThird.down grown).start.line = dropThird.start.line + grown ∧
        (dropThird.down grown).lastLine = dropThird.lastLine + grown :=
  ⟨rfl, rfl, by decide, by decide, applyEdits_swap (v := "ab\ncd") rfl rfl (by decide) (by decide)⟩

/-- Both lines of a text may be removed in either order, though the one that goes last is then the only one. -/
example : applyEdits "a\nb" [⟨.delete, ⟨2, 1, by decide, by decide⟩, none, none⟩,
      ⟨.delete, Position.textStart, none, none⟩] = .ok [] ∧
    applyEdits "a\nb" [⟨.delete, Position.textStart, none, none⟩, ⟨.delete, Position.textStart, none, none⟩] = .ok [] :=
  ⟨rfl, rfl⟩

end Mender
