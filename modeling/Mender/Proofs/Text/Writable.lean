import Mathlib.Data.List.TakeDrop
import Mender.Proofs.Edit
import Mender.Proofs.Text.Brackets
import Mender.Text.Encoding
import Mender.Text.Shown

namespace Mender

theorem CodePoint.isSurrogate_ofChar (c : Char) : (ofChar c).isSurrogate = false := by
  have size : (ofChar c).val = c.val.toNat := rfl
  rw [isSurrogate, Bool.and_eq_false_iff, decide_eq_false_iff_not, decide_eq_false_iff_not, size]
  rcases c.valid with low | ⟨high, _⟩
  · exact Or.inl (by omega)
  · exact Or.inr (by omega)

namespace Text

theorem isWritable_iff {t : Text} : t.isWritable ↔ ∀ c ∈ t, c.isSurrogate = false := by
  simp [isWritable]

@[simp] theorem isWritable_nil : isWritable [] = true := rfl

@[simp] theorem isWritable_cons (c : CodePoint) (t : Text) :
    isWritable (c :: t) = (!c.isSurrogate && isWritable t) := rfl

@[simp] theorem isWritable_append (t u : Text) : isWritable (t ++ u) = (isWritable t && isWritable u) :=
  List.all_append

theorem isWritable_of_subset {t u : Text} (whole : t.isWritable) (part : u ⊆ t) : u.isWritable :=
  isWritable_iff.mpr fun c member => isWritable_iff.mp whole c (part member)

@[simp] theorem isWritable_ofString (s : String) : (ofString s).isWritable := by
  rw [isWritable_iff]
  intro c member
  obtain ⟨d, _, rfl⟩ := List.mem_map.mp member
  exact CodePoint.isSurrogate_ofChar d

theorem isWritable_replicate {c : CodePoint} (plain : c.isSurrogate = false) (n : Nat) :
    isWritable (List.replicate n c) := by
  rw [isWritable_iff]
  intro d member
  rw [List.eq_of_mem_replicate member]
  exact plain

@[simp] theorem isWritable_hexText (n width : Nat) : (hexText n width).isWritable := by
  rw [hexText, zeroPad, isWritable_append, isWritable_ofString, Bool.and_true]
  exact isWritable_replicate (CodePoint.isSurrogate_ofChar '0') _

theorem isWritable_flatMap {t : Text} {write : CodePoint → Text} (each : ∀ c ∈ t, (write c).isWritable) :
    isWritable (t.flatMap write) := by
  rw [isWritable_iff]
  intro d member
  obtain ⟨c, inText, written⟩ := List.mem_flatMap.mp member
  exact isWritable_iff.mp (each c inText) d written

theorem isWritable_of_mem_lines {t l : Text} (whole : t.isWritable) (member : l ∈ t.lines) :
    l.isWritable := by
  induction t generalizing l with
  | nil =>
    rw [List.mem_singleton.mp member]
    rfl
  | cons c rest ih =>
    obtain ⟨plain, later⟩ := (Bool.and_eq_true _ _).mp whole
    rw [lines_cons] at member
    by_cases feed : c = lineFeed
    · rw [if_pos feed] at member
      rcases List.mem_cons.mp member with rfl | member
      · rfl
      · exact ih later member
    · obtain ⟨line, more, split⟩ := List.exists_cons_of_ne_nil (lines_ne_nil rest)
      rw [if_neg feed, split, List.modifyHead_cons] at member
      rw [split] at ih
      rcases List.mem_cons.mp member with rfl | member
      · exact (Bool.and_eq_true _ _).mpr ⟨plain, ih later List.mem_cons_self⟩
      · exact ih later (List.mem_cons_of_mem _ member)

theorem trimRight_subset (t : Text) : t.trimRight ⊆ t := by
  intro c member
  rw [trimRight, trimRightWhere, List.mem_reverse] at member
  exact List.mem_reverse.mp ((List.dropWhile_sublist _).subset member)

theorem isWritable_missingClosers (line : Text) : line.missingClosers.isWritable := by
  rw [isWritable_iff]
  intro c member
  obtain rfl | rfl | rfl := (isCloser_of_mem_missingClosers member).eq <;> exact CodePoint.isSurrogate_ofChar _

theorem quotedAtStart?_subset {t name : Text} (quoted : quotedAtStart? t = some name) : name ⊆ t := by
  cases t with
  | nil => cases quoted
  | cons c rest =>
    rw [quotedAtStart?, List.span_eq_takeWhile_dropWhile] at quoted
    split at quoted
    · split at quoted
      · cases quoted
      · cases quoted
      next _ _ cut =>
        cases quoted
        rw [← (Prod.mk.inj cut).1]
        exact List.Subset.trans (List.takeWhile_prefix _).subset (List.subset_cons_self _ _)
    · cases quoted

theorem quotedAtStart?_ne_nil {t name : Text} (quoted : quotedAtStart? t = some name) : name ≠ [] := by
  cases t with
  | nil => cases quoted
  | cons c rest =>
    rw [quotedAtStart?] at quoted
    split at quoted
    · split at quoted
      · cases quoted
      · cases quoted
      next some _ =>
        cases quoted
        exact some
    · cases quoted

theorem firstSuffix?_eq_some {α : Type} {read? : Text → Option α} {t : Text} {a : α}
    (found : firstSuffix? read? t = some a) : ∃ u, u <:+ t ∧ read? u = some a := by
  induction t with
  | nil => exact ⟨[], List.suffix_rfl, found⟩
  | cons c rest ih =>
    rcases Option.or_eq_some_iff.mp found with here | ⟨_, later⟩
    · exact ⟨c :: rest, List.suffix_rfl, here⟩
    · obtain ⟨u, part, read⟩ := ih later
      exact ⟨u, part.trans (List.suffix_cons c rest), read⟩

theorem quotedName?_subset {t name : Text} (quoted : t.quotedName? = some name) : name ⊆ t := by
  obtain ⟨u, part, atStart⟩ := firstSuffix?_eq_some quoted
  exact List.Subset.trans (quotedAtStart?_subset atStart) part.subset

theorem quotedName?_ne_nil {t name : Text} (quoted : t.quotedName? = some name) : name ≠ [] := by
  obtain ⟨u, -, atStart⟩ := firstSuffix?_eq_some quoted
  exact quotedAtStart?_ne_nil atStart

theorem missingName?_subset {t name : Text} (missing : t.missingName? = some name) : name ⊆ t := by
  obtain ⟨u, part, led⟩ := firstSuffix?_eq_some missing
  obtain ⟨lead, _, follows⟩ := List.exists_of_findSome?_eq_some led
  split at follows
  · refine List.Subset.trans ?_ (((List.drop_suffix lead.length u).trans part).subset)
    rw [spacedQuotedAtStart?, List.span_eq_takeWhile_dropWhile] at follows
    split at follows
    · cases follows
    next _ _ _ cut =>
      rw [← (Prod.mk.inj cut).2] at follows
      exact List.Subset.trans (quotedAtStart?_subset follows) (List.dropWhile_sublist _).subset
  · cases follows

theorem isWritable_shown {t : Text} (whole : t.isWritable) : t.shown.isWritable := by
  have spelled : ∀ quote, ∀ c ∈ t, (CodePoint.shown quote c).isWritable := by
    intro quote c member
    have plain := isWritable_iff.mp whole c member
    unfold CodePoint.shown
    split_ifs <;> simp [plain]
  have quotes (p : Prop) [Decidable p] :
      (if p then CodePoint.quotationMark else CodePoint.apostrophe).isSurrogate = false := by
    split <;> decide
  simp [shown, quotes, isWritable_flatMap (spelled _)]

/-- A slice replaced by writable text leaves the text writable. -/
theorem isWritable_replaceSlice {t new : Text} (whole : t.isWritable) (added : new.isWritable)
    (start stop : Nat) : (t.replaceSlice start stop new).isWritable := by
  have before := isWritable_of_subset whole (List.take_subset start t)
  have after := isWritable_of_subset whole (List.drop_subset stop t)
  simp [replaceSlice, before, added, after]

theorem isWritable_withoutLine {t : Text} (whole : t.isWritable) (i : Nat) :
    (t.withoutLine i).isWritable := by
  unfold withoutLine
  split_ifs
  · rfl
  · exact isWritable_replaceSlice whole rfl _ _
  · exact isWritable_replaceSlice whole rfl _ _

end Text

theorem Edit.isWritable_onText {e : Edit} {t : Text} (whole : t.isWritable)
    (added : ∀ u ∈ e.text, Text.isWritable u) : (e.onText t).isWritable := by
  have content : e.content.isWritable := by
    unfold Edit.content
    cases text : e.text with
    | none => rfl
    | some u => exact added u text
  have feed : Text.lineFeed.isSurrogate = false := by decide
  unfold Edit.onText
  split
  · split_ifs
    · simp [whole, feed, content]
    · exact Text.isWritable_replaceSlice whole content _ _
  · exact Text.isWritable_replaceSlice whole rfl _ _
  · exact Text.isWritable_replaceSlice whole content _ _
  · exact Text.isWritable_withoutLine whole _
  · exact Text.isWritable_replaceSlice whole content _ _

/-- Edits whose texts are writable keep a text writable. -/
theorem applyEdits_isWritable {edits : List Edit} {t u : Text} (whole : t.isWritable)
    (added : ∀ e ∈ edits, ∀ v ∈ e.text, Text.isWritable v) (applied : applyEdits t edits = .ok u) :
    u.isWritable := by
  have flat : edits.foldlM Edit.onText? t = some u := by
    rw [← applyEdits_toOption, applied]
    rfl
  clear applied
  induction edits generalizing t with
  | nil =>
    cases flat
    exact whole
  | cons e edits ih =>
    obtain ⟨here, later⟩ := List.forall_mem_cons.mp added
    rw [List.foldlM_cons, Edit.onText?] at flat
    split at flat
    · exact ih (e.isWritable_onText whole here) later flat
    · cases flat

end Mender
