import Mender.Proofs.Generator.Binding
import Mender.Proofs.Session.RulesAlone
import Mender.Proofs.Text.Brackets

namespace Mender

variable {ω : Type} {t line : Text} {p : Position}

/-- The second text has the lines of the first in their order, but for one line. There may be others in its place, or
none. -/
def Text.SameBut (t u : Text) (i : Nat) : Prop :=
  ∃ front line new back, t.At i front line back ∧ u.lines = front ++ new ++ back

/-- What is written behind a trimmed line is not there already if it can be seen. -/
theorem Text.trimRight_append_ne {added : Text} (some : added ≠ []) (visible : ∀ c ∈ added, c.isBlank = false) :
    line.trimRight ++ added ≠ line := by
  intro same
  obtain ⟨blanks, split, blank⟩ := line.exists_trimRight_append
  have blanksAdded : added = blanks := List.append_cancel_left (same.trans split)
  obtain ⟨c, rest, rfl⟩ := List.exists_cons_of_ne_nil some
  have seen := visible c List.mem_cons_self
  rw [blank c (blanksAdded ▸ List.mem_cons_self)] at seen
  cases seen

namespace Repair

section Line

variable {front back : List Text} {content : Text}

theorem onText_contentEdit (cut : t.At (p.line - 1) front line back) (content : Text) :
    (contentEdit p content).onText t = Text.ofLines (front ++ content :: back) := by
  have slice := cut.replaceSlice_eq cut (Nat.zero_le _) (Nat.le_refl _) content
  rw [List.take_zero, List.nil_append, List.drop_length, List.append_nil, Nat.add_zero] at slice
  change t.replaceSlice (t.lineStart (p.line - 1)) (t.lineEnd (p.line - 1)) content = _
  rw [Text.lineEnd, cut.lineLength_eq, slice]

theorem line_le (cut : t.At (p.line - 1) front line back) : p.line ≤ t.lineCount :=
  cut.line_le (Nat.sub_add_cancel p.one_le_line).symm

/-- New content for a line changes the text if it is other content. -/
theorem apply_contentEdit (cut : t.At (p.line - 1) front line back) (unbroken : Text.lineFeed ∉ content)
    (other : content ≠ line) : ∃ u, applyEdits t [contentEdit p content] = .ok u ∧ t.SameBut u (p.line - 1) ∧ u ≠ t := by
  have pieces : ∀ l ∈ front ++ content :: back, Text.lineFeed ∉ l := by
    intro l member
    rcases List.mem_append.mp member with before | member
    · exact cut.unbroken.1 l before
    · rcases List.mem_cons.mp member with rfl | after
      · exact unbroken
      · exact cut.unbroken.2.2 l after
  have lines : (Text.ofLines (front ++ content :: back)).lines = front ++ content :: back :=
    Text.lines_ofLines pieces (by simp)
  refine ⟨Text.ofLines (front ++ content :: back), ?_, ⟨front, line, [content], back, cut, ?_⟩, ?_⟩
  · rw [← onText_contentEdit cut]
    exact applyEdits_singleton (line_le cut)
  · rw [lines, List.append_assoc, List.singleton_append]
  · intro same
    rw [same, cut.lines] at lines
    exact other (List.cons.inj (List.append_cancel_left lines)).1.symm

theorem apply_removal (cut : t.At (p.line - 1) front line back) :
    ∃ u, applyEdits t [⟨.delete, p.lineStart, none, none⟩] = .ok u ∧ t.SameBut u (p.line - 1) ∧ (u = t ↔ t = []) := by
  have applied : applyEdits t [⟨.delete, p.lineStart, none, none⟩] = .ok (Text.ofLines (front ++ back)) := by
    rw [← cut.withoutLine_eq]
    exact applyEdits_singleton (line_le cut)
  refine ⟨_, applied, ?_⟩
  by_cases alone : front ++ back = []
  · obtain ⟨rfl, rfl⟩ := List.append_eq_nil_iff.mp alone
    exact ⟨⟨[], line, [[]], [], cut, rfl⟩, eq_comm⟩
  · have pieces : ∀ l ∈ front ++ back, Text.lineFeed ∉ l := by
      intro l member
      rcases List.mem_append.mp member with before | after
      · exact cut.unbroken.1 l before
      · exact cut.unbroken.2.2 l after
    have lines := Text.lines_ofLines pieces alone
    refine ⟨⟨front, line, [], back, cut, by rw [lines, List.append_nil]⟩, ?_, ?_⟩
    · intro same
      have size := congrArg List.length cut.lines
      rw [← same, lines, List.length_append, List.length_append, List.length_cons] at size
      omega
    · rintro rfl
      have size := congrArg List.length cut.lines
      rw [List.length_append, List.length_cons] at size
      change 1 = _ at size
      exact (alone (List.length_eq_zero_iff.mp (by rw [List.length_append]; omega))).elim

end Line

/-- The edits that a repair has for a line: none, or the removal of the line, or other content for it. -/
theorem lineEdits_cases (r : Repair) (p : Position) (line : Text) :
    r.lineEdits p line = [] ∨
      r = .removeLine ∧ r.lineEdits p line = [⟨.delete, p.lineStart, none, none⟩] ∨
      ∃ content, r ≠ .removeLine ∧ r.lineEdits p line = [contentEdit p content] ∧ content ≠ line ∧
        (Text.lineFeed ∉ line → Text.lineFeed ∉ content) := by
  have trimmed : Text.lineFeed ∉ line → Text.lineFeed ∉ line.trimRight := fun unbroken feed =>
    unbroken (line.trimRight_subset feed)
  cases r with
  | removeLine => exact Or.inr (Or.inl ⟨rfl, rfl⟩)
  | addBinding => exact Or.inl rfl
  | stripTrailing =>
    by_cases same : line.trimRight = line
    · exact Or.inl (if_pos same)
    · exact Or.inr (Or.inr ⟨line.trimRight, nofun, if_neg same, same, trimmed⟩)
  | addColon =>
    by_cases done : line.trimRight.isEmpty || line.trimRight.endsWith ":"
    · exact Or.inl (if_pos done)
    · refine Or.inr (Or.inr ⟨line.trimRight ++ ":", nofun, if_neg done, ?_, ?_⟩)
      · exact Text.trimRight_append_ne (by decide) (by decide)
      · intro unbroken
        rw [List.mem_append, not_or]
        exact ⟨trimmed unbroken, by decide⟩
  | closeBrackets =>
    have closers : ∀ c ∈ line.missingClosers, c.IsCloser := fun _ => Text.isCloser_of_mem_missingClosers
    by_cases closed : line.missingClosers.isEmpty
    · exact Or.inl (if_pos closed)
    · refine Or.inr (Or.inr ⟨line.trimRight ++ line.missingClosers, nofun, if_neg closed, ?_, ?_⟩)
      · exact Text.trimRight_append_ne (by simpa using closed) fun c member => (closers c member).isBlank_eq_false
      · intro unbroken
        rw [List.mem_append, not_or]
        refine ⟨trimmed unbroken, fun feed => ?_⟩
        exact absurd (closers _ feed).isBlank_eq_false (by decide)

theorem apply_lineEdits {r : Repair} (here : t.lines[p.line - 1]? = some line) (edited : r.lineEdits p line ≠ []) :
    ∃ u, applyEdits t (r.lineEdits p line) = .ok u ∧ t.SameBut u (p.line - 1) ∧ (u = t ↔ r = .removeLine ∧ t = []) := by
  obtain ⟨front, back, cut⟩ := Text.exists_at_of_getElem? here
  rcases r.lineEdits_cases p line with none | ⟨rfl, removal⟩ | ⟨content, kept, rewritten, other, whole⟩
  · exact (edited none).elim
  · obtain ⟨u, applied, sameBut, unchanged⟩ := apply_removal cut
    exact ⟨u, removal ▸ applied, sameBut, unchanged.trans (and_iff_right rfl).symm⟩
  · obtain ⟨u, applied, sameBut, changed⟩ := apply_contentEdit cut (whole cut.unbroken.2.1) other
    exact ⟨u, rewritten ▸ applied, sameBut, iff_of_false changed fun removes => kept removes.1⟩

theorem apply_bindingEdits {template : Loose Text} {message : Text} {edits : List Edit}
    (made : bindingEdits template message t.lines = .ok edits) (edited : edits ≠ []) :
    ∃ u, applyEdits t edits = .ok u ∧ (∃ new, u.lines = new ++ t.lines) ∧ u ≠ t := by
  unfold bindingEdits at made
  split at made
  · cases made
    exact (edited rfl).elim
  · obtain ⟨binding, -, made⟩ := Except.bind_eq_ok_iff.mp made
    split_ifs at made
    · cases made
      exact (edited rfl).elim
    · cases made
      refine ⟨_, insert_textStart _ t none, ⟨binding.lines, ?_⟩, ?_⟩
      · rw [List.append_assoc]
        exact Text.lines_append_lineFeed binding t
      · intro same
        have size := congrArg List.length same
        rw [List.length_append, List.length_append] at size
        change _ + 1 + _ = _ at size
        omega

/-- The edits of a repair, if there are any, are those for the line of the defect or those of a binding. -/
theorem apply_edits? {r : Repair} {template : Loose Text} {d : Defect} {edits : List Edit}
    (made : r.edits? template d t.lines = .ok (some edits)) (edited : edits ≠ []) :
    ∃ u, applyEdits t edits = .ok u ∧
      (if r = .addBinding then ∃ new, u.lines = new ++ t.lines
        else ∃ p, d.position = some p ∧ t.SameBut u (p.line - 1)) ∧
      (u = t ↔ r = .removeLine ∧ t = []) := by
  unfold edits? at made
  split_ifs at made with onLine
  · have other : r ≠ .addBinding := by
      rintro rfl
      cases onLine
    split at made
    · cases made
    next p position =>
      split at made
      · cases made
      next line here =>
        cases made
        obtain ⟨u, applied, sameBut, unchanged⟩ := apply_lineEdits here edited
        refine ⟨u, applied, ?_, unchanged⟩
        rw [if_neg other]
        exact ⟨p, position, sameBut⟩
  · have binds : r = .addBinding := by
      cases r <;> first | rfl | exact (onLine rfl).elim
    obtain ⟨found, bound, same⟩ := Except.map_eq_ok_iff.mp made
    cases same
    obtain ⟨u, applied, added, changed⟩ := apply_bindingEdits bound edited
    refine ⟨u, applied, ?_, ?_⟩
    · rwa [if_pos binds]
    · exact iff_of_false changed fun removes => nomatch binds.symm.trans removes.1

end Repair

/-- A fix of the rules holds the edits of the repair for the rule, of which there are some. -/
theorem exists_edits_of_mem_fixesByRule {template : Loose Text} {d : Defect} {f : Fix}
    (member : f ∈ fixesByRule template d t) : ∃ r edits, d.rule.bind Repair.ofRule? = some r ∧
      r.edits? template d t.lines = .ok (some edits) ∧ edits ≠ [] ∧ f = r.fixOf d edits := by
  unfold fixesByRule at member
  split at member
  next fixes homeless made =>
    unfold ruleFixes at made
    split at made
    · cases made
      cases member
    next r rule =>
      obtain ⟨edits, found, made⟩ := Except.bind_eq_ok_iff.mp made
      split at made
      · cases made
        cases member
      · cases made
        cases member
      next edits edited =>
        cases made
        exact ⟨r, edits, rule, found, edited, List.mem_singleton.mp member⟩
  · cases member

/-- Every fix that the rules propose applies to the text. It leaves all lines but that of the defect as they are, and
all lines if it adds a binding. And it changes the text, unless it removes the line of the empty text. -/
theorem ruleGenerator_applies {template : Loose Text} {d : Defect} {x : Desk ω} {f : Fix}
    (proposed : f ∈ ((ruleGenerator ω template).propose d t x).1.fixes) :
    ∃ r u, d.rule.bind Repair.ofRule? = some r ∧ f.apply t = .ok u ∧
      (if r = .addBinding then ∃ new, u.lines = new ++ t.lines
        else ∃ p, d.position = some p ∧ t.SameBut u (p.line - 1)) ∧
      (u = t ↔ r = .removeLine ∧ t = []) := by
  rw [fixes_ruleGenerator] at proposed
  obtain ⟨r, edits, rule, made, edited, rfl⟩ := exists_edits_of_mem_fixesByRule proposed
  obtain ⟨u, applied, lines, unchanged⟩ := Repair.apply_edits? made edited
  exact ⟨r, u, rule, applied, lines, unchanged⟩

/-- Blanks at the end of the second line, under another name of the rule and with a column past the end. -/
def blankEnding : Defect := ⟨"trailing", .info, some (.behind 1 8), some "W291", none⟩

def strippedEnding : Fix :=
  Repair.stripTrailing.fixOf blankEnding [Repair.contentEdit (.behind 1 8) "b"]

theorem strippedEnding_applies :
    strippedEnding ∈ ((ruleGenerator Unit (.fit Tuning.standardTemplate)).propose blankEnding "a\nb \t\n"
        (Desk.fresh ())).1.fixes ∧
      ∃ r u, blankEnding.rule.bind Repair.ofRule? = some r ∧ strippedEnding.apply "a\nb \t\n" = .ok u ∧
        (if r = .addBinding then ∃ new, u.lines = new ++ Text.lines "a\nb \t\n"
          else ∃ p, blankEnding.position = some p ∧ Text.SameBut "a\nb \t\n" u (p.line - 1)) ∧
        (u = "a\nb \t\n" ↔ r = .removeLine ∧ ("a\nb \t\n" : Text) = []) := by
  have proposed : strippedEnding ∈ ((ruleGenerator Unit (.fit Tuning.standardTemplate)).propose blankEnding
      "a\nb \t\n" (Desk.fresh ())).1.fixes := by
    rw [fixes_ruleGenerator]
    decide +kernel
  exact ⟨proposed, ruleGenerator_applies proposed⟩

/-- A binding that is not used, on the first line. -/
def idleBinding : Defect := ⟨"unused", .error, some .textStart, some "unused-binding", none⟩

/-- The rule for unused bindings proposes to remove the line of the empty text, which changes nothing. -/
theorem emptyText_removal :
    ∃ f, ((ruleGenerator Unit (.fit Tuning.standardTemplate)).propose idleBinding []
        (Desk.fresh ())).1.fixes = [f] ∧
      f.apply [] = .ok [] := by
  refine ⟨Repair.removeLine.fixOf idleBinding [⟨.delete, .textStart, none, none⟩], ?_, by decide⟩
  rw [fixes_ruleGenerator]
  decide +kernel

/-- For a line that needs closing brackets, the rule writes them at its end. Then the line needs none if it ends in
code. Otherwise it needs the same ones as before: they stand in a comment or in a quotation. -/
theorem closeBrackets_closes {line : Text} (needed : line.missingClosers ≠ []) (p : Position) :
    Repair.closeBrackets.lineEdits p line = [Repair.contentEdit p line.closed] ∧
      (line.closed.missingClosers = [] ↔ line.EndsInCode) ∧
      (¬line.EndsInCode → line.closed.missingClosers = line.missingClosers) := by
  have written : Repair.closeBrackets.lineEdits p line = [Repair.contentEdit p line.closed] :=
    if_neg (by simpa using needed)
  have rest := line.missingClosers_closed
  refine ⟨written, ?_, fun uncoded => by rw [rest, if_neg uncoded]⟩
  rw [rest]
  split_ifs with coded
  · exact iff_of_true rfl coded
  · exact iff_of_false needed coded

/-- A bracket in a quotation, and a closing one that does not fit. -/
theorem mismatch_closes :
    Text.missingClosers "f('(', [1) " ≠ [] ∧
      Repair.closeBrackets.lineEdits .textStart "f('(', [1) " =
        [Repair.contentEdit .textStart (Text.closed "f('(', [1) ")] ∧
      ((Text.closed "f('(', [1) ").missingClosers = [] ↔ Text.EndsInCode "f('(', [1) ") ∧
      (¬Text.EndsInCode "f('(', [1) " →
        (Text.closed "f('(', [1) ").missingClosers = Text.missingClosers "f('(', [1) ") := by
  have needed : Text.missingClosers "f('(', [1) " ≠ [] := by decide +kernel
  exact ⟨needed, closeBrackets_closes needed .textStart⟩

/-- Behind a comment and in a quotation that is not closed, the brackets that are written do not count. -/
theorem uncoded_unclosed :
    Text.missingClosers "f( # x" = ")" ∧
      Repair.closeBrackets.lineEdits .textStart "f( # x" = [Repair.contentEdit .textStart "f( # x)"] ∧
      Text.missingClosers "f( # x)" = ")" ∧
      Text.missingClosers "f('a" = ")" ∧
      Repair.closeBrackets.lineEdits .textStart "f('a" = [Repair.contentEdit .textStart "f('a)"] ∧
      Text.missingClosers "f('a)" = ")" := by
  decide +kernel

end Mender
