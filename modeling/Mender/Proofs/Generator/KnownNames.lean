import Mender.Proofs.Edit
import Mender.Proofs.Generator.BestNames
import Mender.Proofs.Proposals
import Mender.Proofs.Text.Search

namespace Mender

variable {ω : Type} {t : Text} {d : Defect}

/-- An identifier at a place of a text, with what stands before and behind it on its line, and the lines before and
behind that one. -/
structure Spot where
  front : List Text
  before : Text
  identifier : Text
  after : Text
  back : List Text

namespace Spot

variable {s : Spot}

def line (s : Spot) : Text := s.before ++ s.identifier ++ s.after

/-- The text with a name in the place of the identifier. -/
def put (s : Spot) (name : Text) : Text := Text.ofLines (s.front ++ (s.before ++ name ++ s.after) :: s.back)

theorem put_eq_append (s : Spot) (name : Text) :
    s.put name = Text.ofLines (s.front ++ [s.before]) ++ name ++ Text.ofLines (s.after :: s.back) := by
  have joined := Text.ofLines_append_ofLines [] name s.after s.back
  rw [List.nil_append, Text.ofLines_singleton, List.nil_append] at joined
  rw [List.append_assoc, joined, Text.ofLines_append_ofLines, put, List.append_assoc]

theorem put_injective (s : Spot) : Function.Injective s.put := by
  intro name other same
  rw [put_eq_append, put_eq_append] at same
  exact List.append_cancel_left (List.append_cancel_right same)

theorem put_identifier {i : Nat} (cut : t.At i s.front s.line s.back) : s.put s.identifier = t := by
  rw [put, ← line, ← cut.lines, Text.ofLines_lines]

theorem offset_eq {p : Position} (cut : t.At (p.line - 1) s.front s.line s.back) (column : Nat)
    (inside : column ≤ s.line.length) :
    t.offset ⟨p.line, column + 1, p.one_le_line, Position.one_le_succ _⟩ = t.lineStart (p.line - 1) + column := by
  rw [Text.offset, cut.lineLength_eq, Nat.add_sub_cancel, Nat.min_eq_left inside]

/-- The edit that replaces the identifier, which stands on the line of a position. -/
def edit (s : Spot) (p : Position) (name : Text) : Edit :=
  ⟨.replace, ⟨p.line, s.before.length + 1, p.one_le_line, Position.one_le_succ _⟩,
    some ⟨p.line, s.before.length + s.identifier.length + 1, p.one_le_line, Position.one_le_succ _⟩, some name⟩

/-- The edit for a spot puts the new name there and keeps all else. -/
theorem apply_edit {p : Position} (cut : t.At (p.line - 1) s.front s.line s.back) (name : Text) :
    applyEdits t [s.edit p name] = .ok (s.put name) := by
  have size : s.line.length = s.before.length + s.identifier.length + s.after.length := by
    rw [line, List.length_append, List.length_append]
  have opens : s.before.length ≤ s.line.length := by omega
  have closes : s.before.length + s.identifier.length ≤ s.line.length := by omega
  have first := offset_eq cut s.before.length opens
  have last := offset_eq cut (s.before.length + s.identifier.length) closes
  have inside : p.line ≤ t.lineCount := cut.line_le (Nat.sub_add_cancel p.one_le_line).symm
  have fits : (s.edit p name).Fits t := by
    refine ⟨inside, inside, ?_⟩
    rw [edit, first, last]
    omega
  have head : s.line.take s.before.length = s.before := by rw [line, List.append_assoc, List.take_left]
  have tail : s.line.drop (s.before.length + s.identifier.length) = s.after := by
    rw [line, ← List.length_append, List.drop_left]
  have slice := cut.replaceSlice_eq cut opens closes name
  rw [head, tail, ← first, ← last] at slice
  rw [applyEdits_singleton fits]
  exact congrArg Except.ok slice

end Spot

/-- The spot of a text that a defect is about: an identifier that its message quotes, at its column if it stands there,
and otherwise the leftmost one on its line. -/
structure Defect.PointsAt (d : Defect) (t : Text) (s : Spot) : Prop where
  named : d.message.quotedName? = some s.identifier
  located : ∃ p, d.position = some p ∧ t.At (p.line - 1) s.front s.line s.back ∧
    if s.identifier <+: s.line.drop (p.column - 1) then s.before.length = p.column - 1
    else ∀ i < s.before.length, ¬s.identifier <+: s.line.drop i

/-- A pass over a list succeeds if the work does for each item, and relates them one by one. -/
theorem Except.exists_mapM_forall₂ {ε α β : Type} {work : α → Except ε β} {good : α → β → Prop} {l : List α}
    (works : ∀ a ∈ l, ∃ b, work a = .ok b ∧ good a b) :
    ∃ results, l.mapM work = .ok results ∧ List.Forall₂ good l results := by
  induction l with
  | nil => exact ⟨[], rfl, .nil⟩
  | cons a l ih =>
    obtain ⟨b, here, fine⟩ := works a List.mem_cons_self
    obtain ⟨rest, run, others⟩ := ih fun c member => works c (List.mem_cons_of_mem a member)
    refine ⟨b :: rest, ?_, .cons fine others⟩
    rw [List.mapM_cons, here, run]
    rfl

namespace KnownNames

variable {line name : Text} {column start : Nat}

/-- The name is taken at the reported column where it stands there, else at its first place in the
line. -/
theorem nameStart?_eq_some_iff :
    nameStart? line name column = some start ↔ name <+: line.drop start ∧
      if name <+: line.drop (column - 1) then start = column - 1 else ∀ i < start, ¬name <+: line.drop i := by
  unfold nameStart?
  by_cases there : name <+: line.drop (column - 1)
  · rw [if_pos (Text.startsWith_iff.mpr there), if_pos there, Option.some.injEq]
    constructor
    · rintro rfl
      exact ⟨there, rfl⟩
    · rintro ⟨-, same⟩
      exact same.symm
  · rw [if_neg (mt Text.startsWith_iff.mp there), if_neg there]
    exact Text.find?_eq_some_iff

/-- A defect whose name is found in its line points at one spot of the text. -/
theorem exists_spot {p : Position} {identifier : Text} (position : d.position = some p)
    (quoted : d.message.quotedName? = some identifier) (here : t.lines[p.line - 1]? = some line)
    (starts : nameStart? line identifier p.column = some start) :
    ∃ s, d.PointsAt t s ∧ t.At (p.line - 1) s.front s.line s.back ∧ s.identifier = identifier ∧
      s.before.length = start := by
  obtain ⟨⟨after, split⟩, place⟩ := nameStart?_eq_some_iff.mp starts
  have visible : identifier ≠ [] := Text.quotedName?_ne_nil quoted
  have inside : start < line.length := by
    have size := congrArg List.length split
    have some := List.length_pos_iff.mpr visible
    rw [List.length_append, List.length_drop] at size
    omega
  obtain ⟨front, back, cut⟩ := Text.exists_at_of_getElem? here
  let s : Spot := ⟨front, line.take start, identifier, after, back⟩
  have whole : s.line = line := by
    rw [Spot.line, List.append_assoc, split, List.take_append_drop]
  have length : s.before.length = start := List.length_take_of_le inside.le
  have cut : t.At (p.line - 1) s.front s.line s.back := whole ▸ cut
  refine ⟨s, ⟨quoted, p, position, cut, ?_⟩, cut, rfl, length⟩
  rw [whole, length]
  exact place

theorem nameStart?_of_pointsAt {s : Spot} (points : d.PointsAt t s) :
    ∃ p, d.position = some p ∧ t.At (p.line - 1) s.front s.line s.back ∧
      nameStart? s.line s.identifier p.column = some s.before.length := by
  obtain ⟨p, position, cut, place⟩ := points.located
  refine ⟨p, position, cut, nameStart?_eq_some_iff.mpr ⟨?_, place⟩⟩
  rw [Spot.line, List.append_assoc, List.drop_left]
  exact List.prefix_append _ _

/-- A defect points at one spot of a text at most. -/
theorem pointsAt_unique {s s' : Spot} (points : d.PointsAt t s) (points' : d.PointsAt t s') : s = s' := by
  obtain ⟨p, position, cut, starts⟩ := nameStart?_of_pointsAt points
  obtain ⟨p', position', cut', starts'⟩ := nameStart?_of_pointsAt points'
  cases position.symm.trans position'
  have identifier : s.identifier = s'.identifier := Option.some.inj (points.named.symm.trans points'.named)
  have line : s.line = s'.line := Option.some.inj (cut.getElem?_lines.symm.trans cut'.getElem?_lines)
  have length : s.before.length = s'.before.length := by
    rw [identifier, line, starts'] at starts
    exact (Option.some.inj starts).symm
  -- The lines are cut at the same index, and the line itself at the same column.
  obtain ⟨front, rest⟩ := List.append_inj (cut.lines.symm.trans cut'.lines) (cut.index.trans cut'.index.symm)
  have back := (List.cons.inj rest).2
  simp only [Spot.line, List.append_assoc] at line
  obtain ⟨before, rest⟩ := List.append_inj line length
  rw [identifier] at rest
  have after := List.append_cancel_left rest
  obtain ⟨front₁, before₁, identifier₁, after₁, back₁⟩ := s
  subst front before identifier after back
  rfl

theorem edits_of_fixOf? {s : Spot} {p : Position} {suggestion : Text × Binary64} {f : Fix}
    (made : fixOf? p s.before.length s.identifier suggestion = .ok f) :
    f.edits = [s.edit p suggestion.1] ∧ f.confidence.value = suggestion.2 := by
  unfold fixOf? at made
  split at made
  split at made
  · cases made
  next confidence accepted =>
    cases made
    refine ⟨rfl, ?_⟩
    obtain ⟨_, ⟨⟩⟩ := Option.dite_none_right_eq_some.mp accepted
    rfl

/-- Where a defect of a name that is not known points at a spot, there is a fix for each suggestion, in the same order
and as sure as the names are similar. -/
theorem find_of_pointsAt {known : KnownNames} {s : Spot} {found : List (Text × Binary64)} (concerned : concerns d)
    (points : d.PointsAt t s) (suggested : known.suggest s.identifier = .ok found) :
    ∃ fixes, known.find d t = .ok (.fixes fixes) ∧
      List.Forall₂ (fun suggestion f => f.apply t = .ok (s.put suggestion.1) ∧ f.confidence.value = suggestion.2)
        found fixes := by
  obtain ⟨p, position, cut, starts⟩ := nameStart?_of_pointsAt points
  have made : ∀ suggestion ∈ found, ∃ f, fixOf? p s.before.length s.identifier suggestion = .ok f ∧
      f.apply t = .ok (s.put suggestion.1) ∧ f.confidence.value = suggestion.2 := by
    rintro ⟨name, score⟩ member
    obtain rfl : score = similarity s.identifier name := (suggest_scored suggested _ member).2.2
    obtain ⟨f, fix, -⟩ := fixOf?_withSimilarity p s.before.length s.identifier name
    obtain ⟨edits, value⟩ := edits_of_fixOf? fix
    refine ⟨f, fix, ?_, value⟩
    rw [Fix.apply, edits]
    exact Spot.apply_edit cut name
  obtain ⟨fixes, run, both⟩ := Except.exists_mapM_forall₂ made
  refine ⟨fixes, ?_, both⟩
  unfold KnownNames.find
  simp only [position, concerned, points.named, cut.getElem?_lines, starts, suggested]
  change Except.map _ (found.mapM _) = _
  rw [run]
  rfl

end KnownNames

/-- A fix from known names holds one edit: it puts one of them in the place of the identifier. -/
theorem exists_edit_of_mem_fixes {known : Option KnownNames} {x : Desk ω} {f : Fix}
    (proposed : f ∈ ((knownNamesGenerator ω known).propose d t x).1.fixes) :
    ∃ s p name, d.PointsAt t s ∧ t.At (p.line - 1) s.front s.line s.back ∧ (∃ k ∈ known, name ∈ k.names) ∧
      name ≠ s.identifier ∧ f.edits = [s.edit p name] := by
  obtain ⟨k, present, fs, found, member⟩ := mem_fixes_knownNamesGenerator.mp proposed
  obtain ⟨p, identifier, line, start, suggestions, position, quoted, here, starts, suggested, made⟩ :=
    KnownNames.exists_suggestions_of_find found (List.ne_nil_of_mem member)
  obtain ⟨s, points, cut, rfl, rfl⟩ := KnownNames.exists_spot position quoted here starts
  obtain ⟨⟨name, score⟩, listed, fix⟩ := Except.exists_of_mem_mapM made f member
  obtain ⟨named, other, -⟩ := KnownNames.suggest_scored suggested _ listed
  exact ⟨s, p, name, points, cut, ⟨k, present, named⟩, other, (KnownNames.edits_of_fixOf? fix).1⟩

/-- Every fix from known names applies to the text and changes it: a known name takes the place of another identifier,
the one at the spot that the defect points at. If the line of the defect is not in the text, or the identifier is not on
this line, there is no fix. -/
theorem knownNamesGenerator_replaces (known : Option KnownNames) (d : Defect) (t : Text) (x : Desk ω) :
    (∀ f ∈ ((knownNamesGenerator ω known).propose d t x).1.fixes, ∃ s name, d.PointsAt t s ∧
      (∃ k ∈ known, name ∈ k.names) ∧ name ≠ s.identifier ∧ t = s.put s.identifier ∧ f.apply t = .ok (s.put name) ∧
      s.put name ≠ t) ∧
    ∀ p identifier, d.position = some p → d.message.quotedName? = some identifier →
      (∀ line, t.lines[p.line - 1]? = some line → ¬identifier <:+: line) →
      ((knownNamesGenerator ω known).propose d t x).1.fixes = [] := by
  constructor
  · intro f proposed
    obtain ⟨s, p, name, points, cut, named, other, edits⟩ := exists_edit_of_mem_fixes proposed
    have same : s.put s.identifier = t := Spot.put_identifier cut
    refine ⟨s, name, points, named, other, same.symm, ?_, ?_⟩
    · rw [Fix.apply, edits]
      exact Spot.apply_edit cut name
    · rw [← same]
      exact s.put_injective.ne other
  · intro p identifier position quoted absent
    refine List.eq_nil_iff_forall_not_mem.mpr fun f proposed => ?_
    obtain ⟨s, -, -, points, -⟩ := exists_edit_of_mem_fixes proposed
    obtain ⟨q, position', cut, -⟩ := points.located
    cases position.symm.trans position'
    cases quoted.symm.trans points.named
    exact absent s.line cut.getElem?_lines ⟨s.before, s.after, rfl⟩

/-- A name that is not known, at the second column of the first line. -/
def misspelling : Defect :=
  ⟨"Component 'Buton' not found in schema", .error, some (.behind 0 1), none, none⟩

/-- The names that are known there. -/
def components : KnownNames :=
  ⟨["Button", "ButtonGroup", "Card"], .fit (.real (Binary64.ofFraction false 1 2)), .fit (some 3)⟩

/-- The only one of these names that is similar enough. -/
def correction : Text × Binary64 := ("Button", Binary64.ofFraction false 5 6)

theorem suggest_misspelling : components.suggest "Buton" = .ok [correction] := by
  have alike : (KnownNames.scored components.names "Buton").filter
      (fun p => (Amount.real (Binary64.ofFraction false 1 2)).lt (.real p.2)) = [correction] := by decide +kernel
  have kept : KnownNames.above components.threshold (KnownNames.scored components.names "Buton") = .ok [correction] :=
    congrArg Except.ok alike
  unfold KnownNames.suggest
  rw [kept]
  simp [components, KnownNames.byLikeness, takeTo]

theorem misspelling_pointsAt :
    misspelling.PointsAt "<Buton label='x' />" ⟨[], "<", "Buton", " label='x' />", []⟩ where
  named := by decide +kernel
  located := by
    refine ⟨_, rfl, ⟨by decide +kernel, rfl⟩, ?_⟩
    decide +kernel

theorem misspelling_replaced :
    ∃ f ∈ ((knownNamesGenerator Unit (some components)).propose misspelling "<Buton label='x' />"
        (Desk.fresh ())).1.fixes, f.apply "<Buton label='x' />" = .ok "<Button label='x' />" ∧
      ∃ s name, misspelling.PointsAt "<Buton label='x' />" s ∧ (∃ k ∈ some components, name ∈ k.names) ∧
        name ≠ s.identifier ∧ "<Buton label='x' />" = s.put s.identifier ∧
        f.apply "<Buton label='x' />" = .ok (s.put name) ∧ s.put name ≠ "<Buton label='x' />" := by
  have concerned : KnownNames.concerns misspelling := by decide +kernel
  obtain ⟨fixes, found, both⟩ := KnownNames.find_of_pointsAt concerned misspelling_pointsAt suggest_misspelling
  obtain ⟨f, rest, ⟨applied, -⟩, -, rfl⟩ := List.forall₂_cons_left_iff.mp both
  have proposed : f ∈ ((knownNamesGenerator Unit (some components)).propose misspelling "<Buton label='x' />"
      (Desk.fresh ())).1.fixes :=
    mem_fixes_knownNamesGenerator.mpr ⟨components, rfl, _, found, List.mem_cons_self⟩
  exact ⟨f, proposed, applied, (knownNamesGenerator_replaces _ _ _ _).1 f proposed⟩

end Mender
