import Mender.Proofs.Text.Quoted
import Mender.Proofs.Text.Search

namespace Mender.Text

/-- A place in a message where a run without quotes stands between two quotes. -/
structure QuotedToken (m : Text) where
  before : Text
  opening : CodePoint
  name : Text
  closing : CodePoint
  after : Text
  opens : opening.isQuote
  closes : closing.isQuote
  quotable : name.IsQuotable
  place : before ++ opening :: (name ++ closing :: after) = m

/-- A token that comes after words which say that a name is missing, and blanks. -/
structure AnnouncedToken (m : Text) extends QuotedToken m where
  start : Text
  lead : Text
  blanks : Text
  leads : lead ∈ missingNameLeads
  spaced : blanks ≠ []
  blank : ∀ c ∈ blanks, c.isBlank
  announced : start ++ (lead ++ blanks) = before

section Start

variable {t name : Text}

theorem exists_span (p : CodePoint → Bool) (t : Text) : ∃ run rest : Text, t.span p = (run, rest) ∧ t = run ++ rest ∧
    (∀ c ∈ run, p c) ∧ ∀ c more, rest = c :: more → p c = false := by
  refine ⟨t.takeWhile p, t.dropWhile p, List.span_eq_takeWhile_dropWhile p t, ?_, fun c => List.mem_takeWhile_imp, ?_⟩
  · exact List.takeWhile_append_dropWhile.symm
  · intro c more rest
    have stops := t.head?_dropWhile_not p
    rw [rest] at stops
    simpa using stops

/-- Any quote closes a quotation that any other opened. -/
theorem quotedAtStart?_eq_some_iff : quotedAtStart? t = some name ↔
    ∃ opening closing rest, opening.isQuote ∧ closing.isQuote ∧ name.IsQuotable ∧
      t = opening :: (name ++ closing :: rest) := by
  constructor
  · intro read
    cases t with
    | nil => cases read
    | cons c t =>
      by_cases opens : c.isQuote
      · obtain ⟨run, rest, cut, rfl, passes, stops⟩ := exists_span (fun d => !d.isQuote) t
        rw [quotedAtStart?, if_pos opens, cut] at read
        cases run with
        | nil => cases rest <;> cases read
        | cons d ds =>
          cases rest with
          | nil => cases read
          | cons closing rest =>
            obtain rfl : d :: ds = name := Option.some.inj read
            have closes := stops closing rest rfl
            have plain : ∀ c ∈ d :: ds, c.isQuote = false := fun c member => by simpa using passes c member
            exact ⟨c, closing, rest, opens, by simpa using closes, ⟨List.cons_ne_nil _ _, plain⟩, rfl⟩
      · rw [quotedAtStart?, if_neg opens] at read
        cases read
  · rintro ⟨opening, closing, rest, opens, closes, quotable, rfl⟩
    exact quotedAtStart?_quoted opens closes quotable rest

theorem spacedQuotedAtStart?_eq_some_iff : spacedQuotedAtStart? t = some name ↔
    ∃ blanks rest, blanks ≠ [] ∧ (∀ c ∈ blanks, c.isBlank) ∧ quotedAtStart? rest = some name ∧ t = blanks ++ rest := by
  constructor
  · intro read
    obtain ⟨blanks, rest, cut, rfl, blank, -⟩ := exists_span CodePoint.isBlank t
    rw [spacedQuotedAtStart?, cut] at read
    cases blanks with
    | nil => cases read
    | cons c blanks => exact ⟨c :: blanks, rest, List.cons_ne_nil _ _, blank, read, rfl⟩
  · rintro ⟨blanks, rest, spaced, blank, read, rfl⟩
    obtain ⟨opening, closing, rest, opens, closes, quotable, rfl⟩ := quotedAtStart?_eq_some_iff.mp read
    exact spacedQuotedAtStart?_quoted opens closes spaced blank quotable rest

/-- The name in a quoted token at the start, after words which say that it is missing. -/
def announcedAtStart? (t : Text) : Option Text :=
  missingNameLeads.findSome? fun lead =>
    if t.startsWith lead then spacedQuotedAtStart? (t.drop lead.length) else none

theorem announcedAtStart?_eq_some_iff : announcedAtStart? t = some name ↔
    ∃ lead rest, lead ∈ missingNameLeads ∧ spacedQuotedAtStart? rest = some name ∧ t = lead ++ rest := by
  constructor
  · intro read
    obtain ⟨earlier, lead, later, leads, here, -⟩ := List.findSome?_eq_some_iff.mp read
    have listed : lead ∈ missingNameLeads := leads ▸ List.mem_append_right _ List.mem_cons_self
    by_cases starts : t.startsWith lead
    · obtain ⟨rest, rfl⟩ := startsWith_iff.mp starts
      rw [if_pos starts, List.drop_left] at here
      exact ⟨lead, rest, listed, here, rfl⟩
    · rw [if_neg starts] at here
      cases here
  · rintro ⟨lead, rest, listed, read, rfl⟩
    have starts : (lead ++ rest).startsWith lead := startsWith_iff.mpr (List.prefix_append lead rest)
    rcases List.mem_cons.mp listed with rfl | listed
    · rw [announcedAtStart?, missingNameLeads, List.findSome?_cons, if_pos starts, List.drop_left, read]
    · obtain rfl := List.mem_singleton.mp listed
      have other : startsWith ("undefined name" ++ rest) "Cannot find name" = false := rfl
      rw [announcedAtStart?, missingNameLeads, List.findSome?_cons, other]
      rw [List.findSome?_cons, if_pos starts, List.drop_left, read]
      rfl

end Start

section FirstSuffix

variable {α : Type} {read? : Text → Option α} {t : Text} {a : α}

/-- The longest suffix with an answer gives it. -/
theorem firstSuffix?_eq_some_iff :
    t.firstSuffix? read? = some a ↔ ∃ i, read? (t.drop i) = some a ∧ ∀ j < i, read? (t.drop j) = none := by
  induction t with
  | nil =>
    constructor
    · exact fun read => ⟨0, read, nofun⟩
    · rintro ⟨i, here, -⟩
      rwa [List.drop_nil] at here
  | cons c t ih =>
    rw [firstSuffix?, Option.or_eq_some_iff, ih]
    constructor
    · rintro (here | ⟨absent, i, here, first⟩)
      · exact ⟨0, here, nofun⟩
      · refine ⟨i + 1, here, fun j before => ?_⟩
        cases j with
        | zero => exact absent
        | succ j => exact first j (Nat.lt_of_succ_lt_succ before)
    · rintro ⟨i, here, first⟩
      cases i with
      | zero => exact Or.inl here
      | succ i =>
        exact Or.inr ⟨first 0 (Nat.succ_pos i), i, here, fun j before => first (j + 1) (Nat.succ_lt_succ before)⟩

/-- Where each answer belongs to something that starts there, what starts first gives it. -/
theorem firstSuffix?_eq_some_iff_first {κ : Type} {start : κ → Nat} {answer : κ → α}
    (reads : ∀ i a, read? (t.drop i) = some a ↔ ∃ k, start k = i ∧ answer k = a) :
    t.firstSuffix? read? = some a ↔ ∃ k, (∀ other, start k ≤ start other) ∧ answer k = a := by
  rw [firstSuffix?_eq_some_iff]
  constructor
  · rintro ⟨i, here, first⟩
    obtain ⟨k, rfl, rfl⟩ := (reads i a).mp here
    refine ⟨k, fun other => ?_, rfl⟩
    by_contra before
    have absent := first (start other) (Nat.lt_of_not_le before)
    rw [(reads _ _).mpr ⟨other, rfl, rfl⟩] at absent
    cases absent
  · rintro ⟨k, first, rfl⟩
    refine ⟨start k, (reads _ _).mpr ⟨k, rfl, rfl⟩, fun j before => ?_⟩
    refine Option.eq_none_iff_forall_ne_some.mpr fun b there => ?_
    obtain ⟨other, rfl, -⟩ := (reads j b).mp there
    exact absurd (first other) (Nat.not_le_of_lt before)

end FirstSuffix

theorem exists_before {m : Text} {i : Nat} (some : m.drop i ≠ []) :
    ∃ before : Text, before.length = i ∧ before ++ m.drop i = m := by
  refine ⟨m.take i, List.length_take_of_le ?_, List.take_append_drop i m⟩
  by_contra beyond
  exact some (List.drop_eq_nil_of_le (Nat.le_of_not_le beyond))

namespace QuotedToken

variable {m : Text}

/-- No token starts before. -/
def IsFirst (k : QuotedToken m) : Prop := ∀ other : QuotedToken m, k.before.length ≤ other.before.length

/-- The token is between two occurrences of the same quote. -/
def IsMatched (k : QuotedToken m) : Prop := k.opening = k.closing

/-- The message has the name of the token between two occurrences of the same quote, there or elsewhere. -/
def HasMatch (k : QuotedToken m) : Prop := ∃ other : QuotedToken m, other.IsMatched ∧ other.name = k.name

theorem drop (k : QuotedToken m) : m.drop k.before.length = k.opening :: (k.name ++ k.closing :: k.after) := by
  have whole := congrArg (List.drop k.before.length) k.place
  rw [List.drop_left] at whole
  exact whole.symm

theorem reads (m : Text) (i : Nat) (name : Text) :
    quotedAtStart? (m.drop i) = some name ↔ ∃ k : QuotedToken m, k.before.length = i ∧ k.name = name := by
  rw [quotedAtStart?_eq_some_iff]
  constructor
  · rintro ⟨opening, closing, after, opens, closes, quotable, rest⟩
    obtain ⟨before, size, place⟩ := exists_before (m := m) (i := i) (by simp [rest])
    rw [rest] at place
    exact ⟨⟨before, opening, name, closing, after, opens, closes, quotable, place⟩, size, rfl⟩
  · rintro ⟨k, rfl, rfl⟩
    exact ⟨k.opening, k.closing, k.after, k.opens, k.closes, k.quotable, k.drop⟩

theorem IsMatched.two_le_count {k : QuotedToken m} (same : k.IsMatched) : 2 ≤ m.count k.opening := by
  have count := congrArg (List.count k.opening) k.place
  rw [List.count_append, List.count_cons_self, List.count_append, ← same, List.count_cons_self] at count
  omega

end QuotedToken

namespace AnnouncedToken

variable {m : Text}

/-- No token is announced before. -/
def IsFirst (k : AnnouncedToken m) : Prop := ∀ other : AnnouncedToken m, k.start.length ≤ other.start.length

theorem reads (m : Text) (i : Nat) (name : Text) :
    announcedAtStart? (m.drop i) = some name ↔ ∃ k : AnnouncedToken m, k.start.length = i ∧ k.name = name := by
  rw [announcedAtStart?_eq_some_iff]
  constructor
  · rintro ⟨lead, announced, leads, read, rest⟩
    obtain ⟨blanks, token, spaced, blank, quoted, rfl⟩ := spacedQuotedAtStart?_eq_some_iff.mp read
    obtain ⟨opening, closing, after, opens, closes, quotable, rfl⟩ := quotedAtStart?_eq_some_iff.mp quoted
    obtain ⟨start, size, place⟩ := exists_before (m := m) (i := i) (by simp [rest])
    rw [rest, ← List.append_assoc lead, ← List.append_assoc start] at place
    let token : QuotedToken m := ⟨_, opening, name, closing, after, opens, closes, quotable, place⟩
    exact ⟨⟨token, start, lead, blanks, leads, spaced, blank, rfl⟩, size, rfl⟩
  · rintro ⟨k, rfl, rfl⟩
    have whole := congrArg (List.drop k.start.length) k.place
    rw [← k.announced, List.append_assoc, List.drop_left, List.append_assoc] at whole
    have spaced := spacedQuotedAtStart?_quoted k.opens k.closes k.spaced k.blank k.quotable k.after
    exact ⟨k.lead, _, k.leads, spaced, whole.symm⟩

end AnnouncedToken

section Names

variable {m name : Text}

/-- The name found is that of the first quotation in the message. -/
theorem quotedName?_eq_some_iff : m.quotedName? = some name ↔ ∃ k : QuotedToken m, k.IsFirst ∧ k.name = name :=
  firstSuffix?_eq_some_iff_first (QuotedToken.reads m)

/-- The name found is that of the first quotation that is announced as missing. -/
theorem missingName?_eq_some_iff : m.missingName? = some name ↔ ∃ k : AnnouncedToken m, k.IsFirst ∧ k.name = name :=
  firstSuffix?_eq_some_iff_first (AnnouncedToken.reads m)

/-- What comes before the first quote does not matter. -/
theorem quotedName?_append {before : Text} (plain : ∀ c ∈ before, c.isQuote = false) (rest : Text) :
    (before ++ rest).quotedName? = rest.quotedName? := by
  induction before with
  | nil => rfl
  | cons c before ih =>
    obtain ⟨here, later⟩ := List.forall_mem_cons.mp plain
    have nothing : quotedAtStart? (c :: (before ++ rest)) = none := if_neg (by simp [here])
    rw [List.cons_append, quotedName?, firstSuffix?, nothing, Option.none_or]
    exact ih later

end Names

/-- Each name that is read from the message stands in it between two occurrences of the same quote. -/
def NamesMatched (m : Text) : Prop :=
  ∀ name, m.quotedName? = some name ∨ m.missingName? = some name → ∃ k : QuotedToken m, k.IsMatched ∧ k.name = name

/-- Names are matched when the first token of each kind, if there is one, closes with the quote that
opened it. -/
theorem namesMatched_iff {m : Text} : m.NamesMatched ↔
    (∀ k : QuotedToken m, k.IsFirst → k.HasMatch) ∧ ∀ k : AnnouncedToken m, k.IsFirst → k.HasMatch := by
  constructor
  · intro matched
    constructor
    · exact fun k first => matched _ (Or.inl (quotedName?_eq_some_iff.mpr ⟨k, first, rfl⟩))
    · exact fun k first => matched _ (Or.inr (missingName?_eq_some_iff.mpr ⟨k, first, rfl⟩))
  · rintro ⟨quoted, announced⟩ name (read | read)
    · obtain ⟨k, first, rfl⟩ := quotedName?_eq_some_iff.mp read
      exact quoted k first
    · obtain ⟨k, first, rfl⟩ := missingName?_eq_some_iff.mp read
      exact announced k first

/-- The names that are read from a message are those of its first quoted token and of the first one that is announced.
Each of them stands between two occurrences of the same quote just if the name of that token does so somewhere. A name
that is put between two such quotes is read back if no quote comes before. -/
theorem names_quoted (m : Text) :
    (∀ name, m.quotedName? = some name ↔ ∃ k : QuotedToken m, k.IsFirst ∧ k.name = name) ∧
    (∀ name, m.missingName? = some name ↔ ∃ k : AnnouncedToken m, k.IsFirst ∧ k.name = name) ∧
    (m.NamesMatched ↔
      (∀ k : QuotedToken m, k.IsFirst → k.HasMatch) ∧ ∀ k : AnnouncedToken m, k.IsFirst → k.HasMatch) ∧
    ∀ (quote : CodePoint) (before name after : Text), quote.isQuote → (∀ c ∈ before, c.isQuote = false) →
      name.IsQuotable → quotedName? (before ++ quote :: (name ++ quote :: after)) = some name := by
  refine ⟨fun _ => quotedName?_eq_some_iff, fun _ => missingName?_eq_some_iff, namesMatched_iff, ?_⟩
  intro quote before name after quotes plain quotable
  rw [quotedName?_append plain]
  exact firstSuffix?_of_start (quotedAtStart?_quoted quotes quotes quotable after)

example : quotedName? "can't find \"Foo\"" = some ("t find " : Text) := by decide

/-- A message in which an apostrophe and a double quote stand, and no other quotes. -/
def strayQuote : Text := "can't find closing \""

theorem strayQuote_unmatched : strayQuote.quotedName? = some ("t find closing " : Text) ∧ ¬strayQuote.NamesMatched := by
  have read : strayQuote.quotedName? = some ("t find closing " : Text) := by decide
  have once : ∀ quote : CodePoint, quote.isQuote → strayQuote.count quote ≤ 1 := by
    intro quote quotes
    simp only [CodePoint.isQuote, Bool.or_eq_true, beq_iff_eq] at quotes
    obtain (rfl | rfl) | rfl := quotes <;> decide
  refine ⟨read, fun matched => ?_⟩
  obtain ⟨k, same, -⟩ := matched _ (Or.inl read)
  have twice := same.two_le_count
  exact absurd (once k.opening k.opens) (Nat.not_le_of_lt twice)

end Mender.Text
