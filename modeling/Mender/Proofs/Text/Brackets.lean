import Mathlib.Data.List.DropRight
import Mender.Proofs.Text.Quoted
import Mender.Text.Brackets

namespace Mender

namespace CodePoint

/-- A bracket that closes another one. -/
def IsCloser (c : CodePoint) : Prop := ∃ opening : CodePoint, opening.closer? = some c

/-- Neither a quote nor a backslash, so that it does not tell how a quotation goes on. -/
def IsPlain (c : CodePoint) : Prop := c.isQuote = false ∧ c.val ≠ 0x5C

variable {c : CodePoint}

theorem IsCloser.eq (closes : c.IsCloser) : c = ')' ∨ c = ']' ∨ c = '\x7d' := by
  obtain ⟨opening, closes⟩ := closes
  unfold closer? at closes
  split_ifs at closes <;> cases closes <;> simp

theorem IsCloser.isPlain (closes : c.IsCloser) : c.IsPlain := by
  obtain rfl | rfl | rfl := closes.eq <;> exact ⟨by decide, by decide⟩

theorem IsCloser.isBlank_eq_false (closes : c.IsCloser) : c.isBlank = false := by
  obtain rfl | rfl | rfl := closes.eq <;> decide

theorem IsCloser.ne_hash (closes : c.IsCloser) : c ≠ '#' := by
  obtain rfl | rfl | rfl := closes.eq <;> decide

theorem IsCloser.closer?_eq_none (closes : c.IsCloser) : c.closer? = none := by
  obtain rfl | rfl | rfl := closes.eq <;> decide

theorem isPlain_of_isBlank (blank : c.isBlank) : c.IsPlain := by
  refine ⟨?_, ?_⟩
  · by_contra quote
    rw [Text.isBlank_of_isQuote (Bool.not_eq_false _ ▸ quote)] at blank
    cases blank
  · intro backslash
    simp [isBlank, isWhiteSpace, backslash] at blank

theorem ne_hash_of_isBlank (blank : c.isBlank) : c ≠ '#' := by
  rintro rfl
  exact absurd blank (by decide)

theorem closer?_of_isBlank (blank : c.isBlank) : c.closer? = none := by
  unfold closer?
  split_ifs with round square curly
  · exact absurd (round ▸ blank) (by decide)
  · exact absurd (square ▸ blank) (by decide)
  · simp [isBlank, isWhiteSpace, curly] at blank
  · rfl

end CodePoint

namespace Text

/-- What a quotation holds. A backslash takes the meaning from the code point after it. -/
inductive QuotationBody (quote : CodePoint) : Text → Prop
  | nil : QuotationBody quote []
  | plain {c : CodePoint} {body} : c ≠ quote → c.val ≠ 0x5C → QuotationBody quote body → QuotationBody quote (c :: body)
  | escaped {backslash c body} : backslash.val = 0x5C → QuotationBody quote body →
      QuotationBody quote (backslash :: c :: body)

/-- The line ends in code: it has no comment, and all its quotations are closed. -/
inductive EndsInCode : Text → Prop
  | nil : EndsInCode []
  | plain {c : CodePoint} {line} : c.isQuote = false → c ≠ '#' → EndsInCode line → EndsInCode (c :: line)
  | quoted {quote body line} : quote.isQuote → QuotationBody quote body → EndsInCode line →
      EndsInCode (quote :: (body ++ quote :: line))

/-- A comment, or a quotation that is not closed. It may break off behind a backslash. -/
inductive Uncoded : Text → Prop
  | comment (rest) : Uncoded (CodePoint.ofChar '#' :: rest)
  | quotation {quote body} : quote.isQuote → QuotationBody quote body → Uncoded (quote :: body)
  | brokenOff {quote body backslash} : quote.isQuote → QuotationBody quote body → backslash.val = 0x5C →
      Uncoded (quote :: (body ++ [backslash]))

theorem val_ne_of_isQuote {quote : CodePoint} (quotes : quote.isQuote) : quote.val ≠ 0x5C := by
  simp only [CodePoint.isQuote, Bool.or_eq_true, beq_iff_eq] at quotes
  obtain (rfl | rfl) | rfl := quotes <;> decide

section Scan

variable {quote : CodePoint} {body line tail missing closers : Text}

theorem QuotationBody.append {rest : Text} (first : QuotationBody quote body) (second : QuotationBody quote rest) :
    QuotationBody quote (body ++ rest) := by
  induction first with
  | nil => exact second
  | plain other unescaped _ ih => exact .plain other unescaped ih
  | escaped escapes _ ih => exact .escaped escapes ih

theorem quotationBody_of_plain (quotes : quote.isQuote) (plain : ∀ c ∈ body, c.IsPlain) : QuotationBody quote body := by
  induction body with
  | nil => exact .nil
  | cons c body ih =>
    obtain ⟨⟨unquoted, unescaped⟩, plain⟩ := List.forall_mem_cons.mp plain
    refine .plain ?_ unescaped (ih plain)
    rintro rfl
    exact absurd quotes (by simp [unquoted])

/-- A quotation is closed somewhere, or goes on to the end. -/
theorem quotation_cases (quote : CodePoint) : ∀ rest : Text,
    (∃ body line, rest = body ++ quote :: line ∧ QuotationBody quote body) ∨ QuotationBody quote rest ∨
      ∃ body backslash, rest = body ++ [backslash] ∧ QuotationBody quote body ∧ backslash.val = 0x5C
  | [] => Or.inr (Or.inl .nil)
  | c :: rest => by
    by_cases closes : c = quote
    · exact Or.inl ⟨[], rest, by rw [closes, List.nil_append], .nil⟩
    by_cases escapes : c.val = 0x5C
    · match rest with
      | [] => exact Or.inr (Or.inr ⟨[], c, rfl, .nil, escapes⟩)
      | d :: rest =>
        obtain ⟨body, line, rfl, inside⟩ | inside | ⟨body, backslash, rfl, inside, last⟩ := quotation_cases quote rest
        · exact Or.inl ⟨c :: d :: body, line, rfl, .escaped escapes inside⟩
        · exact Or.inr (Or.inl (.escaped escapes inside))
        · exact Or.inr (Or.inr ⟨c :: d :: body, backslash, rfl, .escaped escapes inside, last⟩)
    · obtain ⟨body, line, rfl, inside⟩ | inside | ⟨body, backslash, rfl, inside, last⟩ := quotation_cases quote rest
      · exact Or.inl ⟨c :: body, line, rfl, .plain closes escapes inside⟩
      · exact Or.inr (Or.inl (.plain closes escapes inside))
      · exact Or.inr (Or.inr ⟨c :: body, backslash, rfl, .plain closes escapes inside, last⟩)

/-- A line is code, but for a comment or a quotation at its end that is not closed. -/
theorem endsInCode_or_uncoded : ∀ line : Text,
    line.EndsInCode ∨ ∃ code tail, line = code ++ tail ∧ EndsInCode code ∧ Uncoded tail
  | [] => Or.inl .nil
  | c :: rest => by
    by_cases quotes : c.isQuote
    · obtain ⟨body, line, split, inside⟩ | inside | ⟨body, backslash, rfl, inside, last⟩ := quotation_cases c rest
      · have shorter : line.length < (c :: rest).length := by
          rw [split]
          simp
          omega
        rcases endsInCode_or_uncoded line with coded | ⟨code, tail, rfl, coded, uncoded⟩
        · exact Or.inl (split ▸ .quoted quotes inside coded)
        · exact Or.inr ⟨c :: (body ++ c :: code), tail, by simp [split], .quoted quotes inside coded, uncoded⟩
      · exact Or.inr ⟨[], c :: rest, rfl, .nil, .quotation quotes inside⟩
      · exact Or.inr ⟨[], _, rfl, .nil, .brokenOff quotes inside last⟩
    by_cases comments : c = '#'
    · exact Or.inr ⟨[], c :: rest, rfl, .nil, comments ▸ .comment rest⟩
    · have unquoted := Bool.eq_false_iff.mpr quotes
      rcases endsInCode_or_uncoded rest with coded | ⟨code, tail, rfl, coded, uncoded⟩
      · exact Or.inl (.plain unquoted comments coded)
      · exact Or.inr ⟨c :: code, tail, rfl, .plain unquoted comments coded, uncoded⟩
termination_by line => line.length

theorem Uncoded.append (uncoded : Uncoded tail) (plain : ∀ c ∈ closers, c.IsPlain) : Uncoded (tail ++ closers) := by
  cases uncoded with
  | comment rest => exact .comment (rest ++ closers)
  | quotation quotes inside => exact .quotation quotes (inside.append (quotationBody_of_plain quotes plain))
  | @brokenOff quote body backslash quotes inside last =>
    cases closers with
    | nil =>
      rw [List.append_nil]
      exact .brokenOff quotes inside last
    | cons c closers =>
      have rest := quotationBody_of_plain quotes (List.forall_mem_cons.mp plain).2
      rw [List.cons_append, List.append_assoc]
      exact .quotation quotes (inside.append (.escaped last rest))

/-- A quotation that is closed leaves the brackets as they are. -/
theorem closersAfter_quoted (inside : QuotationBody quote body) (unescaped : quote.val ≠ 0x5C) :
    closersAfter (some quote) false missing (body ++ quote :: line) = closersAfter none false missing line := by
  induction inside with
  | nil => simp [closersAfter, unescaped]
  | plain other plain _ ih => simpa [closersAfter, plain, other] using ih
  | escaped escapes _ ih => simpa [closersAfter, escapes] using ih

/-- A quotation that goes on to the end does so, too. -/
theorem closersAfter_quotation (inside : QuotationBody quote body) :
    closersAfter (some quote) false missing body = missing := by
  induction inside with
  | nil => rfl
  | plain other plain _ ih => simpa [closersAfter, plain, other] using ih
  | escaped escapes _ ih => simpa [closersAfter, escapes] using ih

theorem closersAfter_brokenOff {backslash : CodePoint} (inside : QuotationBody quote body)
    (last : backslash.val = 0x5C) : closersAfter (some quote) false missing (body ++ [backslash]) = missing := by
  induction inside with
  | nil => simp [closersAfter, last]
  | plain other plain _ ih => simpa [closersAfter, plain, other] using ih
  | escaped escapes _ ih => simpa [closersAfter, escapes] using ih

theorem closersAfter_quote (quotes : quote.isQuote) :
    closersAfter none false missing (quote :: line) = closersAfter (some quote) false missing line := by
  simp [closersAfter, quotes]

theorem closersAfter_uncoded (uncoded : Uncoded tail) : closersAfter none false missing tail = missing := by
  cases uncoded with
  | comment rest => rfl
  | quotation quotes inside =>
    rw [closersAfter_quote quotes]
    exact closersAfter_quotation inside
  | brokenOff quotes inside last =>
    rw [closersAfter_quote quotes]
    exact closersAfter_brokenOff inside last

/-- One code point of code does to the missing brackets what it does whatever comes after it. -/
theorem exists_closersAfter_cons {c : CodePoint} (unquoted : c.isQuote = false) (code : c ≠ '#') (missing : Text) :
    ∃ missing', ∀ rest, closersAfter none false missing (c :: rest) = closersAfter none false missing' rest := by
  cases opens : c.closer? with
  | some closer => exact ⟨closer :: missing, fun rest => by simp [closersAfter, unquoted, code, opens]⟩
  | none =>
    cases missing with
    | nil => exact ⟨[], fun rest => by simp [closersAfter, unquoted, code, opens]⟩
    | cons m more =>
      exact ⟨if c = m then more else m :: more, fun rest => by simp [closersAfter, unquoted, code, opens]⟩

/-- What comes after code is read with the brackets that the code leaves open. -/
theorem EndsInCode.closersAfter_append (coded : EndsInCode line) (missing rest : Text) :
    closersAfter none false missing (line ++ rest) =
      closersAfter none false (closersAfter none false missing line) rest := by
  induction coded generalizing missing with
  | nil => rfl
  | @plain c line unquoted code _ ih =>
    obtain ⟨missing', step⟩ := exists_closersAfter_cons unquoted code missing
    rw [List.cons_append, step, step, ih]
  | @quoted quote body line quotes inside _ ih =>
    have unescaped := val_ne_of_isQuote quotes
    have step (rest : Text) : closersAfter none false missing (quote :: (body ++ quote :: rest)) =
        closersAfter none false missing rest := by
      rw [closersAfter_quote quotes]
      exact closersAfter_quoted inside unescaped
    rw [List.cons_append, List.append_assoc, List.cons_append, step, step, ih]

/-- What all closing brackets satisfy, all missing ones do. -/
theorem closersAfter_forall {p : CodePoint → Prop} (closers : ∀ c : CodePoint, c.IsCloser → p c)
    {opened : Option CodePoint} {escaped : Bool} (before : ∀ c ∈ missing, p c) :
    ∀ c ∈ closersAfter opened escaped missing line, p c := by
  fun_induction closersAfter opened escaped missing line with
  | case1 => exact before
  | case2 _ _ _ _ ih => exact ih before
  | case3 _ _ _ _ _ _ _ ih => exact ih before
  | case4 _ _ _ _ _ _ ih => exact ih before
  | case5 _ _ _ _ _ _ _ _ ih => exact ih before
  | case6 _ _ _ _ _ ih => exact ih before
  | case7 => exact before
  | case8 _ missing c _ _ _ closer closes ih => exact ih (List.forall_mem_cons.mpr ⟨closers closer ⟨c, closes⟩, before⟩)
  | case9 _ _ _ _ _ _ ih => exact ih before
  | case10 _ c _ _ _ _ m more ih =>
    refine ih ?_
    split
    · exact (List.forall_mem_cons.mp before).2
    · exact before

theorem isCloser_of_mem_missingClosers {c : CodePoint} (member : c ∈ line.missingClosers) : c.IsCloser :=
  closersAfter_forall (fun _ closes => closes) (by simp) c member

/-- In code, the missing brackets close what is open. -/
theorem closersAfter_self (closers : ∀ c ∈ missing, c.IsCloser) : closersAfter none false missing missing = [] := by
  induction missing with
  | nil => rfl
  | cons c missing ih =>
    obtain ⟨closes, rest⟩ := List.forall_mem_cons.mp closers
    simpa [closersAfter, closes.isPlain.1, closes.ne_hash, closes.closer?_eq_none] using ih rest

theorem closersAfter_blanks {blanks : Text} (blank : ∀ c ∈ blanks, c.isBlank) (closers : ∀ c ∈ missing, c.IsCloser) :
    closersAfter none false missing blanks = missing := by
  induction blanks with
  | nil => rfl
  | cons c blanks ih =>
    obtain ⟨here, later⟩ := List.forall_mem_cons.mp blank
    have plain := (CodePoint.isPlain_of_isBlank here).1
    have code := CodePoint.ne_hash_of_isBlank here
    have opens := CodePoint.closer?_of_isBlank here
    cases missing with
    | nil => simpa [closersAfter, plain, code, opens] using ih later
    | cons m more =>
      have other : c ≠ m := by
        rintro rfl
        exact absurd here (by simp [(closers c List.mem_cons_self).isBlank_eq_false])
      simpa [closersAfter, plain, code, opens, other] using ih later

end Scan

/-- A line is what trimming leaves of it, and blanks. -/
theorem exists_trimRight_append (line : Text) : ∃ blanks : Text, line = line.trimRight ++ blanks ∧
    ∀ c ∈ blanks, c.isBlank :=
  ⟨line.rtakeWhile CodePoint.isBlank, List.rdropWhile_append_rtakeWhile.symm, fun _ => List.mem_rtakeWhile_imp⟩

section Repair

variable {line rest closers : Text}

theorem EndsInCode.append (first : line.EndsInCode) (second : rest.EndsInCode) : (line ++ rest).EndsInCode := by
  induction first with
  | nil => exact second
  | plain unquoted code _ ih => exact .plain unquoted code ih
  | quoted quotes inside _ ih =>
    rw [List.cons_append, List.append_assoc, List.cons_append]
    exact .quoted quotes inside ih

theorem endsInCode_of_blank (blank : ∀ c ∈ rest, c.isBlank) : rest.EndsInCode := by
  induction rest with
  | nil => exact .nil
  | cons c rest ih =>
    obtain ⟨here, later⟩ := List.forall_mem_cons.mp blank
    exact .plain (CodePoint.isPlain_of_isBlank here).1 (CodePoint.ne_hash_of_isBlank here) (ih later)

theorem missingClosers_append_uncoded {code tail : Text} (coded : EndsInCode code) (uncoded : Uncoded tail)
    (plain : ∀ c ∈ rest, c.IsPlain) : (code ++ tail ++ rest).missingClosers = (code ++ tail).missingClosers := by
  rw [List.append_assoc, missingClosers, missingClosers, coded.closersAfter_append, coded.closersAfter_append,
    closersAfter_uncoded uncoded, closersAfter_uncoded (uncoded.append plain)]

/-- A line that does not end in code needs the same brackets whatever is written at its end, short of a quote or a
backslash. -/
theorem missingClosers_append_of_not (uncoded : ¬line.EndsInCode) (plain : ∀ c ∈ rest, c.IsPlain) :
    (line ++ rest).missingClosers = line.missingClosers := by
  obtain ⟨code, tail, rfl, coded, uncoded⟩ := (endsInCode_or_uncoded line).resolve_left uncoded
  exact missingClosers_append_uncoded coded uncoded plain

/-- An opening bracket, to tell where a line ends. -/
def probe : Text := "("

theorem isPlain_of_mem_probe : ∀ c ∈ probe, c.IsPlain := by
  intro c member
  obtain rfl := List.mem_singleton.mp member
  exact ⟨by decide, by decide⟩

theorem EndsInCode.missingClosers_probe (coded : line.EndsInCode) :
    (line ++ probe).missingClosers ≠ line.missingClosers := by
  have counts : (line ++ probe).missingClosers = CodePoint.ofChar ')' :: line.missingClosers :=
    coded.closersAfter_append [] probe
  rw [counts]
  exact List.cons_ne_self _ _

/-- A line ends in code just if an opening bracket at its end would have to be closed. -/
theorem missingClosers_probe_iff : (line ++ probe).missingClosers ≠ line.missingClosers ↔ line.EndsInCode := by
  refine ⟨fun counts => ?_, EndsInCode.missingClosers_probe⟩
  by_contra uncoded
  exact counts (missingClosers_append_of_not uncoded isPlain_of_mem_probe)

instance (line : Text) : Decidable line.EndsInCode := decidable_of_iff _ missingClosers_probe_iff

theorem not_endsInCode_append {code tail : Text} (coded : EndsInCode code) (uncoded : Uncoded tail) :
    ¬EndsInCode (code ++ tail) := fun whole =>
  whole.missingClosers_probe (missingClosers_append_uncoded coded uncoded isPlain_of_mem_probe)

/-- Trimming takes a line neither out of code nor back into it. -/
theorem endsInCode_trimRight : line.trimRight.EndsInCode ↔ line.EndsInCode := by
  obtain ⟨blanks, split, blank⟩ := line.exists_trimRight_append
  constructor
  · intro trimmed
    rw [split]
    exact trimmed.append (endsInCode_of_blank blank)
  · intro coded
    rcases endsInCode_or_uncoded line.trimRight with trimmed | ⟨code, tail, cut, coded', uncoded⟩
    · exact trimmed
    · have plain := fun c member => CodePoint.isPlain_of_isBlank (blank c member)
      rw [split, cut, List.append_assoc] at coded
      exact (not_endsInCode_append coded' (uncoded.append plain) coded).elim

theorem missingClosers_trimRight (line : Text) : line.trimRight.missingClosers = line.missingClosers := by
  obtain ⟨blanks, split, blank⟩ := line.exists_trimRight_append
  have same : (line.trimRight ++ blanks).missingClosers = line.trimRight.missingClosers := by
    by_cases coded : line.trimRight.EndsInCode
    · rw [missingClosers, coded.closersAfter_append]
      exact closersAfter_blanks blank fun _ => isCloser_of_mem_missingClosers
    · exact missingClosers_append_of_not coded fun c member => CodePoint.isPlain_of_isBlank (blank c member)
  rw [← same, ← split]

/-- The line with the brackets that it needs at its end, once it is trimmed. -/
def closed (line : Text) : Text := line.trimRight ++ line.missingClosers

/-- What a line needs is not needed any more behind it, if the line ends in code, and otherwise still is. -/
theorem missingClosers_closed (line : Text) :
    line.closed.missingClosers = if line.EndsInCode then [] else line.missingClosers := by
  have closers : ∀ c ∈ line.missingClosers, c.IsCloser := fun _ => isCloser_of_mem_missingClosers
  split_ifs with coded
  · have trimmed := endsInCode_trimRight.mpr coded
    rw [closed, missingClosers, trimmed.closersAfter_append, ← missingClosers, missingClosers_trimRight]
    exact closersAfter_self closers
  · rw [← endsInCode_trimRight] at coded
    rw [closed, missingClosers_append_of_not coded fun c member => (closers c member).isPlain, missingClosers_trimRight]

end Repair

end Text

end Mender
