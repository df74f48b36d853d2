import Mathlib.Data.List.TakeDrop
import Mender.Proofs.Text.Writable
import Mender.Text.Template

namespace Mender

theorem Except.bind_eq_ok_iff {ε α β : Type} {x : Except ε α} {next : α → Except ε β} {b : β} :
    x >>= next = .ok b ↔ ∃ a, x = .ok a ∧ next a = .ok b := by
  cases x with
  | error e => exact ⟨nofun, nofun⟩
  | ok a => exact ⟨fun run => ⟨a, rfl, run⟩, by rintro ⟨_, same, run⟩; cases same; exact run⟩

theorem Except.mapError_eq_ok_iff {ε ε' α : Type} {x : Except ε α} {f : ε → ε'} {a : α} :
    x.mapError f = .ok a ↔ x = .ok a := by
  cases x <;> simp [Except.mapError]

theorem Except.map_eq_ok_iff {ε α β : Type} {x : Except ε α} {f : α → β} {b : β} :
    x.map f = .ok b ↔ ∃ a, x = .ok a ∧ f a = b := by
  cases x <;> simp [Except.map]

namespace FieldFormat

theorem readAlignment_fill {t : Text} {fill : CodePoint} (given : (readAlignment t).1.1 = some fill) :
    fill ∈ t := by
  unfold readAlignment at given
  split at given
  · cases given
  · split at given <;> cases given
  · split at given
    · cases given
      exact List.mem_cons_self
    · cases given
    · cases given

theorem readMark_eq_ofChar {marks : List Char} {t : Text} {c : CodePoint}
    (given : (readMark marks t).1 = some c) : ∃ m ∈ marks, CodePoint.ofChar m = c := by
  unfold readMark at given
  split at given
  · cases given
  · split_ifs at given with marked
    cases given
    simpa using marked

theorem read_fill {t : Text} {f : FieldFormat} (formatted : read t = .ok f) (whole : t.isWritable) :
    f.fill.isSurrogate = false := by
  unfold read at formatted
  split at formatted
  next fill alignment rest aligned =>
  have plainFill : ∀ c ∈ fill, c.isSurrogate = false := by
    intro c given
    exact Text.isWritable_iff.mp whole c (readAlignment_fill (by rw [aligned]; exact given))
  split at formatted
  split at formatted
  split at formatted
  split at formatted
  next zero _ zeros =>
  have plainZero : ∀ c ∈ zero, c.isSurrogate = false := by
    intro c given
    split_ifs at zeros
    · obtain ⟨m, _, rfl⟩ := readMark_eq_ofChar ((congrArg Prod.fst zeros).trans given)
      exact CodePoint.isSurrogate_ofChar m
    · cases zeros
      cases given
  obtain ⟨⟨width, _⟩, _, formatted⟩ := Except.bind_eq_ok_iff.mp formatted
  obtain ⟨⟨grouping, _⟩, _, formatted⟩ := Except.bind_eq_ok_iff.mp formatted
  obtain ⟨⟨longest, rest⟩, _, formatted⟩ := Except.bind_eq_ok_iff.mp formatted
  have same : f.fill = (fill.or zero).getD (CodePoint.ofChar ' ') := by
    dsimp only at formatted
    split at formatted
    case h_3 =>
      obtain ⟨_, coded, _⟩ := Except.bind_eq_ok_iff.mp formatted
      cases coded
    all_goals
      obtain ⟨code, _, formatted⟩ := Except.bind_eq_ok_iff.mp formatted
      split at formatted
      · split_ifs at formatted
        · cases formatted
        · cases formatted
          rfl
      · cases formatted
        rfl
  rw [same]
  cases fill with
  | some c => exact plainFill c rfl
  | none =>
    cases zero with
    | some c => exact plainZero c rfl
    | none => exact CodePoint.isSurrogate_ofChar ' '

theorem isWritable_apply {format t u : Text} (applied : apply format t = .ok u)
    (formatWhole : format.isWritable) (whole : t.isWritable) : u.isWritable := by
  unfold apply at applied
  split_ifs at applied
  · cases applied
    exact whole
  · obtain ⟨f, formatted, applied⟩ := Except.bind_eq_ok_iff.mp applied
    split at applied
    · cases applied
    · cases applied
      have padding := Text.isWritable_replicate (read_fill formatted formatWhole)
      have cut := Text.isWritable_of_subset whole (List.take_subset (f.longest.getD t.length) t)
      simp [lay, padding, cut]

end FieldFormat

namespace Template

theorem readName_eq_append {inBrackets : Bool} {t name rest : Text}
    (read : readName inBrackets t = .ok (name, rest)) : t = name ++ rest := by
  induction t generalizing inBrackets name rest with
  | nil =>
    cases read
    rfl
  | cons c more ih =>
    unfold readName at read
    split_ifs at read
    · obtain ⟨⟨name, rest⟩, later, read⟩ := Except.bind_eq_ok_iff.mp read
      cases read
      rw [ih later, List.cons_append]
    · cases read
      rfl
    · obtain ⟨⟨name, rest⟩, later, read⟩ := Except.bind_eq_ok_iff.mp read
      cases read
      rw [ih later, List.cons_append]

/-- A format is read up to the brace that closes its field. -/
theorem readFormat_eq_append {inner : Nat} {t format rest : Text}
    (read : readFormat inner t = .ok (format, rest)) : t = format ++ closeBrace :: rest := by
  induction t generalizing inner format rest with
  | nil => cases read
  | cons c more ih =>
    unfold readFormat at read
    by_cases closes : c = closeBrace && inner = 0
    · rw [if_pos closes] at read
      cases read
      obtain ⟨closing, _⟩ : c = closeBrace ∧ inner = 0 := by simpa using closes
      rw [closing]
      rfl
    · rw [if_neg closes] at read
      obtain ⟨⟨format, rest⟩, later, read⟩ := Except.bind_eq_ok_iff.mp read
      cases read
      rw [ih later, List.cons_append]

theorem readFormat_writable {inner : Nat} {t format rest : Text} (whole : t.isWritable)
    (read : readFormat inner t = .ok (format, rest)) : format.isWritable ∧ rest.isWritable := by
  rw [readFormat_eq_append read] at whole
  simp only [Text.isWritable_append, Text.isWritable_cons, Bool.and_eq_true] at whole
  exact ⟨whole.1, whole.2.2⟩

/-- What the part hands on as it is can be written out. -/
def Part.Writable : Part → Prop
  | .plain u => u.isWritable
  | .field _ _ format => format.isWritable

theorem readField_writable {t rest : Text} {part : Part} (whole : t.isWritable)
    (read : readField t = .ok (part, rest)) : part.Writable ∧ rest.isWritable := by
  obtain ⟨⟨name, after⟩, named, goesOn⟩ := Except.bind_eq_ok_iff.mp read
  rw [readName_eq_append named] at whole
  dsimp only at goesOn
  split at goesOn
  · cases goesOn
  next _ mark after =>
    simp only [Text.isWritable_append, Text.isWritable_cons, Bool.and_eq_true] at whole
    obtain ⟨_, _, whole⟩ := whole
    split_ifs at goesOn
    · cases goesOn
      exact ⟨rfl, whole⟩
    · obtain ⟨⟨format, rest⟩, formatted, last⟩ := Except.bind_eq_ok_iff.mp goesOn
      cases last
      exact readFormat_writable whole formatted
    · split at goesOn
      · cases goesOn
      · cases goesOn
      next _ conversion d after =>
        simp only [Text.isWritable_cons, Bool.and_eq_true] at whole
        obtain ⟨_, _, whole⟩ := whole
        split_ifs at goesOn
        · cases goesOn
          exact ⟨rfl, whole⟩
        · obtain ⟨⟨format, rest⟩, formatted, last⟩ := Except.bind_eq_ok_iff.mp goesOn
          cases last
          exact readFormat_writable whole formatted

theorem readPart_writable {t rest : Text} {part : Part} (whole : t.isWritable)
    (read : readPart t = .ok (part, rest)) : part.Writable ∧ rest.isWritable := by
  unfold readPart at read
  rw [List.span_eq_takeWhile_dropWhile] at read
  dsimp only at read
  have later := Text.isWritable_of_subset whole
    (List.dropWhile_sublist fun c : CodePoint => c != openBrace && c != closeBrace).subset
  split at read
  next c d more none cut =>
    rw [cut] at later
    simp only [Text.isWritable_cons, Bool.and_eq_true] at later
    obtain ⟨first, second, more⟩ := later
    split_ifs at read
    · cases read
      exact ⟨by simpa [Part.Writable] using first, more⟩
    · exact readField_writable (by simp [second, more]) read
  · cases read
  · cases read
    exact ⟨Text.isWritable_of_subset whole (List.takeWhile_prefix _).subset, later⟩

namespace Value

def Writable (v : Value) : Prop := v.plain.isWritable

theorem writable_kind : kind.Writable := Text.isWritable_ofString _

theorem member_writable {name : Text} {v u : Value} (found : v.member name = .ok u) : u.Writable := by
  unfold member at found
  split at found
  · split_ifs at found
    cases found
    exact writable_kind
  · split_ifs at found <;> cases found <;> exact Text.isWritable_ofString _

theorem item_writable {index : Option Nat} {v u : Value} (writable : v.Writable)
    (found : v.item index = .ok u) : u.Writable := by
  unfold item at found
  split at found
  · cases found
  next t =>
    split at found
    · cases found
    · split at found
      next c here =>
        cases found
        have plain := Text.isWritable_iff.mp writable c (List.mem_of_getElem? here)
        simpa [Writable, Value.plain] using plain
      · cases found

theorem asciiShown_isWritable {c : CodePoint} (plain : c.isSurrogate = false) : (asciiShown c).isWritable := by
  unfold asciiShown
  split_ifs <;> simp [plain]

theorem spelled_writable {c : CodePoint} {quoted plain : Text} {u : Value} (quotedWhole : quoted.isWritable)
    (plainWhole : plain.isWritable)
    (converted : (if c = 's' then .ok (text plain) else if c = 'r' then .ok (text quoted)
      else if c = 'a' then .ok (text (quoted.flatMap asciiShown))
      else .error (TemplateError.unknownConversion c)) = Except.ok u) : u.Writable := by
  split_ifs at converted
  · cases converted
    exact plainWhole
  · cases converted
    exact quotedWhole
  · cases converted
    exact Text.isWritable_flatMap fun c member => asciiShown_isWritable (Text.isWritable_iff.mp quotedWhole c member)

theorem converted_writable {conversion : Option CodePoint} {v u : Value} (writable : v.Writable)
    (converted : v.converted conversion = .ok u) : u.Writable := by
  cases conversion with
  | none =>
    cases converted
    exact writable
  | some c =>
    cases v with
    | text t => exact spelled_writable (Text.isWritable_shown writable) writable converted
    | kind => exact spelled_writable writable writable converted

theorem laidOut_isWritable {v : Value} {format u : Text} (writable : v.Writable) (whole : format.isWritable)
    (laid : v.laidOut format = .ok u) : u.isWritable := by
  cases v with
  | text t =>
    exact FieldFormat.isWritable_apply (Except.mapError_eq_ok_iff.mp laid) whole writable
  | kind =>
    unfold laidOut at laid
    split_ifs at laid
    cases laid
    exact writable

end Value

theorem follow_writable {fuel : Nat} {rest : Text} {v u : Value} (writable : v.Writable)
    (reached : follow fuel rest v = .ok u) : u.Writable := by
  induction fuel generalizing rest v with
  | zero => cases rest <;> cases reached <;> exact writable
  | succ fuel ih =>
    cases rest with
    | nil =>
      cases reached
      exact writable
    | cons c rest =>
      unfold follow at reached
      split_ifs at reached
      · dsimp only at reached
        split_ifs at reached
        obtain ⟨w, found, reached⟩ := Except.bind_eq_ok_iff.mp reached
        exact ih (Value.member_writable found) reached
      · split at reached
        · cases reached
        · obtain ⟨index, _, reached⟩ := Except.bind_eq_ok_iff.mp reached
          split_ifs at reached
          obtain ⟨w, found, reached⟩ := Except.bind_eq_ok_iff.mp reached
          exact ih (Value.item_writable writable found) reached

/-- Whatever a path reaches from writable values is writable. -/
theorem lookUp_writable {values : List (Text × Text)} {name : Text} {u : Value}
    (given : ∀ p ∈ values, p.2.isWritable) (found : lookUp values name = .ok u) : u.Writable := by
  obtain ⟨index, _, found⟩ := Except.bind_eq_ok_iff.mp found
  split_ifs at found
  split at found
  · cases found
  · split at found
    · cases found
    next first value hit =>
      have start : (Value.text value).Writable := given _ (List.mem_of_find?_eq_some hit)
      exact follow_writable start found

theorem fillFrom_isWritable {inner : Text → Except TemplateError Text} {values : List (Text × Text)}
    (given : ∀ p ∈ values, p.2.isWritable)
    (filled : ∀ t u : Text, t.isWritable → inner t = .ok u → u.isWritable) {fuel : Nat} {t u : Text}
    (whole : t.isWritable) (run : fillFrom inner values fuel t = .ok u) : u.isWritable := by
  induction fuel generalizing t u with
  | zero => cases t <;> cases run <;> rfl
  | succ fuel ih =>
    cases t with
    | nil =>
      cases run
      rfl
    | cons c t =>
      obtain ⟨⟨part, rest⟩, read, run⟩ := Except.bind_eq_ok_iff.mp run
      obtain ⟨partWhole, restWhole⟩ := readPart_writable whole read
      have closing : ∀ shown : Text, shown.isWritable →
          (do pure (shown ++ (← fillFrom inner values fuel rest)) : Except TemplateError Text) = .ok u →
          u.isWritable := by
        intro shown writable run
        obtain ⟨later, more, run⟩ := Except.bind_eq_ok_iff.mp run
        cases run
        simp [writable, ih restWhole more]
      cases part with
      | plain t => exact closing t partWhole run
      | field name conversion format =>
        obtain ⟨found, looked, run⟩ := Except.bind_eq_ok_iff.mp run
        obtain ⟨value, converted, run⟩ := Except.bind_eq_ok_iff.mp run
        have valueWhole := Value.converted_writable (lookUp_writable given looked) converted
        dsimp only at run
        split_ifs at run
        · obtain ⟨layout, formatted, run⟩ := Except.bind_eq_ok_iff.mp run
          obtain ⟨shown, laid, run⟩ := Except.bind_eq_ok_iff.mp run
          have layoutWhole := filled _ _ partWhole formatted
          exact closing shown (Value.laidOut_isWritable valueWhole layoutWhole laid) run
        · obtain ⟨layout, formatted, run⟩ := Except.bind_eq_ok_iff.mp run
          cases formatted
          obtain ⟨shown, laid, run⟩ := Except.bind_eq_ok_iff.mp run
          exact closing shown (Value.laidOut_isWritable valueWhole partWhole laid) run

/-- A template and values without lone surrogates give a text without. -/
theorem fill_isWritable {template u : Text} {values : List (Text × Text)} (whole : template.isWritable)
    (given : ∀ p ∈ values, p.2.isWritable) (run : fill template values = .ok u) : u.isWritable := by
  have inner : ∀ t u : Text, t.isWritable →
      fillFrom (fun _ => .error .tooDeep) values t.length t = .ok u → u.isWritable :=
    fun t u whole run => fillFrom_isWritable given (fun _ _ _ refused => by cases refused) whole run
  exact fillFrom_isWritable given inner whole run

end Template
end Mender
