import Mender.Record.Writing
import Mender.Json.Writer

namespace Mender

/-- The text of a value shows where it ends, whatever follows it, and which value it is. -/
def SelfDelimiting {α : Type} (write : α → Text) : Prop :=
  ∀ ⦃a b : α⦄ ⦃rest other : Text⦄, write a ++ rest = write b ++ other → a = b ∧ rest = other

namespace SelfDelimiting

variable {α β : Type} {write : α → Text} {writeNext : β → Text}

theorem injective (delimits : SelfDelimiting write) {a b : α} (same : write a = write b) : a = b :=
  (delimits (congrArg (· ++ ([] : Text)) same)).1

/-- Two writings that delimit themselves do so one after the other. -/
theorem pair (first : SelfDelimiting write) (second : SelfDelimiting writeNext) :
    SelfDelimiting fun p : α × β => write p.1 ++ writeNext p.2 := by
  rintro ⟨a, x⟩ ⟨b, y⟩ rest other same
  simp only [List.append_assoc] at same
  obtain ⟨rfl, tails⟩ := first same
  obtain ⟨rfl, rests⟩ := second tails
  exact ⟨rfl, rests⟩

/-- Fixed text before a value does no harm. -/
theorem after (delimits : SelfDelimiting write) (opening : Text) :
    SelfDelimiting fun a => opening ++ write a := by
  intro a b rest other same
  simp only [List.append_assoc] at same
  exact delimits (List.append_cancel_left same)

/-- Nor does fixed text after it. -/
theorem before (delimits : SelfDelimiting write) (closing : Text) :
    SelfDelimiting fun a => write a ++ closing := by
  intro a b rest other same
  simp only [List.append_assoc] at same
  obtain ⟨rfl, tails⟩ := delimits same
  exact ⟨rfl, List.append_cancel_left tails⟩

/-- Delimiting is kept under a faithful map. -/
theorem comap (delimits : SelfDelimiting write) {f : β → α} (faithful : ∀ x y, f x = f y → x = y) :
    SelfDelimiting fun x => write (f x) := by
  intro x y rest other same
  obtain ⟨images, rests⟩ := delimits same
  exact ⟨faithful x y images, rests⟩

end SelfDelimiting

namespace Text

theorem ofNat_eq_map (n : Nat) : ofNat n = (Nat.toDigits 10 n).map CodePoint.ofChar := by
  rw [ofNat, ofString, Nat.toString_eq_repr, Nat.toList_repr]

theorem ofNat_injective {m n : Nat} (same : ofNat m = ofNat n) : m = n := by
  have chars : ∀ c d : Char, CodePoint.ofChar c = CodePoint.ofChar d → c = d :=
    fun c d codes => Char.toNat_inj.mp (congrArg CodePoint.val codes)
  rw [ofNat_eq_map, ofNat_eq_map, List.map_inj_right chars] at same
  rw [← Nat.ofDigitChars_ten_toDigits (n := m), same, Nat.ofDigitChars_ten_toDigits]

theorem isDigit_of_mem_ofNat {n : Nat} {c : CodePoint} (member : c ∈ ofNat n) : c.isDigit = true := by
  rw [ofNat_eq_map] at member
  obtain ⟨d, digit, rfl⟩ := List.mem_map.mp member
  have decimal := Nat.isDigit_of_mem_toDigits (by decide) (by decide) digit
  simp only [Char.isDigit, Bool.and_eq_true, decide_eq_true_eq] at decimal
  exact (Bool.and_eq_true _ _).mpr ⟨decide_eq_true decimal.1, decide_eq_true decimal.2⟩

/-- A number ends where something stands that is no digit. -/
theorem ofNat_delimits (mark : Text) (noDigit : mark.head?.any CodePoint.isDigit = false) (present : mark ≠ []) :
    SelfDelimiting fun n : Nat => ofNat n ++ mark := by
  have digits : ∀ (n : Nat) (rest : Text),
      ((ofNat n ++ mark) ++ rest).takeWhile CodePoint.isDigit = ofNat n := by
    intro n rest
    rw [List.append_assoc, List.takeWhile_append_of_pos fun c member => isDigit_of_mem_ofNat member]
    cases mark with
    | nil => exact (present rfl).elim
    | cons c more =>
      simp only [List.head?_cons, Option.any_some] at noDigit
      simp [noDigit]
  intro m n rest other same
  have numerals : ofNat m = ofNat n := by rw [← digits m rest, same, digits n other]
  obtain rfl := ofNat_injective numerals
  exact ⟨rfl, List.append_cancel_left same⟩

end Text

namespace Json

/-- The codes that are not written as they are inside a string. -/
def escapedCodes : List Nat := 0x22 :: 0x5C :: List.range 0x20

theorem escaped_of_notMem {c : CodePoint} (plain : c.val ∉ escapedCodes) : escaped c = [c] := by
  simp only [escapedCodes, List.mem_cons, List.mem_range, not_or] at plain
  obtain ⟨quote, backslash, control⟩ := plain
  unfold escaped
  repeat rw [if_neg (by omega)]

/-- What an escape is made of, by its code. -/
def escapeText (n : Nat) : Text := if h : n < 0x110000 then escaped ⟨n, h⟩ else []

theorem escapeText_val (c : CodePoint) : escapeText c.val = escaped c := dif_pos c.isCode

theorem head?_escapeText : ∀ n ∈ escapedCodes, (escapeText n).head? = some (CodePoint.ofChar '\\') := by
  decide +kernel

/-- No escape begins another one. Said of the codes, since those are compared much faster. -/
theorem escapeText_prefixFree : ∀ m ∈ escapedCodes, ∀ n ∈ escapedCodes,
    (escapeText m).map CodePoint.val <+: (escapeText n).map CodePoint.val → m = n := by
  decide +kernel

theorem head?_escaped (c : CodePoint) :
    (escaped c).head? = some (if c.val ∈ escapedCodes then CodePoint.ofChar '\\' else c) := by
  split
  next special => rw [← escapeText_val, head?_escapeText c.val special]
  next plain => rw [escaped_of_notMem plain, List.head?_cons]

theorem escaped_delimits : SelfDelimiting escaped := by
  intro c d rest other same
  have heads := congrArg List.head? same
  simp only [List.head?_append, head?_escaped, Option.some_or, Option.some.injEq] at heads
  have backslash : (CodePoint.ofChar '\\').val ∈ escapedCodes := by decide
  have codes : c = d := by
    by_cases special : c.val ∈ escapedCodes <;> by_cases special' : d.val ∈ escapedCodes
    · have oneInOther : escaped c <+: escaped d ∨ escaped d <+: escaped c :=
        List.prefix_or_prefix_of_prefix (List.prefix_append _ rest) (same ▸ List.prefix_append _ other)
      have numbers : c.val = d.val := by
        rw [← escapeText_val c, ← escapeText_val d] at oneInOther
        rcases oneInOther with front | front
        · exact escapeText_prefixFree _ special _ special' (front.map _)
        · exact (escapeText_prefixFree _ special' _ special (front.map _)).symm
      cases c
      cases d
      cases numbers
      rfl
    · rw [if_pos special, if_neg special'] at heads
      exact (special' (heads ▸ backslash)).elim
    · rw [if_neg special, if_pos special'] at heads
      exact (special (heads ▸ backslash)).elim
    · rwa [if_neg special, if_neg special'] at heads
  subst codes
  exact ⟨rfl, List.append_cancel_left same⟩

theorem quoted_delimits : SelfDelimiting quoted := by
  have unquoted : ∀ (c : CodePoint) (rest more : Text), escaped c ++ rest ≠ ("\"" : Text) ++ more := by
    intro c rest more same
    have heads := congrArg List.head? same
    rw [List.head?_append, head?_escaped, Option.some_or] at heads
    have quote : c.val ∉ escapedCodes → c ≠ CodePoint.ofChar '"' := by
      rintro plain rfl
      exact plain (by decide)
    split at heads
    next =>
      have apart : CodePoint.ofChar '\\' ≠ CodePoint.ofChar '"' := by decide
      exact apart (Option.some.inj heads)
    next plain => exact quote plain (Option.some.inj heads)
  have bodies : ∀ (t u rest other : Text),
      t.flatMap escaped ++ (("\"" : Text) ++ rest) = u.flatMap escaped ++ (("\"" : Text) ++ other) →
      t = u ∧ rest = other := by
    intro t
    induction t with
    | nil =>
      intro u rest other same
      cases u with
      | nil => exact ⟨rfl, List.append_cancel_left same⟩
      | cons d u =>
        rw [List.flatMap_cons, List.append_assoc] at same
        exact (unquoted d _ _ same.symm).elim
    | cons c t ih =>
      intro u rest other same
      rw [List.flatMap_cons, List.append_assoc] at same
      cases u with
      | nil => exact (unquoted c _ _ same).elim
      | cons d u =>
        rw [List.flatMap_cons, List.append_assoc] at same
        obtain ⟨rfl, tails⟩ := escaped_delimits same
        obtain ⟨rfl, rests⟩ := ih u rest other tails
        exact ⟨rfl, rests⟩
  intro t u rest other same
  simp only [quoted, List.append_assoc] at same
  exact bodies t u rest other (List.append_cancel_left same)

/-- A value that may be missing is told apart from null by its first code point. -/
theorem optional_delimits {α : Type} {write : α → Text} {c : CodePoint} (delimits : SelfDelimiting write)
    (starts : ∀ a, (write a).head? = some c) (other : c ≠ CodePoint.ofChar 'n') :
    SelfDelimiting fun a? : Option α => (a?.map write).getD "null" := by
  have apart : ∀ (a : α) (rest more : Text), write a ++ rest ≠ ("null" : Text) ++ more := by
    intro a rest more same
    have head := congrArg List.head? same
    rw [List.head?_append, starts a] at head
    exact other (Option.some.inj head)
  intro x y rest more same
  cases x with
  | none =>
    cases y with
    | none => exact ⟨rfl, List.append_cancel_left same⟩
    | some b => exact (apart b more rest same.symm).elim
  | some a =>
    cases y with
    | none => exact (apart a rest more same).elim
    | some b =>
      obtain ⟨rfl, rests⟩ := delimits same
      exact ⟨rfl, rests⟩

end Json

section Edits

open Json

theorem Position.writeAt_toJson (depth : Nat) (p : Position) :
    writeAt false depth p.toJson =
      ("\x7b" ++ quoted "line" ++ ":") ++ (Text.ofNat p.line ++ ",") ++
        ((quoted "column" ++ ":") ++ (Text.ofNat p.column ++ "\x7d")) := by
  have natural : ∀ n : Nat, Text.ofInt n = Text.ofNat n := fun _ => rfl
  simp [Position.toJson, writeAt, writeFields, scalarText, Json.lineStart, natural]

theorem Position.toJson_delimits (depth : Nat) :
    SelfDelimiting fun p : Position => writeAt false depth p.toJson := by
  have line := (Text.ofNat_delimits "," rfl (by decide)).after ("\x7b" ++ quoted "line" ++ ":")
  have column := (Text.ofNat_delimits "\x7d" rfl (by decide)).after (quoted "column" ++ ":")
  have parts : SelfDelimiting fun p : Position => _ := (line.pair column).comap
    (f := fun p : Position => (p.line, p.column)) (by
      rintro ⟨_, _, _, _⟩ ⟨_, _, _, _⟩ ⟨⟩
      rfl)
  simpa only [Position.writeAt_toJson] using parts

theorem EditKind.word_injective (x y : EditKind) (same : x.word = y.word) : x = y := by
  revert same
  cases x <;> cases y <;> decide

/-- The compact form of an edit, cut where each of its fields begins. -/
theorem Edit.compact_toJson (e : Edit) :
    e.toJson.compact = (("\x7b" ++ quoted "kind" ++ ":") ++ quoted e.kind.word) ++
      ((("," ++ quoted "start" ++ ":") ++ writeAt false 1 e.start.toJson) ++
        ((("," ++ quoted "end" ++ ":") ++ (e.stop.map fun p => writeAt false 1 p.toJson).getD "null") ++
          ((("," ++ quoted "text" ++ ":") ++ (e.text.map quoted).getD "null") ++ "\x7d"))) := by
  have stop : writeAt false 1 (ofOption Position.toJson e.stop) =
      (e.stop.map fun p => writeAt false 1 p.toJson).getD "null" := by
    cases e.stop <;> rfl
  have text : writeAt false 1 (ofOption Json.text e.text) = (e.text.map quoted).getD "null" := by
    cases e.text <;> rfl
  simp [Edit.toJson, compact, writeAt, writeFields, scalarText, Json.lineStart, stop, text]

/-- Two edits have one text only if they are equal; a missing text is told apart from an empty one. -/
theorem Edit.compact_toJson_delimits : SelfDelimiting fun e : Edit => e.toJson.compact := by
  have kind := (quoted_delimits.comap (f := EditKind.word) EditKind.word_injective).after ("\x7b" ++ quoted "kind" ++ ":")
  have start := (Position.toJson_delimits 1).after ("," ++ quoted "start" ++ ":")
  have stop := (optional_delimits (Position.toJson_delimits 1) (c := CodePoint.ofChar '\x7b')
    (fun p => rfl) (by decide)).after ("," ++ quoted "end" ++ ":")
  have text := ((optional_delimits quoted_delimits (c := CodePoint.ofChar '"') (fun t => rfl)
    (by decide)).after ("," ++ quoted "text" ++ ":")).before "\x7d"
  have parts : SelfDelimiting fun e : Edit => _ := (kind.pair (start.pair (stop.pair text))).comap
    (f := fun e : Edit => (e.kind, e.start, e.stop, e.text)) (by
      rintro ⟨_, _, _, _⟩ ⟨_, _, _, _⟩ ⟨⟩
      rfl)
  simpa only [Edit.compact_toJson] using parts

end Edits

end Mender
