import Mathlib.Data.List.TakeDrop
import Mathlib.Data.List.TakeWhile
import Mender.Text.Quoted

namespace Mender.Text

/-- A run without quotes in it, one code point long at least. -/
def IsQuotable (name : Text) : Prop := name ≠ [] ∧ ∀ c ∈ name, c.isQuote = false

theorem span_run {p : CodePoint → Bool} {run : Text} {stop : CodePoint} (passes : ∀ c ∈ run, p c)
    (stops : p stop = false) (rest : Text) : (run ++ stop :: rest).span p = (run, stop :: rest) := by
  have halts : ¬p stop = true := Bool.eq_false_iff.mp stops
  rw [List.span_eq_takeWhile_dropWhile, List.takeWhile_append_of_pos passes, List.dropWhile_append_of_pos passes,
    List.takeWhile_cons_of_neg halts, List.dropWhile_cons_of_neg halts, List.append_nil]

/-- A name without quotes in it is read back between any two quotes. -/
theorem quotedAtStart?_quoted {opening closing : CodePoint} (opens : opening.isQuote) (closes : closing.isQuote)
    {name : Text} (quotable : name.IsQuotable) (rest : Text) :
    quotedAtStart? (opening :: (name ++ closing :: rest)) = some name := by
  obtain ⟨some, plain⟩ := quotable
  have passes : ∀ c ∈ name, (!c.isQuote) = true := fun c member => by rw [plain c member, Bool.not_false]
  have stops : (!closing.isQuote) = false := by rw [closes, Bool.not_true]
  rw [quotedAtStart?, if_pos opens, span_run passes stops]
  cases name with
  | nil => exact (some rfl).elim
  | cons c name => rfl

theorem firstSuffix?_of_start {α : Type} {read? : Text → Option α} {t : Text} {a : α} (here : read? t = some a) :
    t.firstSuffix? read? = some a := by
  cases t with
  | nil => exact here
  | cons c rest => rw [firstSuffix?, here, Option.some_or]

theorem isBlank_of_isQuote {c : CodePoint} (quote : c.isQuote) : c.isBlank = false := by
  simp only [CodePoint.isQuote, Bool.or_eq_true, beq_iff_eq] at quote
  obtain (rfl | rfl) | rfl := quote <;> decide

theorem spacedQuotedAtStart?_quoted {opening closing : CodePoint} (opens : opening.isQuote) (closes : closing.isQuote)
    {blanks name : Text} (some : blanks ≠ []) (blank : ∀ c ∈ blanks, c.isBlank) (quotable : name.IsQuotable)
    (rest : Text) : spacedQuotedAtStart? (blanks ++ opening :: (name ++ closing :: rest)) = Option.some name := by
  rw [spacedQuotedAtStart?, span_run blank (isBlank_of_isQuote opens)]
  cases blanks with
  | nil => exact (some rfl).elim
  | cons c blanks => exact quotedAtStart?_quoted opens closes quotable rest

/-- The name that a message says cannot be found is read back from it. -/
theorem missingName?_cannotFind {name : Text} (quotable : name.IsQuotable) :
    ("Cannot find name '" ++ name ++ "'" : Text).missingName? = some name := by
  have parts : ("Cannot find name '" ++ name ++ "'" : Text) =
      "Cannot find name" ++ ([CodePoint.ofChar ' '] ++ CodePoint.apostrophe :: (name ++ CodePoint.apostrophe :: [])) :=
    rfl
  have blank : ∀ c ∈ [CodePoint.ofChar ' '], c.isBlank := by decide
  have quote : CodePoint.apostrophe.isQuote := by decide
  have read := spacedQuotedAtStart?_quoted quote quote (List.cons_ne_nil _ _) blank quotable []
  have led : ∀ rest : Text, startsWith (("Cannot find name" : Text) ++ rest) "Cannot find name" = true := fun rest =>
    List.isPrefixOf_iff_prefix.mpr (List.prefix_append _ rest)
  refine firstSuffix?_of_start ?_
  rw [parts, missingNameLeads, List.findSome?_cons, led, if_pos rfl, List.drop_left, read]

end Mender.Text
