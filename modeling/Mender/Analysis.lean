import Mender.Defect
import Mender.Loose
import Mender.Text.Search
import Mender.Text.Lowercase

namespace Mender

namespace Text

/-- The text is digits, one at least; a line feed may follow them. -/
def isCodeAfter (t : Text) : Bool :=
  let (digits, rest) := t.span CodePoint.isDecimalDigit
  !digits.isEmpty && (rest.isEmpty || rest == [CodePoint.ofChar '\n'])

def isTypeCode (t : Text) : Bool := t.startsWith "TS" && isCodeAfter (t.drop 2)

def isLintCode (t : Text) : Bool :=
  let (letters, rest) := t.span fun (c : CodePoint) => c.within 'A' 'Z'
  !letters.isEmpty && isCodeAfter rest

end Text

def Defect.category (d : Defect) : Text :=
  match d.rule with
  | none => "general"
  | some [] => "general"
  | some rule =>
    if rule.contains (CodePoint.ofChar '/') then rule.before '/'
    else if rule.isTypeCode then "typescript"
    else if rule.lowered.holds "react" then "react"
    else if rule.lowered.holds "hook" then "hooks"
    else if rule.isLintCode then "lint"
    else "general"

/-- How often each item occurs, in the order of first occurrence. -/
def tally {α : Type} [DecidableEq α] : List α → List (α × Nat)
  | [] => []
  | a :: rest => (a, (a :: rest).count a) :: (tally rest).filter fun p => p.1 ≠ a

/-- Counts in falling order; equal counts keep their order. -/
def byCount {α : Type} (counts : List (α × Nat)) : List (α × Nat) :=
  counts.mergeSort fun p q => q.2 ≤ p.2

structure Analysis where
  total : Nat
  byCategory : List (Text × Nat)
  bySeverity : List (Text × Nat)
  byFixability : List (Text × Nat)
  repeatedPatterns : List Text
  recommendations : List Text

namespace Analysis

/-- The named rules that occur more than `threshold` times, most frequent first. -/
def repeatedRules (defects : List Defect) (threshold : Int) : List (Text × Nat) :=
  let rules := defects.filterMap fun d => d.rule.filter fun rule => !rule.isEmpty
  (byCount (tally rules)).filter fun p => threshold < p.2

/-- The category of more than half of the defects, if there are two defects at least. -/
def mainCategory? (defects : List Defect) : Option Text :=
  if defects.length < 2 then none
  else
    match byCount (tally (defects.map Defect.category)) with
    | (category, count) :: _ => if defects.length < 2 * count then some category else none
    | [] => none

/-- The analysis of a defect list. Rules that occur more than `repeated` times are repeated, and
more than `many` errors are many. -/
def ofDefects (defects : List Defect) (repeated many : Int) : Analysis :=
  let severities := Severity.all.map fun s => (s.word, defects.countP fun d => d.severity = s)
  let errors := defects.countP fun d => d.severity = .error
  let fixable := defects.countP fun d => d.fixable = some true
  let unfixable := defects.length - fixable
  let rules := repeatedRules defects repeated
  let manyErrors : List Text :=
    if many < errors then
      ["Many errors reported: review the overall code structure before fixing individual defects"]
    else []
  let focus : List Text :=
    match mainCategory? defects with
    | some category =>
      ["Most defects are " ++ category ++ " issues: focus on " ++ category ++ " fixes first"]
    | none => []
  let automatic : List Text :=
    if unfixable < fixable then ["Most defects are automatically fixable: run auto-heal"] else []
  { total := defects.length
    byCategory := tally (defects.map Defect.category)
    bySeverity := severities
    byFixability := [("fixable", fixable), ("unfixable", unfixable)]
    repeatedPatterns := rules.map fun (rule, count) =>
      "Repeated " ++ rule ++ " defects (" ++ Text.ofNat count ++ " occurrences)"
    recommendations := manyErrors ++ focus ++ automatic
      ++ rules.map fun (rule, _) => "Fix all " ++ rule ++ " defects in bulk" }

/-- The whole number that a count exceeds exactly when it exceeds an amount; `most` bounds the
counts. -/
def wholeThreshold (most : Nat) : Amount → Int
  | .whole n => n
  | .real x =>
    if x.isFinite then (if x.negative then -(x.fraction.1 : Int) else x.fraction.1).fdiv x.fraction.2
    else if x.isInfinite && x.negative then -1
    else most

/-- A threshold that was given loosely, which fails only if a count is compared with it. -/
def threshold (most : Nat) (compared : Bool) (v : Json) : Except Fault Int :=
  match Loose.amount v with
  | .fit a => .ok (wholeThreshold most a)
  | .odd v => if compared then .error (.notCompared ">" "int" v.kindName) else .ok 0

/-- The analysis with thresholds that were given loosely. -/
def ofDefectsLoosely (defects : List Defect) (repeated many : Json) : Except Fault Analysis := do
  let named := defects.any fun d => d.rule.any fun rule => !rule.isEmpty
  let repeated ← threshold defects.length named repeated
  let many ← threshold defects.length true many
  pure (ofDefects defects repeated many)

end Analysis

end Mender
