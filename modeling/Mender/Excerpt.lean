import Mender.Loose
import Mender.Text.Lines
import Mender.Text.Search

namespace Mender

structure Excerpt where
  rows : List Text
  first : Int
  last : Int

namespace Excerpt

/-- One row: the number of the line, right-aligned, a bar, and the line. -/
def row (width : Nat) (number : Nat) (line : Text) : Text :=
  (Text.ofNat number).padLeft width ++ " | " ++ line

/-- The lines up to `radius` lines from the given one, or all lines without one. The window may be
empty, with a first line after the last, if the line lies beyond the text. -/
def around (t : Text) (line : Option Int) (radius : Int) : Excerpt :=
  let lines := t.lines
  let first : Int :=
    match line with
    | none => 1
    | some n => max 1 (n - radius)
  let last : Int :=
    match line with
    | none => lines.length
    | some n => min lines.length (n + radius)
  let width := (Text.ofInt last).length
  let start := first.toNat - 1
  let shown := (lines.drop start).take (last - first + 1).toNat
  ⟨shown.mapIdx fun i content => row width (start + i + 1) content, first, last⟩

/-- The window with a radius that was given loosely. A radius with a fraction has no window but the
whole text, and only a line that is counted from needs a radius. -/
def aroundLoosely (t : Text) (line : Option Int) (radius : Json) : Except Fault Excerpt :=
  match line, Loose.amount radius with
  | none, _ => .ok (around t none 0)
  | some n, .fit (.whole r) => .ok (around t (some n) r)
  | some n, .fit (.real r) =>
    match Binary64.ofInt? n with
    | none => .error .tooLarge
    | some x =>
      let before := (Binary64.ofFraction false 1 1).lt (x.sub r)
      let beyond := (Amount.real (x.add r)).lt (.whole t.lines.length)
      if before || beyond then .error (.notCounted radius) else .ok (around t none 0)
  | some _, .odd v => .error (.notCombined "-" "int" v.kindName)

def text (e : Excerpt) : Text := Text.ofLines e.rows

end Excerpt

end Mender
