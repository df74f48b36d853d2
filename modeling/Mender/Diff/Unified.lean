import Mender.Diff.Pieces
import Mender.Text.Lines

namespace Mender.Diff

/-- How many unchanged lines are shown on either side of a change. -/
def context : Nat := 3

/-- Neighbouring changes and the lines around them, with the number of lines before in both texts. -/
structure Hunk where
  oldStart : Nat
  newStart : Nat
  pieces : List (Piece Text)

namespace Piece

def old {α : Type} : Piece α → List α
  | same items => items
  | change removed _ => removed

def new {α : Type} : Piece α → List α
  | same items => items
  | change _ added => added

def body : Piece Text → List Text
  | same items => items.map fun (line : Text) => " " ++ line
  | change removed added => (removed.map fun (line : Text) => "-" ++ line) ++ added.map fun (line : Text) => "+" ++ line

end Piece

def Hunk.add (h : Hunk) (p : Piece Text) : Hunk := { h with pieces := h.pieces ++ [p] }

/-- The hunks of the pieces that come after the open hunk; the pieces start at the given lines. -/
def hunksAfter (oldAt newAt : Nat) (h : Hunk) : List (Piece Text) → List Hunk
  | [] => [h]
  | [.same items] => [h.add (.same (items.take context))]
  | .same items :: rest =>
    let oldEnd := oldAt + items.length
    let newEnd := newAt + items.length
    if 2 * context < items.length then
      h.add (.same (items.take context))
        :: hunksAfter oldEnd newEnd
          ⟨oldEnd - context, newEnd - context, [.same (items.drop (items.length - context))]⟩ rest
    else hunksAfter oldEnd newEnd (h.add (.same items)) rest
  | .change removed added :: rest =>
    hunksAfter (oldAt + removed.length) (newAt + added.length) (h.add (.change removed added)) rest

/-- The hunks of all pieces. Without a change there is none. -/
def hunks : List (Piece Text) → List Hunk
  | [] => []
  | [.same _] => []
  | .same items :: rest =>
    let start := items.length - context
    hunksAfter items.length items.length ⟨start, start, [.same (items.drop start)]⟩ rest
  | pieces => hunksAfter 0 0 ⟨0, 0, []⟩ pieces

/-- A range of lines: its first line and its length unless that is one. An empty range is named by
the line before it. -/
def rangeText (start length : Nat) : Text :=
  if length = 1 then Text.ofNat (start + 1)
  else Text.ofNat (if length = 0 then start else start + 1) ++ "," ++ Text.ofNat length

/-- The lines of a hunk, its header first. -/
def Hunk.render (h : Hunk) : List Text :=
  let oldLength := (h.pieces.flatMap Piece.old).length
  let newLength := (h.pieces.flatMap Piece.new).length
  ("@@ -" ++ rangeText h.oldStart oldLength ++ " +" ++ rangeText h.newStart newLength ++ " @@\n")
    :: h.pieces.flatMap Piece.body

/-- The differences of two texts that go under one name; nothing if they are equal. -/
def unified (older newer name : Text) : Text :=
  match hunks (pieces older.brokenLines newer.brokenLines) with
  | [] => []
  | found => ("--- a/" ++ name ++ "\n") ++ ("+++ b/" ++ name ++ "\n") ++ (found.flatMap Hunk.render).flatten

end Mender.Diff
