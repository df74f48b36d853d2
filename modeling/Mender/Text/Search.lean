import Mender.Text.CodePoint

namespace Mender

/-- The items before place `stop`. A negative place counts from the end, and a place beyond either
end is that end. -/
def takeTo {α : Type} (items : List α) (stop : Int) : List α :=
  if 0 ≤ stop then items.take stop.toNat else items.take (items.length - (-stop).toNat)

namespace Text

/-- The text starts with `needle`. -/
def startsWith (t needle : Text) : Bool := needle.isPrefixOf t

/-- The text ends with `needle`. -/
def endsWith (t needle : Text) : Bool := needle.isSuffixOf t

/-- How many code points stand before the first occurrence of `needle`. -/
def find? (t needle : Text) : Option Nat :=
  if t.startsWith needle then some 0
  else
    match t with
    | [] => none
    | _ :: rest => (find? rest needle).map (· + 1)

/-- The text holds `needle` somewhere. -/
def holds (t needle : Text) : Bool := (t.find? needle).isSome

/-- Copies a text up to an occurrence of `needle`, puts the replacement there and goes on after the
occurrence; `skip` counts what is left of it. -/
def replaceFrom (needle replacement : Text) : Text → (skip : Nat) → Text
  | [], _ => []
  | _ :: rest, skip + 1 => replaceFrom needle replacement rest skip
  | c :: rest, 0 =>
    if startsWith (c :: rest) needle then
      replacement ++ replaceFrom needle replacement rest (needle.length - 1)
    else c :: replaceFrom needle replacement rest 0

/-- Every occurrence of a non-empty `needle`, from the left, gives way to `replacement`. -/
def replaceAll (t needle replacement : Text) : Text :=
  if needle.isEmpty then t else replaceFrom needle replacement t 0

/-- The part before the first `mark`, or the whole text without one. -/
def before (t : Text) (mark : CodePoint) : Text := t.takeWhile (· != mark)

def padLeft (t : Text) (width : Nat) : Text := List.replicate (width - t.length) (CodePoint.ofChar ' ') ++ t

def zeroPad (t : Text) (width : Nat) : Text := List.replicate (width - t.length) (CodePoint.ofChar '0') ++ t

/-- The parts, with `separator` between each and the next. -/
def joined (separator : Text) (parts : List Text) : Text := separator.intercalate parts

end Text

end Mender
