import Mender.Number.Amount

namespace Mender

inductive Json where
  | null
  | bool (b : Bool)
  | int (n : Int)
  | real (x : Binary64)
  | text (t : Text)
  | array (items : List Json)
  | object (fields : List (Text × Json))

namespace Json

instance : Inhabited Json := ⟨null⟩

/-- The value of a field, the last one if the name occurs more than once. -/
def field? (fields : List (Text × Json)) (name : Text) : Option Json :=
  fields.foldl (fun found (key, value) => if key = name then some value else found) none

/-- The fields with one more at the end; a name that is there already keeps its place and gets the
new value. -/
def putField (fields : List (Text × Json)) (name : Text) (value : Json) : List (Text × Json) :=
  if fields.any (·.1 = name) then
    fields.map fun (key, old) => (key, if key = name then value else old)
  else fields ++ [(name, value)]

def ofList {α : Type} (encode : α → Json) (items : List α) : Json := array (items.map encode)

def ofOption {α : Type} (encode : α → Json) : Option α → Json
  | none => null
  | some a => encode a

end Json

end Mender
