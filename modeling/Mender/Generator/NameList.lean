import Mender.Generator.KnownNames
import Mender.Yaml.Construction

namespace Mender.NameList

inductive NameListError where
  | misread (m : Yaml.Misread)
  | notList
deriving DecidableEq

def notListFault (file : Text) : Fault :=
  ⟨"ValueError", "Schema manifest " ++ file ++ " must hold a list of names"⟩

/-- The list that a text holds, each item by its text. Nothing counts as an empty list. -/
def items? (l : Yaml.Loaded) : Option (List (Except Fault Text)) :=
  let nameOf := l.plainText
  let held : Yaml.Value → Option (List (Except Fault Text)) := fun v =>
    match v with
    | .collection node =>
      match l.collection node with
      | .list items => some (items.map nameOf)
      | .pairs ps => some (ps.map fun (k, v) => l.pairText k v)
      | _ => none
    | _ => none
  if l.isNothing then some []
  else
    match l.root with
    | .collection node =>
      match l.collection node with
      | .table pairs =>
        match Yaml.Value.lookUp? pairs "names" with
        | some v => held v
        | none => some []
      | _ => held l.root
    | _ => none

def ofYaml (t : Text) : Except NameListError (List Text) := do
  let loaded ← (Yaml.Loaded.ofText t).mapError .misread
  match items? loaded with
  | none => .error .notList
  | some items =>
    let names ← (items.mapM id).mapError fun f => .misread (.fault f)
    pure (KnownNames.distinct names)

end Mender.NameList
