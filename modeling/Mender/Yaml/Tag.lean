import Mender.Text.Search

namespace Mender.Yaml

/-- The tags with a meaning of their own, and one for all the others. -/
inductive Tag where
  | null
  | truth
  | integer
  | number
  | octets
  | time
  | orderedTable
  | pairs
  | set
  | text
  | sequence
  | mapping
  | merge
  | default
  | unknown
deriving DecidableEq

namespace Tag

def lead : Text := "tag:yaml.org,2002:"

def names : List (String × Tag) :=
  [("null", null), ("bool", truth), ("int", integer), ("float", number), ("binary", octets),
    ("timestamp", time), ("omap", orderedTable), ("pairs", pairs), ("set", set), ("str", text),
    ("seq", sequence), ("map", mapping), ("merge", merge), ("value", default)]

def ofAddress (address : Text) : Tag :=
  if address.startsWith lead then
    let name := address.drop lead.length
    ((names.find? fun p => Text.ofString p.1 = name).map (·.2)).getD unknown
  else unknown

end Tag

end Mender.Yaml
