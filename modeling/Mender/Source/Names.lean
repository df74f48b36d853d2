import Mender.Source.Tree
import Mender.Source.Builtins
import Mender.Text.Search

namespace Mender.Source

namespace Form

/-- The name that an alias binds: its new name, or the first part of its dotted name. -/
def aliasName (dotted : Text) (renamed : Option Text) : Text :=
  renamed.getD (dotted.before '.')

/-- The names that a node binds by itself. -/
def binds : Form → List Text
  | .name n Use.store _ => [n]
  | .definition n => [n]
  | .parameter n => [n]
  | .alias n renamed => [aliasName n renamed]
  | .handler n => n.toList
  | .scope ns => ns
  | .capture n => n.toList
  | _ => []

/-- The name that a node loads. -/
def loads? : Form → Option (Text × Position)
  | .name n Use.load place => some (n, place)
  | _ => none

end Form

namespace Tree

/-- The node is the name that lists what a module exports. -/
def isExportList : Tree → Bool
  | node (.name n _ _) _ => n = ("__all__" : Text)
  | _ => false

/-- The words anywhere in the value of an assignment to the list of exports. -/
def exported : Tree → List Text
  | node .assignment children =>
    if children.dropLast.any isExportList then
      (children.getLast?.toList.flatMap walk).filterMap fun t =>
        match t.form with
        | .word value => some value
        | _ => none
    else []
  | _ => []

/-- The names that a node uses by itself: one that it loads or deletes, or those it exports. -/
def uses (t : Tree) : List Text :=
  match t.form with
  | .name n Use.load _ => [n]
  | .name n Use.delete _ => [n]
  | _ => t.exported

def usedNames (t : Tree) : List Text := t.walk.flatMap uses

def boundNames (t : Tree) : List Text := t.walk.flatMap fun n => n.form.binds

/-- The names that the aliases of an import bind, and where the import stands. An alias for all
names binds none that is known. -/
def imported : Tree → List (Text × Position)
  | node (.importing _ place) aliases =>
    aliases.filterMap fun a =>
      match a.form with
      | .alias name renamed =>
        if name = ("*" : Text) then none else some (Form.aliasName name renamed, place)
      | _ => none
  | _ => []

end Tree

def unusedDefect (name : Text) (place : Position) : Defect :=
  ⟨"'" ++ name ++ "' imported but unused", .warning, some place,
    some "unused-binding", some true⟩

def unboundDefect (name : Text) (place : Position) : Defect :=
  ⟨"Cannot find name '" ++ name ++ "'", .error, some place, some "missing-binding", some true⟩

def unusedImports (t : Tree) : List Defect :=
  ((t.walk.flatMap Tree.imported).filter fun p => p.1 ∉ t.usedNames).map fun p =>
    unusedDefect p.1 p.2

/-- The first load of each name that is not among the known ones. -/
def firstUnknown (known : List Text) : List (Text × Position) → List (Text × Position)
  | [] => []
  | (name, place) :: rest =>
    if name ∈ known then firstUnknown known rest
    else (name, place) :: firstUnknown (name :: known) rest

def unboundNames (t : Tree) : List Defect :=
  (firstUnknown (t.boundNames ++ builtinNames) (t.walk.filterMap fun n => n.form.loads?)).map
    fun p => unboundDefect p.1 p.2

end Mender.Source
