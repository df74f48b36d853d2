import Mender.Defect

namespace Mender.Source

/-- What is done with a name where it stands. -/
inductive Use where
  | load
  | store
  | delete
deriving DecidableEq

/-- What a node says about names. The children of an assignment are its targets and then its value;
the children of an import are its aliases. -/
inductive Form where
  | name (id : Text) (use : Use) (place : Position)
  | definition (name : Text)
  | parameter (name : Text)
  | importing (origin : Option Text) (place : Position)
  | alias (name : Text) (renamed : Option Text)
  | handler (name : Option Text)
  | scope (names : List Text)
  | capture (name : Option Text)
  | mapping (rest : Option Text)
  | assignment
  | word (value : Text)
  | other
deriving DecidableEq

inductive Tree where
  | node (form : Form) (children : List Tree)

namespace Tree

def form : Tree → Form
  | node f _ => f

def children : Tree → List Tree
  | node _ ts => ts

/-- The levels of two trees side by side. -/
def besideLevels {α : Type} : List (List α) → List (List α) → List (List α)
  | [], right => right
  | left, [] => left
  | l :: left, r :: right => (l ++ r) :: besideLevels left right

mutual

/-- The nodes of a tree by their depth, the root first. -/
def levels : Tree → List (List Tree)
  | node f ts => [node f ts] :: forestLevels ts

def forestLevels : List Tree → List (List Tree)
  | [] => []
  | t :: ts => besideLevels (levels t) (forestLevels ts)

end

/-- All nodes of a tree, level by level and from left to right. -/
def walk (t : Tree) : List Tree := t.levels.flatten

end Tree

end Mender.Source
