import Mender.Text.Lines
import Mender.Yaml.Resolution
import Mender.Yaml.Token

namespace Mender.Yaml

/-- What a node holds. -/
inductive Content where
  | scalar (text : Text)
  | sequence (items : List Nat)
  | mapping (pairs : List (Nat × Nat))

structure Node where
  tag : Tag
  content : Content

/-- What is known while nodes are read: the tokens ahead and the trouble after them, the nodes so far,
the anchored ones by name, and the handles for tags. -/
structure Reading where
  tokens : List Token
  trouble : Option Misread
  nodes : Array Node
  anchors : List (Text × Nat)
  handles : List (Text × Text)
  /-- In how many collections the next node is. -/
  depth : Nat

/-- Reads a part of a document, or finds out why it is none. -/
abbrev Read := StateT Reading (Except Misread)

namespace Read

/-- There is no such part here. -/
def fail {α : Type} : Read α := throw .malformed

def next? : Read (Option Token) := do
  let r ← get
  match r.tokens, r.trouble with
  | [], some trouble => throw trouble
  | tokens, _ => pure tokens.head?

def skip : Read Unit := modify fun r => { r with tokens := r.tokens.tail }

/-- The next token is one of some. -/
def at? (ts : List Token) : Read Bool := do
  match ← next? with
  | some t => pure (ts.contains t)
  | none => pure false

def take? (t : Token) : Read Bool := do
  if ← at? [t] then
    skip
    pure true
  else pure false

def expect (t : Token) : Read Unit := do
  if ← take? t then pure () else fail

def place (tag : Tag) (content : Content) : Read Nat :=
  modifyGet fun r => (r.nodes.size, { r with nodes := r.nodes.push ⟨tag, content⟩ })

def fill (number : Nat) (content : Content) : Read Unit :=
  modify fun r => { r with nodes := r.nodes.modify number fun n => { n with content := content } }

/-- The node that stands where nothing is written. -/
def empty : Read Nat := place .null (.scalar [])

/-- The address that a tag stands for. -/
def address (handle : Option Text) (suffix : Text) : Read Text := do
  match handle with
  | none => pure suffix
  | some h =>
    match (← get).handles.find? (·.1 = h) with
    | some (_, lead) => pure (lead ++ suffix)
    | none => fail

/-- An anchor that may be next. -/
def anchor? : Read (Option Text) := do
  match ← next? with
  | some (.anchor name) =>
    skip
    pure (some name)
  | _ => pure none

/-- The address of a tag that may be next. -/
def tag? : Read (Option Text) := do
  match ← next? with
  | some (.tag handle suffix) =>
    skip
    pure (some (← address handle suffix))
  | _ => pure none

/-- The anchor and the tag of a node, in either order. -/
def properties : Read (Option Text × Option Text) := do
  match ← anchor? with
  | some name => pure (some name, ← tag?)
  | none =>
    match ← tag? with
    | some t => pure (← anchor?, some t)
    | none => pure (none, none)

/-- Remembers a node under its anchor. -/
def remember (anchor : Option Text) (number : Nat) : Read Unit := do
  match anchor with
  | none => pure ()
  | some name => modify fun r => { r with anchors := (name, number) :: r.anchors }

/-- Finds out that an anchor is new. -/
def checkNew (anchor : Option Text) : Read Unit := do
  match anchor with
  | none => pure ()
  | some name => if (← get).anchors.any (·.1 = name) then fail

/-- The node of an alias. -/
def named (name : Text) : Read Nat := do
  match (← get).anchors.find? (·.1 = name) with
  | some (_, number) => pure number
  | none => fail

/-- A tag that leaves it to the node what it stands for. -/
def isOpen (tag : Option Text) : Bool := tag.all (· == ("!" : Text))

/-- A scalar with its anchor and tag. The tag of a mark alone makes any scalar look like a plain
one. -/
def scalar (anchor tag : Option Text) (plain : Bool) (text : Text) : Read Nat := do
  let own : Tag :=
    match tag with
    | some address => if isOpen tag then impliedTag text else .ofAddress address
    | none => if plain then impliedTag text else .text
  let number ← place own (.scalar text)
  remember anchor number
  pure number

/-- The tag of a collection, which is that of its kind unless another one says something. -/
def ownTag (tag : Option Text) (kind : Tag) : Tag :=
  match tag with
  | some address => if isOpen tag then kind else .ofAddress address
  | none => kind

/-- How many collections may lie in one another. -/
def deepest : Nat := 488

/-- Reads parts of a collection, which may not be too deep. -/
def inside {α : Type} (parts : Read α) : Read α := do
  if deepest ≤ (← get).depth then
    throw (.fault ⟨"RecursionError", "maximum recursion depth exceeded"⟩)
  modify fun r => { r with depth := r.depth + 1 }
  let found ← parts
  modify fun r => { r with depth := r.depth - 1 }
  pure found

/-- A sequence with its anchor and tag, whose items are read once it can be referred to. -/
def sequence (anchor tag : Option Text) (items : Read (List Nat)) : Read Nat := do
  let number ← place (ownTag tag .sequence) (.sequence [])
  remember anchor number
  fill number (.sequence (← inside items))
  pure number

/-- A mapping with its anchor and tag, whose pairs are read once it can be referred to. -/
def mapping (anchor tag : Option Text) (pairs : Read (List (Nat × Nat))) : Read Nat := do
  let number ← place (ownTag tag .mapping) (.mapping [])
  remember anchor number
  fill number (.mapping (← inside pairs))
  pure number

mutual

/-- A node. In blocks a sequence or a mapping may start by indentation; after a key, items may stand
without further indentation. -/
def node : (fuel : Nat) → (block flush : Bool) → Read Nat
  | 0, _, _ => fail
  | fuel + 1, block, flush => do
    match ← next? with
    | some (.alias name) =>
      skip
      named name
    | _ =>
      let (anchor, tag) ← properties
      content fuel block flush anchor tag

/-- A node after its anchor and tag. -/
def content (fuel : Nat) (block flush : Bool) (anchor tag : Option Text) : Read Nat :=
  match fuel with
  | 0 => fail
  | fuel + 1 => do
    let token ← next?
    let bare : Read Nat :=
      if anchor.isSome || tag.isSome then scalar anchor tag tag.isNone [] else fail
    checkNew anchor
    if flush && token = some .item then sequence anchor tag (flushItems fuel)
    else
      match token with
      | some (.scalar plain text) =>
        skip
        scalar anchor tag plain text
      | some .flowSequence =>
        skip
        sequence anchor tag (flowItems fuel true)
      | some .flowMapping =>
        skip
        mapping anchor tag (flowPairs fuel true)
      | some .blockSequence =>
        if block then
          skip
          sequence anchor tag (blockItems fuel)
        else bare
      | some .blockMapping =>
        if block then
          skip
          mapping anchor tag (blockPairs fuel)
        else bare
      | _ => bare

/-- A node, or the empty one if the next token is one of some. -/
def nodeUnless (fuel : Nat) (stops : List Token) (block flush : Bool) : Read Nat :=
  match fuel with
  | 0 => fail
  | fuel + 1 => do
    if ← at? stops then empty else node fuel block flush

def blockItems : (fuel : Nat) → Read (List Nat)
  | 0 => fail
  | fuel + 1 => do
    if ← take? .item then
      let first ← nodeUnless fuel [.item, .blockEnd] true false
      pure (first :: (← blockItems fuel))
    else
      expect .blockEnd
      pure []

/-- Items that stand as far out as the key before them. -/
def flushItems : (fuel : Nat) → Read (List Nat)
  | 0 => fail
  | fuel + 1 => do
    if ← take? .item then
      let first ← nodeUnless fuel [.item, .key, .value, .blockEnd] true false
      pure (first :: (← flushItems fuel))
    else pure []

def blockPairs : (fuel : Nat) → Read (List (Nat × Nat))
  | 0 => fail
  | fuel + 1 => do
    if ← at? [.key, .value] then
      let k ←
        if ← take? .key then nodeUnless fuel [.key, .value, .blockEnd] true true else fail
      let v ←
        if ← take? .value then nodeUnless fuel [.key, .value, .blockEnd] true true else empty
      pure ((k, v) :: (← blockPairs fuel))
    else
      expect .blockEnd
      pure []

/-- The items between brackets, up to the closing one. An item with a key is a mapping of its own. -/
def flowItems (fuel : Nat) (first : Bool) : Read (List Nat) :=
  match fuel with
  | 0 => fail
  | fuel + 1 => do
    if ← take? .flowSequenceEnd then pure []
    else
      if !first then expect .comma
      if ← take? .key then
        let k ← inside (nodeUnless fuel [.value, .comma, .flowSequenceEnd] false false)
        let v ←
          if ← take? .value then inside (nodeUnless fuel [.comma, .flowSequenceEnd] false false)
          else empty
        let single ← place .mapping (.mapping [(k, v)])
        pure (single :: (← flowItems fuel false))
      else if ← take? .flowSequenceEnd then pure []
      else
        let item ← node fuel false false
        pure (item :: (← flowItems fuel false))

def flowPairs (fuel : Nat) (first : Bool) : Read (List (Nat × Nat)) :=
  match fuel with
  | 0 => fail
  | fuel + 1 => do
    if ← take? .flowMappingEnd then pure []
    else
      if !first then expect .comma
      if ← take? .key then
        let k ← nodeUnless fuel [.value, .comma, .flowMappingEnd] false false
        let v ←
          if ← take? .value then nodeUnless fuel [.comma, .flowMappingEnd] false false
          else empty
        pure ((k, v) :: (← flowPairs fuel false))
      else if ← take? .flowMappingEnd then pure []
      else
        let k ← node fuel false false
        let v ← empty
        pure ((k, v) :: (← flowPairs fuel false))

end

/-! Documents -/

/-- The handles that hold without any directive. -/
def standardHandles : List (Text × Text) := [("!", "!"), ("!!", "tag:yaml.org,2002:")]

/-- The directives before a document: at most one for the version, which must be the first, and one
for each handle. -/
def directives : (fuel : Nat) → (versioned : Bool) → Read Unit
  | 0, _ => fail
  | fuel + 1, versioned => do
    match ← next? with
    | some (.version major) =>
      if versioned || major ≠ 1 then fail
      skip
      directives fuel true
    | some (.handle name lead) =>
      if (← get).handles.any (·.1 = name) then fail
      skip
      modify fun r => { r with handles := (name, lead) :: r.handles }
      directives fuel versioned
    | some .directive =>
      skip
      directives fuel versioned
    | _ => pure ()

def skipEnds : (fuel : Nat) → Read Unit
  | 0 => pure ()
  | fuel + 1 => do
    if ← take? .documentEnd then skipEnds fuel

def atDocument : Read Bool := do
  match ← next? with
  | some (.version _) | some (.handle _ _) | some .directive | some .documentStart => pure true
  | _ => pure false

/-- The only document, or nothing if there is none. -/
def document : Read (Option Nat) := do
  let fuel := 4 * (← get).tokens.length + 8
  if (← next?).isNone then pure none
  else
    let root ←
      if ← atDocument then do
        directives fuel false
        expect .documentStart
        modify fun r =>
          { r with handles := r.handles ++ standardHandles.filter fun h => !r.handles.any (·.1 = h.1) }
        if (← next?).isNone || (← at? [.documentEnd]) || (← atDocument) then empty
        else node fuel true false
      else do
        modify fun r => { r with handles := standardHandles }
        node fuel true false
    skipEnds fuel
    if (← next?).isNone then pure (some root) else fail

end Read

/-- The nodes of a document, and the number of the one that holds the others. -/
structure Document where
  nodes : Array Node
  root : Nat

/-- The document of a text, or nothing if the text has none. -/
def Document.ofText? (t : Text) : Except Misread (Option Document) := do
  let (tokens, trouble) := Token.ofText t.withLineFeeds
  let (root, r) ← Read.document.run ⟨tokens, trouble, #[], [], [], 0⟩
  pure (root.map fun root => ⟨r.nodes, root⟩)

end Mender.Yaml
