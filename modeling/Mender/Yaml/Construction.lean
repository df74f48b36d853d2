import Mender.Text.Encoding
import Mender.Yaml.Node
import Mender.Yaml.ScalarValue

namespace Mender.Yaml

/-- How far the values of a document are known. -/
structure Construction where
  nodes : Array Node
  /-- The values of the nodes that were come across. -/
  values : Array (Option Value)
  collections : Array Collection
  /-- The collections that are still to be filled, first the one whose turn is next. -/
  queue : List Nat

/-- Works on the values of a document, or finds out why one cannot be. -/
abbrev Construct := StateT Construction (Except Misread)

namespace Construct

def fail {α : Type} : Construct α := throw .malformed

def node (number : Nat) : Construct Node := do
  match (← get).nodes[number]? with
  | some n => pure n
  | none => fail

def change (number : Nat) (f : Node → Node) : Construct Unit :=
  modify fun c => { c with nodes := c.nodes.modify number f }

def pairsOf (number : Nat) : Construct (List (Nat × Nat)) := do
  match (← node number).content with
  | .mapping pairs => pure pairs
  | _ => fail

/-- More steps than the merging in any document takes. -/
def mergeLimit : Nat := twoTo 40

/-- Puts what is merged into a mapping in front of its own pairs, from the pair with an index on.
What is merged comes from one mapping, or from a sequence of mappings the first of which counts
most, and it is merged itself before. The key for a default value becomes a text. -/
def merge : (fuel : Nat) → (number index : Nat) → (merged : List (Nat × Nat)) → Construct Unit
  | 0, _, _, _ => fail
  | fuel + 1, number, index, merged => do
    let pairs ← pairsOf number
    match pairs[index]? with
    | none =>
      if !merged.isEmpty then change number fun n => { n with content := .mapping (merged ++ pairs) }
    | some (k, v) =>
      let whole (source : Nat) : Construct (List (Nat × Nat)) := do
        discard (pairsOf source)
        merge fuel source 0 []
        pairsOf source
      match (← node k).tag with
      | .merge =>
        change number fun n => { n with content := .mapping (pairs.eraseIdx index) }
        let more ←
          match (← node v).content with
          | .mapping _ => whole v
          | .sequence sources => do
            let found ← sources.mapM whole
            pure found.reverse.flatten
          | .scalar _ => fail
        merge fuel number index (merged ++ more)
      | .default =>
        change k fun n => { n with tag := .text }
        merge fuel number (index + 1) merged
      | _ => merge fuel number (index + 1) merged

/-- The text of a scalar, or of the default value of a mapping. -/
def scalarText : (fuel : Nat) → (number : Nat) → Construct Text
  | 0, _ => fail
  | fuel + 1, number => do
    match (← node number).content with
    | .scalar text => pure text
    | .sequence _ => fail
    | .mapping pairs =>
      let isDefault : List Bool ← pairs.mapM fun (k, _) => do
        pure (decide ((← node k).tag = .default))
      match (pairs.zip isDefault).find? (·.2) with
      | some ((_, v), _) => scalarText fuel v
      | none => fail

/-- The value of a scalar node. A time cannot be the default value of a mapping. -/
def scalarValue (number : Nat) (n : Node) : Construct Value := do
  let text ← scalarText ((← get).nodes.size + 1) number
  match n.tag, n.content with
  | .time, .mapping _ =>
    throw (.fault ⟨"TypeError", "expected string or bytes-like object, got 'list'"⟩)
  | tag, _ => valueOf tag number text

/-- The value of a collection, which is filled later. -/
def collect (number : Nat) (start : Collection) : Construct Value := do
  modify fun c =>
    { c with collections := c.collections.set! number start, queue := c.queue ++ [number] }
  pure (.collection number)

/-- The value of a node, which is the same one whenever it is come across. -/
def value (number : Nat) : Construct Value := do
  match (← get).values.getD number none with
  | some v => pure v
  | none =>
    let n ← node number
    let v ←
      match n.tag with
      | .sequence => collect number (.list [])
      | .orderedTable | .pairs => collect number (.pairs [])
      | .set => collect number (.set [])
      | .mapping => collect number (.table [])
      | .merge | .default | .unknown => fail
      | _ => scalarValue number n
    modify fun c => { c with values := c.values.set! number (some v) }
    pure v

/-- The pairs of a mapping with their values, after merging. -/
def tableOf (number : Nat) : Construct (List (Value × Value)) := do
  discard (pairsOf number)
  merge mergeLimit number 0 []
  (← pairsOf number).foldlM (fun table (k, v) => do
    let key ← value k
    if !key.isKey then fail
    pure (Value.put table key (← value v))) []

def pairOf (number : Nat) : Construct (Value × Value) := do
  match ← pairsOf number with
  | [(k, v)] => pure (← value k, ← value v)
  | _ => fail

def itemsOf (number : Nat) : Construct (List Nat) := do
  match (← node number).content with
  | .sequence items => pure items
  | _ => fail

def fill (number : Nat) : Construct Unit := do
  let held : Collection ←
    match (← node number).tag with
    | .sequence => do pure (.list (← (← itemsOf number).mapM value))
    | .orderedTable | .pairs => do pure (.pairs (← (← itemsOf number).mapM pairOf))
    | .set => do pure (.ofSet ((← tableOf number).map (·.1)))
    | _ => do pure (.table (← tableOf number))
  modify fun c => { c with collections := c.collections.set! number held }

/-- Fills the collections of the queue, of which there are at most `fuel`. -/
def fillAll : (fuel : Nat) → Construct Unit
  | 0 => pure ()
  | fuel + 1 => do
    match (← get).queue with
    | [] => pure ()
    | number :: rest =>
      modify fun c => { c with queue := rest }
      fill number
      fillAll fuel

end Construct

/-- The value of a document. -/
def Document.load (d : Document) : Except Misread Loaded := do
  let work : Construct Value := do
    let v ← Construct.value d.root
    Construct.fillAll (d.nodes.size + 1)
    pure v
  let size := d.nodes.size
  let (v, c) ← work.run ⟨d.nodes, Array.replicate size none, Array.replicate size (.list []), []⟩
  pure ⟨v, c.collections⟩

/-- The value of a text; a text without a document is null. -/
def Loaded.ofText (t : Text) : Except Misread Loaded := do
  match t.encodingFault? with
  | some f => throw (.fault f)
  | none =>
    match ← Document.ofText? t with
    | none => pure ⟨.null, #[]⟩
    | some d => d.load

end Mender.Yaml
