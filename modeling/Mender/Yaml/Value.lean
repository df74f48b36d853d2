import Mender.Number.Amount
import Mender.Number.Numeral
import Mender.Moment
import Mender.Text.Base64
import Mender.Yaml.SetOrder

namespace Mender.Yaml

/-- A value. A time is either a mere date or a moment of a day. -/
inductive Value where
  | null
  | truth (b : Bool)
  | integer (n : Int)
  | number (x : Binary64) (origin : Nat)
  | octets (bytes : List UInt8)
  | text (t : Text)
  | date (m : Moment)
  | moment (m : Moment)
  | collection (node : Nat)

/-- What a collection holds, in order. -/
inductive Collection where
  | list (items : List Value)
  | pairs (pairs : List (Value × Value))
  | table (pairs : List (Value × Value))
  | set (items : List Value)

namespace Value

/-- The number that a value is equal to, if there is one. Truth values are equal to zero and one. -/
def amount? : Value → Option Amount
  | truth b => some (.whole (if b then 1 else 0))
  | integer n => some (.whole n)
  | number x _ => if x.isNan then none else some (.real x)
  | _ => none

/-- Two values are the same key of a table. -/
def sameKey (a b : Value) : Bool :=
  match a.amount?, b.amount? with
  | some x, some y => !x.lt y && !y.lt x
  | none, none =>
    match a, b with
    | null, null => true
    | number _ m, number _ n => m = n
    | octets s, octets t => s = t
    | text s, text t => s = t
    | date m, date n => m = n
    | moment m, moment n => m.isSameTime n
    | _, _ => false
  | _, _ => false

def isKey : Value → Bool
  | collection _ => false
  | _ => true

/-- The pairs with one more. A key that is there already keeps its place and gets the new value. -/
def put (pairs : List (Value × Value)) (k v : Value) : List (Value × Value) :=
  if pairs.any fun p => sameKey p.1 k then
    pairs.map fun p => (p.1, if sameKey p.1 k then v else p.2)
  else pairs ++ [(k, v)]

def lookUp? (pairs : List (Value × Value)) (key : Text) : Option Value :=
  (pairs.find? fun p => sameKey p.1 (text key)).map (·.2)

end Value

/-- The items of a set in the order in which they are shown. Numbers have an order of their own; where
there is anything else, the items stay in the order in which they were written. -/
def Collection.ofSet (items : List Value) : Collection :=
  match items.mapM Value.amount? with
  | some amounts => .set (setOrder ((amounts.map numberCode).zip items))
  | none => .set items

def Collection.isEmpty : Collection → Bool
  | list items => items.isEmpty
  | pairs ps => ps.isEmpty
  | table ps => ps.isEmpty
  | set items => items.isEmpty

/-- A value with all collections that it holds. -/
structure Loaded where
  root : Value
  collections : Array Collection

namespace Loaded

def collection (l : Loaded) (node : Nat) : Collection := l.collections.getD node (.list [])

/-- The value counts as nothing: empty, zero or false. -/
def isNothing (l : Loaded) : Bool :=
  match l.root with
  | .null => true
  | .truth b => !b
  | .integer n => n = 0
  | .number x _ => x.code = 0
  | .octets bytes => bytes.isEmpty
  | .text t => t.isEmpty
  | .date _ => false
  | .moment _ => false
  | .collection node => (l.collection node).isEmpty

end Loaded

/-! Showing -/

/-- The distance from universal time of a moment, as it is shown. -/
def shownZone (seconds : Int) : Text :=
  if seconds = 0 then "datetime.timezone.utc"
  else "datetime.timezone(" ++ Moment.spanText (seconds * 1000000) ++ ")"

/-- A time by its parts, as it is shown inside of other values. -/
def shownMoment (m : Moment) : Text :=
  let parts : List Nat :=
    [m.year, m.month, m.day, m.hour, m.minute]
      ++ (if m.second = 0 && m.micro = 0 then [] else [m.second])
      ++ if m.micro = 0 then [] else [m.micro]
  let zone : List Text :=
    match m.offset with
    | none => []
    | some seconds => ["tzinfo=" ++ shownZone seconds]
  "datetime.datetime(" ++ Text.joined ", " (parts.map Text.ofNat ++ zone) ++ ")"

/-- A date by its parts, as it is shown inside of other values. -/
def shownDate (m : Moment) : Text :=
  "datetime.date(" ++ Text.joined ", " ([m.year, m.month, m.day].map Text.ofNat) ++ ")"

namespace Loaded

/-- A collection that is inside of itself, as it is shown. -/
def ellipsis : Collection → Text
  | .list _ => "[...]"
  | .pairs _ => "[...]"
  | .table _ => "\x7b...\x7d"
  | .set _ => "set(...)"

/-- A value inside of another one, as it is shown. `around` are the collections that it is in, and
there are `fuel` others. -/
def shown (l : Loaded) : (fuel : Nat) → (around : List Nat) → Value → Except Fault Text
  | fuel, around, v =>
    match v with
    | .null => .ok "None"
    | .truth b => .ok (if b then "True" else "False")
    | .integer n => Numeral.integerText n
    | .number x _ => .ok x.text
    | .octets bytes => .ok (Base64.shown bytes)
    | .text t => .ok t.shown
    | .date m => .ok (shownDate m)
    | .moment m => .ok (shownMoment m)
    | .collection node =>
      let held := l.collection node
      if around.contains node then .ok (ellipsis held)
      else
        match fuel with
        | 0 => .ok (ellipsis held)
        | fuel + 1 =>
          let inner := shown l fuel (node :: around)
          match held with
          | .list items => do
            pure (shownList (← items.mapM inner))
          | .pairs ps => do
            let parts : List Text ← ps.mapM fun (k, v) => do
              pure ("(" ++ (← inner k) ++ ", " ++ (← inner v) ++ ")")
            pure (shownList parts)
          | .table ps => do
            let parts : List Text ← ps.mapM fun (k, v) => do
              pure ((← inner k) ++ ": " ++ (← inner v))
            pure ("\x7b" ++ Text.joined ", " parts ++ "\x7d")
          | .set items => do
            if items.isEmpty then pure "set()"
            else pure ("\x7b" ++ Text.joined ", " (← items.mapM inner) ++ "\x7d")

def pairText (l : Loaded) (k v : Value) : Except Fault Text := do
  let inner := l.shown (l.collections.size + 1) []
  pure ("(" ++ (← inner k) ++ ", " ++ (← inner v) ++ ")")

def plainText (l : Loaded) : Value → Except Fault Text
  | .text t => .ok t
  | .date m => .ok m.dateText
  | .moment m => .ok m.plainText
  | v => l.shown (l.collections.size + 1) [] v

end Loaded

end Mender.Yaml
