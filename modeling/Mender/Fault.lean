import Mender.Text.Shown

namespace Mender

/-- A family of faults: the name that it goes by, and the standard families that it was made from. The
name alone decides nothing: a family called "gaierror" may lie within "OSError", and one called
"TimeoutError" need not lie within the standard family of that name. -/
structure Family where
  name : Text
  kinds : List Text
deriving DecidableEq

def Family.standard (name : Text) : Family := ⟨name, [name]⟩

instance : Coe Text Family := ⟨Family.standard⟩

/-- What was raised, with what it says. Only what is meant to be caught is a fault, that is what lies
within "Exception". -/
structure Fault where
  family : Family
  text : Text
deriving DecidableEq

namespace Fault

/-- Each standard family with the wider one that it lies in directly. -/
def widerFamilies : List (Text × Text) :=
  Text.pairs
    [("ArithmeticError", "Exception"), ("FloatingPointError", "ArithmeticError"),
    ("OverflowError", "ArithmeticError"), ("ZeroDivisionError", "ArithmeticError"),
    ("AssertionError", "Exception"), ("AttributeError", "Exception"), ("BufferError", "Exception"),
    ("EOFError", "Exception"), ("ExceptionGroup", "Exception"), ("ImportError", "Exception"),
    ("ModuleNotFoundError", "ImportError"), ("LookupError", "Exception"),
    ("IndexError", "LookupError"), ("KeyError", "LookupError"), ("MemoryError", "Exception"),
    ("NameError", "Exception"), ("UnboundLocalError", "NameError"), ("OSError", "Exception"),
    ("BlockingIOError", "OSError"), ("ChildProcessError", "OSError"),
    ("ConnectionError", "OSError"), ("BrokenPipeError", "ConnectionError"),
    ("ConnectionAbortedError", "ConnectionError"), ("ConnectionRefusedError", "ConnectionError"),
    ("ConnectionResetError", "ConnectionError"), ("FileExistsError", "OSError"),
    ("FileNotFoundError", "OSError"), ("InterruptedError", "OSError"),
    ("IsADirectoryError", "OSError"), ("NotADirectoryError", "OSError"),
    ("PermissionError", "OSError"), ("ProcessLookupError", "OSError"), ("TimeoutError", "OSError"),
    ("ReferenceError", "Exception"), ("RuntimeError", "Exception"),
    ("NotImplementedError", "RuntimeError"), ("RecursionError", "RuntimeError"),
    ("OracleError", "RuntimeError"),
    ("StopIteration", "Exception"), ("StopAsyncIteration", "Exception"),
    ("SyntaxError", "Exception"), ("IndentationError", "SyntaxError"),
    ("TabError", "IndentationError"), ("SystemError", "Exception"), ("TypeError", "Exception"),
    ("ValueError", "Exception"), ("UnicodeError", "ValueError"),
    ("UnicodeDecodeError", "UnicodeError"), ("UnicodeEncodeError", "UnicodeError"),
    ("UnicodeTranslateError", "UnicodeError"), ("ValidationError", "ValueError"),
    ("PydanticSerializationError", "ValueError"), ("Warning", "Exception"),
    ("BytesWarning", "Warning"), ("DeprecationWarning", "Warning"), ("EncodingWarning", "Warning"),
    ("FutureWarning", "Warning"), ("ImportWarning", "Warning"),
    ("PendingDeprecationWarning", "Warning"), ("ResourceWarning", "Warning"),
    ("RuntimeWarning", "Warning"), ("SyntaxWarning", "Warning"), ("UnicodeWarning", "Warning"),
    ("UserWarning", "Warning"), ("Exception", "BaseException")]

def secondNames : List (Text × Text) := [("IOError", "OSError"), ("EnvironmentError", "OSError")]

/-- The first name of a standard family. -/
def familyName (name : Text) : Text :=
  ((secondNames.find? (·.1 = name)).map (·.2)).getD name

/-- One standard family lies within another; `fuel` bounds how many steps apart they are. -/
def liesWithin (wider : Text) : (fuel : Nat) → (family : Text) → Bool
  | 0, family => family = wider
  | fuel + 1, family =>
    family = wider ||
      match widerFamilies.find? (·.1 = family) with
      | some (_, next) => liesWithin wider fuel next
      | none => false

/-- The fault belongs to a standard family or to one within it. -/
def isA (f : Fault) (kind : Text) : Bool := f.family.kinds.any (liesWithin (familyName kind) 8)

def timeout : Fault := ⟨"TimeoutError", []⟩

def missingKey (key : Text) : Fault := ⟨"KeyError", key.shown⟩

def notIterable (kind : Text) : Fault := ⟨"TypeError", "'" ++ kind ++ "' object is not iterable"⟩

def tooLarge : Fault := ⟨"OverflowError", "int too large to convert to float"⟩

/-- Families whose faults take a fixed number of parts, with what refuses another number. -/
def manyParted : List (Text × Text) :=
  Text.pairs
    [("UnicodeDecodeError", "function takes exactly 5 arguments"),
    ("UnicodeEncodeError", "function takes exactly 5 arguments"),
    ("UnicodeTranslateError", "function takes exactly 4 arguments"),
    ("ExceptionGroup", "BaseExceptionGroup.__new__() takes exactly 2 arguments"),
    ("BaseExceptionGroup", "BaseExceptionGroup.__new__() takes exactly 2 arguments")]

/-- The fault of a standard family that was raised with one text or with none. The text of a missing
key is the key, a syntax error without a text says so, and a family whose faults take more parts
refuses to make one. -/
def ofParts (family : Text) (said : Option Text) : Fault :=
  let family := familyName family
  match manyParted.find? (·.1 = family) with
  | some (_, refusal) =>
    ⟨"TypeError", refusal ++ " (" ++ Text.ofNat said.toList.length ++ " given)"⟩
  | none =>
    match said with
    | none => ⟨family, if liesWithin "SyntaxError" 8 family then "None" else []⟩
    | some t => if family = "KeyError" then missingKey t else ⟨family, t⟩

/-- The fault as it leaves a call that others wait for. The signal that an iteration is over must not
pass through such a call, and becomes a fault of the call. -/
def leavingCall (f : Fault) : Fault :=
  if f.isA "StopIteration" then ⟨"RuntimeError", "coroutine raised StopIteration"⟩ else f

def describe (f : Fault) : Text := f.family.name ++ ": " ++ f.text

end Fault

end Mender
