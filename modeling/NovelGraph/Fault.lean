import NovelGraph.Json.Reader
import NovelGraph.Value.Display
import NovelGraph.Value.Same

/-! Why an operation can fail, and the wording of each cause. -/
namespace NovelGraph

/-- What the file system may object to. -/
inductive FileProblem where
  | noEntry
  | denied
  | exists
  | notDirectory
  | isDirectory
deriving DecidableEq, Repr

def FileProblem.number : FileProblem → Nat
  | .noEntry => 2
  | .denied => 13
  | .exists => 17
  | .notDirectory => 20
  | .isDirectory => 21

def FileProblem.phrase : FileProblem → String
  | .noEntry => "No such file or directory"
  | .denied => "Permission denied"
  | .exists => "File exists"
  | .notDirectory => "Not a directory"
  | .isDirectory => "Is a directory"

/-- How bytes can break the rules of UTF-8. -/
inductive EncodingProblem where
  | badStart
  | badTail
  | truncated
deriving DecidableEq, Repr

def EncodingProblem.phrase : EncodingProblem → String
  | .badStart => "invalid start byte"
  | .badTail => "invalid continuation byte"
  | .truncated => "unexpected end of data"

/-- Bytes `first` to `last` of a text file break the rules of UTF-8. -/
structure EncodingError where
  first : Nat
  last : Nat
  byte : UInt8
  reason : EncodingProblem
deriving DecidableEq, Repr

/-- The cause of a failure. -/
inductive Fault where
  /-- A look-up found nothing under the key. -/
  | missing (key : Value)
  /-- A value of this kind has no part of this name. -/
  | noPart (kind name : String)
  /-- The values have no difference. -/
  | noDifference (a b : Value)
  /-- The values cannot be put in order. -/
  | notOrdered (a b : Value)
  /-- Lists and objects cannot serve as keys. -/
  | notAKey (v : Value)
  /-- The value has no items. -/
  | notIterable (v : Value)
  /-- The value has no members. -/
  | notIndexable (v : Value)
  /-- The value does not name a file. -/
  | notAPath (v : Value)
  /-- The value is of another kind than the operation takes. -/
  | wrongKind (detail : String)
  /-- An integer beyond the range of binary64. -/
  | tooLarge
  /-- Steps of no length lead nowhere. -/
  | zeroStep
  /-- There is no item with the number. -/
  | outOfRange (n : Nat)
  /-- A text longer than can be held. -/
  | tooLong
  | invalid (detail : String)
  | notRunnable (detail : String)
  | projectMissing (path : String)
  | unreadable (source : String) (error : Json.ReadError)
  | notUtf8 (error : EncodingError)
  | file (problem : FileProblem) (path : String)
deriving Repr

def EncodingError.message (e : EncodingError) : String :=
  if e.first = e.last then
    "'utf-8' codec can't decode byte 0x" ++ String.ofList (Text.hexDigits 2 e.byte.toNat) ++
      s!" in position {e.first}: {e.reason.phrase}"
  else s!"'utf-8' codec can't decode bytes in position {e.first}-{e.last}: {e.reason.phrase}"

namespace Fault

def message : Fault → String
  | .missing key => key.literal
  | .noPart kind name => s!"'{kind}' object has no attribute '{name}'"
  | .noDifference a b => s!"unsupported operand type(s) for -: '{a.kindName}' and '{b.kindName}'"
  | .notOrdered a b =>
    s!"'<' not supported between instances of '{a.kindName}' and '{b.kindName}'"
  | .notAKey v => s!"unhashable type: '{v.kindName}'"
  | .notIterable v => s!"'{v.kindName}' object is not iterable"
  | .notIndexable (.text _) => "string indices must be integers, not 'str'"
  | .notIndexable (.list _) => "list indices must be integers or slices, not str"
  | .notIndexable v => s!"'{v.kindName}' object is not subscriptable"
  | .notAPath v => s!"expected str, bytes or os.PathLike object, not {v.kindName}"
  | .wrongKind detail => detail
  | .tooLarge => "int too large to convert to float"
  | .zeroStep => "integer modulo by zero"
  | .outOfRange n => s!"index {n} out of range"
  | .tooLong => ""
  | .invalid detail => detail
  | .notRunnable detail => detail
  | .projectMissing path => s!"Проект не найден: {path}"
  | .unreadable source error => error.message source
  | .notUtf8 error => error.message
  | .file problem path => s!"[Errno {problem.number}] {problem.phrase}: {Text.quote path}"

end Fault

namespace Value

/-- The items that a loop over a value meets: characters of a text, names of an object. -/
def iterate : Value → Except Fault (List Value)
  | .list items => .ok items
  | .text s => .ok (s.toList.map fun c => .text (String.singleton c))
  | .object members => .ok (members.map fun m => .text m.1)
  | v => .error (.notIterable v)

/-- The members of an object, for an operation of the given name that only objects have. -/
def members (v : Value) (operation : String) : Except Fault (List (String × Value)) :=
  match v with
  | .object ms => .ok ms
  | v => .error (.noPart v.kindName operation)

/-- The member that an object has to have. -/
def field (v : Value) (key : String) : Except Fault Value :=
  match v with
  | .object ms =>
    match lookup ms key with
    | some w => .ok w
    | none => .error (.missing (.text key))
  | v => .error (.notIndexable v)

def requireKey (v : Value) : Except Fault Unit :=
  if v.isKey then .ok () else .error (.notAKey v)

mutual

/-- The order of numbers, of texts by code point, and of lists by the first items that differ. -/
def lessThan : Value → Value → Except Fault Bool
  | .text a, .text b => .ok (decide (a < b))
  | .list a, .list b => lessItems a b
  | a, b =>
    match a.number?, b.number? with
    | some m, some n => .ok (m.magnitude.lt n.magnitude)
    | _, _ => .error (.notOrdered a b)

def lessItems : List Value → List Value → Except Fault Bool
  | _, [] => .ok false
  | [], _ :: _ => .ok true
  | a :: as, b :: bs => if a.same b then lessItems as bs else a.lessThan b

end

end Value
end NovelGraph
