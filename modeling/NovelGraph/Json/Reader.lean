import NovelGraph.Value

/-! Reading JSON text, with the place and the reason of the first error. -/
namespace NovelGraph.Json

/-- What a reader expected and did not find. -/
inductive Expected where
  | value
  | propertyName
  | colon
  | comma
  | endOfText
  | closingQuote
  | visibleCharacter
  | escape
  | hexEscape
  | noByteOrderMark
deriving DecidableEq, Repr

def Expected.phrase : Expected → String
  | .value => "Expecting value"
  | .propertyName => "Expecting property name enclosed in double quotes"
  | .colon => "Expecting ':' delimiter"
  | .comma => "Expecting ',' delimiter"
  | .endOfText => "Extra data"
  | .closingQuote => "Unterminated string starting at"
  | .visibleCharacter => "Invalid control character at"
  | .escape => "Invalid \\escape"
  | .hexEscape => "Invalid \\uXXXX escape"
  | .noByteOrderMark => "Unexpected UTF-8 BOM (decode using utf-8-sig)"

/-- What has other values inside. -/
inductive Container where
  | list
  | object
deriving DecidableEq, Repr

def Container.phrase : Container → String
  | .list => "a JSON array"
  | .object => "a JSON object"

inductive ReadError where
  /-- The text leaves the grammar at character `position`. -/
  | unexpected (what : Expected) (position : Nat)
  /-- An integer with more digits than are read. -/
  | tooManyDigits (count : Nat)
  /-- A list or object inside more others than the limit admits. -/
  | tooDeep (what : Container)
deriving DecidableEq, Repr

/-- Integers have at most this many digits. -/
def maxDigits : Nat := 4300

/-- A suffix of the text and the position at which it starts. -/
structure Cursor where
  position : Nat
  rest : List Char

namespace Cursor

def advance (c : Cursor) (n : Nat) : Cursor := ⟨c.position + n, c.rest.drop n⟩

def isSpace (c : Char) : Bool := c == ' ' || c == '\t' || c == '\n' || c == '\r'

def skipSpace (c : Cursor) : Cursor := c.advance (c.rest.takeWhile isSpace).length

def fail {α : Type} (c : Cursor) (what : Expected) : Except ReadError α :=
  .error (.unexpected what c.position)

/-- Whether the text goes on with the given characters. -/
def startsWith (c : Cursor) (word : String) : Bool := word.toList.isPrefixOf c.rest

end Cursor

def hexValue? (c : Char) : Option Nat :=
  if c.isDigit then some (c.toNat - '0'.toNat)
  else if 'a' ≤ c ∧ c ≤ 'f' then some (c.toNat - 'a'.toNat + 10)
  else if 'A' ≤ c ∧ c ≤ 'F' then some (c.toNat - 'A'.toNat + 10)
  else none

/-- The value of exactly four hexadecimal digits. -/
def hexFour? : List Char → Option Nat
  | [a, b, c, d] => do
    let a ← hexValue? a
    let b ← hexValue? b
    let c ← hexValue? c
    let d ← hexValue? d
    pure (((a * 16 + b) * 16 + c) * 16 + d)
  | _ => none

/-- The character that a letter after a backslash stands for. -/
def escaped? : Char → Option Char
  | '"' => some '"'
  | '\\' => some '\\'
  | '/' => some '/'
  | 'b' => some '\x08'
  | 'f' => some '\x0c'
  | 'n' => some '\n'
  | 'r' => some '\r'
  | 't' => some '\t'
  | _ => none

/-- A code unit as a character; half of a surrogate pair by itself is shown as a replacement. -/
def unitChar (n : Nat) : Char :=
  if 0xd800 ≤ n ∧ n ≤ 0xdfff then '\ufffd' else Char.ofNat n

/-- The four digits after `\u`, with the low half of a surrogate pair if that follows. -/
def readHexEscape (u : Cursor) : Except ReadError (Char × Cursor) :=
  let digits := u.advance 1
  if digits.rest.length ≤ 4 then u.fail .hexEscape
  else match hexFour? (digits.rest.take 4) with
    | none => u.fail .hexEscape
    | some n =>
      let after := digits.advance 4
      if 0xd800 ≤ n && n ≤ 0xdbff && decide (6 < after.rest.length) && after.startsWith "\\u" then
        match hexFour? ((after.rest.drop 2).take 4) with
        | none => (after.advance 1).fail .hexEscape
        | some m =>
          if 0xdc00 ≤ m ∧ m ≤ 0xdfff then
            .ok (Char.ofNat (0x10000 + (n - 0xd800) * 0x400 + (m - 0xdc00)), after.advance 6)
          else .ok (unitChar n, after)
      else .ok (unitChar n, after)

/-- The characters of a string up to its closing quote; `start` is the place of the opening one. -/
def readString (start : Nat) : Nat → Cursor → List Char → Except ReadError (String × Cursor)
  | 0, _, _ => .error (.unexpected .closingQuote start)
  | fuel + 1, c, done =>
    match c.rest with
    | [] => .error (.unexpected .closingQuote start)
    | '"' :: _ => .ok (String.ofList done.reverse, c.advance 1)
    | '\\' :: rest =>
      match rest with
      | [] => .error (.unexpected .closingQuote start)
      | 'u' :: _ => do
        let (ch, next) ← readHexEscape (c.advance 1)
        readString start fuel next (ch :: done)
      | e :: _ =>
        match escaped? e with
        | some ch => readString start fuel (c.advance 2) (ch :: done)
        | none => c.fail .escape
    | ch :: _ =>
      if ch.toNat ≤ 0x1f then c.fail .visibleCharacter
      else readString start fuel (c.advance 1) (ch :: done)

def digitsValue (ds : List Char) : Nat :=
  ds.foldl (fun n d => 10 * n + (d.toNat - '0'.toNat)) 0

/-- An exponent with at least one digit, and how many characters it takes. -/
def exponentPart (cs : List Char) : Option (Int × Nat) :=
  match cs with
  | e :: rest =>
    if e == 'e' || e == 'E' then
      let (negative, signed, body) := match rest with
        | '-' :: r => (true, 1, r)
        | '+' :: r => (false, 1, r)
        | r => (false, 0, r)
      let ds := body.takeWhile Char.isDigit
      if ds.isEmpty then none
      else
        let n : Int := digitsValue ds
        some (if negative then -n else n, 1 + signed + ds.length)
    else none
  | [] => none

/-- The digits before the point; a zero stands alone. -/
def wholePart : List Char → List Char
  | '0' :: _ => ['0']
  | cs => cs.takeWhile Char.isDigit

/-- The digits after the point. -/
def fractionPart : List Char → List Char
  | '.' :: cs => cs.takeWhile Char.isDigit
  | _ => []

/-- A number: without point and exponent it is an integer. -/
def readNumber (c : Cursor) : Except ReadError (Value × Cursor) :=
  let (negative, sign) := if c.startsWith "-" then (true, 1) else (false, 0)
  let body := c.rest.drop sign
  let whole := wholePart body
  if whole.isEmpty then c.fail .value
  else
    let afterWhole := body.drop whole.length
    let fraction := fractionPart afterWhole
    let fractionSize := if fraction.isEmpty then 0 else fraction.length + 1
    let exponent := exponentPart (afterWhole.drop fractionSize)
    if fraction.isEmpty && exponent.isNone then
      if maxDigits < whole.length then .error (.tooManyDigits whole.length)
      else
        let n : Int := digitsValue whole
        .ok (.int (if negative then -n else n), c.advance (sign + whole.length))
    else
      let (scale, exponentSize) := exponent.getD (0, 0)
      .ok (.float (Double.ofDecimal negative (digitsValue (whole ++ fraction)) (scale - fraction.length)),
        c.advance (sign + whole.length + fractionSize + exponentSize))

/-- The words that stand for values, in the order in which they are tried. -/
def words : List (String × Value) :=
  [("null", .null), ("true", .bool true), ("false", .bool false), ("NaN", .float .nan),
    ("Infinity", .float (.infinity false)), ("-Infinity", .float (.infinity true))]

/-- Whether a list or object inside so many others goes beyond the limit, if there is one. -/
def isFull (limit : Option Nat) (depth : Nat) : Bool := limit.any (· ≤ depth)

mutual

/-- One value from the cursor on, inside `depth` lists and objects. The fuel bounds the number of
nested and repeated parts, each of which takes a character of the text. -/
def readValue (limit : Option Nat) : Nat → Nat → Cursor → Except ReadError (Value × Cursor)
  | 0, _, c => c.fail .value
  | fuel + 1, depth, c =>
    match c.rest with
    | '"' :: _ => do
      let (s, next) ← readString c.position (c.rest.length + 1) (c.advance 1) []
      pure (.text s, next)
    | '[' :: _ =>
      let inside := (c.advance 1).skipSpace
      if isFull limit depth then .error (.tooDeep .list)
      else if inside.startsWith "]" then .ok (.list [], inside.advance 1)
      else do
        let (items, next) ← readItems limit fuel (depth + 1) inside
        pure (.list items, next)
    | '\x7b' :: _ =>
      let inside := (c.advance 1).skipSpace
      if isFull limit depth then .error (.tooDeep .object)
      else if inside.startsWith "\x7d" then .ok (.object [], inside.advance 1)
      else do
        let (members, next) ← readMembers limit fuel (depth + 1) inside []
        pure (.object members, next)
    | _ =>
      match words.find? fun w => c.startsWith w.1 with
      | some (w, v) => .ok (v, c.advance w.length)
      | none => readNumber c

/-- The items of a list up to its bracket. -/
def readItems (limit : Option Nat) : Nat → Nat → Cursor → Except ReadError (List Value × Cursor)
  | 0, _, c => c.fail .value
  | fuel + 1, depth, c => do
    let (v, next) ← readValue limit fuel depth c
    let next := next.skipSpace
    match next.rest with
    | ']' :: _ => pure ([v], next.advance 1)
    | ',' :: _ =>
      let (vs, last) ← readItems limit fuel depth (next.advance 1).skipSpace
      pure (v :: vs, last)
    | _ => next.fail .comma

/-- The members of an object up to its brace; a repeated name takes its last value in its first
place. -/
def readMembers (limit : Option Nat) :
    Nat → Nat → Cursor → List (String × Value) → Except ReadError (List (String × Value) × Cursor)
  | 0, _, c, _ => c.fail .propertyName
  | fuel + 1, depth, c, done =>
    match c.rest with
    | '"' :: _ => do
      let (key, next) ← readString c.position (c.rest.length + 1) (c.advance 1) []
      let next := next.skipSpace
      match next.rest with
      | ':' :: _ =>
        let (v, next) ← readValue limit fuel depth (next.advance 1).skipSpace
        let done := Value.assign done key v
        let next := next.skipSpace
        match next.rest with
        | '\x7d' :: _ => pure (done, next.advance 1)
        | ',' :: _ => readMembers limit fuel depth (next.advance 1).skipSpace done
        | _ => next.fail .comma
      | _ => next.fail .colon
    | _ => c.fail .propertyName

end

/-- The value that a whole text denotes, if no more lists and objects than the limit are nested. -/
def readWithin (limit : Option Nat) (s : String) : Except ReadError Value :=
  let cs := s.toList
  match cs with
  | '\ufeff' :: _ => .error (.unexpected .noByteOrderMark 0)
  | _ => do
    let (v, next) ← readValue limit (2 * cs.length + 1) 0 (Cursor.skipSpace ⟨0, cs⟩)
    let next := next.skipSpace
    if next.rest.isEmpty then pure v else next.fail .endOfText

/-- The value that a whole text denotes, however deep lists and objects are nested in it. This is
what is read as long as the stack does not run out. -/
def read (s : String) : Except ReadError Value := readWithin none s

/-- The line and the column of a position, both counted from one. -/
def lineColumn (s : String) (position : Nat) : Nat × Nat :=
  let before := s.toList.take position
  (before.count '\n' + 1, (before.reverse.takeWhile (· != '\n')).length + 1)

def ReadError.message (s : String) : ReadError → String
  | .unexpected what position =>
    let (line, column) := lineColumn s position
    s!"{what.phrase}: line {line} column {column} (char {position})"
  | .tooManyDigits count =>
    s!"Exceeds the limit ({maxDigits} digits) for integer string conversion: value has {count} digits; use sys.set_int_max_str_digits() to increase the limit"
  | .tooDeep what =>
    s!"maximum recursion depth exceeded while decoding {what.phrase} from a unicode string"

/-- Whether a text was given up because of its depth. -/
def ReadError.isTooDeep : ReadError → Bool
  | .tooDeep _ => true
  | _ => false

end NovelGraph.Json
