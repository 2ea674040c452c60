import NovelGraph.Value.Display

/-! Writing values as JSON text. -/
namespace NovelGraph.Json

/-- Numbers are written as in scripts, but with the long names of the infinities. -/
def numberLayout : Decimal.Layout :=
  { Value.numberLayout with infinity := "Infinity", nan := "NaN" }

/-- One character inside a string; only what has to be is escaped. -/
def escapeChar (c : Char) : List Char :=
  if c = '"' then ['\\', '"']
  else if c = '\\' then ['\\', '\\']
  else if c = '\n' then ['\\', 'n']
  else if c = '\r' then ['\\', 'r']
  else if c = '\t' then ['\\', 't']
  else if c = '\x0c' then ['\\', 'f']
  else if c = '\x08' then ['\\', 'b']
  else if c.toNat < 0x20 then '\\' :: 'u' :: Text.hexDigits 4 c.toNat
  else [c]

def writeString (s : String) : String :=
  "\"" ++ String.ofList (s.toList.flatMap escapeChar) ++ "\""

def scalar : Value → String
  | .null => "null"
  | .bool true => "true"
  | .bool false => "false"
  | .int n => toString n
  | .float x => numberLayout.write x
  | .text s => writeString s
  | .list _ => "[]"
  | .object _ => "\x7b\x7d"

/-- A new line, indented by two spaces for each level. -/
def newline (level : Nat) : String := "\n" ++ String.ofList (List.replicate (2 * level) ' ')

mutual

/-- The text of a value that starts `level` levels deep, one item or member a line. -/
def writeAt (level : Nat) : Value → String
  | .list (v :: rest) =>
    "[" ++ newline (level + 1) ++ writeItems (level + 1) (v :: rest) ++ newline level ++ "]"
  | .object (m :: rest) =>
    "\x7b" ++ newline (level + 1) ++ writeMembers (level + 1) (m :: rest) ++ newline level ++ "\x7d"
  | v => scalar v

def writeItems (level : Nat) : List Value → String
  | [] => ""
  | [v] => writeAt level v
  | v :: w :: rest => writeAt level v ++ "," ++ newline level ++ writeItems level (w :: rest)

def writeMembers (level : Nat) : List (String × Value) → String
  | [] => ""
  | [(k, v)] => writeString k ++ ": " ++ writeAt level v
  | (k, v) :: m :: rest =>
    writeString k ++ ": " ++ writeAt level v ++ "," ++ newline level ++ writeMembers level (m :: rest)

end

/-- The text of a value as it is kept in files. -/
def write (v : Value) : String := writeAt 0 v

mutual

/-- The text of a value on one line. -/
def writeLine : Value → String
  | .list items => "[" ++ lineItems items ++ "]"
  | .object members => "\x7b" ++ lineMembers members ++ "\x7d"
  | v => scalar v

def lineItems : List Value → String
  | [] => ""
  | [v] => writeLine v
  | v :: w :: rest => writeLine v ++ ", " ++ lineItems (w :: rest)

def lineMembers : List (String × Value) → String
  | [] => ""
  | [(k, v)] => writeString k ++ ": " ++ writeLine v
  | (k, v) :: m :: rest => writeString k ++ ": " ++ writeLine v ++ ", " ++ lineMembers (m :: rest)

end

end NovelGraph.Json
