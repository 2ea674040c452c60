import NovelGraph.Decimal.Shortest
import NovelGraph.Text.Quoted
import NovelGraph.Value

/-! The text of a value, as it appears in scripts and messages. -/
namespace NovelGraph.Value

/-- Up to sixteen digits stand before the point and up to three zeros behind it; beyond that an
exponent of two digits or more is written. -/
def numberLayout : Decimal.Layout where
  positional p := decide (-4 < p) && decide (p ≤ 16)
  exponentWidth := 2
  infinity := "inf"
  nan := "nan"

mutual

/-- The text of a value inside another one: texts are quoted. -/
def literal : Value → String
  | .null => "None"
  | .bool true => "True"
  | .bool false => "False"
  | .int n => toString n
  | .float x => numberLayout.write x
  | .text s => Text.quote s
  | .list items => "[" ++ literalItems items ++ "]"
  | .object members => "\x7b" ++ literalMembers members ++ "\x7d"

def literalItems : List Value → String
  | [] => ""
  | [v] => v.literal
  | v :: w :: rest => v.literal ++ ", " ++ literalItems (w :: rest)

def literalMembers : List (String × Value) → String
  | [] => ""
  | [(k, v)] => Text.quote k ++ ": " ++ v.literal
  | (k, v) :: m :: rest => Text.quote k ++ ": " ++ v.literal ++ ", " ++ literalMembers (m :: rest)

end

/-- The text of a value by itself: a text stands for itself. -/
def display : Value → String
  | .text s => s
  | v => v.literal

@[simp] theorem display_text (s : String) : (Value.text s).display = s := rfl

/-- The kind of a value, as messages name it. -/
def kindName : Value → String
  | .null => "NoneType"
  | .bool _ => "bool"
  | .int _ => "int"
  | .float _ => "float"
  | .text _ => "str"
  | .list _ => "list"
  | .object _ => "dict"

end NovelGraph.Value
