import NovelGraph.Script.Statement

/-! Control statements with their suites. -/
namespace NovelGraph.Script

/-- A suite of a control statement; an empty one says `pass`. -/
def body (indent text : String) : String :=
  if text.isEmpty then indent ++ indentation ++ "pass\n" else suite indent text

/-- A conditional; without a condition there is no statement, and the second branch only counts if
it has text. -/
def conditional (indent : String) (ps : Params) (yes no : String) : String :=
  let condition := param ps "condition"
  if condition.isEmpty then ""
  else
    indent ++ "if " ++ condition ++ ":\n" ++ body indent yes ++
      (if no.isEmpty then "" else indent ++ "else:\n" ++ suite indent no)

def whileLoop (indent : String) (ps : Params) (text : String) : String :=
  let condition := param ps "condition"
  if condition.isEmpty then "" else indent ++ "while " ++ condition ++ ":\n" ++ body indent text

def forLoop (indent : String) (ps : Params) (text : String) : String :=
  let name := param ps "variable"
  let items := param ps "iterable"
  if name.isEmpty || items.isEmpty then ""
  else indent ++ "for " ++ name ++ " in " ++ items ++ ":\n" ++ body indent text

end NovelGraph.Script
