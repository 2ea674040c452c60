import NovelGraph.Number
import NovelGraph.Script.Statement

/-! Names, texts and expressions that are made of values of any kind. -/
namespace NovelGraph.Script

/-- A name of a variable; empty values have a name in common. -/
def normalizeValue : Value → Except Fault String
  | .text s => .ok (normalize s)
  | v => if v.isTruthy then .error (.noPart v.kindName "replace") else .ok (normalize "")

def escapeValue : Value → Except Fault String
  | .text s => .ok (escapeQuotes s)
  | v => .error (.noPart v.kindName "replace")

/-- An expression for a value. A number stays as it is, as long as it is not too large for one. -/
def expressionValue (v : Value) : Except Fault Value :=
  match v, v.number? with
  | .text s, _ => .ok (.text (expression s))
  | _, some n => do
    if v.isTruthy then
      discard n.toDouble
      pure v
    else pure (.text (expression ""))
  | _, none =>
    if v.isTruthy then
      .error (.wrongKind
        s!"float() argument must be a string or a real number, not '{v.kindName}'")
    else .ok (.text (expression ""))

end NovelGraph.Script
