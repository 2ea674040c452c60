import NovelGraph.Text.Blank
import NovelGraph.Text.Digit

/-! Texts that read as a number. -/
namespace NovelGraph.Decimal

/-- The characters of a text as the number grammar sees them: digits of every script as the ten
ASCII digits, white space outside ASCII as a space. -/
def asciiForm (c : Char) : Char :=
  if c.toNat < 127 then c
  else if Text.isBlank c then ' '
  else match Text.decimalDigit? c with
    | some d => Char.ofNat ('0'.toNat + d)
    | none => '?'

def isSpace (c : Char) : Bool := c == ' ' || (decide ('\t' ≤ c) && decide (c ≤ '\r'))

/-- Drops underscores, each of which has to stand between two digits. -/
def dropUnderscores : Char → List Char → Option (List Char)
  | before, [] => if before == '_' then none else some []
  | before, c :: rest =>
    if c == '_' then if before.isDigit then dropUnderscores c rest else none
    else if before == '_' && !c.isDigit then none
    else (dropUnderscores c rest).map (c :: ·)

def dropSign : List Char → List Char
  | '+' :: rest => rest
  | '-' :: rest => rest
  | cs => cs

/-- Nothing, or an exponent mark with a whole number after it. -/
def isExponent : List Char → Bool
  | [] => true
  | c :: rest =>
    let ds := dropSign rest
    (c == 'e' || c == 'E') && !ds.isEmpty && ds.all Char.isDigit

/-- Digits with at most one point among them, and an exponent. -/
def isDecimal (cs : List Char) : Bool :=
  let whole := cs.takeWhile Char.isDigit
  match cs.dropWhile Char.isDigit with
  | '.' :: rest =>
    (!whole.isEmpty || !(rest.takeWhile Char.isDigit).isEmpty) && isExponent (rest.dropWhile Char.isDigit)
  | rest => !whole.isEmpty && isExponent rest

def isNumberWord (cs : List Char) : Bool :=
  let w := String.ofList (cs.map Char.toLower)
  w == "inf" || w == "infinity" || w == "nan"

/-- Whether a text reads as a number: white space around it, a sign, digits with single underscores
between them, a point and an exponent, or one of the words for infinity and not-a-number. -/
def isNumber (s : String) : Bool :=
  match dropUnderscores ' ' (Text.trimList isSpace (s.toList.map asciiForm)) with
  | none => false
  | some cs => isDecimal (dropSign cs) || isNumberWord (dropSign cs)

end NovelGraph.Decimal
