import NovelGraph.Format.Number
import NovelGraph.Value.Part

/-! Texts with gaps in braces. A gap names what fills it and may say how that is laid out; a brace
that is meant as such is written twice. -/
namespace NovelGraph

/-- A gap: the path to what fills it, a conversion into a text, and a layout, which may have gaps of
its own. -/
structure Gap where
  path : List Char
  conversion : Option Char := none
  layout : List Char := []
deriving Repr

namespace Template

inductive Problem where
  | loneOpen
  | loneClose
  | openInPath
  | unclosed
  | unclosedLayout
  | noConversion
  | afterConversion
  | unknownConversion (c : Char)
  | unclosedItem
  | emptyStep
  | afterItem
  | tooDeep
deriving DecidableEq, Repr

def Problem.message : Problem → String
  | .loneOpen => "Single '\x7b' encountered in format string"
  | .loneClose => "Single '\x7d' encountered in format string"
  | .openInPath => "unexpected '\x7b' in field name"
  | .unclosed => "expected '\x7d' before end of string"
  | .unclosedLayout => "unmatched '\x7b' in format spec"
  | .noConversion => "end of string while looking for conversion specifier"
  | .afterConversion => "expected ':' after conversion specifier"
  | .unknownConversion c =>
    "Unknown conversion specifier " ++ (if c.toNat = 127 then "\\x7f" else Format.shown c)
  | .unclosedItem => "Missing ']' in format string"
  | .emptyStep => "Empty attribute in format string"
  | .afterItem => "Only '.' or '[' may follow ']' in format field specifier"
  | .tooDeep => "Max string recursion exceeded"

/-- The path at the head of a gap, the mark that ends it, and the rest. Inside brackets no mark
counts. -/
def takePath (inBrackets : Bool) : List Char → Except Problem (List Char × Char × List Char)
  | [] => .error .unclosed
  | c :: rest =>
    let more (inBrackets : Bool) : Except Problem (List Char × Char × List Char) := do
      let (path, mark, rest) ← takePath inBrackets rest
      pure (c :: path, mark, rest)
    if inBrackets then more (c != ']')
    else if c = '\x7b' then .error .openInPath
    else if c = '\x7d' || c = ':' || c = '!' then .ok ([], c, rest)
    else more (c == '[')

/-- The layout at the head of a text, up to the brace that closes the gap, and the rest. -/
def takeLayout : Nat → List Char → Except Problem (List Char × List Char)
  | _, [] => .error .unclosedLayout
  | 0, '\x7d' :: rest => .ok ([], rest)
  | depth, c :: rest => do
    let depth := if c = '\x7b' then depth + 1 else if c = '\x7d' then depth - 1 else depth
    let (layout, rest) ← takeLayout depth rest
    pure (c :: layout, rest)

/-- The gap behind an opening brace, and the rest. -/
def takeGap (cs : List Char) : Except Problem (Gap × List Char) := do
  let (path, mark, rest) ← takePath false cs
  let withLayout (conversion : Option Char) (rest : List Char) : Except Problem (Gap × List Char) := do
    let (layout, rest) ← takeLayout 0 rest
    pure ({ path, conversion, layout }, rest)
  if mark = '\x7d' then pure ({ path }, rest)
  else if mark = ':' then withLayout none rest
  else match rest with
    | [] => .error .noConversion
    | c :: '\x7d' :: rest => pure ({ path, conversion := some c }, rest)
    | c :: ':' :: rest => withLayout (some c) rest
    | [c] => withLayout (some c) []
    | _ => .error .afterConversion

/-- A template is made of characters and gaps, up to the first thing that is wrong with it. -/
inductive Piece where
  | char (c : Char)
  | gap (g : Gap)
  | wrong (p : Problem)

/-- The pieces of a template that is no longer than `fuel`. -/
def pieces : Nat → List Char → List Piece
  | 0, _ => []
  | _, [] => []
  | fuel + 1, '\x7b' :: '\x7b' :: rest => .char '\x7b' :: pieces fuel rest
  | fuel + 1, '\x7d' :: '\x7d' :: rest => .char '\x7d' :: pieces fuel rest
  | _ + 1, '\x7d' :: _ => [.wrong .loneClose]
  | _ + 1, ['\x7b'] => [.wrong .loneOpen]
  | fuel + 1, '\x7b' :: rest =>
    match takeGap rest with
    | .ok (g, rest) => .gap g :: pieces fuel rest
    | .error p => [.wrong p]
  | fuel + 1, c :: rest => .char c :: pieces fuel rest

def refuse {α : Type} (p : Problem) : Except Fault α := .error (.invalid p.message)

/-- The number that a text of decimal digits stands for. -/
def index? (cs : List Char) : Except Fault (Option Nat) := do
  match ← Format.takeNumber cs with
  | (n, []) => pure n
  | _ => pure none

/-- Follows the steps of a path, of which there are no more than `fuel`: parts behind points, items
and members in brackets. -/
def follow : Nat → Part → List Char → Except Fault Part
  | 0, p, _ => .ok p
  | _, p, [] => .ok p
  | fuel + 1, p, '.' :: rest => do
    let isName (c : Char) : Bool := c != '.' && c != '['
    let name := rest.takeWhile isName
    if name.isEmpty then refuse .emptyStep
    else follow fuel (← p.named (String.ofList name)) (rest.dropWhile isName)
  | fuel + 1, p, '[' :: rest => do
    match rest.dropWhile (· != ']') with
    | [] => refuse .unclosedItem
    | _ :: after =>
      let key := rest.takeWhile (· != ']')
      match ← index? key with
      | some n => follow fuel (← p.item n) after
      | none =>
        if key.isEmpty then refuse .emptyStep
        else follow fuel (← p.member (String.ofList key)) after
  | _, _, _ => refuse .afterItem

/-- What a path leads to. It begins with a name; gaps without a name or with a number have nothing
to fill them. -/
def resolve (values : List (String × Value)) (path : List Char) : Except Fault Part := do
  let isName (c : Char) : Bool := c != '.' && c != '['
  let name := path.takeWhile isName
  match ← index? name with
  | some n => .error (.outOfRange n)
  | none =>
    if name.isEmpty then .error (.outOfRange 0)
    else match values.lookup (String.ofList name) with
      | none => .error (.missing (.text (String.ofList name)))
      | some v => follow path.length (.value v) (path.dropWhile isName)

/-- A text with every character outside ASCII by its number. -/
def asciiOnly (s : String) : String :=
  String.ofList (s.toList.flatMap fun c =>
    if c.toNat < 128 then [c]
    else if c.toNat ≤ 0xff then '\\' :: 'x' :: Text.hexDigits 2 c.toNat
    else if c.toNat ≤ 0xffff then '\\' :: 'u' :: Text.hexDigits 4 c.toNat
    else '\\' :: 'U' :: Text.hexDigits 8 c.toNat)

def convert (p : Part) : Option Char → Except Fault Part
  | none => .ok p
  | some 'r' => .ok (.text p.literal)
  | some 's' => .ok (.text p.display)
  | some 'a' => .ok (.text (asciiOnly p.literal))
  | some c => refuse (.unknownConversion c)

/-- Only values are laid out; other parts stand as they are displayed. -/
def layOut (p : Part) (layout : List Char) : Except Fault (List Char) :=
  match p with
  | .value v => v.format layout
  | p =>
    if layout.isEmpty then .ok p.display.toList
    else .error (.wrongKind s!"unsupported format string passed to {p.kindOf.name}.__format__")

/-- Fills the gaps of a template and, up to a depth, those in their layouts. -/
def fillChars (values : List (String × Value)) : Nat → List Char → Except Fault (List Char)
  | 0, _ => refuse .tooDeep
  | depth + 1, template =>
    (pieces template.length template).foldlM
      (fun done piece =>
        match piece with
        | .char c => .ok (done ++ [c])
        | .wrong p => refuse p
        | .gap g => do
          let part ← convert (← resolve values g.path) g.conversion
          let layout ← if '\x7b' ∈ g.layout then fillChars values depth g.layout else pure g.layout
          pure (done ++ (← layOut part layout)))
      []

/-- Fills the gaps of a template. Gaps in layouts have no layouts with gaps. -/
def fill (values : List (String × Value)) (template : String) : Except Fault String := do
  pure (String.ofList (← fillChars values 2 template.toList))

end Template
end NovelGraph
