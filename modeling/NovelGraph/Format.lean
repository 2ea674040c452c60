import NovelGraph.Fault
import NovelGraph.Text.Digit

/-! How a value is laid out in a gap of a text: its fill and width, its sign, the grouping of its
digits, its precision and its presentation. -/
namespace NovelGraph

/-- Where a value stands in a wider gap. -/
inductive Align where
  | left
  | right
  | center
  /-- The fill stands between the sign and the digits. -/
  | inner
deriving DecidableEq, Repr

def Align.ofChar? : Char → Option Align
  | '<' => some .left
  | '>' => some .right
  | '^' => some .center
  | '=' => some .inner
  | _ => none

structure Format where
  fill : Char := ' '
  align : Align
  sign : Option Char := none
  /-- A negative number that is rounded to zero loses its sign. -/
  unsignedZero : Bool := false
  alternate : Bool := false
  width : Option Nat := none
  separator : Option Char := none
  precision : Option Nat := none
  /-- The letter for the presentation. -/
  mode : Option Char := none
deriving DecidableEq, Repr

namespace Format

/-- What can be wrong with a layout. -/
inductive Problem where
  | tooManyDigits
  | bothSeparators
  | noPrecision
  | unreadable (spec kind : String)
  | noSeparator (separator mode : Char)
  | unknownMode (mode : Char) (kind : String)
  | textSign
  | textSpace
  | textZero
  | textAlternate
  | textInner
  | integerPrecision
  | integerZero
  | characterSign
  | characterAlternate
  | precisionTooBig
deriving DecidableEq, Repr

/-- A character in a message, by its number if it is not a visible one of ASCII. -/
def shown (c : Char) : String :=
  if 32 < c.toNat ∧ c.toNat < 128 then String.singleton c
  else "\\x" ++ String.ofList (Nat.toDigits 16 c.toNat)

def Problem.message : Problem → String
  | .tooManyDigits => "Too many decimal digits in format string"
  | .bothSeparators => "Cannot specify both ',' and '_'."
  | .noPrecision => "Format specifier missing precision"
  | .unreadable spec kind => s!"Invalid format specifier '{spec}' for object of type '{kind}'"
  | .noSeparator separator mode => s!"Cannot specify '{separator}' with '{shown mode}'."
  | .unknownMode mode kind => s!"Unknown format code '{shown mode}' for object of type '{kind}'"
  | .textSign => "Sign not allowed in string format specifier"
  | .textSpace => "Space not allowed in string format specifier"
  | .textZero => "Negative zero coercion (z) not allowed in string format specifier"
  | .textAlternate => "Alternate form (#) not allowed in string format specifier"
  | .textInner => "'=' alignment not allowed in string format specifier"
  | .integerPrecision => "Precision not allowed in integer format specifier"
  | .integerZero => "Negative zero coercion (z) not allowed in integer format specifier"
  | .characterSign => "Sign not allowed with integer format specifier 'c'"
  | .characterAlternate => "Alternate form (#) not allowed with integer format specifier 'c'"
  | .precisionTooBig => "precision too big"

def refuse {α : Type} (p : Problem) : Except Fault α := .error (.invalid p.message)

/-- Numbers in a layout are below `2 ^ 63`. -/
def numberLimit : Nat := Nat.pow 2 63

/-- The number that the decimal digits at the head of a text stand for, if there are any, and what
follows them. -/
def takeNumber (cs : List Char) : Except Fault (Option Nat × List Char) :=
  let digits := (cs.takeWhile (Text.decimalDigit? · |>.isSome)).filterMap Text.decimalDigit?
  let n := digits.foldl (fun n d => 10 * n + d) 0
  if numberLimit ≤ n then refuse .tooManyDigits
  else .ok (if digits.isEmpty then none else some n, cs.drop digits.length)

/-- The fill and the alignment at the head of a layout. -/
def takeAlign (cs : List Char) : Option Char × Option Align × List Char :=
  let single : Option Char × Option Align × List Char :=
    match cs with
    | a :: rest =>
      match Align.ofChar? a with
      | some align => (none, some align, rest)
      | none => (none, none, cs)
    | [] => (none, none, [])
  match cs with
  | fill :: a :: rest =>
    match Align.ofChar? a with
    | some align => (some fill, some align, rest)
    | none => single
  | _ => single

/-- The first character, if it is one of the given. -/
def takeOne (marks : List Char) : List Char → Option Char × List Char
  | c :: rest => if c ∈ marks then (some c, rest) else (none, c :: rest)
  | [] => (none, [])

def takePrecision (cs : List Char) : Except Fault (Option Nat × List Char) :=
  match cs with
  | '.' :: rest => do
    match ← takeNumber rest with
    | (none, _) => refuse .noPrecision
    | found => pure found
  | _ => .ok (none, cs)

/-- One of the separators, if it is the only one. -/
def takeSeparator (cs : List Char) : Except Fault (Option Char × List Char) :=
  match cs with
  | ',' :: '_' :: _ => refuse .bothSeparators
  | '_' :: ',' :: _ => refuse .bothSeparators
  | ',' :: rest => .ok (some ',', rest)
  | '_' :: rest => .ok (some '_', rest)
  | _ => .ok (none, cs)

/-- Separators go with decimal presentations, the underscore also with the binary ones. -/
def separates (separator : Char) : Option Char → Bool
  | none => true
  | some mode =>
    mode ∈ ['d', 'e', 'f', 'g', 'E', 'G', '%', 'F'] ||
      (separator == '_' && mode ∈ ['b', 'o', 'x', 'X'])

/-- Reads a layout for a value of a kind, with what holds for the kind where nothing is said. A zero
before the width fills with zeros, behind the sign if numbers stand on the right. -/
def read (spec : List Char) (kind : String) (align : Align) (mode : Option Char) :
    Except Fault Format := do
  let (fill?, align?, cs) := takeAlign spec
  let (sign, cs) := takeOne ['+', '-', ' '] cs
  let (z, cs) := takeOne ['z'] cs
  let (alternate, cs) := takeOne ['#'] cs
  let (zero, cs) := if fill?.isNone then takeOne ['0'] cs else (none, cs)
  let (width, cs) ← takeNumber cs
  let (separator, cs) ← takeSeparator cs
  let (precision, cs) ← takePrecision cs
  let mode ← match cs with
    | [] => pure mode
    | [c] => pure (some c)
    | _ => refuse (.unreadable (String.ofList spec) kind)
  match separator with
  | some s => if !separates s mode then refuse (.noSeparator s (mode.getD 's'))
  | none => pure ()
  pure {
    fill := fill?.getD (if zero.isSome then '0' else ' ')
    align := align?.getD (if zero.isSome && align = .right then .inner else align)
    sign, unsignedZero := z.isSome, alternate := alternate.isSome, width, separator, precision, mode }

/-- Widths from here on are more than can be held. -/
def widthLimit : Nat := Nat.pow 2 36

/-- The fill before, inside and behind a value of the given size. -/
def padding (f : Format) (size : Nat) : Except Fault (List Char × List Char × List Char) :=
  match f.width with
  | none => .ok ([], [], [])
  | some width =>
    if widthLimit ≤ width then .error .tooLong
    else
      let n := width - size
      let fill (n : Nat) := List.replicate n f.fill
      .ok (match f.align with
        | .left => ([], [], fill n)
        | .right => (fill n, [], [])
        | .center => (fill (n / 2), [], fill (n - n / 2))
        | .inner => ([], fill n, []))

/-- Lays out a text. A precision cuts it. -/
def text (f : Format) (cs : List Char) : Except Fault (List Char) := do
  match f.sign with
  | some ' ' => refuse .textSpace
  | some _ => refuse .textSign
  | none => pure ()
  if f.unsignedZero then refuse .textZero
  if f.alternate then refuse .textAlternate
  if f.align = .inner then refuse .textInner
  let cs := match f.precision with
    | some n => cs.take n
    | none => cs
  let (before, _, behind) ← f.padding cs.length
  pure (before ++ cs ++ behind)

end Format
end NovelGraph
