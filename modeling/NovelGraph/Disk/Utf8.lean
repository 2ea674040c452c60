import NovelGraph.Fault

/-! Decoding UTF-8, with the place and the reason of the first error. -/
namespace NovelGraph.Utf8

def isTail (b : Nat) : Bool := decide (0x80 ≤ b) && decide (b ≤ 0xbf)

/-- How many bytes follow a first byte, and which values the next one may have. -/
def following (b : Nat) : Option (Nat × Nat × Nat) :=
  if b < 0x80 then some (0, 0, 0)
  else if b < 0xc2 then none
  else if b < 0xe0 then some (1, 0x80, 0xbf)
  else if b = 0xe0 then some (2, 0xa0, 0xbf)
  else if b = 0xed then some (2, 0x80, 0x9f)
  else if b < 0xf0 then some (2, 0x80, 0xbf)
  else if b = 0xf0 then some (3, 0x90, 0xbf)
  else if b < 0xf4 then some (3, 0x80, 0xbf)
  else if b = 0xf4 then some (3, 0x80, 0x8f)
  else none

/-- How many of the bytes that have to follow do so. -/
def validTails (count low high : Nat) : List Nat → Nat
  | [] => 0
  | b :: rest =>
    if 0 < count ∧ low ≤ b ∧ b ≤ high then 1 + validTails (count - 1) 0x80 0xbf rest else 0

/-- The bits of the first byte that belong to the code point. -/
def leadBits (b count : Nat) : Nat :=
  match count with
  | 0 => b
  | 1 => b % 0x20
  | 2 => b % 0x10
  | _ => b % 0x08

def decodeFrom : Nat → Nat → List Nat → Except EncodingError (List Char)
  | 0, _, _ => .ok []
  | _ + 1, _, [] => .ok []
  | fuel + 1, position, b :: rest =>
    match following b with
    | none => .error ⟨position, position, b.toUInt8, .badStart⟩
    | some (count, low, high) =>
      let good := validTails count low high rest
      if good < count then
        let reason : EncodingProblem := if good = rest.length then .truncated else .badTail
        .error ⟨position, position + good, b.toUInt8, reason⟩
      else do
        let code := (rest.take count).foldl (fun n t => n * 0x40 + t % 0x40) (leadBits b count)
        let more ← decodeFrom fuel (position + 1 + count) (rest.drop count)
        pure (Char.ofNat code :: more)

def decode (bytes : List UInt8) : Except EncodingError String := do
  pure (String.ofList (← decodeFrom (bytes.length + 1) 0 (bytes.map (·.toNat))))

/-- The text up to the first error. -/
def decodeStart (bytes : List UInt8) : String :=
  match decode bytes with
  | .ok s => s
  | .error e => ((decode (bytes.take e.first)).toOption).getD ""

end NovelGraph.Utf8
