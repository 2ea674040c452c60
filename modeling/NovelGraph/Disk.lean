import NovelGraph.Disk.Path
import NovelGraph.Disk.Utf8

/-! Files and directories as a value. -/
namespace NovelGraph

/-- What a file holds: a text, or bytes that are none. -/
inductive Content where
  | text (s : String)
  | raw (bytes : List UInt8)
deriving DecidableEq, Repr

def Content.ofBytes (bytes : List UInt8) : Content :=
  match Utf8.decode bytes with
  | .ok s => .text s
  | .error _ => .raw bytes

inductive Entry where
  | directory
  | file (content : Content)
deriving DecidableEq, Repr

/-- Line ends of every sort as plain newlines. -/
def unifyNewlines : List Char → List Char
  | '\r' :: '\n' :: rest => '\n' :: unifyNewlines rest
  | '\r' :: rest => '\n' :: unifyNewlines rest
  | c :: rest => c :: unifyNewlines rest
  | [] => []

/-- A file tree: what lies at each place, a place being the names that lead to it from the root. -/
structure Tree where
  entries : List (List String × Entry) := []
deriving Repr, Inhabited

namespace Tree

def get? (t : Tree) (place : List String) : Option Entry :=
  if place.isEmpty then some .directory
  else (t.entries.find? (·.1 == place)).map (·.2)

def erase (t : Tree) (place : List String) : Tree :=
  ⟨t.entries.filter fun e => e.1 != place⟩

def put (t : Tree) (place : List String) (e : Entry) : Tree :=
  ⟨(t.erase place).entries ++ [(place, e)]⟩

/-- Walks from a place along names; every step but the last has to start in a directory. -/
def walk (t : Tree) (place : List String) : List String → Except FileProblem (List String)
  | [] => .ok place
  | part :: rest =>
    match t.get? place with
    | none => .error .noEntry
    | some (.file _) => .error .notDirectory
    | some .directory => walk t (if part = ".." then place.dropLast else place ++ [part]) rest

def locate (t : Tree) (p : Path) : Except FileProblem (List String) := t.walk [] p.parts

def at? (t : Tree) (p : Path) : Option Entry :=
  match t.locate p with
  | .ok place => t.get? place
  | .error _ => none

def exists? (t : Tree) (p : Path) : Bool := (t.at? p).isSome

def isDirectory (t : Tree) (p : Path) : Bool :=
  match t.at? p with
  | some .directory => true
  | _ => false

def isFile (t : Tree) (p : Path) : Bool :=
  match t.at? p with
  | some (.file _) => true
  | _ => false

def located (t : Tree) (p : Path) : Except Fault (List String) :=
  match t.locate p with
  | .ok place => .ok place
  | .error problem => .error (.file problem p.text)

/-- The text of a file with plain newlines. -/
def readText (t : Tree) (p : Path) : Except Fault String := do
  match t.get? (← t.located p) with
  | none => .error (.file .noEntry p.text)
  | some .directory => .error (.file .isDirectory p.text)
  | some (.file (.raw bytes)) =>
    match Utf8.decode bytes with
    | .error e => .error (.notUtf8 e)
    | .ok s => pure (String.ofList (unifyNewlines s.toList))
  | some (.file (.text s)) => pure (String.ofList (unifyNewlines s.toList))

/-- How much of a file is read at a time. -/
def pieceSize : Nat := 8192

/-- The bytes that are decoded before an error in them is met. -/
def readBefore (bytes : List UInt8) (e : EncodingError) : List UInt8 :=
  match e.reason with
  | .truncated => bytes
  | .badStart => bytes.take (e.first / pieceSize * pieceSize)
  | .badTail => bytes.take ((e.last + 1) / pieceSize * pieceSize)

/-- The lines of a file, with their ends, as far as they can be read, and whether that is all. -/
def readLines (t : Tree) (p : Path) : List String × Bool :=
  match t.at? p with
  | some (.file (.text s)) => (Text.keepLines (unifyNewlines s.toList), true)
  | some (.file (.raw bytes)) =>
    match Utf8.decode bytes with
    | .ok s => (Text.keepLines (unifyNewlines s.toList), true)
    | .error e =>
      let start := (Utf8.decodeStart (readBefore bytes e)).toList
      let start := if start.getLast? = some '\r' then start.dropLast else start
      ((Text.keepLines (unifyNewlines start)).filter (Text.endsWith · "\n"), false)
  | _ => ([], false)

/-- Writes a file, in the place of the one that is there. -/
def writeText (t : Tree) (p : Path) (s : String) : Except Fault Tree := do
  let place ← t.located p
  match t.get? place with
  | some .directory => .error (.file .isDirectory p.text)
  | some (.file _) => pure (t.put place (.file (.text s)))
  | none =>
    match t.get? place.dropLast with
    | some .directory => pure (t.put place (.file (.text s)))
    | some (.file _) => .error (.file .notDirectory p.text)
    | none => .error (.file .noEntry p.text)

/-- Makes the directories that a walk still needs. -/
def makeAlong (t : Tree) (place : List String) : List String → Except FileProblem Tree
  | [] =>
    match t.get? place with
    | some (.file _) => .error .exists
    | _ => .ok t
  | part :: rest =>
    match t.get? place with
    | some (.file _) => .error .notDirectory
    | _ =>
      let next := if part = ".." then place.dropLast else place ++ [part]
      let t := if (t.get? next).isNone then t.put next .directory else t
      makeAlong t next rest

/-- Makes a directory and those above it, unless they are there. -/
def makeDirectory (t : Tree) (p : Path) : Except Fault Tree :=
  match makeAlong t [] p.parts with
  | .ok t => .ok t
  | .error problem => .error (.file problem p.text)

/-- Removes a file. -/
def unlink (t : Tree) (p : Path) : Except Fault Tree := do
  let place ← t.located p
  match t.get? place with
  | none => .error (.file .noEntry p.text)
  | some .directory => .error (.file .isDirectory p.text)
  | some (.file _) => pure (t.erase place)

/-- Moves a file to a name that is free or names a file. -/
def rename (t : Tree) (p q : Path) : Except Fault Tree := do
  let source ← t.located p
  let target ← t.located q
  match t.get? source, t.get? target with
  | none, _ => .error (.file .noEntry p.text)
  | some _, some .directory => .error (.file .isDirectory p.text)
  | some e, _ => pure ((t.erase source).put target e)

/-- The names in a directory. -/
def names (t : Tree) (p : Path) : List String :=
  match t.locate p with
  | .ok place =>
    t.entries.filterMap fun e =>
      if e.1.dropLast == place && !e.1.isEmpty then e.1.getLast? else none
  | .error _ => []

/-- The names in a directory that end in a given way. -/
def namesEnding (t : Tree) (p : Path) (ending : String) : List String :=
  if t.isDirectory p then (t.names p).filter (Text.endsWith · ending) else []

/-- The files below a place, by their names from there. -/
def filesBelow (t : Tree) (place : List String) : List (String × Content) :=
  t.entries.filterMap fun e =>
    match e.2 with
    | .file c =>
      if place.isPrefixOf e.1 then some ("/".intercalate (e.1.drop place.length), c) else none
    | .directory => none

end Tree

/-- Work on a file tree that can fail; what was done before a failure stays done. -/
abbrev DiskM := EStateM Fault Tree

namespace Disk

def change (f : Tree → Except Fault Tree) : DiskM Unit := fun t =>
  match f t with
  | .ok t => .ok () t
  | .error e => .error e t

def ask {α : Type} (f : Tree → Except Fault α) : DiskM α := fun t =>
  match f t with
  | .ok a => .ok a t
  | .error e => .error e t

def makeDirectory (p : Path) : DiskM Unit := change (·.makeDirectory p)

def writeText (p : Path) (s : String) : DiskM Unit := change (·.writeText p s)

end Disk
end NovelGraph
