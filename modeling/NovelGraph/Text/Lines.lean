/-! Texts cut at a separator, and small replacements. -/
namespace NovelGraph.Text

/-- The pieces of a text between the occurrences of a character; there is always at least one. -/
def splitList (separator : Char) : List Char → List (List Char)
  | [] => [[]]
  | c :: rest =>
    if c = separator then [] :: splitList separator rest
    else match splitList separator rest with
      | [] => [[c]]
      | piece :: others => (c :: piece) :: others

def split (separator : Char) (s : String) : List String :=
  (splitList separator s.toList).map String.ofList

def lines (s : String) : List String := split '\n' s

/-- The lines of a text, each with the newline that ends it. -/
def keepLines (cs : List Char) : List String :=
  match splitList '\n' cs with
  | [] => []
  | first :: rest => go first rest
where
  go (line : List Char) : List (List Char) → List String
    | [] => if line.isEmpty then [] else [String.ofList line]
    | next :: rest => String.ofList (line ++ ['\n']) :: go next rest

theorem splitList_ne_nil (separator : Char) (cs : List Char) : splitList separator cs ≠ [] := by
  cases cs with
  | nil => simp [splitList]
  | cons c rest =>
    unfold splitList
    split
    · simp
    · split <;> simp

/-- Writes every occurrence of a character as the given characters. -/
def replaceChar (c : Char) (by_ : List Char) (s : String) : String :=
  String.ofList (s.toList.flatMap fun d => if d = c then by_ else [d])

/-- Where a word first occurs, counted in characters. -/
def find? (word : List Char) : List Char → Option Nat
  | [] => if word.isEmpty then some 0 else none
  | c :: rest => if word.isPrefixOf (c :: rest) then some 0 else (find? word rest).map (· + 1)

def contains (s word : String) : Bool := (find? word.toList s.toList).isSome

def startsWith (s word : String) : Bool := word.toList.isPrefixOf s.toList

def endsWith (s word : String) : Bool := word.toList.isSuffixOf s.toList

/-- The texts one after the other. -/
def concat (parts : List String) : String := parts.foldr (· ++ ·) ""

end NovelGraph.Text
