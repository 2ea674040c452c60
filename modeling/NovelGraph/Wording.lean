import NovelGraph.Host

/-! The words of the interface in the language of the settings. -/
namespace NovelGraph.Wording

def defaultLanguage : String := "en"

/-- Reads the word files; those that are no data or cannot be opened are left out. -/
def load (limit : Option Nat) (t : Tree) (directory : Path) : Except Fault Members :=
  (t.namesEnding directory ".json").foldlM (fun found name =>
    let file := directory.join name
    match t.readText file with
    | .error (.file _ _) => .ok found
    | .error e => .error e
    | .ok s =>
      match Json.parseWithin limit s with
      | .ok v => .ok (Value.assign found file.stem v)
      | .error (.unreadable _ (.unexpected _ _)) => .ok found
      | .error e => .error e) []

def language : HostM Value := Host.setting "language" (.text defaultLanguage)

/-- The words of all languages, which are read when there are none yet. -/
def all : HostM Members := do
  let h ← get
  if h.words.isEmpty then
    let words ← Host.ofExcept (load h.limit h.disk h.wordDirectory)
    modify fun h => { h with words }
    pure words
  else pure h.words

/-- What a language has under a key, unless that is empty. -/
def inLanguage? (words : Members) (language key : String) : Except Fault (Option Value) :=
  match Value.lookup words language with
  | none => .ok none
  | some table => do
    let ms ← table.members "get"
    pure ((Value.lookup ms key).filter (·.isTruthy))

/-- The words under a key: in the language of the settings, else in the default language, else
as given. -/
def phrase (key default : String) : HostM Value := do
  let language ← language
  let words ← all
  Host.ofExcept language.requireKey
  let own ← match language with
    | .text l => Host.ofExcept (inLanguage? words l key)
    | _ => pure none
  match own with
  | some v => pure v
  | none =>
    match ← Host.ofExcept (inLanguage? words defaultLanguage key) with
    | some v => pure v
    | none => pure (.text (if default.isEmpty then key else default))

/-- Forgets the words, after a look whether they can be read. -/
def reload : HostM Unit := do
  modify fun h => { h with words := [] }
  let h ← get
  discard (Host.ofExcept (load h.limit h.disk h.wordDirectory))

def setLanguage (v : Value) : HostM Unit := modify fun h => { h with language := v }

end NovelGraph.Wording
