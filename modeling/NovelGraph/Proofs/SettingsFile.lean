import NovelGraph.Proofs.FileTree
import NovelGraph.Proofs.JsonDepth
import NovelGraph.Settings

/-! The settings file. Whatever stands in it, loading ends with settings that load again without a
change, unless lists and objects are nested there deeper than can be read; then it fails, and goes
on to fail. Saving is not a single step: the old file is gone before the draft takes its name, and
who loads the settings in between finds none and writes the default ones. -/
namespace NovelGraph.Settings

open Outcome

/-- The settings of a directory. -/
def fileIn (directory : Path) : Path := directory.join fileName

def draftName : String := "editor_config.tmp"

variable {limit : Option ℕ} {directory : Path} {t u made : Tree} {place : List String} {v : Value}
  {old new ms : Members} {e : Fault}

section Names

lemma fileIn_eq (directory : Path) :
    fileIn directory = { directory with parts := directory.parts ++ [fileName] } := rfl

lemma draft_fileIn (directory : Path) :
    draft (fileIn directory) = { directory with parts := directory.parts ++ [draftName] } := by
  have hname : (Path.splitSuffix fileName).1 ++ ".tmp" = draftName := by decide
  simp [draft, fileIn_eq, Path.withSuffix, Path.stem, Path.name, hname]

lemma parent_fileIn (directory : Path) : (fileIn directory).parent = directory := by
  simp [fileIn_eq, Path.parent]

lemma file_ne_draft (place : List String) : place ++ [fileName] ≠ place ++ [draftName] := by
  intro h
  exact absurd (List.append_cancel_left h) (by decide)

end Names

/-- The directory of the settings is there, and in it neither they nor their draft are
directories. -/
structure Ready (directory : Path) (t : Tree) (place : List String) : Prop where
  located : t.locate directory = .ok place
  home : t.get? place = some .directory
  fileFree : t.get? (place ++ [fileName]) ≠ some .directory
  draftFree : t.get? (place ++ [draftName]) ≠ some .directory

namespace Ready

lemma locate_file (h : Ready directory t place) :
    t.locate (fileIn directory) = .ok (place ++ [fileName]) :=
  Tree.walk_append_name (by decide) h.located h.home

lemma locate_draft (h : Ready directory t place) :
    t.locate (draft (fileIn directory)) = .ok (place ++ [draftName]) := by
  rw [draft_fileIn]
  exact Tree.walk_append_name (by decide) h.located h.home

lemma of_directories (h : Ready directory t place)
    (hsame : ∀ other, u.get? other = some .directory ↔ t.get? other = some .directory) :
    Ready directory u place :=
  ⟨Tree.walk_mono (fun other => (hsame other).mpr) h.located, (hsame _).mpr h.home,
    fun hget => h.fileFree ((hsame _).mp hget), fun hget => h.draftFree ((hsame _).mp hget)⟩

lemma makeDirectory_eq (h : Ready directory t place) : t.makeDirectory directory = .ok t :=
  Tree.makeDirectory_eq (Tree.isDirectory_iff.mpr ⟨place, h.located, h.home⟩)

end Ready

lemma exists_ready (hmade : t.makeDirectory directory = .ok made)
    (hfile : made.isDirectory (fileIn directory) = false)
    (hdraft : made.isDirectory (draft (fileIn directory)) = false) :
    ∃ place, Ready directory made place := by
  obtain ⟨hdir, -⟩ := Tree.makeDirectory_eq_ok hmade
  obtain ⟨place, hlocated, hhome⟩ := Tree.isDirectory_iff.mp hdir
  refine ⟨place, hlocated, hhome, fun hget => ?_, fun hget => ?_⟩
  · rw [Bool.eq_false_iff] at hfile
    exact hfile (Tree.isDirectory_iff.mpr
      ⟨_, Tree.walk_append_name (by decide) hlocated hhome, hget⟩)
  · rw [Bool.eq_false_iff, draft_fileIn] at hdraft
    exact hdraft (Tree.isDirectory_iff.mpr
      ⟨_, Tree.walk_append_name (by decide) hlocated hhome, hget⟩)

section Saving

/-- The files when the draft is written. -/
def drafted (place : List String) (v : Value) (t : Tree) : Tree :=
  t.put (place ++ [draftName]) (.file (.text (Json.write v)))

/-- The files when the old settings are removed. -/
def cleared (place : List String) (v : Value) (t : Tree) : Tree :=
  (drafted place v t).erase (place ++ [fileName])

/-- The files when the draft has got the name of the settings. -/
def saved (place : List String) (v : Value) (t : Tree) : Tree :=
  ((cleared place v t).erase (place ++ [draftName])).put (place ++ [fileName])
    (.file (.text (Json.write v)))

/-- The files after so many steps of saving. -/
def stage (place : List String) (v : Value) (t : Tree) : ℕ → Tree
  | 0 | 1 => t
  | 2 => drafted place v t
  | 3 => cleared place v t
  | _ => saved place v t

namespace Ready

variable (h : Ready directory t place)

include h

-- No step of saving makes or removes a directory.

lemma drafted (v : Value) : Ready directory (Settings.drafted place v t) place :=
  h.of_directories (Tree.directory_put h.draftFree _)

lemma cleared (v : Value) : Ready directory (Settings.cleared place v t) place :=
  (h.drafted v).of_directories (Tree.directory_erase (h.drafted v).fileFree)

lemma saved (v : Value) : Ready directory (Settings.saved place v t) place := by
  have herase : Ready directory ((Settings.cleared place v t).erase (place ++ [draftName])) place :=
    (h.cleared v).of_directories (Tree.directory_erase (h.cleared v).draftFree)
  exact herase.of_directories (Tree.directory_put herase.fileFree _)

lemma get?_draft_cleared : (Settings.cleared place v t).get? (place ++ [draftName]) =
    some (.file (.text (Json.write v))) := by
  rw [Settings.cleared, Tree.get?_erase_of_ne (file_ne_draft place).symm]
  exact Tree.get?_put_self (Tree.ne_nil_of_free h.draftFree)

lemma get?_file_saved : (Settings.saved place v t).get? (place ++ [fileName]) =
    some (.file (.text (Json.write v))) :=
  Tree.get?_put_self (Tree.ne_nil_of_free h.fileFree)

lemma exists?_draft_saved :
    (Settings.saved place v t).exists? (draft (fileIn directory)) = false := by
  rw [Tree.exists?, Tree.at?_eq (h.saved v).locate_draft, Settings.saved,
    Tree.get?_put_of_ne (file_ne_draft place).symm,
    Tree.get?_erase_self (Tree.ne_nil_of_free h.draftFree)]
  rfl

end Ready

lemma runSteps_cons {step : Tree → Except Fault Tree} {steps : List (Tree → Except Fault Tree)}
    (h : step t = .ok u) : runSteps (step :: steps) t = runSteps steps u := by
  rw [runSteps, h]

/-- What the steps of saving do where nothing is in their way. -/
theorem Ready.runSteps_take (h : Ready directory t place) (v : Value) (k : ℕ) :
    runSteps ((saveSteps (fileIn directory) v).take k) t = (stage place v t k, none) := by
  have hmake : t.makeDirectory (fileIn directory).parent = .ok t := by
    rw [parent_fileIn, h.makeDirectory_eq]
  have hwrite : t.writeText (draft (fileIn directory)) (Json.write v) =
      .ok (Settings.drafted place v t) :=
    Tree.writeText_of_locate h.locate_draft h.draftFree (by simpa using h.home) _
  have hunlink := Tree.unlink_of_locate (h.drafted v).locate_file (h.drafted v).fileFree
  have hrename := Tree.rename_of_locate (h.cleared v).locate_draft (h.cleared v).locate_file
    h.get?_draft_cleared (h.cleared v).fileFree
  rcases k with _ | _ | _ | _ | k
  · rfl
  · rw [saveSteps, List.take_succ_cons, runSteps_cons hmake]
    rfl
  · rw [saveSteps, List.take_succ_cons, runSteps_cons hmake, List.take_succ_cons,
      runSteps_cons hwrite]
    rfl
  · rw [saveSteps, List.take_succ_cons, runSteps_cons hmake, List.take_succ_cons,
      runSteps_cons hwrite, List.take_succ_cons, runSteps_cons hunlink]
    rfl
  · rw [saveSteps, List.take_succ_cons, runSteps_cons hmake, List.take_succ_cons,
      runSteps_cons hwrite, List.take_succ_cons, runSteps_cons hunlink, List.take_succ_cons,
      runSteps_cons hrename, List.take_nil]
    rfl

lemma Ready.save_eq (h : Ready directory t place) (v : Value) :
    save (fileIn directory) v t = (Settings.saved place v t, "") := by
  have hsteps : runSteps (saveSteps (fileIn directory) v) t = (Settings.saved place v t, none) :=
    h.runSteps_take v 4
  rw [save, hsteps]

/-- Saving begins with the directory. -/
lemma save_of_makeDirectory (hmade : t.makeDirectory directory = .ok made) (v : Value) :
    save (fileIn directory) v t = save (fileIn directory) v made := by
  have hagain : made.makeDirectory directory = .ok made :=
    Tree.makeDirectory_eq (Tree.makeDirectory_eq_ok hmade).1
  rw [← parent_fileIn directory] at hmade hagain
  have hfirst : runSteps (saveSteps (fileIn directory) v) t =
      runSteps (saveSteps (fileIn directory) v).tail made := runSteps_cons hmade
  have hsecond : runSteps (saveSteps (fileIn directory) v) made =
      runSteps (saveSteps (fileIn directory) v).tail made := runSteps_cons hagain
  rw [save, save, hfirst, hsecond]

end Saving

section Reading

lemma isDamage_of_readText {file : Path} (h : t.readText file = .error e) : isDamage e = true := by
  rw [Tree.readText, bind_eq_error] at h
  rcases h with h | ⟨place, -, h⟩
  · unfold Tree.located at h
    split at h
    · cases h
    · cases h
      rfl
  · split at h
    · cases h
      rfl
    · cases h
      rfl
    · split at h
      · cases h
        rfl
      · cases h
    · cases h

/-- Why settings cannot be read: they are damaged, or nested too deep. -/
lemma read_eq_error {file : Path} (h : read limit file t = .error e) :
    isDamage e = true ∨ ∃ text what, t.readText file = .ok text ∧
      Json.readWithin limit text = .error (.tooDeep what) ∧
      e = .unreadable text (.tooDeep what) := by
  rw [read, bind_eq_error] at h
  rcases h with h | ⟨text, htext, h⟩
  · exact .inl (isDamage_of_readText h)
  rcases bind_eq_error.mp h with h | ⟨v, -, h⟩
  · unfold Json.parseWithin at h
    split at h
    · cases h
    · rename_i error herror
      cases h
      cases error with
      | unexpected what position => exact .inl rfl
      | tooManyDigits count => exact .inl rfl
      | tooDeep what => exact .inr ⟨text, what, htext, herror, rfl⟩
  · split at h
    · cases h
    · cases h
      exact .inl rfl

/-- What is nested too deep is not damaged. -/
lemma read_of_deep {file : Path} {text : String} {what : Json.Container}
    (htext : t.readText file = .ok text)
    (hdeep : Json.readWithin limit text = .error (.tooDeep what)) :
    read limit file t = .error (.unreadable text (.tooDeep what)) := by
  have hparse : Json.parseWithin limit text = .error (.unreadable text (.tooDeep what)) := by
    rw [Json.parseWithin, hdeep]
  rw [read, htext, ok_bind, hparse]
  rfl

/-- Within the limit settings are read as without one. -/
lemma read_within {file : Path} (h : read none file t = .ok old)
    (hdeep : ∀ text what, t.readText file = .ok text →
      Json.readWithin limit text ≠ .error (.tooDeep what)) : read limit file t = .ok old := by
  obtain ⟨text, htext, hparse⟩ := bind_eq_ok.mp h
  have hsame : Json.parseWithin limit text = Json.parseWithin none text := by
    rcases Json.readWithin_cases limit text with ⟨hsame, -⟩ | ⟨what, most, hlimit, -⟩
    · rw [Json.parseWithin, Json.parseWithin, hsame]
      rfl
    · exact absurd hlimit (hdeep text what htext)
  rw [read, htext, ok_bind, hsame]
  exact hparse

/-- Settings that were written are read back. -/
lemma Ready.read_eq (h : Ready directory t place) (hplain : Json.isPlain (.object ms) = true)
    (hroom : Json.HasRoom limit 0 (Json.nesting (.object ms)))
    (hget : t.get? (place ++ [fileName]) = some (.file (.text (Json.write (.object ms))))) :
    read limit (fileIn directory) t = .ok ms := by
  have hat : t.at? (fileIn directory) = some (.file (.text (Json.write (.object ms)))) := by
    rw [Tree.at?_eq h.locate_file, hget]
  have hreturn : '\r' ∉ (Json.write (.object ms)).toList := Json.notMem_writeAt _ 0 hplain
  have hparse : Json.parseWithin limit (Json.write (.object ms)) = .ok (.object ms) := by
    rw [Json.parseWithin, Json.readWithin_write hplain hroom]
  rw [read, Tree.readText_of_at? hat, unifyNewlines_eq_self hreturn, String.ofList_toList, ok_bind,
    hparse]
  rfl

lemma load_of_read {file : Path} (h : read limit file t = .ok ms) :
    load limit file t = .ok (ms, t, "") := by
  obtain ⟨text, htext, -⟩ := bind_eq_ok.mp h
  rw [load, if_pos (Tree.exists?_of_isFile (Tree.isFile_of_readText htext)), h]

def warning (e : Fault) : String :=
  s!"Warning: Config file is corrupted ({e.message}). Creating a new one.\n"

lemma load_of_damage {file : Path} (h : read limit file t = .error e) (hdamage : isDamage e = true)
    (hsave : save file (.object default) t = (u, "")) :
    load limit file t = .ok (default, u, if t.exists? file then warning e else "") := by
  unfold load
  cases t.exists? file with
  | false => simp only [hsave, Bool.false_eq_true, if_false]
  | true =>
    have hempty : warning e ++ "" = warning e := String.append_empty
    simp only [h, hsave, hdamage, if_true]
    rw [← hempty]
    rfl

lemma load_of_deep {file : Path} {text : String} {what : Json.Container}
    (htext : t.readText file = .ok text)
    (hdeep : Json.readWithin limit text = .error (.tooDeep what)) :
    load limit file t = .error (.unreadable text (.tooDeep what)) := by
  rw [load, if_pos (Tree.exists?_of_isFile (Tree.isFile_of_readText htext)),
    read_of_deep htext hdeep]
  rfl

end Reading

section Healing

lemma isPlain_default : Json.isPlain (.object default) = true := by decide

lemma nesting_default : Json.nesting (.object default) = 2 := by decide

/-- Settings that were saved load without a change. -/
lemma Ready.load_saved (h : Ready directory t place) (hplain : Json.isPlain (.object ms) = true)
    (hroom : Json.HasRoom limit 0 (Json.nesting (.object ms))) :
    load limit (fileIn directory) (Settings.saved place (.object ms) t) =
      .ok (ms, Settings.saved place (.object ms) t, "") :=
  load_of_read ((h.saved _).read_eq hplain hroom h.get?_file_saved)

lemma Ready.load_saved_default (h : Ready directory t place) (hlimit : ∀ most ∈ limit, 2 ≤ most) :
    load limit (fileIn directory) (Settings.saved place (.object default) t) =
      .ok (default, Settings.saved place (.object default) t, "") := by
  refine h.load_saved isPlain_default ?_
  rw [nesting_default]
  simpa [Json.HasRoom] using hlimit

lemma Ready.isFile_saved (h : Ready directory t place) (v : Value) :
    (Settings.saved place v t).isFile (fileIn directory) = true := by
  rw [Tree.isFile, Tree.at?_eq (h.saved v).locate_file, h.get?_file_saved]

/-- Loading fails exactly where lists and objects are nested deeper than can be read; where there
are no more brackets than that, it does not. Else it ends with settings that load again without a
change: what can be read stays as it is, whatever else stands in the file is replaced by the default
settings, and no draft is left. -/
theorem load_heals_unless_deep (hlimit : ∀ most ∈ limit, 2 ≤ most)
    (hmade : t.makeDirectory directory = .ok made)
    (hfile : made.isDirectory (fileIn directory) = false)
    (hdraft : made.isDirectory (draft (fileIn directory)) = false) :
    ((∃ e, load limit (fileIn directory) t = .error e) ↔
      ∃ text what, t.readText (fileIn directory) = .ok text ∧
        Json.readWithin limit text = .error (.tooDeep what)) ∧
    (∀ text, t.readText (fileIn directory) = .ok text →
      (∀ most ∈ limit, Json.openings text.toList ≤ most) →
      ∃ result, load limit (fileIn directory) t = .ok result) ∧
    ∀ ms healed printed, load limit (fileIn directory) t = .ok (ms, healed, printed) →
      healed.isFile (fileIn directory) = true ∧
      (healed = t ∨ healed.exists? (draft (fileIn directory)) = false) ∧
      load limit (fileIn directory) healed = .ok (ms, healed, "") ∧
      (∀ old, read none (fileIn directory) t = .ok old → ms = old ∧ healed = t ∧ printed = "") ∧
      ∀ e, read limit (fileIn directory) t = .error e → isDamage e = true ∧ ms = default ∧
        printed = if t.exists? (fileIn directory) then warning e else "" := by
  obtain ⟨place, hready⟩ := exists_ready hmade hfile hdraft
  have hloads : ∀ {e}, read limit (fileIn directory) t = .error e → isDamage e = true →
      load limit (fileIn directory) t = .ok (default, saved place (.object default) made,
        if t.exists? (fileIn directory) then warning e else "") := by
    intro e hread hdamage
    refine load_of_damage hread hdamage ?_
    rw [save_of_makeDirectory hmade, hready.save_eq]
  have hfails : (∃ e, load limit (fileIn directory) t = .error e) ↔
      ∃ text what, t.readText (fileIn directory) = .ok text ∧
        Json.readWithin limit text = .error (.tooDeep what) := by
    constructor
    · rintro ⟨e, he⟩
      cases hread : read limit (fileIn directory) t with
      | ok old =>
        rw [load_of_read hread] at he
        cases he
      | error e' =>
        rcases read_eq_error hread with hdamage | ⟨text, what, htext, hdeep, -⟩
        · rw [hloads hread hdamage] at he
          cases he
        · exact ⟨text, what, htext, hdeep⟩
    · rintro ⟨text, what, htext, hdeep⟩
      exact ⟨_, load_of_deep htext hdeep⟩
  refine ⟨hfails, fun text htext hfew => ?_, fun ms healed printed hload => ?_⟩
  · cases hload : load limit (fileIn directory) t with
    | ok result => exact ⟨result, rfl⟩
    | error e =>
      obtain ⟨text', what, htext', hdeep⟩ := hfails.mp ⟨e, hload⟩
      obtain rfl : text = text' := Except.ok.inj (htext.symm.trans htext')
      rcases Json.readWithin_cases limit text with ⟨hsame, hother⟩ | ⟨-, most, -, hmost, hmany⟩
      · cases hother _ (hsame ▸ hdeep)
      · exact absurd (hfew most hmost) (Nat.not_le.mpr hmany)
  have hnot : ∀ text what, t.readText (fileIn directory) = .ok text →
      Json.readWithin limit text ≠ .error (.tooDeep what) := by
    intro text what htext hdeep
    obtain ⟨e, he⟩ := hfails.mpr ⟨text, what, htext, hdeep⟩
    rw [hload] at he
    cases he
  cases hread : read limit (fileIn directory) t with
  | ok old =>
    have hkept := load_of_read hread
    obtain ⟨rfl, rfl, rfl⟩ : old = ms ∧ t = healed ∧ "" = printed := by
      simpa using hkept.symm.trans hload
    obtain ⟨text, htext, -⟩ := bind_eq_ok.mp hread
    refine ⟨Tree.isFile_of_readText htext, .inl rfl, hkept, fun old' hold' => ?_, ?_⟩
    · exact ⟨Except.ok.inj (hread.symm.trans (read_within hold' hnot)), rfl, rfl⟩
    · rintro _ ⟨⟩
  | error e =>
    have hdamage : isDamage e = true := by
      rcases read_eq_error hread with hdamage | ⟨text, what, htext, hdeep, -⟩
      · exact hdamage
      · exact absurd hdeep (hnot text what htext)
    obtain ⟨rfl, rfl, rfl⟩ : default = ms ∧ saved place (.object default) made = healed ∧
        (if t.exists? (fileIn directory) then warning e else "") = printed := by
      simpa using (hloads hread hdamage).symm.trans hload
    refine ⟨hready.isFile_saved _, .inr hready.exists?_draft_saved,
      hready.load_saved_default hlimit, fun old' hold' => ?_, ?_⟩
    · rw [read_within hold' hnot] at hread
      cases hread
    · rintro _ ⟨⟩
      exact ⟨hdamage, rfl, rfl⟩

/-- A program directory with settings that are no text, and with a draft. -/
def damagedTree : Tree where
  entries :=
    [(["src"], .directory), (["src", fileName], .file (.raw [0x7b, 0xff])),
      (["src", draftName], .file (.text "\x7b"))]

lemma warning_ne_empty (e : Fault) : warning e ≠ "" := fun h =>
  absurd (String.append_eq_empty_iff.mp h).2 (by decide)

/-- The damaged settings are replaced, and the draft is gone. -/
theorem damagedTree_heals :
    ∃ healed printed,
      load (some 990) (fileIn (.ofText "src")) damagedTree = .ok (default, healed, printed) ∧
      healed.isFile (fileIn (.ofText "src")) = true ∧
      healed.exists? (draft (fileIn (.ofText "src"))) = false ∧
      load (some 990) (fileIn (.ofText "src")) healed = .ok (default, healed, "") := by
  obtain ⟨e, hread⟩ : ∃ e, read (some 990) (fileIn (.ofText "src")) damagedTree = .error e :=
    ⟨_, rfl⟩
  have hmade : damagedTree.makeDirectory (.ofText "src") = .ok damagedTree :=
    Tree.makeDirectory_eq (by decide)
  have hlimit : ∀ most ∈ some 990, 2 ≤ most := by simp
  obtain ⟨hfails, -, hheals⟩ := load_heals_unless_deep hlimit hmade (by decide) (by decide)
  cases hload : load (some 990) (fileIn (.ofText "src")) damagedTree with
  | error e =>
    obtain ⟨text, what, htext, -⟩ := hfails.mp ⟨e, hload⟩
    cases htext
  | ok result =>
    obtain ⟨ms, healed, printed⟩ := result
    obtain ⟨hfile, hdraft, hagain, -, hdefault⟩ := hheals ms healed printed hload
    obtain ⟨-, rfl, hprinted⟩ := hdefault e hread
    refine ⟨healed, printed, rfl, hfile, hdraft.resolve_left ?_, hagain⟩
    rintro rfl
    rw [hload, Except.ok.injEq, Prod.mk.injEq, Prod.mk.injEq, hprinted] at hagain
    exact warning_ne_empty e hagain.2.2

/-- A program directory with settings that open lists and close none. -/
def deepTree (count : ℕ) : Tree where
  entries :=
    [(["src"], .directory),
      (["src", fileName], .file (.text (String.ofList (List.replicate count '['))))]

/-- Settings that open more lists than can be read are not replaced. -/
lemma load_deepTree {most count : ℕ} (h : most < count) :
    ∃ e, load (some most) (fileIn (.ofText "src")) (deepTree count) = .error e := by
  have htext : (deepTree count).readText (fileIn (.ofText "src")) =
      .ok (String.ofList (List.replicate count '[')) := by
    have hat : (deepTree count).at? (fileIn (.ofText "src")) =
        some (.file (.text (String.ofList (List.replicate count '[')))) := rfl
    rw [Tree.readText_of_at? hat, String.toList_ofList,
      unifyNewlines_eq_self (by simp [List.mem_replicate])]
  obtain ⟨more, rfl⟩ := Nat.exists_eq_add_of_lt h
  have hdeep := Json.readWithin_brackets most (List.replicate more '[')
  rw [← List.replicate_add, Nat.add_right_comm] at hdeep
  exact ⟨_, load_of_deep htext hdeep⟩

theorem deepTree_fails :
    ∃ e, load (some 990) (fileIn (.ofText "src")) (deepTree 2000) = .error e :=
  load_deepTree (by decide)

end Healing

section Crashes

/-- The files after so many steps of saving settings. -/
def crashed (file : Path) (new : Members) (t : Tree) (k : ℕ) : Tree :=
  (runSteps ((saveSteps file (.object new)).take k) t).1

/-- Whether settings are the same as one of two others. -/
def isEither (old new ms : Members) : Bool :=
  (Value.object ms).same (.object old) || (Value.object ms).same (.object new)

lemma exists_home (hold : read limit (fileIn directory) t = .ok old) :
    ∃ place, t.locate directory = .ok place ∧ t.get? place = some .directory ∧
      t.get? (place ++ [fileName]) ≠ some .directory := by
  obtain ⟨text, htext, -⟩ := bind_eq_ok.mp hold
  have hfile := Tree.isFile_of_readText htext
  rw [Tree.isFile] at hfile
  cases hlocate : t.locate (fileIn directory) with
  | error problem => simp [Tree.at?, hlocate] at hfile
  | ok goal =>
    have hwalk : t.walk [] (directory.parts ++ [fileName]) = .ok goal := hlocate
    obtain ⟨place, hplace, hhome, rfl⟩ := Tree.walk_snoc (by decide) hwalk
    refine ⟨place, hplace, hhome, fun hget => ?_⟩
    rw [Tree.at?_eq hlocate, hget] at hfile
    cases hfile

lemma crashed_of_isDirectory (hdir : t.isDirectory directory = true)
    (hdraft : t.isDirectory (draft (fileIn directory)) = true) (new : Members) (k : ℕ) :
    crashed (fileIn directory) new t k = t := by
  have hmake : t.makeDirectory (fileIn directory).parent = .ok t := by
    rw [parent_fileIn, Tree.makeDirectory_eq hdir]
  have hwrite := Tree.writeText_of_isDirectory hdraft (Json.write (.object new))
  rcases k with _ | _ | k
  · rfl
  · rw [crashed, saveSteps, List.take_succ_cons, runSteps_cons hmake]
    rfl
  · rw [crashed, saveSteps, List.take_succ_cons, runSteps_cons hmake, List.take_succ_cons, runSteps,
      hwrite]

namespace Ready

variable (h : Ready directory t place)

include h

lemma crashed_eq (new : Members) (k : ℕ) :
    crashed (fileIn directory) new t k = stage place (.object new) t k := by
  rw [crashed, h.runSteps_take]

lemma readText_congr (h' : Ready directory u place)
    (hget : u.get? (place ++ [fileName]) = t.get? (place ++ [fileName])) :
    u.readText (fileIn directory) = t.readText (fileIn directory) := by
  rw [Tree.readText, Tree.readText, Tree.located_eq_ok.mpr h.locate_file,
    Tree.located_eq_ok.mpr h'.locate_file, ok_bind, ok_bind, hget]

lemma read_drafted (v : Value) :
    read limit (fileIn directory) (Settings.drafted place v t) =
      read limit (fileIn directory) t := by
  have htext := h.readText_congr (h.drafted v) (Tree.get?_put_of_ne (file_ne_draft place))
  rw [read, read, htext]

/-- Who finds no settings writes the default ones, over the draft. -/
lemma load_cleared (v : Value) :
    load limit (fileIn directory) (Settings.cleared place v t) =
      .ok (default, Settings.saved place (.object default) (Settings.cleared place v t), "") := by
  have hget : (Settings.cleared place v t).get? (place ++ [fileName]) = none :=
    Tree.get?_erase_self (Tree.ne_nil_of_free h.fileFree)
  have hgone : (Settings.cleared place v t).exists? (fileIn directory) = false := by
    rw [Tree.exists?, Tree.at?_eq (h.cleared v).locate_file, hget]
    rfl
  have hread : read limit (fileIn directory) (Settings.cleared place v t) =
      .error (.file .noEntry (fileIn directory).text) := by
    rw [read, Tree.readText, Tree.located_eq_ok.mpr (h.cleared v).locate_file, ok_bind, hget]
    rfl
  rw [load_of_damage hread rfl ((h.cleared v).save_eq _), hgone]
  rfl

lemma load_crashed (new : Members) :
    load limit (fileIn directory) (crashed (fileIn directory) new t 3) =
      .ok (default, Settings.saved place (.object default) (Settings.cleared place (.object new) t),
        "") := by
  have hcleared : crashed (fileIn directory) new t 3 = Settings.cleared place (.object new) t :=
    h.crashed_eq new 3
  rw [hcleared, h.load_cleared]

end Ready

/-- Saving does not keep the settings at all times. Up to the draft the old ones load, and in the
end the new ones do, unless they are nested too deep to be read; but between the removal of the old
file and the renaming of the draft the default settings are loaded and written, and the draft is
lost. So the old or the new settings load after every crash only if one of them is the default ones,
or if the draft cannot be written. -/
theorem crash_while_saving (hlimit : ∀ most ∈ limit, 2 ≤ most)
    (hold : read limit (fileIn directory) t = .ok old) (new : Members) :
    (∀ k ≤ 2, load limit (fileIn directory) (crashed (fileIn directory) new t k) =
      .ok (old, crashed (fileIn directory) new t k, "")) ∧
    (t.isDirectory (draft (fileIn directory)) = true →
      ∀ k, crashed (fileIn directory) new t k = t) ∧
    (t.isDirectory (draft (fileIn directory)) = false →
      (∃ lost, load limit (fileIn directory) (crashed (fileIn directory) new t 3) =
          .ok (default, lost, "") ∧
        load limit (fileIn directory) lost = .ok (default, lost, "") ∧
        lost.exists? (draft (fileIn directory)) = false) ∧
      (Json.isPlain (.object new) = true → Json.HasRoom limit 0 (Json.nesting (.object new)) →
        ∀ k, 4 ≤ k → load limit (fileIn directory) (crashed (fileIn directory) new t k) =
          .ok (new, crashed (fileIn directory) new t k, ""))) ∧
    ((∀ k < 4, ∃ ms after printed,
        load limit (fileIn directory) (crashed (fileIn directory) new t k) =
          .ok (ms, after, printed) ∧ isEither old new ms = true) ↔
      t.isDirectory (draft (fileIn directory)) = true ∨ isEither old new default = true) := by
  obtain ⟨place, hlocated, hhome, hfile⟩ := exists_home hold
  have holder : isEither old new old = true := by simp [isEither]
  cases hdraft : t.isDirectory (draft (fileIn directory)) with
  | true =>
    have hstays := crashed_of_isDirectory (Tree.isDirectory_iff.mpr ⟨place, hlocated, hhome⟩)
      hdraft new
    simp only [hstays, load_of_read hold]
    exact ⟨by simp, by simp, by simp, by simpa using fun _ _ => holder⟩
  | false =>
    have hready : Ready directory t place := by
      refine ⟨hlocated, hhome, hfile, fun hget => ?_⟩
      rw [Bool.eq_false_iff, draft_fileIn] at hdraft
      exact hdraft (Tree.isDirectory_iff.mpr
        ⟨_, Tree.walk_append_name (by decide) hlocated hhome, hget⟩)
    have hkept : ∀ k ≤ 2, load limit (fileIn directory) (crashed (fileIn directory) new t k) =
        .ok (old, crashed (fileIn directory) new t k, "") := by
      intro k hk
      refine load_of_read ?_
      rw [hready.crashed_eq]
      rcases k with _ | _ | _ | k
      · exact hold
      · exact hold
      · exact (hready.read_drafted _).trans hold
      · omega
    have hlost : load limit (fileIn directory) (crashed (fileIn directory) new t 3) = _ :=
      hready.load_crashed new
    refine ⟨hkept, by simp, fun _ => ⟨⟨_, hlost, ?_, ?_⟩, ?_⟩, ?_⟩
    · exact (hready.cleared _).load_saved_default hlimit
    · exact (hready.cleared _).exists?_draft_saved
    · intro hplain hroom k hk
      obtain ⟨k, rfl⟩ := Nat.exists_eq_add_of_le' hk
      rw [hready.crashed_eq]
      exact hready.load_saved hplain hroom
    · constructor
      · intro heither
        obtain ⟨ms, after, printed, hload, hms⟩ := heither 3 (by decide)
        rw [hlost, Except.ok.injEq, Prod.mk.injEq] at hload
        exact .inr (hload.1 ▸ hms)
      · intro hdefault k hk
        rcases Nat.lt_succ_iff_lt_or_eq.mp hk with hk | rfl
        · exact ⟨_, _, _, hkept k (Nat.lt_succ_iff.mp hk), holder⟩
        · exact ⟨_, _, _, hlost, by simpa using hdefault⟩

/-- A program directory with settings that name a language. -/
def russianTree : Tree where
  entries :=
    [(["src"], .directory),
      (["src", fileName], .file (.text "\x7b\"language\": \"ru\"\x7d"))]

def russianSettings : Members := [("language", .text "ru")]

def gridlessSettings : Members := [("language", .text "ru"), ("show_grid", .bool false)]

lemma read_russianTree :
    read (some 990) (fileIn (.ofText "src")) russianTree = .ok russianSettings :=
  eq_ok_of_toOption (by decide +kernel)

/-- The settings at each step of saving others in the same language. -/
theorem russianTree_crash :
    read (some 990) (fileIn (.ofText "src")) russianTree = .ok russianSettings ∧
      ∃ kept lost saved,
        load (some 990) (fileIn (.ofText "src"))
            (crashed (fileIn (.ofText "src")) gridlessSettings russianTree 2) =
          .ok (russianSettings, kept, "") ∧
        load (some 990) (fileIn (.ofText "src"))
            (crashed (fileIn (.ofText "src")) gridlessSettings russianTree 3) =
          .ok (default, lost, "") ∧
        load (some 990) (fileIn (.ofText "src"))
            (crashed (fileIn (.ofText "src")) gridlessSettings russianTree 4) =
          .ok (gridlessSettings, saved, "") := by
  have hlimit : ∀ most ∈ some 990, 2 ≤ most := by simp
  obtain ⟨hkept, -, hsteps, -⟩ := crash_while_saving hlimit read_russianTree gridlessSettings
  obtain ⟨⟨lost, hlost, -⟩, hsaved⟩ := hsteps (by decide)
  have hroom : Json.HasRoom (some 990) 0 (Json.nesting (.object gridlessSettings)) := by
    simp [Json.HasRoom, Json.nesting, gridlessSettings, Json.nestingMembers]
  exact ⟨read_russianTree, _, lost, _, hkept 2 (Nat.le_refl 2), hlost,
    hsaved (by decide) hroom 4 (Nat.le_refl 4)⟩

/-- A crash before the last step loses the language: neither the old nor the new settings load. -/
theorem language_lost :
    read (some 990) (fileIn (.ofText "src")) russianTree = .ok russianSettings ∧
      ∃ ms lost printed,
        load (some 990) (fileIn (.ofText "src"))
            (crashed (fileIn (.ofText "src")) gridlessSettings russianTree 3) =
          .ok (ms, lost, printed) ∧
        isEither russianSettings gridlessSettings ms = false := by
  obtain ⟨place, hready⟩ : ∃ place, Ready (.ofText "src") russianTree place :=
    exists_ready (Tree.makeDirectory_eq (by decide)) (by decide) (by decide)
  exact ⟨read_russianTree, _, _, _, hready.load_crashed _, by decide⟩

end Crashes
end NovelGraph.Settings
