import NovelGraph.Proofs.Speakers
import NovelGraph.Proofs.VariableWords

/-! The characters that a script defines. Each name is defined once, whether it comes from the
project, from a block or only from the story; but names that are spelled by the same words share
one variable, which is then defined again. -/
namespace NovelGraph

open Outcome Script Text

/-- A character as a script defines it: its name, and the name it is shown with. -/
structure Role where
  name : String
  shown : Option String

namespace Role

def line (r : Role) : String := characterLine "" (normalize r.name) r.shown

/-- The lines of roles between a heading and an empty line. Without roles there is nothing. -/
def lines (heading : List String) (roles : List Role) : List String :=
  if roles.isEmpty then [] else heading ++ roles.map line ++ ["\n"]

lemma exists_of_forall₂ {α : Type} {name : α → String} {items : List α} {texts : List String}
    (h : List.Forall₂ (fun a text => ∃ shown, text = line ⟨name a, shown⟩) items texts) :
    ∃ roles : List Role, roles.map (·.name) = items.map name ∧ roles.map line = texts := by
  induction h with
  | nil => exact ⟨[], rfl, rfl⟩
  | cons hline _ ih =>
    obtain ⟨shown, rfl⟩ := hline
    obtain ⟨roles, hnames, hlines⟩ := ih
    exact ⟨⟨_, shown⟩ :: roles, by rw [List.map_cons, hnames, List.map_cons],
      by rw [List.map_cons, hlines]⟩

end Role

/-- What a script has before the game begins. -/
structure Credits where
  images : List String
  own : List Role
  heading : List String
  fromBlocks : List Role
  values : List String
  found : List Role
  narrator : List String

namespace Credits

def roles (c : Credits) : List Role := c.own ++ c.fromBlocks ++ c.found

def names (c : Credits) : List String := c.roles.map (·.name)

def lines (c : Credits) : List String :=
  c.images ++ Role.lines ["# Character Definitions\n"] c.own ++ Role.lines c.heading c.fromBlocks ++
    c.values ++ Role.lines ["# Characters (auto-detected)\n"] c.found ++ c.narrator

end Credits

/-- No item is left twice. -/
lemma nodup_eraseDups {α : Type} [BEq α] [LawfulBEq α] (items : List α) :
    items.eraseDups.Nodup := by
  induction hn : items.length using Nat.strongRecOn generalizing items with
  | _ n ih =>
    cases items with
    | nil => simp
    | cons a rest =>
      rw [List.eraseDups_cons, List.nodup_cons]
      refine ⟨by simp, ih _ ?_ _ rfl⟩
      rw [← hn, List.length_cons]
      exact Nat.lt_succ_of_le (List.length_filter_le _ _)

namespace Project

variable {p : Project} {lines before : List String} {text : String} {ms : List (String × Value)}

/-- A line among the constants and default values. -/
def VariableLine (line : String) : Prop :=
  line ∈ ["# Define Statements\n", "# Default Statements\n", "\n"] ∨
    ∃ word ∈ ["define", "default"], ∃ key ps, param ps key ≠ "" ∧ line = assignment word key "" ps

section Sections

/-- The characters of the project itself, sorted by their names. -/
lemma characterSection_roles (hms : p.characters = .object ms)
    (h : p.characterSection = .ok lines) :
    ∃ own : List Role, own.map (·.name) = (sortedMembers ms).map (·.1) ∧
      lines = Role.lines ["# Character Definitions\n"] own := by
  rw [characterSection, hms, Value.isTruthy] at h
  cases ms with
  | nil => exact ⟨[], rfl, (Except.ok.inj h).symm⟩
  | cons m rest =>
    rw [if_pos (by rfl), Value.members, ok_bind, bind_eq_ok] at h
    obtain ⟨entries, hentries, h⟩ := h
    obtain rfl := Except.ok.inj h
    obtain ⟨own, hnames, rfl⟩ : ∃ own : List Role, own.map (·.name) =
        (sortedMembers (m :: rest)).map (·.1) ∧ own.map Role.line = entries := by
      refine Role.exists_of_forall₂ ((mapM_eq_ok hentries).imp fun a line hline => ?_)
      obtain ⟨_, shown, -, rfl, -⟩ := characterEntry_eq_ok hline
      exact ⟨shown, rfl⟩
    refine ⟨own, hnames, ?_⟩
    have hne : own ≠ [] := by
      rintro rfl
      have hlength := congrArg List.length hnames
      rw [List.length_map, List.length_map, sortedMembers, (Order.sortByKey_perm _ _ _).length_eq]
        at hlength
      cases hlength
    rw [Role.lines, if_neg (by simpa using hne)]

/-- What is known of the roles when some blocks of the characters have been gone through. -/
structure RolesDone (p : Project) (done : List Block) (state : List String × List String)
    (heading : List String) (roles : List Role) : Prop where
  headed : heading = [] ∨ heading = ["# Character Definitions (from blocks)\n"]
  written : state.1 = if roles.isEmpty then [] else heading ++ roles.map Role.line
  named : state.2 = roles.map (·.name)
  nodup : state.2.Nodup
  source : ∀ name ∈ state.2, p.namesCharacter name = .ok false ∧ name ≠ "" ∧
    ∃ b ∈ done, ∃ ps, b.paramList = .ok ps ∧ param ps "name" = name

lemma RolesDone.step {done : List Block} {b : Block} {state state' : List String × List String}
    {heading : List String} {roles : List Role} (hs : p.RolesDone done state heading roles)
    (h : p.characterStep before state b = .ok state') :
    ∃ heading' roles', p.RolesDone (done ++ [b]) state' heading' roles' := by
  have hold : ∀ name ∈ state.2, p.namesCharacter name = .ok false ∧ name ≠ "" ∧
      ∃ c ∈ done ++ [b], ∃ ps, c.paramList = .ok ps ∧ param ps "name" = name := by
    intro name hname
    obtain ⟨hown, hne, c, hc, hps⟩ := hs.source name hname
    exact ⟨hown, hne, c, List.mem_append_left _ hc, hps⟩
  obtain ⟨ps, hps, ⟨rfl, -⟩ | ⟨added, hadded, ⟨hne, hown, hnew⟩, rfl⟩⟩ := characterStep_eq_ok h
  · exact ⟨heading, roles, hs.headed, hs.written, hs.named, hs.nodup, hold⟩
  · -- before the first role there is no heading yet
    refine ⟨if roles.isEmpty then added else heading,
      roles ++ [⟨param ps "name", nonEmpty? (param ps "display_name")⟩], ?_, ?_, ?_, ?_, ?_⟩
    · split_ifs
      · exact hadded.imp_right (·.2)
      · exact hs.headed
    · have hwritten := hs.written
      cases roles with
      | nil =>
        simp only [List.isEmpty_nil, if_true] at hwritten
        simp [hwritten, Role.line]
      | cons r rest =>
        have hadded : added = [] := by
          refine hadded.resolve_right fun hfirst => ?_
          rw [hfirst.1] at hwritten
          simp at hwritten
        simp only [List.isEmpty_cons, if_neg Bool.false_ne_true] at hwritten
        simp [hwritten, hadded, Role.line]
    · rw [hs.named, List.map_append]
      rfl
    · exact List.nodup_append.mpr ⟨hs.nodup, List.nodup_singleton _, fun x hx y hy hxy =>
        hnew (List.mem_singleton.mp hy ▸ hxy ▸ hx)⟩
    · intro name hname
      rcases List.mem_append.mp hname with hname | hname
      · exact hold name hname
      · obtain rfl := List.mem_singleton.mp hname
        exact ⟨hown, hne, b, by simp, ps, hps, rfl⟩

lemma mem_characterBlockNames {blockNames : List String} {name : String}
    (h : p.characterBlockNames = .ok blockNames) :
    name ∈ blockNames ↔ name ≠ "" ∧ ∃ b ∈ p.blocksOf .character, ∃ ps, b.paramList = .ok ps ∧
      param ps "name" = name := by
  rw [characterBlockNames, bind_eq_ok] at h
  obtain ⟨all, hall, h⟩ := h
  obtain rfl := Except.ok.inj h
  simp only [List.mem_eraseDups, List.mem_filter, List.mem_map, mem_of_mapM_eq_ok hall]
  constructor
  · rintro ⟨⟨ps, ⟨b, hb, hps⟩, rfl⟩, hne⟩
    exact ⟨by simpa using hne, b, hb, ps, hps, rfl⟩
  · rintro ⟨hne, b, hb, ps, hps, rfl⟩
    exact ⟨⟨ps, ⟨b, hb, hps⟩, rfl⟩, by simpa using hne⟩

/-- The characters of blocks, each name once, that the project does not define itself. -/
lemma characterBlockSection_roles (hms : p.characters = .object ms) {blockNames : List String}
    (hnames : p.characterBlockNames = .ok blockNames)
    (h : p.characterBlockSection before = .ok lines) :
    ∃ (heading : List String) (fromBlocks : List Role),
      (heading = [] ∨ heading = ["# Character Definitions (from blocks)\n"]) ∧
      lines = Role.lines heading fromBlocks ∧ (fromBlocks.map (·.name)).Nodup ∧
      ∀ name, name ∈ fromBlocks.map (·.name) ↔ name ∈ blockNames ∧ name ∉ ms.map (·.1) := by
  rw [characterBlockSection_eq, bind_eq_ok] at h
  obtain ⟨state, hstate, h⟩ := h
  obtain rfl := Except.ok.inj h
  obtain ⟨heading, roles, hroles⟩ : ∃ heading roles,
      p.RolesDone (p.blocksOf .character) state heading roles :=
    foldlM_history (fun done state => ∃ heading roles, p.RolesDone done state heading roles)
      (fun _ _ _ _ _ ⟨_, _, hs⟩ hstep => hs.step hstep)
      ⟨[], [], .inl rfl, rfl, rfl, List.nodup_nil, by simp⟩ hstate
  have hdone : p.CharactersDone (p.blocksOf .character) state :=
    foldlM_history p.CharactersDone (fun _ _ _ _ _ hs hstep => hs.step hstep)
      ⟨by simp, by simp, by simp⟩ hstate
  refine ⟨heading, roles, hroles.headed, ?_, hroles.named ▸ hroles.nodup, fun name => ?_⟩
  · rw [hroles.written, hroles.named, Role.lines]
    cases roles <;> rfl
  · rw [← hroles.named, mem_characterBlockNames hnames]
    have hkey := namesCharacter_of_object hms name
    constructor
    · intro hname
      obtain ⟨hown, hne, hblock⟩ := hroles.source name hname
      rw [hkey] at hown
      exact ⟨⟨hne, hblock⟩, by simpa using Except.ok.inj hown⟩
    · rintro ⟨⟨hne, b, hb, ps, hps, rfl⟩, hown⟩
      refine (hdone.done b hb ps hps hne).resolve_left fun hname => hown ?_
      rw [hkey] at hname
      simpa using Except.ok.inj hname

/-- Constants and default values are added to what is there. -/
lemma variableSection_added (h : p.variableSection before = .ok lines) :
    ∃ added, lines = before ++ added ∧ ∀ line ∈ added, VariableLine line := by
  rw [variableSection_eq, bind_eq_ok] at h
  obtain ⟨state, hstate, h⟩ := h
  obtain rfl := Except.ok.inj h
  have hstatement : ∀ {word heading key : String} {ps : Params} {lines : List String},
      word ∈ ["define", "default"] → heading ∈ ["# Define Statements\n", "# Default Statements\n"] →
      (∃ added, lines = before ++ added ∧ ∀ line ∈ added, VariableLine line) →
      ∃ added, addStatement word heading (assignment word key "" ps) lines = before ++ added ∧
        ∀ line ∈ added, VariableLine line := by
    rintro word heading key ps lines hword hheading ⟨added, rfl, hlines⟩
    have hheading : VariableLine heading := .inl (List.mem_append_left ["\n"] hheading)
    by_cases hempty : (assignment word key "" ps).isEmpty = true
    · exact ⟨added, by rw [addStatement, if_pos hempty], hlines⟩
    have hline : VariableLine (assignment word key "" ps) := by
      refine .inr ⟨word, hword, key, ps, fun hparam => hempty ?_, rfl⟩
      rw [assignment, hparam]
      rfl
    rw [addStatement, if_neg hempty]
    split_ifs
    · exact ⟨added ++ [_], List.append_assoc _ _ _,
        List.forall_mem_append.mpr ⟨hlines, by simpa using hline⟩⟩
    · exact ⟨added ++ [_, _], List.append_assoc _ _ _,
        List.forall_mem_append.mpr ⟨hlines, by simpa using ⟨hheading, hline⟩⟩⟩
  obtain ⟨added, hadded, hlines⟩ : ∃ added, state.1 = before ++ added ∧
      ∀ line ∈ added, VariableLine line := by
    refine foldlM_invariant (fun state => ∃ added, state.1 = before ++ added ∧
      ∀ line ∈ added, VariableLine line) (fun b _ s t hs hstep => ?_) ⟨[], by simp, by simp⟩ hstate
    cases variableStep_eq_ok hstep with
    | oldConstant => exact hs
    | newConstant => exact hstatement (by simp) (by simp) hs
    | oldDefault => exact hs
    | newDefault => exact hstatement (by simp) (by simp) hs
  rw [hadded]
  split_ifs
  · exact ⟨added, rfl, hlines⟩
  · exact ⟨added ++ ["\n"], List.append_assoc _ _ _,
      List.forall_mem_append.mpr ⟨hlines, by simpa using .inl (by simp)⟩⟩

lemma undefinedCharacters_of_object (hms : p.characters = .object ms)
    (names blockNames : List String) :
    p.undefinedCharacters names blockNames =
      .ok (names.filter fun name => name ∉ ms.map (·.1) ∧ name ∉ blockNames) := by
  refine filterM_ok fun name _ => ?_
  rw [namesCharacter_of_object hms, ok_bind]
  refine congrArg Except.ok ?_
  rw [Bool.eq_iff_iff]
  simp

/-- Characters that only occur in the story are shown with their names. -/
lemma detectedSection_roles (names : List String) :
    detectedSection names =
      Role.lines ["# Characters (auto-detected)\n"] (names.map fun name => ⟨name, some name⟩) := by
  rw [detectedSection, Role.lines, List.isEmpty_map, List.map_map]
  rfl

end Sections

/-- What holds of the credits of a project, for the names of its characters and the names in its
character blocks: the pictures come first, and of all names those that the project defines, then
those of blocks, then those that are left. -/
structure CreditedBy (p : Project) (ms : List (String × Value)) (names blockNames : List String)
    (c : Credits) : Prop where
  images : p.imageSection = .ok c.images
  own : c.own.map (·.name) = (sortedMembers ms).map (·.1)
  heading : c.heading = [] ∨ c.heading = ["# Character Definitions (from blocks)\n"]
  nodup : (c.fromBlocks.map (·.name)).Nodup
  fromBlocks : ∀ name, name ∈ c.fromBlocks.map (·.name) ↔ name ∈ blockNames ∧ name ∉ ms.map (·.1)
  values : ∀ line ∈ c.values, VariableLine line
  found : c.found.map (·.name) = names.filter fun name => name ∉ ms.map (·.1) ∧ name ∉ blockNames
  narrator : c.narrator = [] ∨ c.narrator = ["define narrator = Character('Narrator')\n\n"]

/-- The first lines of every script. -/
def opening : List String :=
  ["# Generated by RenPy Node Editor\n", "# This file is auto-generated. Do not edit manually.\n\n"]

/-- A script begins with its credits. -/
theorem script_credits (h : p.script = .ok text) :
    ∃ ms names blockNames c rest, p.characters = .object ms ∧ p.characterNames = .ok names ∧
      p.characterBlockNames = .ok blockNames ∧ p.CreditedBy ms names blockNames c ∧
      text = concat (opening ++ c.lines ++ "\n# Игра начинается здесь:\n" :: rest) := by
  obtain ⟨definitions, names, blockNames, undefinedNames, ms, narrator, entry, labels, scenes,
    hdef, hnames, hblockNames, hundef, hmembers, hnarrator, -, -, -, rfl⟩ := script_run h
  have hms := Value.eq_object_of_members hmembers
  obtain ⟨lines, hlines, rfl⟩ := definitions_eq_ok hdef
  rw [definitionLines, bind_eq_ok] at hlines
  obtain ⟨images, himages, hlines⟩ := hlines
  obtain ⟨ownLines, hown, hlines⟩ := bind_eq_ok.mp hlines
  obtain ⟨blockLines, hblocks, hlines⟩ := bind_eq_ok.mp hlines
  obtain ⟨own, hownNames, rfl⟩ := characterSection_roles hms hown
  obtain ⟨heading, fromBlocks, hheading, rfl, hnodup, hfrom⟩ :=
    characterBlockSection_roles hms hblockNames hblocks
  obtain ⟨values, rfl, hvalues⟩ := variableSection_added hlines
  rw [undefinedCharacters_of_object hms] at hundef
  obtain rfl := Except.ok.inj hundef
  let c : Credits :=
    { images, own, heading, fromBlocks, values, narrator
      found := (names.filter fun name => name ∉ ms.map (·.1) ∧ name ∉ blockNames).map
        fun name => ⟨name, some name⟩ }
  refine ⟨ms, names, blockNames, c, "label start:\n" :: entry :: scenes, hms, hnames, hblockNames,
    ⟨himages, hownNames, hheading, hnodup, hfrom, hvalues, ?_, by simpa using hnarrator⟩, ?_⟩
  · rw [List.map_map]
    exact List.map_id' _
  · have hfound :
        detectedSection (names.filter fun name => name ∉ ms.map (·.1) ∧ name ∉ blockNames) =
        Role.lines ["# Characters (auto-detected)\n"] c.found := detectedSection_roles _
    simp only [front, hfound, Credits.lines, opening, c, List.append_assoc, List.cons_append,
      List.nil_append, concat_append, concat_cons, concat_nil, String.append_assoc,
      String.empty_append]

section Names

variable {names blockNames : List String} {c : Credits}

/-- Those that the project defines are among the characters, and no name is there twice. -/
lemma characterNames_eq_ok (hms : p.characters = .object ms) (h : p.characterNames = .ok names) :
    names.Nodup ∧ ∀ m ∈ ms, m.1 ∈ names := by
  rw [characterNames_eq, hms, Value.members, ok_bind, bind_eq_ok] at h
  obtain ⟨named, -, h⟩ := h
  obtain rfl := Except.ok.inj h
  have hperm := Order.sortByKey_perm id (fun a b => decide (a < b))
    (ms.map (·.1) ++ (named.drop ms.length).filter (!·.isEmpty)).eraseDups
  refine ⟨hperm.nodup_iff.mpr (nodup_eraseDups _), fun m hm => hperm.mem_iff.mpr ?_⟩
  rw [List.mem_eraseDups]
  exact List.mem_append_left _ (List.mem_map_of_mem hm)

lemma mem_of_characterBlockNames (h : p.characterNames = .ok names)
    (hblocks : p.characterBlockNames = .ok blockNames) : blockNames ⊆ names := by
  intro name hname
  obtain ⟨b, hb, hk, ps, hps, rfl, hne⟩ := exists_of_mem_characterBlockNames hblocks hname
  have hkey : mentionKey? b.kind = some "name" := by
    rw [hk]
    rfl
  obtain ⟨qs, hqs, hmem⟩ := mem_characterNames h hb hkey
  obtain rfl := Except.ok.inj (hps.symm.trans hqs)
  exact hmem hne

/-- The names in the credits are those that occur, each once. -/
theorem CreditedBy.names_perm (hc : p.CreditedBy ms names blockNames c)
    (hms : p.characters = .object ms) (hkeys : (ms.map (·.1)).Nodup)
    (hnames : p.characterNames = .ok names) (hblocks : p.characterBlockNames = .ok blockNames) :
    c.names.Nodup ∧ c.names.Perm names := by
  obtain ⟨hnodup, hown⟩ := characterNames_eq_ok hms hnames
  have hsorted : (c.own.map (·.name)).Perm (ms.map (·.1)) :=
    hc.own ▸ (Order.sortByKey_perm _ _ _).map _
  have hin : ∀ name, name ∈ c.names ↔ name ∈ names := by
    intro name
    simp only [Credits.names, Credits.roles, List.map_append, List.mem_append, hsorted.mem_iff,
      hc.fromBlocks, hc.found, List.mem_filter, decide_eq_true_eq]
    constructor
    · rintro ((hkey | ⟨hblock, -⟩) | ⟨hname, -⟩)
      · obtain ⟨m, hm, rfl⟩ := List.mem_map.mp hkey
        exact hown m hm
      · exact mem_of_characterBlockNames hnames hblocks hblock
      · exact hname
    · intro hname
      by_cases hkey : name ∈ ms.map (·.1)
      · exact .inl (.inl hkey)
      · by_cases hblock : name ∈ blockNames
        · exact .inl (.inr ⟨hblock, hkey⟩)
        · exact .inr ⟨hname, hkey, hblock⟩
  have hdistinct : c.names.Nodup := by
    simp only [Credits.names, Credits.roles, List.map_append]
    refine List.nodup_append.mpr ⟨List.nodup_append.mpr ⟨hsorted.nodup_iff.mpr hkeys, hc.nodup, ?_⟩,
      hc.found ▸ hnodup.filter _, ?_⟩
    · rintro a ha b hb rfl
      exact ((hc.fromBlocks a).mp hb).2 (hsorted.mem_iff.mp ha)
    · rintro a ha b hb rfl
      rw [hc.found, List.mem_filter, decide_eq_true_eq] at hb
      rcases List.mem_append.mp ha with ha | ha
      · exact hb.2.1 (hsorted.mem_iff.mp ha)
      · exact hb.2.2 ((hc.fromBlocks a).mp ha).1
  exact ⟨hdistinct, (List.perm_ext_iff_of_nodup hdistinct hnodup).mpr hin⟩

end Names

/-- What is said begins with the variable of who says it. -/
lemma render_say {b : Block} {ps : Params} (hk : b.kind = .say) (hps : b.paramList = .ok ps)
    (hwho : param ps "who" ≠ "") (htext : param ps "text" ≠ "")
    (found own blockNames : List String) (indent : String) (labels : Option (List String)) :
    ∃ spoken, b.render indent { cast := some (cast found own blockNames), labels } =
      .ok (indent ++ normalize (param ps "who") ++ " " ++ spoken) := by
  obtain ⟨spoken, hspoken⟩ := say_eq (some (cast found own blockNames)) hwho htext indent
  rw [speaker_cast] at hspoken
  refine ⟨spoken, ?_⟩
  simp only [Block.render, hk, hps, ok_bind, hspoken]
  rfl

/-- The variables of the characters that a script defines. Every name that occurs has exactly one
definition, and its lines begin with the variable of that definition. The variables are distinct
exactly if no two of the names are spelled by the same words. -/
theorem character_variables (hkeys : ∀ ms, p.characters = .object ms → (ms.map (·.1)).Nodup)
    (h : p.script = .ok text) :
    ∃ ms names blockNames cast c rest, p.characters = .object ms ∧ p.characterNames = .ok names ∧
      p.characterBlockNames = .ok blockNames ∧ p.sceneCast = .ok cast ∧
      p.CreditedBy ms names blockNames c ∧
      text = concat (opening ++ c.lines ++ "\n# Игра начинается здесь:\n" :: rest) ∧
      c.names.Nodup ∧ c.names.Perm names ∧
      ((c.names.map normalize).Nodup ↔
        ∀ a ∈ names, ∀ b ∈ names, variableWords a = variableWords b → a = b) ∧
      ∀ b ∈ p.blocks, b.kind = .say → ∃ ps, b.paramList = .ok ps ∧
        (param ps "who" ≠ "" → param ps "text" ≠ "" → param ps "who" ∈ c.names ∧
          ∀ indent labels, ∃ spoken, b.render indent { cast := some cast, labels } =
            .ok (indent ++ normalize (param ps "who") ++ " " ++ spoken)) := by
  obtain ⟨ms, names, blockNames, c, rest, hms, hnames, hblocks, hc, rfl⟩ := script_credits h
  have hcast : ∃ found own, p.sceneCast = .ok (cast found own blockNames) := by
    rw [sceneCast, hnames, ok_bind, hblocks, ok_bind, undefinedCharacters_of_object hms, ok_bind,
      hms]
    exact ⟨_, _, rfl⟩
  obtain ⟨found, own, hcast⟩ := hcast
  obtain ⟨hdistinct, hperm⟩ := hc.names_perm hms (hkeys ms hms) hnames hblocks
  refine ⟨ms, names, blockNames, _, c, rest, hms, hnames, hblocks, hcast, hc, rfl, hdistinct, hperm,
    ?_, ?_⟩
  · rw [List.nodup_map_iff_inj_on hdistinct]
    simp only [hperm.mem_iff, normalize_eq_iff]
  · intro b hb hk
    have hkey : mentionKey? b.kind = some "who" := by
      rw [hk]
      rfl
    obtain ⟨ps, hps, hmem⟩ := mem_characterNames hnames hb hkey
    refine ⟨ps, hps, fun hwho htext => ⟨hperm.mem_iff.mpr (hmem hwho), fun indent labels => ?_⟩⟩
    exact render_say hk hps hwho htext found own blockNames indent labels

/-- Three names with the same words: one of the project, one in a block and one that only speaks. -/
def namesakes : Project where
  name := .text "story"
  characters := .object [("Ann B", .object [])]
  scenes :=
    [{ id := .text "s", name := .text "Scene", label := .text "start"
       blocks :=
        [{ id := .text "d", kind := .character
           params := .object [("name", .text "Ann-B"), ("display_name", .text "Ann")] },
          { id := .text "a", kind := .say, x := .int 4
            params := .object [("who", .text "Ann B"), ("text", .text "Hi")] },
          { id := .text "b", kind := .say, x := .int 8
            params := .object [("who", .text "Ann_B"), ("text", .text "Hello")] }] }]

def namesakesText : String :=
  "# Generated by RenPy Node Editor\n# This file is auto-generated. Do not edit manually.\n\n" ++
    "# Character Definitions\ndefine Ann_B = Character(None)\n\ndefine Ann_B = Character('Ann')\n\n" ++
    "# Characters (auto-detected)\ndefine Ann_B = Character('Ann_B')\n\n\n" ++
    "# Игра начинается здесь:\nlabel start:\n    return\n    Ann_B \"Hi\"\n    Ann_B \"Hello\"\n\n"

/-- One variable is defined three times, and both speakers have it. -/
theorem namesakes_script :
    namesakes.script = .ok namesakesText ∧
      namesakes.characterNames = .ok ["Ann B", "Ann-B", "Ann_B"] :=
  ⟨eq_ok_of_toOption (by decide +kernel), eq_ok_of_toOption (by decide +kernel)⟩

theorem namesakes_variables :
    namesakes.script = .ok namesakesText ∧ ∃ (c : Credits) (rest : List String),
      namesakesText = concat (opening ++ c.lines ++ "\n# Игра начинается здесь:\n" :: rest) ∧
        c.names.Nodup ∧ ¬(c.names.map normalize).Nodup := by
  have h : namesakes.script = .ok namesakesText := eq_ok_of_toOption (by decide +kernel)
  have hnames : namesakes.characterNames = .ok ["Ann B", "Ann-B", "Ann_B"] :=
    eq_ok_of_toOption (by decide +kernel)
  have hkeys : ∀ ms, namesakes.characters = .object ms → (ms.map (·.1)).Nodup := by
    rintro ms hms
    obtain rfl := Value.object.inj hms
    simp
  obtain ⟨_, names, _, _, c, rest, -, hn, -, -, -, htext, hnodup, -, hiff, -⟩ :=
    character_variables hkeys h
  obtain rfl := Except.ok.inj (hnames.symm.trans hn)
  refine ⟨h, c, rest, htext, hnodup, fun hdistinct => ?_⟩
  have hsame : "Ann B" = "Ann-B" := hiff.mp hdistinct _ (by simp) _ (by simp) (by decide +kernel)
  exact absurd hsame (by decide)

end Project
end NovelGraph
