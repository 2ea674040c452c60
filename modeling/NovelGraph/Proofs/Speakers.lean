import NovelGraph.Proofs.VariableLines

/-! Who speaks in a script. A name that a line is spoken under is known to the cast of the scenes,
and its variable is defined before the game begins: as a character of the project, by a block, or
because it was found in the flow of the story. -/
namespace NovelGraph

open Outcome Script Text

namespace Project

variable {p : Project} {text name : String} {names blockNames undefinedNames : List String}
  {members : List (String × Value)}

section Mentions

/-- The parameter in which a block mentions a character. -/
def mentionKey? : BlockKind → Option String
  | .say => some "who"
  | .showImage | .hideImage => some "character"
  | .character => some "name"
  | _ => none

def mentionStep (names : List String) (b : Block) : Except Fault (List String) :=
  match mentionKey? b.kind with
  | none => pure names
  | some key => do pure (names ++ [param (← b.paramList) key])

lemma characterNames_eq (p : Project) :
    p.characterNames = (do
      let ms ← p.characters.members "keys"
      let named ← p.blocks.foldlM mentionStep (ms.map (·.1))
      let occurring := ms.map (·.1) ++ (named.drop ms.length).filter (!·.isEmpty)
      pure (Order.sortTexts occurring.eraseDups)) := by
  rw [characterNames]
  refine bind_congr fun ms => ?_
  congr 2

lemma mentionStep_eq_ok {b : Block} {old new : List String} (h : mentionStep old b = .ok new) :
    ∃ more, new = old ++ more ∧ ∀ key, mentionKey? b.kind = some key →
      ∃ ps, b.paramList = .ok ps ∧ param ps key ∈ more := by
  rw [mentionStep] at h
  split at h
  · rename_i hkey
    obtain rfl := Except.ok.inj h
    exact ⟨[], by simp, by simp [hkey]⟩
  · rename_i key hkey
    obtain ⟨ps, hps, h⟩ := bind_eq_ok.mp h
    obtain rfl := Except.ok.inj h
    refine ⟨_, rfl, fun key' hkey' => ⟨ps, hps, ?_⟩⟩
    obtain rfl := Option.some.inj (hkey.symm.trans hkey')
    simp

/-- Every name that a block mentions is among the names of the characters. -/
theorem mem_characterNames (h : p.characterNames = .ok names) {b : Block} (hb : b ∈ p.blocks)
    {key : String} (hkey : mentionKey? b.kind = some key) :
    ∃ ps, b.paramList = .ok ps ∧ (param ps key ≠ "" → param ps key ∈ names) := by
  rw [characterNames_eq, bind_eq_ok] at h
  obtain ⟨ms, -, h⟩ := h
  obtain ⟨named, hnamed, h⟩ := bind_eq_ok.mp h
  obtain rfl := Except.ok.inj h
  have hall : ∃ more, named = ms.map (·.1) ++ more ∧
      ∀ b ∈ p.blocks, ∀ key, mentionKey? b.kind = some key →
        ∃ ps, b.paramList = .ok ps ∧ param ps key ∈ more := by
    refine foldlM_history (fun done named => ∃ more, named = ms.map (·.1) ++ more ∧
      ∀ b ∈ done, ∀ key, mentionKey? b.kind = some key →
        ∃ ps, b.paramList = .ok ps ∧ param ps key ∈ more) ?_ ⟨[], by simp, by simp⟩ hnamed
    rintro done b - old new ⟨more, rfl, hdone⟩ hstep
    obtain ⟨last, rfl, hlast⟩ := mentionStep_eq_ok hstep
    refine ⟨more ++ last, List.append_assoc _ _ _, fun c hc key hkey => ?_⟩
    rcases List.mem_append.mp hc with hc | hc
    · obtain ⟨ps, hps, hmem⟩ := hdone c hc key hkey
      exact ⟨ps, hps, by simp [hmem]⟩
    · rw [List.mem_singleton.mp hc] at hkey ⊢
      obtain ⟨ps, hps, hmem⟩ := hlast key hkey
      exact ⟨ps, hps, by simp [hmem]⟩
  obtain ⟨more, rfl, hmore⟩ := hall
  obtain ⟨ps, hps, hmem⟩ := hmore b hb key hkey
  refine ⟨ps, hps, fun hne => (Order.sortByKey_perm _ _ _).mem_iff.mpr ?_⟩
  rw [List.mem_eraseDups, List.drop_left' (by simp)]
  exact List.mem_append_right _ (List.mem_filter.mpr ⟨hmem, by simpa using hne⟩)

end Mentions

section Sources

lemma exists_of_mem_characterBlockNames (h : p.characterBlockNames = .ok blockNames)
    (hname : name ∈ blockNames) :
    ∃ b ∈ p.blocks, b.kind = .character ∧
      ∃ ps, b.paramList = .ok ps ∧ param ps "name" = name ∧ name ≠ "" := by
  rw [characterBlockNames, bind_eq_ok] at h
  obtain ⟨all, hall, h⟩ := h
  obtain rfl := Except.ok.inj h
  rw [List.mem_eraseDups, List.mem_filter] at hname
  obtain ⟨hmem, hne⟩ := hname
  obtain ⟨ps, hps, rfl⟩ := List.mem_map.mp hmem
  obtain ⟨b, hb, hparams⟩ := (mem_of_mapM_eq_ok hall).mp hps
  obtain ⟨hin, hk⟩ := List.mem_filter.mp hb
  exact ⟨b, hin, beq_iff_eq.mp hk, ps, hparams, rfl, by simpa using hne⟩

/-- Where a character comes from: the project, a block, or the flow of the story alone. -/
lemma source_cases (hu : p.undefinedCharacters names blockNames = .ok undefinedNames)
    (hm : p.characters.members "keys" = .ok members) (hname : name ∈ names) :
    name ∈ undefinedNames ∨ name ∈ members.map (·.1) ∨ name ∈ blockNames := by
  obtain ⟨keep, hkeep, hmem⟩ := filterM_eq_ok hu name hname
  obtain ⟨known, hknown, hkeep⟩ := bind_eq_ok.mp hkeep
  obtain rfl := Except.ok.inj hkeep
  rw [namesCharacter_of_object (Value.eq_object_of_members hm)] at hknown
  obtain rfl := Except.ok.inj hknown
  by_cases hproject : name ∈ members.map (·.1)
  · exact .inr (.inl hproject)
  by_cases hblocks : name ∈ blockNames
  · exact .inr (.inr hblocks)
  -- neither the project nor a block has it
  refine .inl (hmem ?_)
  rw [decide_eq_false hproject]
  simpa using hblocks

end Sources

section Front

variable {definitions : String} {narrator : List String}

lemma detectedSection_endsLine (names : List String) :
    ∀ line ∈ detectedSection names, EndsLine line := by
  intro line hline
  rw [detectedSection] at hline
  split_ifs at hline
  · cases hline
  · simp only [List.mem_append, List.mem_singleton, List.mem_map] at hline
    rcases hline with (rfl | ⟨n, -, rfl⟩) | rfl
    · exact endsLine_of_last rfl
    · exact (characterLine_unlike _ _).1
    · exact endsLine_newline

lemma detectedSection_head (h : name ∈ names) :
    ∃ line ∈ detectedSection names, HasLine line (characterHead name) := by
  rw [detectedSection, if_neg (by simpa using List.ne_nil_of_mem h)]
  refine ⟨characterLine "" (normalize name) (some name), ?_, characterLine_head _ _⟩
  simp only [List.mem_append, List.mem_map]
  exact .inl (.inr ⟨name, h, rfl⟩)

lemma front_endsLine (undefinedNames : List String) (hd : EndsLine definitions)
    (hn : narrator ∈ [[], ["define narrator = Character('Narrator')\n\n"]]) :
    ∀ part ∈ front definitions undefinedNames narrator, EndsLine part := by
  have hnarrator : ∀ part ∈ narrator, EndsLine part := by
    simp only [List.mem_cons, List.not_mem_nil, or_false] at hn
    rcases hn with rfl | rfl
    · simp
    · exact List.forall_mem_singleton.mpr (endsLine_of_last rfl)
  simp only [front, List.forall_mem_append, List.forall_mem_cons]
  exact ⟨⟨⟨⟨endsLine_of_last rfl, endsLine_of_last rfl, hd, by simp⟩, detectedSection_endsLine _⟩,
    hnarrator⟩, endsLine_of_last rfl, by simp⟩

/-- Each character has its definition before the entry of the game, wherever it comes from. -/
theorem front_head (hd : p.definitions = .ok definitions)
    (hb : p.characterBlockNames = .ok blockNames)
    (hu : p.undefinedCharacters names blockNames = .ok undefinedNames)
    (hm : p.characters.members "keys" = .ok members)
    (hn : narrator ∈ [[], ["define narrator = Character('Narrator')\n\n"]]) (hname : name ∈ names) :
    HasLine (concat (front definitions undefinedNames narrator)) (characterHead name) := by
  obtain ⟨lines, hlines, rfl⟩ := definitions_eq_ok hd
  have hdef := definitionLines_defining hlines
  have hends := front_endsLine undefinedNames (endsLine_concat hdef.ends) hn
  have hstated : (∃ line ∈ lines, HasLine line (characterHead name)) →
      HasLine (concat (front (concat lines) undefinedNames narrator)) (characterHead name) := by
    rintro ⟨line, hline, hhead⟩
    exact (hhead.concat hline hdef.ends).concat (by simp [front]) hends
  rcases source_cases hu hm hname with hfound | hproject | hblock
  · obtain ⟨line, hline, hhead⟩ := detectedSection_head hfound
    exact hhead.concat (by simp [front, hline]) hends
  · exact hstated (hdef.cast members (Value.eq_object_of_members hm) name hproject)
  · obtain ⟨b, hin, hk, ps, hps, rfl, hne⟩ := exists_of_mem_characterBlockNames hb hblock
    exact hstated (hdef.characters b hin hk ps hps hne)

end Front

section Cast

/-- The cast that the scenes of a project are written with. -/
def sceneCast (p : Project) : Except Fault Cast := do
  let names ← p.characterNames
  let blockNames ← p.characterBlockNames
  let undefinedNames ← p.undefinedCharacters names blockNames
  let members ← p.characters.members "keys"
  pure (cast undefinedNames (members.map (·.1)) blockNames)

lemma mem_cast {entry : String × String} {projectNames : List String} :
    entry ∈ cast undefinedNames projectNames blockNames ↔
      (entry.1 ∈ undefinedNames ∨ entry.1 ∈ projectNames ∨ entry.1 ∈ blockNames) ∧
        entry.2 = normalize entry.1 := by
  obtain ⟨name, variableName⟩ := entry
  simp only [cast, List.mem_map, List.mem_eraseDups, List.mem_append, Prod.mk.injEq]
  constructor
  · rintro ⟨n, hn, rfl, rfl⟩
    exact ⟨or_assoc.mp hn, rfl⟩
  · rintro ⟨hn, rfl⟩
    exact ⟨name, or_assoc.mpr hn, rfl, rfl⟩

/-- Found in a cast or not, a speaker is written by the same variable. -/
lemma speaker_cast {projectNames : List String} :
    speaker (some (cast undefinedNames projectNames blockNames)) name = normalize name := by
  rw [speaker]
  split
  · rename_i entry hfind
    have hkey : entry.1 = name := by simpa using List.find?_some hfind
    rw [(mem_cast.mp (List.mem_of_find?_eq_some hfind)).2, hkey]
  · rfl

end Cast

end Project

/-- A spoken line begins with the variable of its speaker. -/
lemma Script.say_eq (cast : Option Cast) {ps : Params} (hwho : param ps "who" ≠ "")
    (htext : param ps "text" ≠ "") (indent : String) :
    ∃ rest, say cast indent ps = indent ++ speaker cast (param ps "who") ++ " " ++ rest := by
  rw [say, if_neg (by simpa using htext), if_neg (by simpa using hwho)]
  dsimp only
  split_ifs
  · simp only [String.append_empty, String.append_assoc]
    exact ⟨_, rfl⟩
  · simp only [String.append_assoc]
    exact ⟨_, rfl⟩

namespace Project

variable {p : Project} {text : String}

/-- Every speaker is defined: whoever has a line to say is in the cast that all scenes are written
with, and the line begins with a word that is defined as a character before the game begins. -/
theorem speakers_defined (h : p.script = .ok text) :
    ∃ cast labels head entry scenes,
      p.sceneCast = .ok cast ∧ p.labels = .ok labels ∧
      p.scenes.mapM (·.script (some cast) labels) = .ok scenes ∧ EndsLine head ∧
      text = head ++ "label start:\n" ++ entry ++ concat scenes ∧
      ∀ s ∈ p.scenes, ∀ b ∈ s.blocks, b.kind = .say → ∃ ps, b.paramList = .ok ps ∧
        (param ps "who" ≠ "" → param ps "text" ≠ "" →
          ∃ word, (param ps "who", word) ∈ cast ∧
            (∀ c ∈ word.toList, isWord c = true) ∧
            (∀ indent, ∃ rest, b.render indent { cast := some cast, labels := some labels } =
              .ok (indent ++ word ++ " " ++ rest)) ∧
            HasLine head ("define " ++ word ++ " = Character(")) := by
  obtain ⟨definitions, names, blockNames, undefinedNames, members, narrator, entry, labels, scenes,
    hdef, hnames, hblocks, hundef, hmembers, hnarrator, hlabels, hscenes, -, rfl⟩ := script_run h
  have hcast : p.sceneCast = .ok (cast undefinedNames (members.map (·.1)) blockNames) := by
    rw [sceneCast, hnames, ok_bind, hblocks, ok_bind, hundef, ok_bind, hmembers, ok_bind]
    rfl
  refine ⟨_, labels, _, entry, scenes, hcast, hlabels, hscenes, ?_, rfl, ?_⟩
  · rw [front, concat_append]
    exact endsLine_append_of_last _ rfl
  · intro s hs b hb hk
    have hkey : mentionKey? b.kind = some "who" := by
      rw [hk]
      rfl
    obtain ⟨ps, hps, hmem⟩ := mem_characterNames hnames (List.mem_flatMap.mpr ⟨s, hs, hb⟩) hkey
    refine ⟨ps, hps, fun hwho htext => ⟨normalize (param ps "who"), ?_, ?_, ?_, ?_⟩⟩
    · exact mem_cast.mpr ⟨source_cases hundef hmembers (hmem hwho), rfl⟩
    · exact isWord_of_mem_normalize _
    · intro indent
      obtain ⟨rest, hrest⟩ := say_eq (some (cast undefinedNames (members.map (·.1)) blockNames))
        hwho htext indent
      rw [speaker_cast] at hrest
      refine ⟨rest, ?_⟩
      simp only [Block.render, hk, hps, ok_bind, hrest]
      rfl
    · exact front_head hdef hblocks hundef hmembers hnarrator (hmem hwho)

/-- One speaker from the project, one from a block and one that only speaks. -/
def threeVoices : Project where
  name := .text "story"
  characters := .object [("Ann B", .object [])]
  scenes :=
    [{ id := .text "s", name := .text "Scene", label := .text "start"
       blocks :=
        [{ id := .text "d", kind := .character, params := .object [("name", .text "Bob")] },
          { id := .text "a", kind := .say
            params := .object [("who", .text "Ann B"), ("text", .text "Hi")] },
          { id := .text "b", kind := .say
            params := .object [("who", .text "Bob"), ("text", .text "Hello")] },
          { id := .text "c", kind := .say
            params := .object [("who", .text "Cy"), ("text", .text "Hey")] }] }]

def threeVoicesText : String :=
  "# Generated by RenPy Node Editor\n# This file is auto-generated. Do not edit manually.\n\n" ++
    "# Character Definitions\ndefine Ann_B = Character(None)\n\ndefine Bob = Character(None)\n\n" ++
    "# Characters (auto-detected)\ndefine Cy = Character('Cy')\n\n\n# Игра начинается здесь:\n" ++
    "label start:\n    return\n    Ann_B \"Hi\"\n    Bob \"Hello\"\n    Cy \"Hey\"\n\n"

theorem threeVoices_speakers :
    threeVoices.script = .ok threeVoicesText ∧
      ∃ head rest, threeVoicesText = head ++ "label start:\n" ++ rest ∧
        ∀ word ∈ ["Ann_B", "Bob", "Cy"], HasLine head ("define " ++ word ++ " = Character(") := by
  have h : threeVoices.script = .ok threeVoicesText := eq_ok_of_toOption (by decide +kernel)
  have hcast : threeVoices.sceneCast = .ok [("Cy", "Cy"), ("Ann B", "Ann_B"), ("Bob", "Bob")] :=
    eq_ok_of_toOption (by decide +kernel)
  obtain ⟨cast, labels, head, entry, scenes, hc, -, -, -, htext, hsay⟩ := speakers_defined h
  obtain rfl := Except.ok.inj (hcast.symm.trans hc)
  have hvoice : ∀ (who word : String) (b : Block) (ps : Params), b ∈ threeVoices.blocks →
      b.kind = .say → b.paramList = .ok ps → param ps "who" = who ∧ who ≠ "" →
      param ps "text" ≠ "" →
      (∀ w, (who, w) ∈ [("Cy", "Cy"), ("Ann B", "Ann_B"), ("Bob", "Bob")] → w = word) →
      HasLine head ("define " ++ word ++ " = Character(") := by
    rintro who word b ps hb hk hps ⟨rfl, hwho⟩ hsaid hword
    obtain ⟨s, hs, hb⟩ := List.mem_flatMap.mp hb
    obtain ⟨qs, hqs, hdefined⟩ := hsay s hs b hb hk
    obtain rfl := Except.ok.inj (hps.symm.trans hqs)
    obtain ⟨w, hw, -, -, hline⟩ := hdefined hwho hsaid
    rwa [hword w hw] at hline
  refine ⟨h, head, entry ++ concat scenes, by rw [htext, String.append_assoc], ?_⟩
  simp only [List.forall_mem_cons]
  refine ⟨?_, ?_, ?_, by simp⟩
  · exact hvoice "Ann B" "Ann_B" threeVoices.blocks[1] _ (by decide) rfl rfl (by decide +kernel)
      (by decide +kernel) (by simp)
  · exact hvoice "Bob" "Bob" threeVoices.blocks[2] _ (by decide) rfl rfl (by decide +kernel)
      (by decide +kernel) (by simp)
  · exact hvoice "Cy" "Cy" threeVoices.blocks[3] _ (by decide) rfl rfl (by decide +kernel)
      (by decide +kernel) (by simp)

end Project
end NovelGraph
