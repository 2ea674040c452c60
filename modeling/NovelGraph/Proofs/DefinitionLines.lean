import NovelGraph.Proofs.Preamble

/-! What the definitions of a project hold for its pictures and characters, whether they come from
blocks or from the project itself. Every one of them has a line, and no such line states a default
value. -/
namespace NovelGraph

open Outcome Script Text

namespace Text

/-- A text of whole lines that does not begin with a word. -/
def Unlike (word line : String) : Prop := EndsLine line ∧ startsWith line word = false

/-- Lines that may be closed by one more. -/
lemma mem_closed {p : Prop} [Decidable p] {lines : List String} {line last : String} :
    line ∈ (if p then lines else lines ++ [last]) ↔ line ∈ lines ∨ ¬p ∧ line = last := by
  split_ifs with h <;> simp [h]

end Text

namespace NamedTexts

variable {d : NamedTexts} {name other text : String}

lemma contains_set :
    (d.set other text).contains name = true ↔ d.contains name = true ∨ other = name := by
  induction d with
  | nil => simp [set, contains]
  | cons e rest ih =>
    obtain ⟨key, old⟩ := e
    rw [set]
    split_ifs with h
    · obtain rfl := beq_iff_eq.mp h
      simp only [contains, List.any_cons, Bool.or_eq_true, beq_iff_eq]
      tauto
    · simp only [contains, List.any_cons, Bool.or_eq_true, beq_iff_eq] at ih ⊢
      rw [ih, or_assoc]

lemma contains_foldl_setNew {α : Type} {key value : α → String} (items : List α)
    (h : d.contains name = true) :
    (items.foldl (fun d a => NamedTexts.setNew d (key a) (value a)) d).contains name = true := by
  induction items generalizing d with
  | nil => exact h
  | cons a rest ih =>
    refine ih ?_
    simp only [setNew]
    split_ifs
    · exact h
    · rw [contains] at h ⊢
      rw [List.any_append, h, Bool.true_or]

end NamedTexts

namespace Project

variable {p : Project} {lines : List String} {text : String}

section Images

/-- A picture with a name and a path is among the pictures of the blocks. -/
lemma imageBlocks_contains {images : NamedTexts} (h : p.imageBlocks = .ok images) {b : Block}
    (hb : b ∈ p.blocks) (hk : b.kind = .image) {ps : Params} (hps : b.paramList = .ok ps)
    (hname : param ps "name" ≠ "") (hpath : param ps "path" ≠ "") :
    images.contains (normalize (param ps "name")) = true := by
  rw [imageBlocks, bind_eq_ok] at h
  obtain ⟨all, hall, h⟩ := h
  obtain rfl := Except.ok.inj h
  have hmem : ps ∈ all := (mem_of_mapM_eq_ok hall).mpr ⟨b, by simp [blocksOf, hb, hk], hps⟩
  have hfold : ∀ (all : List Params) (d : NamedTexts),
      ps ∈ all ∨ d.contains (normalize (param ps "name")) = true →
      (all.foldl (fun d ps =>
        if (param ps "name").isEmpty || (param ps "path").isEmpty then d
        else d.set (normalize (param ps "name")) (param ps "path")) d).contains
          (normalize (param ps "name")) = true := by
    intro all
    induction all with
    | nil => exact fun d hd => hd.resolve_left (by simp)
    | cons qs rest ih =>
      intro d hd
      refine ih _ ?_
      rcases hd with hd | hd
      · rcases List.mem_cons.mp hd with rfl | hd
        · refine .inr ?_
          simp [hname, hpath, NamedTexts.contains_set]
        · exact .inl hd
      · refine .inr ?_
        dsimp only
        split_ifs
        · exact hd
        · exact NamedTexts.contains_set.mpr (.inl hd)
  exact hfold all [] (.inl hmem)

lemma allImages_contains {images : NamedTexts} (h : p.allImages = .ok images) {b : Block}
    (hb : b ∈ p.blocks) (hk : b.kind = .image) {ps : Params} (hps : b.paramList = .ok ps)
    (hname : param ps "name" ≠ "") (hpath : param ps "path" ≠ "") :
    images.contains (normalize (param ps "name")) = true := by
  rw [allImages, bind_eq_ok] at h
  obtain ⟨fromBlocks, hblocks, h⟩ := h
  have hin := imageBlocks_contains hblocks hb hk hps hname hpath
  obtain ⟨fromProject, backgrounds, rfl⟩ : ∃ (fromProject : List (String × Value))
      (backgrounds : NamedTexts),
      backgrounds.foldl (fun d m => NamedTexts.setNew d m.1 m.2)
        ((sortedMembers fromProject).foldl (fun d m => NamedTexts.setNew d m.1 m.2.display)
          fromBlocks) = images := by
    split_ifs at h
    · obtain ⟨fromProject, -, h⟩ := bind_eq_ok.mp h
      obtain ⟨backgrounds, -, h⟩ := bind_eq_ok.mp h
      exact ⟨fromProject, backgrounds, Except.ok.inj h⟩
    · obtain ⟨fromProject, -, h⟩ := bind_eq_ok.mp h
      obtain ⟨backgrounds, -, h⟩ := bind_eq_ok.mp h
      exact ⟨fromProject, backgrounds, Except.ok.inj h⟩
  exact NamedTexts.contains_foldl_setNew _ (NamedTexts.contains_foldl_setNew _ hin)

/-- The lines of the pictures. -/
lemma imageSection_eq_ok (h : p.imageSection = .ok lines) :
    (∀ line ∈ lines, Unlike "default " line) ∧
      ∀ b ∈ p.blocks, b.kind = .image → ∀ ps, b.paramList = .ok ps → param ps "name" ≠ "" →
        param ps "path" ≠ "" →
        ∃ line ∈ lines, HasLine line ("image " ++ normalize (param ps "name") ++ " = ") := by
  rw [imageSection, bind_eq_ok] at h
  obtain ⟨images, himages, h⟩ := h
  constructor
  · intro line hline
    split_ifs at h
    · obtain rfl := Except.ok.inj h
      cases hline
    · obtain rfl := Except.ok.inj h
      simp only [List.mem_append, List.mem_singleton, List.mem_map] at hline
      rcases hline with (rfl | ⟨m, hm, rfl⟩) | rfl
      · exact ⟨endsLine_of_last rfl, rfl⟩
      · exact ⟨endsLine_line _, by simp [startsWith, List.isPrefixOf]⟩
      · exact ⟨endsLine_newline, rfl⟩
  · intro b hb hk ps hps hname hpath
    obtain ⟨m, hm, hkey⟩ := List.any_eq_true.mp (allImages_contains himages hb hk hps hname hpath)
    rw [if_neg (by simpa using List.ne_nil_of_mem hm)] at h
    obtain rfl := Except.ok.inj h
    refine ⟨"image " ++ m.1 ++ " = " ++ inQuotes m.2 ++ "\n", ?_, ?_⟩
    · have hsorted : m ∈ images.sorted := (Order.sortByKey_perm _ _ _).mem_iff.mpr hm
      simp only [List.mem_append, List.mem_map]
      exact .inl (.inr ⟨m, hsorted, rfl⟩)
    · rw [← beq_iff_eq.mp hkey, String.append_assoc]
      exact hasLine_append _ _

end Images

section Characters

/-- How the definition of a character begins. -/
def characterHead (name : String) : String := "define " ++ normalize name ++ " = Character("

lemma characterLine_head (name : String) (displayed : Option String) :
    HasLine (characterLine "" (normalize name) displayed) (characterHead name) := by
  rw [characterLine.eq_def, String.empty_append, String.append_assoc]
  exact hasLine_append _ _

lemma characterLine_unlike (name : String) (displayed : Option String) :
    Unlike "default " (characterLine "" (normalize name) displayed) :=
  ⟨endsLine_append_of_last _ rfl, by simp [characterLine, startsWith, List.isPrefixOf]⟩

lemma characterSection_unlike (h : p.characterSection = .ok lines) :
    ∀ line ∈ lines, Unlike "default " line := by
  intro line hline
  rw [characterSection] at h
  split_ifs at h
  · obtain ⟨ms, -, h⟩ := bind_eq_ok.mp h
    obtain ⟨entries, hentries, h⟩ := bind_eq_ok.mp h
    obtain rfl := Except.ok.inj h
    simp only [List.mem_append, List.mem_singleton] at hline
    rcases hline with (rfl | hentry) | rfl
    · exact ⟨endsLine_of_last rfl, rfl⟩
    · obtain ⟨m, -, hentry⟩ := (mem_of_mapM_eq_ok hentries).mp hentry
      obtain ⟨_, _, -, rfl, -⟩ := characterEntry_eq_ok hentry
      exact characterLine_unlike _ _
    · exact ⟨endsLine_newline, rfl⟩
  · obtain rfl := Except.ok.inj h
    cases hline

/-- The characters of the project have their lines. -/
lemma characterSection_mem (h : p.characterSection = .ok lines) {ms : List (String × Value)}
    (hms : p.characters = .object ms) {name : String} (hname : name ∈ ms.map (·.1)) :
    ∃ line ∈ lines, HasLine line (characterHead name) := by
  obtain ⟨m, hm, rfl⟩ := List.mem_map.mp hname
  have htruthy : p.characters.isTruthy = true := by
    rw [hms, Value.isTruthy]
    simpa using List.ne_nil_of_mem hm
  rw [characterSection, if_pos htruthy, hms, Value.members, ok_bind, bind_eq_ok] at h
  obtain ⟨entries, hentries, h⟩ := h
  obtain rfl := Except.ok.inj h
  have hsorted : m ∈ sortedMembers ms := (Order.sortByKey_perm _ _ _).mem_iff.mpr hm
  obtain ⟨line, hline, hentry⟩ := exists_of_mapM_eq_ok hentries hsorted
  refine ⟨line, by simp [hline], ?_⟩
  obtain ⟨_, _, -, rfl, -⟩ := characterEntry_eq_ok hentry
  exact characterLine_head _ _

/-- With definitions at all, a name can only occur among the characters of a project as a key. -/
lemma mem_of_namesCharacter (h : p.characterSection = .ok lines) {name : String} (hne : name ≠ "")
    (hname : p.namesCharacter name = .ok true) :
    ∃ ms, p.characters = .object ms ∧ name ∈ ms.map (·.1) := by
  rw [characterSection] at h
  unfold namesCharacter at hname
  split at hname
  · rename_i ms hms
    obtain ⟨m, hm, hkey⟩ := List.any_eq_true.mp (Except.ok.inj hname)
    exact ⟨ms, hms, List.mem_map.mpr ⟨m, hm, beq_iff_eq.mp hkey⟩⟩
  · -- a list with an item has no keys to be listed
    rename_i items hitems
    rw [hitems] at h
    cases items with
    | nil => cases hname
    | cons => cases h
  · rename_i s hs
    rw [hs, Value.isTruthy] at h
    by_cases hempty : s = ""
    · subst hempty
      simp [Text.contains, Text.find?, hne] at hname
    · rw [if_pos (by simpa using hempty)] at h
      cases h
  · cases hname

/-- One block of the characters. -/
def characterStep (p : Project) (before : List String) (state : List String × List String)
    (b : Block) : Except Fault (List String × List String) := do
  let ps ← b.paramList
  let name := param ps "name"
  if name.isEmpty then pure state
  else if (← p.namesCharacter name) || state.2.contains name then pure state
  else
    let heading :=
      if !p.characters.isTruthy && before.isEmpty && state.1.isEmpty then
        ["# Character Definitions (from blocks)\n"]
      else []
    pure (state.1 ++ heading ++ [characterDefinition "" ps], state.2 ++ [name])

lemma characterBlockSection_eq (p : Project) (before : List String) :
    p.characterBlockSection before = (do
      let state ← (p.blocksOf .character).foldlM (p.characterStep before) ([], [])
      pure (if state.2.isEmpty then state.1 else state.1 ++ ["\n"])) := rfl

/-- What a block of the characters does: nothing, if its name is empty or was defined, else it adds
a line. -/
lemma characterStep_eq_ok {before : List String} {state state' : List String × List String}
    {b : Block} (h : p.characterStep before state b = .ok state') :
    ∃ ps, b.paramList = .ok ps ∧
      ((state' = state ∧ (param ps "name" = "" ∨ p.namesCharacter (param ps "name") = .ok true ∨
          param ps "name" ∈ state.2)) ∨
        ∃ heading, (heading = [] ∨
            state.1 = [] ∧ heading = ["# Character Definitions (from blocks)\n"]) ∧
          (param ps "name" ≠ "" ∧ p.namesCharacter (param ps "name") = .ok false ∧
            param ps "name" ∉ state.2) ∧
          state' = (state.1 ++ heading ++
            [characterLine "" (normalize (param ps "name")) (nonEmpty? (param ps "display_name"))],
              state.2 ++ [param ps "name"])) := by
  rw [characterStep, bind_eq_ok] at h
  obtain ⟨ps, hps, h⟩ := h
  refine ⟨ps, hps, ?_⟩
  by_cases hempty : (param ps "name").isEmpty = true
  · rw [if_pos hempty] at h
    exact .inl ⟨(Except.ok.inj h).symm, .inl (by simpa using hempty)⟩
  · rw [if_neg hempty] at h
    obtain ⟨named, hnamed, h⟩ := bind_eq_ok.mp h
    split at h
    · rename_i hdone
      refine .inl ⟨(Except.ok.inj h).symm, .inr ?_⟩
      rcases (Bool.or_eq_true _ _).mp hdone with rfl | hdone
      · exact .inl hnamed
      · exact .inr (by simpa using hdone)
    · rename_i hnew
      obtain ⟨hown, hdone⟩ := Bool.or_eq_false_iff.mp (Bool.eq_false_iff.mpr hnew)
      obtain rfl := Except.ok.inj h
      refine .inr ⟨_, ?_, ⟨by simpa using hempty, hown ▸ hnamed, by simpa using hdone⟩,
        by rw [characterDefinition, if_neg hempty]⟩
      split_ifs with hfirst
      · refine .inr ⟨?_, rfl⟩
        simp only [Bool.and_eq_true, List.isEmpty_iff] at hfirst
        exact hfirst.2
      · exact .inl rfl

/-- What is known when some blocks of the characters have been gone through. -/
structure CharactersDone (p : Project) (done : List Block) (state : List String × List String) :
    Prop where
  unlike : ∀ line ∈ state.1, Unlike "default " line
  named : ∀ name ∈ state.2, ∃ line ∈ state.1, HasLine line (characterHead name)
  done : ∀ b ∈ done, ∀ ps, b.paramList = .ok ps → param ps "name" ≠ "" →
    p.namesCharacter (param ps "name") = .ok true ∨ param ps "name" ∈ state.2

lemma CharactersDone.step {before : List String} {done : List Block} {b : Block}
    {state state' : List String × List String} (hs : p.CharactersDone done state)
    (h : p.characterStep before state b = .ok state') : p.CharactersDone (done ++ [b]) state' := by
  obtain ⟨ps, hps, ⟨rfl, hold⟩ | ⟨heading, hheading, -, rfl⟩⟩ := characterStep_eq_ok h
  · refine ⟨hs.unlike, hs.named, ?_⟩
    intro c hc qs hqs hne
    rcases List.mem_append.mp hc with hc | hc
    · exact hs.done c hc qs hqs hne
    · rw [List.mem_singleton.mp hc, hps] at hqs
      obtain rfl := Except.ok.inj hqs
      exact hold.resolve_left hne
  · constructor
    · intro line hline
      simp only [List.mem_append, List.mem_singleton] at hline
      rcases hline with (hline | hline) | rfl
      · exact hs.unlike line hline
      · rcases hheading with rfl | ⟨-, rfl⟩
        · cases hline
        · rw [List.mem_singleton.mp hline]
          exact ⟨endsLine_of_last rfl, rfl⟩
      · exact characterLine_unlike _ _
    · intro name hname
      rcases List.mem_append.mp hname with hname | hname
      · obtain ⟨line, hline, hhead⟩ := hs.named name hname
        exact ⟨line, by simp [hline], hhead⟩
      · rw [List.mem_singleton.mp hname]
        exact ⟨_, List.mem_append_right _ (List.mem_singleton_self _), characterLine_head _ _⟩
    · intro c hc qs hqs hne
      rcases List.mem_append.mp hc with hc | hc
      · exact (hs.done c hc qs hqs hne).imp_right fun hmem => by simp [hmem]
      · rw [List.mem_singleton.mp hc, hps] at hqs
        obtain rfl := Except.ok.inj hqs
        exact .inr (by simp)

/-- The blocks of the characters have their lines, unless the project has them already. -/
lemma characterBlockSection_eq_ok {before : List String}
    (h : p.characterBlockSection before = .ok lines) :
    (∀ line ∈ lines, Unlike "default " line) ∧
      ∀ b ∈ p.blocks, b.kind = .character → ∀ ps, b.paramList = .ok ps → param ps "name" ≠ "" →
        p.namesCharacter (param ps "name") = .ok true ∨
          ∃ line ∈ lines, HasLine line (characterHead (param ps "name")) := by
  rw [characterBlockSection_eq, bind_eq_ok] at h
  obtain ⟨state, hstate, h⟩ := h
  obtain rfl := Except.ok.inj h
  have hdone : p.CharactersDone (p.blocksOf .character) state :=
    foldlM_history p.CharactersDone (fun _ _ _ _ _ hs hstep => hs.step hstep)
      ⟨by simp, by simp, by simp⟩ hstate
  constructor
  · intro line hline
    rcases mem_closed.mp hline with hline | ⟨-, rfl⟩
    · exact hdone.unlike line hline
    · exact ⟨endsLine_newline, rfl⟩
  · intro b hb hk ps hps hne
    refine (hdone.done b (by simp [blocksOf, hb, hk]) ps hps hne).imp_right fun hmem => ?_
    obtain ⟨line, hline, hhead⟩ := hdone.named _ hmem
    exact ⟨line, mem_closed.mpr (.inl hline), hhead⟩

end Characters

end Project
end NovelGraph
