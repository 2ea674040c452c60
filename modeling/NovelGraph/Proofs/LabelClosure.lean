import NovelGraph.Proofs.Chunks
import NovelGraph.Proofs.LineEnds
import NovelGraph.Script.Whole

/-! Where the jumps and calls of a script lead: every label that is known to a script is opened by
one of its lines, so no jump or call of a block, however deep it stands, leads out of it. -/
namespace NovelGraph

open Outcome Script Text

namespace Script

/-- Texts that are put together from what blocks write by themselves: one behind the other, or as
suites of control statements. -/
inductive Assembled (own : Block → String → String → Prop) : String → Prop
  | filler {text : String} (h : text ∈ ["", "\n", "pass\n\n"]) : Assembled own text
  | own {b : Block} {indent text : String} (h : own b indent text) : Assembled own text
  | append {s t : String} (hs : Assembled own s) (ht : Assembled own t) : Assembled own (s ++ t)
  | ifElse {yes no : String} (indent : String) (ps : Params) (hyes : Assembled own yes)
      (hno : Assembled own no) : Assembled own (conditional indent ps yes no)
  | whileLoop {text : String} (indent : String) (ps : Params) (h : Assembled own text) :
      Assembled own (whileLoop indent ps text)
  | forLoop {text : String} (indent : String) (ps : Params) (h : Assembled own text) :
      Assembled own (forLoop indent ps text)

namespace Assembled

variable {own : Block → String → String → Prop}

lemma empty : Assembled own "" := .filler (by simp)

lemma concat {parts : List String} (h : ∀ s ∈ parts, Assembled own s) :
    Assembled own (Text.concat parts) := by
  induction parts with
  | nil => exact empty
  | cons s rest ih => exact .append (h s (by simp)) (ih fun t ht => h t (by simp [ht]))

lemma mono {own' : Block → String → String → Prop} {text : String}
    (hown : ∀ {b indent t}, own b indent t → own' b indent t) (h : Assembled own text) :
    Assembled own' text := by
  induction h with
  | filler h => exact .filler h
  | own h => exact .own (hown h)
  | append _ _ ihs iht => exact .append ihs iht
  | ifElse indent ps _ _ ihyes ihno => exact .ifElse indent ps ihyes ihno
  | whileLoop indent ps _ ih => exact .whileLoop indent ps ih
  | forLoop indent ps _ ih => exact .forLoop indent ps ih

lemma endsLine {text : String} (hown : ∀ {b indent t}, own b indent t → EndsLine t)
    (h : Assembled own text) : EndsLine text := by
  induction h with
  | filler h =>
    simp only [List.mem_cons, List.not_mem_nil, or_false] at h
    rcases h with rfl | rfl | rfl
    · exact endsLine_empty
    · exact endsLine_newline
    · exact endsLine_of_last rfl
  | own h => exact hown h
  | append _ _ ihs iht => exact (endsLine_append _ _).mpr ⟨iht, fun _ => ihs⟩
  | ifElse indent ps => exact conditional_endsLine indent ps _ _
  | whileLoop indent ps => exact whileLoop_endsLine indent ps _
  | forLoop indent ps => exact forLoop_endsLine indent ps _

end Assembled
end Script

/-- What blocks of a scene write in given surroundings. -/
def Scene.Own (s : Scene) (around : Surroundings) (b : Block) (indent text : String) : Prop :=
  b ∈ s.blocks ∧ b.render indent around = .ok text

namespace Flow

variable {f : Flow} {fuel : ℕ} {seen seen' : List Value} {indent text : String} {follow : Bool}
  {id : Value} {b : Block}

lemma ownText_assembled (hb : b ∈ f.scene.blocks) (h : f.ownText indent b = .ok text) :
    Assembled (f.scene.Own f.around) text := by
  unfold ownText at h
  split at h
  · cases h
    exact .empty
  · exact .own ⟨hb, h⟩

/-- Chains are put together from what blocks write, at every depth. -/
theorem chainFrom_assembled (h : f.chainFrom fuel seen indent follow id = .ok (text, seen')) :
    Assembled (f.scene.Own f.around) text := by
  induction fuel generalizing seen indent follow id text seen' with
  | zero =>
    cases h
    exact .empty
  | succ fuel ih =>
    have hbranch : ∀ {seen indent b n text}, f.branchFrom fuel seen indent b n = .ok text →
        Assembled (f.scene.Own f.around) text := by
      intro seen indent b n text h
      rcases branchFrom_eq_ok h with rfl | ⟨next, after, -, ht⟩
      · exact .empty
      · exact ih ht
    cases chainFrom_step h with
    | skipped => exact .empty
    | missing => exact .empty
    | control _ _ written =>
      cases written with
      | silent => exact .empty
      | ifElse _ _ first second => exact .ifElse _ _ (hbranch first) (hbranch second)
      | whileLoop _ _ first => exact .whileLoop _ _ (hbranch first)
      | forLoop _ _ first => exact .forLoop _ _ (hbranch first)
    | single _ found written => exact ownText_assembled (Scene.findBlock_mem found) written
    | followed _ found written _ rest =>
      have hfirst := ownText_assembled (Scene.findBlock_mem found) written
      refine foldlM_invariant (fun done => Assembled (f.scene.Own f.around) done.1) ?_ hfirst rest
      intro t _ done done' hdone hstep
      obtain ⟨more, hmore, htext⟩ := extend_eq_ok hstep
      rw [htext]
      exact .append hdone (ih hmore)

/-- The chunk of every block is put together from what blocks write. -/
lemma Contributes.assembled {c : Chunk} (hb : c.block ∈ f.scene.blocks)
    (h : f.Contributes seen c) : Assembled (f.scene.Own f.around) c.text := by
  have hchain : (c.text = "" ∨ ∃ after, f.chain seen indentation true c.block.id =
      .ok (c.text, after)) → Assembled (f.scene.Own f.around) c.text := by
    rintro (he | ⟨after, hc⟩)
    · rw [he]
      exact .empty
    · obtain ⟨-, -, hc⟩ := bind_eq_ok.mp hc
      exact chainFrom_assembled hc
  unfold Contributes at h
  split at h
  · rename_i hk
    have hr : c.block.render "" f.around = .ok c.text := by simpa [Block.render, hk] using h
    exact .own ⟨hb, hr⟩
  · exact hchain h
  · exact hchain h
  · exact hchain h
  · exact .own ⟨hb, h⟩

end Flow

namespace Script

/-- A text opens a label if one of its lines does, from the margin on. -/
def Defines (text label : String) : Prop := HasLine text (labelLine "" label)

lemma nonEmpty?_eq_none {s : String} : nonEmpty? s = none ↔ s.isEmpty = true := by
  simp [nonEmpty?]

lemma nonEmpty?_eq_some {s t : String} (h : nonEmpty? s = some t) : s = t ∧ s.isEmpty = false := by
  unfold nonEmpty? at h
  split at h
  · cases h
  · rename_i hne
    exact ⟨Option.some.inj h, by simpa using hne⟩

end Script

/-- A block with a label writes the line that opens it. -/
lemma Flow.Contributes.text_of_labelOf? {f : Flow} {seen : List Value} {c : Chunk} {label : String}
    (h : f.Contributes seen c) (hl : Project.labelOf? c.block = .ok (some label)) :
    c.text = labelLine "" label := by
  unfold Project.labelOf? at hl
  split at hl
  · rename_i hk
    obtain ⟨t, ht, hl⟩ := bind_eq_ok.mp hl
    obtain ⟨rfl, hne⟩ := nonEmpty?_eq_some (Except.ok.inj hl)
    simp only [Contributes, hk, Block.startLine, ht] at h
    obtain ⟨_, hok, h⟩ := bind_eq_ok.mp h
    cases hok
    rw [hne] at h
    exact (Except.ok.inj h).symm
  · rename_i hk
    obtain ⟨ps, hps, hl⟩ := bind_eq_ok.mp hl
    obtain ⟨rfl, hne⟩ := nonEmpty?_eq_some (Except.ok.inj hl)
    simp only [Contributes, hk, Block.render, hps] at h
    obtain ⟨_, hok, h⟩ := bind_eq_ok.mp h
    cases hok
    rw [hne] at h
    exact (Except.ok.inj h).symm
  · cases hl

/-- Only start and label blocks have labels. -/
lemma opening_of_labelOf? {b : Block} {label : String}
    (h : Project.labelOf? b = .ok (some label)) : b.kind = .start ∨ b.kind = .label := by
  unfold Project.labelOf? at h
  split at h
  · rename_i hk
    exact .inl hk
  · rename_i hk
    exact .inr hk
  · cases h

lemma kind_of_labelOf? {b : Block} {label : String}
    (h : Project.labelOf? b = .ok (some label)) : b.kind.isDefinition = false := by
  rcases opening_of_labelOf? h with hk | hk
  · rw [hk]
    rfl
  · rw [hk]
    rfl

namespace Scene

variable {s : Scene} {cast : Option Cast} {labels : List String} {text : String}

lemma chunks_assembled {around : Surroundings} {chunks : List Chunk} (hs : s.DistinctIds)
    (h : s.chunks around = .ok chunks) : ∀ c ∈ chunks, Assembled (s.Own around) c.text := by
  intro c hc
  obtain ⟨f, hf, hcover⟩ := chunks_covers hs h
  obtain ⟨-, rfl, -, rfl⟩ := flow_eq_ok hf
  obtain ⟨hb, seen, htext⟩ := hcover.of_mem hc
  exact htext.assembled (List.mem_filter.mp hb).1

lemma chunks_endsLine {around : Surroundings} {chunks : List Chunk} (hs : s.DistinctIds)
    (h : s.chunks around = .ok chunks) : ∀ t ∈ chunks.map (·.text), EndsLine t := by
  intro t ht
  obtain ⟨c, hc, rfl⟩ := List.mem_map.mp ht
  exact (chunks_assembled hs h c hc).endsLine fun hown => Block.render_endsLine hown.2

lemma script_assembled (hs : s.DistinctIds) (h : s.script cast labels = .ok text) :
    Assembled (s.Own { cast, labels := some labels }) text := by
  by_cases hne : s.blocks = []
  · rw [script, hne] at h
    cases h
    exact .filler (by simp)
  · obtain ⟨chunks, hc, rfl⟩ := script_eq_ok hne h
    refine .append (.concat ?_) (.filler (by simp))
    intro t ht
    obtain ⟨c, hmem, rfl⟩ := List.mem_map.mp ht
    exact chunks_assembled hs hc c hmem

lemma script_endsLine (hs : s.DistinctIds) (h : s.script cast labels = .ok text) :
    EndsLine text :=
  (script_assembled hs h).endsLine fun hown => Block.render_endsLine hown.2

/-- The text of a scene opens the label of each of its blocks. -/
theorem script_defines (hs : s.DistinctIds) (h : s.script cast labels = .ok text) {b : Block}
    (hb : b ∈ s.blocks) {label : String} (hl : Project.labelOf? b = .ok (some label)) :
    Defines text label := by
  obtain ⟨chunks, hc, rfl⟩ := script_eq_ok (List.ne_nil_of_mem hb) h
  obtain ⟨f, -, hcover⟩ := chunks_covers hs hc
  have hmem : b ∈ chunks.map (·.block) := by
    rw [hcover.perm.mem_iff, List.mem_filter]
    exact ⟨hb, by simp [kind_of_labelOf? hl]⟩
  obtain ⟨c, hcm, rfl⟩ := List.mem_map.mp hmem
  obtain ⟨-, seen, htext⟩ := hcover.of_mem hcm
  have hline : Defines c.text label := by
    rw [htext.text_of_labelOf? hl]
    exact hasLine_self _
  have hall : Defines (concat (chunks.map (·.text))) label :=
    hline.concat (List.mem_map_of_mem hcm) (chunks_endsLine hs hc)
  simpa [Defines] using hall.within endsLine_empty "\n"

end Scene

namespace Script

/-- A statement that is left out, or leads to a label that the text opens. -/
def LeadsWithin (text word indent own : String) : Prop :=
  own = "" ∨ ∃ target, own = indent ++ word ++ " " ++ target ++ "\n" ∧ Defines text target

lemma transfer_leadsWithin {text : String} {labels : List String}
    (h : ∀ t ∈ labels, Defines text t) (word target indent : String) :
    LeadsWithin text word indent (transfer word target (some labels) indent) := by
  by_cases hc : target.isEmpty || !labels.contains target
  · exact .inl (if_pos hc)
  · refine .inr ⟨target, if_neg hc, h target ?_⟩
    simp only [Bool.or_eq_true, Bool.not_eq_true', not_or, Bool.not_eq_false] at hc
    simpa using hc.2

end Script

namespace Block

variable {b : Block} {cast : Option Cast} {labels : List String} {indent own text : String}

lemma render_jump_leadsWithin (hl : ∀ t ∈ labels, Defines text t) (hk : b.kind = .jump)
    (h : b.render indent { cast, labels := some labels } = .ok own) :
    LeadsWithin text "jump" indent own := by
  simp only [render, hk] at h
  obtain ⟨ps, -, h⟩ := bind_eq_ok.mp h
  cases h
  exact transfer_leadsWithin hl _ _ _

lemma render_call_leadsWithin (hl : ∀ t ∈ labels, Defines text t) (hk : b.kind = .call)
    (h : b.render indent { cast, labels := some labels } = .ok own) :
    LeadsWithin text "call" indent own := by
  simp only [render, hk] at h
  obtain ⟨ps, -, h⟩ := bind_eq_ok.mp h
  cases h
  exact transfer_leadsWithin hl _ _ _

end Block

namespace Project

variable {p : Project} {text : String}

lemma mem_labels {labels : List String} (h : p.labels = .ok labels) {label : String} :
    label ∈ labels ↔ ∃ b ∈ p.blocks, labelOf? b = .ok (some label) := by
  rw [Project.labels, bind_eq_ok] at h
  obtain ⟨found, hf, h⟩ := h
  cases h
  rw [← mem_of_mapM_eq_ok hf]
  simp

/-- The label that the game begins with is one of those that the story knows. -/
lemma firstStart?_mem {labels : List String} (hl : p.labels = .ok labels) {label : String}
    (h : p.firstStart? = .ok (some label)) : label ∈ labels := by
  rw [mem_labels hl]
  refine foldlM_invariant
    (fun found => ∀ t ∈ found, ∃ b ∈ p.blocks, labelOf? b = .ok (some t)) ?_ (by simp) h label rfl
  intro b hb found found' hfound hstep
  cases found with
  | some t =>
    cases hstep
    exact hfound
  | none =>
    intro t ht
    obtain ⟨hin, hk⟩ := List.mem_filter.mp hb
    refine ⟨b, hin, ?_⟩
    simp only [labelOf?, beq_iff_eq.mp hk]
    exact hstep.trans (congrArg Except.ok (Option.mem_def.mp ht))

lemma concat_entry (front : List String) (heading start entry : String) (scenes : List String) :
    concat (front ++ [heading, start, entry] ++ scenes) =
      concat (front ++ [heading]) ++ start ++ entry ++ concat scenes := by
  simp [String.append_assoc]

/-- What a script has before the entry of the game. -/
def front (definitions : String) (undefinedNames narrator : List String) : List String :=
  ["# Generated by RenPy Node Editor\n",
    "# This file is auto-generated. Do not edit manually.\n\n", definitions] ++
    detectedSection undefinedNames ++ narrator ++ ["\n# Игра начинается здесь:\n"]

/-- A script with all that it is made from. -/
lemma script_run (h : p.script = .ok text) :
    ∃ definitions names blockNames undefinedNames members narrator entry labels scenes,
      p.definitions = .ok definitions ∧ p.characterNames = .ok names ∧
      p.characterBlockNames = .ok blockNames ∧
      p.undefinedCharacters names blockNames = .ok undefinedNames ∧
      p.characters.members "keys" = .ok members ∧
      narrator ∈ [[], ["define narrator = Character('Narrator')\n\n"]] ∧
      p.labels = .ok labels ∧
      p.scenes.mapM (·.script (some (cast undefinedNames (members.map (·.1)) blockNames)) labels) =
        .ok scenes ∧
      (entry = "    return\n" ∨
        ∃ label, p.firstStart? = .ok (some label) ∧ entry = "    jump " ++ label ++ "\n") ∧
      text = concat (front definitions undefinedNames narrator) ++ "label start:\n" ++ entry ++
        concat scenes := by
  rw [script, bind_eq_ok] at h
  obtain ⟨definitions, hdef, h⟩ := h
  obtain ⟨names, hnames, h⟩ := bind_eq_ok.mp h
  obtain ⟨blockNames, hblocks, h⟩ := bind_eq_ok.mp h
  obtain ⟨undefinedNames, hundef, h⟩ := bind_eq_ok.mp h
  obtain ⟨members, hmembers, h⟩ := bind_eq_ok.mp h
  obtain ⟨labels, hl, h⟩ := bind_eq_ok.mp h
  obtain ⟨first, hf, h⟩ := bind_eq_ok.mp h
  obtain ⟨scenes, hs, h⟩ := bind_eq_ok.mp h
  cases h
  refine ⟨definitions, names, blockNames, undefinedNames, members, _, _, labels, scenes, hdef,
    hnames, hblocks, hundef, hmembers, ?_, hl, hs, ?_, concat_entry _ _ _ _ _⟩
  · split_ifs <;> simp
  · cases first with
    | none => exact .inl rfl
    | some label => exact .inr ⟨label, hf, rfl⟩

lemma script_parts (h : p.script = .ok text) :
    ∃ definitions names blockNames undefinedNames narrator entry cast labels scenes,
      p.definitions = .ok definitions ∧ p.characterNames = .ok names ∧
      p.undefinedCharacters names blockNames = .ok undefinedNames ∧
      narrator ∈ [[], ["define narrator = Character('Narrator')\n\n"]] ∧
      p.labels = .ok labels ∧ p.scenes.mapM (·.script (some cast) labels) = .ok scenes ∧
      (entry = "    return\n" ∨
        ∃ label, p.firstStart? = .ok (some label) ∧ entry = "    jump " ++ label ++ "\n") ∧
      text = concat (front definitions undefinedNames narrator) ++ "label start:\n" ++ entry ++
        concat scenes := by
  obtain ⟨definitions, names, blockNames, undefinedNames, members, narrator, entry, labels, scenes,
    hdef, hnames, -, hundef, -, hnarrator, hl, hs, hentry, htext⟩ := script_run h
  exact ⟨definitions, names, blockNames, undefinedNames, narrator, entry, _, labels, scenes, hdef,
    hnames, hundef, hnarrator, hl, hs, hentry, htext⟩

lemma script_eq_ok (h : p.script = .ok text) :
    ∃ head entry cast labels scenes, p.labels = .ok labels ∧
      p.scenes.mapM (·.script (some cast) labels) = .ok scenes ∧ EndsLine head ∧
      (entry = "    return\n" ∨
        ∃ label, p.firstStart? = .ok (some label) ∧ entry = "    jump " ++ label ++ "\n") ∧
      text = head ++ "label start:\n" ++ entry ++ concat scenes := by
  obtain ⟨_, _, _, _, _, entry, cast, labels, scenes, -, -, -, -, hl, hs, hentry, htext⟩ :=
    script_parts h
  refine ⟨_, entry, cast, labels, scenes, hl, hs, ?_, hentry, htext⟩
  rw [front, concat_append]
  exact endsLine_append_of_last _ rfl

/-- The lines of every scene are lines of the script. -/
lemma script_hasLines (hp : ∀ s ∈ p.scenes, s.DistinctIds) (h : p.script = .ok text) :
    ∃ cast labels, p.labels = .ok labels ∧ ∀ s ∈ p.scenes, ∃ body,
      s.script (some cast) labels = .ok body ∧ ∀ line, HasLine body line → HasLine text line := by
  obtain ⟨head, entry, cast, labels, scenes, hl, hs, -, hentry, rfl⟩ := script_eq_ok h
  refine ⟨cast, labels, hl, fun s hin => ?_⟩
  obtain ⟨body, hbody, hst⟩ := exists_of_mapM_eq_ok hs hin
  refine ⟨body, hst, fun line hline => ?_⟩
  have hends : ∀ t ∈ scenes, EndsLine t := by
    intro t ht
    obtain ⟨s, hin, hst⟩ := (mem_of_mapM_eq_ok hs).mp ht
    exact Scene.script_endsLine (hp s hin) hst
  have hfront : EndsLine (head ++ "label start:\n" ++ entry) := by
    rcases hentry with rfl | ⟨label, -, rfl⟩
    · exact endsLine_append_of_last _ rfl
    · rw [← String.append_assoc]
      exact endsLine_line _
  simpa using (hline.concat hbody hends).within hfront ""

/-- Every label of a story is opened by a line of its script. So the script is closed: the game
begins with one of its labels, and the jumps and calls of all blocks lead to its labels. -/
theorem script_jumps_closed (hp : ∀ s ∈ p.scenes, s.DistinctIds) (h : p.script = .ok text) :
    ∃ labels cast head entry body,
      p.labels = .ok labels ∧
      (∀ label, label ∈ labels ↔ ∃ b ∈ p.blocks, labelOf? b = .ok (some label)) ∧
      (∀ label ∈ labels, Defines text label) ∧
      text = head ++ "label start:\n" ++ entry ++ body ∧ EndsLine head ∧
      (entry = "    return\n" ∨
        ∃ label, entry = "    jump " ++ label ++ "\n" ∧ Defines text label) ∧
      Assembled
        (fun b indent own => b ∈ p.blocks ∧
          b.render indent { cast := some cast, labels := some labels } = .ok own ∧
          (b.kind = .jump → LeadsWithin text "jump" indent own) ∧
          (b.kind = .call → LeadsWithin text "call" indent own))
        body := by
  obtain ⟨head, entry, cast, labels, scenes, hl, hs, hhead, hentry, rfl⟩ := script_eq_ok h
  have hscene : ∀ t ∈ scenes, EndsLine t := by
    intro t ht
    obtain ⟨s, hin, hst⟩ := (mem_of_mapM_eq_ok hs).mp ht
    exact Scene.script_endsLine (hp s hin) hst
  have hfront : EndsLine (head ++ "label start:\n" ++ entry) := by
    rcases hentry with rfl | ⟨label, -, rfl⟩
    · exact endsLine_append_of_last _ rfl
    · rw [← String.append_assoc]
      exact endsLine_line _
  have hdef : ∀ label ∈ labels,
      Defines (head ++ "label start:\n" ++ entry ++ concat scenes) label := by
    intro label hmem
    obtain ⟨b, hb, hbl⟩ := (mem_labels hl).mp hmem
    obtain ⟨s, hin, hbs⟩ := List.mem_flatMap.mp hb
    obtain ⟨t, ht, hst⟩ := exists_of_mapM_eq_ok hs hin
    have hbody := (Scene.script_defines (hp s hin) hst hbs hbl).concat ht hscene
    simpa [Defines] using hbody.within hfront ""
  refine ⟨labels, cast, head, entry, concat scenes, hl, fun _ => mem_labels hl, hdef, rfl, hhead,
    hentry.imp_right ?_, .concat ?_⟩
  · rintro ⟨label, hfirst, he⟩
    exact ⟨label, he, hdef label (firstStart?_mem hl hfirst)⟩
  · intro t ht
    obtain ⟨s, hin, hst⟩ := (mem_of_mapM_eq_ok hs).mp ht
    refine (Scene.script_assembled (hp s hin) hst).mono ?_
    rintro b indent own ⟨hb, hown⟩
    exact ⟨List.mem_flatMap.mpr ⟨s, hin, hb⟩, hown,
      fun hk => Block.render_jump_leadsWithin hdef hk hown,
      fun hk => Block.render_call_leadsWithin hdef hk hown⟩

/-- Two scenes: in the first a jump into the second stands in a branch, and a call has no aim. -/
def branchingProject : Project where
  name := .text "story"
  scenes :=
    [{ id := .text "one", name := .text "one", label := .text "one",
       blocks :=
        [{ id := .text "s", kind := .start, params := .object [("label", .text "go")],
           x := .int 0, y := .int 0 },
         { id := .text "c", kind := .ifElse, params := .object [("condition", .text "ready")],
           x := .int 3, y := .int 0 },
         { id := .text "j", kind := .jump, params := .object [("target", .text "end")],
           x := .int 6, y := .int 4 },
         { id := .text "k", kind := .call, params := .object [("label", .text "nowhere")],
           x := .int 0, y := .int 9 }],
       ports :=
        [{ id := .text "s.o", nodeId := .text "s", name := .text "out", direction := .output },
         { id := .text "c.i", nodeId := .text "c", name := .text "in", direction := .input },
         { id := .text "c.t", nodeId := .text "c", name := .text "True", direction := .output },
         { id := .text "j.i", nodeId := .text "j", name := .text "in", direction := .input }],
       connections :=
        [{ id := .text "1", fromPort := .text "s.o", toPort := .text "c.i" },
         { id := .text "2", fromPort := .text "c.t", toPort := .text "j.i" }] },
     { id := .text "two", name := .text "two", label := .text "two",
       blocks :=
        [{ id := .text "l", kind := .label, params := .object [("label", .text "end")],
           x := .int 0, y := .int 0 }] }]

def branchingText : String :=
  "# Generated by RenPy Node Editor\n" ++
  "# This file is auto-generated. Do not edit manually.\n\n" ++
  "define narrator = Character('Narrator')\n\n\n" ++
  "# Игра начинается здесь:\nlabel start:\n    jump go\n" ++
  "label go:\n    if ready:\n                jump end\n\n    jump end\n\n" ++
  "label end:\n\n"

set_option maxRecDepth 4000 in
theorem branchingProject_jumps_closed :
    (∀ s ∈ branchingProject.scenes, s.DistinctIds) ∧
      branchingProject.script = .ok branchingText ∧
      branchingProject.labels = .ok ["go", "end"] ∧
      Defines branchingText "go" ∧ Defines branchingText "end" := by
  have hp : ∀ s ∈ branchingProject.scenes, s.DistinctIds := by decide
  have htext : branchingProject.script = .ok branchingText := rfl
  have hlabels : branchingProject.labels = .ok ["go", "end"] := rfl
  obtain ⟨labels, _, _, _, _, hl, -, hdef, -⟩ := script_jumps_closed hp htext
  obtain rfl : ["go", "end"] = labels := Except.ok.inj (hlabels.symm.trans hl)
  exact ⟨hp, htext, hlabels, hdef "go" (by simp), hdef "end" (by simp)⟩

end Project
end NovelGraph
