import Mathlib.Algebra.BigOperators.Group.List.Basic
import NovelGraph.Proofs.Preamble

/-! How often a label is opened in a script: by the block that has it, again wherever a control block
repeats that block, and once more if it is the label that the game begins with. -/
namespace NovelGraph

open Outcome Relation Script Text

namespace Script

/-- The line that opens a label. -/
def readsLabel (label line : String) : Bool := line == "label " ++ label ++ ":"

lemma marked_readsLabel (label : String) : Marked 'l' (readsLabel label) := by
  intro line h
  rw [beq_iff_eq.mp h]
  simp

lemma countLines_labelLine {indent label : String} (hi : Spaces indent) (hl : '\n' ∉ label.toList)
    (other : String) :
    countLines (readsLabel other) (labelLine indent label) = if label = other then 1 else 0 := by
  have hline : '\n' ∉ ("label " ++ label ++ ":").toList := by simp [hl]
  have htext : labelLine indent label = indent ++ ("label " ++ label ++ ":") ++ "\n" := by
    simp [labelLine, String.append_assoc]
  have hhead : ("label " ++ label ++ ":").toList = 'l' :: ("abel " ++ label ++ ":").toList := by
    simp
  have hopens : readsLabel other ("label " ++ label ++ ":") = decide (label = other) := by
    rw [Bool.eq_iff_iff, readsLabel, beq_iff_eq, decide_eq_true_eq]
    simp [← String.toList_inj]
  rw [htext, countLines_line ((marked_readsLabel other).eq_false (by simp)) hi hline,
    unindented_of_head rfl hhead, hopens]
  simp

end Script

/-- The block has a given label. -/
def Block.hasLabel (label : String) (b : Block) : Bool :=
  match Project.labelOf? b with
  | .ok found => found == some label
  | .error _ => false

lemma Block.hasLabel_iff {label : String} {b : Block} :
    b.hasLabel label = true ↔ Project.labelOf? b = .ok (some label) := by
  unfold hasLabel
  split
  · rename_i found h
    rw [h, beq_iff_eq, Except.ok.injEq]
  · rename_i h
    simp [h]

/-- A block that begins with its label opens that label only. -/
lemma Block.countLines_opening {b : Block} {around : Surroundings} {indent text : String}
    (hone : b.OneLine) (hk : b.kind = .start ∨ b.kind = .label) (hi : Spaces indent)
    (h : b.render indent around = .ok text) (label : String) :
    countLines (readsLabel label) text = if b.hasLabel label then 1 else 0 := by
  rcases render_opening hi hk h with ⟨hnone, rfl⟩ | ⟨own, margin, hown, hm, rfl⟩
  · have hlabel : b.hasLabel label = false := by simp [hasLabel, hnone]
    rw [hlabel, countLines_empty ((marked_readsLabel label).eq_false (by simp))]
    rfl
  · have hlabel : b.hasLabel label = true ↔ own = label := by
      rw [hasLabel_iff, hown, Except.ok.injEq, Option.some.injEq]
    rw [countLines_labelLine hm (newline_notMem_label hone hown)]
    exact if_congr hlabel.symm rfl rfl

/-- In scenes of such blocks the lines that open a label are those of the blocks that have it. -/
lemma Scene.linesOf_label {s : Scene} (hk : ∀ b ∈ s.blocks, b.kind ∈ Project.signposts)
    (hone : ∀ b ∈ s.blocks, b.OneLine) (around : Surroundings) (label : String) :
    s.LinesOf around (readsLabel label) (·.hasLabel label) := by
  have hp := marked_readsLabel label
  refine
    { lines := ofBlocks_of_marked hp (by decide) (by decide)
      plain := ?_
      written := fun b _ hlabel => kind_of_labelOf? (Block.hasLabel_iff.mp hlabel)
      own := ?_
      rest := ?_ }
  · intro b _ hlabel
    rcases opening_of_labelOf? (Block.hasLabel_iff.mp hlabel) with hb | hb
    · rw [hb]
      rfl
    · rw [hb]
      rfl
  · intro b hb hlabel indent text hi h
    have hopening := opening_of_labelOf? (Block.hasLabel_iff.mp hlabel)
    rw [Block.countLines_opening (hone b hb) hopening hi h, if_pos hlabel]
  · intro b hb hlabel
    have hopening : b.kind = .start ∨ b.kind = .label → b.Silent (readsLabel label) around := by
      intro hkind
      refine ⟨fun hi h => ?_, fun _ hh => ?_⟩
      · rw [Block.countLines_opening (hone b hb) hkind hi h, if_neg (by simp [hlabel])]
      · have hcontrol := isControl_of_header? hh
        rcases hkind with hkind | hkind <;> simp [hkind, BlockKind.isControl] at hcontrol
    have hkind := hk b hb
    simp only [Project.signposts, List.mem_cons, List.not_mem_nil, or_false] at hkind
    rcases hkind with hkind | hkind | hkind | hkind | hkind | hkind | hkind
    · exact hopening (.inl hkind)
    · exact hopening (.inr hkind)
    · exact Block.silent_of_writesLine hp (Block.writesLine_of_narration (hone b hb) hkind) rfl
        (by decide) (by rw [hkind]; rfl)
    · exact Block.silent_of_writesLine hp (Block.writesLine_of_jump (hone b hb) hkind) rfl
        (by decide) (by rw [hkind]; rfl)
    · exact Block.silent_of_writesLine hp (Block.writesLine_of_call (hone b hb) hkind) rfl
        (by decide) (by rw [hkind]; rfl)
    · exact Block.silent_of_writesLine hp (Block.writesLine_of_return hkind) rfl
        (by decide) (by rw [hkind]; rfl)
    · exact Block.silent_of_control hp (by decide) (hone b hb) (by rw [hkind]; rfl)

namespace Project

/-- Stories of narration, labels, jumps, calls, returns and conditionals, with parameters on one line
each and all labels different. -/
structure Signposted (p : Project) : Prop where
  ids : ∀ s ∈ p.scenes, s.DistinctIds
  kinds : ∀ b ∈ p.blocks, b.kind ∈ signposts
  oneLine : ∀ b ∈ p.blocks, b.OneLine
  labels : ∀ ⦃labels⦄, p.labels = .ok labels → labels.Nodup

variable {p : Project} {text : String} {labels : List String}

/-- Every label is listed as often as blocks have it. -/
lemma count_labels (h : p.labels = .ok labels) (label : String) :
    labels.count label = p.blocks.countP (·.hasLabel label) := by
  rw [Project.labels, bind_eq_ok] at h
  obtain ⟨found, hfound, h⟩ := h
  obtain rfl := Except.ok.inj h
  have hmap : found.map (· == some label) = p.blocks.map (·.hasLabel label) := by
    refine map_eq_of_mapM_eq_ok hfound fun b _ own hown => ?_
    rw [Block.hasLabel, hown]
  rw [List.count_filterMap]
  have hcount := congrArg (List.countP id) hmap
  rwa [List.countP_map, List.countP_map] at hcount

lemma Signposted.scene {s : Scene} (hp : p.Signposted) (hs : s ∈ p.scenes) (around : Surroundings)
    (label : String) : s.LinesOf around (readsLabel label) (·.hasLabel label) := by
  have hin : ∀ b ∈ s.blocks, b ∈ p.blocks := fun b hb => List.mem_flatMap.mpr ⟨s, hs, hb⟩
  exact s.linesOf_label (fun b hb => hp.kinds b (hin b hb))
    (fun b hb => hp.oneLine b (hin b hb)) around label

/-- The scenes open a label for each block that has it, and where control blocks repeat one. -/
lemma Signposted.countLines_scenes (hp : p.Signposted) {cast : Cast} {scenes : List String}
    (hl : p.labels = .ok labels) (h : p.scenes.mapM (·.script (some cast) labels) = .ok scenes)
    (label : String) :
    countLines (readsLabel label) (concat scenes) = labels.count label +
      (p.scenes.map (·.repeats { cast := some cast, labels := some labels }
        (readsLabel label))).sum := by
  have hends : ∀ t ∈ scenes, EndsLine t := by
    intro t ht
    obtain ⟨s, hs, hst⟩ := (mem_of_mapM_eq_ok h).mp ht
    exact Scene.script_endsLine (hp.ids s hs) hst
  have hmap : scenes.map (countLines (readsLabel label)) = p.scenes.map fun s =>
      s.blocks.countP (·.hasLabel label) +
        s.repeats { cast := some cast, labels := some labels } (readsLabel label) :=
    map_eq_of_mapM_eq_ok h fun s hs _ hst =>
      (hp.scene hs _ label).countLines_script (hp.ids s hs) hst
  rw [countLines_concat ((marked_readsLabel label).eq_false (by simp)) hends, hmap,
    List.sum_map_add, count_labels hl, blocks, List.countP_flatMap]
  rfl

/-- Before the scenes a label is opened if the entry of the game has its name. -/
lemma Signposted.countLines_script (hp : p.Signposted) (h : p.script = .ok text) :
    ∃ definitions labels cast scenes, p.definitions = .ok definitions ∧ p.labels = .ok labels ∧
      p.scenes.mapM (·.script (some cast) labels) = .ok scenes ∧
      ∀ label, countLines (readsLabel label) text =
        countLines (readsLabel label) definitions + (if label = "start" then 1 else 0) +
          labels.count label + (p.scenes.map (·.repeats
            { cast := some cast, labels := some labels } (readsLabel label))).sum := by
  obtain ⟨definitions, names, blockNames, undefinedNames, narrator, entry, cast, labels, scenes,
    hdef, hnames, hundef, hnarrator, hl, hscenes, hentry, rfl⟩ := script_parts h
  obtain rfl : [] = undefinedNames :=
    Except.ok.inj ((undefinedCharacters_eq_nil hp.kinds hnames).symm.trans hundef)
  refine ⟨definitions, labels, cast, scenes, hdef, hl, hscenes, fun label => ?_⟩
  have hmarked := marked_readsLabel label
  have hempty : readsLabel label "" = false := hmarked.eq_false (by simp)
  obtain ⟨hfront, hcount⟩ := countLines_front hmarked (by decide)
    (definitions_endsLine hp.kinds hdef) hnarrator
  have hstart : EndsLine "label start:\n" ∧
      countLines (readsLabel label) "label start:\n" = if label = "start" then 1 else 0 := by
    have hline : "label start:\n" = labelLine "" "start" := rfl
    rw [hline, countLines_labelLine spaces_empty (by decide)]
    exact ⟨labelLine_endsLine _ _, if_congr eq_comm rfl rfl⟩
  have hentry : EndsLine entry ∧ countLines (readsLabel label) entry = 0 := by
    rcases hentry with rfl | ⟨first, hfirst, rfl⟩
    · have htext : "    return\n" = indentation ++ "return" ++ "\n" := rfl
      rw [htext]
      exact ⟨endsLine_line _, hmarked.countLines_line_eq_zero (c := 'r') spaces_indentation
        (by simp) rfl (by decide) (by decide)⟩
    · obtain ⟨b, hb, hlabel⟩ := (mem_labels hl).mp (firstStart?_mem hl hfirst)
      have hline : '\n' ∉ ("jump " ++ first).toList := by
        simp [Block.newline_notMem_label (hp.oneLine b hb) hlabel]
      have htext : "    jump " ++ first = indentation ++ ("jump " ++ first) := by
        rw [← String.append_assoc]
        rfl
      rw [htext]
      exact ⟨endsLine_line _, hmarked.countLines_line_eq_zero (c := 'j') spaces_indentation
        (by simp) rfl (by decide) hline⟩
  -- every part ends its last line, so the counts add up
  have hbegun := (endsLine_append _ _).mpr ⟨hstart.1, fun _ => hfront⟩
  have hentered := (endsLine_append _ _).mpr ⟨hentry.1, fun _ => hbegun⟩
  rw [countLines_append hempty hentered, countLines_append hempty hbegun,
    countLines_append hempty hfront, hcount, hstart.2, hentry.2, hp.countLines_scenes hl hscenes]
  omega

/-- How often a script opens a label: once for the block that has it, as often as control blocks
repeat that block, and once for the entry of the game if the label is named like it. So a label with
another name, behind no control block, is opened once. One that is named like the entry is opened at
least twice, and so is one at the head of a suite of a control block that is written. -/
theorem script_label_lines (hp : p.Signposted) (h : p.script = .ok text) :
    ∃ definitions labels cast, p.definitions = .ok definitions ∧ p.labels = .ok labels ∧
      (∀ label, countLines (readsLabel label) text =
        countLines (readsLabel label) definitions + (if label = "start" then 1 else 0) +
          labels.count label + (p.scenes.map (·.repeats
            { cast := some cast, labels := some labels } (readsLabel label))).sum) ∧
      (p.OneLineTables → ∀ label ≠ "start",
        (∀ s ∈ p.scenes, ∀ c ∈ s.blocks, c.kind.isControl = true → ∀ b ∈ s.blocks,
          labelOf? b = .ok (some label) → ¬TransGen s.Wired c b) →
        countLines (readsLabel label) text = if label ∈ labels then 1 else 0) ∧
      ("start" ∈ labels → 2 ≤ countLines (readsLabel "start") text) ∧
      (∀ s ∈ p.scenes, (∀ b ∈ s.blocks, s.findBlock b.id = some b) →
        (∃ b ∈ s.blocks, b.kind = .start) → ∀ f entries ranks,
        s.flow { cast := some cast, labels := some labels } = .ok f →
        s.entryBlocks f.links = .ok entries → f.ranks entries = .ok ranks →
        ∀ b ∈ s.blocks, ∀ label, b.kind = .label → labelOf? b = .ok (some label) →
        ∀ c ∈ s.blocks, ∀ ps line, c.paramList = .ok ps → header? c.kind ps = some line →
        f.Opens ranks c → f.HeadsSuite b c → 2 ≤ countLines (readsLabel label) text) := by
  obtain ⟨definitions, labels, cast, scenes, hdef, hl, hscenes, hcount⟩ := hp.countLines_script h
  have hnodup := hp.labels hl
  refine ⟨definitions, labels, cast, hdef, hl, hcount, ?_, ?_, ?_⟩
  · intro htables label hne hfree
    have hnone : (p.scenes.map (·.repeats { cast := some cast, labels := some labels }
        (readsLabel label))).sum = 0 := by
      rw [List.sum_eq_zero_iff_forall_eq_nat, List.forall_mem_map]
      intro s hs
      refine (hp.scene hs _ label).repeats_eq_zero (hp.ids s hs) ?_
      intro c hc hk b hb hlabel
      exact hfree s hs c hc hk b hb (Block.hasLabel_iff.mp hlabel)
    rw [hcount, hnone, if_neg hne, hnodup.count, countLines_definitions_eq_zero hp.kinds htables
      (marked_readsLabel label) (by decide) hdef]
    omega
  · intro hmem
    have hone := List.count_pos_iff.mpr hmem
    rw [hcount, if_pos rfl]
    omega
  · intro s hs hfound hstart f entries ranks hf he hr b hb label hk hlabel c hc ps line hps hh hopen
      hhead
    obtain ⟨t, -, ht⟩ := exists_of_mapM_eq_ok hscenes hs
    have hagain := (hp.scene hs _ label).one_le_repeats (hp.ids s hs) hfound hstart hb
      (Block.hasLabel_iff.mpr hlabel) (by rw [hk]; decide) hf he hr ht hc hps hh hopen hhead
    have hsum : s.repeats { cast := some cast, labels := some labels } (readsLabel label) ≤
        (p.scenes.map (·.repeats { cast := some cast, labels := some labels }
          (readsLabel label))).sum := List.le_sum_of_mem (List.mem_map_of_mem hs)
    have hone : 0 < labels.count label :=
      List.count_pos_iff.mpr ((mem_labels hl).mpr ⟨b, List.mem_flatMap.mpr ⟨s, hs, hb⟩, hlabel⟩)
    rw [hcount]
    omega

open Scene (startBlock toldBlock gateBlock)

/-- A story whose only label is named like the entry of the game. -/
def enteredProject : Project where
  name := .text "story"
  scenes :=
    [{ id := .text "one", name := .text "one", label := .text "one",
       blocks := [startBlock "s" "start" 0 0, toldBlock "a" 4 0],
       ports :=
        [{ id := .text "s.o", nodeId := .text "s", name := .text "out", direction := .output },
         { id := .text "a.i", nodeId := .text "a", name := .text "in", direction := .input }],
       connections := [{ id := .text "1", fromPort := .text "s.o", toPort := .text "a.i" }] }]

def enteredText : String :=
  "# Generated by RenPy Node Editor\n" ++
  "# This file is auto-generated. Do not edit manually.\n\n" ++
  "define narrator = Character('Narrator')\n\n\n" ++
  "# Игра начинается здесь:\nlabel start:\n    jump start\n" ++
  "label start:\n    \"a\"\n\n"

set_option maxRecDepth 4000 in
/-- The label is opened for the entry, which leads to it, and for its block. -/
theorem enteredProject_script :
    enteredProject.labels = .ok ["start"] ∧ enteredProject.script = .ok enteredText ∧
      countLines (readsLabel "start") enteredText = 2 :=
  ⟨rfl, rfl, by decide +kernel⟩

def signBlock : Block where
  id := .text "l"
  kind := .label
  params := .object [("label", .text "end")]
  x := .int 12
  y := .int 0

/-- A conditional with a label in its branch. -/
def postedScene : Scene where
  id := .text "one"
  name := .text "one"
  label := .text "one"
  blocks := [startBlock "s" "start" 0 0, gateBlock, signBlock]
  ports :=
    [{ id := .text "s.o", nodeId := .text "s", name := .text "out", direction := .output },
      { id := .text "c.i", nodeId := .text "c", name := .text "in", direction := .input },
      { id := .text "c.t", nodeId := .text "c", name := .text "True", direction := .output },
      { id := .text "l.i", nodeId := .text "l", name := .text "in", direction := .input }]
  connections :=
    [{ id := .text "1", fromPort := .text "s.o", toPort := .text "c.i" },
      { id := .text "2", fromPort := .text "c.t", toPort := .text "l.i" }]

def postedProject : Project where
  name := .text "story"
  scenes :=
    [postedScene,
      { id := .text "two", name := .text "two", label := .text "two",
        blocks := [startBlock "t" "go" 0 0, toldBlock "a" 0 4] }]

def postedText : String :=
  "# Generated by RenPy Node Editor\n" ++
  "# This file is auto-generated. Do not edit manually.\n\n" ++
  "define narrator = Character('Narrator')\n\n\n" ++
  "# Игра начинается здесь:\nlabel start:\n    jump start\n" ++
  "label start:\n    if ready:\n        label end:\n\nlabel end:\n\n" ++
  "label go:\n    \"a\"\n\n"

lemma postedProject_signposted : postedProject.Signposted where
  ids := by decide
  kinds := by decide
  oneLine := by
    have hall : ∀ b ∈ postedProject.blocks, ∀ ps ∈ b.paramList.toOption, ∀ m ∈ ps,
        '\n' ∉ m.2.display.toList := by decide
    exact fun b hb => Block.oneLine_of_forall (hall b hb)
  labels := by
    intro labels h
    have hlabels : postedProject.labels = .ok ["start", "end", "go"] := rfl
    obtain rfl := Except.ok.inj (hlabels.symm.trans h)
    decide

lemma postedProject_oneLineTables : postedProject.OneLineTables where
  images := by
    intro ms h
    obtain rfl : [] = ms := Except.ok.inj h
    simp
  characters := by
    intro ms h
    obtain rfl : [] = ms := Except.ok.inj h
    simp

set_option maxRecDepth 4000 in
theorem postedProject_label_lines :
    postedProject.Signposted ∧ postedProject.OneLineTables ∧
      postedProject.script = .ok postedText ∧ countLines (readsLabel "go") postedText = 1 ∧
      2 ≤ countLines (readsLabel "start") postedText ∧
      2 ≤ countLines (readsLabel "end") postedText := by
  have htext : postedProject.script = .ok postedText := rfl
  have hlabels : postedProject.labels = .ok ["start", "end", "go"] := rfl
  obtain ⟨definitions, labels, cast, -, hl, -, honce, hentry, hagain⟩ :=
    script_label_lines postedProject_signposted htext
  obtain rfl : ["start", "end", "go"] = labels := Except.ok.inj (hlabels.symm.trans hl)
  refine ⟨postedProject_signposted, postedProject_oneLineTables, htext, ?_, hentry (by simp), ?_⟩
  · refine honce postedProject_oneLineTables "go" (by decide) ?_
    have hall : ∀ s ∈ postedProject.scenes, ∀ c ∈ s.blocks, c.kind.isControl = true →
        ∀ b ∈ s.blocks, b.hasLabel "go" = false := by decide
    intro s hs c hc hk b hb hlabel
    rw [← Block.hasLabel_iff, hall s hs c hc hk b hb] at hlabel
    exact Bool.noConfusion hlabel
  · obtain ⟨f, entries, ranks, hf, he, hr, hopen, hhead⟩ : ∃ f entries ranks,
        postedScene.flow { cast := some cast, labels := some ["start", "end", "go"] } = .ok f ∧
        postedScene.entryBlocks f.links = .ok entries ∧ f.ranks entries = .ok ranks ∧
        f.Opens ranks gateBlock ∧ f.HeadsSuite signBlock gateBlock := by
      have hlast : ∀ w ∈ postedScene.wires, signBlock.id.same w.target = true →
          gateBlock.id.same w.source = true := by decide
      refine ⟨_, _, _, rfl, rfl, rfl, ⟨rfl, ?_⟩, ⟨0, _, by decide, rfl, rfl⟩, hlast⟩
      intro a ha hw
      have honly : ∀ a ∈ postedScene.blocks, postedScene.Wired a gateBlock →
          a = startBlock "s" "start" 0 0 := by decide
      obtain rfl := honly a ha hw
      exact ⟨rfl, rfl⟩
    exact hagain postedScene (by decide) (by decide) (by decide) f entries ranks hf he hr signBlock
      (by decide) "end" rfl rfl gateBlock (by decide) _ _ rfl rfl hopen hhead

end Project
end NovelGraph
