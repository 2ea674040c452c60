import NovelGraph.Editor.Form.Offers
import NovelGraph.Proofs.LabelClosure

/-! Labels that the form offers for jumps and calls, and what the script makes of them. The form
offers the labels of scenes and of start blocks, the script knows those of start and label blocks.
So a jump to an offered label is written if that is the label of a start block and not blank, and
left out without a word if only a scene has it. -/
namespace NovelGraph

open Outcome Script Text

namespace Block

/-- A parameter of a block that is stored as a given value. -/
def Stores (b : Block) (key : String) (v : Value) : Prop :=
  ∃ ps, b.paramList = .ok ps ∧ Value.lookup ps key = some v

end Block

/-- The word of a statement that leads to a label, and the parameter that keeps this label. -/
def BlockKind.transfer? : BlockKind → Option (String × String)
  | .jump => some ("jump", "target")
  | .call => some ("call", "label")
  | _ => none

lemma Script.param_of_lookup {ps : Params} {key : String} {v : Value}
    (h : Value.lookup ps key = some v) (hv : v.isTruthy = true) :
    param ps key = strip v.display := by
  rw [param, paramOr, h]
  cases v with
  | null => cases hv
  | _ => rfl

namespace Project

variable {p : Project} {offered : List Value} {v : Value}

lemma offer?_eq_some {label : Value} (h : offer? label = .ok (some v)) :
    label = v ∧ v.isTruthy = true := by
  rw [offer?] at h
  split_ifs at h with ht
  · obtain ⟨-, -, h⟩ := bind_eq_ok.mp h
    cases h
    exact ⟨rfl, ht⟩
  · cases h

/-- What is offered is the label of a scene, or stored as that of a start block. -/
lemma mem_offeredLabels (h : p.offeredLabels = .ok offered) (hv : v ∈ offered) :
    v.isTruthy = true ∧
      ((∃ s ∈ p.scenes, s.label = v) ∨ ∃ b ∈ p.blocksOf .start, b.Stores "label" v) := by
  rw [offeredLabels, bind_eq_ok] at h
  obtain ⟨ofScenes, hscenes, h⟩ := h
  obtain ⟨ofStarts, hstarts, h⟩ := bind_eq_ok.mp h
  have hmem : v ∈ ofScenes ++ ofStarts :=
    (Value.mem_of_mem_once ((Order.sort_perm h).mem_iff.mp hv)).resolve_left (by simp)
  rcases List.mem_append.mp hmem with hin | hin
  · obtain ⟨s, hs, hoffer⟩ := filterMapM_eq_ok hscenes hin
    obtain ⟨hlabel, htruthy⟩ := offer?_eq_some hoffer
    exact ⟨htruthy, .inl ⟨s, hs, hlabel⟩⟩
  · obtain ⟨b, hb, hoffer⟩ := filterMapM_eq_ok hstarts hin
    obtain ⟨ps, hps, hoffer⟩ := bind_eq_ok.mp hoffer
    obtain ⟨hlabel, htruthy⟩ := offer?_eq_some hoffer
    refine ⟨htruthy, .inr ⟨b, hb, ps, hps, ?_⟩⟩
    cases hlookup : Value.lookup ps "label" with
    | none =>
      rw [hlookup, Option.getD_none] at hlabel
      rw [← hlabel] at htruthy
      cases htruthy
    | some w =>
      rw [hlookup, Option.getD_some] at hlabel
      rw [hlabel]

end Project

namespace Script

lemma transfer_eq {word target indent : String} {labels : List String} (h : "" ∉ labels) :
    transfer word target (some labels) indent =
      if target ∈ labels then indent ++ word ++ " " ++ target ++ "\n" else "" := by
  by_cases ht : target ∈ labels
  · have hne : target.isEmpty = false := by
      rw [← Bool.not_eq_true, String.isEmpty_iff]
      rintro rfl
      exact h ht
    simp [transfer, ht, hne]
  · simp [transfer, ht]

end Script

namespace Block

variable {b : Block} {word key indent : String} {v : Value} {around : Surroundings}

/-- A jump or call with a stored label leads to this label, trimmed. -/
lemma render_transfer (hkind : b.kind.transfer? = some (word, key)) (hstored : b.Stores key v)
    (hv : v.isTruthy = true) :
    b.render indent around = .ok (transfer word (strip v.display) around.labels indent) := by
  obtain ⟨ps, hps, hlookup⟩ := hstored
  rw [← param_of_lookup hlookup hv]
  cases hk : b.kind with
  | jump =>
    rw [hk] at hkind
    cases hkind
    simp only [render, hk, hps]
    rfl
  | call =>
    rw [hk] at hkind
    cases hkind
    simp only [render, hk, hps]
    rfl
  | _ =>
    rw [hk] at hkind
    cases hkind

end Block

namespace Scene

variable {s : Scene} {cast : Option Cast} {labels : List String} {text : String} {b : Block}

/-- What a jump or call writes stands in the text of its scene, indented once. -/
lemma script_hasTransfer (hs : s.DistinctIds) (h : s.script cast labels = .ok text)
    (hb : b ∈ s.blocks) {word key : String} (hkind : b.kind.transfer? = some (word, key)) :
    ∃ own, b.render indentation { cast, labels := some labels } = .ok own ∧ HasLine text own := by
  obtain ⟨chunks, hc, rfl⟩ := script_eq_ok (List.ne_nil_of_mem hb) h
  obtain ⟨f, hf, hcover⟩ := chunks_covers hs hc
  obtain ⟨-, -, -, haround⟩ := flow_eq_ok hf
  have hmem : b ∈ chunks.map (·.block) := by
    rw [hcover.perm.mem_iff, List.mem_filter]
    refine ⟨hb, ?_⟩
    cases hk : b.kind <;> simp [hk, BlockKind.transfer?, BlockKind.isDefinition] at hkind ⊢
  obtain ⟨c, hcm, rfl⟩ := List.mem_map.mp hmem
  obtain ⟨-, seen, hwrites⟩ := hcover.of_mem hcm
  refine ⟨c.text, ?_, ?_⟩
  · rw [← haround]
    cases hk : c.block.kind <;> simp [hk, BlockKind.transfer?] at hkind
    · simpa only [Flow.Contributes, hk] using hwrites
    · simpa only [Flow.Contributes, hk] using hwrites
  · have hall := (hasLine_self c.text).concat (List.mem_map_of_mem hcm) (chunks_endsLine hs hc)
    simpa using hall.within endsLine_empty "\n"

end Scene

namespace Project

variable {p : Project} {text : String} {offered : List Value} {v : Value} {s : Scene} {b : Block}
  {word key : String}

lemma empty_notMem_labels {labels : List String} (h : p.labels = .ok labels) : "" ∉ labels := by
  intro hmem
  obtain ⟨b, -, hl⟩ := (mem_labels h).mp hmem
  have hempty : ∀ {t : String}, nonEmpty? t ≠ some "" := by
    intro t ht
    obtain ⟨rfl, hne⟩ := nonEmpty?_eq_some ht
    exact Bool.noConfusion hne
  unfold labelOf? at hl
  split at hl
  · obtain ⟨t, -, hl⟩ := bind_eq_ok.mp hl
    exact hempty (pure_eq_ok.mp hl)
  · obtain ⟨ps, -, hl⟩ := bind_eq_ok.mp hl
    exact hempty (pure_eq_ok.mp hl)
  · cases hl

/-- A start block opens the label that is stored with it, unless that is blank. -/
lemma labelOf?_of_stores (hk : b.kind = .start) (hstored : b.Stores "label" v)
    (hv : v.isTruthy = true) (hne : strip v.display ≠ "") :
    labelOf? b = .ok (some (strip v.display)) := by
  obtain ⟨ps, hps, hlookup⟩ := hstored
  have hempty : (strip v.display).isEmpty = false := by simpa using hne
  have hstart : b.startLabel = .ok (strip v.display) := by
    simp only [Block.startLabel, hps, ok_bind, Script.startLabel, param_of_lookup hlookup hv,
      hempty, Bool.false_eq_true, if_false]
    rfl
  simp only [labelOf?, hk, hstart, ok_bind, nonEmpty?, hempty, Bool.false_eq_true, if_false]
  rfl

/-- What becomes of an offered label that is stored with a jump or call. The statement is written,
wherever the block stands, if a start or label block has this label, and left out otherwise. All
labels of start blocks are known that are not blank; those of scenes may be unknown. -/
theorem offered_label_written_iff_known (hp : ∀ s ∈ p.scenes, s.DistinctIds)
    (h : p.script = .ok text) (ho : p.offeredLabels = .ok offered) (hv : v ∈ offered)
    (hs : s ∈ p.scenes) (hb : b ∈ s.blocks) (hkind : b.kind.transfer? = some (word, key))
    (hstored : b.Stores key v) :
    ∃ labels, p.labels = .ok labels ∧
      (∀ cast indent, b.render indent { cast, labels := some labels } =
        .ok (if strip v.display ∈ labels then indent ++ word ++ " " ++ strip v.display ++ "\n"
          else "")) ∧
      (strip v.display ∈ labels →
        HasLine text (indentation ++ word ++ " " ++ strip v.display ++ "\n")) ∧
      (strip v.display ∈ labels ↔ ∃ c ∈ p.blocks, labelOf? c = .ok (some (strip v.display))) ∧
      ((∃ s ∈ p.scenes, s.label = v) ∨ ∃ c ∈ p.blocksOf .start, c.Stores "label" v) ∧
      ((∃ c ∈ p.blocksOf .start, c.Stores "label" v) → strip v.display ≠ "" →
        strip v.display ∈ labels) := by
  obtain ⟨htruthy, hsource⟩ := mem_offeredLabels ho hv
  obtain ⟨cast, labels, hl, hlines⟩ := script_hasLines hp h
  obtain ⟨body, hst, hline⟩ := hlines s hs
  have hrender : ∀ cast indent, b.render indent { cast, labels := some labels } =
      .ok (if strip v.display ∈ labels then indent ++ word ++ " " ++ strip v.display ++ "\n"
        else "") := by
    intro cast indent
    rw [Block.render_transfer hkind hstored htruthy, transfer_eq (empty_notMem_labels hl)]
  refine ⟨labels, hl, hrender, fun hknown => ?_, mem_labels hl, hsource, ?_⟩
  · obtain ⟨own, hown, hhas⟩ := Scene.script_hasTransfer (hp s hs) hst hb hkind
    rw [hrender, if_pos hknown] at hown
    cases hown
    exact hline _ hhas
  · rintro ⟨c, hc, hlabel⟩ hne
    obtain ⟨hc, hk⟩ := List.mem_filter.mp hc
    exact (mem_labels hl).mpr ⟨c, hc, labelOf?_of_stores (beq_iff_eq.mp hk) hlabel htruthy hne⟩

/-- A story whose scene has a label that no block opens, with a jump there and a call elsewhere. -/
def unmarkedScene : Project where
  name := .text "story"
  scenes :=
    [{ id := .text "s", name := .text "Scene", label := .text "intro",
       blocks :=
        [{ id := .text "a", kind := .start, params := .object [("label", .text "go")],
           x := .int 0, y := .int 0 },
         { id := .text "b", kind := .jump, params := .object [("target", .text "intro")],
           x := .int 0, y := .int 3 },
         { id := .text "c", kind := .call, params := .object [("label", .text "go")],
           x := .int 0, y := .int 6 }] }]

def unmarkedText : String :=
  "# Generated by RenPy Node Editor\n" ++
  "# This file is auto-generated. Do not edit manually.\n\n" ++
  "define narrator = Character('Narrator')\n\n\n" ++
  "# Игра начинается здесь:\nlabel start:\n    jump go\n" ++
  "label go:\n    call go\n\n"

lemma unmarkedScene_script : unmarkedScene.script = .ok unmarkedText :=
  eq_ok_of_toOption (by decide +kernel)

/-- The call is written, the jump is not. -/
theorem unmarkedScene_transfers :
    unmarkedScene.offeredLabels = .ok [.text "go", .text "intro"] ∧
      unmarkedScene.labels = .ok ["go"] ∧ unmarkedScene.script = .ok unmarkedText ∧
      HasLine unmarkedText "    call go\n" ∧
      ∃ s ∈ unmarkedScene.scenes, ∃ b ∈ s.blocks, b.kind = .jump ∧
        b.Stores "target" (.text "intro") ∧
        ∀ cast indent, b.render indent { cast, labels := some ["go"] } = .ok "" := by
  have hp : ∀ s ∈ unmarkedScene.scenes, s.DistinctIds := by decide
  have ho : unmarkedScene.offeredLabels = .ok [.text "go", .text "intro"] := rfl
  have hl : unmarkedScene.labels = .ok ["go"] := rfl
  have hscript := unmarkedScene_script
  obtain ⟨labels, hl', -, hcall, -⟩ := offered_label_written_iff_known hp hscript ho
    (v := .text "go") (by simp) (s := unmarkedScene.scenes[0]) (by decide)
    (b := unmarkedScene.scenes[0].blocks[2]) (by decide) rfl ⟨_, rfl, rfl⟩
  cases hl.symm.trans hl'
  obtain ⟨labels', hl'', hjump, -⟩ := offered_label_written_iff_known hp hscript ho
    (v := .text "intro") (by simp) (s := unmarkedScene.scenes[0]) (by decide)
    (b := unmarkedScene.scenes[0].blocks[1]) (by decide) rfl ⟨_, rfl, rfl⟩
  cases hl.symm.trans hl''
  exact ⟨ho, hl, hscript, hcall (by decide), _, List.mem_cons_self,
    unmarkedScene.scenes[0].blocks[1], by decide, rfl, ⟨_, rfl, rfl⟩, hjump⟩

/-- The label of the scene is offered and stored with the jump, but the script has no such jump. -/
theorem unmarkedScene_jump_dropped :
    unmarkedScene.offeredLabels = .ok [.text "go", .text "intro"] ∧
      (∃ s ∈ unmarkedScene.scenes, ∃ b ∈ s.blocks, b.kind = .jump ∧
        b.Stores "target" (.text "intro")) ∧
      unmarkedScene.script = .ok unmarkedText ∧ Text.contains unmarkedText "jump intro" = false :=
  ⟨rfl, ⟨_, List.mem_cons_self, unmarkedScene.scenes[0].blocks[1], by decide, rfl, _, rfl, rfl⟩,
    unmarkedScene_script, by decide +kernel⟩

end Project
end NovelGraph
