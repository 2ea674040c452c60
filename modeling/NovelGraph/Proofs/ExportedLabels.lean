import NovelGraph.Export
import NovelGraph.Proofs.FileTree
import NovelGraph.Proofs.LabelClosure
import NovelGraph.Proofs.VisibleScript

/-! Labels of exported scripts. An export to a game that is there replaces its script and nothing
else. The script opens the labels of the start blocks as the story has them: the labels that scenes
get instead of taken ones are not in its text. -/
namespace NovelGraph

open Outcome Script Text

namespace Tree

/-- The labels that the scripts of a game define, but for the one that an export replaces. -/
def otherLabels (t : Tree) (game : Path) : List String :=
  (((t.namesEnding game ".rpy").filter (· != "script.rpy")).flatMap fun name =>
    (t.readLines (game.join name)).1.filterMap Script.definedLabel?).eraseDups

end Tree

namespace Disk

variable {α β : Type} {t t' : Tree}

lemma bind_eq_ok {work : DiskM α} {next : α → DiskM β} {b : β} :
    (work >>= next) t = .ok b t' ↔ ∃ a s, work t = .ok a s ∧ next a s = .ok b t' := by
  simp only [bind, EStateM.bind]
  cases work t <;> simp

lemma ask_eq_ok {f : Tree → Except Fault α} {a : α} :
    ask f t = .ok a t' ↔ f t = .ok a ∧ t = t' := by
  unfold ask
  cases f t <;> simp

lemma change_eq_ok {f : Tree → Except Fault Tree} : change f t = .ok () t' ↔ f t = .ok t' := by
  unfold change
  cases f t <;> simp

end Disk

namespace Block

/-- A block whose parameters may name other files. Start blocks name none. -/
structure Rehoused (b c : Block) : Prop where
  rest : c = { b with params := c.params }
  start : b.kind = .start → c = b

variable {b c d : Block}

lemma Rehoused.refl (b : Block) : b.Rehoused b := ⟨rfl, fun _ => rfl⟩

lemma Rehoused.id_eq (h : b.Rehoused c) : c.id = b.id := by rw [h.rest]

lemma Rehoused.kind_eq (h : b.Rehoused c) : c.kind = b.kind := by rw [h.rest]

lemma Rehoused.trans (h : b.Rehoused c) (h' : c.Rehoused d) : b.Rehoused d := by
  refine ⟨?_, fun hk => ?_⟩
  · rw [h'.rest, h.rest]
  · rw [h'.start (h.kind_eq ▸ hk), h.start hk]

lemma locateAsset_rehoused (h : b.locateAsset = .ok c) : b.Rehoused c := by
  unfold locateAsset at h
  cases hslot : Asset.slot? b.kind with
  | none =>
    rw [hslot] at h
    obtain rfl := Except.ok.inj h
    exact .refl b
  | some slot =>
    obtain ⟨key, folder⟩ := slot
    have hstart : b.kind ≠ .start := by
      intro hk
      rw [hk] at hslot
      cases hslot
    simp only [hslot] at h
    obtain ⟨ms, -, h⟩ := bind_eq_ok.mp h
    split at h
    · obtain rfl := pure_eq_ok.mp h
      exact .refl b
    · split at h
      · obtain ⟨name, -, h⟩ := bind_eq_ok.mp h
        obtain rfl := pure_eq_ok.mp h
        exact ⟨rfl, fun hk => absurd hk hstart⟩
      · obtain rfl := pure_eq_ok.mp h
        exact .refl b

lemma shortenAssets_rehoused (h : b.shortenAssets = .ok c) : b.Rehoused c := by
  unfold shortenAssets at h
  split at h
  · obtain rfl := Except.ok.inj h
    exact .refl b
  · rename_i hkeys
    obtain ⟨ms, -, h⟩ := bind_eq_ok.mp h
    obtain rfl := pure_eq_ok.mp h
    refine ⟨rfl, fun hk => absurd ?_ hkeys⟩
    rw [hk]
    rfl

end Block

namespace Project

variable {p q r : Project}

/-- Projects whose blocks differ in the files that they name. -/
def Rehoused (p q : Project) : Prop :=
  List.Forall₂ (fun s t : Scene => List.Forall₂ Block.Rehoused s.blocks t.blocks) p.scenes q.scenes

lemma mapBlocks_eq_ok {f : Block → Except Fault Block} (h : p.mapBlocks f = .ok q) :
    List.Forall₂ (fun s t : Scene => List.Forall₂ (fun b c => f b = .ok c) s.blocks t.blocks)
      p.scenes q.scenes := by
  rw [mapBlocks, bind_eq_ok] at h
  obtain ⟨scenes, hscenes, h⟩ := h
  obtain rfl := pure_eq_ok.mp h
  refine (mapM_eq_ok hscenes).imp fun s t hst => ?_
  obtain ⟨blocks, hblocks, hst⟩ := bind_eq_ok.mp hst
  obtain rfl := pure_eq_ok.mp hst
  exact mapM_eq_ok hblocks

lemma mapBlocks_rehoused {f : Block → Except Fault Block}
    (hf : ∀ b c, f b = .ok c → b.Rehoused c) (h : p.mapBlocks f = .ok q) : p.Rehoused q :=
  (mapBlocks_eq_ok h).imp fun _ _ hst => hst.imp hf

namespace Rehoused

lemma trans (h : p.Rehoused q) (h' : q.Rehoused r) : p.Rehoused r := by
  refine forall₂_comp (fun s t u hst htu => ?_) h h'
  exact forall₂_comp (fun b c d hbc hcd => hbc.trans hcd) hst htu

lemma blocks (h : p.Rehoused q) : List.Forall₂ Block.Rehoused p.blocks q.blocks :=
  List.rel_flatMap h fun _ _ hst => hst

lemma distinctIds (h : p.Rehoused q) (hp : ∀ s ∈ p.scenes, s.DistinctIds) :
    ∀ s ∈ q.scenes, s.DistinctIds := by
  intro t ht
  obtain ⟨s, hs, hst⟩ := exists_left_of_forall₂ h ht
  have hids : ∀ {bs cs : List Block}, List.Forall₂ Block.Rehoused bs cs →
      cs.map (·.id) = bs.map (·.id) := by
    intro bs cs hbcs
    induction hbcs with
    | nil => rfl
    | cons hbc _ ih => rw [List.map_cons, List.map_cons, hbc.id_eq, ih]
  have hdistinct : (s.blocks.map (·.id)).Pairwise fun a b => a.equals b = false :=
    List.pairwise_map.mpr (hp s hs)
  rw [← hids hst] at hdistinct
  exact List.pairwise_map.mp hdistinct

lemma blocksOf_start (h : p.Rehoused q) : q.blocksOf .start = p.blocksOf .start := by
  have hblocks := h.blocks
  unfold blocksOf
  generalize p.blocks = bs, q.blocks = cs at hblocks
  induction hblocks with
  | nil => rfl
  | @cons b c _ _ hbc _ ih =>
    by_cases hk : b.kind = .start
    · obtain rfl := hbc.start hk
      simp [hk, ih]
    · have hk' : c.kind ≠ .start := hbc.kind_eq ▸ hk
      simp [hk, hk', ih]

end Rehoused

end Project

namespace Relabel

/-- A new label is all that a scene gets. -/
lemma scene_eq_ok {name : Value} {hasStart : Bool} {taken taken' : List String} {s s' : Scene}
    (h : scene name hasStart taken s = .ok (s', taken')) : s' = { s with label := s'.label } := by
  have hdecided : ∀ conflict : Bool, (if conflict then do
      let base := (← plainName name) ++ "_" ++ (← plainName s.name)
      let label := free taken base
      pure ({ s with label := .text label }, taken ++ [label])
    else pure (s, taken)) = Except.ok (s', taken') → s' = { s with label := s'.label } := by
    intro conflict h
    split at h
    · obtain ⟨first, -, h⟩ := bind_eq_ok.mp h
      obtain ⟨second, -, h⟩ := bind_eq_ok.mp h
      obtain ⟨rfl, -⟩ := Prod.mk.inj (pure_eq_ok.mp h)
      rfl
    · obtain ⟨rfl, -⟩ := Prod.mk.inj (pure_eq_ok.mp h)
      rfl
  unfold scene at h
  split at h
  · exact hdecided hasStart h
  · obtain ⟨_, -, h⟩ := bind_eq_ok.mp h
    exact hdecided _ h

lemma scenes_eq_ok {name : Value} {hasStart : Bool} {taken : List String} {ss ss' : List Scene}
    (h : scenes name hasStart taken ss = .ok ss') :
    List.Forall₂ (fun s s' => s' = { s with label := s'.label }) ss ss' := by
  induction ss generalizing taken ss' with
  | nil =>
    obtain rfl := Except.ok.inj h
    exact .nil
  | cons s rest ih =>
    rw [scenes, bind_eq_ok] at h
    obtain ⟨⟨s', taken'⟩, hs, h⟩ := h
    obtain ⟨rest', hrest, h⟩ := bind_eq_ok.mp h
    obtain rfl := pure_eq_ok.mp h
    exact .cons (scene_eq_ok hs) (ih hrest)

end Relabel

namespace Project

variable {p q r : Project} {taken : List String} {text label : String}

/-- New labels of scenes leave no trace in the script. -/
lemma relabel_alike (h : p.relabel taken = .ok q) : p.Alike q ∧ p.Rehoused q := by
  rw [relabel, bind_eq_ok] at h
  obtain ⟨scenes, hscenes, h⟩ := h
  obtain rfl := pure_eq_ok.mp h
  have hsame := Relabel.scenes_eq_ok hscenes
  refine ⟨⟨hsame.imp fun s s' hs => ?_, rfl, rfl⟩, hsame.imp fun s s' hs => ?_⟩
  · rw [hs]
    exact ⟨rfl, rfl⟩
  · rw [hs]
    exact List.forall₂_same.mpr fun b _ => .refl b

/-- A label of a start block. -/
def StartLabel (p : Project) (label : String) : Prop :=
  ∃ b ∈ p.blocksOf .start, labelOf? b = .ok (some label)

/-- The script of a story opens the label of each of its blocks. -/
lemma script_defines (hp : ∀ s ∈ p.scenes, s.DistinctIds) (h : p.script = .ok text) {b : Block}
    (hb : b ∈ p.blocks) (hl : labelOf? b = .ok (some label)) : Defines text label := by
  obtain ⟨cast, labels, -, hlines⟩ := script_hasLines hp h
  obtain ⟨s, hin, hbs⟩ := List.mem_flatMap.mp hb
  obtain ⟨body, hst, hline⟩ := hlines s hin
  exact hline _ (Scene.script_defines (hp s hin) hst hbs hl)

lemma script_defines_start (hp : ∀ s ∈ p.scenes, s.DistinctIds) (h : p.script = .ok text)
    (hl : p.StartLabel label) : Defines text label := by
  obtain ⟨b, hb, hbl⟩ := hl
  exact script_defines hp h (List.mem_filter.mp hb).1 hbl

/-- The project with the names under which the game finds its files. -/
lemma prepared_eq_ok (h : p.prepared taken = .ok r) :
    ∃ q, (p.locateAssets >>= shortenAssets) = .ok q ∧ q.relabel taken = .ok r := by
  rw [prepared, bind_eq_ok] at h
  obtain ⟨located, hlocated, h⟩ := h
  obtain ⟨q, hq, h⟩ := bind_eq_ok.mp h
  exact ⟨q, bind_eq_ok.mpr ⟨located, hlocated, hq⟩, h⟩

lemma exportTo_eq_ok {directory : Path} {t t' : Tree} (hgame : t.isGame directory = true)
    (h : p.exportTo directory t = .ok () t') :
    ∃ q script, p.prepared (t.labels (Export.gameDirectory directory)) = .ok q ∧
      q.script = .ok script ∧
      t.writeText ((Export.gameDirectory directory).join "script.rpy") script = .ok t' := by
  have hmake : Disk.makeDirectory (Export.gameDirectory directory) t = .ok () t := by
    rw [Disk.makeDirectory, Disk.change]
    simp only [Tree.makeDirectory_eq (p := Export.gameDirectory directory) hgame]
  obtain ⟨_, _, hget, h⟩ := Disk.bind_eq_ok.mp h
  obtain ⟨rfl, rfl⟩ := EStateM.Result.ok.inj hget
  rw [hgame] at h
  obtain ⟨_, _, hmade, h⟩ := Disk.bind_eq_ok.mp h
  obtain ⟨-, rfl⟩ := EStateM.Result.ok.inj (hmake.symm.trans hmade)
  obtain ⟨script, _, hask, h⟩ := Disk.bind_eq_ok.mp h
  obtain ⟨hmade, rfl⟩ := Disk.ask_eq_ok.mp hask
  obtain ⟨q, hq, hscript⟩ := bind_eq_ok.mp hmade
  obtain ⟨_, _, hwrite, h⟩ := Disk.bind_eq_ok.mp h
  obtain ⟨-, rfl⟩ := EStateM.Result.ok.inj h
  exact ⟨q, script, hq, hscript, Disk.change_eq_ok.mp hwrite⟩

/-- A project is exported with the start blocks of the story, and with the same script whatever
labels are taken. -/
lemma prepared_rehoused (h : p.prepared taken = .ok r) :
    p.Rehoused r ∧ ∀ taken' r', p.prepared taken' = .ok r' → r'.script = r.script := by
  obtain ⟨q, hq, hrelabel⟩ := prepared_eq_ok h
  have hrehoused : p.Rehoused q := by
    obtain ⟨located, hlocated, hshort⟩ := bind_eq_ok.mp hq
    exact (mapBlocks_rehoused (fun _ _ => Block.locateAsset_rehoused) hlocated).trans
      (mapBlocks_rehoused (fun _ _ => Block.shortenAssets_rehoused) hshort)
  obtain ⟨halike, hrelabelled⟩ := relabel_alike hrelabel
  refine ⟨hrehoused.trans hrelabelled, fun taken' r' h' => ?_⟩
  obtain ⟨q', hq', hrelabel'⟩ := prepared_eq_ok h'
  obtain rfl : q = q' := Except.ok.inj (hq.symm.trans hq')
  rw [← (relabel_alike hrelabel').1.script_eq, halike.script_eq]

/-- An export to a game that is there changes the script file alone. The labels that the game has
leave no trace in the new script, which opens every label of a start block as it is in the story:
it clashes with the other scripts exactly if the story does. -/
theorem exportTo_start_labels {directory : Path} {t t' : Tree} (hgame : t.isGame directory = true)
    (h : p.exportTo directory t = .ok () t') :
    ∃ q script place,
      p.prepared (t.labels (Export.gameDirectory directory)) = .ok q ∧ q.script = .ok script ∧
      t.locate ((Export.gameDirectory directory).join "script.rpy") = .ok place ∧
      t'.at? ((Export.gameDirectory directory).join "script.rpy") = some (.file (.text script)) ∧
      (∀ other, other ≠ place → t'.get? other = t.get? other) ∧
      (∀ taken r, p.prepared taken = .ok r → r.script = .ok script) ∧
      q.blocksOf .start = p.blocksOf .start ∧
      ((∀ s ∈ p.scenes, s.DistinctIds) →
        (∀ label, p.StartLabel label → Defines script label) ∧
        ((∀ label, q.StartLabel label → Defines script label →
            label ∉ t.otherLabels (Export.gameDirectory directory)) ↔
          ∀ label, p.StartLabel label →
            label ∉ t.otherLabels (Export.gameDirectory directory))) := by
  obtain ⟨q, script, hq, hscript, hwrite⟩ := exportTo_eq_ok hgame h
  obtain ⟨place, hplace, hfile, hrest⟩ := Tree.writeText_eq_ok hwrite
  obtain ⟨hrehoused, hsame⟩ := prepared_rehoused hq
  have hlabels : ∀ label, q.StartLabel label ↔ p.StartLabel label := by
    intro label
    rw [StartLabel, StartLabel, hrehoused.blocksOf_start]
  refine ⟨q, script, place, hq, hscript, hplace, hfile, hrest,
    fun taken r hr => (hsame taken r hr).trans hscript, hrehoused.blocksOf_start, fun hp => ?_⟩
  have hdefines : ∀ label, p.StartLabel label → Defines script label := fun label hl =>
    script_defines_start (hrehoused.distinctIds hp) hscript ((hlabels label).mpr hl)
  refine ⟨hdefines, fun hfree label hl => ?_, fun hfree label hl _ => ?_⟩
  · exact hfree label ((hlabels label).mpr hl) (hdefines label hl)
  · exact hfree label ((hlabels label).mp hl)

/-- A story whose scene and start block have a label that is taken in the game. -/
def reprise : Project where
  name := .text "story"
  scenes :=
    [{ id := .text "s", name := .text "Scene", label := .text "intro",
       blocks :=
        [{ id := .text "a", kind := .start, params := .object [("label", .text "intro")],
           x := .int 0, y := .int 0 },
         { id := .text "b", kind := .sound,
           params := .object [("sound_file", .text "/home/bell.ogg")],
           x := .int 3, y := .int 0 }] }]

def repriseText : String :=
  "# Generated by RenPy Node Editor\n" ++
  "# This file is auto-generated. Do not edit manually.\n\n" ++
  "define narrator = Character('Narrator')\n\n\n" ++
  "# Игра начинается здесь:\nlabel start:\n    jump intro\n" ++
  "label intro:\n    play sound \"audio/bell.ogg\"\n\n"

/-- A game with one script. -/
def oldGame : Tree where
  entries :=
    [(["disk"], .directory), (["disk", "game"], .directory),
     (["disk", "game", "other.rpy"], .file (.text "label intro:\n    return\n"))]

def newGame : Tree := oldGame.put ["disk", "game", "script.rpy"] (.file (.text repriseText))

lemma reprise_exported : reprise.exportTo (.ofText "/disk") oldGame = .ok () newGame := by
  have hentries : (match reprise.exportTo (.ofText "/disk") oldGame with
      | .ok _ t => some t.entries
      | .error _ _ => none) = some newGame.entries := by decide +kernel
  cases hrun : reprise.exportTo (.ofText "/disk") oldGame with
  | error e t => simp [hrun] at hentries
  | ok u t =>
    rw [hrun] at hentries
    exact congrArg (EStateM.Result.ok ()) (congrArg Tree.mk (Option.some.inj hentries))

/-- The scene has made way for the taken label, and the script opens it all the same. -/
theorem reprise_start_labels :
    oldGame.isGame (.ofText "/disk") = true ∧
      reprise.exportTo (.ofText "/disk") oldGame = .ok () newGame ∧
      ∃ script, newGame.at? (.ofText "/disk/game/script.rpy") = some (.file (.text script)) ∧
        (∀ label, reprise.StartLabel label → Defines script label) ∧
        ¬ ∀ label, reprise.StartLabel label → Defines script label →
          label ∉ oldGame.otherLabels (.ofText "/disk/game") := by
  have hgame : oldGame.isGame (.ofText "/disk") = true := by decide +kernel
  obtain ⟨q, script, -, -, -, -, hfile, -, -, -, hlabels⟩ :=
    exportTo_start_labels hgame reprise_exported
  obtain ⟨hdefines, -⟩ := hlabels (by decide)
  have hstart : reprise.StartLabel "intro" := ⟨_, List.mem_cons_self, rfl⟩
  have htaken : "intro" ∈ oldGame.otherLabels (.ofText "/disk/game") := by decide +kernel
  exact ⟨hgame, reprise_exported, script, hfile, hdefines,
    fun hfree => hfree "intro" hstart (hdefines "intro" hstart) htaken⟩

/-- The label of the only start block is neither empty nor that of the game, the other scripts do
not have that of the game, and yet the new script opens a label of theirs. -/
theorem reprise_clash :
    reprise.labels = .ok ["intro"] ∧ oldGame.isGame (.ofText "/disk") = true ∧
      oldGame.otherLabels (.ofText "/disk/game") = ["intro"] ∧
      reprise.exportTo (.ofText "/disk") oldGame = .ok () newGame ∧
      newGame.at? (.ofText "/disk/game/script.rpy") = some (.file (.text repriseText)) ∧
      Defines repriseText "intro" := by
  refine ⟨rfl, by decide +kernel, by decide +kernel, reprise_exported, by decide +kernel, ?_⟩
  refine ⟨"# Generated by RenPy Node Editor\n" ++
    "# This file is auto-generated. Do not edit manually.\n\n" ++
    "define narrator = Character('Narrator')\n\n\n" ++
    "# Игра начинается здесь:\nlabel start:\n" ++ "    jump intro\n",
    "    play sound \"audio/bell.ogg\"\n\n", by decide +kernel, endsLine_append_of_last _ rfl⟩

end Project
end NovelGraph
