import NovelGraph.Proofs.SceneIntegrity
import NovelGraph.Proofs.Work

/-! A canvas and the scene that it shows. The only scene of the project is shown, its parts fit
together, and every box stands for a block of it. Wires and marks, which are drawn besides, have no
part in this. -/
namespace NovelGraph

/-- What a box says about the scene. -/
def Box.core (x : Box) : Nat × Block := (x.number, x.block)

namespace Canvas

/-- The boxes as far as they say something about the scene. -/
def cores (c : Canvas) : List (Nat × Block) := c.boxes.map Box.core

/-- The blocks of boxes that were removed. -/
def goneBlocks (c : Canvas) : List Block := c.gone.map (·.block)

/-- A canvas that shows the only scene of its project. -/
structure Holds (names : Nat → String) (c : Canvas) (s : Scene) : Prop where
  scene : c.scene = some s
  project : ∃ p, c.project = some p ∧ p.scenes = [s]
  supply : c.desk.names = names
  sound : s.Sound names c.desk.nextId
  tags : (s.blocks.map (·.tag)).Nodup
  lowTags : ∀ b ∈ s.blocks, b.tag < c.desk.nextTag
  numbers : (c.cores.map (·.1)).Nodup
  lowNumbers : ∀ x ∈ c.cores, x.1 < c.nextItem
  shown : ∀ x ∈ c.cores, x.2 ∈ s.blocks
  once : (c.cores.map (·.2.tag)).Nodup
  gone : ∀ a ∈ c.goneBlocks, Issued names c.desk.nextId a.id ∧ a.tag < c.desk.nextTag ∧
    ∀ b ∈ s.blocks, b.tag ≠ a.tag ∧ b.id ≠ a.id

/-- The second canvas differs from the first in nothing that matters to the scene, but ids, tags and
numbers may have been given out. -/
structure Resembles (c d : Canvas) : Prop where
  scene : d.scene = c.scene := by rfl
  project : d.project = c.project := by rfl
  supply : d.desk.names = c.desk.names := by rfl
  nextId : c.desk.nextId ≤ d.desk.nextId := by exact Nat.le_refl _
  nextTag : c.desk.nextTag ≤ d.desk.nextTag := by exact Nat.le_refl _
  nextItem : c.nextItem ≤ d.nextItem := by exact Nat.le_refl _
  cores : d.cores = c.cores := by rfl
  goneBlocks : d.goneBlocks = c.goneBlocks := by rfl

variable {names : Nat → String} {c d : Canvas} {s t : Scene} {b : Block}

section Resemblance

lemma Resembles.trans {e : Canvas} (h : c.Resembles d) (g : d.Resembles e) : c.Resembles e :=
  ⟨g.scene.trans h.scene, g.project.trans h.project, g.supply.trans h.supply,
    Nat.le_trans h.nextId g.nextId, Nat.le_trans h.nextTag g.nextTag,
    Nat.le_trans h.nextItem g.nextItem, g.cores.trans h.cores, g.goneBlocks.trans h.goneBlocks⟩

theorem Holds.of_resembles (hc : Holds names c s) (h : c.Resembles d) : Holds names d s where
  scene := h.scene.trans hc.scene
  project := h.project ▸ hc.project
  supply := h.supply.trans hc.supply
  sound := hc.sound.mono h.nextId
  tags := hc.tags
  lowTags b hb := Nat.lt_of_lt_of_le (hc.lowTags b hb) h.nextTag
  numbers := h.cores ▸ hc.numbers
  lowNumbers x hx := Nat.lt_of_lt_of_le (hc.lowNumbers x (h.cores ▸ hx)) h.nextItem
  shown := h.cores ▸ hc.shown
  once := h.cores ▸ hc.once
  gone a ha :=
    have hold := hc.gone a (h.goneBlocks ▸ ha)
    ⟨hold.1.mono h.nextId, Nat.lt_of_lt_of_le hold.2.1 h.nextTag, hold.2.2⟩

lemma resembles_dropWire (c : Canvas) (w : Wire Plug) : c.Resembles (c.dropWire w) := by
  unfold dropWire
  cases w.source <;> cases w.target <;> exact {}

lemma resembles_attach (c : Canvas) (p : Plug) (n : Nat) : c.Resembles (c.attach p n) := by
  unfold attach
  split_ifs <;> exact {}

lemma resembles_addWire {id : Value} {source : Plug} {target : Option Plug} {w : Wire Plug}
    (h : c.addWire id source target = .ok (d, w)) : c.Resembles d := by
  obtain ⟨v, -, hv⟩ := Outcome.bind_eq_ok.mp h
  obtain ⟨rfl, -⟩ := Prod.mk.inj (Except.ok.inj hv)
  exact { nextItem := Nat.le_succ _ }

lemma resembles_select (c : Canvas) (items : List Item) : c.Resembles (c.select items) :=
  { cores := List.map_map }

end Resemblance

section Changes

lemma Holds.model?_eq (hc : Holds names c s) : c.model? = some s := by
  obtain ⟨p, hp, hscenes⟩ := hc.project
  rw [model?, hc.scene, hp, Option.map_some, Option.bind_some, Project.findScene, hscenes]
  cases hid : s.id.equals s.id <;> simp [hid]

lemma tagged?_eq_some (htags : (t.blocks.map (·.tag)).Nodup) (hb : b ∈ t.blocks) {tag : Nat}
    (htag : b.tag = tag) : t.tagged? tag = some b := by
  obtain ⟨c, hc⟩ : ∃ c, t.tagged? tag = some c :=
    Option.isSome_iff_exists.mp (List.find?_isSome.mpr ⟨b, hb, by simpa using htag⟩)
  have hfound : c.tag = tag := by simpa using List.find?_some hc
  rw [hc, List.inj_on_of_nodup_map htags (List.mem_of_find?_eq_some hc) hb (hfound.trans htag.symm)]

lemma tagged?_eq_none {tag : Nat} (h : ∀ b ∈ t.blocks, b.tag ≠ tag) : t.tagged? tag = none :=
  List.find?_eq_none.mpr fun b hb => by simpa using h b hb

lemma putScene_cores (c : Canvas) (t : Scene) : (c.putScene t).cores =
    c.cores.map fun x => (x.1, (t.tagged? x.2.tag).getD x.2) := by
  simp only [cores, putScene, List.map_map]
  rfl

/-- A box shows the newest state of the same block. -/
lemma exists_of_mem_putScene {x : Nat × Block} (hx : x ∈ (c.putScene t).cores) :
    ∃ y ∈ c.cores, x.2.tag = y.2.tag := by
  rw [putScene_cores] at hx
  obtain ⟨y, hy, rfl⟩ := List.mem_map.mp hx
  refine ⟨y, hy, ?_⟩
  cases hfind : t.tagged? y.2.tag with
  | none => rfl
  | some b => simpa using List.find?_some hfind

lemma putScene_goneBlocks (c : Canvas) (t : Scene) : (c.putScene t).goneBlocks =
    c.goneBlocks.map fun b => (t.tagged? b.tag).getD b := by
  simp only [goneBlocks, putScene, List.map_map]
  rfl

/-- Boxes keep what they show if no block is changed, also those whose blocks are removed. -/
lemma Holds.putScene_cores_eq (hc : Holds names c s) (hsub : t.blocks ⊆ s.blocks) :
    (c.putScene t).cores = c.cores := by
  rw [putScene_cores]
  refine (List.map_congr_left fun x hx => ?_).trans (List.map_id' _)
  cases hfind : t.tagged? x.2.tag with
  | none => rfl
  | some b =>
    have hbx : b.tag = x.2.tag := by simpa using List.find?_some hfind
    rw [Option.getD_some, List.inj_on_of_nodup_map hc.tags (hsub (List.mem_of_find?_eq_some hfind))
      (hc.shown x hx) hbx]

/-- Boxes that are gone keep the blocks that they had. -/
lemma putScene_goneBlocks_eq (h : ∀ a ∈ c.goneBlocks, ∀ b ∈ t.blocks, b.tag ≠ a.tag) :
    (c.putScene t).goneBlocks = c.goneBlocks := by
  rw [putScene_goneBlocks]
  refine (List.map_congr_left fun a ha => ?_).trans (List.map_id' _)
  rw [tagged?_eq_none (h a ha), Option.getD_none]

lemma Holds.putScene_scene (hc : Holds names c s) (htag : t.tag = s.tag) :
    (c.putScene t).scene = some t ∧ ∃ p, (c.putScene t).project = some p ∧ p.scenes = [t] := by
  obtain ⟨p, hp, hscenes⟩ := hc.project
  refine ⟨?_, p.putScene t, ?_, ?_⟩
  · simp [putScene, hc.scene, htag]
  · simp [putScene, hp]
  · simp [Project.putScene, hscenes, htag]

/-- A new state of the scene, in which every box still has its block. -/
theorem Holds.putScene (hc : Holds names c s) (htag : t.tag = s.tag)
    (ht : t.Sound names c.desk.nextId) (htags : (t.blocks.map (·.tag)).Nodup)
    (hlow : ∀ b ∈ t.blocks, b.tag < c.desk.nextTag)
    (hshown : ∀ x ∈ c.cores, ∃ b ∈ t.blocks, b.tag = x.2.tag)
    (hgone : ∀ a ∈ c.goneBlocks, ∀ b ∈ t.blocks, b.tag ≠ a.tag ∧ b.id ≠ a.id) :
    Holds names (c.putScene t) t := by
  have hcores := putScene_cores c t
  have htagged : ∀ x ∈ c.cores, ∃ b ∈ t.blocks, b.tag = x.2.tag ∧ t.tagged? x.2.tag = some b := by
    intro x hx
    obtain ⟨b, hb, hbx⟩ := hshown x hx
    exact ⟨b, hb, hbx, tagged?_eq_some htags hb hbx⟩
  constructor
  · exact (hc.putScene_scene htag).1
  · exact (hc.putScene_scene htag).2
  · exact hc.supply
  · exact ht
  · exact htags
  · exact hlow
  · rw [hcores, List.map_map]
    exact hc.numbers
  · rw [hcores, List.forall_mem_map]
    exact hc.lowNumbers
  · rw [hcores, List.forall_mem_map]
    intro x hx
    obtain ⟨b, hb, -, heq⟩ := htagged x hx
    simpa [heq] using hb
  · have hsame : (c.putScene t).cores.map (·.2.tag) = c.cores.map (·.2.tag) := by
      rw [hcores, List.map_map]
      refine List.map_congr_left fun x hx => ?_
      obtain ⟨b, -, hbx, heq⟩ := htagged x hx
      simpa [heq] using hbx
    exact hsame ▸ hc.once
  · rw [putScene_goneBlocks_eq fun a ha b hb => (hgone a ha b hb).1]
    exact fun a ha => ⟨(hc.gone a ha).1, (hc.gone a ha).2.1, hgone a ha⟩

/-- The blocks stay, perhaps with other ports. -/
theorem Holds.putScene_ports (hc : Holds names c s) (htag : t.tag = s.tag)
    (ht : t.Sound names c.desk.nextId)
    (hblocks : List.Forall₂ (fun b c => c = { b with portIds := c.portIds }) s.blocks t.blocks) :
    Holds names (c.putScene t) t := by
  have hsame : t.blocks.map (fun b => (b.tag, b.id)) = s.blocks.map fun b => (b.tag, b.id) := by
    generalize s.blocks = bs at hblocks
    generalize t.blocks = cs at hblocks
    induction hblocks with
    | nil => rfl
    | @cons a d as ds had _ ih => rw [List.map_cons, List.map_cons, ih, had]
  have hback : ∀ b ∈ t.blocks, ∃ a ∈ s.blocks, b.tag = a.tag ∧ b.id = a.id := by
    intro b hb
    have hmem : (b.tag, b.id) ∈ s.blocks.map fun b => (b.tag, b.id) :=
      hsame ▸ List.mem_map_of_mem hb
    obtain ⟨a, ha, heq⟩ := List.mem_map.mp hmem
    obtain ⟨htags, hids⟩ := Prod.mk.inj heq
    exact ⟨a, ha, htags.symm, hids.symm⟩
  have hforth : ∀ a ∈ s.blocks, ∃ b ∈ t.blocks, b.tag = a.tag := by
    intro a ha
    have hmem : (a.tag, a.id) ∈ t.blocks.map fun b => (b.tag, b.id) :=
      hsame ▸ List.mem_map_of_mem ha
    obtain ⟨b, hb, heq⟩ := List.mem_map.mp hmem
    exact ⟨b, hb, (Prod.mk.inj heq).1⟩
  have htags : t.blocks.map (·.tag) = s.blocks.map (·.tag) := by
    simpa [Function.comp_def] using congrArg (List.map Prod.fst) hsame
  refine hc.putScene htag ht (htags ▸ hc.tags) ?_ ?_ ?_
  · intro b hb
    obtain ⟨a, ha, heq, -⟩ := hback b hb
    exact heq ▸ hc.lowTags a ha
  · exact fun x hx => hforth x.2 (hc.shown x hx)
  · intro g hg b hb
    obtain ⟨a, ha, htag, hid⟩ := hback b hb
    exact htag ▸ hid ▸ (hc.gone g hg).2.2 a ha

/-- Only the connections change. -/
lemma Holds.putScene_connections (hc : Holds names c s) (ht : t.Sound names c.desk.nextId)
    (htag : t.tag = s.tag) (hblocks : t.blocks = s.blocks) :
    Holds names (c.putScene t) t :=
  hc.putScene_ports htag ht (hblocks ▸ List.forall₂_same.mpr fun _ _ => rfl)

/-- Ports are made with new ids. -/
theorem Holds.grown (hc : Holds names c s) (hgrown : s.Grown t) {later : Nat}
    (ht : t.Sound names later) (hle : c.desk.nextId ≤ later) :
    Holds names { c.putScene t with scene := some t, desk := { c.desk with nextId := later } }
      t := by
  have hlater : Holds names { c with desk := { c.desk with nextId := later } } s :=
    hc.of_resembles { nextId := hle }
  have hput := hlater.putScene_ports hgrown.tag ht hgrown.blocks
  exact hput.of_resembles { scene := hput.scene.symm }

/-- A new block is put into the scene. -/
theorem Holds.addBlock (hn : Function.Injective names) (hc : Holds names c s)
    (hid : b.id = .text (names c.desk.nextId)) (hports : b.portIds = [])
    (htag : b.tag = c.desk.nextTag) (hd : c.Resembles d) (hid' : d.desk.nextId = c.desk.nextId + 1)
    (htag' : d.desk.nextTag = c.desk.nextTag + 1) :
    Holds names (d.putScene (s.addBlock b)) (s.addBlock b) := by
  have hds := hc.of_resembles hd
  refine hds.putScene rfl (hid' ▸ hc.sound.addBlock hn hid hports) ?_ ?_ ?_ ?_
  · rw [Scene.addBlock, List.map_append, List.nodup_append]
    refine ⟨hc.tags, List.nodup_singleton _, ?_⟩
    rintro _ hold _ hlast rfl
    obtain ⟨a, ha, rfl⟩ := List.mem_map.mp hold
    have := hc.lowTags a ha
    have : a.tag = b.tag := List.mem_singleton.mp hlast
    omega
  · refine List.forall_mem_append.mpr ⟨hds.lowTags, List.forall_mem_singleton.mpr ?_⟩
    omega
  · exact fun x hx => ⟨x.2, List.mem_append_left _ (hds.shown x hx), rfl⟩
  · intro a ha
    obtain ⟨hissued, hlow, happart⟩ := hc.gone a (hd.goneBlocks ▸ ha)
    refine List.forall_mem_append.mpr ⟨happart, List.forall_mem_singleton.mpr ⟨by omega, ?_⟩⟩
    exact fun heq => hissued.ne_next hn (heq.symm.trans hid)

lemma addBox_eq_ok (h : c.addBox b = .ok d) :
    d.cores = c.cores ++ [(c.nextItem, b)] ∧ d.scene = c.scene ∧ d.project = c.project ∧
      d.desk = c.desk ∧ d.nextItem = c.nextItem + 1 ∧ d.goneBlocks = c.goneBlocks := by
  obtain ⟨content, -, hd⟩ := Outcome.bind_eq_ok.mp h
  obtain rfl := Except.ok.inj hd
  exact ⟨List.map_append, rfl, rfl, rfl, rfl, rfl⟩

/-- A box for a block that has none. -/
theorem Holds.addBox (hc : Holds names c s) (hb : b ∈ s.blocks)
    (hnew : ∀ x ∈ c.cores, x.2.tag ≠ b.tag) (h : c.addBox b = .ok d) : Holds names d s := by
  obtain ⟨hcores, hscene, hproject, hdesk, hitem, hgone⟩ := addBox_eq_ok h
  constructor
  · exact hscene.trans hc.scene
  · exact hproject ▸ hc.project
  · exact hdesk ▸ hc.supply
  · exact hdesk ▸ hc.sound
  · exact hc.tags
  · exact hdesk ▸ hc.lowTags
  · rw [hcores, List.map_append, List.nodup_append]
    refine ⟨hc.numbers, List.nodup_singleton _, ?_⟩
    simpa using fun n b' hx => Nat.ne_of_lt (hc.lowNumbers (n, b') hx)
  · rw [hcores, hitem]
    refine List.forall_mem_append.mpr ⟨fun x hx => ?_, by simp⟩
    exact Nat.lt_succ_of_lt (hc.lowNumbers x hx)
  · rw [hcores]
    exact List.forall_mem_append.mpr ⟨hc.shown, List.forall_mem_singleton.mpr hb⟩
  · rw [hcores, List.map_append, List.nodup_append]
    refine ⟨hc.once, List.nodup_singleton _, ?_⟩
    rintro _ htag _ hlast rfl
    obtain ⟨x, hx, rfl⟩ := List.mem_map.mp htag
    exact hnew x hx (List.mem_singleton.mp hlast)
  · rw [hgone, hdesk]
    exact hc.gone

end Changes

section Removal

lemma removeBox_cores (c : Canvas) (n : Nat) :
    (c.removeBox n).cores = c.cores.filter (·.1 ≠ n) := by
  rw [cores, cores, List.filter_map]
  rfl

lemma removeBox_goneBlocks (c : Canvas) (n : Nat) :
    (c.removeBox n).goneBlocks = (c.cores.filter (·.1 = n)).map (·.2) ++ c.goneBlocks := by
  rw [goneBlocks, goneBlocks, cores, List.filter_map, List.map_map, removeBox, List.map_append]
  rfl

lemma mem_removeBlock {id : Value} {next : Nat} (hid : Issued names next id) :
    b ∈ (s.removeBlock id).blocks ↔ b ∈ s.blocks ∧ b.id ≠ id := by
  rw [Scene.removeBlock, List.mem_filter, ne_eq, ← hid.equals_iff]
  simp

/-- A block goes together with its box. -/
theorem Holds.removeBox (hc : Holds names c s) {n : Nat} (hb : (n, b) ∈ c.cores) :
    Holds names ((c.putScene (s.removeBlock b.id)).removeBox n) (s.removeBlock b.id) := by
  have hmem := hc.shown _ hb
  have hid := hc.sound.issuedBlocks b hmem
  have hsub : (s.removeBlock b.id).blocks.Sublist s.blocks := List.filter_sublist
  have hcores := hc.putScene_cores_eq hsub.subset
  have hgone : (c.putScene (s.removeBlock b.id)).goneBlocks = c.goneBlocks :=
    putScene_goneBlocks_eq fun a ha x hx => ((hc.gone a ha).2.2 x (hsub.subset hx)).1
  have hkept : ∀ x ∈ c.cores.filter (·.1 ≠ n), x ∈ c.cores ∧ x.1 ≠ n := by
    simp
  obtain ⟨hscene, hproject⟩ :=
    hc.putScene_scene (show (s.removeBlock b.id).tag = s.tag from rfl)
  constructor
  · exact hscene
  · exact hproject
  · exact hc.supply
  · exact hc.sound.removeBlock hid
  · exact (hsub.map _).nodup hc.tags
  · exact fun x hx => hc.lowTags x (hsub.subset hx)
  · rw [removeBox_cores, hcores]
    exact (List.filter_sublist.map _).nodup hc.numbers
  · rw [removeBox_cores, hcores]
    exact fun x hx => hc.lowNumbers x (hkept x hx).1
  · rw [removeBox_cores, hcores]
    intro x hx
    obtain ⟨hx, hne⟩ := hkept x hx
    refine (mem_removeBlock hid).mpr ⟨hc.shown x hx, fun heq => hne ?_⟩
    -- each block has one box
    have hblock : x.2 = b := hc.sound.eq_of_id_eq (hc.shown x hx) hmem heq
    have hxb : x = (n, b) := List.inj_on_of_nodup_map hc.once hx hb (by rw [hblock])
    rw [hxb]
  · rw [removeBox_cores, hcores]
    exact (List.filter_sublist.map _).nodup hc.once
  · rw [removeBox_goneBlocks, hcores, hgone]
    refine List.forall_mem_append.mpr ⟨?_, fun a ha => ?_⟩
    · intro a ha
      obtain ⟨x, hx, rfl⟩ := List.mem_map.mp ha
      obtain ⟨hx, hxn⟩ := List.mem_filter.mp hx
      have hxb : x = (n, b) :=
        List.inj_on_of_nodup_map hc.numbers hx hb (by simpa using hxn)
      rw [hxb]
      refine ⟨hid, hc.lowTags b hmem, fun y hy => ?_⟩
      obtain ⟨hy, hne⟩ := (mem_removeBlock hid).mp hy
      refine ⟨fun htag => hne ?_, hne⟩
      rw [List.inj_on_of_nodup_map hc.tags hy hmem htag]
    · obtain ⟨hissued, hlow, happart⟩ := hc.gone a ha
      exact ⟨hissued, hlow, fun y hy => happart y (hsub.subset hy)⟩

/-- Removing once more a box that is gone changes nothing. -/
theorem Holds.removeGone (hc : Holds names c s) (hb : b ∈ c.goneBlocks) {n : Nat}
    (hn : ∀ x ∈ c.cores, x.1 ≠ n) :
    Holds names ((c.putScene (s.removeBlock b.id)).removeBox n) (s.removeBlock b.id) := by
  obtain ⟨hid, -, hapart⟩ := hc.gone b hb
  have hblocks : (s.removeBlock b.id).blocks = s.blocks := by
    rw [Scene.removeBlock, List.filter_eq_self]
    intro a ha
    rw [Bool.not_eq_true', Bool.eq_false_iff, ne_eq, hid.equals_iff]
    exact (hapart a ha).2
  have hput := hc.putScene_connections (hc.sound.removeBlock hid) rfl hblocks
  have hcores := hc.putScene_cores_eq (t := s.removeBlock b.id) (hblocks ▸ List.Subset.refl _)
  refine hput.of_resembles { cores := ?_, goneBlocks := ?_ }
  · rw [removeBox_cores, hcores, List.filter_eq_self]
    simpa using hn
  · rw [removeBox_goneBlocks, hcores, List.filter_eq_nil_iff.mpr (by simpa using hn)]
    rfl

end Removal

end Canvas
end NovelGraph
