import NovelGraph.Editor.Canvas.Loading
import NovelGraph.Editor.Canvas.Mouse
import NovelGraph.Proofs.CanvasScene

/-! What is done with the mouse and the menus keeps the canvas in order, also where it fails half
way: blocks are dropped and deleted, wires are drawn and deleted, and the scene is loaded. -/
namespace NovelGraph.Canvas

variable {names : Nat → String} {c d : Canvas} {s t : Scene} {b : Block}

/-- The canvas shows a scene whose parts fit together. -/
def InOrder (names : Nat → String) (c : Canvas) : Prop := ∃ s, Holds names c s

lemma InOrder.of_resembles (hc : InOrder names c) (h : c.Resembles d) : InOrder names d := by
  obtain ⟨s, hs⟩ := hc
  exact ⟨s, hs.of_resembles h⟩

section Rules

variable {fail : Canvas → Prop}

@[simp] lemma ends_atDesk {α : Type} {work : StateM Desk α} {post : α → Canvas → Prop} :
    Ends (atDesk work) c post fail ↔ post (work c.desk).1 { c with desk := (work c.desk).2 } :=
  Iff.rfl

/-- What was drawn of a wire is shown, whether or not it could be drawn to the end. -/
lemma ends_showWire {drawing : Wire Plug × Option Fault} {post : Unit → Canvas → Prop}
    (hpost : post () (c.setWire drawing.1)) (hfail : fail (c.setWire drawing.1)) :
    Ends (showWire drawing) c post fail := by
  obtain ⟨w, fault⟩ := drawing
  cases fault with
  | none => exact hpost
  | some f => exact hfail

end Rules

section Dropping

theorem InOrder.ends_dropBlock (hn : Function.Injective names) (hc : InOrder names c)
    (format data : String) (x y : Value) :
    Ends (dropBlock format data x y) c (fun _ => InOrder names) (InOrder names) := by
  obtain ⟨s, hs⟩ := hc
  unfold dropBlock
  rw [ends_bind, ends_get, hs.scene]
  cases BlockKind.ofName? data with
  | none => exact ⟨s, hs⟩
  | some kind =>
    dsimp only
    split_ifs
    · exact ⟨s, hs⟩
    simp only [ends_bind, ends_atDesk, ends_modify, ends_get]
    set block : Block := { id := _, kind, x, y, tag := _ }
    set d : Canvas := { c with desk := _ }
    have hput : Holds names (d.putScene (s.addBlock block)) (s.addBlock block) := by
      refine hs.addBlock hn ?_ rfl rfl { nextId := Nat.le_succ _, nextTag := Nat.le_succ _ } rfl rfl
      rw [← hs.supply]
      rfl
    -- the block stays in the scene even if no box can be drawn for it
    cases hbox : (d.putScene (s.addBlock block)).addBox block with
    | error e => exact ⟨_, hput⟩
    | ok e =>
      have hnew : ∀ x ∈ (d.putScene (s.addBlock block)).cores, x.2.tag ≠ block.tag := by
        intro x hx
        obtain ⟨y, hy, htag⟩ := exists_of_mem_putScene hx
        exact htag ▸ Nat.ne_of_lt (hs.lowTags y.2 (hs.shown y hy))
      have hadded := hput.addBox (List.mem_append_right _ (List.mem_singleton_self _)) hnew hbox
      exact ⟨_, hadded.of_resembles {}⟩

end Dropping

section Connecting

/-- A plug that can be seen. -/
def HasPlug (c : Canvas) (p : Plug) : Prop := ∃ x ∈ c.boxes, p ∈ x.plugs

lemma hasPlug_iff {p : Plug} :
    c.HasPlug p ↔ ∃ x ∈ c.cores, ∃ k ∈ x.2.kind.sockets, p = .on x.1 k.name k.isOutput := by
  simp [HasPlug, cores, Box.plugs, Box.sockets, Box.core, eq_comm]

lemma HasPlug.of_resembles {p : Plug} (hp : c.HasPlug p) (h : c.Resembles d) : d.HasPlug p := by
  rw [hasPlug_iff] at hp ⊢
  exact h.cores ▸ hp

/-- A box is found among those that are shown, or else among those that are gone. -/
lemma box?_eq_some {n : Nat} {x : Box} (h : c.box? n = some x) :
    (n, x.block) ∈ c.cores ∨ x.block ∈ c.goneBlocks ∧ ∀ y ∈ c.cores, y.1 ≠ n := by
  rw [box?, List.find?_append] at h
  cases hshown : c.boxes.find? (·.number == n) with
  | some y =>
    rw [hshown] at h
    obtain rfl := Option.some.inj h
    have hnumber : y.number = n := by simpa using List.find?_some hshown
    exact .inl (hnumber ▸ List.mem_map_of_mem (List.mem_of_find?_eq_some hshown))
  | none =>
    rw [hshown] at h
    refine .inr ⟨List.mem_map_of_mem (List.mem_of_find?_eq_some h), ?_⟩
    rw [cores, List.forall_mem_map]
    simpa [Box.core] using hshown

lemma Holds.box?_eq (hc : Holds names c s) {n : Nat} (hb : (n, b) ∈ c.cores) :
    ∃ x, c.box? n = some x ∧ x.block = b := by
  obtain ⟨y, hy, hcore⟩ := List.mem_map.mp hb
  obtain ⟨rfl, rfl⟩ := Prod.mk.inj hcore
  obtain ⟨x, hx⟩ : ∃ x, c.box? y.number = some x :=
    Option.isSome_iff_exists.mp
      (List.find?_isSome.mpr ⟨y, List.mem_append_left _ hy, beq_self_eq_true _⟩)
  refine ⟨x, hx, ?_⟩
  rcases box?_eq_some hx with hshown | ⟨-, hnone⟩
  · exact (Prod.mk.inj (List.inj_on_of_nodup_map hc.numbers hshown hb rfl)).2
  · exact absurd rfl (hnone _ hb)

lemma Holds.plugName_eq (hc : Holds names c s) {plug : Plug} (hplug : c.HasPlug plug) :
    ∃ x ∈ c.cores, ∃ k ∈ x.2.kind.sockets,
      plug = .on x.1 k.name k.isOutput ∧ c.plugName plug = (some x.2.id, k.name) := by
  obtain ⟨⟨n, b⟩, hx, k, hk, rfl⟩ := hasPlug_iff.mp hplug
  obtain ⟨x, hfind, rfl⟩ := hc.box?_eq hx
  exact ⟨_, hx, k, hk, rfl, by simp [plugName, hfind]⟩

theorem Holds.ends_portId (hn : Function.Injective names) (hc : Holds names c s) (hb : b ∈ s.blocks)
    {k : Socket} (hk : k ∈ b.kind.sockets) {fail : Canvas → Prop} :
    Ends (portId (some b.id) k.name k.isOutput) c (fun id d => ∃ t, Holds names d t ∧ s.Grown t ∧
      ∃ p ∈ t.ports, p.id = id ∧ p.seat = (b.id, .text k.name, .ofSide k.isOutput)) fail := by
  unfold portId
  rw [ends_bind, ends_get, hc.model?_eq]
  obtain ⟨⟨id, t, later⟩, ht⟩ :
      ∃ r, s.ensurePort c.desk.names b.id k.name (.ofSide k.isOutput) c.desk.nextId = r := ⟨_, rfl⟩
  obtain ⟨hsound, hgrown, hle, hsame, hport⟩ := hc.sound.ensurePort hn hb hk (hc.supply ▸ ht)
  simp only [ht]
  split_ifs with hnew
  · exact ⟨t, hc.grown hgrown hsound hle, hgrown, hport⟩
  · obtain rfl := hsame (not_not.mp hnew)
    exact ⟨t, hc, hgrown, hport⟩

/-- The port that stands for a plug. -/
def PortOf (c : Canvas) (plug : Plug) (p : Port) : Prop :=
  ∃ x ∈ c.cores, ∃ k ∈ x.2.kind.sockets, plug = .on x.1 k.name k.isOutput ∧
    p.seat = (x.2.id, .text k.name, .ofSide k.isOutput)

/-- The second scene has one connection more, between the ports of two plugs. -/
def Joins (c : Canvas) (source target : Plug) (s t : Scene) : Prop :=
  ∃ link, t.connections = s.connections ++ [link] ∧
    (∃ p ∈ t.ports, p.id = link.fromPort ∧ c.PortOf source p) ∧
    ∃ p ∈ t.ports, p.id = link.toPort ∧ c.PortOf target p

/-- The plugs of the later canvas are those of the earlier one. -/
lemma Joins.of_resembles {source target : Plug} (h : d.Joins source target s t)
    (g : c.Resembles d) : c.Joins source target s t := by
  unfold Joins PortOf at h ⊢
  exact g.cores ▸ h

/-- The canvas has come to show a scene in order, with a new connection between two plugs unless an
id is empty. -/
def Connected (names : Nat → String) (c : Canvas) (source target : Plug) (s : Scene) (d : Canvas) :
    Prop :=
  ∃ t, Holds names d t ∧ ((∀ n, names n ≠ "") → c.Joins source target s t)

lemma Connected.inOrder {source target : Plug} (h : Connected names c source target s d) :
    InOrder names d := by
  obtain ⟨t, ht, -⟩ := h
  exact ⟨t, ht⟩

lemma Connected.of_resembles {e : Canvas} {source target : Plug}
    (h : Connected names c source target s d) (g : d.Resembles e) :
    Connected names c source target s e := by
  obtain ⟨t, ht, hjoins⟩ := h
  exact ⟨t, ht.of_resembles g, hjoins⟩

lemma isTruthy_of_issued {v : Value} {next : Nat} (hnames : ∀ n, names n ≠ "")
    (hv : Issued names next v) : v.isTruthy = true := by
  obtain ⟨k, -, rfl⟩ := hv
  simpa [Value.isTruthy] using hnames k

theorem Holds.ends_connectDraft (hn : Function.Injective names) (hc : Holds names c s)
    {source target : Plug} (hsource : c.HasPlug source) (hout : source.isOutput = true)
    (htarget : c.HasPlug target) (hin : target.isOutput = false) (number : Nat)
    {fail : Canvas → Prop} : Ends (connectDraft number source target) c
      (fun _ => Connected names c source target s) fail := by
  obtain ⟨x, hx, k, hk, rfl, hnamed⟩ := hc.plugName_eq hsource
  obtain ⟨y, hy, l, hl, rfl, hnamed'⟩ := hc.plugName_eq htarget
  unfold connectDraft
  rw [ends_bind, ends_get]
  simp only [hnamed, hnamed', Option.isNone_some, Bool.or_self, Bool.false_eq_true, if_false]
  rw [ends_bind]
  refine (hc.ends_portId hn (hc.shown x hx) hk).imp ?_
  rintro _ d ⟨t, ht, hst, p, hp, rfl, hpseat⟩
  -- the first port may have changed the block of the second, but not its id and its sockets
  obtain ⟨b, hb, hbid, hbkind, -⟩ := hst.exists_block (hc.shown y hy)
  rw [ends_bind, ← hbid]
  refine (ht.ends_portId hn hb (hbkind ▸ hl)).imp ?_
  rintro _ e ⟨u, hu, htu, q, hq, rfl, hqseat⟩
  have hp := htu.ports.subset hp
  split_ifs with hempty
  · refine ⟨u, hu, fun hnames => absurd hempty ?_⟩
    simp [isTruthy_of_issued hnames (hu.sound.issuedPorts p hp),
      isTruthy_of_issued hnames (hu.sound.issuedPorts q hq)]
  rw [ends_bind, ends_atDesk, ends_bind, ends_get]
  set f : Canvas := { e with desk := _ }
  have hf : Holds names f u := hu.of_resembles { nextId := Nat.le_succ _ }
  rw [hf.model?_eq]
  set link : Connection := { id := (Desk.freshId e.desk).1, fromPort := p.id, toPort := q.id }
  have hpside : p.direction = .output := by
    rw [(Prod.mk.inj (Prod.mk.inj hpseat).2).2, show k.isOutput = true from hout]
    rfl
  have hqside : q.direction = .input := by
    rw [(Prod.mk.inj (Prod.mk.inj hqseat).2).2, show l.isOutput = false from hin]
    rfl
  have hwired : (u.addConnection link).Sound names f.desk.nextId :=
    hf.sound.addConnection ⟨p, hp, rfl, hpside⟩ ⟨q, hq, rfl, hqside⟩
  have hput := hf.putScene_connections hwired rfl rfl
  refine ⟨_, hput.of_resembles { scene := hput.scene.symm }, fun _ => ⟨link, ?_, ?_, ?_⟩⟩
  · rw [Scene.addConnection, htu.connections, hst.connections]
  · exact ⟨p, hp, rfl, x, hx, k, hk, rfl, hpseat⟩
  · exact ⟨q, hq, rfl, y, hy, l, hl, rfl, hbid ▸ hqseat⟩

lemma ends_plugDraft {P : Canvas → Prop} (hP : ∀ d, c.Resembles d → P d) (number : Nat)
    (source target : Plug) : Ends (plugDraft number source target) c (fun _ => P) P := by
  unfold plugDraft
  rw [ends_bind, ends_get]
  cases c.wire? number with
  | none => exact hP c {}
  | some w =>
    rw [ends_bind]
    refine ends_showWire (hP _ ?_) (hP _ {})
    exact .trans (d := (c.setWire _).attach source number) (.trans {} (resembles_attach _ _ _))
      (resembles_attach _ _ _)

/-- On the second canvas a wire may be being drawn from a plug; otherwise it is like the first. -/
structure Drawing (source : Plug) (c d : Canvas) : Prop where
  resembles : c.Resembles d
  starts : ∀ n p, d.draft = some (n, p) → p = source
  begun : (∃ r, c.addWire .null source none = .ok r) → d.draft.isSome = true

/-- The first plug of what lies at a point. -/
def pressed? (items : List Item) : Option Plug :=
  items.findSome? fun i => match i with
    | .plug p => some p
    | _ => none

lemma ends_press {source : Plug} {items : List Item} (hitems : pressed? items = some source)
    (hout : source.isOutput = true) (at_ : Point) (control : Bool) :
    Ends (press items at_ true control) c (fun _ => Drawing source c) (Drawing source c) := by
  unfold press
  generalize hplug : (List.findSome? _ items : Option Plug) = plug
  obtain rfl : plug = some source := hplug.symm.trans hitems
  simp only [Option.filter_some, hout, if_true]
  rw [ends_bind, ends_get]
  cases hwire : c.addWire .null source none with
  | error e =>
    refine ⟨{}, fun n p hdraft => ?_, fun ⟨r, hr⟩ => nomatch hwire.symm.trans hr⟩
    obtain ⟨⟨m, q⟩, -, heq⟩ := Option.map_eq_some_iff.mp hdraft
    exact (Prod.mk.inj heq).2.symm
  | ok r =>
    obtain ⟨d, w⟩ := r
    have hd := resembles_addWire hwire
    have hdone : Drawing source c
        ({ d with draft := some (w.number, source) }.setWire (w.endAt d.place at_).1) := by
      refine ⟨hd.trans {}, fun n p hdraft => ?_, fun _ => rfl⟩
      exact (Prod.mk.inj (Option.some.inj hdraft)).2.symm
    simp only [ends_bind, ends_set]
    exact ends_showWire hdone hdone

lemma Drawing.ends_move {source : Plug} (h : Drawing source c d) (at_ : Point) :
    Ends (move at_) d (fun _ => Drawing source c) (Drawing source c) := by
  have hkept : ∀ e : Canvas, d.Resembles e → e.draft = d.draft → Drawing source c e :=
    fun e he hdraft => ⟨h.resembles.trans he, hdraft ▸ h.starts, hdraft ▸ h.begun⟩
  unfold move
  rw [ends_bind, ends_get]
  cases d.draft.bind fun r => d.wire? r.1 with
  | none => exact hkept _ {} rfl
  | some w =>
    rw [ends_bind]
    exact ends_showWire (hkept _ {} rfl) (hkept _ {} rfl)

/-- A wire that ends on an input becomes a connection. -/
theorem Holds.ends_release (hn : Function.Injective names) (hc : Holds names c s)
    {source target : Plug} (hsource : c.HasPlug source) (hout : source.isOutput = true)
    {number : Nat} (hdraft : c.draft = some (number, source)) {items : List Item}
    (hitems : items.head? = some (.plug target)) (htarget : c.HasPlug target)
    (hin : target.isOutput = false) :
    Ends (release items) c (fun _ => Connected names c source target s)
      (Connected names c source target s) := by
  obtain ⟨p, hproject, -⟩ := hc.project
  unfold release
  rw [ends_bind, ends_get]
  simp only [hdraft, hitems, hin, hc.scene, hproject, Option.isSome_some, Bool.and_self, if_true,
    Bool.false_eq_true, if_false]
  rw [ends_bind]
  refine (hc.ends_connectDraft hn hsource hout htarget hin number).imp fun connected d hd => ?_
  split_ifs
  · rw [ends_bind]
    refine (ends_plugDraft (fun e he => hd.of_resembles he) number source target).imp ?_
    exact fun _ e he => he.of_resembles {}
  · exact hd.of_resembles {}

theorem InOrder.ends_release (hn : Function.Injective names) (hc : InOrder names c) {source : Plug}
    (hsource : c.HasPlug source) (hout : source.isOutput = true)
    (hdraft : ∀ n p, c.draft = some (n, p) → p = source) {items : List Item}
    (hitems : ∀ p, items.head? = some (.plug p) → c.HasPlug p) :
    Ends (release items) c (fun _ => InOrder names) (InOrder names) := by
  obtain ⟨s, hs⟩ := hc
  rcases hdr : c.draft with _ | ⟨number, source'⟩
  · unfold release
    rw [ends_bind, ends_get, hdr]
    exact ⟨s, hs.of_resembles {}⟩
  obtain rfl := hdraft number source' hdr
  by_cases hinput : ∃ p, items.head? = some (.plug p) ∧ p.isOutput = false
  · obtain ⟨target, hhead, hin⟩ := hinput
    exact (hs.ends_release hn hsource hout hdr hhead (hitems target hhead) hin).mono
      (fun _ _ h => h.inOrder) (fun _ h => h.inOrder)
  · unfold release
    rw [ends_bind, ends_get, hdr]
    dsimp only
    split
    · exact ⟨s, hs.of_resembles {}⟩
    · rename_i target htarget
      refine absurd ⟨target, ?_⟩ hinput
      split at htarget
      · rename_i q hhead
        split_ifs at htarget with hq
        obtain rfl := Option.some.inj htarget
        exact ⟨hhead, by simpa using hq⟩
      · cases htarget

end Connecting

section Deleting

theorem InOrder.ends_deleteWire (hc : InOrder names c) (number : Nat) :
    Ends (deleteWire number) c (fun _ => InOrder names) (InOrder names) := by
  obtain ⟨s, hs⟩ := hc
  unfold deleteWire
  rw [ends_bind, ends_get, hs.model?_eq]
  cases c.wire? number with
  | none => exact ⟨s, hs⟩
  | some w =>
    dsimp only
    split_ifs
    · have hput := hs.putScene_connections (hs.sound.removeConnection w.id) rfl rfl
      exact ⟨_, hput.of_resembles (.trans { scene := hput.scene.symm } (resembles_dropWire _ w))⟩
    · exact ⟨s, hs⟩

/-- The boxes stay as they are while wires are cut. -/
structure Cut (names : Nat → String) (c d : Canvas) : Prop where
  inOrder : InOrder names d
  cores : d.cores = c.cores
  goneBlocks : d.goneBlocks = c.goneBlocks

lemma Cut.of_resembles {e : Canvas} (h : Cut names c d) (g : d.Resembles e) : Cut names c e :=
  ⟨h.inOrder.of_resembles g, g.cores.trans h.cores, g.goneBlocks.trans h.goneBlocks⟩

lemma Cut.cutWire (h : Cut names c d) (number : Nat) : Cut names c (d.cutWire number) := by
  obtain ⟨s, hs⟩ := h.inOrder
  unfold Canvas.cutWire
  cases d.wire? number with
  | none => exact h
  | some w =>
    simp only [hs.model?_eq]
    refine Cut.of_resembles ?_ (resembles_dropWire _ w)
    split_ifs
    · have hgone : (d.putScene (s.removeConnection w.id)).goneBlocks = d.goneBlocks :=
        putScene_goneBlocks_eq fun a ha b hb => ((hs.gone a ha).2.2 b hb).1
      exact ⟨⟨_, hs.putScene_connections (hs.sound.removeConnection w.id) rfl rfl⟩,
        (hs.putScene_cores_eq (List.Subset.refl _)).trans h.cores, hgone.trans h.goneBlocks⟩
    · exact h

theorem InOrder.ends_deleteBox (hc : InOrder names c) (number : Nat) :
    Ends (deleteBox number) c (fun _ => InOrder names) (InOrder names) := by
  unfold deleteBox
  rw [ends_bind, ends_get]
  cases hbox : c.box? number with
  | none => exact hc
  | some x =>
    have hcut :
        Cut names c (x.plugs.foldl (fun c p => (c.attached p).foldl Canvas.cutWire c) c) := by
      refine List.foldlRecOn _ _ ⟨hc, rfl, rfl⟩ fun d hd p _ => ?_
      exact List.foldlRecOn _ _ hd fun e he n _ => he.cutWire n
    simp only [ends_bind, ends_set, ends_get]
    revert hcut
    generalize x.plugs.foldl _ c = d
    intro hcut
    obtain ⟨s, hs⟩ := hcut.inOrder
    simp only [hs.model?_eq, hs.sound.tryRemoveBlock_eq]
    have hdone : Holds names ((d.putScene (s.removeBlock x.block.id)).removeBox number)
        (s.removeBlock x.block.id) := by
      -- an item that was selected twice is found again among the boxes that are gone
      rcases box?_eq_some hbox with hshown | ⟨hgone, hnone⟩
      · exact hs.removeBox (hcut.cores ▸ hshown)
      · exact hs.removeGone (hcut.goneBlocks ▸ hgone) (hcut.cores ▸ hnone)
    exact ⟨_, hdone.of_resembles {}⟩

/-- A question is noted, and takes the next answer. -/
lemma confirm_desk (title text : Value) (default : Bool) (desk : Desk) :
    (Desk.confirm title text default desk).2 =
      { desk with
        log := desk.log ++ [.question title text default]
        answers := desk.answers.tail } := by
  obtain ⟨supply, nextId, nextTag, answers, log⟩ := desk
  cases answers <;> rfl

theorem InOrder.ends_deleteBoxes (hc : InOrder names c) (boxes : List Box) :
    Ends (deleteBoxes boxes) c (fun _ => InOrder names) (InOrder names) := by
  unfold deleteBoxes
  rw [ends_bind, ends_get]
  split_ifs
  · exact hc
  rw [ends_bind, ends_atDesk]
  have hasked : InOrder names { c with desk := (Desk.confirm (.text "Удаление блоков")
      (.text (removalQuestion boxes)) false c.desk).2 } := by
    rw [confirm_desk]
    exact hc.of_resembles {}
  split_ifs
  · exact ends_forM (fun b _ d hd => hd.ends_deleteBox b.number) hasked
  · exact hasked

theorem InOrder.ends_deleteSelection (hc : InOrder names c) :
    Ends deleteSelection c (fun _ => InOrder names) (InOrder names) := by
  unfold deleteSelection
  rw [ends_bind, ends_get]
  split_ifs
  · rw [ends_bind]
    refine (ends_forM (fun n _ d hd => hd.ends_deleteWire n) hc).imp fun _ d hd => ?_
    exact hd.ends_deleteBoxes c.selectedBoxes
  · exact hc

end Deleting

section Loading

/-- The empty canvas before a scene is drawn. -/
lemma Holds.cleared {p : Project} (hscenes : p.scenes = [s]) (hnames : c.desk.names = names)
    (hs : s.Sound names c.desk.nextId) (htags : (s.blocks.map (·.tag)).Nodup)
    (hlow : ∀ b ∈ s.blocks, b.tag < c.desk.nextTag) :
    Holds names { c.cleared with project := some p, scene := some s } s where
  scene := rfl
  project := ⟨p, rfl, hscenes⟩
  supply := hnames
  sound := hs
  tags := htags
  lowTags := hlow
  numbers := List.nodup_nil
  lowNumbers _ hx := by cases hx
  shown _ hx := by cases hx
  once := List.nodup_nil
  gone _ ha := by cases ha

lemma Holds.drawBoxes {blocks : List Block} (hc : Holds names c s) (hsub : blocks ⊆ s.blocks)
    (htags : (blocks.map (·.tag)).Nodup) (hnew : ∀ x ∈ c.cores, ∀ b ∈ blocks, x.2.tag ≠ b.tag) :
    Holds names (drawBoxes blocks c) s := by
  induction blocks generalizing c with
  | nil => exact hc
  | cons b rest ih =>
    obtain ⟨hb, hrest⟩ := List.cons_subset.mp hsub
    obtain ⟨hfirst, htags⟩ := List.nodup_cons.mp htags
    have hold : ∀ x ∈ c.cores, x.2.tag ≠ b.tag ∧ ∀ a ∈ rest, x.2.tag ≠ a.tag :=
      fun x hx => List.forall_mem_cons.mp (hnew x hx)
    change Holds names (drawBoxes rest ((c.addBox b).toOption.getD c)) s
    cases hadd : c.addBox b with
    | error e => exact ih hc hrest htags fun x hx => (hold x hx).2
    | ok d =>
      refine ih (hc.addBox hb (fun x hx => (hold x hx).1) hadd) hrest htags ?_
      change ∀ x ∈ d.cores, _
      rw [(addBox_eq_ok hadd).1]
      refine List.forall_mem_append.mpr ⟨fun x hx => (hold x hx).2, ?_⟩
      refine List.forall_mem_singleton.mpr fun a ha heq => hfirst ?_
      exact List.mem_map.mpr ⟨a, ha, heq.symm⟩

lemma Holds.socketsOf (hc : Holds names c s) : s.SocketsOf (c.allSockets s) := by
  intro y hy
  obtain ⟨x, hx, hy⟩ := List.mem_flatMap.mp hy
  have hblock : x.block ∈ s.blocks :=
    hc.shown x.core (List.mem_map_of_mem (List.mem_reverse.mp hx))
  split at hy
  · cases hy
  · rename_i b hfind
    obtain ⟨k, hk, rfl⟩ := List.mem_map.mp hy
    have hfound := List.find?_some hfind
    have hid : b.id = x.block.id := (hc.sound.issuedBlocks _ hblock).equals_iff.mp hfound
    have hb := hc.sound.eq_of_id_eq (List.mem_of_find?_eq_some hfind) hblock hid
    exact ⟨b, hb ▸ hblock, k, hb ▸ hk, rfl⟩

lemma Holds.completePorts (hn : Function.Injective names) (hc : Holds names c s) :
    InOrder names (c.completePorts s) := by
  obtain ⟨⟨t, later⟩, ht⟩ :
      ∃ r, s.completePorts c.desk.names (c.allSockets s) c.desk.nextId = r := ⟨_, rfl⟩
  obtain ⟨hsound, hgrown, hle⟩ := hc.sound.completePorts hn hc.socketsOf (hc.supply ▸ ht)
  rw [Canvas.completePorts, ht]
  exact ⟨t, hc.grown hgrown hsound hle⟩

lemma resembles_drawWires (table : Dict Plug) (connections : List Connection) (c : Canvas) :
    c.Resembles (drawWires table connections c) := by
  induction connections generalizing c with
  | nil => exact {}
  | cons k rest ih =>
    unfold drawWires
    split_ifs
    · exact {}
    · split
      · rename_i p q _ _
        split
        · rename_i d w hadd
          have hattached := (resembles_attach d p w.number).trans (resembles_attach _ q w.number)
          exact ((resembles_addWire hadd).trans hattached).trans (ih _)
        · exact ih c
      · exact ih c

theorem Holds.load (hn : Function.Injective names) {p : Project} (hloading : c.loading = false)
    (hc : Holds names { c.cleared with project := some p, scene := some s } s) :
    InOrder names (c.load (some p) (some s)) := by
  have hfound : ((some p).bind (·.findScene s.id)).getD s = s := Option.some.inj hc.model?_eq
  have hdrawn := hc.drawBoxes (List.Subset.refl _) hc.tags fun x hx => by cases hx
  unfold Canvas.load
  rw [if_neg (by simp [hloading])]
  simp only [hfound]
  have hports := hdrawn.completePorts hn
  split
  · exact hports
  · split
    · exact hports
    · exact hports.of_resembles (resembles_drawWires _ _ _)

theorem InOrder.reload (hn : Function.Injective names) (hc : InOrder names c) :
    InOrder names (c.load c.project c.scene) := by
  obtain ⟨s, hs⟩ := hc
  obtain ⟨p, hp, hscenes⟩ := hs.project
  rw [hp, hs.scene]
  cases hloading : c.loading with
  | true =>
    rw [Canvas.load, if_pos hloading]
    exact ⟨s, hs⟩
  | false => exact Holds.load hn hloading (.cleared hscenes hs.supply hs.sound hs.tags hs.lowTags)

end Loading

end NovelGraph.Canvas
