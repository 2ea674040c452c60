import NovelGraph.Proofs.EditingSession
import NovelGraph.Proofs.VisibleScript

/-! Opening a scene. Sockets that have no port get one, and nothing else in the project changes. No
wire ends at a new port, so the graph of the scene and the script of the project stay as they were.
When the scene is opened again there is nothing left to add. -/
namespace NovelGraph

open Outcome

section UpdateFirst

variable {α : Type} {items : List α}

lemma mem_updateFirst (test : α → Bool) (f : α → α) {a : α} (ha : a ∈ items) :
    a ∈ updateFirst test f items ∨ f a ∈ updateFirst test f items := by
  induction items with
  | nil => cases ha
  | cons b rest ih =>
    rw [updateFirst]
    rcases List.mem_cons.mp ha with rfl | ha
    · split_ifs <;> simp
    · split_ifs
      · exact .inl (List.mem_cons_of_mem _ ha)
      · exact (ih ha).imp (List.mem_cons_of_mem b) (List.mem_cons_of_mem b)

lemma exists_mem_updateFirst {test : α → Bool} (f : α → α) (h : ∃ a ∈ items, test a = true) :
    ∃ a ∈ items, test a = true ∧ f a ∈ updateFirst test f items := by
  induction items with
  | nil => simp at h
  | cons b rest ih =>
    rw [updateFirst]
    split_ifs with hb
    · exact ⟨b, List.mem_cons_self, hb, List.mem_cons_self⟩
    · have hrest : ∃ a ∈ rest, test a = true := by simpa [hb] using h
      obtain ⟨a, ha, htest, hfa⟩ := ih hrest
      exact ⟨a, List.mem_cons_of_mem b ha, htest, List.mem_cons_of_mem b hfa⟩

end UpdateFirst

/-- The second block is the first with some more ports, which belong to it, at the end of its
list. -/
def Block.Gains (added : List Port) (b c : Block) : Prop :=
  ∃ own : List Port, own.Sublist added ∧ (∀ p ∈ own, b.id.equals p.nodeId = true) ∧
    c = { b with portIds := b.portIds ++ own.map (·.id) }

lemma Block.Gains.mono {added more : List Port} {b c : Block} (h : b.Gains added c) :
    b.Gains (added ++ more) c := by
  obtain ⟨own, hown, hc⟩ := h
  exact ⟨own, hown.trans (List.sublist_append_left _ _), hc⟩

namespace Scene

/-- The second scene is the first with more ports at the end, each of which is listed with a block
that it belongs to. -/
structure Extended (s : Scene) (added : List Port) (t : Scene) : Prop where
  rest : t = { s with ports := s.ports ++ added, blocks := t.blocks }
  blocks : List.Forall₂ (Block.Gains added) s.blocks t.blocks
  listed : ∀ p ∈ added, ∃ c ∈ t.blocks, c.id.equals p.nodeId = true ∧ p.id ∈ c.portIds

/-- The id occurs in a scene where ports are meant: it is that of a port, is listed with a block, or
stands at the end of a wire. -/
def NamesPort (s : Scene) (v : Value) : Prop :=
  (∃ p ∈ s.ports, p.id = v) ∨ (∃ b ∈ s.blocks, v ∈ b.portIds) ∨
    ∃ c ∈ s.connections, c.fromPort = v ∨ c.toPort = v

/-- The ids that a supply still has are all different, and the scene has none of them for a port. -/
structure Unused (names : Nat → String) (next : Nat) (s : Scene) : Prop where
  distinct : ∀ m n, next ≤ m → next ≤ n → names m = names n → m = n
  fresh : ∀ n, next ≤ n → ¬s.NamesPort (.text (names n))

variable {names : Nat → String} {next later : Nat} {s t u : Scene} {added : List Port} {p : Port}

namespace Extended

lemma refl (s : Scene) : s.Extended [] s where
  rest := by simp
  blocks := List.forall₂_same.mpr fun b _ => ⟨[], List.Sublist.refl _, by simp⟩
  listed := by simp

lemma ports (h : s.Extended added t) : t.ports = s.ports ++ added := by rw [h.rest]

lemma connections (h : s.Extended added t) : t.connections = s.connections := by rw [h.rest]

lemma id_eq (h : s.Extended added t) : t.id = s.id := by rw [h.rest]

lemma tag_eq (h : s.Extended added t) : t.tag = s.tag := by rw [h.rest]

/-- A script cannot tell the blocks apart. -/
lemma alike (h : s.Extended added t) : AlikeBlocks s.blocks t.blocks := by
  rw [AlikeBlocks, ← List.forall₂_eq_eq_eq, List.forall₂_map_left_iff, List.forall₂_map_right_iff]
  refine h.blocks.imp fun b c hbc => ?_
  obtain ⟨own, -, -, rfl⟩ := hbc
  rfl

lemma exists_block (h : s.Extended added t) {id : Value}
    (hb : ∃ b ∈ s.blocks, b.id.equals id = true) : ∃ c ∈ t.blocks, c.id.equals id = true := by
  have hids : s.blocks.map (·.id) = t.blocks.map (·.id) :=
    h.alike.congr (List.map Block.id) fun _ => List.map_map
  obtain ⟨b, hb, hid⟩ := hb
  obtain ⟨c, hc, hcb⟩ := List.mem_map.mp (hids ▸ List.mem_map_of_mem hb)
  exact ⟨c, hc, hcb ▸ hid⟩

/-- One more port, with an id that no block lists yet. -/
theorem addPort (h : s.Extended added t) (hnode : ∃ b ∈ t.blocks, b.id.equals p.nodeId = true)
    (hfresh : ∀ b ∈ t.blocks, p.id.memberOf b.portIds = false) :
    s.Extended (added ++ [p]) (t.addPort p) := by
  have hadd : ∀ b ∈ t.blocks, b.addPortId p.id = { b with portIds := b.portIds ++ [p.id] } := by
    intro b hb
    rw [Block.addPortId, hfresh b hb, if_neg Bool.false_ne_true]
  -- in a part of the list of blocks, the first that the port names gains it
  have hblocks : ∀ {bs cs : List Block}, List.Forall₂ (Block.Gains added) bs cs → cs ⊆ t.blocks →
      List.Forall₂ (Block.Gains (added ++ [p])) bs
        (updateFirst (·.id.equals p.nodeId) (·.addPortId p.id) cs) := by
    intro bs cs hbs hsub
    induction hbs with
    | nil => exact .nil
    | @cons b c bs cs hbc hrest ih =>
      obtain ⟨hc, hsub⟩ := List.cons_subset.mp hsub
      rw [updateFirst]
      split_ifs with htest
      · refine .cons ?_ (hrest.imp fun _ _ => Block.Gains.mono)
        rw [hadd c hc]
        obtain ⟨own, hown, hsits, rfl⟩ := hbc
        refine ⟨own ++ [p], hown.append (List.Sublist.refl _), ?_, by simp⟩
        exact List.forall_mem_append.mpr ⟨hsits, List.forall_mem_singleton.mpr htest⟩
      · exact .cons hbc.mono (ih hsub)
  refine ⟨?_, hblocks h.blocks (List.Subset.refl _), ?_⟩
  · rw [Scene.addPort, h.rest, List.append_assoc]
  · refine List.forall_mem_append.mpr ⟨fun q hq => ?_, List.forall_mem_singleton.mpr ?_⟩
    · obtain ⟨c, hc, hid, hq⟩ := h.listed q hq
      rcases mem_updateFirst (·.id.equals p.nodeId) (·.addPortId p.id) hc with hkept | hchanged
      · exact ⟨c, hkept, hid, hq⟩
      · rw [hadd c hc] at hchanged
        exact ⟨_, hchanged, hid, List.mem_append_left _ hq⟩
    · obtain ⟨c, hc, hid, hchanged⟩ := exists_mem_updateFirst (·.addPortId p.id) hnode
      rw [hadd c hc] at hchanged
      exact ⟨_, hchanged, hid, List.mem_append_right _ (by simp)⟩

end Extended

section Graph

/-- The new ids are those of the new ports. -/
lemma Extended.namesPort_iff (h : s.Extended added t) {v : Value} :
    t.NamesPort v ↔ s.NamesPort v ∨ ∃ p ∈ added, p.id = v := by
  constructor
  · rintro (⟨p, hp, hid⟩ | ⟨c, hc, hlisted⟩ | hends)
    · rw [h.ports] at hp
      rcases List.mem_append.mp hp with hp | hp
      · exact .inl (.inl ⟨p, hp, hid⟩)
      · exact .inr ⟨p, hp, hid⟩
    · obtain ⟨b, hb, own, hown, -, rfl⟩ := exists_left_of_forall₂ h.blocks hc
      rcases List.mem_append.mp hlisted with hold | hnew
      · exact .inl (.inr (.inl ⟨b, hb, hold⟩))
      · obtain ⟨p, hp, hid⟩ := List.mem_map.mp hnew
        exact .inr ⟨p, hown.subset hp, hid⟩
    · exact .inl (.inr (.inr (h.connections ▸ hends)))
  · rintro ((⟨p, hp, hid⟩ | ⟨b, hb, hlisted⟩ | hends) | ⟨p, hp, hid⟩)
    · exact .inl ⟨p, h.ports ▸ List.mem_append_left _ hp, hid⟩
    · obtain ⟨c, hc, own, -, -, rfl⟩ := exists_left_of_forall₂ (.flip h.blocks) hb
      exact .inr (.inl ⟨_, hc, List.mem_append_left _ hlisted⟩)
    · exact .inr (.inr (h.connections ▸ hends))
    · exact .inl ⟨p, h.ports ▸ List.mem_append_right _ hp, hid⟩

/-- Ports with new names do not change which block a wire leads to. -/
lemma Extended.portOwners_get? (h : s.Extended added t) {v : Value}
    (hv : ∀ p ∈ added, v.same p.id = false) : t.portOwners.get? v = s.portOwners.get? v := by
  rw [portOwners, h.ports, List.foldl_append, ← portOwners]
  generalize s.portOwners = owners
  clear h
  induction added generalizing owners with
  | nil => rfl
  | cons p rest ih =>
    obtain ⟨hp, hrest⟩ := List.forall_mem_cons.mp hv
    rw [List.foldl_cons, ih hrest, Dict.get?_set, hp, if_neg Bool.false_ne_true]

lemma wireEnds?_congr {owners owners' : Dict Value} {c : Connection}
    (hfrom : owners.get? c.fromPort = owners'.get? c.fromPort)
    (hto : owners.get? c.toPort = owners'.get? c.toPort) (blocks : Dict Block) :
    wireEnds? owners blocks c = wireEnds? owners' blocks c := by
  rw [wireEnds?, wireEnds?, hfrom, hto]

/-- Ports are new if their ids are texts that the scene did not have for ports. -/
def NewPorts (s : Scene) (added : List Port) : Prop :=
  ∀ p ∈ added, ∃ name, p.id = .text name ∧ ¬s.NamesPort (.text name)

/-- The graph of a scene stays if it is given new ports. -/
theorem Extended.links_eq (h : s.Extended added t) (hnew : s.NewPorts added) :
    t.links = s.links := by
  have hends : ∀ c ∈ s.connections, ∀ v, c.fromPort = v ∨ c.toPort = v →
      ∀ p ∈ added, v.same p.id = false := by
    intro c hc v hv p hp
    obtain ⟨name, hid, hfresh⟩ := hnew p hp
    rw [hid, Bool.eq_false_iff]
    intro hsame
    obtain rfl : v = .text name := Value.canon_eq_text (Value.same_iff.mp hsame)
    exact hfresh (.inr (.inr ⟨c, hc, hv⟩))
  have hports : t.ports.forM (·.id.requireKey) = s.ports.forM (·.id.requireKey) := by
    have hadded : added.forM (·.id.requireKey) = .ok () := by
      refine forM_ok fun p hp => ?_
      obtain ⟨name, hid, -⟩ := hnew p hp
      rw [hid]
      rfl
    rw [h.ports, List.forM_eq_forM, List.forM_append, ← List.forM_eq_forM, hadded]
    exact bind_pure _
  have hblocks : t.blocks.forM (·.id.requireKey) = s.blocks.forM (·.id.requireKey) :=
    (h.alike.forM_eq fun _ => rfl).symm
  have hwires : s.connections.foldlM (addWire t.portOwners t.blockTable) [] =
      s.connections.foldlM (addWire s.portOwners s.blockTable) [] := by
    refine foldlM_congr (fun _ => True) (fun c hc l _ => ?_) (fun _ _ _ _ _ _ => trivial) trivial
    have hfrom := h.portOwners_get? (hends c hc _ (.inl rfl))
    have hto := h.portOwners_get? (hends c hc _ (.inr rfl))
    rw [addWire, wireEnds?_congr hfrom hto, ← addWire]
    exact (addWire_congr (blockTable_alike h.alike) l c).symm
  rw [links, links, hports, hblocks, h.connections, hwires]

end Graph

section Supply

lemma Unused.addPort (ht : t.Unused names next) (hid : p.id = .text (names next))
    (h : t.Extended [p] (t.addPort p)) : (t.addPort p).Unused names (next + 1) where
  distinct m n hm hn := ht.distinct m n (by omega) (by omega)
  fresh n hn hnames := by
    rcases h.namesPort_iff.mp hnames with hold | ⟨q, hq, hqn⟩
    · exact ht.fresh n (by omega) hold
    · obtain rfl := List.mem_singleton.mp hq
      have := ht.distinct next n (Nat.le_refl _) (by omega) (Value.text.inj (hid.symm.trans hqn))
      omega

/-- The scene after ports have been made from a supply of ids, which is not used up yet. -/
structure Supplied (names : Nat → String) (s : Scene) (t : Scene) (next : Nat) : Prop where
  extended : ∃ added, s.Extended added t ∧ s.NewPorts added
  unused : t.Unused names next

/-- There are blocks for all of the sockets. -/
def HasBlocks (s : Scene) (sockets : List (Value × String × Direction)) : Prop :=
  ∀ x ∈ sockets, ∃ b ∈ s.blocks, b.id.equals x.1 = true

/-- Every one of the sockets has a port. -/
def HasPorts (s : Scene) (sockets : List (Value × String × Direction)) : Prop :=
  ∀ x ∈ sockets, (s.portFor? x.1 x.2.1 x.2.2).isSome = true

lemma portFor?_isSome_of_ports {blockId : Value} {name : String} {side : Direction}
    (hsub : t.ports ⊆ u.ports) (h : (t.portFor? blockId name side).isSome = true) :
    (u.portFor? blockId name side).isSome = true := by
  rw [portFor?, List.find?_isSome] at h ⊢
  obtain ⟨q, hq, htest⟩ := h
  exact ⟨q, hsub hq, htest⟩

lemma equals_self {a b : Value} (h : a.equals b = true) : b.equals b = true := by
  rw [← Value.equals_congr_right b (Value.same_of_equals h), Value.equals_comm]
  exact h

/-- A socket of one of the blocks is given a port, unless it has one. -/
theorem Supplied.ensurePort (h : Supplied names s t next) {blockId id : Value} {name : String}
    {side : Direction} (hb : ∃ b ∈ t.blocks, b.id.equals blockId = true)
    (hrun : t.ensurePort names blockId name side next = (id, u, later)) :
    Supplied names s u later ∧ (∃ more, t.Extended more u) ∧
      (u.portFor? blockId name side).isSome = true := by
  rw [Scene.ensurePort] at hrun
  split at hrun
  · rename_i q hfind
    obtain ⟨-, rfl, rfl⟩ : q.id = id ∧ t = u ∧ next = later := by simpa using hrun
    exact ⟨h, ⟨[], .refl t⟩, by rw [hfind]; rfl⟩
  · obtain ⟨-, rfl, rfl⟩ : Value.text (names next) = id ∧ t.addPort
        { id := .text (names next), nodeId := blockId, name := .text name, direction := side } = u ∧
        next + 1 = later := by simpa using hrun
    have hfresh := h.unused.fresh next (Nat.le_refl _)
    have hlists : ∀ b ∈ t.blocks, (Value.text (names next)).memberOf b.portIds = false := by
      intro b hb
      rw [Bool.eq_false_iff, ne_eq, Value.memberOf_text]
      exact fun hmem => hfresh (.inr (.inl ⟨b, hb, hmem⟩))
    have hstep := (Extended.refl t).addPort (p :=
      { id := .text (names next), nodeId := blockId, name := .text name, direction := side })
      hb hlists
    refine ⟨⟨?_, h.unused.addPort rfl hstep⟩, ⟨_, hstep⟩, ?_⟩
    · obtain ⟨added, hext, hnew⟩ := h.extended
      refine ⟨_, hext.addPort hb hlists, List.forall_mem_append.mpr ⟨hnew, ?_⟩⟩
      exact List.forall_mem_singleton.mpr
        ⟨names next, rfl, fun hold => hfresh (hext.namesPort_iff.mpr (.inl hold))⟩
    · obtain ⟨b, -, hid⟩ := hb
      rw [portFor?, List.find?_isSome]
      refine ⟨_, List.mem_append_right _ (List.mem_singleton_self _), ?_⟩
      simp [equals_self hid, Value.equals_text]

/-- All of the sockets are given ports. -/
theorem Supplied.completePorts {sockets : List (Value × String × Direction)}
    (h : Supplied names s t next) (hb : t.HasBlocks sockets)
    (hrun : t.completePorts names sockets next = (u, later)) :
    Supplied names s u later ∧ t.ports ⊆ u.ports ∧ u.HasPorts sockets := by
  induction sockets generalizing t next with
  | nil =>
    obtain ⟨rfl, rfl⟩ := Prod.mk.inj hrun
    exact ⟨h, List.Subset.refl _, by simp [HasPorts]⟩
  | cons x rest ih =>
    obtain ⟨hx, hrest⟩ := List.forall_mem_cons.mp hb
    obtain ⟨blockId, name, side⟩ := x
    obtain ⟨⟨id, v, middle⟩, hv⟩ :
        ∃ r, t.ensurePort names blockId name side next = r := ⟨_, rfl⟩
    rw [Scene.completePorts, hv] at hrun
    obtain ⟨hsupplied, ⟨more, hmore⟩, hport⟩ := h.ensurePort hx hv
    obtain ⟨hdone, hsub, hports⟩ := ih hsupplied (fun y hy => hmore.exists_block (hrest y hy)) hrun
    have hfirst : t.ports ⊆ v.ports := by
      rw [hmore.ports]
      exact List.subset_append_left _ _
    exact ⟨hdone, List.Subset.trans hfirst hsub,
      List.forall_mem_cons.mpr ⟨portFor?_isSome_of_ports hsub hport, hports⟩⟩

/-- Where every socket has a port, none is made. -/
lemma HasPorts.completePorts_eq {sockets : List (Value × String × Direction)}
    (h : s.HasPorts sockets) : s.completePorts names sockets next = (s, next) := by
  induction sockets with
  | nil => rfl
  | cons x rest ih =>
    obtain ⟨hx, hrest⟩ := List.forall_mem_cons.mp h
    obtain ⟨q, hq⟩ := Option.isSome_iff_exists.mp hx
    rw [Scene.completePorts, Scene.ensurePort, hq]
    exact ih hrest

end Supply

/-- The blocks that get a box: those whose texts can be made. -/
def drawn (textHeight : Value.Number) (blocks : List Block) : List Block :=
  blocks.filter fun b => (Node.content b textHeight).toOption.isSome

/-- The sockets that are seen when a scene is opened, those of the last block first. -/
def seenSockets (textHeight : Value.Number) (s : Scene) : List (Value × String × Direction) :=
  (drawn textHeight s.blocks).reverse.flatMap fun b =>
    match (s.findBlock b.id).map (·.id) with
    | none => []
    | some id => b.kind.sockets.map fun k => (id, k.name, .ofSide k.isOutput)

lemma hasBlocks_seenSockets (textHeight : Value.Number) (s : Scene) :
    s.HasBlocks (s.seenSockets textHeight) := by
  intro x hx
  obtain ⟨b, -, hx⟩ := List.mem_flatMap.mp hx
  cases hfind : s.findBlock b.id with
  | none => simp [hfind] at hx
  | some block =>
    rw [hfind] at hx
    obtain ⟨k, -, rfl⟩ := List.mem_map.mp hx
    exact ⟨block, findBlock_mem hfind, findBlock_equals (findBlock_self hfind)⟩

/-- New ports do not change which sockets are seen. -/
lemma Extended.seenSockets_eq (h : s.Extended added t) (textHeight : Value.Number) :
    t.seenSockets textHeight = s.seenSockets textHeight := by
  have hdrawn : AlikeBlocks (drawn textHeight s.blocks) (drawn textHeight t.blocks) :=
    h.alike.filter _ fun _ => rfl
  have hfound : ∀ id, (t.findBlock id).map (·.id) = (s.findBlock id).map (·.id) := by
    intro id
    rcases findBlock_cases h.alike id with ⟨hs, ht⟩ | ⟨b, c, hs, ht, hbc⟩
    · rw [hs, ht]
    · rw [hs, ht, Option.map_some, Option.map_some, hbc.id_eq]
  simp only [seenSockets, hfound]
  refine (hdrawn.congr (·.reverse.flatMap _) fun ds => ?_).symm
  rw [← List.map_reverse, List.flatMap_map]
  rfl

end Scene

namespace Canvas

variable {p : Project} {s t : Scene} {c : Canvas}

lemma drawBoxes_eq (blocks : List Block) (c : Canvas) : ∃ boxes next,
    drawBoxes blocks c = { c with boxes := c.boxes ++ boxes, nextItem := next } ∧
      boxes.map (·.block) = Scene.drawn c.textHeight blocks := by
  induction blocks generalizing c with
  | nil => exact ⟨[], c.nextItem, by simp [drawBoxes], rfl⟩
  | cons b rest ih =>
    change ∃ boxes next, drawBoxes rest ((c.addBox b).toOption.getD c) = _ ∧ _
    cases hcontent : Node.content b c.textHeight with
    | error e =>
      have hadd : (c.addBox b).toOption.getD c = c := by
        rw [addBox, hcontent]
        rfl
      obtain ⟨boxes, next, heq, hblocks⟩ := ih c
      refine ⟨boxes, next, by rw [hadd, heq], ?_⟩
      rw [hblocks]
      simp [Scene.drawn, hcontent, Except.toOption]
    | ok content =>
      set x : Box := { number := c.nextItem, block := b, x := b.x, y := b.y, content }
      have hadd : (c.addBox b).toOption.getD c =
          { c with boxes := c.boxes ++ [x], nextItem := c.nextItem + 1 } := by
        rw [addBox, hcontent]
        rfl
      obtain ⟨boxes, next, heq, hblocks⟩ :=
        ih { c with boxes := c.boxes ++ [x], nextItem := c.nextItem + 1 }
      refine ⟨x :: boxes, next, ?_, ?_⟩
      · rw [hadd, heq, List.append_assoc]
        rfl
      · rw [List.map_cons, hblocks]
        simp [Scene.drawn, hcontent, Except.toOption, x]

lemma allSockets_drawBoxes (hc : c.boxes = []) (s : Scene) :
    (drawBoxes s.blocks c).allSockets s = s.seenSockets c.textHeight := by
  obtain ⟨boxes, next, heq, hblocks⟩ := drawBoxes_eq s.blocks c
  rw [heq, Scene.seenSockets, ← hblocks, allSockets, hc, List.nil_append, ← List.map_reverse,
    List.flatMap_map]
  congr 1
  funext x
  cases s.findBlock x.block.id <;> rfl

lemma drawWires_eq (table : Dict Plug) (connections : List Connection) (c : Canvas) :
    ∃ wires attachments next, drawWires table connections c =
      { c with wires, attachments, nextItem := next } := by
  induction connections generalizing c with
  | nil => exact ⟨_, _, _, rfl⟩
  | cons k rest ih =>
    unfold drawWires
    split_ifs
    · exact ⟨_, _, _, rfl⟩
    · split
      · rename_i p q _ _
        split
        · rename_i d w hadd
          obtain ⟨v, -, hv⟩ := bind_eq_ok.mp hadd
          obtain ⟨rfl, -⟩ := Prod.mk.inj (Except.ok.inj hv)
          have hattach : ∀ (d : Canvas) (p : Plug) (n : Nat), ∃ attachments,
              d.attach p n = { d with attachments } := by
            intro d p n
            unfold attach
            split_ifs
            · exact ⟨_, rfl⟩
            · exact ⟨_, rfl⟩
          obtain ⟨_, hp⟩ :=
            hattach { c with wires := c.wires ++ [v], nextItem := c.nextItem + 1 } p w.number
          rw [hp]
          obtain ⟨_, hq⟩ := hattach _ q w.number
          rw [hq]
          exact ih _
        · exact ih c
      · exact ih c

/-- What becomes of the canvas when a scene of a project is opened. -/
lemma load_eq (hidle : c.loading = false) (hfound : (p.findScene s.id).getD s = t) :
    ∃ u later,
      t.completePorts c.desk.names (t.seenSockets c.textHeight) c.desk.nextId = (u, later) ∧
      (c.load (some p) (some s)).project = some (p.putScene u) ∧
      (c.load (some p) (some s)).scene = some u ∧
      (c.load (some p) (some s)).desk = { c.desk with nextId := later } ∧
      (c.load (some p) (some s)).loading = false := by
  obtain ⟨⟨u, later⟩, hu⟩ : ∃ r, t.completePorts c.desk.names (t.seenSockets c.textHeight)
    c.desk.nextId = r := ⟨_, rfl⟩
  refine ⟨u, later, hu, ?_⟩
  set d : Canvas := { c.cleared with project := some p, scene := some t }
  obtain ⟨boxes, next, hdrawn, -⟩ := drawBoxes_eq t.blocks d
  have hrun : t.completePorts (drawBoxes t.blocks d).desk.names
      ((drawBoxes t.blocks d).allSockets t) (drawBoxes t.blocks d).desk.nextId = (u, later) := by
    rw [allSockets_drawBoxes rfl, hdrawn]
    exact hu
  set f := completePorts (drawBoxes t.blocks d) t with hf
  have hports : f.project = some (p.putScene u) ∧ f.scene = some u ∧
      f.desk = { c.desk with nextId := later } ∧ f.loading = false := by
    rw [hf, completePorts, hrun, hdrawn]
    exact ⟨rfl, rfl, rfl, rfl⟩
  unfold load
  rw [if_neg (by simp [hidle])]
  simp only [Option.bind_some, hfound]
  split
  · exact hports
  · split
    · exact hports
    · rename_i table _
      obtain ⟨wires, attachments, next, hwires⟩ := drawWires_eq table _ f
      rw [hwires]
      exact hports

end Canvas

namespace Project

variable {p : Project} {s t : Scene}

/-- Scenes that are told apart, by their ids and by their tags. -/
structure ScenesApart (p : Project) : Prop where
  ids : p.scenes.Pairwise fun s t => s.id.equals t.id = false
  tags : (p.scenes.map (·.tag)).Nodup

/-- A scene that is looked up is the scene itself. -/
lemma ScenesApart.findScene_eq (hp : p.ScenesApart) (hs : s ∈ p.scenes) :
    (p.findScene s.id).getD s = s := by
  cases hfind : p.findScene s.id with
  | none => rfl
  | some t =>
    by_contra hne
    have hsymm : Std.Symm fun x y : Scene => x.id.equals y.id = false :=
      ⟨fun x y hxy => by rwa [Value.equals_comm]⟩
    have hequal : t.id.equals s.id = true :=
      List.find?_some (p := fun u : Scene => u.id.equals s.id) hfind
    have hapart := List.Pairwise.forall hp.ids (List.mem_of_find?_eq_some hfind) hs hne
    simp [hapart] at hequal

/-- One scene is put in the place of another. -/
lemma ScenesApart.putScene_eq {before after : List Scene} (hp : p.ScenesApart)
    (hscenes : p.scenes = before ++ s :: after) (htag : t.tag = s.tag) :
    p.putScene t = { p with scenes := before ++ t :: after } := by
  have htags := hp.tags
  rw [hscenes, List.map_append, List.map_cons, List.nodup_append, List.nodup_cons] at htags
  obtain ⟨-, ⟨hafter, -⟩, hbefore⟩ := htags
  have hother : ∀ {us : List Scene}, (∀ u ∈ us, u.tag ≠ s.tag) →
      us.map (fun u => if u.tag = t.tag then t else u) = us := by
    intro us hus
    refine (List.map_congr_left fun u hu => if_neg ?_).trans (List.map_id' us)
    exact htag ▸ hus u hu
  rw [putScene, hscenes, List.map_append, List.map_cons, hother, hother, if_pos htag.symm]
  · exact fun u hu heq => hafter (heq ▸ List.mem_map_of_mem hu)
  · exact fun u hu => hbefore _ (List.mem_map_of_mem hu) _ List.mem_cons_self

lemma ScenesApart.replace {before after : List Scene} (hp : p.ScenesApart)
    (hscenes : p.scenes = before ++ s :: after) (hid : t.id = s.id) (htag : t.tag = s.tag) :
    ScenesApart { p with scenes := before ++ t :: after } := by
  have hids : (before ++ t :: after).map (·.id) = p.scenes.map (·.id) := by simp [hscenes, hid]
  have htags : (before ++ t :: after).map (·.tag) = p.scenes.map (·.tag) := by simp [hscenes, htag]
  have hapart : ((before ++ t :: after).map (·.id)).Pairwise fun v w => v.equals w = false :=
    hids ▸ List.pairwise_map.mpr hp.ids
  exact ⟨List.pairwise_map.mp hapart, htags ▸ hp.tags⟩

end Project

namespace Canvas

variable {p : Project} {s : Scene} {c : Canvas}

/-- Opening a scene does not change what it means. The scene gets ports for sockets without one, and
their ids are listed with their blocks; the rest of the project stays, and so do the graph of the
scene and the script of the project. When the scene is opened again, nothing is added. A canvas that
is busy with opening a scene takes no notice. -/
theorem load_keeps_meaning (hp : p.ScenesApart) (hs : s ∈ p.scenes)
    (hnew : s.Unused c.desk.names c.desk.nextId) :
    (c.loading = true → c.load (some p) (some s) = c) ∧
    (c.loading = false → ∃ before after added t q,
      p.scenes = before ++ s :: after ∧ q = { p with scenes := before ++ t :: after } ∧
      (c.load (some p) (some s)).project = some q ∧ (c.load (some p) (some s)).scene = some t ∧
      s.Extended added t ∧ t.links = s.links ∧ q.script = p.script ∧
      ∀ d : Canvas, d.loading = false → d.textHeight = c.textHeight →
        (d.load (some q) (some t)).project = some q ∧
          (d.load (some q) (some t)).scene = some t) := by
  refine ⟨fun hbusy => by rw [load, if_pos hbusy], fun hidle => ?_⟩
  obtain ⟨before, after, hscenes⟩ := List.append_of_mem hs
  obtain ⟨t, later, ht, hproject, hscene, -⟩ := load_eq hidle (hp.findScene_eq hs)
  have hstart : Scene.Supplied c.desk.names s s c.desk.nextId :=
    ⟨⟨[], .refl s, by simp [Scene.NewPorts]⟩, hnew⟩
  obtain ⟨⟨⟨added, hext, hfresh⟩, -⟩, -, hports⟩ :=
    hstart.completePorts (s.hasBlocks_seenSockets _) ht
  have hlinks := hext.links_eq hfresh
  rw [hp.putScene_eq hscenes hext.tag_eq] at hproject
  refine ⟨before, after, added, t, _, hscenes, rfl, hproject, hscene, hext, hlinks, ?_, ?_⟩
  · have hsame : ∀ us : List Scene, List.Forall₂ (fun s t => AlikeBlocks s.blocks t.blocks ∧
        s.links = t.links) us us := fun us => List.forall₂_same.mpr fun _ _ => ⟨rfl, rfl⟩
    have halike : p.Alike { p with scenes := before ++ t :: after } :=
      ⟨hscenes ▸ List.rel_append (hsame before) (.cons ⟨hext.alike, hlinks.symm⟩ (hsame after)),
        rfl, rfl⟩
    exact halike.script_eq.symm
  · intro d hd hheight
    have hq := hp.replace hscenes hext.id_eq hext.tag_eq
    obtain ⟨t', later', ht', hproject', hscene', -⟩ :=
      load_eq hd (hq.findScene_eq (s := t) (by simp))
    rw [hheight, hext.seenSockets_eq, hports.completePorts_eq] at ht'
    obtain ⟨rfl, -⟩ := Prod.mk.inj ht'
    exact ⟨hproject'.trans (congrArg some (hq.putScene_eq rfl rfl)), hscene'⟩

section Half

/-- A start that leads to a line. The port behind the line is missing. -/
def halfWired : Scene where
  id := .text "s"
  name := .text "S"
  label := .text "s"
  tag := 1
  blocks :=
    [{ id := .text "b", kind := .start, params := .object [("label", .text "go")], x := .int 0,
       y := .int 0, portIds := [.text "b.o"] },
     { id := .text "a", kind := .narration, params := .object [("text", .text "Hi")], x := .int 3,
       y := .int 4 }]
  ports :=
    [{ id := .text "b.o", nodeId := .text "b", name := .text "out", direction := .output },
     { id := .text "a.i", nodeId := .text "a", name := .text "in", direction := .input }]
  connections := [{ id := .text "1", fromPort := .text "b.o", toPort := .text "a.i" }]

def halfWiredProject : Project where
  name := .text "story"
  scenes := [halfWired, { id := .text "t", name := .text "T", label := .text "t", tag := 2 }]

def easel : Canvas := { desk := { names := tally } }

lemma halfWired_unused : halfWired.Unused tally 1 where
  distinct _ _ _ _ h := tally_injective h
  fresh n _ h := by
    have hnames : ∀ v, halfWired.NamesPort v → v ∈ [Value.text "b.o", .text "a.i"] := by
      simp only [Scene.NamesPort, halfWired, List.mem_cons, List.not_mem_nil, or_false,
        exists_eq_or_imp, exists_eq_left]
      grind
    have hfirst : (tally n).toList.head? = some 'i' := by simp [tally, List.replicate_succ]
    rcases List.mem_cons.mp (hnames _ h) with heq | heq
    · rw [Value.text.inj heq] at hfirst
      cases hfirst
    · rw [Value.text.inj (List.mem_singleton.mp heq)] at hfirst
      cases hfirst

/-- One port is added, once. -/
theorem halfWired_meaning : halfWiredProject.ScenesApart ∧ halfWired.Unused tally 1 ∧
    ∃ t q, (easel.load (some halfWiredProject) (some halfWired)).project = some q ∧
      (easel.load (some halfWiredProject) (some halfWired)).scene = some t ∧
      t.ports.length = 3 ∧ t.links = halfWired.links ∧ q.script = halfWiredProject.script ∧
      (easel.load (some q) (some t)).project = some q := by
  have hp : halfWiredProject.ScenesApart := ⟨by decide, by decide⟩
  obtain ⟨before, after, added, t, q, -, -, hproject, hscene, -, hlinks, hscript, hagain⟩ :=
    (load_keeps_meaning (c := easel) hp List.mem_cons_self halfWired_unused).2 rfl
  refine ⟨hp, halfWired_unused, t, q, hproject, hscene, ?_, hlinks, hscript,
    (hagain easel rfl rfl).1⟩
  obtain ⟨u, later, hu, -, hu', -⟩ := load_eq (c := easel) rfl (hp.findScene_eq List.mem_cons_self)
  obtain rfl : t = u := Option.some.inj (hscene.symm.trans hu')
  have hcount : (halfWired.completePorts tally (halfWired.seenSockets (.int 20)) 1).1.ports.length =
      3 := by decide +kernel
  rw [← hcount]
  exact congrArg (fun r : Scene × Nat => r.1.ports.length) hu.symm

end Half
end Canvas
end NovelGraph
