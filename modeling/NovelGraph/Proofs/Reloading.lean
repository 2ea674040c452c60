import NovelGraph.Proofs.Identity
import NovelGraph.Proofs.Outcome
import NovelGraph.Story.Document

/-! Projects that are saved and loaded again. Loading lists every port with the block that it names;
a project for which this has been done comes back from its document as it was. -/
namespace NovelGraph

open Outcome

section Updates

variable {α : Type} {test : α → Bool} {f : α → α} {items : List α} {R : α → α → Prop}

/-- A change that keeps the test is a change of what the test finds. -/
lemma find?_updateFirst (hf : ∀ a, test (f a) = test a) :
    (updateFirst test f items).find? test = (items.find? test).map f := by
  induction items with
  | nil => rfl
  | cons a rest ih =>
    cases ha : test a with
    | true => simp [updateFirst, ha, hf]
    | false => simp [updateFirst, ha, ih]

lemma updateFirst_eq_self (h : ∀ a, items.find? test = some a → f a = a) :
    updateFirst test f items = items := by
  induction items with
  | nil => rfl
  | cons a rest ih =>
    cases ha : test a with
    | true => simp [updateFirst, ha, h a (by simp [ha])]
    | false => simp [updateFirst, ha, ih fun b hb => h b (by simpa [ha] using hb)]

lemma forall₂_updateFirst (hrefl : ∀ a, R a a) (hf : ∀ a, R a (f a)) :
    List.Forall₂ R items (updateFirst test f items) := by
  induction items with
  | nil => exact .nil
  | cons a rest ih =>
    rw [updateFirst]
    split_ifs
    · exact .cons (hf a) (List.forall₂_same.mpr fun b _ => hrefl b)
    · exact .cons (hrefl a) ih

/-- What a test finds among changed items comes from what it found before. -/
lemma exists_find?_of_forall₂ {others : List α} (h : List.Forall₂ R items others)
    (htest : ∀ a b, R a b → test a = test b) {b : α} (hb : others.find? test = some b) :
    ∃ a, items.find? test = some a ∧ R a b := by
  induction h with
  | nil => cases hb
  | @cons a c as cs hac _ ih =>
    cases hc : test c with
    | true =>
      rw [List.find?_cons_of_pos hc] at hb
      obtain rfl := Option.some.inj hb
      exact ⟨a, List.find?_cons_of_pos ((htest a c hac).trans hc), hac⟩
    | false =>
      rw [List.find?_cons_of_neg (by simp [hc])] at hb
      obtain ⟨d, hd, hdb⟩ := ih hb
      refine ⟨d, ?_, hdb⟩
      rw [List.find?_cons_of_neg (by simp [htest a c hac, hc]), hd]

end Updates

/-- The same block with more ports listed behind those that it had. -/
structure Block.Extends (a b : Block) : Prop where
  rest : b = { a with portIds := b.portIds }
  ports : a.portIds <+: b.portIds

namespace Block.Extends

variable {a b c : Block}

lemma refl (a : Block) : a.Extends a := ⟨rfl, List.prefix_refl _⟩

lemma trans (hab : a.Extends b) (hbc : b.Extends c) : a.Extends c := by
  refine ⟨?_, hab.ports.trans hbc.ports⟩
  have h := hbc.rest
  rw [hab.rest] at h
  exact h

lemma id_eq (h : a.Extends b) : b.id = a.id := by rw [h.rest]

lemma addPortId (a : Block) (portId : Value) : a.Extends (a.addPortId portId) := by
  rw [Block.addPortId]
  split_ifs
  · exact refl a
  · exact ⟨rfl, List.prefix_append _ _⟩

end Block.Extends

lemma Block.memberOf_addPortId (b : Block) (portId : Value) :
    portId.memberOf (b.addPortId portId).portIds = true := by
  rw [addPortId]
  split_ifs with h
  · exact h
  · rw [Value.memberOf_append, Value.memberOf_singleton, Value.same_refl, Bool.or_true]

namespace Scene

section Attaching

variable {blocks others : List Block} {ports : List Port} {p : Port}

/-- The last block with an id. -/
def lastBlock? (blocks : List Block) (id : Value) : Option Block :=
  blocks.reverse.find? (id.same ·.id)

/-- A port is listed with the last block that it names. -/
def Listed (blocks : List Block) (p : Port) : Prop :=
  ∀ b, lastBlock? blocks p.nodeId = some b → p.id.memberOf b.portIds = true

/-- The blocks after a port has been listed. -/
def attachPort (blocks : List Block) (p : Port) : List Block :=
  updateLast (p.nodeId.same ·.id) (·.addPortId p.id) blocks

lemma attachPorts_cons (blocks : List Block) (p : Port) (ports : List Port) :
    attachPorts blocks (p :: ports) = attachPorts (attachPort blocks p) ports := rfl

lemma attachPort_extends (blocks : List Block) (p : Port) :
    List.Forall₂ Block.Extends blocks (attachPort blocks p) := by
  rw [attachPort, updateLast, ← List.forall₂_reverse_iff, List.reverse_reverse]
  exact forall₂_updateFirst Block.Extends.refl fun b => .addPortId b p.id

/-- Listing ports only ever adds to the lists of the blocks. -/
lemma attachPorts_extends (blocks : List Block) (ports : List Port) :
    List.Forall₂ Block.Extends blocks (attachPorts blocks ports) := by
  induction ports generalizing blocks with
  | nil => exact List.forall₂_same.mpr fun b _ => .refl b
  | cons p rest ih => exact forall₂_comp (fun _ _ _ => .trans) (attachPort_extends blocks p) (ih _)

lemma listed_attachPort (blocks : List Block) (p : Port) : Listed (attachPort blocks p) p := by
  intro b hb
  rw [lastBlock?, attachPort, updateLast, List.reverse_reverse, find?_updateFirst] at hb
  · obtain ⟨c, -, rfl⟩ := Option.map_eq_some_iff.mp hb
    exact c.memberOf_addPortId p.id
  · intro c
    rw [(Block.Extends.addPortId c p.id).id_eq]

lemma Listed.of_extends (h : Listed blocks p) (hext : List.Forall₂ Block.Extends blocks others) :
    Listed others p := by
  intro b hb
  obtain ⟨a, ha, hab⟩ := exists_find?_of_forall₂ (List.forall₂_reverse_iff.mpr hext)
    (fun a b hab => by rw [hab.id_eq]) hb
  exact Value.memberOf_of_prefix hab.ports (h a ha)

/-- After the ports have been gone through, each of them is listed. -/
theorem listed_attachPorts (blocks : List Block) (ports : List Port) :
    ∀ p ∈ ports, Listed (attachPorts blocks ports) p := by
  induction ports generalizing blocks with
  | nil => simp
  | cons p rest ih =>
    refine List.forall_mem_cons.mpr ⟨?_, ih _⟩
    exact (listed_attachPort blocks p).of_extends (attachPorts_extends _ rest)

/-- Ports that are listed are not listed again. -/
theorem attachPorts_eq_self (h : ∀ p ∈ ports, Listed blocks p) :
    attachPorts blocks ports = blocks := by
  induction ports with
  | nil => rfl
  | cons p rest ih =>
    have hp : attachPort blocks p = blocks := by
      rw [attachPort, updateLast, updateFirst_eq_self, List.reverse_reverse]
      intro b hb
      rw [Block.addPortId, if_pos (h p List.mem_cons_self b hb)]
    rw [attachPorts_cons, hp]
    exact ih fun q hq => h q (List.mem_cons_of_mem p hq)

/-- Where the block that a port is listed with stands. -/
lemma Listed.exists_last (h : Listed blocks p) (hb : ∃ b ∈ blocks, p.nodeId.same b.id = true) :
    ∃ before b after, blocks = before ++ b :: after ∧ p.nodeId.same b.id = true ∧
      (∀ c ∈ after, p.nodeId.same c.id = false) ∧ p.id.memberOf b.portIds = true := by
  have hsome : (blocks.reverse.find? (p.nodeId.same ·.id)).isSome = true := by
    rw [List.find?_isSome]
    simpa using hb
  obtain ⟨b, hlast⟩ := Option.isSome_iff_exists.mp hsome
  obtain ⟨hsame, after, before, hsplit, hafter⟩ := List.find?_eq_some_iff_append.mp hlast
  refine ⟨before.reverse, b, after.reverse, ?_, hsame, ?_, h b hlast⟩
  · rw [← List.reverse_reverse blocks, hsplit]
    simp
  · simpa using hafter

end Attaching

/-- Blocks and the blocks that ports name have ids by which they can be looked up. -/
structure Keyed (s : Scene) : Prop where
  blocks : ∀ b ∈ s.blocks, b.id.isKey = true
  ports : ∀ p ∈ s.ports, p.nodeId.isKey = true

end Scene

namespace Value

/-- The items under a key of a document, none if the key is missing. -/
def itemsAt (v : Value) (key : String) : Except Fault (List Value) := do
  (← v.fieldOr key (.list [])).iterate

@[simp] lemma fieldOr_object (ms : List (String × Value)) (key : String) (default : Value) :
    (Value.object ms).fieldOr key default = .ok ((lookup ms key).getD default) := rfl

end Value

/-- A block without its tag, which is not saved. -/
def Block.untagged (b : Block) : Block := { b with tag := 0 }

lemma Block.ofValue_toValue (b : Block) : Block.ofValue b.toValue = .ok b.untagged := by
  simp [ofValue, toValue, untagged, Value.field, Value.lookup_cons, Value.choice, Value.iterate,
    ok_bind]

lemma Block.ofValue_eq_ok {v : Value} {b : Block} (h : Block.ofValue v = .ok b) :
    v.itemsAt "port_ids" = .ok b.portIds ∧ b.untagged = b := by
  simp only [ofValue] at h
  obtain ⟨id, -, h⟩ := bind_eq_ok.mp h
  obtain ⟨name, -, h⟩ := bind_eq_ok.mp h
  obtain ⟨kind, -, h⟩ := bind_eq_ok.mp h
  obtain ⟨params, -, h⟩ := bind_eq_ok.mp h
  obtain ⟨x, -, h⟩ := bind_eq_ok.mp h
  obtain ⟨y, -, h⟩ := bind_eq_ok.mp h
  obtain ⟨idsValue, hvalue, h⟩ := bind_eq_ok.mp h
  obtain ⟨ids, hids, h⟩ := bind_eq_ok.mp h
  obtain rfl := pure_eq_ok.mp h
  refine ⟨?_, rfl⟩
  rw [Value.itemsAt, hvalue, ok_bind, hids]

lemma Port.ofValue_toValue (p : Port) : Port.ofValue p.toValue = .ok p := by
  simp [ofValue, toValue, Value.field, Value.lookup_cons, Value.choice, ok_bind]

lemma Connection.ofValue_toValue (c : Connection) : Connection.ofValue c.toValue = .ok c := by
  simp [ofValue, toValue, Value.field, Value.lookup_cons, ok_bind]

namespace Scene

variable {s : Scene} {v : Value}

/-- A scene as it comes back from its document. -/
def reloaded (s : Scene) : Scene :=
  { s with blocks := attachPorts (s.blocks.map Block.untagged) s.ports, tag := 0 }

theorem ofValue_toValue (hs : s.Keyed) : ofValue s.toValue = .ok s.reloaded := by
  have hblocks : (s.blocks.map Block.untagged).forM (·.id.requireKey) = .ok () := by
    refine forM_ok fun b hb => ?_
    obtain ⟨c, hc, rfl⟩ := List.mem_map.mp hb
    exact Value.requireKey_eq_ok.mpr (hs.blocks c hc)
  have hports : s.ports.forM (·.nodeId.requireKey) = .ok () :=
    forM_ok fun p hp => Value.requireKey_eq_ok.mpr (hs.ports p hp)
  have hread : ofValue s.toValue = (do
      (s.blocks.map Block.untagged).forM (·.id.requireKey)
      s.ports.forM (·.nodeId.requireKey)
      pure s.reloaded) := by
    simp only [ofValue, toValue, Value.fieldOr_object, Value.field, Value.lookup_cons,
      String.reduceEq, if_true, if_false, Option.getD_some, ok_bind, Value.iterate,
      mapM_map_ok fun b _ => Block.ofValue_toValue b, mapM_map_ok fun p _ => Port.ofValue_toValue p,
      mapM_map_ok fun c _ => Connection.ofValue_toValue c, List.map_id']
    rfl
  rw [hread, hblocks, ok_bind, hports, ok_bind]
  rfl

/-- What is known of a scene that was loaded: its blocks are those of the document, with the ports
of the scene listed. -/
structure LoadedFrom (v : Value) (loaded : List Block) (s : Scene) : Prop where
  blocks : ∃ items, v.itemsAt "blocks" = .ok items ∧ items.mapM Block.ofValue = .ok loaded
  keys : ∀ b ∈ loaded, b.id.isKey = true
  owners : ∀ p ∈ s.ports, p.nodeId.isKey = true
  attached : s.blocks = attachPorts loaded s.ports
  untagged : s.tag = 0

theorem ofValue_eq_ok (h : ofValue v = .ok s) : ∃ loaded, s.LoadedFrom v loaded := by
  simp only [ofValue] at h
  obtain ⟨blocksValue, hblocksValue, h⟩ := bind_eq_ok.mp h
  obtain ⟨blockItems, hblockItems, h⟩ := bind_eq_ok.mp h
  obtain ⟨loaded, hloaded, h⟩ := bind_eq_ok.mp h
  obtain ⟨portsValue, -, h⟩ := bind_eq_ok.mp h
  obtain ⟨portItems, -, h⟩ := bind_eq_ok.mp h
  obtain ⟨ports, -, h⟩ := bind_eq_ok.mp h
  obtain ⟨connectionsValue, -, h⟩ := bind_eq_ok.mp h
  obtain ⟨connectionItems, -, h⟩ := bind_eq_ok.mp h
  obtain ⟨connections, -, h⟩ := bind_eq_ok.mp h
  obtain ⟨_, hkeys, h⟩ := bind_eq_ok.mp h
  obtain ⟨_, howners, h⟩ := bind_eq_ok.mp h
  obtain ⟨id, -, h⟩ := bind_eq_ok.mp h
  obtain ⟨name, -, h⟩ := bind_eq_ok.mp h
  obtain ⟨label, -, h⟩ := bind_eq_ok.mp h
  obtain rfl := pure_eq_ok.mp h
  refine ⟨loaded, ⟨blockItems, ?_, hloaded⟩, ?_, ?_, rfl, rfl⟩
  · rw [Value.itemsAt, hblocksValue, ok_bind, hblockItems]
  · exact fun b hb => Value.requireKey_eq_ok.mp (forM_eq_ok hkeys b hb)
  · exact fun p hp => Value.requireKey_eq_ok.mp (forM_eq_ok howners p hp)

namespace LoadedFrom

variable {loaded : List Block}

lemma listed (h : s.LoadedFrom v loaded) : ∀ p ∈ s.ports, Listed s.blocks p := by
  rw [h.attached]
  exact listed_attachPorts loaded s.ports

lemma extended (h : s.LoadedFrom v loaded) : List.Forall₂ Block.Extends loaded s.blocks := by
  rw [h.attached]
  exact attachPorts_extends loaded s.ports

lemma keyed (h : s.LoadedFrom v loaded) : s.Keyed := by
  refine ⟨fun b hb => ?_, h.owners⟩
  obtain ⟨a, ha, hab⟩ := exists_left_of_forall₂ h.extended hb
  rw [hab.id_eq]
  exact h.keys a ha

/-- A scene that was loaded is not changed when it is loaded again. -/
theorem reloaded_eq (h : s.LoadedFrom v loaded) : s.reloaded = s := by
  have huntagged : ∀ b ∈ s.blocks, b.untagged = b := by
    intro b hb
    obtain ⟨a, ha, hab⟩ := exists_left_of_forall₂ h.extended hb
    obtain ⟨items, -, hitems⟩ := h.blocks
    obtain ⟨item, -, hitem⟩ := (mem_of_mapM_eq_ok hitems).mp ha
    have htag : a.tag = 0 := congrArg Block.tag (Block.ofValue_eq_ok hitem).2.symm
    rw [hab.rest, Block.untagged, ← htag]
  have hblocks : s.blocks.map Block.untagged = s.blocks := 
    (List.map_congr_left huntagged).trans (List.map_id' _)
  rw [reloaded, hblocks, attachPorts_eq_self h.listed, ← h.untagged]

end LoadedFrom

end Scene

namespace Project

variable {v : Value} {p : Project}

/-- A project as it comes back from its document. -/
def reloaded (p : Project) : Project :=
  { name := p.name, scenes := p.scenes.map Scene.reloaded, globals := p.globals }

theorem ofValue_toValue (hp : ∀ s ∈ p.scenes, s.Keyed) : ofValue p.toValue = .ok p.reloaded := by
  have hscenes : (p.scenes.map Scene.toValue).mapM Scene.ofValue =
      .ok (p.scenes.map Scene.reloaded) :=
    mapM_map_ok fun s hs => Scene.ofValue_toValue (hp s hs)
  simp only [ofValue, toValue, Value.fieldOr_object, Value.lookup_cons, String.reduceEq, if_true,
    if_false, Option.getD_some, ok_bind, Value.iterate, hscenes]
  rfl

theorem ofValue_eq_ok (h : ofValue v = .ok p) :
    (∃ items, v.itemsAt "scenes" = .ok items ∧
      List.Forall₂ (fun item s => Scene.ofValue item = .ok s) items p.scenes) ∧
      p = { name := p.name, scenes := p.scenes, globals := p.globals } := by
  simp only [ofValue] at h
  obtain ⟨scenesValue, hvalue, h⟩ := bind_eq_ok.mp h
  obtain ⟨items, hitems, h⟩ := bind_eq_ok.mp h
  obtain ⟨scenes, hscenes, h⟩ := bind_eq_ok.mp h
  obtain ⟨name, -, h⟩ := bind_eq_ok.mp h
  obtain ⟨globals, -, h⟩ := bind_eq_ok.mp h
  obtain rfl := pure_eq_ok.mp h
  refine ⟨⟨items, ?_, mapM_eq_ok hscenes⟩, rfl⟩
  rw [Value.itemsAt, hvalue, ok_bind, hitems]

lemma exists_loadedFrom (h : ofValue v = .ok p) {s : Scene} (hs : s ∈ p.scenes) :
    ∃ item loaded, s.LoadedFrom item loaded := by
  obtain ⟨⟨items, -, hitems⟩, -⟩ := ofValue_eq_ok h
  obtain ⟨item, -, hitem⟩ := exists_left_of_forall₂ hitems hs
  exact ⟨item, Scene.ofValue_eq_ok hitem⟩

/-- How the ports of a loaded block begin with those of its document. -/
def BlockLoaded (item : Value) (b : Block) : Prop :=
  ∃ ids, item.itemsAt "port_ids" = .ok ids ∧ ids <+: b.portIds

def SceneLoaded (item : Value) (s : Scene) : Prop :=
  ∃ items, item.itemsAt "blocks" = .ok items ∧ List.Forall₂ BlockLoaded items s.blocks

/-- Loading settles a project: saved and loaded again, it is the same project in all its parts. The
ports that its document lists with a block still come first there, and every port of a scene is
listed with the last block that has the id it names. -/
theorem loaded_settled (h : ofValue v = .ok p) :
    ofValue p.toValue = .ok p ∧
      (∃ items, v.itemsAt "scenes" = .ok items ∧ List.Forall₂ SceneLoaded items p.scenes) ∧
      ∀ s ∈ p.scenes, ∀ q ∈ s.ports, (∃ b ∈ s.blocks, q.nodeId.same b.id = true) →
        ∃ before b after, s.blocks = before ++ b :: after ∧ q.nodeId.same b.id = true ∧
          (∀ c ∈ after, q.nodeId.same c.id = false) ∧ q.id.memberOf b.portIds = true := by
  have hloaded : ∀ s ∈ p.scenes, ∃ item loaded, s.LoadedFrom item loaded :=
    fun s hs => exists_loadedFrom h hs
  obtain ⟨⟨items, hvalue, hitems⟩, hrest⟩ := ofValue_eq_ok h
  refine ⟨?_, ⟨items, hvalue, hitems.imp ?_⟩, ?_⟩
  · have hscenes : p.scenes.map Scene.reloaded = p.scenes := by
      refine (List.map_congr_left fun s hs => ?_).trans (List.map_id' _)
      obtain ⟨_, _, hs⟩ := hloaded s hs
      exact hs.reloaded_eq
    rw [ofValue_toValue, reloaded, hscenes, ← hrest]
    intro s hs
    obtain ⟨_, _, hs⟩ := hloaded s hs
    exact hs.keyed
  · intro item s hs
    obtain ⟨loaded, hs⟩ := Scene.ofValue_eq_ok hs
    obtain ⟨blockItems, hblocks, hmap⟩ := hs.blocks
    refine ⟨blockItems, hblocks, forall₂_comp ?_ (mapM_eq_ok hmap) hs.extended⟩
    exact fun _ _ _ hitem hext => ⟨_, (Block.ofValue_eq_ok hitem).1, hext.ports⟩
  · intro s hs q hq hb
    obtain ⟨_, _, hs⟩ := hloaded s hs
    exact (hs.listed q hq).exists_last hb

/-- A document with two blocks of one id, a text for a list of ports, and a port that no block
lists. -/
def sketch : Value :=
  .object [("scenes", .list [.object
    [("id", .text "s"),
      ("blocks", .list
        [.object [("id", .int 1), ("type", .text "SAY"), ("port_ids", .text "pq")],
          .object [("id", .bool true), ("type", .text "START"), ("y", .null)]]),
      ("ports", .list
        [.object [("id", .text "r"), ("node_id", .int 1), ("direction", .text "INPUT")]])]])]

def sketchProject : Project where
  name := .text "Unnamed"
  scenes :=
    [{ id := .text "s", name := .text "", label := .text ""
       blocks :=
        [{ id := .int 1, kind := .say, portIds := [.text "p", .text "q"] },
          { id := .bool true, kind := .start, y := .null, portIds := [.text "r"] }]
       ports := [{ id := .text "r", nodeId := .int 1, name := .text "", direction := .input }] }]

theorem sketch_settled :
    ofValue sketch = .ok sketchProject ∧ ofValue sketchProject.toValue = .ok sketchProject ∧
      ∀ s ∈ sketchProject.scenes, ∃ before b after, s.blocks = before ++ b :: after ∧
        (Value.text "r").memberOf b.portIds = true := by
  have h : ofValue sketch = .ok sketchProject := eq_ok_of_toOption (by decide +kernel)
  obtain ⟨hagain, -, hlisted⟩ := loaded_settled h
  refine ⟨h, hagain, ?_⟩
  intro s hs
  obtain rfl := List.mem_singleton.mp hs
  obtain ⟨before, b, after, hsplit, -, -, hmem⟩ := hlisted _ hs _ List.mem_cons_self
    ⟨_, List.mem_cons_self, by decide +kernel⟩
  exact ⟨before, b, after, hsplit, hmem⟩

end Project
end NovelGraph
