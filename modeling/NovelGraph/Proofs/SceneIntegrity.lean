import Mathlib.Data.List.Nodup
import NovelGraph.Editor.Canvas
import NovelGraph.Proofs.Identity
import NovelGraph.Proofs.Outcome
import NovelGraph.Story.Edit

/-! Scenes whose parts fit together: the ids of blocks and ports were each given out once, every
port stands for a socket of its block and is listed there, and wires lead from outputs to inputs.
Making blocks, ports and connections keeps this, and so does removing them. -/
namespace NovelGraph

/-- An id that has been given out, of a supply of which the next one is known. -/
def Issued (names : Nat → String) (next : Nat) (v : Value) : Prop := ∃ k < next, v = .text (names k)

namespace Issued

variable {names : Nat → String} {next : Nat} {v w : Value}

lemma mono {later : Nat} (h : Issued names next v) (hle : next ≤ later) : Issued names later v := by
  obtain ⟨k, hk, rfl⟩ := h
  exact ⟨k, by omega, rfl⟩

lemma succ (names : Nat → String) (next : Nat) : Issued names (next + 1) (.text (names next)) :=
  ⟨next, by omega, rfl⟩

lemma ne_next (hn : Function.Injective names) (h : Issued names next v) :
    v ≠ .text (names next) := by
  obtain ⟨k, hk, rfl⟩ := h
  intro heq
  have := hn (Value.text.inj heq)
  omega

lemma equals_iff (h : Issued names next w) : v.equals w = true ↔ v = w := by
  obtain ⟨k, -, rfl⟩ := h
  exact Value.equals_text_right v _

lemma isKey (h : Issued names next v) : v.isKey = true := by
  obtain ⟨k, -, rfl⟩ := h
  rfl

lemma memberOf_iff (h : Issued names next v) {vs : List Value} : v.memberOf vs = true ↔ v ∈ vs := by
  obtain ⟨k, -, rfl⟩ := h
  exact Value.memberOf_text

end Issued

/-- A port stands for a socket of a block. -/
def Port.SitsOn (p : Port) (b : Block) : Prop :=
  p.nodeId = b.id ∧
    ∃ k ∈ b.kind.sockets, p.name = .text k.name ∧ p.direction = .ofSide k.isOutput

/-- What no two ports share. -/
def Port.seat (p : Port) : Value × Value × Direction := (p.nodeId, p.name, p.direction)

namespace Scene

/-- A scene whose parts fit together, with ids from a supply. -/
structure Sound (names : Nat → String) (next : Nat) (s : Scene) : Prop where
  blockIds : (s.blocks.map (·.id)).Nodup
  issuedBlocks : ∀ b ∈ s.blocks, Issued names next b.id
  portIds : (s.ports.map (·.id)).Nodup
  issuedPorts : ∀ p ∈ s.ports, Issued names next p.id
  seated : ∀ p ∈ s.ports, ∃ b ∈ s.blocks, p.SitsOn b
  seats : (s.ports.map Port.seat).Nodup
  listed : ∀ b ∈ s.blocks, b.portIds = (s.ports.filter (·.nodeId = b.id)).map (·.id)
  wired : ∀ c ∈ s.connections, (∃ p ∈ s.ports, p.id = c.fromPort ∧ p.direction = .output) ∧
    ∃ p ∈ s.ports, p.id = c.toPort ∧ p.direction = .input

/-- A scene that has grown: new ports were made and listed with their blocks. -/
structure Grown (s t : Scene) : Prop where
  tag : t.tag = s.tag
  blocks : List.Forall₂ (fun b c => c = { b with portIds := c.portIds }) s.blocks t.blocks
  ports : s.ports <+: t.ports
  connections : t.connections = s.connections

variable {names : Nat → String} {next : Nat} {s t : Scene} {b : Block} {p : Port}

namespace Sound

lemma mono {later : Nat} (hs : s.Sound names next) (hle : next ≤ later) : s.Sound names later :=
  { hs with
    issuedBlocks := fun b hb => (hs.issuedBlocks b hb).mono hle
    issuedPorts := fun p hp => (hs.issuedPorts p hp).mono hle }

lemma issued_nodeId (hs : s.Sound names next) (hp : p ∈ s.ports) : Issued names next p.nodeId := by
  obtain ⟨b, hb, hseat⟩ := hs.seated p hp
  exact hseat.1 ▸ hs.issuedBlocks b hb

lemma eq_of_id_eq (hs : s.Sound names next) {c : Block} (hb : b ∈ s.blocks) (hc : c ∈ s.blocks)
    (h : b.id = c.id) : b = c :=
  List.inj_on_of_nodup_map hs.blockIds hb hc h

/-- A scene without anything fits together. -/
lemma empty (hblocks : s.blocks = []) (hports : s.ports = []) (hconnections : s.connections = []) :
    s.Sound names next := by
  constructor <;> simp [hblocks, hports, hconnections]

/-- A new block has no ports yet. -/
lemma addBlock (hn : Function.Injective names) (hs : s.Sound names next)
    (hid : b.id = .text (names next)) (hports : b.portIds = []) :
    (s.addBlock b).Sound names (next + 1) := by
  have hlater := hs.mono (Nat.le_succ next)
  have hnew : ∀ v, Issued names next v → v ≠ b.id := fun v hv => hid ▸ hv.ne_next hn
  constructor
  · rw [Scene.addBlock, List.map_append, List.nodup_append]
    refine ⟨hs.blockIds, by simp, ?_⟩
    simpa using fun c hc => hnew c.id (hs.issuedBlocks c hc)
  · refine List.forall_mem_append.mpr ⟨hlater.issuedBlocks, ?_⟩
    simpa [hid] using Issued.succ names next
  · exact hs.portIds
  · exact hlater.issuedPorts
  · intro p hp
    obtain ⟨c, hc, hseat⟩ := hs.seated p hp
    exact ⟨c, List.mem_append_left _ hc, hseat⟩
  · exact hs.seats
  · refine List.forall_mem_append.mpr ⟨hs.listed, List.forall_mem_singleton.mpr ?_⟩
    have hnone : s.ports.filter (·.nodeId = b.id) = [] := by
      rw [List.filter_eq_nil_iff]
      intro p hp
      simpa using hnew p.nodeId (hs.issued_nodeId hp)
    rw [hports, Scene.addBlock, hnone]
    rfl
  · exact hs.wired

end Sound

section Ports

/-- The change of the first of some items is that of the only one with a key. -/
lemma updateFirst_eq_map {α : Type} {test : α → Bool} {f : α → α} {key : α → Value} {v : Value}
    {items : List α} (hkeys : (items.map key).Nodup) (htest : ∀ a, test a = true ↔ key a = v) :
    updateFirst test f items = items.map fun a => if key a = v then f a else a := by
  induction items with
  | nil => rfl
  | cons a rest ih =>
    obtain ⟨ha, hrest⟩ := List.nodup_cons.mp hkeys
    rw [updateFirst, List.map_cons]
    by_cases hav : key a = v
    · rw [if_pos ((htest a).mpr hav), if_pos hav]
      congr 1
      refine ((List.map_congr_left fun c hc => if_neg fun hcv => ha ?_).trans (List.map_id' _)).symm
      exact hav ▸ hcv ▸ List.mem_map_of_mem hc
    · rw [if_neg (mt (htest a).mp hav), if_neg hav, ih hrest]

lemma addPort_blocks (hn : Function.Injective names) (hs : s.Sound names next)
    (hnode : Issued names next p.nodeId) (hid : p.id = .text (names next)) :
    (s.addPort p).blocks = s.blocks.map fun c =>
      { c with portIds := c.portIds ++ if c.id = p.nodeId then [p.id] else [] } := by
  rw [addPort, updateFirst_eq_map hs.blockIds fun c => hnode.equals_iff]
  refine List.map_congr_left fun c hc => ?_
  split_ifs
  · have hfresh : p.id ∉ c.portIds := by
      rw [hs.listed c hc, List.mem_map]
      rintro ⟨q, hq, hqp⟩
      exact (hs.issuedPorts q (List.mem_of_mem_filter hq)).ne_next hn (hqp.trans hid)
    rw [Block.addPortId, if_neg]
    rw [hid] at hfresh ⊢
    exact fun hmem => hfresh (Value.memberOf_text.mp hmem)
  · rw [List.append_nil]

/-- A port for a socket that has none yet. -/
theorem Sound.addPort (hn : Function.Injective names) (hs : s.Sound names next) (hb : b ∈ s.blocks)
    (hp : p.SitsOn b) (hid : p.id = .text (names next)) (hseat : p.seat ∉ s.ports.map Port.seat) :
    (s.addPort p).Sound names (next + 1) := by
  have hlater := hs.mono (Nat.le_succ next)
  have hblocks := addPort_blocks hn hs (hp.1 ▸ hs.issuedBlocks b hb) hid
  constructor
  · rw [hblocks, List.map_map]
    exact hs.blockIds
  · rw [hblocks, List.forall_mem_map]
    exact hlater.issuedBlocks
  · rw [Scene.addPort, List.map_append, List.nodup_append]
    refine ⟨hs.portIds, by simp, ?_⟩
    simpa [hid] using fun q hq => (hs.issuedPorts q hq).ne_next hn
  · refine List.forall_mem_append.mpr ⟨hlater.issuedPorts, ?_⟩
    simpa [hid] using Issued.succ names next
  · rw [hblocks]
    refine List.forall_mem_append.mpr ⟨fun q hq => ?_, ?_⟩
    · obtain ⟨c, hc, hq⟩ := hs.seated q hq
      exact ⟨_, List.mem_map_of_mem hc, hq⟩
    · simpa using ⟨b, hb, hp⟩
  · rw [Scene.addPort, List.map_append, List.nodup_append]
    refine ⟨hs.seats, by simp, ?_⟩
    rintro x hx y hy rfl
    exact hseat (List.mem_singleton.mp hy ▸ hx)
  · rw [hblocks, List.forall_mem_map]
    intro c hc
    rw [Scene.addPort, List.filter_append, List.map_append, ← hs.listed c hc]
    by_cases hnode : c.id = p.nodeId <;> simp [hnode, eq_comm]
  · intro c hc
    obtain ⟨⟨q, hq, hfrom⟩, r, hr, hto⟩ := hs.wired c hc
    exact ⟨⟨q, List.mem_append_left _ hq, hfrom⟩, r, List.mem_append_left _ hr, hto⟩

lemma Grown.refl (s : Scene) : s.Grown s :=
  ⟨rfl, List.forall₂_same.mpr fun _ _ => rfl, List.prefix_refl _, rfl⟩

lemma Grown.trans {u : Scene} (h : s.Grown t) (g : t.Grown u) : s.Grown u := by
  refine ⟨g.tag.trans h.tag, ?_, h.ports.trans g.ports, g.connections.trans h.connections⟩
  refine Outcome.forall₂_comp ?_ h.blocks g.blocks
  intro b c d hbc hcd
  rw [hbc] at hcd
  exact hcd

/-- What a block has besides its ports stays. -/
lemma Grown.exists_block (h : s.Grown t) (hb : b ∈ s.blocks) :
    ∃ c ∈ t.blocks, c.id = b.id ∧ c.kind = b.kind ∧ c.tag = b.tag := by
  have hblocks := h.blocks
  generalize s.blocks = bs at hblocks hb
  generalize t.blocks = cs at hblocks
  induction hblocks with
  | nil => cases hb
  | @cons a c as cs hac _ ih =>
    rcases List.mem_cons.mp hb with rfl | hb
    · exact ⟨c, List.mem_cons_self, by rw [hac], by rw [hac], by rw [hac]⟩
    · obtain ⟨d, hd, heq⟩ := ih hb
      exact ⟨d, List.mem_cons_of_mem c hd, heq⟩

lemma grown_addPort (hn : Function.Injective names) (hs : s.Sound names next)
    (hnode : Issued names next p.nodeId) (hid : p.id = .text (names next)) :
    s.Grown (s.addPort p) := by
  refine ⟨rfl, ?_, List.prefix_append _ _, rfl⟩
  rw [addPort_blocks hn hs hnode hid, List.forall₂_map_right_iff]
  exact List.forall₂_same.mpr fun _ _ => rfl

/-- After a port has been asked for, the scene has it. -/
theorem Sound.ensurePort (hn : Function.Injective names) (hs : s.Sound names next)
    (hb : b ∈ s.blocks) {k : Socket} (hk : k ∈ b.kind.sockets) {id : Value} {later : Nat}
    (h : s.ensurePort names b.id k.name (.ofSide k.isOutput) next = (id, t, later)) :
    t.Sound names later ∧ s.Grown t ∧ next ≤ later ∧ (later = next → t = s) ∧
      ∃ p ∈ t.ports, p.id = id ∧ p.seat = (b.id, .text k.name, .ofSide k.isOutput) := by
  have hnode := hs.issuedBlocks b hb
  have hfits : ∀ p : Port, (p.nodeId.equals b.id && p.name.equals (.text k.name) &&
      p.direction == .ofSide k.isOutput) = true ↔
      p.nodeId = b.id ∧ p.name = .text k.name ∧ p.direction = .ofSide k.isOutput := by
    intro p
    rw [Bool.and_eq_true, Bool.and_eq_true, hnode.equals_iff, Value.equals_text_right, beq_iff_eq,
      and_assoc]
  rw [Scene.ensurePort] at h
  split at h
  · rename_i p hfind
    rw [portFor?] at hfind
    obtain ⟨rfl, rfl, rfl⟩ : p.id = id ∧ s = t ∧ next = later := by simpa using h
    have hfound := List.find?_some hfind
    obtain ⟨hid, hname, hside⟩ := (hfits p).mp hfound
    exact ⟨hs, .refl s, Nat.le_refl _, fun _ => rfl, p, List.mem_of_find?_eq_some hfind, rfl,
      by rw [Port.seat, hid, hname, hside]⟩
  · rename_i hfind
    obtain ⟨rfl, rfl, rfl⟩ : .text (names next) = id ∧ s.addPort
        { id := .text (names next), nodeId := b.id, name := .text k.name
          direction := .ofSide k.isOutput } = t ∧ next + 1 = later := by simpa using h
    refine ⟨hs.addPort hn hb ⟨rfl, k, hk, rfl, rfl⟩ rfl ?_, grown_addPort hn hs hnode rfl, by omega,
      by omega, _, List.mem_append_right _ (List.mem_singleton_self _), rfl, rfl⟩
    rw [List.mem_map]
    rintro ⟨q, hq, hseat⟩
    have hnone := List.find?_eq_none.mp hfind q hq
    rw [hfits] at hnone
    simp only [Port.seat, Prod.mk.injEq] at hseat
    exact hnone hseat

/-- Sockets of blocks of the scene. -/
def SocketsOf (s : Scene) (sockets : List (Value × String × Direction)) : Prop :=
  ∀ x ∈ sockets, ∃ b ∈ s.blocks, ∃ k ∈ b.kind.sockets, x = (b.id, k.name, .ofSide k.isOutput)

theorem Sound.completePorts (hn : Function.Injective names)
    {sockets : List (Value × String × Direction)} (hs : s.Sound names next)
    (hsockets : s.SocketsOf sockets) {later : Nat}
    (h : s.completePorts names sockets next = (t, later)) :
    t.Sound names later ∧ s.Grown t ∧ next ≤ later := by
  induction sockets generalizing s next with
  | nil =>
    obtain ⟨rfl, rfl⟩ := Prod.mk.inj h
    exact ⟨hs, .refl s, Nat.le_refl _⟩
  | cons x rest ih =>
    obtain ⟨⟨b, hb, k, hk, rfl⟩, hrest⟩ := List.forall_mem_cons.mp hsockets
    obtain ⟨⟨id, u, middle⟩, hu⟩ :
        ∃ r, s.ensurePort names b.id k.name (.ofSide k.isOutput) next = r := ⟨_, rfl⟩
    rw [Scene.completePorts, hu] at h
    obtain ⟨husound, hgrown, hle, -, -⟩ := hs.ensurePort hn hb hk hu
    have hsockets : u.SocketsOf rest := by
      intro x hx
      obtain ⟨c, hc, l, hl, rfl⟩ := hrest x hx
      obtain ⟨d, hd, hid, hkind, -⟩ := hgrown.exists_block hc
      exact ⟨d, hd, l, hkind ▸ hl, by rw [hid]⟩
    obtain ⟨htsound, hgrown', hle'⟩ := ih husound hsockets h
    exact ⟨htsound, hgrown.trans hgrown', Nat.le_trans hle hle'⟩

end Ports

section Removal

lemma Sound.removeConnection (hs : s.Sound names next) (id : Value) :
    (s.removeConnection id).Sound names next :=
  { hs with wired := fun c hc => hs.wired c (List.mem_of_mem_filter hc) }

lemma Sound.addConnection (hs : s.Sound names next) {c : Connection}
    (hfrom : ∃ p ∈ s.ports, p.id = c.fromPort ∧ p.direction = .output)
    (hto : ∃ p ∈ s.ports, p.id = c.toPort ∧ p.direction = .input) :
    (s.addConnection c).Sound names next :=
  have hone : ∀ d ∈ [c], (∃ p ∈ s.ports, p.id = d.fromPort ∧ p.direction = .output) ∧
      ∃ p ∈ s.ports, p.id = d.toPort ∧ p.direction = .input :=
    List.forall_mem_singleton.mpr ⟨hfrom, hto⟩
  { hs with wired := List.forall_mem_append.mpr ⟨hs.wired, hone⟩ }

lemma Sound.issued_ends (hs : s.Sound names next) {c : Connection} (hc : c ∈ s.connections) :
    Issued names next c.fromPort ∧ Issued names next c.toPort := by
  obtain ⟨⟨p, hp, hfrom, -⟩, q, hq, hto, -⟩ := hs.wired c hc
  exact ⟨hfrom ▸ hs.issuedPorts p hp, hto ▸ hs.issuedPorts q hq⟩

/-- Where all ids can be looked up, nothing stops the removal of a block. -/
lemma tryRemoveBlock_eq (hports : ∀ p ∈ s.ports, p.id.isKey = true)
    (hends : ∀ c ∈ s.connections, c.fromPort.isKey = true ∧ c.toPort.isKey = true) (id : Value) :
    s.tryRemoveBlock id = (s.removeBlock id, none) := by
  have hown : (s.portsOf id).find? (!·.id.isKey) = none := by
    rw [List.find?_eq_none]
    intro p hp
    simp [hports p (List.mem_of_mem_filter hp)]
  have hfit : ∀ (removed : List Value) (connections : List Connection),
      connections ⊆ s.connections → unfitEnd? removed connections = none := by
    intro removed connections hsub
    induction connections with
    | nil => rfl
    | cons c rest ih =>
      obtain ⟨hc, hrest⟩ := List.cons_subset.mp hsub
      simp [unfitEnd?, hends c hc, ih hrest]
  simp only [tryRemoveBlock, hown, hfit _ _ (List.Subset.refl _)]

lemma Sound.tryRemoveBlock_eq (hs : s.Sound names next) (id : Value) :
    s.tryRemoveBlock id = (s.removeBlock id, none) :=
  Scene.tryRemoveBlock_eq (fun p hp => (hs.issuedPorts p hp).isKey)
    (fun _ hc => ⟨(hs.issued_ends hc).1.isKey, (hs.issued_ends hc).2.isKey⟩) id

theorem Sound.removeBlock (hs : s.Sound names next) {id : Value} (hid : Issued names next id) :
    (s.removeBlock id).Sound names next := by
  have hblocks : ∀ b ∈ (s.removeBlock id).blocks, b ∈ s.blocks ∧ b.id ≠ id := by
    intro b hb
    obtain ⟨hb, hne⟩ := List.mem_filter.mp hb
    exact ⟨hb, fun heq => by simp [hid.equals_iff.mpr heq] at hne⟩
  have hports : ∀ p, p ∈ (s.removeBlock id).ports ↔ p ∈ s.ports ∧ p.nodeId ≠ id := by
    intro p
    rw [Scene.removeBlock, List.mem_filter, ne_eq, ← hid.equals_iff]
    simp
  have hkept : ∀ p ∈ s.ports, p.id.memberOf ((s.portsOf id).map (·.id)) = false →
      p ∈ (s.removeBlock id).ports := by
    intro p hp hnot
    refine (hports p).mpr ⟨hp, fun heq => ?_⟩
    have hin : p.id ∈ (s.portsOf id).map (·.id) :=
      List.mem_map_of_mem (List.mem_filter.mpr ⟨hp, hid.equals_iff.mpr heq⟩)
    rw [← (hs.issuedPorts p hp).memberOf_iff, hnot] at hin
    cases hin
  constructor
  · exact (List.filter_sublist.map _).nodup hs.blockIds
  · exact fun b hb => hs.issuedBlocks b (hblocks b hb).1
  · exact (List.filter_sublist.map _).nodup hs.portIds
  · exact fun p hp => hs.issuedPorts p ((hports p).mp hp).1
  · intro p hp
    obtain ⟨hp, hne⟩ := (hports p).mp hp
    obtain ⟨b, hb, hseat⟩ := hs.seated p hp
    refine ⟨b, List.mem_filter.mpr ⟨hb, ?_⟩, hseat⟩
    simpa using fun heq => hne (hseat.1.trans (hid.equals_iff.mp heq))
  · exact (List.filter_sublist.map _).nodup hs.seats
  · intro b hb
    obtain ⟨hb, hne⟩ := hblocks b hb
    rw [hs.listed b hb, Scene.removeBlock, List.filter_filter]
    congr 1
    refine List.filter_congr fun p hp => ?_
    by_cases hnode : p.nodeId = b.id
    · have hother : p.nodeId.equals id = false := by
        rw [Bool.eq_false_iff, ne_eq, hid.equals_iff, hnode]
        exact hne
      simp [hother]
    · simp [hnode]
  · intro c hc
    obtain ⟨hc, hends⟩ := List.mem_filter.mp hc
    rw [Bool.and_eq_true, Bool.not_eq_true', Bool.not_eq_true'] at hends
    obtain ⟨⟨p, hp, hfrom, hout⟩, q, hq, hto, hin⟩ := hs.wired c hc
    exact ⟨⟨p, hkept p hp (hfrom ▸ hends.1), hfrom, hout⟩, q, hkept q hq (hto ▸ hends.2), hto, hin⟩

end Removal

/-- A scene in order: connections lead from outputs to inputs that are there, each port belongs to a
block, has its place there to itself and is listed there once, and nothing leads into a start. -/
structure Intact (s : Scene) : Prop where
  ends : ∀ c ∈ s.connections, (∃ p ∈ s.ports, p.id = c.fromPort ∧ p.direction = .output) ∧
    ∃ p ∈ s.ports, p.id = c.toPort ∧ p.direction = .input
  owned : ∀ p ∈ s.ports, ∃ b ∈ s.blocks, b.id = p.nodeId
  apart : s.ports.Pairwise fun p q =>
    ¬(p.nodeId.equals q.nodeId = true ∧ p.name.equals q.name = true ∧ p.direction = q.direction)
  unrepeated : ∀ b ∈ s.blocks, b.portIds.Pairwise fun v w => v.equals w = false
  listed : ∀ b ∈ s.blocks, ∀ v,
    v ∈ b.portIds ↔ ∃ p ∈ s.ports, p.nodeId.equals b.id = true ∧ p.id = v
  starts : ∀ c ∈ s.connections, ∀ p ∈ s.ports, p.id.equals c.toPort = true →
    ∀ b ∈ s.blocks, b.id.equals p.nodeId = true → b.kind ≠ .start

theorem Sound.intact (hs : s.Sound names next) : s.Intact := by
  constructor
  · exact hs.wired
  · intro p hp
    obtain ⟨b, hb, hseat⟩ := hs.seated p hp
    exact ⟨b, hb, hseat.1.symm⟩
  · refine (List.pairwise_map.mp hs.seats).imp_of_mem fun {p q} hp hq hne h => hne ?_
    obtain ⟨hnode, hname, hside⟩ := h
    obtain ⟨_, -, -, k, -, hk, -⟩ := hs.seated q hq
    rw [hk, Value.equals_text_right] at hname
    rw [Port.seat, Port.seat, (hs.issued_nodeId hq).equals_iff.mp hnode, hname, hk, hside]
  · intro b hb
    have hnodup : b.portIds.Nodup := by
      rw [hs.listed b hb]
      exact (List.filter_sublist.map _).nodup hs.portIds
    refine hnodup.imp_of_mem fun {v w} _ hw hne => ?_
    rw [hs.listed b hb, List.mem_map] at hw
    obtain ⟨p, hp, rfl⟩ := hw
    rw [Bool.eq_false_iff, ne_eq, (hs.issuedPorts p (List.mem_of_mem_filter hp)).equals_iff]
    exact hne
  · intro b hb v
    rw [hs.listed b hb, List.mem_map]
    simp only [List.mem_filter, decide_eq_true_eq, (hs.issuedBlocks b hb).equals_iff, and_assoc]
  · intro c hc p hp hto b hb hnode hstart
    obtain ⟨-, q, hq, hid, hin⟩ := hs.wired c hc
    obtain rfl : p = q :=
      List.inj_on_of_nodup_map hs.portIds hp hq
        (((hs.issued_ends hc).2.equals_iff.mp hto).trans hid.symm)
    obtain ⟨d, hd, hseat, k, hk, -, hside⟩ := hs.seated p hp
    obtain rfl : b = d :=
      hs.eq_of_id_eq hb hd (((hs.issued_nodeId hp).equals_iff.mp hnode).trans hseat)
    -- a start has nothing but an output
    rw [hstart] at hk
    obtain rfl := List.mem_singleton.mp hk
    rw [hin] at hside
    cases hside

end Scene
end NovelGraph
