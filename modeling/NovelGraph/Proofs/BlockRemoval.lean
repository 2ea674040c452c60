import NovelGraph.Proofs.NamedBlocks
import NovelGraph.Proofs.SceneIntegrity

/-! Removing a block from a scene. Blocks, ports and connections are removed by different ids: the
blocks by their own, the ports by the block that they name, and the connections by the ports at
their ends. In the graph this takes away the wires of the block and nothing else. -/
namespace NovelGraph

open Outcome

/-- A pair of ids by their contents. -/
def byContent (e : Value × Value) : Value × Value := (e.1.canon, e.2.canon)

lemma byContent_congr (u w v : Value) (h : u.same w = true) :
    byContent (u, v) = byContent (w, v) := by
  rw [byContent, byContent, Value.same_iff.mp h]

namespace Links

/-- The pairs of blocks that a graph joins, each as often as there are wires between them. -/
def pairs (l : Links) : List (Value × Value) := l.flatMap fun e => e.2.map fun t => (e.1, t.1)

lemma pairs_cons (e : Value × List (Value × Double)) (rest : Links) :
    pairs (e :: rest) = (e.2.map fun t => (e.1, t.1)) ++ pairs rest := rfl

lemma pairs_sorted_perm (l : Links) :
    (pairs (l.map fun e => (e.1, sortByDistance e.2))).Perm l.pairs := by
  rw [pairs, pairs, List.flatMap_map]
  exact List.Perm.flatMap_left _ fun e _ => (Order.sortByKey_perm _ _ _).map _

/-- A wire more is a pair more, under the id that its source has in the graph. -/
lemma pairs_update_perm {β : Type} {g : Value × Value → β}
    (hg : ∀ u w v : Value, u.same w = true → g (u, v) = g (w, v)) (l : Links) (source : Value)
    (hop : Value × Double) :
    ((pairs (l.update source [] (· ++ [hop]))).map g).Perm
      (l.pairs.map g ++ [g (source, hop.1)]) := by
  induction l with
  | nil => exact .refl _
  | cons e rest ih =>
    rw [Dict.update_cons]
    split_ifs with hsame
    · simp only [pairs_cons, List.map_append, List.map_cons, List.map_nil, List.append_assoc,
        hg _ _ hop.1 hsame]
      exact List.perm_append_comm.append_left _
    · rw [pairs_cons, pairs_cons, List.map_append, List.map_append, List.append_assoc]
      exact ih.append_left _

end Links

namespace Scene

variable {s : Scene} {l l' : Links} {id v : Value} {c : Connection} {p : Port}

section Pairs

variable {β : Type} {g : Value × Value → β}
  (hg : ∀ u w v : Value, u.same w = true → g (u, v) = g (w, v))

include hg

lemma foldlM_addWire_pairs {connections : List Connection}
    (h : connections.foldlM (addWire s.portOwners s.blockTable) l = .ok l') :
    (l'.pairs.map g).Perm
      (l.pairs.map g ++ (connections.filterMap s.wire?).map fun w => g (w.source, w.target)) := by
  induction connections generalizing l with
  | nil =>
    cases h
    simp
  | cons c rest ih =>
    rw [List.foldlM_cons, bind_eq_ok] at h
    obtain ⟨m, hm, h⟩ := h
    refine (ih h).trans ?_
    rcases addWire_eq_ok hm with ⟨hw, rfl⟩ | ⟨w, hw, rfl⟩
    · rw [List.filterMap_cons_none hw]
    · rw [List.filterMap_cons_some hw, List.map_cons, List.append_cons]
      exact (Links.pairs_update_perm hg l w.source w.hop).append_right _

/-- The pairs of the graph are those of the wires, in all that ids with one content share. -/
theorem links_pairs (h : s.links = .ok l) :
    (l.pairs.map g).Perm (s.wires.map fun w => g (w.source, w.target)) := by
  obtain ⟨-, m, hm, rfl⟩ := links_eq_ok h
  exact ((Links.pairs_sorted_perm m).map g).trans (foldlM_addWire_pairs hg hm)

end Pairs

/-- No two ports have the same id. -/
def DistinctPorts (s : Scene) : Prop := s.ports.Pairwise fun p q => p.id.same q.id = false

/-- Both ends of every connection are ports of the scene. -/
def Joined (s : Scene) : Prop :=
  ∀ c ∈ s.connections, c.fromPort.memberOf (s.ports.map (·.id)) = true ∧
    c.toPort.memberOf (s.ports.map (·.id)) = true

instance (s : Scene) : Decidable s.DistinctPorts :=
  inferInstanceAs (Decidable (List.Pairwise _ _))

instance (s : Scene) : Decidable s.Joined :=
  inferInstanceAs (Decidable (∀ c ∈ s.connections, _))

/-- The ids of the ports that go with a block. -/
def removedPorts (s : Scene) (id : Value) : List Value := (s.portsOf id).map (·.id)

section Tables

lemma memberOf_removedPorts (hp : p ∈ s.ports) (hv : v.same p.id = true)
    (hnode : p.nodeId.equals id = true) : v.memberOf (s.removedPorts id) = true :=
  Value.memberOf_of_mem (List.mem_map_of_mem (List.mem_filter.mpr ⟨hp, hnode⟩)) hv

/-- A port that stays is found as before. -/
lemma portTable_removeBlock (h : v.memberOf (s.removedPorts id) = false) :
    (s.removeBlock id).portTable.get? v = s.portTable.get? v := by
  refine Dict.get?_ofItems_filter fun p hp hv => ?_
  rw [Bool.not_eq_true', ← Bool.not_eq_true]
  intro hnode
  rw [memberOf_removedPorts hp hv hnode] at h
  cases h

/-- A block that stays is found as before. -/
lemma blockTable_removeBlock (h : v.equals id = false) :
    (s.removeBlock id).blockTable.get? v = s.blockTable.get? v := by
  refine Dict.get?_ofItems_filter fun b _ hv => ?_
  rw [← Value.equals_congr_left id hv, h]
  rfl

/-- The port that is found under an id goes with the block exactly if the id is removed. -/
lemma DistinctPorts.memberOf_removedPorts_iff (hs : s.DistinctPorts)
    (h : s.portTable.get? v = some p) :
    v.memberOf (s.removedPorts id) = true ↔ p.nodeId.equals id = true := by
  obtain ⟨hp, hv⟩ := Dict.exists_of_get?_ofItems h
  constructor
  · intro hmem
    obtain ⟨w, hw, hsame⟩ := Value.exists_of_memberOf hmem
    obtain ⟨q, hq, rfl⟩ := List.mem_map.mp hw
    obtain ⟨hq, hnode⟩ := List.mem_filter.mp hq
    have hsymm : Std.Symm fun p q : Port => p.id.same q.id = false := by
      constructor
      intro p q hpq
      rwa [Value.same_comm]
    obtain rfl : p = q := by
      by_contra hne
      have hdiff := List.Pairwise.forall hs hp hq hne
      rw [Value.same_trans (Value.same_symm hv) hsame] at hdiff
      cases hdiff
    exact hnode
  · exact memberOf_removedPorts hp hv

end Tables

section Wires

/-- Whether a connection stays when a block is removed. -/
def stays (s : Scene) (id : Value) (c : Connection) : Bool :=
  !c.fromPort.memberOf (s.removedPorts id) && !c.toPort.memberOf (s.removedPorts id)

/-- Whether a block is at neither end of a pair. -/
def isApart (id : Value) (e : Value × Value) : Bool := !e.1.equals id && !e.2.equals id

lemma stays_iff : s.stays id c = true ↔
    c.fromPort.memberOf (s.removedPorts id) = false ∧
      c.toPort.memberOf (s.removedPorts id) = false := by
  rw [stays, Bool.and_eq_true, Bool.not_eq_true', Bool.not_eq_true']

/-- A port that stays belongs to a block that stays. -/
lemma nodeId_of_portTable (hv : v.memberOf (s.removedPorts id) = false)
    (h : s.portTable.get? v = some p) : p.nodeId.equals id = false := by
  obtain ⟨hp, hsame⟩ := Dict.exists_of_get?_ofItems h
  rw [← Bool.not_eq_true]
  intro hnode
  rw [memberOf_removedPorts hp hsame hnode] at hv
  cases hv

lemma ends?_removeBlock (h : s.stays id c = true) : (s.removeBlock id).ends? c = s.ends? c := by
  obtain ⟨hfrom, hto⟩ := stays_iff.mp h
  rw [ends?, ends?, portTable_removeBlock hfrom, portTable_removeBlock hto]
  refine Option.bind_congr fun p hp => Option.bind_congr fun q hq => ?_
  rw [blockTable_removeBlock (nodeId_of_portTable hfrom hp),
    blockTable_removeBlock (nodeId_of_portTable hto hq)]

lemma wire?_removeBlock (h : s.stays id c = true) : (s.removeBlock id).wire? c = s.wire? c := by
  rw [wire?, wire?, ends?_removeBlock h]

/-- A connection that stays is added to the graph as before. -/
lemma addWire_removeBlock (h : s.stays id c = true) (m : Links) :
    addWire (s.removeBlock id).portOwners (s.removeBlock id).blockTable m c =
      addWire s.portOwners s.blockTable m c := by
  obtain ⟨hfrom, hto⟩ := stays_iff.mp h
  have hends : wireEnds? (s.removeBlock id).portOwners (s.removeBlock id).blockTable c =
      wireEnds? s.portOwners s.blockTable c := by
    simp only [wireEnds?, portOwners_get?, portTable_removeBlock hfrom, portTable_removeBlock hto]
    cases hp : s.portTable.get? c.fromPort with
    | none => rfl
    | some p =>
    cases hq : s.portTable.get? c.toPort with
    | none => rfl
    | some q =>
      simp only [Option.map_some, blockTable_removeBlock (nodeId_of_portTable hfrom hp),
        blockTable_removeBlock (nodeId_of_portTable hto hq)]
  rw [addWire, addWire, hends]

/-- A wire joins the blocks that the ports of its connection belong to. -/
lemma wire?_eq_some {w : Wire} (h : s.wire? c = some w) :
    ∃ p q, s.portTable.get? c.fromPort = some p ∧ s.portTable.get? c.toPort = some q ∧
      w.source = p.nodeId ∧ w.target = q.nodeId := by
  simp only [wire?, ends?, Option.bind_eq_bind, Option.bind_eq_some_iff] at h
  obtain ⟨joined, ⟨p, hp, q, hq, h⟩, d, -, hw⟩ := h
  split_ifs at h
  simp only [Option.bind_eq_some_iff] at h
  obtain ⟨a, -, b, -, h⟩ := h
  cases h
  cases hw
  exact ⟨p, q, hp, hq, rfl, rfl⟩

/-- A connection with a wire stays exactly if the block is at neither end of the wire. -/
lemma DistinctPorts.stays_eq (hs : s.DistinctPorts) {w : Wire} (h : s.wire? c = some w) :
    s.stays id c = isApart id (w.source, w.target) := by
  obtain ⟨p, q, hp, hq, hsource, htarget⟩ := wire?_eq_some h
  have hfrom : c.fromPort.memberOf (s.removedPorts id) = p.nodeId.equals id :=
    Bool.eq_iff_iff.mpr (hs.memberOf_removedPorts_iff hp)
  have hto : c.toPort.memberOf (s.removedPorts id) = q.nodeId.equals id :=
    Bool.eq_iff_iff.mpr (hs.memberOf_removedPorts_iff hq)
  rw [stays, isApart, hfrom, hto, hsource, htarget]

/-- The wires of a block go with it, and all others stay. -/
theorem DistinctPorts.wires_removeBlock (hs : s.DistinctPorts) :
    (s.removeBlock id).wires = s.wires.filter fun w => isApart id (w.source, w.target) := by
  have hconnections : (s.removeBlock id).connections = s.connections.filter (s.stays id) := rfl
  rw [wires, hconnections, List.filterMap_filter, wires, List.filter_filterMap]
  refine List.filterMap_congr fun c _ => ?_
  cases hw : s.wire? c with
  | none =>
    split_ifs with hstays
    · rw [wire?_removeBlock hstays, hw]
      rfl
    · rfl
  | some w =>
    rw [Option.filter_some, ← hs.stays_eq hw]
    split_ifs with hstays
    · rw [wire?_removeBlock hstays, hw]
    · rfl

/-- A scene that has a graph keeps one. -/
lemma exists_links_removeBlock (h : s.links = .ok l) (id : Value) :
    ∃ l', (s.removeBlock id).links = .ok l' := by
  rw [links, bind_eq_ok] at h
  obtain ⟨_, hports, h⟩ := h
  obtain ⟨_, hblocks, h⟩ := bind_eq_ok.mp h
  obtain ⟨m, hm, -⟩ := bind_eq_ok.mp h
  have hports' : (s.removeBlock id).ports.forM (·.id.requireKey) = .ok () :=
    forM_ok fun p hp => forM_eq_ok hports p (List.mem_of_mem_filter hp)
  have hblocks' : (s.removeBlock id).blocks.forM (·.id.requireKey) = .ok () :=
    forM_ok fun b hb => forM_eq_ok hblocks b (List.mem_of_mem_filter hb)
  have hadd : ∀ c ∈ (s.removeBlock id).connections, ∀ k, ∃ k',
      addWire (s.removeBlock id).portOwners (s.removeBlock id).blockTable k c = .ok k' := by
    intro c hc k
    obtain ⟨hc, hstays⟩ := List.mem_filter.mp hc
    obtain ⟨u, v, hstep⟩ := exists_turn hm hc
    rw [addWire_removeBlock hstays]
    exact ⟨_, addWire_again hstep k⟩
  obtain ⟨m', hm'⟩ := exists_foldlM_eq_ok hadd []
  rw [links, hports', hblocks', ok_bind, ok_bind, hm']
  exact ⟨_, rfl⟩

end Wires

section Removal

lemma Joined.removeBlock (hs : s.Joined) (id : Value) : (s.removeBlock id).Joined := by
  have hend : ∀ v : Value, v.memberOf (s.ports.map (·.id)) = true →
      v.memberOf (s.removedPorts id) = false →
      v.memberOf ((s.removeBlock id).ports.map (·.id)) = true := by
    intro v hv hstays
    obtain ⟨w, hw, hsame⟩ := Value.exists_of_memberOf hv
    obtain ⟨p, hp, rfl⟩ := List.mem_map.mp hw
    refine Value.memberOf_of_mem (List.mem_map_of_mem (List.mem_filter.mpr ⟨hp, ?_⟩)) hsame
    rw [Bool.not_eq_true', ← Bool.not_eq_true]
    intro hnode
    rw [memberOf_removedPorts hp hsame hnode] at hstays
    cases hstays
  intro c hc
  obtain ⟨hc, hstays⟩ := List.mem_filter.mp hc
  obtain ⟨hfrom, hto⟩ := stays_iff.mp hstays
  exact ⟨hend _ (hs c hc).1 hfrom, hend _ (hs c hc).2 hto⟩

/-- The ends of connections can be looked up if the ports can. -/
lemma Joined.isKey_ends (hs : s.Joined) (hkeys : ∀ p ∈ s.ports, p.id.isKey = true) :
    ∀ c ∈ s.connections, c.fromPort.isKey = true ∧ c.toPort.isKey = true := by
  have hend : ∀ v : Value, v.memberOf (s.ports.map (·.id)) = true → v.isKey = true := by
    intro v hv
    obtain ⟨w, hw, hsame⟩ := Value.exists_of_memberOf hv
    obtain ⟨p, hp, rfl⟩ := List.mem_map.mp hw
    rw [Value.isKey_congr hsame]
    exact hkeys p hp
  exact fun c hc => ⟨hend _ (hs c hc).1, hend _ (hs c hc).2⟩

lemma eq_removeBlock_of_tryRemoveBlock {t : Scene} (h : s.tryRemoveBlock id = (t, none)) :
    t = s.removeBlock id := by
  simp only [tryRemoveBlock] at h
  split at h
  · cases h
  · split at h
    · cases h
    · exact (Prod.mk.inj h).1.symm

/-- The graph of what is left has the pairs of the graph before, less those of the block. -/
theorem DistinctPorts.pairs_removeBlock (hs : s.DistinctPorts) (hl : s.links = .ok l)
    (hl' : (s.removeBlock id).links = .ok l') :
    (l'.pairs.map byContent).Perm ((l.pairs.filter (isApart id)).map byContent) := by
  -- being apart from the block is a matter of content, too
  have hapart : ∀ u w v : Value, u.same w = true →
      (isApart id (u, v), byContent (u, v)) = (isApart id (w, v), byContent (w, v)) := by
    intro u w v h
    rw [isApart, isApart, Value.equals_congr_left id h, byContent_congr u w v h]
  have hold := ((links_pairs (g := fun e => (isApart id e, byContent e)) hapart hl).filter
    (·.1)).map (·.2)
  have hnew := links_pairs byContent_congr hl'
  rw [hs.wires_removeBlock] at hnew
  simp only [List.filter_map, List.map_map, Function.comp_def] at hold
  exact hnew.trans hold.symm

/-- Removing a block removes its wires and no others. In a scene with different ports where both
ends of every connection are ports, the removal succeeds unless a port has a list or an object for
its id; then every connection still joins two ports, no port belongs to the block, and the graph
joins the pairs of blocks that it joined before, as often as before, but for the pairs with the
block. -/
theorem removal_takes_own_pairs (hs : s.DistinctPorts) (hjoined : s.Joined) (id : Value) :
    ((∀ p ∈ s.ports, p.id.isKey = true) → ∃ t, s.tryRemoveBlock id = (t, none)) ∧
      ∀ t, s.tryRemoveBlock id = (t, none) →
        t.Joined ∧ (∀ p ∈ t.ports, p.nodeId.equals id = false) ∧
          ∀ l, s.links = .ok l → ∃ l', t.links = .ok l' ∧
            (l'.pairs.map byContent).Perm ((l.pairs.filter (isApart id)).map byContent) := by
  refine ⟨fun hkeys => ⟨_, tryRemoveBlock_eq hkeys (hjoined.isKey_ends hkeys) id⟩, fun t ht => ?_⟩
  obtain rfl := eq_removeBlock_of_tryRemoveBlock ht
  refine ⟨hjoined.removeBlock id, fun p hp => ?_, fun l hl => ?_⟩
  · simpa using (List.mem_filter.mp hp).2
  · obtain ⟨l', hl'⟩ := exists_links_removeBlock hl id
    exact ⟨l', hl', hs.pairs_removeBlock hl hl'⟩

/-- One of two ways that meet is taken out. -/
theorem meetingScene_without_left :
    meetingScene.DistinctPorts ∧ meetingScene.Joined ∧
      ∃ t l l', meetingScene.tryRemoveBlock (.text "left") = (t, none) ∧
        meetingScene.links = .ok l ∧ t.links = .ok l' ∧ t.Joined ∧
        (∀ p ∈ t.ports, p.nodeId.equals (.text "left") = false) ∧
        l.pairs.length = 6 ∧
        (l'.pairs.map byContent).Perm
          [(.text "top", .text "right"), (.text "right", .text "end"),
            (.text "round", .text "round"), (.text "picture", .text "shown")] := by
  have hs : meetingScene.DistinctPorts := by decide
  have hjoined : meetingScene.Joined := by decide
  obtain ⟨l, hl, hlength, hpairs⟩ : ∃ l, meetingScene.links = .ok l ∧ l.pairs.length = 6 ∧
      (l.pairs.filter (isApart (.text "left"))).map byContent =
        [(.text "top", .text "right"), (.text "right", .text "end"),
          (.text "round", .text "round"), (.text "picture", .text "shown")] := ⟨_, rfl, rfl, rfl⟩
  obtain ⟨hdone, hafter⟩ := removal_takes_own_pairs hs hjoined (.text "left")
  obtain ⟨t, ht⟩ := hdone (by decide)
  obtain ⟨hjoined', hports, hgraph⟩ := hafter t ht
  obtain ⟨l', hl', hperm⟩ := hgraph l hl
  exact ⟨hs, hjoined, t, l, l', ht, hl, hl', hjoined', hports, hlength, hpairs ▸ hperm⟩

end Removal

end Scene
end NovelGraph
