import NovelGraph.Proofs.BlockRemoval

/-! The graph of a scene has the pairs of blocks that its connections join, each as often as they
are joined, and nothing else: no block without successors, and read backwards no block without
inputs. A connection whose port or block is not found leaves no trace. -/
namespace NovelGraph

open Outcome

namespace Links

/-- The inputs of a graph: under each id that something leads to, and under no other, the ids that
lead to it, each once. -/
structure ReadBackwards (l : Links) (i : Inputs) : Prop where
  keys : i.DistinctKeys
  known : ∀ v, i.contains v = true ↔ ∃ u, v.memberOf (l.nextIds u) = true
  sources : ∀ u v : Value, u.memberOf (i.sources v) = true ↔ v.memberOf (l.nextIds u) = true
  once : ∀ v, (i.sources v).Pairwise fun u w => u.same w = false

variable {l : Links}

lemma reverse_distinctKeys (l : Links) : l.reverse.DistinctKeys :=
  reverse_induction .nil (fun _ _ _ hi => hi.set _ _) l

lemma reverse_ne_nil (l : Links) : ∀ e ∈ l.reverse, e.2 ≠ [] := by
  refine reverse_induction (P := fun i => ∀ e ∈ i, e.2 ≠ []) (by simp) ?_ l
  intro i source target hi e he
  rcases Dict.mem_set he with he | he
  · exact hi e he
  · rw [he]
    dsimp only
    split_ifs with hs
    · intro hnil
      rw [hnil] at hs
      cases hs
    · simp

lemma memberOf_sources_iff (hl : l.DistinctKeys) (u v : Value) :
    u.memberOf (l.reverse.sources v) = true ↔ v.memberOf (l.nextIds u) = true := by
  rw [memberOf_sources_reverse, nextIds, next]
  constructor
  · rintro ⟨e, he, hu, t, ht, hv⟩
    rw [hl.get? he hu, Option.getD_some]
    exact Value.memberOf_of_mem (List.mem_map_of_mem ht) hv
  · intro h
    obtain ⟨w, hw, hv⟩ := Value.exists_of_memberOf h
    obtain ⟨t, ht, rfl⟩ := List.mem_map.mp hw
    cases hg : l.get? u with
    | none => simp [hg] at ht
    | some targets =>
      rw [hg, Option.getD_some] at ht
      obtain ⟨e, he, hu, rfl⟩ := Dict.exists_of_get? hg
      exact ⟨e, he, hu, t, ht, hv⟩

lemma contains_reverse_iff (l : Links) (v : Value) :
    l.reverse.contains v = true ↔ ∃ u : Value, u.memberOf (l.reverse.sources v) = true := by
  simp only [Dict.contains_eq_isSome, Inputs.sources]
  cases hg : l.reverse.get? v with
  | none => simp
  | some sources =>
    obtain ⟨e, he, -, rfl⟩ := Dict.exists_of_get? hg
    obtain ⟨u, hu⟩ := List.exists_mem_of_ne_nil _ (l.reverse_ne_nil e he)
    simp only [Option.isSome_some, Option.getD_some, true_iff]
    exact ⟨u, Value.memberOf_of_mem hu (Value.same_refl u)⟩

theorem reverse_readBackwards (hl : l.DistinctKeys) : ReadBackwards l l.reverse where
  keys := l.reverse_distinctKeys
  known v := by
    rw [contains_reverse_iff]
    simp only [memberOf_sources_iff hl]
  sources := memberOf_sources_iff hl
  once := l.sources_reverse_distinct

end Links

namespace Scene

variable {s : Scene} {l l' : Links} {c : Connection}

/-- The ids of the blocks that a connection joins: both its ends name ports of the scene, and these
name blocks of the scene. -/
def joinedIds? (s : Scene) (c : Connection) : Option (Value × Value) := do
  let p ← s.ports.find? (c.fromPort.same ·.id)
  let q ← s.ports.find? (c.toPort.same ·.id)
  if p.nodeId.memberOf (s.blocks.map (·.id)) && q.nodeId.memberOf (s.blocks.map (·.id)) then
    some (p.nodeId, q.nodeId)
  else none

/-- The pairs of blocks that the connections of a scene join. -/
def joinedPairs (s : Scene) : List (Value × Value) := s.connections.filterMap s.joinedIds?

lemma blockTable_isSome (s : Scene) (v : Value) :
    (s.blockTable.get? v).isSome = v.memberOf (s.blocks.map (·.id)) := by
  rw [blockTable_get?, Bool.eq_iff_iff, List.find?_isSome, Value.memberOf, List.any_map,
    List.any_eq_true]
  simp

/-- A block whose id is present is named by an id that is present. -/
lemma isTruthy_of_memberOf (hblocks : ∀ b ∈ s.blocks, b.id.isTruthy = true) {v : Value}
    (h : v.memberOf (s.blocks.map (·.id)) = true) : v.isTruthy = true := by
  obtain ⟨w, hw, hsame⟩ := Value.exists_of_memberOf h
  obtain ⟨b, hb, rfl⟩ := List.mem_map.mp hw
  rw [Value.isTruthy_congr hsame, hblocks b hb]

/-- The blocks at the ends of a connection are looked up as they are listed. -/
lemma DistinctPorts.ends?_ids (hports : s.DistinctPorts)
    (hblocks : ∀ b ∈ s.blocks, b.id.isTruthy = true) (c : Connection) :
    ((s.ends? c).map fun e => (e.1.1.nodeId, e.2.1.nodeId)) = s.joinedIds? c := by
  have hfind : ∀ v, s.portTable.get? v = s.ports.find? (v.same ·.id) :=
    Dict.get?_ofItems_of_distinct hports
  rw [ends?, joinedIds?, hfind, hfind]
  cases s.ports.find? (c.fromPort.same ·.id) with
  | none => rfl
  | some p =>
  cases s.ports.find? (c.toPort.same ·.id) with
  | none => rfl
  | some q =>
  simp only [Option.bind_eq_bind, Option.bind_some, ← blockTable_isSome]
  cases ha : s.blockTable.get? p.nodeId with
  | none => simp
  | some a =>
  cases hb : s.blockTable.get? q.nodeId with
  | none => simp
  | some b =>
    have hpresent : ∀ {v : Value} {b : Block}, s.blockTable.get? v = some b →
        v.isTruthy = true := by
      intro v b hv
      refine isTruthy_of_memberOf hblocks ?_
      rw [← blockTable_isSome, hv]
      rfl
    rw [hpresent ha, hpresent hb]
    rfl

/-- In a scene with a graph every connection that joins two blocks has its wire. -/
lemma wire?_ids (hl : s.links = .ok l) (hc : c ∈ s.connections) :
    ((s.wire? c).map fun w => (w.source, w.target)) =
      (s.ends? c).map fun e => (e.1.1.nodeId, e.2.1.nodeId) := by
  obtain ⟨-, m, hm, -⟩ := links_eq_ok hl
  obtain ⟨u, v, hstep⟩ := exists_turn hm hc
  unfold wire?
  cases hends : s.ends? c with
  | none => rfl
  | some joined =>
    obtain ⟨⟨p, a⟩, ⟨q, b⟩⟩ := joined
    obtain ⟨ends, he, hstep⟩ := bind_eq_ok.mp hstep
    rw [wireEnds?_eq_ok he, hends, Option.map_some] at hstep
    obtain ⟨d, hd, -⟩ := bind_eq_ok.mp hstep
    simp only [Option.bind_eq_bind, Option.bind_some, hd]
    rfl

lemma DistinctPorts.wires_ids (hports : s.DistinctPorts)
    (hblocks : ∀ b ∈ s.blocks, b.id.isTruthy = true) (hl : s.links = .ok l) :
    (s.wires.map fun w => (w.source, w.target)) = s.joinedPairs := by
  rw [wires, List.map_filterMap, joinedPairs]
  refine List.filterMap_congr fun c hc => ?_
  rw [wire?_ids hl hc, hports.ends?_ids hblocks]

/-- A block is only listed with successors. -/
lemma links_ne_nil (hl : s.links = .ok l) : ∀ e ∈ l, e.2 ≠ [] := by
  obtain ⟨-, m, hm, rfl⟩ := links_eq_ok hl
  have hne : ∀ e ∈ m, e.2 ≠ [] := by
    refine foldlM_invariant (fun l : Links => ∀ e ∈ l, e.2 ≠ []) ?_ (by simp) hm
    intro c _ l l' hl hstep e he
    rcases addWire_eq_ok hstep with ⟨-, rfl⟩ | ⟨w, -, rfl⟩
    · exact hl e he
    · rcases Dict.mem_set he with he | he
      · exact hl e he
      · simp [he]
  intro e he hnil
  obtain ⟨e', he', rfl⟩ := List.mem_map.mp he
  have hperm : (Links.sortByDistance e'.2).Perm e'.2 := Order.sortByKey_perm _ _ _
  rw [show Links.sortByDistance e'.2 = [] from hnil] at hperm
  exact hne e' he' hperm.nil_eq.symm

/-- The graph of a scene is that of its connections. In a scene with different ports whose blocks
have ids that are present, and which can be measured, there is a graph; it joins the pairs of blocks
that the connections join, each as often, has no block without successors, and read backwards it
has under each block with inputs, and under no other, the blocks that lead to it. -/
theorem graph_of_connections (hports : s.DistinctPorts)
    (hblocks : ∀ b ∈ s.blocks, b.id.isTruthy = true) :
    (s.Measured → ∃ l, s.links = .ok l) ∧
      ∀ l, s.links = .ok l →
        (l.pairs.map byContent).Perm (s.joinedPairs.map byContent) ∧ l.DistinctKeys ∧
          (∀ e ∈ l, e.2 ≠ []) ∧ Links.ReadBackwards l l.reverse := by
  refine ⟨Measured.exists_links, fun l hl => ⟨?_, links_distinctKeys hl, links_ne_nil hl,
    Links.reverse_readBackwards (links_distinctKeys hl)⟩⟩
  rw [← hports.wires_ids hblocks hl, List.map_map]
  exact links_pairs byContent_congr hl

/-- Two wires between the same blocks, one from a block to itself, and connections that end at a
port of no block and at no port. -/
def frayedScene : Scene where
  id := .text "s"
  name := .text "Scene"
  label := .text "start"
  blocks := [{ id := .text "a", kind := .narration }, { id := .text "b", kind := .narration }]
  ports :=
    [{ id := .text "a.o", nodeId := .text "a", name := .text "out", direction := .output },
      { id := .text "b.i", nodeId := .text "b", name := .text "in", direction := .input },
      { id := .text "b.o", nodeId := .text "b", name := .text "out", direction := .output },
      { id := .text "lost.i", nodeId := .text "lost", name := .text "in", direction := .input }]
  connections :=
    [{ id := .text "1", fromPort := .text "a.o", toPort := .text "b.i" },
      { id := .text "2", fromPort := .text "b.o", toPort := .text "b.i" },
      { id := .text "3", fromPort := .text "a.o", toPort := .text "lost.i" },
      { id := .text "4", fromPort := .text "a.o", toPort := .text "gone" },
      { id := .text "5", fromPort := .text "a.o", toPort := .text "b.i" }]

lemma frayedScene_measured : frayedScene.Measured where
  blocks := by decide
  ports := by decide
  connections := by decide
  distance := by
    have hfloat : ∀ b ∈ frayedScene.blocks, ∃ x y, b.x = .float x ∧ b.y = .float y := by
      simp [frayedScene]
    exact fun a ha b hb => Block.exists_distance_of_float (hfloat a ha) (hfloat b hb)

/-- The frayed connections are not in the graph, and the doubled one is in it twice. -/
theorem frayedScene_graph :
    frayedScene.DistinctPorts ∧ (∀ b ∈ frayedScene.blocks, b.id.isTruthy = true) ∧
      frayedScene.Measured ∧ ∃ l, frayedScene.links = .ok l ∧
        (l.pairs.map byContent).Perm
          [(.text "a", .text "b"), (.text "b", .text "b"), (.text "a", .text "b")] ∧
        (∀ e ∈ l, e.2 ≠ []) ∧ Links.ReadBackwards l l.reverse := by
  have hports : frayedScene.DistinctPorts := by decide
  have hblocks : ∀ b ∈ frayedScene.blocks, b.id.isTruthy = true := by decide
  have hpairs : frayedScene.joinedPairs.map byContent =
      [(.text "a", .text "b"), (.text "b", .text "b"), (.text "a", .text "b")] := rfl
  obtain ⟨hexists, hgraph⟩ := graph_of_connections hports hblocks
  obtain ⟨l, hl⟩ := hexists frayedScene_measured
  obtain ⟨hperm, -, hne, hreverse⟩ := hgraph l hl
  exact ⟨hports, hblocks, frayedScene_measured, l, hl, hpairs ▸ hperm, hne, hreverse⟩

end Scene
end NovelGraph
