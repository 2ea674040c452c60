import NovelGraph.Proofs.GridPlaces
import NovelGraph.Proofs.NamedBlocks

/-! Drawing a scene anew, with its blocks at other places. Which blocks are wired does not change,
as long as the new drawing has a graph too. -/
namespace NovelGraph

open Outcome

namespace Block

/-- A block at another place. -/
def movedTo (b : Block) (place : Value × Value) : Block := { b with x := place.1, y := place.2 }

end Block

namespace Scene

/-- The scene with every block at a place of its own. -/
def redrawn (s : Scene) (place : Block → Value × Value) : Scene :=
  { s with blocks := s.blocks.map fun b => b.movedTo (place b) }

variable {s : Scene} {l l' : Links} {place : Block → Value × Value} {a b : Block} {c : Connection}

lemma redrawn_blocks (s : Scene) (place : Block → Value × Value) :
    (s.redrawn place).blocks = s.blocks.map fun b => b.movedTo (place b) := rfl

lemma mem_redrawn (hb : b ∈ s.blocks) : b.movedTo (place b) ∈ (s.redrawn place).blocks :=
  List.mem_map_of_mem hb

/-- The ids of the blocks that a connection joins. -/
def joins? (s : Scene) (c : Connection) : Option (Value × Value) :=
  (s.ends? c).map fun e => (e.1.1.nodeId, e.2.1.nodeId)

/-- In a scene with a graph every connection that joins blocks has a wire. -/
lemma wire?_ends (h : addWire s.portOwners s.blockTable l c = .ok l') :
    (s.wire? c).map (fun w => (w.source, w.target)) = s.joins? c := by
  rw [addWire, bind_eq_ok] at h
  obtain ⟨ends, he, h⟩ := h
  rw [wireEnds?_eq_ok he] at h
  unfold wire? joins?
  cases hends : s.ends? c with
  | none => rfl
  | some joined =>
    obtain ⟨⟨p, a⟩, ⟨q, b⟩⟩ := joined
    rw [hends, Option.map_some] at h
    obtain ⟨d, hd, -⟩ := bind_eq_ok.mp h
    simp [hd, Except.toOption]

lemma wire?_joins (hl : s.links = .ok l) (hc : c ∈ s.connections) :
    (s.wire? c).map (fun w => (w.source, w.target)) = s.joins? c := by
  obtain ⟨-, m, hm, -⟩ := links_eq_ok hl
  have hall := foldlM_history (fun done _ => ∀ c ∈ done,
    (s.wire? c).map (fun w => (w.source, w.target)) = s.joins? c) ?_ (by simp) hm
  · exact hall c hc
  · intro done c _ m m' hdone hstep d hd
    rcases List.mem_append.mp hd with hd | hd
    · exact hdone d hd
    · rw [List.mem_singleton.mp hd]
      exact wire?_ends hstep

/-- Blocks are wired if a connection joins them. -/
lemma wired_iff_joins (hl : s.links = .ok l) :
    s.Wired a b ↔ ∃ c ∈ s.connections, ∃ e, s.joins? c = some e ∧
      a.id.same e.1 = true ∧ b.id.same e.2 = true := by
  constructor
  · rintro ⟨w, hw, hsource, htarget⟩
    obtain ⟨c, hc, hwire⟩ := List.mem_filterMap.mp hw
    refine ⟨c, hc, (w.source, w.target), ?_, hsource, htarget⟩
    rw [← wire?_joins hl hc, hwire, Option.map_some]
  · rintro ⟨c, hc, e, he, hsource, htarget⟩
    rw [← wire?_joins hl hc, Option.map_eq_some_iff] at he
    obtain ⟨w, hw, rfl⟩ := he
    exact ⟨w, List.mem_filterMap.mpr ⟨c, hc, hw⟩, hsource, htarget⟩

lemma redrawn_blockTable_isSome (s : Scene) (place : Block → Value × Value) (v : Value) :
    ((s.redrawn place).blockTable.get? v).isSome = (s.blockTable.get? v).isSome := by
  rw [blockTable_get?, blockTable_get?, redrawn_blocks, ← List.map_reverse, List.find?_map,
    Option.isSome_map]
  rfl

/-- Whether a connection joins blocks depends on whether they are there, not on where. -/
lemma joins?_eq (s : Scene) (c : Connection) :
    s.joins? c = (s.portTable.get? c.fromPort).bind fun p =>
      (s.portTable.get? c.toPort).bind fun q =>
        if p.nodeId.isTruthy && q.nodeId.isTruthy && (s.blockTable.get? p.nodeId).isSome &&
          (s.blockTable.get? q.nodeId).isSome then some (p.nodeId, q.nodeId) else none := by
  rw [joins?, ends?]
  cases s.portTable.get? c.fromPort with
  | none => rfl
  | some p =>
  cases s.portTable.get? c.toPort with
  | none => rfl
  | some q =>
  cases ha : s.blockTable.get? p.nodeId with
  | none => simp [ha]
  | some a =>
  cases hb : s.blockTable.get? q.nodeId with
  | none => simp [hb]
  | some b =>
    by_cases ht : p.nodeId.isTruthy = true ∧ q.nodeId.isTruthy = true
    · simp [ha, hb, ht]
    · simp [ht]

lemma joins?_redrawn (s : Scene) (place : Block → Value × Value) (c : Connection) :
    (s.redrawn place).joins? c = s.joins? c := by
  rw [joins?_eq, joins?_eq]
  simp only [redrawn_blockTable_isSome]
  rfl

lemma wired_redrawn (hl : s.links = .ok l) (hl' : (s.redrawn place).links = .ok l')
    {p q : Value × Value} :
    (s.redrawn place).Wired (a.movedTo p) (b.movedTo q) ↔ s.Wired a b := by
  rw [wired_iff_joins hl, wired_iff_joins hl']
  simp only [joins?_redrawn]
  exact Iff.rfl

lemma Named.redrawn (hs : s.Named) (place : Block → Value × Value) : (s.redrawn place).Named := by
  constructor
  · exact List.pairwise_map.mpr hs.keys
  · intro b hb
    obtain ⟨a, ha, rfl⟩ := List.mem_map.mp hb
    exact hs.selfEqual a ha

/-- What a block is wired to can be sorted by place: wires have lengths. -/
lemma Named.exists_sortByPlace (hs : s.Named) (hl : s.links = .ok l) (v : Value) :
    ∃ ids, s.sortByPlace (l.next v) = .ok ids := by
  have hnumber : ∀ t ∈ l.next v, (s.positionOf t.1).1.number?.isSome = true ∧
      (s.positionOf t.1).2.number?.isSome = true := by
    intro t ht
    obtain ⟨w, hw, -, rfl⟩ := (mem_next hl).mp ht
    obtain ⟨c, -, hc⟩ := List.mem_filterMap.mp hw
    simp only [wire?, ends?, Option.bind_eq_bind, Option.bind_eq_some_iff] at hc
    obtain ⟨e, ⟨p, -, q, -, he⟩, d, hd, hw⟩ := hc
    split_ifs at he
    simp only [Option.bind_eq_some_iff] at he
    obtain ⟨a, ha, b, hb, he⟩ := he
    cases he
    cases hw
    obtain ⟨hmem, hsame⟩ := Dict.exists_of_get?_ofItems hb
    rw [positionOf, Wire.hop, hs.findBlock hmem (Value.same_symm hsame)]
    have hdist : a.distance b = .ok d := by
      cases h : a.distance b with
      | error fault => simp [h, Except.toOption] at hd
      | ok d' => simpa [h, Except.toOption] using hd
    exact (Block.numbers_of_distance hdist b (by simp)).symm
  obtain ⟨out, hout⟩ := Order.exists_sortOn fun t ht u hu =>
    Order.exists_pairLess (hnumber t ht) (hnumber u hu)
  rw [sortByPlace, hout]
  exact ⟨_, rfl⟩

end Scene
end NovelGraph
