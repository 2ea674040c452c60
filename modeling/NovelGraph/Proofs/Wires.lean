import NovelGraph.Graph.Links
import NovelGraph.Proofs.Identity
import NovelGraph.Proofs.Outcome
import NovelGraph.Proofs.Sorting
import NovelGraph.Proofs.Tables

/-! The wires of a scene, one for each connection that joins two blocks, and the graph that is made
of them: a block is followed by the ends of its wires, near ones first, and it is led to by those
blocks whose wires end at it. -/
namespace NovelGraph

open Outcome

namespace Scene

/-- A wire between two blocks of a scene, with the port that it leaves. -/
structure Wire where
  port : Port
  source : Value
  target : Value
  length : Double

/-- The entry of a wire in the graph. -/
def Wire.hop (w : Wire) : Value × Double := (w.target, w.length)

/-- The ports by id; of two ports with one id the later counts. -/
def portTable (s : Scene) : Dict Port := Dict.ofItems (·.id) s.ports

/-- The ports that a connection joins, each with its block. Both ends have to name ports, and these
blocks by ids that are present. -/
def ends? (s : Scene) (c : Connection) : Option ((Port × Block) × (Port × Block)) := do
  let p ← s.portTable.get? c.fromPort
  let q ← s.portTable.get? c.toPort
  if p.nodeId.isTruthy && q.nodeId.isTruthy then
    let a ← s.blockTable.get? p.nodeId
    let b ← s.blockTable.get? q.nodeId
    pure ((p, a), (q, b))
  else none

/-- The wire of a connection that joins two blocks. -/
def wire? (s : Scene) (c : Connection) : Option Wire := do
  let ((p, a), (q, b)) ← s.ends? c
  let length ← (a.distance b).toOption
  pure ⟨p, p.nodeId, q.nodeId, length⟩

/-- The wires of a scene in the order of its connections. -/
def wires (s : Scene) : List Wire := s.connections.filterMap s.wire?

/-- The wires that leave a block. -/
def wiresFrom (s : Scene) (id : Value) : List Wire := s.wires.filter (id.same ·.source)

lemma wiresFrom_congr (s : Scene) {v w : Value} (h : v.same w = true) :
    s.wiresFrom v = s.wiresFrom w := by
  refine List.filter_congr fun e _ => ?_
  rw [Bool.eq_iff_iff]
  exact ⟨fun g => Value.same_trans (Value.same_symm h) g, fun g => Value.same_trans h g⟩

variable {s : Scene} {l l' : Links} {c : Connection}

lemma portOwners_get? (s : Scene) (id : Value) :
    s.portOwners.get? id = (s.portTable.get? id).map (·.nodeId) := by
  have hfold : ∀ (ports : List Port) (d : Dict Value) (e : Dict Port),
      (∀ id, d.get? id = (e.get? id).map (·.nodeId)) →
      (ports.foldl (fun d p => d.set p.id p.nodeId) d).get? id =
        ((ports.foldl (fun e p => e.set p.id p) e).get? id).map (·.nodeId) := by
    intro ports
    induction ports with
    | nil => exact fun d e h => h id
    | cons p rest ih =>
      intro d e h
      refine ih _ _ fun other => ?_
      rw [Dict.get?_set, Dict.get?_set, h]
      split_ifs with hs
      · rfl
      · rfl
  exact hfold s.ports [] [] fun _ => rfl

lemma wireEnds?_eq_ok {ends : Option ((Value × Block) × (Value × Block))}
    (h : wireEnds? s.portOwners s.blockTable c = .ok ends) :
    ends = (s.ends? c).map fun e => ((e.1.1.nodeId, e.1.2), (e.2.1.nodeId, e.2.2)) := by
  rw [wireEnds?, bind_eq_ok] at h
  obtain ⟨-, -, h⟩ := h
  obtain ⟨-, -, h⟩ := bind_eq_ok.mp h
  rw [portOwners_get?, portOwners_get?] at h
  unfold ends?
  cases hp : s.portTable.get? c.fromPort with
  | none =>
    rw [hp] at h
    exact (Except.ok.inj h).symm
  | some p =>
  cases hq : s.portTable.get? c.toPort with
  | none =>
    rw [hp, hq] at h
    exact (Except.ok.inj h).symm
  | some q =>
  simp only [hp, hq, Option.map_some] at h
  simp only [Option.bind_eq_bind, Option.bind_some]
  cases ht : p.nodeId.isTruthy && q.nodeId.isTruthy with
  | false =>
    rw [ht] at h
    exact (Except.ok.inj h).symm
  | true =>
  rw [ht, if_pos rfl, bind_eq_ok] at h
  obtain ⟨-, -, h⟩ := h
  obtain ⟨-, -, h⟩ := bind_eq_ok.mp h
  rw [if_pos rfl]
  cases ha : s.blockTable.get? p.nodeId with
  | none =>
    rw [ha] at h
    exact (Except.ok.inj h).symm
  | some a =>
  cases hb : s.blockTable.get? q.nodeId with
  | none =>
    rw [ha, hb] at h
    exact (Except.ok.inj h).symm
  | some b =>
    rw [ha, hb] at h
    exact (Except.ok.inj h).symm

/-- A connection that can be added to one graph can be added to each: it joins no blocks and is
passed over, or adds its wire. -/
lemma addWire_again (h : addWire s.portOwners s.blockTable l c = .ok l') (m : Links) :
    addWire s.portOwners s.blockTable m c =
      .ok ((s.wire? c).elim m fun w => m.update w.source [] (· ++ [w.hop])) := by
  rw [addWire, bind_eq_ok] at h
  obtain ⟨ends, he, h⟩ := h
  rw [addWire, he, ok_bind]
  rw [wireEnds?_eq_ok he] at h ⊢
  unfold wire?
  cases hends : s.ends? c with
  | none => rfl
  | some joined =>
    obtain ⟨⟨p, a⟩, ⟨q, b⟩⟩ := joined
    rw [hends, Option.map_some] at h
    obtain ⟨d, hd, -⟩ := bind_eq_ok.mp h
    simp only [Option.map_some, hd, Option.bind_eq_bind, Option.bind_some]
    rfl

lemma addWire_eq_ok (h : addWire s.portOwners s.blockTable l c = .ok l') :
    (s.wire? c = none ∧ l' = l) ∨
      ∃ w, s.wire? c = some w ∧ l' = l.update w.source [] (· ++ [w.hop]) := by
  have hself := h.symm.trans (addWire_again h l)
  cases hw : s.wire? c with
  | none => exact .inl ⟨rfl, by simpa [hw] using hself⟩
  | some w => exact .inr ⟨w, rfl, by simpa [hw] using hself⟩

/-- Wires join blocks of the scene. -/
lemma wire_ends {w : Wire} (h : w ∈ s.wires) :
    (∃ a ∈ s.blocks, w.source.same a.id = true) ∧ ∃ b ∈ s.blocks, w.target.same b.id = true := by
  obtain ⟨c, -, hc⟩ := List.mem_filterMap.mp h
  simp only [wire?, ends?, Option.bind_eq_bind, Option.bind_eq_some_iff] at hc
  obtain ⟨e, ⟨p, -, q, -, he⟩, d, -, hw⟩ := hc
  split_ifs at he
  simp only [Option.bind_eq_some_iff] at he
  obtain ⟨a, ha, b, hb, he⟩ := he
  cases he
  cases hw
  exact ⟨⟨a, Dict.exists_of_get?_ofItems ha⟩, ⟨b, Dict.exists_of_get?_ofItems hb⟩⟩

lemma next_update (l : Links) (w : Wire) (id : Value) :
    Links.next (l.update w.source [] (· ++ [w.hop])) id =
      l.next id ++ if id.same w.source then [w.hop] else [] := by
  rw [Links.next, Dict.get?_update]
  split_ifs with h
  · rfl
  · rw [List.append_nil]
    rfl

/-- What the graph lists before its entries are sorted. -/
lemma foldlM_addWire_next {connections : List Connection}
    (h : connections.foldlM (addWire s.portOwners s.blockTable) l = .ok l') (id : Value) :
    l'.next id = l.next id ++
      (((connections.filterMap s.wire?).filter (id.same ·.source)).map Wire.hop) := by
  induction connections generalizing l with
  | nil =>
    cases h
    simp
  | cons c rest ih =>
    rw [List.foldlM_cons, bind_eq_ok] at h
    obtain ⟨m, hm, h⟩ := h
    rw [ih h]
    rcases addWire_eq_ok hm with ⟨hw, rfl⟩ | ⟨w, hw, rfl⟩
    · rw [List.filterMap_cons_none hw]
    · rw [List.filterMap_cons_some hw, next_update, List.filter_cons]
      split_ifs with hs
      · simp
      · simp

lemma foldlM_addWire_distinctKeys {connections : List Connection} (hl : l.DistinctKeys)
    (h : connections.foldlM (addWire s.portOwners s.blockTable) l = .ok l') :
    l'.DistinctKeys := by
  refine foldlM_invariant Dict.DistinctKeys ?_ hl h
  intro c _ m m' hm hstep
  rcases addWire_eq_ok hstep with ⟨-, rfl⟩ | ⟨w, -, rfl⟩
  · exact hm
  · exact hm.set _ _

lemma links_eq_ok (h : s.links = .ok l) :
    (∀ b ∈ s.blocks, b.id.requireKey = .ok ()) ∧
      ∃ m, s.connections.foldlM (addWire s.portOwners s.blockTable) [] = .ok m ∧
        l = m.map fun e => (e.1, Links.sortByDistance e.2) := by
  rw [links, bind_eq_ok] at h
  obtain ⟨-, -, h⟩ := h
  obtain ⟨_, hkeys, h⟩ := bind_eq_ok.mp h
  obtain ⟨m, hm, h⟩ := bind_eq_ok.mp h
  cases h
  exact ⟨forM_eq_ok hkeys, m, hm, rfl⟩

/-- A block is followed by the ends of its wires, near ones first. -/
theorem links_next (h : s.links = .ok l) (id : Value) :
    l.next id = Links.sortByDistance ((s.wiresFrom id).map Wire.hop) := by
  obtain ⟨-, m, hm, rfl⟩ := links_eq_ok h
  have hnext : Links.next m id = (s.wiresFrom id).map Wire.hop := foldlM_addWire_next hm id
  rw [← hnext, Links.next, Links.next, Dict.get?_map]
  cases m.get? id with
  | none => rfl
  | some targets => rfl

lemma links_distinctKeys (h : s.links = .ok l) : l.DistinctKeys := by
  obtain ⟨-, m, hm, rfl⟩ := links_eq_ok h
  exact List.pairwise_map.mpr (foldlM_addWire_distinctKeys List.Pairwise.nil hm)

lemma mem_next (h : s.links = .ok l) {id : Value} {t : Value × Double} :
    t ∈ l.next id ↔ ∃ w ∈ s.wires, id.same w.source = true ∧ w.hop = t := by
  rw [links_next h, Links.sortByDistance, (Order.sortByKey_perm _ _ _).mem_iff, List.mem_map]
  simp only [wiresFrom, List.mem_filter, and_assoc]

end Scene

namespace Links

lemma mem_targets_of_mem_next {l : Links} {id : Value} {t : Value × Double}
    (h : t ∈ l.next id) : t.1 ∈ l.targets := by
  rw [next] at h
  cases hg : l.get? id with
  | none => simp [hg] at h
  | some targets =>
    rw [hg, Option.getD_some] at h
    obtain ⟨e, he, -, rfl⟩ := Dict.exists_of_get? hg
    exact List.mem_flatMap.mpr ⟨e, he, List.mem_map_of_mem h⟩

lemma mem_targets_of_mem_nextIds {l : Links} {id next : Value} (h : next ∈ l.nextIds id) :
    next ∈ l.targets := by
  obtain ⟨t, ht, rfl⟩ := List.mem_map.mp h
  exact mem_targets_of_mem_next ht

lemma memberOf_sources_update (i : Inputs) (source target u v : Value) :
    u.memberOf (Inputs.sources (i.update target [] fun sources =>
      if source.memberOf sources then sources else sources ++ [source]) v) = true ↔
      u.memberOf (i.sources v) = true ∨ (v.same target = true ∧ u.same source = true) := by
  have hold : (i.get? v).getD [] = i.sources v := rfl
  rw [Inputs.sources, Dict.get?_update, hold]
  cases hv : v.same target with
  | false => simp [hold]
  | true =>
    rw [if_pos rfl, Option.getD_some]
    split_ifs with hs
    · constructor
      · exact .inl
      · rintro (h | ⟨-, h⟩)
        · exact h
        · rwa [Value.memberOf_congr h]
    · simp [Value.memberOf_append]

lemma memberOf_sources_foldl (source : Value) (targets : List (Value × Double)) (i : Inputs)
    (u v : Value) :
    u.memberOf (Inputs.sources (targets.foldl (fun inputs t => inputs.update t.1 [] fun sources =>
      if source.memberOf sources then sources else sources ++ [source]) i) v) = true ↔
      u.memberOf (i.sources v) = true ∨
        (u.same source = true ∧ ∃ t ∈ targets, v.same t.1 = true) := by
  induction targets generalizing i with
  | nil => simp
  | cons t rest ih =>
    rw [List.foldl_cons, ih, memberOf_sources_update, or_assoc]
    simp only [List.mem_cons, exists_eq_or_imp, and_or_left, and_comm]

/-- Read backwards, the graph tells which blocks lead to a block. -/
lemma memberOf_sources_reverse (l : Links) (u v : Value) :
    u.memberOf (l.reverse.sources v) = true ↔
      ∃ e ∈ l, u.same e.1 = true ∧ ∃ t ∈ e.2, v.same t.1 = true := by
  have hfold : ∀ i : Inputs,
      u.memberOf (Inputs.sources (l.foldl (fun inputs e => e.2.foldl (fun inputs t =>
        inputs.update t.1 [] fun sources =>
          if e.1.memberOf sources then sources else sources ++ [e.1]) inputs) i) v) = true ↔
        u.memberOf (i.sources v) = true ∨
          ∃ e ∈ l, u.same e.1 = true ∧ ∃ t ∈ e.2, v.same t.1 = true := by
    induction l with
    | nil => simp
    | cons e rest ih =>
      intro i
      rw [List.foldl_cons, ih, memberOf_sources_foldl, or_assoc]
      simp only [List.mem_cons, exists_eq_or_imp]
  rw [reverse, hfold []]
  simp [Inputs.sources, Dict.get?_nil]

end Links

namespace Scene

variable {s : Scene} {l : Links}

theorem memberOf_sources (h : s.links = .ok l) {u v : Value} :
    u.memberOf (l.reverse.sources v) = true ↔
      ∃ w ∈ s.wires, u.same w.source = true ∧ v.same w.target = true := by
  rw [Links.memberOf_sources_reverse]
  constructor
  · rintro ⟨e, he, hu, t, ht, hv⟩
    have hnext : l.next u = e.2 := by
      rw [Links.next, (links_distinctKeys h).get? he hu, Option.getD_some]
    obtain ⟨w, hw, hs, rfl⟩ := (mem_next h).mp (hnext ▸ ht)
    exact ⟨w, hw, hs, hv⟩
  · rintro ⟨w, hw, hs, hv⟩
    have hmem : w.hop ∈ l.next u := (mem_next h).mpr ⟨w, hw, hs, rfl⟩
    rw [Links.next] at hmem
    cases hg : l.get? u with
    | none => simp [hg] at hmem
    | some targets =>
      rw [hg, Option.getD_some] at hmem
      obtain ⟨e, he, hu, rfl⟩ := Dict.exists_of_get? hg
      exact ⟨e, he, hu, w.hop, hmem, hv⟩

lemma exists_wire_of_mem_targets (h : s.links = .ok l) {v : Value} (hv : v ∈ l.targets) :
    ∃ w ∈ s.wires, w.target = v := by
  obtain ⟨e, he, hv⟩ := List.mem_flatMap.mp hv
  obtain ⟨t, ht, rfl⟩ := List.mem_map.mp hv
  have hnext : l.next e.1 = e.2 := by
    rw [Links.next, (links_distinctKeys h).get? he (Value.same_refl _), Option.getD_some]
  obtain ⟨w, hw, -, rfl⟩ := (mem_next h).mp (hnext ▸ ht)
  exact ⟨w, hw, rfl⟩

lemma sortByPlace_perm {targets : List (Value × Double)} {ids : List Value}
    (h : s.sortByPlace targets = .ok ids) : ids.Perm (targets.map (·.1)) := by
  rw [sortByPlace, bind_eq_ok] at h
  obtain ⟨sorted, hs, h⟩ := h
  cases h
  exact (Order.sortOn_perm hs).map _

/-- The inputs of a block are seen if the sources of all wires to it are. -/
theorem allSeen_iff (h : s.links = .ok l) {seen : List Value} {id : Value} :
    l.reverse.allSeen seen id = true ↔
      ∀ w ∈ s.wires, id.same w.target = true → w.source.memberOf seen = true := by
  rw [Inputs.allSeen, List.all_eq_true]
  constructor
  · intro hall w hw ht
    obtain ⟨u, hu, hsame⟩ := Value.exists_of_memberOf
      ((memberOf_sources h).mpr ⟨w, hw, Value.same_refl w.source, ht⟩)
    rw [Value.memberOf_congr hsame]
    exact hall u hu
  · intro hall u hu
    obtain ⟨w, hw, hs, ht⟩ := (memberOf_sources h).mp
      (Value.memberOf_of_mem hu (Value.same_refl u))
    rw [Value.memberOf_congr hs]
    exact hall w hw ht

end Scene
end NovelGraph
