import NovelGraph.Graph.Entry
import NovelGraph.Graph.Topological
import NovelGraph.Proofs.NumberSizes
import NovelGraph.Proofs.SortingByKey
import NovelGraph.Proofs.Wires

/-! A second connection between two ports. It is one wire more for the block that it leaves, behind
the wires that are not longer; read backwards, the graph is the same, and so are the blocks that the
scene begins with. -/
namespace NovelGraph

open Outcome

namespace Links

/-- The length of a hop, as it compares. -/
def reach (t : Value × Double) : Size := (Magnitude.ofDouble t.2).size

/-- Whether the length of a hop is a number. -/
def measured (t : Value × Double) : Bool := (Magnitude.ofDouble t.2).isNumber

lemma sortByDistance_eq_byKey {targets : List (Value × Double)}
    (h : ∀ t ∈ targets, measured t = true) :
    sortByDistance targets = Order.byKey reach targets := by
  have hsort : Order.sort (fun a b : Value × Double =>
      .ok ((Magnitude.ofDouble a.2).lt (.ofDouble b.2))) targets =
        .ok (Order.byKey reach targets) :=
    Order.sort_eq_byKey fun a ha b hb => congrArg Except.ok (Magnitude.lt_eq_size (h a ha) (h b hb))
  rw [sortByDistance, Order.sortByKey, Order.sortOn, hsort]

/-- Two graphs of which the second has one wire more, a copy of one that the first has too. It
stands between the wires of its block that are not longer and the longer ones. -/
structure Doubled (l l' : Links) (w : Scene.Wire) (near far : List (Value × Double)) : Prop where
  entry : ∃ before source after, w.source.same source = true ∧
    l = before ++ (source, near ++ far) :: after ∧
    l' = before ++ (source, near ++ w.hop :: far) :: after
  copied : w.hop ∈ near
  nearer : ∀ t ∈ near, reach t ≤ reach w.hop
  farther : ∀ t ∈ far, reach w.hop < reach t
  lengths : ∀ t ∈ near ++ far, measured t = true
  distinct : l.DistinctKeys

namespace Doubled

variable {l l' : Links} {w : Scene.Wire} {near far : List (Value × Double)} {id : Value}

lemma next_source (h : l.Doubled l' w near far) (hid : id.same w.source = true) :
    l.next id = near ++ far ∧ l'.next id = near ++ w.hop :: far := by
  obtain ⟨before, source, after, hsource, rfl, rfl⟩ := h.entry
  have hd := h.distinct
  have hd' := (Dict.distinctKeys_middle (near ++ w.hop :: far)).mp hd
  rw [next, next, Dict.get?_middle hd, Dict.get?_middle hd', if_pos (Value.same_trans hid hsource),
    if_pos (Value.same_trans hid hsource)]
  exact ⟨rfl, rfl⟩

/-- Other blocks are followed by what they were followed by. -/
lemma next_other (h : l.Doubled l' w near far) (hid : id.same w.source = false) :
    l'.next id = l.next id := by
  obtain ⟨before, source, after, hsource, rfl, rfl⟩ := h.entry
  have hne : ¬id.same source = true := by
    intro hsame
    rw [Value.same_trans hsame (Value.same_symm hsource)] at hid
    exact Bool.noConfusion hid
  have hd := h.distinct
  have hd' := (Dict.distinctKeys_middle (near ++ w.hop :: far)).mp hd
  rw [next, next, Dict.get?_middle hd, Dict.get?_middle hd', if_neg hne, if_neg hne]

lemma mem_next (h : l.Doubled l' w near far) (id : Value) (t : Value × Double) :
    t ∈ l'.next id ↔ t ∈ l.next id := by
  cases hid : id.same w.source with
  | false => rw [h.next_other hid]
  | true =>
    obtain ⟨hl, hl'⟩ := h.next_source hid
    have hcopied := h.copied
    rw [hl, hl']
    simp only [List.mem_append, List.mem_cons]
    constructor
    · rintro (ht | rfl | ht)
      · exact .inl ht
      · exact .inl hcopied
      · exact .inr ht
    · rintro (ht | ht)
      · exact .inl ht
      · exact .inr (.inr ht)

lemma memberOf_nextIds (h : l.Doubled l' w near far) (id v : Value) :
    v.memberOf (l'.nextIds id) = v.memberOf (l.nextIds id) := by
  rw [Bool.eq_iff_iff, nextIds, nextIds, Value.memberOf, Value.memberOf, List.any_map, List.any_map,
    List.any_eq_true, List.any_eq_true]
  simp only [h.mem_next]

lemma memberOf_targets (h : l.Doubled l' w near far) (v : Value) :
    v.memberOf l'.targets = v.memberOf l.targets := by
  obtain ⟨before, source, after, -, rfl, rfl⟩ := h.entry
  have hcopied : v.same w.target = true → v.memberOf (near.map (·.1)) = true :=
    fun hv => Value.memberOf_of_mem (List.mem_map_of_mem h.copied) hv
  have hcons : ∀ vs : List Value,
      v.memberOf (w.target :: vs) = (v.same w.target || v.memberOf vs) :=
    fun _ => rfl
  simp only [targets, List.flatMap_append, List.flatMap_cons, List.map_append, List.map_cons,
    Value.memberOf_append, Scene.Wire.hop, hcons]
  cases hv : v.same w.target with
  | false => rw [Bool.false_or]
  | true => simp [hcopied hv]

/-- By place, the copy stands between the successors that do not lie behind it and the others. -/
lemma exists_sortOn (h : l.Doubled l' w near far) (hid : id.same w.source = true)
    {spot : Value → Value × Value}
    (hspot : ∀ v, (spot v).1.isReal = true ∧ (spot v).2.isReal = true) :
    ∃ low high, Order.sortOn (fun t => spot t.1) Order.pairLess (l.next id) = .ok (low ++ high) ∧
      Order.sortOn (fun t => spot t.1) Order.pairLess (l'.next id) = .ok (low ++ w.hop :: high) ∧
      (low ++ high).Pairwise (Order.upTo fun t : Value × Double => Order.place (spot t.1)) ∧
      Order.Splits (fun t : Value × Double => Order.place (spot t.1)) w.hop near far low high := by
  obtain ⟨hl, hl'⟩ := h.next_source hid
  have hsort := fun targets : List (Value × Double) =>
    @Order.sortOn_place _ (fun t => spot t.1) targets fun t _ => hspot t.1
  obtain ⟨low, high, hmore, hless, hsplit⟩ :=
    Order.byKey_append_cons (fun t : Value × Double => Order.place (spot t.1)) near far w.hop
  refine ⟨low, high, by rw [hl, hsort, hless], by rw [hl', hsort, hmore], ?_, hsplit⟩
  rw [← hless]
  exact Order.byKey_sorted _ _

lemma length_targets (h : l.Doubled l' w near far) :
    l'.targets.length = l.targets.length + 1 := by
  obtain ⟨before, source, after, -, rfl, rfl⟩ := h.entry
  simp only [targets, List.flatMap_append, List.flatMap_cons, List.length_append, List.length_map,
    List.length_cons]
  omega

/-- A wire that is known backwards adds nothing. -/
lemma update_of_known {inputs : Inputs} {source target : Value}
    (h : source.memberOf (inputs.sources target) = true) :
    (inputs.update target [] fun sources =>
      if source.memberOf sources then sources else sources ++ [source]) = inputs := by
  rw [Inputs.sources] at h
  cases hg : inputs.get? target with
  | none => simp [hg] at h
  | some sources =>
    rw [hg, Option.getD_some] at h
    rw [Dict.update, hg, Option.getD_some, if_pos h, Dict.set_eq_self hg]

/-- Read backwards, both graphs are the same: the source of the copied wire is known already. -/
theorem reverse_eq (h : l.Doubled l' w near far) : l'.reverse = l.reverse := by
  obtain ⟨before, source, after, -, rfl, rfl⟩ := h.entry
  rw [reverse, reverse, List.foldl_append, List.foldl_append, List.foldl_cons, List.foldl_cons]
  congr 1
  rw [List.foldl_append, List.foldl_append, List.foldl_cons]
  congr 1
  refine update_of_known ((memberOf_sources_foldl source near _ source w.target).mpr ?_)
  exact .inr ⟨Value.same_refl _, w.hop, h.copied, Value.same_refl _⟩

end Doubled
end Links

namespace Scene

variable {s : Scene} {c d : Connection} {l l' : Links} {w : Wire}

section Adding

variable (hfrom : d.fromPort = c.fromPort) (hto : d.toPort = c.toPort)

include hfrom hto

lemma addWire_copy (m : Links) :
    addWire s.portOwners s.blockTable m d = addWire s.portOwners s.blockTable m c := by
  simp only [addWire, wireEnds?, hfrom, hto]

end Adding

/-- The graph with one connection more, from the graph before its entries are sorted. -/
lemma links_addConnection (s : Scene) (d : Connection) :
    ∃ unsorted : Except Fault Links,
      s.links = (do pure ((← unsorted).map fun e => (e.1, Links.sortByDistance e.2))) ∧
      (s.addConnection d).links = (do
        let m ← addWire s.portOwners s.blockTable (← unsorted) d
        pure (m.map fun e => (e.1, Links.sortByDistance e.2))) ∧
      ∀ m, unsorted = .ok m →
        s.connections.foldlM (addWire s.portOwners s.blockTable) [] = .ok m := by
  refine ⟨do
    s.ports.forM (·.id.requireKey)
    s.blocks.forM (·.id.requireKey)
    s.connections.foldlM (addWire s.portOwners s.blockTable) [], ?_, ?_, ?_⟩
  · simp only [links, bind_assoc]
  · simp only [links, addConnection, List.foldlM_append, List.foldlM_cons, List.foldlM_nil,
      bind_assoc, bind_pure]
    rfl
  · intro m h
    obtain ⟨-, -, h⟩ := bind_eq_ok.mp h
    obtain ⟨-, -, h⟩ := bind_eq_ok.mp h
    exact h

/-- A scene without a graph does not get one by a connection more. -/
lemma links_addConnection_error {fault : Fault} (h : s.links = .error fault) (d : Connection) :
    (s.addConnection d).links = .error fault := by
  obtain ⟨unsorted, hl, hl', -⟩ := s.links_addConnection d
  rw [hl] at h
  rw [hl']
  cases unsorted with
  | error fault' => exact h
  | ok m => cases h

/-- A second connection between two ports adds the wire of the first once more, if it has one. -/
lemma links_addConnection_ok (hl : s.links = .ok l) (hc : c ∈ s.connections)
    (hfrom : d.fromPort = c.fromPort) (hto : d.toPort = c.toPort) :
    ∃ m, s.connections.foldlM (addWire s.portOwners s.blockTable) [] = .ok m ∧
      l = m.map (fun e => (e.1, Links.sortByDistance e.2)) ∧
      (s.addConnection d).links =
        .ok (((s.wire? c).elim m fun w => m.update w.source [] (· ++ [w.hop])).map
          fun e => (e.1, Links.sortByDistance e.2)) := by
  obtain ⟨unsorted, hlinks, hlinks', hm⟩ := s.links_addConnection d
  rw [hlinks] at hl
  cases unsorted with
  | error fault => cases hl
  | ok m =>
    have hm := hm m rfl
    refine ⟨m, hm, (Except.ok.inj hl).symm, ?_⟩
    obtain ⟨k, k', hstep⟩ := exists_turn hm hc
    rw [hlinks', ok_bind, addWire_copy hfrom hto, addWire_again hstep]
    rfl

/-- A second connection that joins no blocks changes nothing. -/
lemma links_addConnection_none (hl : s.links = .ok l) (hc : c ∈ s.connections)
    (hfrom : d.fromPort = c.fromPort) (hto : d.toPort = c.toPort) (hw : s.wire? c = none) :
    (s.addConnection d).links = .ok l := by
  obtain ⟨m, -, rfl, hlinks⟩ := links_addConnection_ok hl hc hfrom hto
  rw [hlinks, hw]
  rfl

/-- The coordinates of all blocks and the lengths of all wires are numbers. -/
structure Drawn (s : Scene) : Prop where
  places : ∀ b ∈ s.blocks, b.x.isReal = true ∧ b.y.isReal = true
  lengths : ∀ w ∈ s.wires, Links.measured w.hop = true

namespace Drawn

lemma isReal_positionOf (hs : s.Drawn) (v : Value) :
    (s.positionOf v).1.isReal = true ∧ (s.positionOf v).2.isReal = true := by
  rw [positionOf]
  cases h : s.findBlock v with
  | none => exact ⟨rfl, rfl⟩
  | some b => exact (hs.places b (findBlock_mem h)).symm

lemma isReal_lastPositionOf (hs : s.Drawn) (v : Value) :
    (lastPositionOf s.blockTable v).1.isReal = true ∧
      (lastPositionOf s.blockTable v).2.isReal = true := by
  rw [lastPositionOf]
  cases h : s.blockTable.get? v with
  | none => exact ⟨rfl, rfl⟩
  | some b => exact (hs.places b (Dict.exists_of_get?_ofItems h).1).symm

end Drawn

/-- A second connection that joins blocks doubles a wire. -/
theorem exists_doubled (hs : s.Drawn) (hl : s.links = .ok l) (hc : c ∈ s.connections)
    (hfrom : d.fromPort = c.fromPort) (hto : d.toPort = c.toPort) (hw : s.wire? c = some w) :
    ∃ l' near far, (s.addConnection d).links = .ok l' ∧ l.Doubled l' w near far := by
  have hdistinct := links_distinctKeys hl
  obtain ⟨m, hm, rfl, hlinks⟩ := links_addConnection_ok hl hc hfrom hto
  have hwire : w ∈ s.wires := List.mem_filterMap.mpr ⟨c, hc, hw⟩
  have hnext : Links.next m w.source = (s.wiresFrom w.source).map Wire.hop :=
    foldlM_addWire_next hm w.source
  have hhop : w.hop ∈ Links.next m w.source := by
    rw [hnext]
    exact List.mem_map_of_mem (List.mem_filter.mpr ⟨hwire, Value.same_refl _⟩)
  have hmeasured : ∀ t ∈ Links.next m w.source, Links.measured t = true := by
    rw [hnext]
    intro t ht
    obtain ⟨u, hu, rfl⟩ := List.mem_map.mp ht
    exact hs.lengths u (List.mem_of_mem_filter hu)
  cases hg : m.get? w.source with
  | none => simp [Links.next, hg] at hhop
  | some hops =>
    rw [Links.next, hg, Option.getD_some] at hhop hmeasured
    obtain ⟨before, source, after, hsource, rfl, hset⟩ := Dict.exists_set_of_get? hg
    obtain ⟨near, far, hmore, hless, hsplit⟩ := Order.byKey_append_cons Links.reach hops [] w.hop
    rw [List.append_nil] at hless
    have hsorted : Links.sortByDistance hops = near ++ far := by
      rw [Links.sortByDistance_eq_byKey hmeasured, hless]
    have hsorted' : Links.sortByDistance (hops ++ [w.hop]) = near ++ w.hop :: far := by
      rw [Links.sortByDistance_eq_byKey, hmore]
      exact List.forall_mem_append.mpr ⟨hmeasured, by simpa using hmeasured _ hhop⟩
    refine ⟨_, near, far, hlinks, ⟨?_, ?_, ?_, ?_, ?_, hdistinct⟩⟩
    · refine ⟨before.map fun e => (e.1, Links.sortByDistance e.2), source,
        after.map fun e => (e.1, Links.sortByDistance e.2), hsource, ?_, ?_⟩
      · simp [hsorted]
      · rw [hw, Option.elim_some, Dict.update, hg, Option.getD_some, hset]
        simp [hsorted']
    · exact hsplit.earlier w.hop hhop le_rfl
    · exact hsplit.below
    · exact fun t ht => (hsplit.later t ht).resolve_left (by simp)
    · rw [← hless]
      exact fun t ht => hmeasured t ((Order.byKey_perm _ _).mem_iff.mp ht)

/-- With a doubled wire a scene begins with the same blocks. -/
lemma entryBlocks_doubled {near far : List (Value × Double)} (h : l.Doubled l' w near far)
    (d : Connection) : (s.addConnection d).entryBlocks l' = s.entryBlocks l := by
  have hempty : l'.isEmpty = l.isEmpty := by
    obtain ⟨before, source, after, -, rfl, rfl⟩ := h.entry
    cases before <;> rfl
  have hbehind : ∀ (blocks : List Block) (v : Value),
      v.memberOf (blocks.flatMap fun b => l'.nextIds b.id) =
        v.memberOf (blocks.flatMap fun b => l.nextIds b.id) := by
    intro blocks v
    have hnext : ∀ b : Block, (l'.nextIds b.id).any (v.same ·) = (l.nextIds b.id).any (v.same ·) :=
      fun b => h.memberOf_nextIds b.id v
    simp only [Value.memberOf, List.any_flatMap, hnext]
  simp only [entryBlocks, addConnection, hempty, h.memberOf_targets, hbehind]

end Scene
end NovelGraph
