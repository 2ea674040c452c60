import NovelGraph.Graph.Entry
import NovelGraph.Proofs.Transport
import NovelGraph.Proofs.Wires

/-! Scenes that can be measured: ids can be looked up, and any two blocks lie at some distance from
each other. Such a scene has a graph; and its blocks have an order if their coordinates are
numbers. -/
namespace NovelGraph

open Outcome

namespace Order

variable {α κ : Type}

section Total

variable {lt : α → α → Except Fault Bool} (hlt : ∀ a b, ∃ r, lt a b = .ok r)

include hlt

lemma exists_insert (sorted : List α) (item : α) : ∃ out, insert lt sorted item = .ok out := by
  have hpoint : ∀ fuel low high, ∃ n, insertionPoint lt item sorted fuel low high = .ok n := by
    intro fuel
    induction fuel with
    | zero => exact fun low _ => ⟨low, rfl⟩
    | succ fuel ih =>
      intro low high
      simp only [insertionPoint]
      split_ifs
      · exact ⟨low, rfl⟩
      · cases sorted[low + (high - low) / 2]? with
        | none => exact ⟨low, rfl⟩
        | some other =>
          obtain ⟨less, hless⟩ := hlt item other
          simp only [hless, ok_bind]
          cases less with
          | true => exact ih _ _
          | false => exact ih _ _
  obtain ⟨n, hn⟩ := hpoint sorted.length 0 sorted.length
  rw [insert, hn]
  exact ⟨_, rfl⟩

lemma exists_ascendingRun (last : α) (items : List α) :
    ∃ run, ascendingRun lt last items = .ok run := by
  induction items generalizing last with
  | nil => exact ⟨_, rfl⟩
  | cons a rest ih =>
    obtain ⟨less, hless⟩ := hlt a last
    obtain ⟨run, hrun⟩ := ih a
    rw [ascendingRun, hless, ok_bind, hrun]
    cases less with
    | true => exact ⟨_, rfl⟩
    | false => exact ⟨_, rfl⟩

lemma exists_descendingRun (last : α) (items : List α) :
    ∃ run, descendingRun lt last items = .ok run := by
  induction items generalizing last with
  | nil => exact ⟨_, rfl⟩
  | cons a rest ih =>
    obtain ⟨less, hless⟩ := hlt a last
    obtain ⟨run, hrun⟩ := ih a
    rw [descendingRun, hless, ok_bind, hrun]
    cases less with
    | true => exact ⟨_, rfl⟩
    | false => exact ⟨_, rfl⟩

/-- With a comparison that never fails, in whatever way it orders, sorting succeeds. -/
lemma exists_sort (items : List α) : ∃ out, sort lt items = .ok out := by
  match items with
  | [] => exact ⟨_, rfl⟩
  | [a] => exact ⟨_, rfl⟩
  | a :: b :: rest =>
    obtain ⟨less, hless⟩ := hlt b a
    rw [sort, hless, ok_bind]
    cases less with
    | true =>
      obtain ⟨run, hrun⟩ := exists_descendingRun hlt b rest
      rw [if_pos rfl, hrun, ok_bind]
      exact exists_foldlM_eq_ok (fun a _ sorted => exists_insert hlt sorted a) _
    | false =>
      obtain ⟨run, hrun⟩ := exists_ascendingRun hlt b rest
      rw [if_neg Bool.false_ne_true, hrun, ok_bind]
      exact exists_foldlM_eq_ok (fun a _ sorted => exists_insert hlt sorted a) _

end Total

lemma exists_sortOn {key : α → κ} {less : κ → κ → Except Fault Bool} {items : List α}
    (h : ∀ a ∈ items, ∀ b ∈ items, ∃ r, less (key a) (key b) = .ok r) :
    ∃ out, sortOn key less items = .ok out := by
  -- only the items themselves are compared
  let keyOf : { a // a ∈ items } → κ := fun a => key a.1
  have hless : ∀ a b, ∃ r, less (keyOf a) (keyOf b) = .ok r := fun a b => h a.1 a.2 b.1 b.2
  obtain ⟨out, hout⟩ : ∃ out, sortOn keyOf less items.attach = .ok out := exists_sort hless _
  have hmap : sortOn key less (items.attach.map Subtype.val) =
      List.map Subtype.val <$> sortOn keyOf less items.attach := sortOn_map (fun _ => rfl) _ _
  rw [List.attach_map_subtype_val, hout] at hmap
  exact ⟨_, hmap⟩

end Order

namespace Value

lemma exists_lessThan {a b : Value} (ha : a.number?.isSome = true) (hb : b.number?.isSome = true) :
    ∃ r, a.lessThan b = .ok r := by
  cases a <;> cases b <;> simp_all [number?, lessThan]

lemma numbers_of_difference {v w : Value} {n : Number} (h : v.difference w = .ok n) :
    v.number?.isSome = true ∧ w.number?.isSome = true := by
  unfold difference at h
  split at h
  · rename_i hv hw
    simp [hv, hw]
  · cases h

end Value

lemma Order.exists_pairLess {p q : Value × Value}
    (hp : p.1.number?.isSome = true ∧ p.2.number?.isSome = true)
    (hq : q.1.number?.isSome = true ∧ q.2.number?.isSome = true) :
    ∃ r, pairLess p q = .ok r := by
  rw [pairLess]
  split_ifs
  · exact ⟨_, rfl⟩
  · exact Value.exists_lessThan hp.2 hq.2
  · exact Value.exists_lessThan hp.1 hq.1

namespace Block

/-- What has a distance has numbers for its place. -/
lemma numbers_of_distance {a b : Block} {d : Double} (h : a.distance b = .ok d) :
    ∀ c ∈ [a, b], c.x.number?.isSome = true ∧ c.y.number?.isSome = true := by
  rw [distance, bind_eq_ok] at h
  obtain ⟨dx, hx, h⟩ := h
  obtain ⟨dy, hy, -⟩ := bind_eq_ok.mp h
  have hx := Value.numbers_of_difference hx
  have hy := Value.numbers_of_difference hy
  simp [hx, hy]

/-- Binary64 numbers can be subtracted, multiplied and added without end. -/
lemma exists_distance_of_float {a b : Block} (ha : ∃ x y, a.x = .float x ∧ a.y = .float y)
    (hb : ∃ x y, b.x = .float x ∧ b.y = .float y) : ∃ d, a.distance b = .ok d := by
  obtain ⟨x, y, hax, hay⟩ := ha
  obtain ⟨x', y', hbx, hby⟩ := hb
  rw [distance, hax, hay, hbx, hby]
  exact ⟨_, rfl⟩

end Block

namespace Scene

/-- The coordinates of all blocks are numbers. -/
def Placed (s : Scene) : Prop :=
  ∀ b ∈ s.blocks, b.x.number?.isSome = true ∧ b.y.number?.isSome = true

instance (s : Scene) : Decidable s.Placed := inferInstanceAs (Decidable (∀ b ∈ s.blocks, _))

namespace Placed

variable {s : Scene}

lemma exists_sortBlocks (hs : s.Placed) {blocks : List Block} (hsub : blocks ⊆ s.blocks) :
    ∃ sorted, sortBlocks blocks = .ok sorted :=
  Order.exists_sortOn fun a ha b hb =>
    Order.exists_pairLess (hs a (hsub ha)).symm (hs b (hsub hb)).symm

lemma exists_sortByPlace (hs : s.Placed) (targets : List (Value × Double)) :
    ∃ order, s.sortByPlace targets = .ok order := by
  have hnumber : ∀ v, (s.positionOf v).1.number?.isSome = true ∧
      (s.positionOf v).2.number?.isSome = true := by
    intro v
    rw [positionOf]
    cases h : s.findBlock v with
    | none => exact ⟨rfl, rfl⟩
    | some b => exact (hs b (findBlock_mem h)).symm
  obtain ⟨sorted, hsorted⟩ : ∃ sorted,
      Order.sortOn (fun t => s.positionOf t.1) Order.pairLess targets = .ok sorted :=
    Order.exists_sortOn fun t _ u _ => Order.exists_pairLess (hnumber t.1) (hnumber u.1)
  rw [sortByPlace, hsorted]
  exact ⟨_, rfl⟩

lemma exists_entryBlocks (hs : s.Placed) (hstart : ∃ b ∈ s.blocks, b.kind = .start)
    (l : Links) : ∃ entries, s.entryBlocks l = .ok entries := by
  unfold entryBlocks
  rw [if_pos (by simpa using hstart)]
  exact hs.exists_sortBlocks (List.filter_subset_self _)

end Placed

/-- All ids and ends of wires can be looked up, and there is a distance between any two blocks. -/
structure Measured (s : Scene) : Prop where
  blocks : ∀ b ∈ s.blocks, b.id.isKey = true
  ports : ∀ p ∈ s.ports, p.id.isKey = true ∧ p.nodeId.isKey = true
  connections : ∀ c ∈ s.connections, c.fromPort.isKey = true ∧ c.toPort.isKey = true
  distance : ∀ a ∈ s.blocks, ∀ b ∈ s.blocks, ∃ d, a.distance b = .ok d

namespace Measured

variable {s : Scene}

lemma ends_mem {c : Connection} {joined : (Port × Block) × (Port × Block)}
    (h : s.ends? c = some joined) : joined.1.2 ∈ s.blocks ∧ joined.2.2 ∈ s.blocks := by
  simp only [ends?, Option.bind_eq_bind, Option.bind_eq_some_iff] at h
  obtain ⟨p, -, q, -, h⟩ := h
  split_ifs at h
  simp only [Option.bind_eq_some_iff] at h
  obtain ⟨a, ha, b, hb, h⟩ := h
  cases h
  exact ⟨(Dict.exists_of_get?_ofItems ha).1, (Dict.exists_of_get?_ofItems hb).1⟩

lemma exists_wireEnds (hs : s.Measured) {c : Connection} (hc : c ∈ s.connections) :
    ∃ ends, wireEnds? s.portOwners s.blockTable c = .ok ends := by
  have howner : ∀ {v node : Value}, s.portOwners.get? v = some node → node.isKey = true := by
    intro v node h
    rw [portOwners_get?, Option.map_eq_some_iff] at h
    obtain ⟨p, hp, rfl⟩ := h
    exact (hs.ports p (Dict.exists_of_get?_ofItems hp).1).2
  obtain ⟨hfrom, hto⟩ := hs.connections c hc
  rw [wireEnds?, Value.requireKey_eq_ok.mpr hfrom, Value.requireKey_eq_ok.mpr hto, ok_bind, ok_bind]
  split
  · rename_i p q hp hq
    split_ifs
    · rw [Value.requireKey_eq_ok.mpr (howner hp), Value.requireKey_eq_ok.mpr (howner hq), ok_bind,
        ok_bind]
      split
      · exact ⟨_, rfl⟩
      · exact ⟨_, rfl⟩
    · exact ⟨_, rfl⟩
  · exact ⟨_, rfl⟩

/-- A scene that can be measured has a graph. -/
theorem exists_links (hs : s.Measured) : ∃ l, s.links = .ok l := by
  have hports : s.ports.forM (·.id.requireKey) = .ok () :=
    forM_ok fun p hp => Value.requireKey_eq_ok.mpr (hs.ports p hp).1
  have hblocks : s.blocks.forM (·.id.requireKey) = .ok () :=
    forM_ok fun b hb => Value.requireKey_eq_ok.mpr (hs.blocks b hb)
  have hadd : ∀ c ∈ s.connections, ∀ l,
      ∃ l', addWire s.portOwners s.blockTable l c = .ok l' := by
    intro c hc l
    obtain ⟨ends, hends⟩ := hs.exists_wireEnds hc
    rw [addWire, hends, ok_bind]
    rw [wireEnds?_eq_ok hends]
    cases hjoined : s.ends? c with
    | none => exact ⟨l, rfl⟩
    | some joined =>
      obtain ⟨ha, hb⟩ := ends_mem hjoined
      obtain ⟨d, hd⟩ := hs.distance _ ha _ hb
      simp only [Option.map_some, hd, ok_bind]
      exact ⟨_, rfl⟩
  obtain ⟨l, hl⟩ := exists_foldlM_eq_ok hadd []
  rw [links, hports, hblocks, ok_bind, ok_bind, hl]
  exact ⟨_, rfl⟩

lemma placed (hs : s.Measured) : s.Placed := by
  intro b hb
  obtain ⟨d, hd⟩ := hs.distance b hb b hb
  exact Block.numbers_of_distance hd b (by simp)

end Measured

/-- The graph of a scene in which the beginnings and all the blocks can be put in order. -/
def arranged (s : Scene) : Except Fault Links := do
  let l ← s.links
  let _ ← s.entryBlocks l
  let _ ← sortBlocks s.blocks
  pure l

variable {s : Scene}

lemma arranged_eq_ok {l : Links} : s.arranged = .ok l ↔ s.links = .ok l ∧
    (∃ entries, s.entryBlocks l = .ok entries) ∧ ∃ sorted, sortBlocks s.blocks = .ok sorted := by
  constructor
  · intro h
    obtain ⟨l', hl, h⟩ := bind_eq_ok.mp h
    obtain ⟨entries, hentries, h⟩ := bind_eq_ok.mp h
    obtain ⟨sorted, hsorted, h⟩ := bind_eq_ok.mp h
    cases h
    exact ⟨hl, ⟨entries, hentries⟩, sorted, hsorted⟩
  · rintro ⟨hl, ⟨entries, hentries⟩, sorted, hsorted⟩
    rw [arranged, hl, ok_bind, hentries, ok_bind, hsorted]
    rfl

theorem Measured.exists_arranged (hs : s.Measured) (hstart : ∃ b ∈ s.blocks, b.kind = .start) :
    ∃ l, s.arranged = .ok l := by
  obtain ⟨l, hl⟩ := hs.exists_links
  exact ⟨l, arranged_eq_ok.mpr ⟨hl, hs.placed.exists_entryBlocks hstart l,
    hs.placed.exists_sortBlocks (List.Subset.refl _)⟩⟩

end Scene
end NovelGraph
