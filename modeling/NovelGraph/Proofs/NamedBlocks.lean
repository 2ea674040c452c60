import NovelGraph.Proofs.EmissionOrder
import NovelGraph.Proofs.Measured

/-! Scenes whose blocks are found under their ids. There the tables of a scene and its graph speak
of blocks: a table has each block under its id, the successors of a block are the blocks that it is
wired to, and its inputs are the blocks that are wired to it, each counted once. -/
namespace NovelGraph

open Outcome

namespace Links

/-- What holds of no inputs and is kept when one more wire is read backwards holds of the graph read
backwards. -/
lemma reverse_induction {P : Inputs → Prop} (nil : P [])
    (wire : ∀ i source target, P i → P (i.update target [] fun sources =>
      if source.memberOf sources then sources else sources ++ [source])) (l : Links) :
    P l.reverse := by
  refine List.foldlRecOn l _ nil fun i hi e _ => ?_
  exact List.foldlRecOn e.2 _ hi fun j hj t _ => wire j e.1 t.1 hj

/-- The sources of a block are listed once. -/
lemma sources_reverse_distinct (l : Links) (v : Value) :
    (l.reverse.sources v).Pairwise fun u w => u.same w = false := by
  refine reverse_induction (P := fun i : Inputs => (i.sources v).Pairwise fun u w =>
    u.same w = false) .nil ?_ l
  intro i source target hi
  have hold : (i.get? v).getD [] = i.sources v := rfl
  rw [Inputs.sources, Dict.get?_update, hold]
  by_cases hv : v.same target = true
  · rw [if_pos hv, Option.getD_some]
    by_cases hs : source.memberOf (i.sources v) = true
    · rw [if_pos hs]
      exact hi
    · rw [if_neg hs, List.pairwise_append]
      refine ⟨hi, List.pairwise_singleton _ _, ?_⟩
      intro u hu w hw
      rw [List.mem_singleton.mp hw]
      by_contra hsame
      apply hs
      exact Value.memberOf_of_mem hu (Value.same_symm (Bool.not_eq_false _ ▸ hsame))
  · rw [if_neg hv, hold]
    exact hi

end Links

namespace Scene

/-- Scenes whose blocks are found under their ids: no two ids are the same, and none is unequal to
itself, as a not-a-number is. -/
structure Named (s : Scene) : Prop where
  keys : s.DistinctKeys
  selfEqual : ∀ b ∈ s.blocks, b.id.equals b.id = true

instance (s : Scene) : Decidable s.Named :=
  decidable_of_iff (s.DistinctKeys ∧ ∀ b ∈ s.blocks, b.id.equals b.id = true)
    ⟨fun h => ⟨h.1, h.2⟩, fun h => ⟨h.keys, h.selfEqual⟩⟩

variable {s : Scene} {l : Links} {a b c : Block} {v : Value}

lemma blockTable_get? (s : Scene) (v : Value) :
    s.blockTable.get? v = s.blocks.reverse.find? fun c => v.same c.id := by
  rw [blockTable, Dict.get?_ofItems]

namespace Named

lemma found (hs : s.Named) (hb : b ∈ s.blocks) : s.findBlock b.id = some b := by
  cases h : s.findBlock b.id with
  | some c => rw [hs.keys.distinctIds.findBlock_eq hb (Value.same_refl _) h]
  | none => exact absurd (hs.selfEqual b hb) (List.find?_eq_none.mp h b hb)

lemma findBlock (hs : s.Named) (hb : b ∈ s.blocks) (h : b.id.same v = true) :
    s.findBlock v = some b := by
  rw [← findBlock_congr s h, hs.found hb]

end Named

namespace DistinctKeys

lemma blockTable (hs : s.DistinctKeys) (hb : b ∈ s.blocks) (h : b.id.same v = true) :
    s.blockTable.get? v = some b := by
  rw [blockTable_get?]
  cases hfind : s.blocks.reverse.find? fun c => v.same c.id with
  | none =>
    have hne := List.find?_eq_none.mp hfind b (by simpa using hb)
    exact absurd (Value.same_symm h) hne
  | some c =>
    have hc : c ∈ s.blocks := by simpa using List.mem_of_find?_eq_some hfind
    have hsame := List.find?_some (p := fun c : Block => v.same c.id) hfind
    rw [hs.eq_of_same hb hc (Value.same_trans h hsame)]

lemma mem_of_memberOf {order : List Block} (hs : s.DistinctKeys)
    (horder : ∀ b ∈ order, b ∈ s.blocks) (hb : b ∈ s.blocks)
    (h : b.id.memberOf (order.map Block.id) = true) : b ∈ order := by
  obtain ⟨v, hv, hsame⟩ := Value.exists_of_memberOf h
  obtain ⟨c, hc, rfl⟩ := List.mem_map.mp hv
  rwa [hs.eq_of_same hb (horder c hc) hsame]

/-- Ids that name different blocks are as many as the blocks among them. -/
lemma length_eq_countP (hs : s.DistinctKeys) {ids : List Value}
    (hd : ids.Pairwise fun u w => u.same w = false)
    (hnamed : ∀ v ∈ ids, ∃ b ∈ s.blocks, b.id.same v = true) :
    ids.length = s.blocks.countP (·.id.memberOf ids) := by
  have hids : (ids.map Value.canon).Nodup := by
    rw [List.Nodup, List.pairwise_map]
    refine hd.imp fun {u w} h heq => ?_
    rw [Value.same_iff.mpr heq] at h
    exact Bool.noConfusion h
  have hblocks : ((s.blocks.filter (·.id.memberOf ids)).map (·.id.canon)).Nodup := by
    refine List.Nodup.map_on ?_ (hs.nodup.filter _)
    intro a ha b hb heq
    exact hs.eq_of_same (List.mem_of_mem_filter ha) (List.mem_of_mem_filter hb)
      (Value.same_iff.mpr heq)
  have hperm : (ids.map Value.canon).Perm
      ((s.blocks.filter (·.id.memberOf ids)).map (·.id.canon)) := by
    rw [List.perm_ext_iff_of_nodup hids hblocks]
    intro w
    simp only [List.mem_map, List.mem_filter]
    constructor
    · rintro ⟨v, hv, rfl⟩
      obtain ⟨b, hb, hsame⟩ := hnamed v hv
      exact ⟨b, ⟨hb, Value.memberOf_of_mem hv hsame⟩, Value.same_iff.mp hsame⟩
    · rintro ⟨b, ⟨-, hmem⟩, rfl⟩
      obtain ⟨v, hv, hsame⟩ := Value.exists_of_memberOf hmem
      exact ⟨v, hv, (Value.same_iff.mp hsame).symm⟩
  rw [List.countP_eq_length_filter, ← List.length_map (f := Value.canon), hperm.length_eq,
    List.length_map]

end DistinctKeys

/-- The successors of a block are the blocks that it is wired to. -/
lemma memberOf_nextIds (hl : s.links = .ok l) (ha : a.id.same v = true) :
    b.id.memberOf (l.nextIds v) = true ↔ s.Wired a b := by
  constructor
  · intro h
    obtain ⟨u, hu, hsame⟩ := Value.exists_of_memberOf h
    obtain ⟨t, ht, rfl⟩ := List.mem_map.mp hu
    obtain ⟨w, hw, hsource, rfl⟩ := (mem_next hl).mp ht
    exact ⟨w, hw, Value.same_trans ha hsource, hsame⟩
  · rintro ⟨w, hw, hsource, htarget⟩
    have hmem : w.hop ∈ l.next v :=
      (mem_next hl).mpr ⟨w, hw, Value.same_trans (Value.same_symm ha) hsource, rfl⟩
    exact Value.memberOf_of_mem (List.mem_map_of_mem hmem) htarget

/-- What follows a block names a block of the scene. -/
lemma exists_of_mem_nextIds (hl : s.links = .ok l) {w : Value} (h : w ∈ l.nextIds v) :
    ∃ b ∈ s.blocks, b.id.same w = true := by
  obtain ⟨t, ht, rfl⟩ := List.mem_map.mp h
  obtain ⟨w, hw, -, rfl⟩ := (mem_next hl).mp ht
  obtain ⟨-, b, hb, hsame⟩ := wire_ends hw
  exact ⟨b, hb, Value.same_symm hsame⟩

/-- A block has as many sources as there are blocks that are wired to it. -/
lemma DistinctKeys.length_sources (hs : s.DistinctKeys) (hl : s.links = .ok l)
    (hb : b.id.same v = true) :
    (l.reverse.sources v).length = s.blocks.countP fun a => decide (s.Wired a b) := by
  rw [hs.length_eq_countP (Links.sources_reverse_distinct l v)]
  · apply List.countP_congr
    intro a _
    rw [memberOf_sources hl, decide_eq_true_eq]
    constructor
    · rintro ⟨w, hw, hsource, htarget⟩
      exact ⟨w, hw, hsource, Value.same_trans hb htarget⟩
    · rintro ⟨w, hw, hsource, htarget⟩
      exact ⟨w, hw, hsource, Value.same_trans (Value.same_symm hb) htarget⟩
  · intro u hu
    obtain ⟨w, hw, hsource, -⟩ :=
      (memberOf_sources hl).mp (Value.memberOf_of_mem hu (Value.same_refl u))
    obtain ⟨⟨a, ha, hsame⟩, -⟩ := wire_ends hw
    exact ⟨a, ha, Value.same_symm (Value.same_trans hsource hsame)⟩

/-- Two ways that meet, a circle, and a picture with a block behind it. -/
def meetingScene : Scene where
  id := .text "s"
  name := .text "Scene"
  label := .text "start"
  blocks :=
    [{ id := .text "end", kind := .narration, params := .object [("text", .text "end")],
        x := .int 0, y := .int 6 },
      { id := .text "right", kind := .narration, params := .object [("text", .text "right")],
        x := .int 4, y := .int 3 },
      { id := .text "left", kind := .narration, params := .object [("text", .text "left")],
        x := .int 0, y := .int 3 },
      { id := .text "top", kind := .start, x := .int 0, y := .int 0 },
      { id := .text "round", kind := .narration, x := .int 8, y := .int 0 },
      { id := .text "picture", kind := .image, x := .int 9, y := .int 0 },
      { id := .text "shown", kind := .narration, x := .int 9, y := .int 1 }]
  ports :=
    [{ id := .text "end.i", nodeId := .text "end", name := .text "in", direction := .input },
      { id := .text "right.i", nodeId := .text "right", name := .text "in", direction := .input },
      { id := .text "right.o", nodeId := .text "right", name := .text "out", direction := .output },
      { id := .text "left.i", nodeId := .text "left", name := .text "in", direction := .input },
      { id := .text "left.o", nodeId := .text "left", name := .text "out", direction := .output },
      { id := .text "top.o", nodeId := .text "top", name := .text "out", direction := .output },
      { id := .text "round.i", nodeId := .text "round", name := .text "in", direction := .input },
      { id := .text "round.o", nodeId := .text "round", name := .text "out", direction := .output },
      { id := .text "picture.o", nodeId := .text "picture", name := .text "out",
        direction := .output },
      { id := .text "shown.i", nodeId := .text "shown", name := .text "in", direction := .input }]
  connections :=
    [{ id := .text "1", fromPort := .text "top.o", toPort := .text "right.i" },
      { id := .text "2", fromPort := .text "top.o", toPort := .text "left.i" },
      { id := .text "3", fromPort := .text "right.o", toPort := .text "end.i" },
      { id := .text "4", fromPort := .text "left.o", toPort := .text "end.i" },
      { id := .text "5", fromPort := .text "round.o", toPort := .text "round.i" },
      { id := .text "6", fromPort := .text "picture.o", toPort := .text "shown.i" }]

example : meetingScene.Named := by decide

/-- A block whose id is not equal to itself. -/
def strayBlock (text : String) (x y : ℤ) : Block := { toldBlock text x y with id := .float .nan }

/-- A story with a block that is not found under its id, and another story. -/
def strayScene : Scene where
  id := .text "s"
  name := .text "Scene"
  label := .text "start"
  blocks :=
    [startBlock "s" "one" 0 0, strayBlock "n" 0 3, startBlock "t" "two" 9 0, toldBlock "c" 9 3]
  ports :=
    [{ id := .text "s.o", nodeId := .text "s", name := .text "out", direction := .output },
      { id := .text "n.i", nodeId := .float .nan, name := .text "in", direction := .input },
      { id := .text "t.o", nodeId := .text "t", name := .text "out", direction := .output },
      { id := .text "c.i", nodeId := .text "c", name := .text "in", direction := .input }]
  connections :=
    [{ id := .text "1", fromPort := .text "s.o", toPort := .text "n.i" },
      { id := .text "2", fromPort := .text "t.o", toPort := .text "c.i" }]

example : strayScene.DistinctKeys ∧ ¬strayScene.Named := by decide

end Scene
end NovelGraph
