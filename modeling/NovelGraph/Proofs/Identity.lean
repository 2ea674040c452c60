import Mathlib.Data.List.Pairwise
import NovelGraph.Proofs.Values
import NovelGraph.Story

/-! Blocks by their ids: what it means for ids to be told apart, and what a look-up finds then. -/
namespace NovelGraph

namespace Block

variable {order : List Block} {ids : List Value}

/-- Ids that name blocks one by one have the contents of their ids. -/
lemma canon_named (h : List.Forall₂ (fun (b : Block) id => b.id.same id = true) order ids) :
    ids.map Value.canon = order.map (·.id.canon) := by
  induction h with
  | nil => rfl
  | cons hsame _ ih => rw [List.map_cons, List.map_cons, ih, Value.same_iff.mp hsame]

lemma memberOf_named (h : List.Forall₂ (fun (b : Block) id => b.id.same id = true) order ids)
    (v : Value) : v.memberOf (order.map Block.id) = v.memberOf ids := by
  rw [Bool.eq_iff_iff, Value.memberOf_iff, Value.memberOf_iff, canon_named h, List.map_map]
  rfl

end Block

namespace Scene

/-- No two blocks have the same id, as keys of a table are the same. -/
def DistinctKeys (s : Scene) : Prop := s.blocks.Pairwise fun a b => a.id.same b.id = false

instance (s : Scene) : Decidable s.DistinctKeys := inferInstanceAs (Decidable (List.Pairwise _ _))

/-- No two blocks have equal ids. -/
def DistinctIds (s : Scene) : Prop := s.blocks.Pairwise fun a b => a.id.equals b.id = false

instance (s : Scene) : Decidable s.DistinctIds :=
  inferInstanceAs (Decidable (List.Pairwise _ _))

variable {s : Scene}

namespace DistinctKeys

lemma eq_of_same (hs : s.DistinctKeys) {a b : Block} (ha : a ∈ s.blocks) (hb : b ∈ s.blocks)
    (h : a.id.same b.id = true) : a = b := by
  by_contra hne
  have hsymm : Std.Symm fun x y : Block => x.id.same y.id = false := by
    constructor
    intro x y hxy
    rwa [Value.same_comm]
  have hd := List.Pairwise.forall hs ha hb hne
  simp [hd] at h

lemma nodup (hs : s.DistinctKeys) : s.blocks.Nodup := by
  refine hs.imp ?_
  rintro a b hne rfl
  rw [Value.same_refl] at hne
  exact Bool.noConfusion hne

/-- Equal ids are the same keys. -/
lemma distinctIds (hs : s.DistinctKeys) : s.DistinctIds :=
  hs.imp fun hne => Bool.eq_false_iff.mpr fun h =>
    Bool.eq_false_iff.mp hne (Value.same_of_equals h)

end DistinctKeys

lemma DistinctIds.eq_of_equals (hs : s.DistinctIds) {a b : Block} (ha : a ∈ s.blocks)
    (hb : b ∈ s.blocks) (h : a.id.equals b.id = true) : a = b := by
  by_contra hne
  have hsymm : Std.Symm fun x y : Block => x.id.equals y.id = false := by
    constructor
    intro x y hxy
    rwa [Value.equals_comm]
  have hd := List.Pairwise.forall hs ha hb hne
  simp [hd] at h

lemma findBlock_mem {id : Value} {b : Block} (h : s.findBlock id = some b) : b ∈ s.blocks :=
  List.mem_of_find?_eq_some h

lemma findBlock_equals {id : Value} {b : Block} (h : s.findBlock id = some b) :
    b.id.equals id = true :=
  List.find?_some (p := fun c : Block => c.id.equals id) h

lemma findBlock_congr (s : Scene) {v w : Value} (h : v.same w = true) :
    s.findBlock v = s.findBlock w := by
  unfold findBlock
  congr 1
  funext b
  exact Value.equals_congr_right b.id h

/-- With distinct ids a look-up finds no other block than the one that has the id. -/
lemma DistinctIds.findBlock_eq (hs : s.DistinctIds) {b c : Block} (hb : b ∈ s.blocks) {id : Value}
    (h : b.id.same id = true) (hfound : s.findBlock id = some c) : c = b := by
  refine hs.eq_of_equals (findBlock_mem hfound) hb ?_
  rw [Value.equals_congr_right _ h]
  exact findBlock_equals hfound

/-- A block that was found is found under its own id. -/
lemma findBlock_self {id : Value} {b : Block} (h : s.findBlock id = some b) :
    s.findBlock b.id = some b := by
  rw [findBlock_congr s (Value.same_of_equals (findBlock_equals h)), h]

/-- Blocks that are found under their ids are listed once. -/
lemma DistinctIds.nodup (hs : s.DistinctIds) (hfound : ∀ b ∈ s.blocks, s.findBlock b.id = some b) :
    s.blocks.Nodup := by
  refine hs.imp_of_mem ?_
  rintro a c ha - hne rfl
  rw [findBlock_equals (hfound a ha)] at hne
  exact Bool.noConfusion hne

end Scene
end NovelGraph
