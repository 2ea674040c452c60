import Mathlib.Order.Bounds.Basic
import NovelGraph.Proofs.GridPlaces
import NovelGraph.Proofs.NamedBlocks

/-! Listing the blocks of a scene behind their inputs. A block is due once all its inputs are
listed; pictures and characters are never due. A listing takes a due block at every step, the
topmost and leftmost where places are whole numbers, and stops when none is left. So it holds the
least set of blocks that contains each block whose inputs it contains, whatever was taken first. -/
namespace NovelGraph

open Outcome

namespace Block

/-- The place of a block with whole coordinates, from top to bottom and from left to right. -/
def grid (b : Block) : ℤ ×ₗ ℤ := Order.grid b.position

end Block

namespace Scene

/-- The coordinates of all blocks are whole numbers. -/
def OnGrid (s : Scene) : Prop := ∀ b ∈ s.blocks, b.x.IsWhole ∧ b.y.IsWhole

instance (s : Scene) : Decidable s.OnGrid := inferInstanceAs (Decidable (∀ b ∈ s.blocks, _))

/-- A block that can be listed next. -/
structure Due (s : Scene) (done : List Block) (b : Block) : Prop where
  mem : b ∈ s.blocks
  listed : b.kind.isResource = false
  fresh : b ∉ done
  inputs : ∀ a ∈ s.blocks, s.Wired a b → a ∈ done

/-- What a list of blocks is continued with, one due block after the other. -/
inductive Listing (s : Scene) : List Block → List Block → Prop
  | stop {done : List Block} (none : ∀ b, ¬s.Due done b) : Listing s done []
  | next {done order : List Block} {b : Block} (due : s.Due done b)
      (first : s.OnGrid → ∀ c, s.Due done c → b.grid ≤ c.grid)
      (behind : Listing s (done ++ [b]) order) : Listing s done (b :: order)

/-- A set of blocks that contains each block whose inputs it contains, pictures and characters
aside. -/
def ClosedUnderInputs (s : Scene) (listed : Set Block) : Prop :=
  ∀ b ∈ s.blocks, b.kind.isResource = false →
    (∀ a ∈ s.blocks, s.Wired a b → a ∈ listed) → b ∈ listed

namespace Listing

variable {s : Scene} {done order before after : List Block} {a b c : Block}

/-- From any point on, a listing is one behind what was listed before. -/
lemma cut (h : s.Listing done (before ++ after)) : s.Listing (done ++ before) after := by
  induction before generalizing done with
  | nil => simpa using h
  | cons b before ih =>
    cases h with
    | next due first behind => simpa using ih behind

lemma due (h : s.Listing done (before ++ b :: after)) : s.Due (done ++ before) b := by
  cases h.cut with
  | next due first behind => exact due

lemma first (h : s.Listing done (before ++ b :: after)) (hs : s.OnGrid)
    (hc : s.Due (done ++ before) c) : b.grid ≤ c.grid := by
  cases h.cut with
  | next due first behind => exact first hs c hc

lemma nodup (h : s.Listing done order) (hd : done.Nodup) : (done ++ order).Nodup := by
  induction h with
  | stop none => simpa using hd
  | next due first behind ih =>
    have hnext := hd.concat due.fresh
    rw [List.concat_eq_append] at hnext
    simpa using ih hnext

/-- At its end nothing is due. -/
lemma not_due (h : s.Listing done order) (b : Block) : ¬s.Due (done ++ order) b := by
  induction h with
  | stop none => simpa using none b
  | next due first behind ih => simpa using ih

lemma subset_of_closed (h : s.Listing done order) {S : Set Block} (hS : s.ClosedUnderInputs S)
    (hdone : ∀ b ∈ done, b ∈ S) : ∀ b ∈ order, b ∈ S := by
  induction h with
  | stop none => simp
  | @next done order b due first behind ih =>
    have hb : b ∈ S := hS b due.mem due.listed fun a ha hw => hdone a (due.inputs a ha hw)
    have hrest := ih fun c hc => by
      rcases List.mem_append.mp hc with hc | hc
      · exact hdone c hc
      · rwa [List.mem_singleton.mp hc]
    exact List.forall_mem_cons.mpr ⟨hb, hrest⟩

/-- Whatever is taken first, a listing of a scene holds the same blocks. -/
lemma isLeast (h : s.Listing [] order) :
    IsLeast {listed : Set Block | s.ClosedUnderInputs listed} {b | b ∈ order} := by
  constructor
  · intro b hb hk hinputs
    by_contra hfresh
    exact h.not_due b ⟨hb, hk, by simpa using hfresh, by simpa using hinputs⟩
  · intro S hS b hb
    exact h.subset_of_closed hS (by simp) b hb

end Listing
end Scene
end NovelGraph
