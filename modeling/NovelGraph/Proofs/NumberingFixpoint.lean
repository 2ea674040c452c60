import NovelGraph.Proofs.EmissionOrder
import NovelGraph.Proofs.Listing
import NovelGraph.Proofs.NumberingDepth

/-! Where numbering ends. The passes stop at a fixpoint, before their number runs out: what has a
rank has it for all that leads to it, and what is left waits for a block that is left too. So the
blocks without ranks are those that stand in circles and those behind them. -/
namespace NovelGraph

open Outcome Script Relation

namespace Scene

variable {s : Scene}

lemma isSome_findBlock {b : Block} (hb : b ∈ s.blocks) (hid : b.id.equals b.id = true) :
    (s.findBlock b.id).isSome = true := by
  rw [findBlock, List.find?_isSome]
  exact ⟨b, hb, hid⟩

end Scene

namespace Flow

variable {s : Scene} {around : Surroundings} {f : Flow} {entries sorted : List Block}
  {first ranks : Ranks} {a b : Block} {m n : ℕ}

section Fixpoint

lemma rankPasses_idle (hs : Scene.sortBlocks f.scene.blocks = .ok sorted)
    (h : f.rankPass sorted ranks = .ok (ranks, false)) (n : ℕ) :
    f.rankPasses n ranks = .ok ranks := by
  cases n with
  | zero => rfl
  | succ n =>
    rw [rankPasses, hs, ok_bind, h]
    rfl

/-- Passes that have come to a fixpoint come to it however many more are allowed. -/
lemma rankPasses_of_le (hs : Scene.sortBlocks f.scene.blocks = .ok sorted)
    (hidle : f.rankPass sorted ranks = .ok (ranks, false)) (h : f.rankPasses m first = .ok ranks)
    (hle : m ≤ n) : f.rankPasses n first = .ok ranks := by
  induction m generalizing first n with
  | zero =>
    cases h
    exact rankPasses_idle hs hidle n
  | succ m ih =>
    obtain ⟨n, rfl⟩ := Nat.exists_eq_add_of_le' (Nat.one_le_of_lt hle)
    rw [rankPasses, hs, ok_bind] at h ⊢
    obtain ⟨⟨rs, progress⟩, hpass, h⟩ := bind_eq_ok.mp h
    rw [hpass, ok_bind]
    cases progress with
    | false => exact h
    | true => exact ih h (Nat.le_of_succ_le_succ hle)

/-- What leads to a block with a rank has a rank. -/
lemma Ranking.contains_input (hf : s.flow around = .ok f) (h : f.Ranking entries ranks)
    (hw : s.Wired a b) (hb : ranks.contains b.id = true) : ranks.contains a.id = true := by
  rw [Dict.contains_eq_isSome, Option.isSome_iff_exists] at hb
  obtain ⟨q, hq⟩ := hb
  obtain ⟨u, v, r, hsub, hau, -⟩ := h.input_before hf hw hq
  rw [Dict.contains, List.any_eq_true]
  exact ⟨(u, r), hsub.subset (by simp), hau⟩

lemma Ranking.contains_above (hf : s.flow around = .ok f) (h : f.Ranking entries ranks)
    (hab : ReflTransGen s.Wired a b) (hb : ranks.contains b.id = true) :
    ranks.contains a.id = true := by
  induction hab using ReflTransGen.head_induction_on with
  | refl => exact hb
  | head hw _ ih => exact h.contains_input hf hw ih

/-- A block in a circle gets no rank: the block before it would need one first. -/
lemma Ranking.contains_of_circle (hf : s.flow around = .ok f) (h : f.Ranking entries ranks)
    (hround : TransGen s.Wired a a) : ranks.contains a.id = false := by
  induction h generalizing a with
  | nil => rfl
  | @add ranks id rank _ _ _ _ ready _ ih =>
    obtain ⟨b, hab, w, hw, hsource, htarget⟩ := TransGen.tail'_iff.mp hround
    have hb : ranks.contains b.id = false := ih (.head' ⟨w, hw, hsource, htarget⟩ hab)
    have hlast : a.id.same id = false := by
      rw [Bool.eq_false_iff]
      intro hsame
      have hin := (isReady_iff hf).mp ready w hw (Value.same_trans (Value.same_symm hsame) htarget)
      rw [← Dict.contains_congr ranks hsource, hb] at hin
      cases hin
    rw [Dict.contains, List.any_append, ← Dict.contains, ih hround]
    simpa using hlast

end Fixpoint
end Flow

namespace Scene

variable {s : Scene} {around : Surroundings} {f : Flow}

/-- Numbering a scene with start blocks. A block with a rank has it after all its inputs, and a
block that is found under its id and left without a rank waits for another. Where all blocks are
found, numbering comes to an end where no pass numbers anything, so that a greater number of passes
would not matter; and without definitions and wires to start blocks those are left that stand in
circles or behind them. -/
theorem numbering_reaches_fixpoint (hf : s.flow around = .ok f)
    (hstart : ∃ b ∈ s.blocks, b.kind = .start) :
    (s.Placed →
      ∃ entries ranks, s.entryBlocks f.links = .ok entries ∧ f.ranks entries = .ok ranks) ∧
    ∀ entries ranks, s.entryBlocks f.links = .ok entries → f.ranks entries = .ok ranks →
      (∀ a b, s.Wired a b → ranks.contains b.id = true → ranks.contains a.id = true) ∧
      (∀ b ∈ s.blocks, b.id.equals b.id = true → b.kind.isDefinition = false → b.kind ≠ .start →
        ranks.contains b.id = false →
        ∃ a ∈ s.blocks, s.Wired a b ∧ ranks.contains a.id = false) ∧
      ((∀ b ∈ s.blocks, b.id.equals b.id = true) →
        (∃ sorted, sortBlocks s.blocks = .ok sorted ∧
          f.rankPass sorted ranks = .ok (ranks, false)) ∧
        (∃ first, entries.foldlM f.rankEntry [] = .ok first ∧
          ∀ n, 3 * s.blocks.length ≤ n → f.rankPasses n first = .ok ranks) ∧
        ((∀ b ∈ s.blocks, b.kind.isDefinition = false) →
          (∀ a ∈ s.blocks, ∀ b ∈ s.blocks, s.Wired a b → b.kind ≠ .start) →
          ∀ b ∈ s.blocks, ranks.contains b.id = false ↔
            ∃ a ∈ s.blocks, TransGen s.Wired a a ∧ ReflTransGen s.Wired a b)) := by
  have hscene := (flow_eq_ok hf).2.1
  refine ⟨fun hplaced => ?_, fun entries ranks he hr => ?_⟩
  · obtain ⟨entries, he⟩ := hplaced.exists_entryBlocks hstart f.links
    have hplaced : f.scene.Placed := hscene ▸ hplaced
    obtain ⟨ranks, hr⟩ := Flow.exists_ranks (fun id => hplaced.exists_sortByPlace _)
      (hplaced.exists_sortBlocks (List.Subset.refl _)) entries
    exact ⟨entries, ranks, he, hr⟩
  have hranking := Flow.ranks_ranking hr
  refine ⟨fun a b hw hb => hranking.contains_input hf hw hb, ?_, fun hids => ?_⟩
  · intro b hb hid hplain hk hunranked
    exact Flow.exists_unranked_input hf hr hb (isSome_findBlock hb hid) hplain hk hunranked
  have hfound : ∀ b ∈ s.blocks, (s.findBlock b.id).isSome = true :=
    fun b hb => isSome_findBlock hb (hids b hb)
  obtain ⟨first, hfirst, hpasses⟩ := Flow.ranks_eq_ok hr
  rw [hscene] at hpasses
  obtain ⟨sorted, hsorted⟩ : ∃ sorted, sortBlocks f.scene.blocks = .ok sorted := by
    obtain ⟨start, hmem, -⟩ := hstart
    have hlen := List.length_pos_of_mem hmem
    obtain ⟨n, hn⟩ : ∃ n, 3 * s.blocks.length = n + 1 := ⟨3 * s.blocks.length - 1, by omega⟩
    rw [hn] at hpasses
    obtain ⟨sorted, -, hsorted, -⟩ := Flow.rankPasses_eq_ok hpasses
    exact ⟨sorted, hsorted⟩
  have hidle : f.rankPass sorted ranks = .ok (ranks, false) := by
    refine Flow.rankPass_idle fun b hb => ?_
    have hmem := (Order.sortOn_perm hsorted).mem_iff.mp hb
    exact Flow.ranks_settled hr b hmem (hscene ▸ hfound b (hscene ▸ hmem))
  refine ⟨⟨sorted, hscene ▸ hsorted, hidle⟩,
    ⟨first, hfirst, fun n hn => Flow.rankPasses_of_le hsorted hidle hpasses hn⟩, ?_⟩
  intro hplain hstarts b hb
  constructor
  · have hstarts : ∀ {a b}, b ∈ s.blocks → s.Wired a b → b.kind ≠ .start := by
      rintro a b hb ⟨w, hw, -, htarget⟩
      obtain ⟨⟨c, hc, hsource⟩, -⟩ := wire_ends hw
      exact hstarts c hc b hb ⟨w, hw, Value.same_symm hsource, htarget⟩
    intro hunranked
    by_contra hnone
    push Not at hnone
    have hranked := Flow.ranks_contains_of_free hf hfound hstarts hstart he hr hb
      (fun a ha _ => hplain a ha) fun a ha hab hround => hnone a ha hround hab
    rw [hranked] at hunranked
    cases hunranked
  · rintro ⟨a, -, hround, hab⟩
    rw [Bool.eq_false_iff]
    intro hranked
    have ha := hranking.contains_above hf hab hranked
    rw [hranking.contains_of_circle hf hround] at ha
    cases ha

/-- A way past a circle, with a block behind it. -/
def roundScene : Scene where
  id := .text "s"
  name := .text "Scene"
  label := .text "start"
  blocks :=
    [startBlock "top" "go" 0 0, toldBlock "on" 0 3, toldBlock "there" 4 3, toldBlock "back" 8 3,
      toldBlock "end" 4 6]
  ports :=
    [{ id := .text "top.o", nodeId := .text "top", name := .text "out", direction := .output },
      { id := .text "on.i", nodeId := .text "on", name := .text "in", direction := .input },
      { id := .text "there.i", nodeId := .text "there", name := .text "in", direction := .input },
      { id := .text "there.o", nodeId := .text "there", name := .text "out", direction := .output },
      { id := .text "back.i", nodeId := .text "back", name := .text "in", direction := .input },
      { id := .text "back.o", nodeId := .text "back", name := .text "out", direction := .output },
      { id := .text "end.i", nodeId := .text "end", name := .text "in", direction := .input }]
  connections :=
    [{ id := .text "1", fromPort := .text "top.o", toPort := .text "on.i" },
      { id := .text "2", fromPort := .text "top.o", toPort := .text "there.i" },
      { id := .text "3", fromPort := .text "there.o", toPort := .text "back.i" },
      { id := .text "4", fromPort := .text "back.o", toPort := .text "there.i" },
      { id := .text "5", fromPort := .text "back.o", toPort := .text "end.i" }]

/-- The block behind the circle is left without a rank. -/
theorem roundScene_fixpoint :
    (∀ b ∈ roundScene.blocks, b.id.equals b.id = true) ∧
      (∃ b ∈ roundScene.blocks, b.kind = .start) ∧
      ∃ (f : Flow) (entries : List Block) (ranks : Ranks), roundScene.flow {} = .ok f ∧
        roundScene.entryBlocks f.links = .ok entries ∧ f.ranks entries = .ok ranks ∧
        ranks.contains (.text "on") = true ∧ ranks.contains (.text "end") = false := by
  have hids : ∀ b ∈ roundScene.blocks, b.id.equals b.id = true := by decide
  have hstart : ∃ b ∈ roundScene.blocks, b.kind = .start := by decide
  obtain ⟨f, entries, ranks, hf, he, hr, hon⟩ : ∃ (f : Flow) (entries : List Block) (ranks : Ranks),
      roundScene.flow {} = .ok f ∧ roundScene.entryBlocks f.links = .ok entries ∧
        f.ranks entries = .ok ranks ∧ ranks.contains (.text "on") = true :=
    ⟨_, _, _, rfl, rfl, rfl, rfl⟩
  obtain ⟨-, -, hfixed⟩ := (numbering_reaches_fixpoint hf hstart).2 entries ranks he hr
  obtain ⟨-, -, hleft⟩ := hfixed hids
  have hthere : roundScene.Wired (toldBlock "there" 4 3) (toldBlock "back" 8 3) := by decide
  have hback : roundScene.Wired (toldBlock "back" 8 3) (toldBlock "there" 4 3) := by decide
  have hend : roundScene.Wired (toldBlock "back" 8 3) (toldBlock "end" 4 6) := by decide
  refine ⟨hids, hstart, f, entries, ranks, hf, he, hr, hon, ?_⟩
  exact (hleft (by decide) (by decide) (toldBlock "end" 4 6) (by decide)).mpr
    ⟨toldBlock "back" 8 3, by decide, .tail (.single hback) hthere, .single hend⟩

/-- A block that is not found under its id is left without a rank, although its only input has one,
and each pass takes it for progress: the passes go on until their number runs out. -/
theorem strayScene_not_fixed :
    strayScene.DistinctKeys ∧ (∃ b ∈ strayScene.blocks, b.kind = .start) ∧
      strayBlock "n" 0 3 ∈ strayScene.blocks ∧
      ∃ (f : Flow) (entries sorted : List Block) (ranks : Ranks), strayScene.flow {} = .ok f ∧
        strayScene.entryBlocks f.links = .ok entries ∧ f.ranks entries = .ok ranks ∧
        ranks.contains (strayBlock "n" 0 3).id = false ∧
        (∀ a ∈ strayScene.blocks, strayScene.Wired a (strayBlock "n" 0 3) →
          ranks.contains a.id = true) ∧
        sortBlocks strayScene.blocks = .ok sorted ∧
        f.rankPass sorted ranks = .ok (ranks, true) :=
  ⟨by decide, by decide, by decide, _, _, _, _, rfl, rfl, rfl, rfl, by decide, rfl, rfl⟩

end Scene
end NovelGraph
