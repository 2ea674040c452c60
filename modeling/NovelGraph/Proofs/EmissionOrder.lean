import Mathlib.Data.Fintype.Card
import Mathlib.Data.Fintype.EquivFin
import Mathlib.Data.Fintype.Sets
import NovelGraph.Proofs.Chunks
import NovelGraph.Proofs.Ranking

/-! In which order the blocks of a scene are written. Ranked blocks come first, by rank, and equal
ranks in the order in which they were given; the rest follows in the order of the scene. So a block
is written behind its inputs unless it has a lower rank than one of them. -/
namespace NovelGraph

open Outcome Script

namespace Scene

/-- A wire leads from one block to another. -/
def Wired (s : Scene) (a b : Block) : Prop :=
  ∃ w ∈ s.wires, a.id.same w.source = true ∧ b.id.same w.target = true

instance (s : Scene) (a b : Block) : Decidable (s.Wired a b) :=
  inferInstanceAs (Decidable (∃ w ∈ s.wires, _))

end Scene

namespace Flow

variable {s : Scene} {around : Surroundings} {f : Flow} {entries : List Block} {ranks : Ranks}
  {a b : Block} {r q : Rank}

lemma isReady_iff (hf : s.flow around = .ok f) {id : Value} :
    f.isReady ranks id = true ↔
      ∀ w ∈ s.wires, id.same w.target = true → ranks.contains w.source = true := by
  obtain ⟨hl, -, hi, -⟩ := Scene.flow_eq_ok hf
  rw [isReady, hi, Scene.allSeen_iff hl]
  simp only [Dict.contains_iff]

/-- What leads to a block with a rank was given its rank earlier. -/
lemma Ranking.input_before (hf : s.flow around = .ok f) (h : f.Ranking entries ranks)
    (hw : s.Wired a b) (hb : ranks.get? b.id = some q) :
    ∃ u v r, [(u, r), (v, q)].Sublist ranks ∧ a.id.same u = true ∧ b.id.same v = true := by
  obtain ⟨w, hw, hsource, htarget⟩ := hw
  obtain ⟨⟨v, q⟩, he, hbv, rfl⟩ := Dict.exists_of_get? hb
  obtain ⟨before, after, hcut⟩ := List.append_of_mem he
  have hready := (isReady_iff hf).mp (h.cut hcut).2.2.1 w hw
    (Value.same_trans (Value.same_symm hbv) htarget)
  obtain ⟨⟨u, r⟩, hu, hwu⟩ := List.any_eq_true.mp hready
  refine ⟨u, v, r, ?_, Value.same_trans hsource hwu, hbv⟩
  rw [hcut]
  exact Order.pair_sublist_append.mpr (.inr (.inl ⟨hu, List.mem_cons_self⟩))

/-- The blocks with ranks, in the order in which they are written. -/
def rankedBlocks (f : Flow) (ranks : Ranks) : List Block :=
  (((Order.sortByKey (·.2) Rank.lt ranks).map (·.1)).filterMap f.scene.findBlock).filter
    (!·.kind.isDefinition)

lemma rankedChunks_rankedBlocks (h : f.Ranking entries ranks) {chunks : List Chunk}
    {last : List Value}
    (hc : f.rankedChunks ((Order.sortByKey (·.2) Rank.lt ranks).map (·.1)) [] =
      .ok (chunks, last)) : chunks.map (·.block) = f.rankedBlocks ranks := by
  refine rankedChunks_blocks ?_ (by simp) hc
  have hsymm : ∀ {v w : Value}, v.same w = false → w.same v = false := by
    intro v w hvw
    rwa [Value.same_comm]
  have hperm := (Order.sortByKey_perm (·.2) Rank.lt ranks).map (·.1)
  exact (hperm.pairwise_iff hsymm).mpr (List.pairwise_map.mpr h.distinctKeys)

lemma mem_rankedBlocks (hs : f.scene.DistinctIds) (h : f.Ranking entries ranks)
    (hb : b ∈ f.scene.blocks) (hk : b.kind.isDefinition = false) :
    b ∈ f.rankedBlocks ranks ↔ (ranks.get? b.id).isSome = true := by
  rw [rankedBlocks, List.mem_filter, List.mem_filterMap]
  constructor
  · rintro ⟨⟨id, hid, hfound⟩, -⟩
    obtain ⟨e, he, rfl⟩ := List.mem_map.mp hid
    have hmem := (Order.sortByKey_perm (·.2) Rank.lt ranks).mem_iff.mp he
    rw [h.distinctKeys.get? hmem (Value.same_of_equals (Scene.findBlock_equals hfound))]
    rfl
  · intro hsome
    obtain ⟨r, hr⟩ := Option.isSome_iff_exists.mp hsome
    obtain ⟨e, he, hsame, -⟩ := Dict.exists_of_get? hr
    obtain ⟨c, hc⟩ := h.exists_block he
    obtain rfl := hs.findBlock_eq hb hsame hc
    refine ⟨⟨e.1, ?_, hc⟩, by simp [hk]⟩
    exact List.mem_map_of_mem ((Order.sortByKey_perm (·.2) Rank.lt ranks).mem_iff.mpr he)

lemma pair_sublist_rankedBlocks {u v : Value}
    (h : [(u, r), (v, q)].Sublist (Order.sortByKey (·.2) Rank.lt ranks))
    (hu : f.scene.findBlock u = some a) (hv : f.scene.findBlock v = some b)
    (ha : a.kind.isDefinition = false) (hb : b.kind.isDefinition = false) :
    [a, b].Sublist (f.rankedBlocks ranks) := by
  have hblocks := (((h.map (·.1)).filterMap f.scene.findBlock).filter (!·.kind.isDefinition))
  simpa [rankedBlocks, hu, hv, ha, hb] using hblocks

/-- Of two blocks with ranks, given one after the other, the first is written first unless the
second has the lower rank. -/
lemma pair_sublist_rankedBlocks_iff (hd : (f.rankedBlocks ranks).Nodup) {u v : Value}
    (h : [(u, r), (v, q)].Sublist ranks) (hu : f.scene.findBlock u = some a)
    (hv : f.scene.findBlock v = some b) (ha : a.kind.isDefinition = false)
    (hb : b.kind.isDefinition = false) (hne : a ≠ b) :
    [a, b].Sublist (f.rankedBlocks ranks) ↔ q.lt r = false := by
  have hsort := Order.sortByKey_stablySorted (fun e : Value × Rank => e.2) Rank.isWeakOrder_lt ranks
  rw [← hsort.pair_sublist_iff h]
  constructor
  · intro hab
    by_contra hnot
    have hdiff : (u, r) ≠ (v, q) := by
      intro he
      obtain ⟨rfl, -⟩ := Prod.mk.inj he
      exact hne (Option.some.inj (hu.symm.trans hv))
    have hmem : ∀ e ∈ [(u, r), (v, q)], e ∈ Order.sortByKey (·.2) Rank.lt ranks :=
      fun e he => hsort.perm.mem_iff.mpr (h.subset he)
    have hback := (Order.pair_sublist_total (hmem (u, r) (by simp)) (hmem (v, q) (by simp))
      hdiff).resolve_left hnot
    exact Order.pair_sublist_asymm hd hab (pair_sublist_rankedBlocks hback hv hu hb ha)
  · intro hab
    exact pair_sublist_rankedBlocks hab hu hv ha hb

/-- The blocks without ranks, in the order of the scene. -/
def unrankedBlocks (f : Flow) (ranks : Ranks) : List Block :=
  f.scene.blocks.filter fun b => (ranks.get? b.id).isNone && !b.kind.isDefinition

/-- What is written in a scene with entries: the blocks with ranks, then those without. -/
theorem entryChunks_blocks (hs : f.scene.DistinctIds) {chunks : List Chunk}
    (h : f.entryChunks entries = .ok chunks) :
    ∃ ranks, f.ranks entries = .ok ranks ∧ (f.rankedBlocks ranks).Nodup ∧
      chunks.map (·.block) = f.rankedBlocks ranks ++ f.unrankedBlocks ranks := by
  obtain ⟨ranks, ranked, last, loose, hr, hranked, hloose, rfl⟩ := entryChunks_eq_ok h
  have hwritten := rankedChunks_written hranked
  have hblocks := rankedChunks_rankedBlocks (ranks_ranking hr) hranked
  refine ⟨ranks, hr, hblocks ▸ hwritten.nodup, ?_⟩
  rw [List.map_append, hblocks, blocks_of_forall₂ (fun h => (looseChunk_eq_ok h).1) hloose,
    unrankedBlocks]
  congr 1
  refine List.filter_congr fun c hc => ?_
  cases hk : c.kind.isDefinition with
  | true => simp
  | false =>
    have hmark := hwritten.memberOf_iff_written hs hc
    rw [hblocks, mem_rankedBlocks hs (ranks_ranking hr) hc hk] at hmark
    rw [Bool.not_false, Bool.and_true, Bool.and_true, ← Option.not_isSome, Bool.not_inj_iff,
      Bool.eq_iff_iff, hmark]

/-- When a block is written before one that it leads to. With ranks it is the rank of the second
that must not be lower; blocks without ranks come last, in the order of the scene. -/
def Before (f : Flow) (ranks : Ranks) (a b : Block) : Prop :=
  match ranks.get? a.id, ranks.get? b.id with
  | some r, some q => q.lt r = false
  | some _, none => True
  | none, some _ => False
  | none, none => [a, b].Sublist f.scene.blocks

lemma pair_sublist_blocks_iff (hf : s.flow around = .ok f) (hs : s.DistinctIds)
    (hranking : f.Ranking entries ranks) (hd : (f.rankedBlocks ranks).Nodup) (ha : a ∈ s.blocks)
    (hb : b ∈ s.blocks) (hka : a.kind.isDefinition = false) (hkb : b.kind.isDefinition = false)
    (hw : s.Wired a b) (hne : a ≠ b) :
    [a, b].Sublist (f.rankedBlocks ranks ++ f.unrankedBlocks ranks) ↔ f.Before ranks a b := by
  obtain ⟨-, rfl, -, -⟩ := Scene.flow_eq_ok hf
  have hina := mem_rankedBlocks hs hranking ha hka
  have houtb : b ∈ f.unrankedBlocks ranks ↔ ranks.get? b.id = none := by
    simp [unrankedBlocks, hb, hkb]
  rw [Order.pair_sublist_append, Before]
  cases hrb : ranks.get? b.id with
  | some q =>
    obtain ⟨u, v, r, hsub, hau, hbv⟩ := hranking.input_before hf hw hrb
    have hu : (u, r) ∈ ranks := hsub.subset (by simp)
    have hv : (v, q) ∈ ranks := hsub.subset (by simp)
    have hra := hranking.distinctKeys.get? hu hau
    obtain ⟨c, hc⟩ := hranking.exists_block hu
    obtain ⟨d, hd'⟩ := hranking.exists_block hv
    obtain rfl := hs.findBlock_eq ha hau hc
    obtain rfl := hs.findBlock_eq hb hbv hd'
    have hranked : d ∉ f.unrankedBlocks ranks := by
      rw [houtb, hrb]
      simp
    rw [hra]
    dsimp only
    rw [← pair_sublist_rankedBlocks_iff hd hsub hc hd' hka hkb hne]
    refine ⟨fun h => ?_, .inl⟩
    rcases h with h | ⟨-, hmem⟩ | h
    · exact h
    · exact absurd hmem hranked
    · exact absurd (h.subset (by simp)) hranked
  | none =>
    cases hra : ranks.get? a.id with
    | some r =>
      rw [hra] at hina
      exact ⟨fun _ => trivial, fun _ => .inr (.inl ⟨hina.mpr rfl, houtb.mpr hrb⟩)⟩
    | none =>
      have hfree : a ∉ f.rankedBlocks ranks := by
        rw [hina, hra]
        simp
      have hfilter : [a, b].Sublist (f.unrankedBlocks ranks) ↔ [a, b].Sublist f.scene.blocks :=
        Order.pair_sublist_filter (by simp [hra, hka]) (by simp [hrb, hkb])
      rw [hfilter]
      refine ⟨fun h => ?_, fun h => .inr (.inr h)⟩
      rcases h with h | ⟨hmem, -⟩ | h
      · exact absurd (h.subset (by simp)) hfree
      · exact absurd hmem hfree
      · exact h

end Flow

namespace Scene

/-- Scenes without wires to start blocks and without circles. -/
structure Directed (s : Scene) : Prop where
  found : ∀ b ∈ s.blocks, s.findBlock b.id = some b
  starts : ∀ {a b}, b ∈ s.blocks → s.Wired a b → b.kind ≠ .start
  acyclic : ∀ b ∈ s.blocks, ¬Relation.TransGen s.Wired b b

/-- Scenes without definitions, without wires to start blocks and without circles. -/
structure Layered (s : Scene) : Prop extends s.Directed where
  plain : ∀ b ∈ s.blocks, b.kind.isDefinition = false

/-- Where no circle leads to a block, there is no way without end above it. -/
lemma wellFounded_above {s : Scene} {b : Block}
    (hfree : ∀ a ∈ s.blocks, Relation.ReflTransGen s.Wired a b → ¬Relation.TransGen s.Wired a a) :
    WellFounded fun x y : { c // c ∈ s.blocks } =>
      Relation.TransGen s.Wired x.1 y.1 ∧ Relation.ReflTransGen s.Wired y.1 b := by
  have htrans : IsTrans { c // c ∈ s.blocks } fun x y =>
      Relation.TransGen s.Wired x.1 y.1 ∧ Relation.ReflTransGen s.Wired y.1 b :=
    ⟨fun _ _ _ hxy hyz => ⟨hxy.1.trans hyz.1, hyz.2⟩⟩
  have hirrefl : Std.Irrefl fun x y : { c // c ∈ s.blocks } =>
      Relation.TransGen s.Wired x.1 y.1 ∧ Relation.ReflTransGen s.Wired y.1 b :=
    ⟨fun x hx => hfree x.1 x.2 hx.2 hx.1⟩
  exact Finite.wellFounded_of_trans_of_irrefl _

end Scene

namespace Flow

variable {s : Scene} {around : Surroundings} {f : Flow} {entries : List Block} {ranks : Ranks}
  {a b : Block} {r q : Rank}

/-- A block that is left without a rank waits for an input that is left without one. -/
lemma exists_unranked_input (hf : s.flow around = .ok f) (hr : f.ranks entries = .ok ranks)
    (hb : b ∈ s.blocks) (hfound : (s.findBlock b.id).isSome = true)
    (hplain : b.kind.isDefinition = false) (hk : b.kind ≠ .start)
    (h : ranks.contains b.id = false) :
    ∃ a ∈ s.blocks, s.Wired a b ∧ ranks.contains a.id = false := by
  have hscene := (Scene.flow_eq_ok hf).2.1
  have hmay := ranks_settled hr b (hscene ▸ hb) (hscene ▸ hfound)
  have hwaits : ¬f.isReady ranks b.id = true := by
    intro hready
    simp [mayRank, h, hplain, hk, hready] at hmay
  rw [isReady_iff hf] at hwaits
  push Not at hwaits
  obtain ⟨w, hw, ht, hsource⟩ := hwaits
  obtain ⟨⟨a, ha, hsame⟩, -⟩ := Scene.wire_ends hw
  refine ⟨a, ha, ⟨w, hw, Value.same_symm hsame, ht⟩, ?_⟩
  rw [← Dict.contains_congr ranks hsame]
  simpa using hsource

/-- A start block that nothing leads to gets a rank. -/
lemma ranks_contains_start (hf : s.flow around = .ok f)
    (hstart : ∃ b ∈ s.blocks, b.kind = .start) (he : s.entryBlocks f.links = .ok entries)
    (hr : f.ranks entries = .ok ranks) (hb : b ∈ s.blocks)
    (hfound : (s.findBlock b.id).isSome = true) (hk : b.kind = .start)
    (hfree : ∀ a, ¬s.Wired a b) : ranks.contains b.id = true := by
  have hready : ∀ rs, f.isReady rs b.id = true := by
    intro rs
    rw [isReady_iff hf]
    intro w hw ht
    obtain ⟨⟨a, -, hsource⟩, -⟩ := Scene.wire_ends hw
    exact absurd ⟨w, hw, Value.same_symm hsource, ht⟩ (hfree a)
  refine ranks_contains_entry hr ?_ ((Scene.flow_eq_ok hf).2.1 ▸ hfound) hready
  rw [(Scene.entryBlocks_perm_of_start hstart he).mem_iff]
  simp [hb, hk]

/-- A block gets a rank if neither it nor anything that leads to it is a definition or stands in a
circle. -/
theorem ranks_contains_of_free (hf : s.flow around = .ok f)
    (hfound : ∀ b ∈ s.blocks, (s.findBlock b.id).isSome = true)
    (hstarts : ∀ {a b}, b ∈ s.blocks → s.Wired a b → b.kind ≠ .start)
    (hstart : ∃ b ∈ s.blocks, b.kind = .start) (he : s.entryBlocks f.links = .ok entries)
    (hr : f.ranks entries = .ok ranks) (hb : b ∈ s.blocks)
    (hplain : ∀ a ∈ s.blocks, Relation.ReflTransGen s.Wired a b → a.kind.isDefinition = false)
    (hfree : ∀ a ∈ s.blocks, Relation.ReflTransGen s.Wired a b → ¬Relation.TransGen s.Wired a a) :
    ranks.contains b.id = true := by
  suffices habove : ∀ x : { c // c ∈ s.blocks }, Relation.ReflTransGen s.Wired x.1 b →
      ranks.contains x.1.id = true from habove ⟨b, hb⟩ .refl
  intro x
  induction x using (Scene.wellFounded_above hfree).induction with
  | _ x ih =>
    obtain ⟨c, hc⟩ := x
    intro hcb
    by_contra hnot
    by_cases hk : c.kind = .start
    · have halone : ∀ a, ¬s.Wired a c := fun a hw => hstarts hc hw hk
      exact hnot (ranks_contains_start hf hstart he hr hc (hfound c hc) hk halone)
    · -- what it waits for has a rank already
      obtain ⟨a, ha, hw, hunranked⟩ := exists_unranked_input hf hr hc (hfound c hc)
        (hplain c hc hcb) hk (by simpa using hnot)
      rw [ih ⟨a, ha⟩ ⟨.single hw, hcb⟩ (.head hw hcb)] at hunranked
      cases hunranked

/-- Without circles, a block gets a rank if neither it nor anything that leads to it is a
definition. -/
theorem ranks_contains_of_plain (hf : s.flow around = .ok f) (hs : s.Directed)
    (hstart : ∃ b ∈ s.blocks, b.kind = .start) (he : s.entryBlocks f.links = .ok entries)
    (hr : f.ranks entries = .ok ranks) (hb : b ∈ s.blocks)
    (hplain : ∀ a ∈ s.blocks, Relation.ReflTransGen s.Wired a b → a.kind.isDefinition = false) :
    ranks.contains b.id = true := by
  refine ranks_contains_of_free hf (fun c hc => ?_) hs.starts hstart he hr hb hplain
    fun a ha _ => hs.acyclic a ha
  rw [hs.found c hc]
  rfl

/-- In a layered scene every block gets a rank. -/
theorem ranks_contains_of_layered (hf : s.flow around = .ok f) (hs : s.Layered)
    (hstart : ∃ b ∈ s.blocks, b.kind = .start) (he : s.entryBlocks f.links = .ok entries)
    (hr : f.ranks entries = .ok ranks) : ∀ b ∈ s.blocks, ranks.contains b.id = true :=
  fun _ hb => ranks_contains_of_plain hf hs.toDirected hstart he hr hb fun a ha _ => hs.plain a ha

/-- The level of a rank, or a given one that is higher. -/
def raise (ranks : Ranks) (level : ℕ) (source : Value) : ℕ :=
  match ranks.get? source with
  | some r => max level r.level
  | none => level

lemma le_raise (ranks : Ranks) (level : ℕ) (source : Value) : level ≤ raise ranks level source := by
  unfold raise
  split
  · exact Nat.le_max_left _ _
  · exact Nat.le_refl _

lemma le_foldl_raise (sources : List Value) (level : ℕ) :
    level ≤ sources.foldl (raise ranks) level := by
  induction sources generalizing level with
  | nil => exact Nat.le_refl _
  | cons v rest ih => exact Nat.le_trans (le_raise ranks level v) (ih _)

/-- The level after the inputs is above the level of each of them. -/
lemma lt_levelAfterInputs {id u : Value} (hu : u ∈ f.inputs.sources id)
    (hr : ranks.get? u = some r) : r.level < f.levelAfterInputs ranks id := by
  obtain ⟨before, after, hcut⟩ := List.append_of_mem hu
  have hself : r.level ≤ raise ranks (before.foldl (raise ranks) 0) u := by
    rw [raise, hr]
    exact Nat.le_max_right _ _
  show r.level < (f.inputs.sources id).foldl (raise ranks) 0 + 1
  rw [hcut, List.foldl_append, List.foldl_cons]
  exact Nat.lt_succ_of_le (Nat.le_trans hself (le_foldl_raise after _))

/-- A block with only one input does not get a lower rank than this. -/
lemma Ranking.lt_eq_false_of_only_input (hf : s.flow around = .ok f)
    (h : f.Ranking entries ranks) (hw : s.Wired a b)
    (honly : ∀ w ∈ s.wires, b.id.same w.target = true → a.id.same w.source = true)
    (hentry : ∀ e ∈ entries, b.id.same e.id = false) (ha : ranks.get? a.id = some r)
    (hb : ranks.get? b.id = some q) : q.lt r = false := by
  obtain ⟨hl, -, hi, -⟩ := Scene.flow_eq_ok hf
  obtain ⟨⟨v, q⟩, hmem, hbv, rfl⟩ := Dict.exists_of_get? hb
  obtain ⟨before, after, hcut⟩ := List.append_of_mem hmem
  obtain ⟨-, -, hready, reason⟩ := h.cut hcut
  have hgrow : before <+: ranks := ⟨_, hcut.symm⟩
  cases reason with
  | entry mem same =>
    have hne := hentry _ mem
    rw [same, hbv] at hne
    exact Bool.noConfusion hne
  | along given wired after =>
    obtain ⟨t, ht, rfl⟩ := List.mem_map.mp wired
    obtain ⟨w, hwire, hsource, rfl⟩ := (Scene.mem_next hl).mp ht
    have hsame := honly w hwire hbv
    have hra := Dict.get?_of_isPrefix hgrow given
    rw [Dict.get?_congr ranks (Value.same_trans hsource (Value.same_symm hsame)), ha] at hra
    cases hra
    rcases after with hlevel | ⟨rfl, -⟩
    · exact Rank.lt_eq_false_of_level_lt hlevel
    · exact Rank.lt_irrefl _
  | meeting =>
    refine Rank.lt_eq_false_of_level_lt ?_
    obtain ⟨w, hwire, hsource, htarget⟩ := hw
    have hvt := Value.same_trans (Value.same_symm hbv) htarget
    obtain ⟨u, hu, hau⟩ := Value.exists_of_memberOf
      ((Scene.memberOf_sources hl).mpr ⟨w, hwire, hsource, hvt⟩)
    refine lt_levelAfterInputs (hi ▸ hu) ?_
    have hin := (isReady_iff hf).mp hready w hwire hvt
    rw [Dict.contains_eq_isSome, ← Dict.get?_congr before hsource] at hin
    obtain ⟨r', hr'⟩ := Option.isSome_iff_exists.mp hin
    have hra := Dict.get?_of_isPrefix hgrow hr'
    rw [ha] at hra
    cases hra
    rw [← Dict.get?_congr before hau]
    exact hr'

lemma Ranking.before_of_only_input (hf : s.flow around = .ok f) (h : f.Ranking entries ranks)
    (hw : s.Wired a b)
    (honly : ∀ w ∈ s.wires, b.id.same w.target = true → a.id.same w.source = true)
    (hentry : ∀ e ∈ entries, b.id.same e.id = false) (hra : ranks.contains a.id = true)
    (hrb : ranks.contains b.id = true) : f.Before ranks a b := by
  rw [Dict.contains_eq_isSome, Option.isSome_iff_exists] at hra hrb
  obtain ⟨r, hra⟩ := hra
  obtain ⟨q, hrb⟩ := hrb
  rw [Before, hra, hrb]
  exact h.lt_eq_false_of_only_input hf hw honly hentry hra hrb

end Flow

namespace Scene

variable {s : Scene} {around : Surroundings} {f : Flow} {entries : List Block} {ranks : Ranks}
  {a b : Block}

lemma same_entry_eq_false (hs : s.DistinctIds) (hfound : ∀ b ∈ s.blocks, s.findBlock b.id = some b)
    (hstart : ∃ b ∈ s.blocks, b.kind = .start) (he : s.entryBlocks f.links = .ok entries)
    (hb : b ∈ s.blocks) (hk : b.kind ≠ .start) : ∀ e ∈ entries, b.id.same e.id = false := by
  intro e hmem
  rw [(entryBlocks_perm_of_start hstart he).mem_iff, List.mem_filter, beq_iff_eq] at hmem
  rw [Bool.eq_false_iff]
  intro hsame
  obtain rfl := hs.findBlock_eq hb hsame (hfound e hmem.1)
  exact hk hmem.2

/-- A block with only one input is written behind it if both have ranks. -/
lemma Directed.before_of_only_input (hf : s.flow around = .ok f) (hs : s.DistinctIds)
    (hdir : s.Directed) (hstart : ∃ b ∈ s.blocks, b.kind = .start)
    (he : s.entryBlocks f.links = .ok entries) (hr : f.ranks entries = .ok ranks)
    (hb : b ∈ s.blocks) (hra : ranks.contains a.id = true) (hrb : ranks.contains b.id = true)
    (hw : s.Wired a b)
    (honly : ∀ w ∈ s.wires, b.id.same w.target = true → a.id.same w.source = true) :
    f.Before ranks a b :=
  (Flow.ranks_ranking hr).before_of_only_input hf hw honly
    (same_entry_eq_false hs hdir.found hstart he hb (hdir.starts hb hw)) hra hrb

/-- In a layered scene a block with only one input is written behind it. -/
lemma Layered.before_of_only_input (hf : s.flow around = .ok f) (hs : s.DistinctIds)
    (hlayered : s.Layered) (hstart : ∃ b ∈ s.blocks, b.kind = .start)
    (he : s.entryBlocks f.links = .ok entries) (hr : f.ranks entries = .ok ranks)
    (ha : a ∈ s.blocks) (hb : b ∈ s.blocks) (hw : s.Wired a b)
    (honly : ∀ w ∈ s.wires, b.id.same w.target = true → a.id.same w.source = true) :
    f.Before ranks a b := by
  have hranked := Flow.ranks_contains_of_layered hf hlayered hstart he hr
  exact hlayered.toDirected.before_of_only_input hf hs hstart he hr hb (hranked a ha) (hranked b hb)
    hw honly

/-- What is written in a scene with start blocks: ranked blocks, then the others. -/
lemma script_ranked {cast : Option Cast} {labels : List String} {text : String}
    (hs : s.DistinctIds) (hstart : ∃ b ∈ s.blocks, b.kind = .start)
    (h : s.script cast labels = .ok text) :
    ∃ f entries ranks chunks, s.flow { cast, labels := some labels } = .ok f ∧
      s.entryBlocks f.links = .ok entries ∧ f.ranks entries = .ok ranks ∧
      f.entryChunks entries = .ok chunks ∧ s.chunks { cast, labels := some labels } = .ok chunks ∧
      text = Text.concat (chunks.map (·.text)) ++ "\n" ∧
      f.Covers (s.blocks.filter (!·.kind.isDefinition)) chunks ∧ (f.rankedBlocks ranks).Nodup ∧
      chunks.map (·.block) = f.rankedBlocks ranks ++ f.unrankedBlocks ranks := by
  obtain ⟨start, hmem, hkind⟩ := hstart
  obtain ⟨chunks, hchunks, htext⟩ := script_eq_ok (List.ne_nil_of_mem hmem) h
  obtain ⟨f, entries, hf, he, hc⟩ := chunks_eq_ok hchunks
  have hscene := (flow_eq_ok hf).2.1
  cases entries with
  | nil => exact absurd hkind (kind_ne_start_of_entryBlocks_nil he start hmem)
  | cons e rest =>
    have hentries : f.entryChunks (e :: rest) = .ok chunks := hc
    have hcover := Flow.entryChunks_covers (hscene ▸ hs) hentries
    obtain ⟨ranks, hr, hnodup, hblocks⟩ := Flow.entryChunks_blocks (hscene ▸ hs) hentries
    exact ⟨f, e :: rest, ranks, chunks, hf, he, hr, hentries, hchunks, htext, hscene ▸ hcover,
      hnodup, hblocks⟩

/-- The order of a scene goes by ranks: a block is written behind one that leads to it exactly if
its rank is not lower, or if neither has a rank and it comes later in the scene. Without wires to
start blocks and without circles all blocks have ranks, and those with one input are written behind
it. -/
theorem script_order_by_rank {cast : Option Cast} {labels : List String} {text : String}
    (hs : s.DistinctIds) (hstart : ∃ b ∈ s.blocks, b.kind = .start)
    (h : s.script cast labels = .ok text) :
    ∃ f entries ranks chunks, s.flow { cast, labels := some labels } = .ok f ∧
      s.entryBlocks f.links = .ok entries ∧ f.ranks entries = .ok ranks ∧
      text = Text.concat (chunks.map (·.text)) ++ "\n" ∧
      f.Covers (s.blocks.filter (!·.kind.isDefinition)) chunks ∧
      (∀ a ∈ s.blocks, ∀ b ∈ s.blocks, a.kind.isDefinition = false →
        b.kind.isDefinition = false → s.Wired a b → a ≠ b →
        ([a, b].Sublist (chunks.map (·.block)) ↔ f.Before ranks a b)) ∧
      (s.Layered → (∀ b ∈ s.blocks, ranks.contains b.id = true) ∧
        ∀ a ∈ s.blocks, ∀ b ∈ s.blocks, s.Wired a b →
          (∀ w ∈ s.wires, b.id.same w.target = true → a.id.same w.source = true) →
          [a, b].Sublist (chunks.map (·.block))) := by
  obtain ⟨f, entries, ranks, chunks, hf, he, hr, -, -, htext, hcover, hnodup, hblocks⟩ :=
    script_ranked hs hstart h
  have horder : ∀ a ∈ s.blocks, ∀ b ∈ s.blocks, a.kind.isDefinition = false →
      b.kind.isDefinition = false → s.Wired a b → a ≠ b →
      ([a, b].Sublist (chunks.map (·.block)) ↔ f.Before ranks a b) := by
    intro a ha b hb hka hkb hw hne
    rw [hblocks]
    exact Flow.pair_sublist_blocks_iff hf hs (Flow.ranks_ranking hr) hnodup ha hb hka hkb hw hne
  refine ⟨f, entries, ranks, chunks, hf, he, hr, htext, hcover, horder, fun hlayered => ?_⟩
  refine ⟨Flow.ranks_contains_of_layered hf hlayered hstart he hr, ?_⟩
  intro a ha b hb hw honly
  have hne : a ≠ b := by
    rintro rfl
    exact hlayered.acyclic a ha (.single hw)
  rw [horder a ha b hb (hlayered.plain a ha) (hlayered.plain b hb) hw hne]
  exact hlayered.before_of_only_input hf hs hstart he hr ha hb hw honly

def toldBlock (name : String) (x y : ℤ) : Block :=
  { id := .text name, kind := .narration, params := .object [("text", .text name)],
    x := .int x, y := .int y }

def startBlock (name label : String) (x y : ℤ) : Block :=
  { id := .text name, kind := .start, params := .object [("label", .text label)],
    x := .int x, y := .int y }

/-- A story that goes straight on, and a wire that cuts it short. -/
def shortcutScene : Scene where
  id := .text "s"
  name := .text "Scene"
  label := .text "start"
  blocks :=
    [{ id := .text "s", kind := .start, params := .object [("label", .text "go")],
       x := .int 0, y := .int 0 },
      toldBlock "a" 4 0, toldBlock "b" 8 0, toldBlock "c" 0 3]
  ports :=
    [{ id := .text "s.o", nodeId := .text "s", name := .text "out", direction := .output },
      { id := .text "a.i", nodeId := .text "a", name := .text "in", direction := .input },
      { id := .text "a.o", nodeId := .text "a", name := .text "out", direction := .output },
      { id := .text "b.i", nodeId := .text "b", name := .text "in", direction := .input },
      { id := .text "b.o", nodeId := .text "b", name := .text "out", direction := .output },
      { id := .text "c.i", nodeId := .text "c", name := .text "in", direction := .input }]
  connections :=
    [{ id := .text "1", fromPort := .text "s.o", toPort := .text "a.i" },
      { id := .text "2", fromPort := .text "s.o", toPort := .text "c.i" },
      { id := .text "3", fromPort := .text "a.o", toPort := .text "b.i" },
      { id := .text "4", fromPort := .text "b.o", toPort := .text "c.i" }]

/-- The block where the two ways meet is written before one of its inputs. -/
theorem shortcutScene_script :
    shortcutScene.DistinctIds ∧
      (shortcutScene.wires.map fun w => (w.source, w.target)) =
        [(.text "s", .text "a"), (.text "s", .text "c"), (.text "a", .text "b"),
          (.text "b", .text "c")] ∧
      shortcutScene.script none [] =
        .ok "label go:\n    \"a\"\n    \"c\"\n    \"b\"\n\n" :=
  ⟨by decide, rfl, rfl⟩

theorem shortcutScene_order_by_rank :
    shortcutScene.DistinctIds ∧ (∃ b ∈ shortcutScene.blocks, b.kind = .start) ∧
      ∃ (text : String) (f : Flow) (ranks : Ranks) (chunks : List Chunk),
        shortcutScene.script none [] = .ok text ∧
        text = Text.concat (chunks.map (·.text)) ++ "\n" ∧
        f.Before ranks (toldBlock "a" 4 0) (toldBlock "b" 8 0) ∧
        [toldBlock "a" 4 0, toldBlock "b" 8 0].Sublist (chunks.map (·.block)) ∧
        ¬f.Before ranks (toldBlock "b" 8 0) (toldBlock "c" 0 3) ∧
        ¬[toldBlock "b" 8 0, toldBlock "c" 0 3].Sublist (chunks.map (·.block)) := by
  have hs : shortcutScene.DistinctIds := by decide
  have hstart : ∃ b ∈ shortcutScene.blocks, b.kind = .start := by decide
  obtain ⟨text, hscript⟩ : ∃ text, shortcutScene.script none [] = .ok text := ⟨_, rfl⟩
  obtain ⟨f', entries', ranks', hf', he', hr', hkept, hbroken⟩ : ∃ f entries ranks,
      shortcutScene.flow { cast := none, labels := some [] } = .ok f ∧
      shortcutScene.entryBlocks f.links = .ok entries ∧ f.ranks entries = .ok ranks ∧
      f.Before ranks (toldBlock "a" 4 0) (toldBlock "b" 8 0) ∧
      ¬f.Before ranks (toldBlock "b" 8 0) (toldBlock "c" 0 3) :=
    ⟨_, _, _, rfl, rfl, rfl, rfl, fun h => Bool.noConfusion (show true = false from h)⟩
  obtain ⟨f, entries, ranks, chunks, hf, he, hr, htext, -, horder, -⟩ :=
    script_order_by_rank hs hstart hscript
  cases hf'.symm.trans hf
  cases he'.symm.trans he
  cases hr'.symm.trans hr
  have hab := horder (toldBlock "a" 4 0) (by decide) (toldBlock "b" 8 0) (by decide) rfl rfl
    (by decide) (by decide)
  have hbc := horder (toldBlock "b" 8 0) (by decide) (toldBlock "c" 0 3) (by decide) rfl rfl
    (by decide) (by decide)
  exact ⟨hs, hstart, text, f', ranks', chunks, hscript, htext, hkept, hab.mpr hkept, hbroken,
    hbc.not.mpr hbroken⟩

end Scene
end NovelGraph
