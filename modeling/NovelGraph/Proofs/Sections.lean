import NovelGraph.Proofs.Stems

/-! Under which label a block is written. The stem of a start block follows its label; all blocks
behind a fork come after the labels of all start blocks, and so under the last of them. -/
namespace NovelGraph

open Outcome Relation Script

/-- Of the start blocks before a block, the given one is the last. -/
def WrittenUnder (written : List Block) (start b : Block) : Prop :=
  ∃ before between after, written = before ++ start :: (between ++ b :: after) ∧
    ∀ c ∈ between, c.kind ≠ .start

lemma WrittenUnder.eq {written : List Block} {start other b : Block} (hd : written.Nodup)
    (hstart : start.kind = .start) (hother : other.kind = .start)
    (h : WrittenUnder written start b) (h' : WrittenUnder written other b) : start = other := by
  obtain ⟨before, between, after, rfl, hbetween⟩ := h
  obtain ⟨before', between', after', heq, hbetween'⟩ := h'
  rw [← List.cons_append, ← List.append_assoc] at hd
  obtain ⟨-, hafter, hdisjoint⟩ := List.nodup_append.mp hd
  have hb : b ∉ before ++ start :: between := fun hmem => hdisjoint b hmem b (by simp) rfl
  rw [← List.cons_append, ← List.append_assoc, ← List.cons_append, ← List.append_assoc,
    List.append_cons_inj_of_notMem hb (List.nodup_cons.mp hafter).1] at heq
  -- what stands before the block ends in one start block and others in only one way
  rcases List.append_eq_append_iff.mp heq.1 with ⟨mid, rfl, hmid⟩ | ⟨mid, rfl, hmid⟩
  · cases mid with
    | nil => exact (List.cons.inj hmid).1
    | cons c mid =>
      obtain ⟨-, rfl⟩ := List.cons.inj hmid
      exact absurd hother (hbetween other (by simp))
  · cases mid with
    | nil => exact (List.cons.inj hmid).1.symm
    | cons c mid =>
      obtain ⟨-, rfl⟩ := List.cons.inj hmid
      exact absurd hstart (hbetween' start (by simp))

lemma WrittenUnder.append {written : List Block} {start b : Block} (h : WrittenUnder written start b)
    (rest : List Block) : WrittenUnder (written ++ rest) start b := by
  obtain ⟨before, between, after, rfl, hbetween⟩ := h
  exact ⟨before, between, after ++ rest, by simp, hbetween⟩

namespace Scene

/-- Scenes of start blocks and narration, without circles, where each narration belongs to one start
block. -/
structure Sectioned (s : Scene) : Prop where
  found : ∀ b ∈ s.blocks, s.findBlock b.id = some b
  kinds : ∀ b ∈ s.blocks, b.kind = .start ∨ b.kind = .narration
  acyclic : ∀ b ∈ s.blocks, ¬TransGen s.Wired b b
  owned : ∀ b ∈ s.blocks, b.kind ≠ .start → ∃ start ∈ s.blocks, start.kind = .start ∧
    TransGen s.Wired start b ∧ ∀ other ∈ s.blocks, other.kind = .start →
      TransGen s.Wired other b → other = start

namespace Sectioned

variable {s : Scene} {start a b : Block}

lemma plain (h : s.Sectioned) (hb : b ∈ s.blocks) : b.kind.isDefinition = false := by
  rcases h.kinds b hb with hk | hk
  · rw [hk]
    rfl
  · rw [hk]
    rfl

lemma eq_owner (h : s.Sectioned) (hb : b ∈ s.blocks) (hk : b.kind ≠ .start) {other : Block}
    (hstart : start ∈ s.blocks) (hsk : start.kind = .start) (hreach : TransGen s.Wired start b)
    (hother : other ∈ s.blocks) (hok : other.kind = .start) (hreach' : TransGen s.Wired other b) :
    other = start := by
  obtain ⟨owner, -, -, -, honly⟩ := h.owned b hb hk
  rw [honly start hstart hsk hreach, honly other hother hok hreach']

/-- Whatever leads to a block is reached from its start block, or is that. -/
lemma reaches_input (h : s.Sectioned) (hb : b ∈ s.blocks) (hk : b.kind ≠ .start)
    (hstart : start ∈ s.blocks) (hsk : start.kind = .start) (hreach : TransGen s.Wired start b)
    (ha : a ∈ s.blocks) (hab : TransGen s.Wired a b) : a = start ∨ TransGen s.Wired start a := by
  by_cases hak : a.kind = .start
  · exact .inl (h.eq_owner hb hk hstart hsk hreach ha hak hab)
  · obtain ⟨owner, howner, hok, hoa, -⟩ := h.owned a ha hak
    rw [h.eq_owner hb hk hstart hsk hreach howner hok (hoa.trans hab)] at hoa
    exact .inr hoa

lemma only_input (hs : s.DistinctIds) (h : s.Sectioned) (hstart : start ∈ s.blocks)
    (hsk : start.kind = .start) (ha : s.Stem start a) (hb : b ∈ s.blocks) (hk : b.kind ≠ .start)
    (hnext : s.OnlyNext a b) {w : Wire} (hw : w ∈ s.wires) (ht : b.id.same w.target = true) :
    a.id.same w.source = true := by
  obtain ⟨⟨x, hx, hsource⟩, -⟩ := wire_ends hw
  have hxb : s.Wired x b := ⟨w, hw, Value.same_symm hsource, ht⟩
  have hreach : TransGen s.Wired start b := .tail' ha.reaches hnext.wired
  have hstem : s.Stem x a := by
    rcases h.reaches_input hb hk hstart hsk hreach hx (.single hxb) with rfl | hsx
    · exact ha
    · rcases ha.cases_reach hsx with ⟨d, hd, hda, hxd⟩ | hax
      · rwa [← hs.findBlock_eq hx hxd (h.found d (hd.mem hstart))]
      · -- behind the stem there is no way back to it
        obtain ⟨y, hay, hyx⟩ := TransGen.head'_iff.mp hax
        have hyb := hnext.same_of_wired hay
        refine absurd ?_ (h.acyclic b hb)
        rcases hyx.cases_head with rfl | ⟨z, hyz, hzx⟩
        · exact .single (hxb.congr_left (Value.same_symm hyb))
        · exact .tail' (.head (hyz.congr_left (Value.same_symm hyb)) hzx) hxb
  rcases hstem.cases_head with rfl | ⟨c, hc, hxc, hca⟩
  · exact Value.same_symm hsource
  · obtain rfl := hs.findBlock_eq hb (hxc.same_of_wired hxb) (h.found c hc)
    exact absurd (.tail' hca.reaches hnext.wired) (h.acyclic c hc)

/-- Nothing leads to a start block with narration behind it. -/
lemma not_wired_start (h : s.Sectioned) (hstart : start ∈ s.blocks) (hsk : start.kind = .start)
    (hb : b ∈ s.blocks) (hk : b.kind ≠ .start) (hreach : TransGen s.Wired start b) (a : Block) :
    ¬s.Wired a start := by
  rintro ⟨w, hw, -, htarget⟩
  obtain ⟨⟨x, hx, hsource⟩, -⟩ := wire_ends hw
  have hxs : s.Wired x start := ⟨w, hw, Value.same_symm hsource, htarget⟩
  rcases h.reaches_input hb hk hstart hsk hreach hx (.head hxs hreach) with rfl | hsx
  · exact h.acyclic x hx (.single hxs)
  · exact h.acyclic start hstart (.tail hsx hxs)

lemma clearStem (hs : s.DistinctIds) (h : s.Sectioned) (hstart : start ∈ s.blocks)
    (hsk : start.kind = .start) (hfree : ∀ a, ¬s.Wired a start) : s.ClearStem start where
  found := h.found
  mem := hstart
  free := hfree
  loop := fun c hc hloop => h.acyclic c hc (.single hloop)
  only := fun ha hc hck hnext _ hw ht => h.only_input hs hstart hsk ha hc hck hnext hw ht

end Sectioned
end Scene

namespace Flow

variable {s : Scene} {around : Surroundings} {f : Flow} {entries : List Block} {ranks : Ranks}
  {start b : Block}

/-- The blocks of given ranks that are written, in their order. -/
def blocksOf (f : Flow) (ranks : Ranks) : List Block :=
  ((ranks.map (·.1)).filterMap f.scene.findBlock).filter (!·.kind.isDefinition)

lemma blocksOf_append (rs rs' : Ranks) :
    f.blocksOf (rs ++ rs') = f.blocksOf rs ++ f.blocksOf rs' := by
  rw [blocksOf, List.map_append, List.filterMap_append, List.filter_append]
  rfl

lemma blocksOf_cons {v : Value} {r : Rank} {rs : Ranks} (hb : f.scene.findBlock v = some b)
    (hk : b.kind.isDefinition = false) : f.blocksOf ((v, r) :: rs) = b :: f.blocksOf rs := by
  simp [blocksOf, hb, hk]

lemma mem_blocksOf {rs : Ranks} :
    b ∈ f.blocksOf rs ↔
      (∃ e ∈ rs, f.scene.findBlock e.1 = some b) ∧ b.kind.isDefinition = false := by
  simp [blocksOf]

/-- The lowest rank of all. -/
def isLowest (e : Value × Rank) : Bool := decide (e.2 = ⟨0, 0⟩)

/-- Blocks of the lowest rank are written first, in the order in which they got it. -/
lemma rankedBlocks_eq (h : f.Ranking entries ranks) :
    ∃ higher : Ranks, (∀ e, e ∈ higher ↔ e ∈ ranks ∧ isLowest e = false) ∧
      f.rankedBlocks ranks = f.blocksOf (ranks.filter isLowest) ++ f.blocksOf higher := by
  have hnodup : ranks.Nodup := by
    refine h.distinctKeys.imp ?_
    rintro e e' hne rfl
    rw [Value.same_refl] at hne
    exact Bool.noConfusion hne
  have hsort := Order.sortByKey_stablySorted (fun e : Value × Rank => e.2) Rank.isWeakOrder_lt ranks
  refine ⟨(Order.sortByKey (·.2) Rank.lt ranks).filter (!isLowest ·), ?_, ?_⟩
  · intro e
    rw [List.mem_filter, hsort.perm.mem_iff, Bool.not_eq_true']
  · rw [← blocksOf_append, ← hsort.eq_filter_append hnodup]
    · rfl
    · intro e e' he he'
      rw [isLowest, decide_eq_true_eq] at he he'
      rw [he, he']
      rfl
    · intro e e' he he'
      rw [isLowest, decide_eq_true_eq] at he
      rw [isLowest, decide_eq_false_iff_not] at he'
      rw [he]
      obtain ⟨v, ⟨level, branch⟩⟩ := e'
      simp only [Rank.mk.injEq] at he'
      simp only [Rank.lt, Bool.or_eq_true, decide_eq_true_eq, Bool.and_eq_true, beq_iff_eq]
      omega

lemma filter_isLowest_map (ids : List Value) :
    (ids.map fun v => (v, (⟨0, 0⟩ : Rank))).filter isLowest = ids.map fun v => (v, ⟨0, 0⟩) := by
  rw [List.filter_eq_self]
  intro e he
  obtain ⟨v, -, rfl⟩ := List.mem_map.mp he
  rfl

/-- The stem of a start block is written under its label. -/
theorem writtenUnder_of_stem (hf : s.flow around = .ok f) (hs : s.DistinctIds)
    (hsec : s.Sectioned) (he : s.entryBlocks f.links = .ok entries)
    (hr : f.ranks entries = .ok ranks) (hstart : start ∈ s.blocks) (hsk : start.kind = .start)
    (hb : b ∈ s.blocks) (hk : b.kind ≠ .start) (hstem : s.Stem start b) :
    WrittenUnder (f.rankedBlocks ranks) start b := by
  have hscene := (Scene.flow_eq_ok hf).2.1
  have hperm := Scene.entryBlocks_perm_of_start ⟨start, hstart, hsk⟩ he
  have hne : b ≠ start := fun heq => hk (heq ▸ hsk)
  have hreach : TransGen s.Wired start b :=
    (reflTransGen_iff_eq_or_transGen.mp hstem.reaches).resolve_left hne
  have hclear := hsec.clearStem hs hstart hsk (hsec.not_wired_start hstart hsk hb hk hreach)
  have hentry : start ∈ entries := by
    rw [hperm.mem_iff]
    simp [hstart, hsk]
  obtain ⟨before, after, hcut, hnew⟩ := List.eq_append_cons_of_mem hentry
  have hbefore : ∀ e ∈ before, e ∈ s.blocks := by
    intro e hmem
    have hin : e ∈ entries := by simp [hcut, hmem]
    exact (List.mem_filter.mp (hperm.mem_iff.mp hin)).1
  obtain ⟨rs, run, v, more, -, hranks, hv, hhead, hplain⟩ :=
    ranks_stem hf hs hclear hr hcut hbefore hnew hstem
  obtain ⟨higher, -, hwritten⟩ := rankedBlocks_eq (ranks_ranking hr)
  have hroot : f.scene.findBlock start.id = some start := hscene ▸ hsec.found start hstart
  cases run with
  | nil =>
    -- the block itself is no start block
    obtain rfl : v = start.id := by simpa using hhead
    exact absurd (Option.some.inj (hv.symm.trans hroot)) hne
  | cons u run =>
    obtain rfl : u = start.id := by simpa using hhead
    refine ⟨f.blocksOf (rs.filter isLowest), f.blocksOf (run.map (·, ⟨0, 0⟩)),
      f.blocksOf (more.filter isLowest) ++ f.blocksOf higher, ?_, ?_⟩
    · rw [hwritten, hranks, List.filter_append, List.filter_append, filter_isLowest_map,
        blocksOf_append, blocksOf_append, List.cons_append, List.map_cons,
        blocksOf_cons hroot (hsec.plain hstart), List.map_append, blocksOf_append,
        List.map_singleton, blocksOf_cons hv (hsec.plain hb)]
      simp [blocksOf]
    · intro c hc
      obtain ⟨⟨e, he, hfound⟩, -⟩ := mem_blocksOf.mp hc
      obtain ⟨u, hu, rfl⟩ := List.mem_map.mp he
      obtain ⟨d, hd, hdk⟩ := hplain u (by simp [hu])
      cases hd.symm.trans hfound
      exact hdk

section NoWiresToStarts

variable (hf : s.flow around = .ok f) (hs : s.DistinctIds) (hsec : s.Sectioned)
  (hstarts : ∀ {a b}, b ∈ s.blocks → s.Wired a b → b.kind ≠ .start)
  (he : s.entryBlocks f.links = .ok entries) (hr : f.ranks entries = .ok ranks)

include hf hs hsec hstarts he hr

/-- Where a start block stands among the ranks. -/
lemma ranks_cut_start (hstart : start ∈ s.blocks) (hsk : start.kind = .start)
    {before after : List Block} (hcut : entries = before ++ start :: after) :
    ∃ rs more, ranks = rs ++ (start.id, ⟨0, 0⟩) :: more ∧
      ∀ e ∈ before, Dict.contains rs e.id = true := by
  have hscene := (Scene.flow_eq_ok hf).2.1
  have hperm := Scene.entryBlocks_perm_of_start ⟨start, hstart, hsk⟩ he
  have hin : ∀ e ∈ entries, e ∈ s.blocks ∧ e.kind = .start := by
    intro e hmem
    simpa using hperm.mem_iff.mp hmem
  have hbefore : ∀ e ∈ before, e ∈ s.blocks := fun e hmem => (hin e (by simp [hcut, hmem])).1
  have hnew : start ∉ before := by
    have hnodup := hperm.nodup_iff.mpr ((hs.nodup hsec.found).filter _)
    rw [hcut] at hnodup
    exact fun hmem => (List.nodup_append.mp hnodup).2.2 start hmem start (by simp) rfl
  have hclear := hsec.clearStem hs hstart hsk fun a hw => hstarts hstart hw hsk
  obtain ⟨rs, run, v, more, hrs, hranks, hv, hhead, hplain⟩ :=
    ranks_stem hf hs hclear hr hcut hbefore hnew .root
  obtain ⟨rest, hrest⟩ := List.head?_eq_some_iff.mp hhead
  refine ⟨rs, rest.map (·, ⟨0, 0⟩) ++ more, ?_, ?_⟩
  · rw [hranks, hrest, List.map_cons, List.append_assoc, List.cons_append]
  · intro e hmem
    have hsub : before ⊆ entries := fun c hc => by simp [hcut, hc]
    refine foldlM_rankEntry_contains hsub .nil hrs hmem ?_ ?_
    · rw [hscene, hsec.found e (hbefore e hmem)]
      rfl
    · intro rs
      rw [isReady_iff hf]
      intro w hw ht
      obtain ⟨⟨a, -, hsource⟩, -⟩ := Scene.wire_ends hw
      exact absurd (hin e (hsub hmem)).2
        (hstarts (hbefore e hmem) ⟨w, hw, Value.same_symm hsource, ht⟩)

/-- Start blocks have the lowest rank. -/
lemma isLowest_of_start {e : Value × Rank} (hmem : e ∈ ranks)
    (hfound : s.findBlock e.1 = some start) (hsk : start.kind = .start) : isLowest e = true := by
  have hstart := Scene.findBlock_mem hfound
  have hsame := Value.same_of_equals (Scene.findBlock_equals hfound)
  have hkeys := (ranks_ranking hr).distinctKeys
  have hentry : start ∈ entries := by
    rw [(Scene.entryBlocks_perm_of_start ⟨start, hstart, hsk⟩ he).mem_iff]
    simp [hstart, hsk]
  obtain ⟨before, after, hcut⟩ := List.append_of_mem hentry
  obtain ⟨rs, more, hranks, -⟩ := ranks_cut_start hf hs hsec hstarts he hr hstart hsk hcut
  have hown : (start.id, (⟨0, 0⟩ : Rank)) ∈ ranks := by simp [hranks]
  have hget := hkeys.get? hown (Value.same_refl _)
  rw [hkeys.get? hmem hsame] at hget
  rw [isLowest, Option.some.inj hget]
  rfl

/-- Everything off the stems has a higher rank. -/
lemma isLowest_of_off_stem (hstart : start ∈ s.blocks) (hsk : start.kind = .start)
    (hk : b.kind ≠ .start) (hreach : TransGen s.Wired start b) (hoff : ¬s.Stem start b)
    {e : Value × Rank} (hmem : e ∈ ranks) (hfound : s.findBlock e.1 = some b) :
    isLowest e = false := by
  have hperm := Scene.entryBlocks_perm_of_start ⟨start, hstart, hsk⟩ he
  have hin : ∀ c ∈ entries, c ∈ s.blocks ∧ c.kind = .start := by
    intro c hc
    simpa using hperm.mem_iff.mp hc
  rw [isLowest, decide_eq_false_iff_not]
  intro hrank
  have hlevel : e.2.level = 0 := by rw [hrank]
  obtain ⟨root, hroot, hstem⟩ := (ranks_ranking hr).stem_of_level_zero hf hs hsec.found
    (fun c hc => (hin c hc).1) hstarts hmem hlevel hfound
  obtain ⟨hrootin, hrk⟩ := hin root hroot
  have hne : b ≠ root := fun heq => hk (heq ▸ hrk)
  have hreach' := (reflTransGen_iff_eq_or_transGen.mp hstem.reaches).resolve_left hne
  have heq := hsec.eq_owner (Scene.findBlock_mem hfound) hk hstart hsk hreach hrootin hrk hreach'
  exact hoff (heq ▸ hstem)

/-- What is not on a stem is written under the last start block. -/
theorem writtenUnder_last (hstart : start ∈ s.blocks) (hsk : start.kind = .start)
    (hb : b ∈ s.blocks) (hk : b.kind ≠ .start) (hreach : TransGen s.Wired start b)
    (hoff : ¬s.Stem start b) :
    ∃ last, entries.getLast? = some last ∧ last.kind = .start ∧
      WrittenUnder (f.rankedBlocks ranks) last b := by
  have hscene := (Scene.flow_eq_ok hf).2.1
  have hranking := ranks_ranking hr
  have hperm := Scene.entryBlocks_perm_of_start ⟨start, hstart, hsk⟩ he
  have hin : ∀ e, e ∈ entries ↔ e ∈ s.blocks ∧ e.kind = .start := by
    intro e
    rw [hperm.mem_iff]
    simp
  rcases List.eq_nil_or_concat entries with hnil | ⟨before, last, hcut⟩
  · have hmem := (hin start).mpr ⟨hstart, hsk⟩
    simp [hnil] at hmem
  rw [List.concat_eq_append] at hcut
  obtain ⟨hlast, hlk⟩ := (hin last).mp (by simp [hcut])
  obtain ⟨rs, more, hranks, hbefore⟩ := ranks_cut_start hf hs hsec hstarts he hr hlast hlk hcut
  obtain ⟨higher, hhigher, hwritten⟩ := rankedBlocks_eq hranking
  have hkeys := hranking.distinctKeys
  -- all other start blocks got their ranks before the last one
  have hlater : ∀ c ∈ f.blocksOf (more.filter isLowest) ++ f.blocksOf higher, c.kind ≠ .start := by
    intro c hc hck
    rcases List.mem_append.mp hc with hc | hc
    · obtain ⟨⟨e, hmem, hfound⟩, -⟩ := mem_blocksOf.mp hc
      have hmore := (List.mem_filter.mp hmem).1
      have hsame := Value.same_of_equals (Scene.findBlock_equals hfound)
      rw [hranks, Dict.DistinctKeys, List.pairwise_append, List.pairwise_cons] at hkeys
      have hentry := (hin c).mpr ⟨hscene ▸ Scene.findBlock_mem hfound, hck⟩
      rw [hcut, List.mem_append, List.mem_singleton] at hentry
      rcases hentry with hbef | rfl
      · obtain ⟨e', he', hce'⟩ := List.any_eq_true.mp (hbefore c hbef)
        have hne := hkeys.2.2 e' he' e (by simp [hmore])
        rw [Value.same_trans (Value.same_symm hce') hsame] at hne
        exact Bool.noConfusion hne
      · have hne := hkeys.2.1.1 e hmore
        rw [hsame] at hne
        exact Bool.noConfusion hne
    · obtain ⟨⟨e, hmem, hfound⟩, -⟩ := mem_blocksOf.mp hc
      obtain ⟨hrank, hlow⟩ := (hhigher e).mp hmem
      rw [isLowest_of_start hf hs hsec hstarts he hr hrank (hscene ▸ hfound) hck] at hlow
      exact Bool.noConfusion hlow
  have hbhigh : b ∈ f.blocksOf higher := by
    have hlayered : s.Layered :=
      ⟨⟨hsec.found, hstarts, hsec.acyclic⟩, fun c hc => hsec.plain hc⟩
    have hcontains := ranks_contains_of_layered hf hlayered ⟨start, hstart, hsk⟩ he hr b hb
    obtain ⟨e, hmem, hbe⟩ := List.any_eq_true.mp hcontains
    have hfound : s.findBlock e.1 = some b := by
      rw [← Scene.findBlock_congr s hbe, hsec.found b hb]
    refine mem_blocksOf.mpr ⟨⟨e, (hhigher e).mpr ⟨hmem, ?_⟩, hscene ▸ hfound⟩, hsec.plain hb⟩
    exact isLowest_of_off_stem hf hs hsec hstarts he hr hstart hsk hk hreach hoff hmem hfound
  obtain ⟨front, back, hsplit⟩ := List.append_of_mem hbhigh
  refine ⟨last, by simp [hcut], hlk, f.blocksOf (rs.filter isLowest),
    f.blocksOf (more.filter isLowest) ++ front, back, ?_, ?_⟩
  · have hlowest : isLowest (last.id, ⟨0, 0⟩) = true := rfl
    rw [hwritten, hsplit, hranks, List.filter_append, List.filter_cons_of_pos hlowest,
      blocksOf_append, blocksOf_cons (hscene ▸ hsec.found last hlast) (hsec.plain hlast)]
    simp
  · intro c hc
    refine hlater c ?_
    rw [hsplit]
    rcases List.mem_append.mp hc with hc | hc
    · simp [hc]
    · simp [hc]

end NoWiresToStarts
end Flow

namespace Scene

/-- The sections of a scene: the stem of a start block is written under its label. Where no wire
leads to a start block, the other blocks behind it are written there if and only if it is the last
of the start blocks from top to bottom. -/
theorem script_sections {s : Scene} {cast : Option Cast} {labels : List String} {text : String}
    {start b : Block} (hs : s.DistinctIds) (hsec : s.Sectioned)
    (h : s.script cast labels = .ok text) (hstart : start ∈ s.blocks) (hsk : start.kind = .start)
    (hb : b ∈ s.blocks) (hk : b.kind ≠ .start) (hreach : TransGen s.Wired start b) :
    ∃ f entries chunks, s.flow { cast, labels := some labels } = .ok f ∧
      s.entryBlocks f.links = .ok entries ∧ f.entryChunks entries = .ok chunks ∧
      text = Text.concat (chunks.map (·.text)) ++ "\n" ∧
      f.Covers (s.blocks.filter (!·.kind.isDefinition)) chunks ∧
      (s.Stem start b → WrittenUnder (chunks.map (·.block)) start b) ∧
      ((∀ {a c}, c ∈ s.blocks → s.Wired a c → c.kind ≠ .start) →
        (WrittenUnder (chunks.map (·.block)) start b ↔
          s.Stem start b ∨ entries.getLast? = some start)) := by
  obtain ⟨f, entries, ranks, chunks, hf, he, hr, hchunks, -, htext, hcover, -, hblocks⟩ :=
    script_ranked hs ⟨start, hstart, hsk⟩ h
  have honce : (chunks.map (·.block)).Nodup :=
    hcover.perm.nodup_iff.mpr ((hs.nodup hsec.found).filter _)
  have hstem : s.Stem start b → WrittenUnder (chunks.map (·.block)) start b := by
    intro hstem
    rw [hblocks]
    exact (Flow.writtenUnder_of_stem hf hs hsec he hr hstart hsk hb hk hstem).append _
  refine ⟨f, entries, chunks, hf, he, hchunks, htext, hcover, hstem, fun hstarts => ?_⟩
  by_cases hon : s.Stem start b
  · exact ⟨fun _ => .inl hon, fun _ => hstem hon⟩
  · obtain ⟨last, hlast, hlk, hunder⟩ :=
      Flow.writtenUnder_last hf hs hsec hstarts he hr hstart hsk hb hk hreach hon
    have hall : WrittenUnder (chunks.map (·.block)) last b := by
      rw [hblocks]
      exact hunder.append _
    refine ⟨fun hown => .inr ?_, fun hor => ?_⟩
    · rw [hown.eq honce hsk hlk hall, hlast]
    · rw [hlast, Option.some.injEq] at hor
      exact hor.resolve_left hon ▸ hall

/-- Every way is a single wire if no wire starts where another ends. -/
lemma wired_of_transGen {s : Scene}
    (h : ∀ w ∈ s.wires, ∀ v ∈ s.wires, w.target.same v.source = false) {a b : Block}
    (hab : TransGen s.Wired a b) : s.Wired a b := by
  induction hab with
  | single hab => exact hab
  | tail _ hcb ih =>
    obtain ⟨w, hw, -, hend⟩ := ih
    obtain ⟨v, hv, hsource, -⟩ := hcb
    have hjoin := h w hw v hv
    rw [Value.same_trans (Value.same_symm hend) hsource] at hjoin
    exact Bool.noConfusion hjoin

/-- Two start blocks, the upper one with a fork behind it. -/
def forkedScene : Scene where
  id := .text "s"
  name := .text "Scene"
  label := .text "start"
  blocks :=
    [startBlock "s" "one" 0 0, toldBlock "a" 4 0, toldBlock "b" 4 3, startBlock "t" "two" 0 6,
      toldBlock "c" 4 6]
  ports :=
    [{ id := .text "s.o", nodeId := .text "s", name := .text "out", direction := .output },
      { id := .text "a.i", nodeId := .text "a", name := .text "in", direction := .input },
      { id := .text "b.i", nodeId := .text "b", name := .text "in", direction := .input },
      { id := .text "t.o", nodeId := .text "t", name := .text "out", direction := .output },
      { id := .text "c.i", nodeId := .text "c", name := .text "in", direction := .input }]
  connections :=
    [{ id := .text "1", fromPort := .text "s.o", toPort := .text "a.i" },
      { id := .text "2", fromPort := .text "s.o", toPort := .text "b.i" },
      { id := .text "3", fromPort := .text "t.o", toPort := .text "c.i" }]

lemma forkedScene_ways {a b : Block} (h : TransGen forkedScene.Wired a b) :
    forkedScene.Wired a b :=
  wired_of_transGen (by decide) h

lemma forkedScene_sectioned : forkedScene.Sectioned where
  found := by decide
  kinds := by decide
  acyclic := by
    intro b hb hloop
    exact (by decide : ∀ b ∈ forkedScene.blocks, ¬forkedScene.Wired b b) b hb
      (forkedScene_ways hloop)
  owned := by
    intro b hb hk
    obtain ⟨start, hstart, hsk, hwired, honly⟩ :=
      (by decide : ∀ b ∈ forkedScene.blocks, b.kind ≠ .start → ∃ start ∈ forkedScene.blocks,
        start.kind = .start ∧ forkedScene.Wired start b ∧ ∀ other ∈ forkedScene.blocks,
          other.kind = .start → forkedScene.Wired other b → other = start) b hb hk
    exact ⟨start, hstart, hsk, .single hwired, fun other ho hok hreach =>
      honly other ho hok (forkedScene_ways hreach)⟩

/-- What is behind the fork is written under the label of the other start block. -/
theorem forkedScene_script :
    forkedScene.DistinctIds ∧
      (forkedScene.wires.map fun w => (w.source, w.target)) =
        [(.text "s", .text "a"), (.text "s", .text "b"), (.text "t", .text "c")] ∧
      forkedScene.script none [] =
        .ok "label one:\nlabel two:\n    \"c\"\n    \"a\"\n    \"b\"\n\n" :=
  ⟨by decide, rfl, rfl⟩

theorem forkedScene_sections :
    forkedScene.DistinctIds ∧ forkedScene.Sectioned ∧
      ∃ (text : String) (chunks : List Chunk), forkedScene.script none [] = .ok text ∧
        text = Text.concat (chunks.map (·.text)) ++ "\n" ∧
        TransGen forkedScene.Wired (startBlock "t" "two" 0 6) (toldBlock "c" 4 6) ∧
        WrittenUnder (chunks.map (·.block)) (startBlock "t" "two" 0 6) (toldBlock "c" 4 6) ∧
        TransGen forkedScene.Wired (startBlock "s" "one" 0 0) (toldBlock "a" 4 0) ∧
        ¬WrittenUnder (chunks.map (·.block)) (startBlock "s" "one" 0 0) (toldBlock "a" 4 0) := by
  have hs : forkedScene.DistinctIds := by decide
  have hsec := forkedScene_sectioned
  obtain ⟨text, hscript⟩ : ∃ text, forkedScene.script none [] = .ok text := ⟨_, rfl⟩
  have htc : TransGen forkedScene.Wired (startBlock "t" "two" 0 6) (toldBlock "c" 4 6) :=
    .single (by decide)
  have hsa : TransGen forkedScene.Wired (startBlock "s" "one" 0 0) (toldBlock "a" 4 0) :=
    .single (by decide)
  obtain ⟨f, entries, chunks, hf, he, hchunks, htext, -, hstem, -⟩ :=
    script_sections hs hsec hscript (by decide) rfl (by decide) (by decide) htc
  obtain ⟨f', entries', chunks', hf', he', hchunks', -, -, -, hunder⟩ :=
    script_sections hs hsec hscript (by decide) rfl (by decide) (by decide) hsa
  cases hf.symm.trans hf'
  cases he.symm.trans he'
  cases hchunks.symm.trans hchunks'
  have hon : forkedScene.Stem (startBlock "t" "two" 0 6) (toldBlock "c" 4 6) :=
    .next .root (by decide) (by decide) ⟨_, rfl, rfl⟩
  have hoff : ¬forkedScene.Stem (startBlock "s" "one" 0 0) (toldBlock "a" 4 0) := by
    intro h
    rcases h.cases_head with heq | ⟨c, -, ⟨w, hw, -⟩, -⟩
    · exact absurd heq (by decide)
    · have htwo : (forkedScene.wiresFrom (.text "s")).length = 2 := rfl
      have hone : (forkedScene.wiresFrom (.text "s")).length = 1 := congrArg List.length hw
      omega
  have hlast : entries.getLast? ≠ some (startBlock "s" "one" 0 0) := by
    obtain ⟨f₀, hf₀, he₀⟩ : ∃ f, forkedScene.flow { cast := none, labels := some [] } = .ok f ∧
        forkedScene.entryBlocks f.links = .ok [startBlock "s" "one" 0 0, startBlock "t" "two" 0 6] :=
      ⟨_, rfl, rfl⟩
    cases hf₀.symm.trans hf
    cases he₀.symm.trans he
    decide
  have hfree : ∀ {a c}, c ∈ forkedScene.blocks → forkedScene.Wired a c → c.kind ≠ .start := by
    rintro a c hc ⟨w, hw, -, htarget⟩
    exact (by decide : ∀ c ∈ forkedScene.blocks, ∀ w ∈ forkedScene.wires,
      c.id.same w.target = true → c.kind ≠ .start) c hc w hw htarget
  exact ⟨hs, hsec, text, chunks, hscript, htext, htc, hstem hon, hsa,
    fun hown => ((hunder hfree).mp hown).elim hoff hlast⟩

end Scene
end NovelGraph
