import NovelGraph.Proofs.LineEnds
import NovelGraph.Proofs.Lines
import NovelGraph.Proofs.Measured

/-! The text of a scene that is made of lines: the lines of its start blocks, one after the other,
each under its label. All blocks get one rank, in the order of the lines, so that neither the later
passes nor the sort have anything to do, and no block is left over. -/
namespace NovelGraph

open Outcome Script

/-- A sort has nothing to do where all keys are tied. -/
lemma Order.sortByKey_of_ties {α κ : Type} {key : α → κ} {less : κ → κ → Bool}
    (hw : IsWeakOrder less) {items : List α} (hd : items.Nodup)
    (hties : ∀ a ∈ items, ∀ b ∈ items, less (key b) (key a) = false) :
    sortByKey key less items = items := by
  have hsort := sortByKey_stablySorted key hw items
  refine (eq_of_pair_sublist hsort.perm.symm (hsort.perm.nodup_iff.mpr hd) ?_).symm
  intro a b hab
  exact hsort.stable hab (hties a (hab.subset (by simp)) b (hab.subset (by simp)))

namespace Flow

variable {s : Scene} {around : Surroundings} {f : Flow} {ranks : Ranks} {b : Block}
  {line before blocks : List Block} {lines : List (Block × List Block)} {id : Value}
  {ids : List Value}

section Ranks

/-- The ranks of ids that are all numbered alike. -/
def level (rank : Rank) (ids : List Value) : Ranks := ids.map fun id => (id, rank)

lemma level_append (rank : Rank) (before ids : List Value) :
    level rank (before ++ ids) = level rank before ++ level rank ids := List.map_append

lemma contains_level (hs : s.Linear) {rank : Rank}
    (hnamed : List.Forall₂ (fun (b : Block) id => b.id.same id = true) blocks ids)
    (hsub : blocks ⊆ s.blocks) (hb : b ∈ s.blocks) :
    (level rank ids).contains b.id = true ↔ b ∈ blocks := by
  have hkeys : (level rank ids).map (·.1) = ids := by simp [level, Function.comp_def]
  rw [Dict.contains_iff, hkeys, ← Block.memberOf_named hnamed]
  constructor
  · exact hs.keys.mem_of_memberOf (fun c hc => hsub hc) hb
  · exact fun hmem => Value.memberOf_of_mem (List.mem_map_of_mem hmem) (Value.same_refl _)

lemma isReady_next (hf : s.flow around = .ok f) (hs : s.Linear) {a : Block} (hab : s.Wired a b)
    {v : Value} (ha : a.id.same v = true) (hb : b.id.same id = true) (rank : Rank) :
    f.isReady (ranks ++ [(v, rank)]) id = true := by
  rw [isReady_iff hf]
  intro w hw htarget
  obtain ⟨⟨c, -, hsource⟩, -⟩ := Scene.wire_ends hw
  have hca := hs.same_of_wired ⟨w, hw, Value.same_symm hsource, Value.same_trans hb htarget⟩ hab
  simp [Dict.contains, Value.same_trans hsource (Value.same_trans hca ha)]

/-- Numbering goes along a line that is not numbered yet, from one end to the other. A wire may
write an id in another way than the block that it leads to, so the ranks are kept under ids that
name the blocks. -/
theorem rankFrom_line (hf : s.flow around = .ok f) (hs : s.Linear) {rank : Rank} {fuel : ℕ}
    (h : s.Line b line) (hb : b ∈ s.blocks) (hid : b.id.same id = true) (hd : (b :: line).Nodup)
    (hfresh : ∀ c ∈ b :: line, ranks.contains c.id = false)
    (hready : f.isReady ranks id = true) (hfuel : line.length < fuel) :
    ∃ ids, List.Forall₂ (fun (b : Block) id => b.id.same id = true) (b :: line) ids ∧
      f.rankFrom fuel ranks id rank = .ok (ranks ++ level rank ids) := by
  obtain ⟨hl, hscene, -, -⟩ := Scene.flow_eq_ok hf
  induction h generalizing ranks fuel id with
  | @last b none =>
    obtain ⟨fuel, rfl⟩ := Nat.exists_eq_succ_of_ne_zero (Nat.ne_zero_of_lt hfuel)
    have hnew : ranks.contains id = false := by
      rw [← Dict.contains_congr ranks hid, hfresh b (by simp)]
    have hnext : f.links.next id = [] := by
      rw [Scene.links_next hl, ← s.wiresFrom_congr hid, none]
      rfl
    refine ⟨[id], .cons hid .nil, ?_⟩
    simp only [rankFrom, hnew, hscene, hs.findBlock hb hid, hready, hnext,
      Dict.set_of_not_contains hnew]
    rfl
  | @next b c rest only mem behind ih =>
    obtain ⟨fuel, rfl⟩ := Nat.exists_eq_succ_of_ne_zero (Nat.ne_zero_of_lt hfuel)
    have hnew : ranks.contains id = false := by
      rw [← Dict.contains_congr ranks hid, hfresh b (by simp)]
    have hwired := only.wired
    obtain ⟨w, hw, hcw⟩ := only
    have hnext : f.links.next id = [(w.target, w.length)] := by
      rw [Scene.links_next hl, ← s.wiresFrom_congr hid, hw]
      rfl
    obtain ⟨ids, hnamed, hgo⟩ : ∃ ids,
        List.Forall₂ (fun (b : Block) id => b.id.same id = true) (c :: rest) ids ∧
          f.rankFrom fuel (ranks ++ [(id, rank)]) w.target rank =
            .ok (ranks ++ [(id, rank)] ++ level rank ids) := by
      refine ih mem hcw hd.of_cons ?_ (isReady_next hf hs hwired hid hcw rank) ?_
      · intro d hd'
        have hne : d.id.same id = false := by
          rw [Bool.eq_false_iff]
          intro hsame
          have hdb := hs.keys.eq_of_same
            ((Scene.Line.next ⟨w, hw, hcw⟩ mem behind).subset hd') hb
            (Value.same_trans hsame (Value.same_symm hid))
          exact (List.nodup_cons.mp hd).1 (hdb ▸ hd')
        have hold := hfresh d (List.mem_cons_of_mem _ hd')
        rw [Dict.contains] at hold
        simp [Dict.contains, hold, hne]
      · simpa using hfuel
    refine ⟨id :: ids, .cons hid hnamed, ?_⟩
    simp only [rankFrom, hnew, hscene, hs.findBlock hb hid, hready, hnext,
      Dict.set_of_not_contains hnew]
    rw [List.append_assoc] at hgo
    exact hgo

/-- The blocks of a line behind its first are targets of wires, so there is depth enough. -/
lemma length_lt_depth (hf : s.flow around = .ok f) (hs : s.Linear) (h : s.Line b line)
    (hd : line.Nodup) : line.length < f.depth := by
  have hl := (Scene.flow_eq_ok hf).1
  have htargets : line.map (·.id.canon) ⊆ f.links.targets.map Value.canon := by
    intro v hv
    obtain ⟨c, hc, rfl⟩ := List.mem_map.mp hv
    obtain ⟨a, -, w, hw, hsource, htarget⟩ := Relation.TransGen.tail'_iff.mp (h.reaches c hc)
    have hhop := (Scene.mem_next hl).mpr ⟨w, hw, hsource, rfl⟩
    rw [Value.same_iff.mp htarget]
    exact List.mem_map_of_mem (Links.mem_targets_of_mem_next hhop)
  have hids : (line.map (·.id.canon)).Nodup := by
    refine List.pairwise_map.mpr (hd.imp_of_mem ?_)
    intro a c ha hc hne hid
    exact hne (hs.keys.eq_of_same (h.subset ha) (h.subset hc) (Value.same_iff.mpr hid))
  have hle := (hids.subperm htargets).length_le
  rw [List.length_map, List.length_map] at hle
  rw [depth]
  omega

/-- All lines, one after the other. -/
lemma foldlM_rankEntry_lines {names : List Value} (hf : s.flow around = .ok f) (hs : s.Linear)
    (hlines : ∀ e ∈ lines, e.1 ∈ s.blocks ∧ e.1.kind = .start ∧ s.Line e.1 e.2)
    (hnamed : List.Forall₂ (fun (b : Block) id => b.id.same id = true) before names)
    (hsub : before ⊆ s.blocks) (hd : (before ++ Scene.inLines lines).Nodup) :
    ∃ ids, List.Forall₂ (fun (b : Block) id => b.id.same id = true)
        (before ++ Scene.inLines lines) ids ∧
      (lines.map (·.1)).foldlM f.rankEntry (level ⟨0, 0⟩ names) = .ok (level ⟨0, 0⟩ ids) := by
  induction lines generalizing before names with
  | nil => exact ⟨names, by simpa [Scene.inLines] using hnamed, rfl⟩
  | cons e rest ih =>
    obtain ⟨hmem, hkind, hline⟩ := hlines e (by simp)
    have hcut : before ++ Scene.inLines (e :: rest) =
        (before ++ e.1 :: e.2) ++ Scene.inLines rest := by
      simp [Scene.inLines]
    rw [hcut] at hd ⊢
    have hall : e.1 :: e.2 ⊆ s.blocks := List.cons_subset.mpr ⟨hmem, hline.subset⟩
    obtain ⟨-, hown, hapart⟩ := List.nodup_append.mp (List.nodup_append.mp hd).1
    have hready : f.isReady (level ⟨0, 0⟩ names) e.1.id = true := by
      rw [isReady_iff hf]
      intro w hw htarget
      obtain ⟨⟨a, -, hsource⟩, -⟩ := Scene.wire_ends hw
      exact absurd ⟨w, hw, Value.same_symm hsource, htarget⟩ (hs.not_wired_start hmem hkind)
    have hfresh : ∀ c ∈ e.1 :: e.2, (level ⟨0, 0⟩ names).contains c.id = false := by
      intro c hc
      rw [← Bool.not_eq_true, contains_level hs hnamed hsub (hall hc)]
      exact fun hb => hapart c hb c hc rfl
    obtain ⟨more, hmore, hentry⟩ : ∃ more,
        List.Forall₂ (fun (b : Block) id => b.id.same id = true) (e.1 :: e.2) more ∧
          f.rankEntry (level ⟨0, 0⟩ names) e.1 = .ok (level ⟨0, 0⟩ names ++ level ⟨0, 0⟩ more) :=
      rankFrom_line hf hs hline hmem (Value.same_refl _) hown hfresh hready
        (length_lt_depth hf hs hline hown.of_cons)
    rw [List.map_cons, List.foldlM_cons, hentry, ok_bind, ← level_append]
    exact ih (fun e he => hlines e (by simp [he])) (List.rel_append hnamed hmore)
      (List.append_subset.mpr ⟨hsub, hall⟩) hd

/-- Where all blocks have ranks the later passes only put the blocks in order. -/
lemma rankPasses_of_ranked (hall : ∀ b ∈ f.scene.blocks, ranks.contains b.id = true) (n : ℕ) :
    f.rankPasses (n + 1) ranks = (do
      let _ ← Scene.sortBlocks f.scene.blocks
      pure ranks) := by
  rw [rankPasses]
  cases hsort : Scene.sortBlocks f.scene.blocks with
  | error fault => rfl
  | ok sorted =>
    have hpass : f.rankPass sorted ranks = .ok (ranks, false) := by
      refine rankPass_idle fun b hb => ?_
      simp [mayRank, hall b ((Order.sortOn_perm hsort).mem_iff.mp hb)]
    rw [ok_bind, hpass]
    rfl

/-- In a scene of lines all blocks get one rank, in the order of the lines. -/
theorem ranks_lines (hf : s.flow around = .ok f) (hs : s.Linear)
    (hstart : ∃ b ∈ s.blocks, b.kind = .start) (h : s.Lines f.links lines) :
    ∃ ids, List.Forall₂ (fun (b : Block) id => b.id.same id = true) (Scene.inLines lines) ids ∧
      f.ranks (lines.map (·.1)) = (do
        let _ ← Scene.sortBlocks s.blocks
        pure (level ⟨0, 0⟩ ids)) := by
  have hscene := (Scene.flow_eq_ok hf).2.1
  obtain ⟨ids, hnamed, hfirst⟩ : ∃ ids,
      List.Forall₂ (fun (b : Block) id => b.id.same id = true) (Scene.inLines lines) ids ∧
        (lines.map (·.1)).foldlM f.rankEntry [] = .ok (level ⟨0, 0⟩ ids) := by
    refine foldlM_rankEntry_lines hf hs ?_ .nil (by simp) (h.nodup hs hstart)
    intro e he
    obtain ⟨hmem, hkind⟩ := h.start_of_mem hstart he
    exact ⟨hmem, hkind, h.line e he⟩
  have hfold : f.ranks (lines.map (·.1)) = (lines.map (·.1)).foldlM f.rankEntry [] >>=
      f.rankPasses (3 * f.scene.blocks.length) := rfl
  have hall : ∀ b ∈ f.scene.blocks, (level ⟨0, 0⟩ ids).contains b.id = true := by
    intro b hb
    rw [hscene] at hb
    exact (contains_level hs hnamed (h.subset hstart) hb).mpr (h.mem hs hstart hb)
  obtain ⟨b, hb, -⟩ := hstart
  obtain ⟨n, hn⟩ : ∃ n, 3 * f.scene.blocks.length = n + 1 := by
    have hpos := List.length_pos_of_mem hb
    rw [hscene]
    exact ⟨3 * s.blocks.length - 1, by omega⟩
  refine ⟨ids, hnamed, ?_⟩
  rw [hfold, hfirst, ok_bind, hn, rankPasses_of_ranked hall, hscene]

end Ranks

section Chunks

/-- Blocks outside of control flow are written one by one, definitions left out. -/
lemma rankedChunks_plain (seen : List Value)
    (hnamed : List.Forall₂ (fun (b : Block) id => b.id.same id = true) blocks ids)
    (hfound : ∀ b ∈ blocks, f.scene.findBlock b.id = some b)
    (hplain : ∀ b ∈ blocks, b.kind.isControl = false)
    (hd : blocks.Pairwise fun a b => a.id.same b.id = false)
    (hseen : ∀ b ∈ blocks, b.id.memberOf seen = false) :
    ∃ new, List.Forall₂ (fun (b : Block) id => b.id.same id = true)
        (blocks.filter (!·.kind.isDefinition)) new ∧
      f.rankedChunks ids seen = (do
        let chunks ← (blocks.filter (!·.kind.isDefinition)).mapM f.looseChunk
        pure (chunks, seen ++ new)) := by
  induction hnamed generalizing seen with
  | nil => exact ⟨[], .nil, by simp [rankedChunks, pure, Except.pure, bind, Except.bind]⟩
  | @cons b id rest ids hid hnamed ih =>
    obtain ⟨hb, hrest⟩ := List.pairwise_cons.mp hd
    have hnew : id.memberOf seen = false := by
      rw [← Value.memberOf_congr hid, hseen b (by simp)]
    have hblock : f.scene.findBlock id = some b := by
      rw [← Scene.findBlock_congr _ hid, hfound b (by simp)]
    have hmore := fun seen => ih seen (fun c hc => hfound c (by simp [hc]))
      (fun c hc => hplain c (by simp [hc])) hrest
    rw [rankedChunks, hnew, if_neg Bool.false_ne_true, hblock]
    cases hk : b.kind.isDefinition with
    | true =>
      obtain ⟨new, hnew', hchunks⟩ := hmore seen fun c hc => hseen c (by simp [hc])
      rw [List.filter_cons_of_neg (by simp [hk])]
      exact ⟨new, hnew', by simpa [hk] using hchunks⟩
    | false =>
      obtain ⟨new, hnew', hchunks⟩ := hmore (seen ++ [id]) fun c hc => by
        have hne : c.id.same id = false := by
          rw [Bool.eq_false_iff]
          intro hsame
          have hapart := hb c hc
          rw [Value.same_symm (Value.same_trans hsame (Value.same_symm hid))] at hapart
          exact Bool.noConfusion hapart
        rw [Value.memberOf_append, hseen c (by simp [hc]), Value.memberOf_singleton, hne]
        rfl
      rw [List.filter_cons_of_pos (by simp [hk])]
      refine ⟨id :: new, .cons hid hnew', ?_⟩
      rw [List.mapM_cons]
      simp only [hk, Bool.false_eq_true, if_false, rankedChunk_of_plain (hplain b (by simp)),
        looseChunk, bind_assoc, pure_bind, hnew, hchunks, List.append_assoc, List.singleton_append]

/-- The chunks of a scene of lines. -/
theorem entryChunks_lines (hf : s.flow around = .ok f) (hs : s.Linear)
    (hstart : ∃ b ∈ s.blocks, b.kind = .start) (h : s.Lines f.links lines) :
    f.entryChunks (lines.map (·.1)) = (do
      let _ ← Scene.sortBlocks s.blocks
      ((Scene.inLines lines).filter (!·.kind.isDefinition)).mapM f.looseChunk) := by
  have hscene := (Scene.flow_eq_ok hf).2.1
  have hsub := h.subset hstart
  obtain ⟨ids, hnamed, hranks⟩ := ranks_lines hf hs hstart h
  have hpair : (Scene.inLines lines).Pairwise fun a b => a.id.same b.id = false := by
    refine (h.nodup hs hstart).imp_of_mem ?_
    intro a b ha hb hne
    rw [Bool.eq_false_iff]
    exact fun hsame => hne (hs.keys.eq_of_same (hsub ha) (hsub hb) hsame)
  have hids : ids.Nodup := by
    refine List.Nodup.of_map Value.canon ?_
    rw [Block.canon_named hnamed]
    refine List.pairwise_map.mpr (hpair.imp ?_)
    intro a b hne heq
    rw [Value.same_iff.mpr heq] at hne
    exact Bool.noConfusion hne
  have horder : (Order.sortByKey (·.2) Rank.lt (level ⟨0, 0⟩ ids)).map (·.1) = ids := by
    rw [Order.sortByKey_of_ties Rank.isWeakOrder_lt, level, List.map_map]
    · exact List.map_id ids
    · exact hids.map fun _ _ heq => (Prod.mk.inj heq).1
    · intro a ha b hb
      obtain ⟨_, -, rfl⟩ := List.mem_map.mp ha
      obtain ⟨_, -, rfl⟩ := List.mem_map.mp hb
      rfl
  obtain ⟨new, hwritten, hranked⟩ := rankedChunks_plain (f := f) [] hnamed
    (fun b hb => by rw [hscene, hs.found (hsub hb)]) (fun b hb => hs.plain b (hsub hb)) hpair
    (fun _ _ => Value.memberOf_nil _)
  have hloose : f.scene.blocks.filter (fun b =>
      !b.id.memberOf ([] ++ new) && !b.kind.isDefinition) = [] := by
    rw [List.filter_eq_nil_iff, hscene]
    intro b hb hleft
    simp only [List.nil_append, Bool.and_eq_true, Bool.not_eq_true'] at hleft
    rw [← Block.memberOf_named hwritten] at hleft
    have hin : b ∈ (Scene.inLines lines).filter (!·.kind.isDefinition) :=
      List.mem_filter.mpr ⟨h.mem hs hstart hb, by simp [hleft.2]⟩
    rw [Value.memberOf_of_mem (List.mem_map_of_mem hin) (Value.same_refl _)] at hleft
    exact Bool.noConfusion hleft.1
  rw [entryChunks, hranks]
  simp only [horder, hranked, bind_assoc, pure_bind, hloose, List.mapM_nil, List.append_nil,
    bind_pure]

end Chunks
end Flow

namespace Scene

/-- A line under its label: what its blocks write by themselves, definitions left out. -/
def lineText (around : Surroundings) (line : Block × List Block) : Except Fault String := do
  let label ← line.1.startLabel
  let texts ← (line.2.filter (!·.kind.isDefinition)).mapM (·.render indentation around)
  pure ("label " ++ label ++ ":\n" ++ Text.concat texts)

variable {s : Scene} {around : Surroundings} {f : Flow} {lines : List (Block × List Block)}

lemma anyLabelled_ok {blocks : List Block} (h : ∀ b ∈ blocks, ∃ label, b.startLabel = .ok label) :
    ∃ labelled, anyLabelled blocks = .ok labelled := by
  induction blocks with
  | nil => exact ⟨false, rfl⟩
  | cons b rest ih =>
    obtain ⟨label, hlabel⟩ := h b (by simp)
    rw [anyLabelled, hlabel, ok_bind]
    split
    · exact ih fun c hc => h c (by simp [hc])
    · exact ⟨true, rfl⟩

/-- The chunks of one line make up its text. -/
lemma lineText_eq {start : Block} {line : List Block} (hk : start.kind = .start)
    (hlabel : ∃ label, label ≠ "" ∧ start.startLabel = .ok label)
    (hline : ∀ b ∈ line, b.kind ≠ .start) :
    lineText f.around (start, line) = (do
      let chunks ← ((start :: line).filter (!·.kind.isDefinition)).mapM f.looseChunk
      pure (Text.concat (chunks.map (·.text)))) := by
  obtain ⟨label, hne, hlabel⟩ := hlabel
  have hfirst : f.looseChunk start = .ok ⟨start, "label " ++ label ++ ":\n"⟩ := by
    simp [Flow.looseChunk, Block.render, hk, Block.startLine, hlabel, hne, labelLine, ok_bind,
      pure, Except.pure]
  have hrest : ∀ blocks : List Block, (∀ b ∈ blocks, b.kind ≠ .start) →
      blocks.mapM f.looseChunk >>= (fun chunks => pure (chunks.map (·.text))) =
        blocks.mapM (·.render indentation f.around) := by
    intro blocks hblocks
    induction blocks with
    | nil => rfl
    | cons b rest ih =>
      rw [List.mapM_cons, List.mapM_cons, ← ih fun c hc => hblocks c (by simp [hc])]
      simp only [Flow.looseChunk, if_neg (hblocks b (by simp)), bind_assoc, pure_bind,
        List.map_cons]
  have hkeep : (!start.kind.isDefinition) = true := by
    rw [hk]
    rfl
  rw [lineText, hlabel, ok_bind, List.filter_cons_of_pos (by exact hkeep), List.mapM_cons, hfirst,
    ok_bind, ← hrest _ fun b hb => hline b (List.mem_of_mem_filter hb)]
  simp only [bind_assoc, pure_bind, List.map_cons, Text.concat_cons]

/-- The chunks of all lines make up their texts. -/
lemma mapM_lineText (hlines : ∀ e ∈ lines, e.1.kind = .start ∧
      (∃ label, label ≠ "" ∧ e.1.startLabel = .ok label) ∧ ∀ b ∈ e.2, b.kind ≠ .start) :
    (do
      let texts ← lines.mapM (lineText f.around)
      pure (Text.concat texts)) = (do
      let chunks ← ((inLines lines).filter (!·.kind.isDefinition)).mapM f.looseChunk
      pure (Text.concat (chunks.map (·.text)))) := by
  induction lines with
  | nil => rfl
  | cons e rest ih =>
    obtain ⟨hk, hlabel, hline⟩ := hlines e (by simp)
    have hmore := ih fun e he => hlines e (by simp [he])
    have hcut : inLines (e :: rest) = (e.1 :: e.2) ++ inLines rest := rfl
    rw [hcut, List.filter_append, List.mapM_append, List.mapM_cons,
      lineText_eq (f := f) hk hlabel hline]
    simp only [bind_assoc, pure_bind, Text.concat_cons, List.map_append, Text.concat_append]
    refine bind_congr fun first => ?_
    have happend := congrArg (fun text => text >>= fun t =>
      (pure (Text.concat (first.map (·.text)) ++ t) : Except Fault String)) hmore
    simpa only [bind_assoc, pure_bind] using happend

/-- A line leads to no start block. -/
lemma Line.kind_ne_start (hs : s.Linear) {b : Block} {line : List Block} (h : s.Line b line) :
    ∀ c ∈ line, c.kind ≠ .start := by
  intro c hc hk
  obtain ⟨a, -, hac⟩ := Relation.TransGen.tail'_iff.mp (h.reaches c hc)
  exact hs.not_wired_start (h.subset hc) hk hac

/-- What is known of each line of a scene. -/
lemma Lines.sections {l : Links} (hs : s.Linear) (hstart : ∃ b ∈ s.blocks, b.kind = .start)
    (h : s.Lines l lines) : ∀ e ∈ lines, e.1.kind = .start ∧
      (∃ label, label ≠ "" ∧ e.1.startLabel = .ok label) ∧ ∀ b ∈ e.2, b.kind ≠ .start := by
  intro e he
  obtain ⟨hmem, hk⟩ := h.start_of_mem hstart he
  exact ⟨hk, hs.labels e.1 hmem hk, (h.line e he).kind_ne_start hs⟩

/-- The chunks of a scene of lines are those of its blocks, line by line. -/
lemma chunks_lines (hf : s.flow around = .ok f) (hs : s.Linear)
    (hstart : ∃ b ∈ s.blocks, b.kind = .start) (h : s.Lines f.links lines) :
    s.chunks around = (do
      let _ ← sortBlocks s.blocks
      ((inLines lines).filter (!·.kind.isDefinition)).mapM f.looseChunk) := by
  obtain ⟨labelled, hlabelled⟩ : ∃ labelled, anyLabelled (lines.map (·.1)) = .ok labelled := by
    refine anyLabelled_ok fun b hb => ?_
    obtain ⟨e, he, rfl⟩ := List.mem_map.mp hb
    obtain ⟨-, ⟨label, -, hlabel⟩, -⟩ := h.sections hs hstart e he
    exact ⟨label, hlabel⟩
  have hsome : (lines.map (·.1)).isEmpty = false := by
    rw [Bool.eq_false_iff]
    intro hempty
    obtain ⟨b, hb, hk⟩ := hstart
    have hnone := h.entries
    rw [List.isEmpty_iff.mp hempty] at hnone
    exact kind_ne_start_of_entryBlocks_nil hnone b hb hk
  rw [chunks, hf, ok_bind, h.entries, ok_bind, hlabelled, hsome,
    Flow.entryChunks_lines hf hs hstart h]
  rfl

/-- Lines have texts exactly if the blocks behind their start blocks have, definitions aside. -/
lemma exists_lineTexts_iff {l : Links} (hs : s.Linear) (hstart : ∃ b ∈ s.blocks, b.kind = .start)
    (h : s.Lines l lines) :
    (∃ texts, lines.mapM (lineText around) = .ok texts) ↔
      ∀ e ∈ lines, ∀ b ∈ e.2, b.kind.isDefinition = false →
        ∃ text, b.render indentation around = .ok text := by
  constructor
  · rintro ⟨texts, htexts⟩ e he b hb hk
    obtain ⟨text, -, htext⟩ := exists_of_mapM_eq_ok htexts he
    obtain ⟨label, -, htext⟩ := bind_eq_ok.mp htext
    obtain ⟨parts, hparts, -⟩ := bind_eq_ok.mp htext
    have hmem : b ∈ e.2.filter (!·.kind.isDefinition) := List.mem_filter.mpr ⟨hb, by simp [hk]⟩
    obtain ⟨part, -, hpart⟩ := exists_of_mapM_eq_ok hparts hmem
    exact ⟨part, hpart⟩
  · intro hrender
    refine exists_mapM_eq_ok fun e he => ?_
    obtain ⟨-, ⟨label, -, hlabel⟩, -⟩ := h.sections hs hstart e he
    have hblocks : ∀ b ∈ e.2.filter (!·.kind.isDefinition), ∃ text,
        b.render indentation around = .ok text := by
      intro b hb
      obtain ⟨hb, hk⟩ := List.mem_filter.mp hb
      exact hrender e he b hb (by simpa using hk)
    obtain ⟨parts, hparts⟩ := exists_mapM_eq_ok hblocks
    rw [lineText, hlabel, ok_bind, hparts]
    exact ⟨_, rfl⟩

/-- Once its blocks are in order, a scene of lines is written line by line. -/
lemma script_lines {cast : Option Cast} {labels : List String} {l : Links} (hl : s.links = .ok l)
    (hs : s.Linear) (hstart : ∃ b ∈ s.blocks, b.kind = .start) (h : s.Lines l lines) :
    s.script cast labels = (do
      let _ ← sortBlocks s.blocks
      let texts ← lines.mapM (lineText { cast, labels := some labels })
      pure (Text.concat texts ++ "\n")) := by
  have hne : ¬s.blocks.isEmpty = true := by
    obtain ⟨b, hb, -⟩ := hstart
    simpa using List.ne_nil_of_mem hb
  obtain ⟨f, hf⟩ : ∃ f, s.flow { cast, labels := some labels } = .ok f := by
    rw [flow, hl]
    exact ⟨_, rfl⟩
  obtain ⟨hl', -, -, haround⟩ := flow_eq_ok hf
  obtain rfl : l = f.links := Except.ok.inj (hl.symm.trans hl')
  have htexts := congrArg (fun text => text >>= fun t => (pure (t ++ "\n") : Except Fault String))
    (mapM_lineText (f := f) (h.sections hs hstart))
  rw [haround] at htexts
  simp only [bind_assoc, pure_bind] at htexts
  rw [script, if_neg hne, chunks_lines hf hs hstart h, bind_assoc, htexts]

lemma script_of_links_error {cast : Option Cast} {labels : List String} {fault : Fault}
    (hne : s.blocks ≠ []) (h : s.links = .error fault) : s.script cast labels = .error fault := by
  rw [script, if_neg (by simpa using hne), chunks, flow, h]
  rfl

/-- What cannot be put in order is not written. -/
lemma script_of_arranged_error {cast : Option Cast} {labels : List String} {fault : Fault}
    (hne : s.blocks ≠ []) (hs : s.Linear) (h : s.arranged = .error fault) :
    s.script cast labels = .error fault := by
  rcases bind_eq_error.mp h with hl | ⟨l, hl, h⟩
  · exact script_of_links_error hne hl
  rcases bind_eq_error.mp h with hentries | ⟨starts, hentries, h⟩
  · rw [script, if_neg (by simpa using hne), chunks, flow, hl]
    simp only [ok_bind, pure_bind, hentries]
    rfl
  rcases bind_eq_error.mp h with hsort | ⟨sorted, -, h⟩
  · have hstart := hs.exists_start hne
    obtain ⟨lines, hlines⟩ := hs.exists_lines hstart hentries
    rw [script_lines hl hs hstart hlines, hsort]
    rfl
  · cases h

/-- A scene without a graph fails as its graph does. One that is made of lines is written line by
line, in the order of its start blocks, if its blocks can be put in order, and else fails as they
do. It has a text exactly if the blocks on its lines have, and else the fault of the first that has
none. -/
theorem script_of_linear (hne : s.blocks ≠ []) (cast : Option Cast) (labels : List String) :
    (∀ fault, s.links = .error fault → s.script cast labels = .error fault) ∧
    (s.Linear →
      (s.Measured → ∃ l, s.arranged = .ok l) ∧
      (∀ fault, s.arranged = .error fault → s.script cast labels = .error fault) ∧
      ∀ l, s.arranged = .ok l → ∃ lines, s.Lines l lines ∧
        s.script cast labels = (do
          let texts ← lines.mapM (lineText { cast, labels := some labels })
          pure (Text.concat texts ++ "\n")) ∧
        ((∃ text, s.script cast labels = .ok text) ↔
          ∀ e ∈ lines, ∀ b ∈ e.2, b.kind.isDefinition = false →
            ∃ text, b.render indentation { cast, labels := some labels } = .ok text)) := by
  refine ⟨fun fault => script_of_links_error hne, fun hs => ?_⟩
  have hstart := hs.exists_start hne
  refine ⟨fun hm => hm.exists_arranged hstart, fun fault => script_of_arranged_error hne hs,
    fun l hl => ?_⟩
  obtain ⟨hl, ⟨starts, hentries⟩, sorted, hsort⟩ := arranged_eq_ok.mp hl
  obtain ⟨lines, hlines⟩ := hs.exists_lines hstart hentries
  have hscript : s.script cast labels = (do
      let texts ← lines.mapM (lineText { cast, labels := some labels })
      pure (Text.concat texts ++ "\n")) := by
    rw [script_lines hl hs hstart hlines, hsort, ok_bind]
  refine ⟨lines, hlines, hscript, ?_⟩
  rw [← exists_lineTexts_iff hs hstart hlines, hscript]
  constructor
  · rintro ⟨text, htext⟩
    obtain ⟨texts, htexts, -⟩ := bind_eq_ok.mp htext
    exact ⟨texts, htexts⟩
  · rintro ⟨texts, htexts⟩
    rw [htexts]
    exact ⟨_, rfl⟩

/-- Two short stories, the second of them drawn above the first, with a picture on the way. -/
def twoLines : Scene where
  id := .text "s"
  name := .text "Scene"
  label := .text "start"
  blocks :=
    [{ id := .text "t", kind := .start, params := .object [("label", .text "two")],
       y := .float ⟨0x3ff0000000000000⟩ },
      { id := .text "b", kind := .narration, params := .object [("text", .text "b")] },
      { id := .text "s", kind := .start, params := .object [("label", .text "one")] },
      { id := .text "m", kind := .image },
      { id := .text "a", kind := .narration, params := .object [("text", .text "a")] }]
  ports :=
    [{ id := .text "t.o", nodeId := .text "t", name := .text "out", direction := .output },
      { id := .text "b.i", nodeId := .text "b", name := .text "in", direction := .input },
      { id := .text "s.o", nodeId := .text "s", name := .text "out", direction := .output },
      { id := .text "m.i", nodeId := .text "m", name := .text "in", direction := .input },
      { id := .text "m.o", nodeId := .text "m", name := .text "out", direction := .output },
      { id := .text "a.i", nodeId := .text "a", name := .text "in", direction := .input }]
  connections :=
    [{ id := .text "1", fromPort := .text "m.o", toPort := .text "a.i" },
      { id := .text "2", fromPort := .text "s.o", toPort := .text "m.i" },
      { id := .text "3", fromPort := .text "t.o", toPort := .text "b.i" }]

lemma twoLines_measured : twoLines.Measured where
  blocks := by decide
  ports := by decide
  connections := by decide
  distance := by
    have hfloat : ∀ b ∈ twoLines.blocks, ∃ x y, b.x = .float x ∧ b.y = .float y := by
      simp [twoLines]
    exact fun a ha b hb => Block.exists_distance_of_float (hfloat a ha) (hfloat b hb)

lemma twoLines_linear : twoLines.Linear where
  keys := by decide
  selfEqual := by decide
  plain := by decide
  out := by decide
  into := by decide
  starts := by
    intro b hb hk
    simp only [twoLines, List.mem_cons, List.not_mem_nil, or_false] at hb
    rcases hb with rfl | rfl | rfl | rfl | rfl
    · rfl
    · cases hk
    · rfl
    · cases hk
    · cases hk
  labels := by
    intro b hb hk
    simp only [twoLines, List.mem_cons, List.not_mem_nil, or_false] at hb
    rcases hb with rfl | rfl | rfl | rfl | rfl
    · exact ⟨"two", by decide, rfl⟩
    · cases hk
    · exact ⟨"one", by decide, rfl⟩
    · cases hk
    · cases hk
  reached := by
    intro b hb hk
    simp only [twoLines, List.mem_cons, List.not_mem_nil, or_false] at hb
    rcases hb with rfl | rfl | rfl | rfl | rfl
    · exact absurd rfl hk
    · exact ⟨twoLines.blocks[0], by decide, rfl, .single (by decide)⟩
    · exact absurd rfl hk
    · exact ⟨twoLines.blocks[2], by decide, rfl, .single (by decide)⟩
    · exact ⟨twoLines.blocks[2], by decide, rfl,
        .tail (b := twoLines.blocks[3]) (.single (by decide)) (by decide)⟩

theorem twoLines_script :
    twoLines.blocks ≠ [] ∧ twoLines.Linear ∧
      (∃ l lines, twoLines.arranged = .ok l ∧ twoLines.Lines l lines ∧
        twoLines.script none [] = (do
          let texts ← lines.mapM (lineText { cast := none, labels := some [] })
          pure (Text.concat texts ++ "\n"))) ∧
      twoLines.script none [] =
        .ok "label one:\n    \"a\"\nlabel two:\n    \"b\"\n\n" := by
  have hne : twoLines.blocks ≠ [] := by decide
  obtain ⟨hexists, -, hwritten⟩ := (script_of_linear hne none []).2 twoLines_linear
  obtain ⟨l, hl⟩ := hexists twoLines_measured
  obtain ⟨lines, hlines, hscript, -⟩ := hwritten l hl
  exact ⟨hne, twoLines_linear, ⟨l, lines, hl, hlines, hscript⟩,
    eq_ok_of_toOption (by decide +kernel)⟩

def emptyScene : Scene := { id := .text "s", name := .text "Scene", label := .text "start" }

/-- One block behind the start of a story. -/
def shortScene (start b : Block) : Scene where
  id := .text "s"
  name := .text "Scene"
  label := .text "start"
  blocks := [start, b]
  ports :=
    [{ id := .text "o", nodeId := start.id, name := .text "out", direction := .output },
      { id := .text "i", nodeId := b.id, name := .text "in", direction := .input }]
  connections := [{ id := .text "1", fromPort := .text "o", toPort := .text "i" }]

/-- A story that asks with an answer that is no list. -/
def askingScene : Scene :=
  shortScene (startBlock "s" "one" 0 0)
    { id := .text "m", kind := .menu, params := .object [("choices", .text "5")], x := .int 0,
      y := .int 3 }

/-- A story that begins at a place that is no number. -/
def slantedScene : Scene :=
  shortScene { startBlock "s" "one" 0 0 with x := .text "left" } (toldBlock "n" 0 3)

/-- Two beginnings, one of which lies at a height that is no number. -/
def unevenScene : Scene where
  id := .text "s"
  name := .text "Scene"
  label := .text "start"
  blocks := [startBlock "s" "one" 0 0, { startBlock "t" "two" 0 0 with y := .text "low" }]

lemma askingScene_linear : askingScene.Linear where
  keys := by decide
  selfEqual := by decide
  plain := by decide
  out := by decide
  into := by decide
  starts := by
    intro b hb hk
    simp only [askingScene, shortScene, List.mem_cons, List.not_mem_nil, or_false] at hb
    rcases hb with rfl | rfl
    · rfl
    · cases hk
  labels := by
    intro b hb hk
    simp only [askingScene, shortScene, List.mem_cons, List.not_mem_nil, or_false] at hb
    rcases hb with rfl | rfl
    · exact ⟨"one", by decide, rfl⟩
    · cases hk
  reached := by
    intro b hb hk
    simp only [askingScene, shortScene, List.mem_cons, List.not_mem_nil, or_false] at hb
    rcases hb with rfl | rfl
    · exact absurd rfl hk
    · exact ⟨askingScene.blocks[0], by decide, rfl, .single (by decide)⟩

lemma unevenScene_linear : unevenScene.Linear where
  keys := by decide
  selfEqual := by decide
  plain := by decide
  out := by decide
  into := by decide
  starts := fun _ _ _ => rfl
  labels := by
    intro b hb _
    simp only [unevenScene, List.mem_cons, List.not_mem_nil, or_false] at hb
    rcases hb with rfl | rfl
    · exact ⟨"one", by decide, rfl⟩
    · exact ⟨"two", by decide, rfl⟩
  reached := by
    intro b hb hk
    simp only [unevenScene, List.mem_cons, List.not_mem_nil, or_false] at hb
    rcases hb with rfl | rfl
    · exact absurd rfl hk
    · exact absurd rfl hk

/-- Lines that are not written as such: where there are none, where a block cannot be written, where
one is not found under its id, where a wire has no length, and where the beginnings have no
order. -/
theorem lines_not_written :
    (emptyScene.Linear ∧ emptyScene.script none [] = .ok "pass\n\n") ∧
    (askingScene.Linear ∧ askingScene.Placed ∧
      ∃ fault, askingScene.script none [] = .error fault) ∧
    (strayScene.DistinctKeys ∧ strayScene.Placed ∧ strayScene.script none [] =
      .ok "label one:\nlabel two:\n    \"c\"\n    \"n\"\n\n") ∧
    (slantedScene.Named ∧ ∃ fault, slantedScene.script none [] = .error fault) ∧
    (unevenScene.Linear ∧ ∃ fault, unevenScene.script none [] = .error fault) := by
  refine ⟨⟨?_, rfl⟩, ⟨askingScene_linear, by decide, _, rfl⟩, ⟨by decide, by decide, ?_⟩,
    ⟨by decide, _, rfl⟩, ⟨unevenScene_linear, _, rfl⟩⟩
  · constructor
    · decide
    all_goals simp [emptyScene]
  · exact eq_ok_of_toOption (by decide +kernel)

end Scene
end NovelGraph
