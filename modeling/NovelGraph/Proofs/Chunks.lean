import Mathlib.Data.List.Perm.Basic
import NovelGraph.Proofs.Chain
import NovelGraph.Proofs.Sorting
import NovelGraph.Script.SceneText

/-! What a scene writes, block by block: every block that is no definition has its chunk, once. -/
namespace NovelGraph

open Outcome Script

namespace Flow

/-- What a block may write in a scene, with the ids that were seen before it. Start blocks stand at
the margin; a control block is silent or writes its chain; all others are indented once. -/
def Contributes (f : Flow) (seen : List Value) (c : Chunk) : Prop :=
  match c.block.kind with
  | .start => c.block.startLine "" = .ok c.text
  | .ifElse | .whileLoop | .forLoop =>
    c.text = "" ∨ ∃ after, f.chain seen indentation true c.block.id = .ok (c.text, after)
  | _ => c.block.render indentation f.around = .ok c.text

/-- Chunks one after the other, with the ids seen before and after them. Each of them marks the id
of its block, under which it cannot be written again. -/
inductive Written (f : Flow) : List Value → List Chunk → List Value → Prop
  | nil (seen : List Value) : Written f seen [] seen
  | cons {seen last : List Value} {c : Chunk} {cs : List Chunk} {mark : Value}
      (found : f.scene.findBlock c.block.id = some c.block)
      (kind : c.block.kind.isDefinition = false)
      (text : ∃ after, f.rankedChunk seen c.block = .ok (c, after))
      (fresh : c.block.id.memberOf seen = false) (marked : c.block.id.same mark = true)
      (rest : Written f (seen ++ [mark]) cs last) : Written f seen (c :: cs) last

variable {f : Flow} {seen last : List Value} {b : Block} {c : Chunk} {chunks : List Chunk}

/-- Outside of control blocks a chunk is what its block writes by itself. -/
lemma contributes_of_render (hb : c.block = b)
    (h : b.render (if b.kind = .start then "" else indentation) f.around = .ok c.text) :
    f.Contributes seen c := by
  subst hb
  unfold Contributes
  split
  · rename_i hk
    simpa [hk, Block.render] using h
  · rename_i hk
    simp only [hk, Block.render] at h
    exact .inl (Except.ok.inj h).symm
  · rename_i hk
    simp only [hk, Block.render] at h
    exact .inl (Except.ok.inj h).symm
  · rename_i hk
    simp only [hk, Block.render] at h
    exact .inl (Except.ok.inj h).symm
  · rename_i hk _ _ _
    rwa [if_neg hk] at h

lemma contributes_of_chain {after : List Value} (hb : c.block = b) (hk : b.kind.isControl = true)
    (h : f.chain seen indentation true b.id = .ok (c.text, after)) : f.Contributes seen c := by
  subst hb
  unfold Contributes
  cases hkind : c.block.kind <;> simp only [hkind, BlockKind.isControl, Bool.false_eq_true] at hk
  all_goals exact .inr ⟨after, h⟩

lemma rankedChunk_of_control (hk : b.kind.isControl = true) :
    f.rankedChunk seen b = (do
      let (text, after) ← f.chain seen indentation true b.id
      pure (⟨b, text⟩, after)) := by
  unfold rankedChunk
  cases hkind : b.kind <;> simp only [hkind, BlockKind.isControl, Bool.false_eq_true] at hk
  all_goals rfl

lemma rankedChunk_of_plain (hk : b.kind.isControl = false) :
    f.rankedChunk seen b = (do
      pure (⟨b, ← b.render (if b.kind = .start then "" else indentation) f.around⟩, seen)) := by
  unfold rankedChunk
  split
  · rename_i hkind
    simp [hkind]
  · rename_i hkind
    simp [hkind, BlockKind.isControl] at hk
  · rename_i hkind
    simp [hkind, BlockKind.isControl] at hk
  · rename_i hkind
    simp [hkind, BlockKind.isControl] at hk
  · rename_i hkind _ _ _
    rw [if_neg hkind]

/-- Chains of control blocks leave at most the id of the block behind. -/
lemma chain_of_control {indent text : String} {follow : Bool} {after : List Value}
    (hb : f.scene.findBlock b.id = some b) (hk : b.kind.isControl = true)
    (h : f.chain seen indent follow b.id = .ok (text, after)) :
    after = seen ∨ after = seen ++ [b.id] := by
  rw [chain, bind_eq_ok] at h
  obtain ⟨-, -, h⟩ := h
  cases he : f.enters seen b.id with
  | false =>
    rw [depth, chainFrom_of_not_enters he] at h
    cases h
    exact .inl rfl
  | true => exact .inr (chainFrom_control he hb hk h).1

lemma rankedChunk_eq_ok {after : List Value} (hb : f.scene.findBlock b.id = some b)
    (h : f.rankedChunk seen b = .ok (c, after)) :
    c.block = b ∧ f.Contributes seen c ∧ (after = seen ∨ after = seen ++ [b.id]) := by
  cases hk : b.kind.isControl with
  | true =>
    rw [rankedChunk_of_control hk, bind_eq_ok] at h
    obtain ⟨⟨text, after'⟩, hc, h⟩ := h
    cases h
    exact ⟨rfl, contributes_of_chain rfl hk hc, chain_of_control hb hk hc⟩
  | false =>
    rw [rankedChunk_of_plain hk, bind_eq_ok] at h
    obtain ⟨text, ht, h⟩ := h
    cases h
    exact ⟨rfl, contributes_of_render rfl ht, .inl rfl⟩

/-- What an id adds to the chunks: nothing, if it was seen or names no block that writes, else the
chunk of its block, and a mark. -/
lemma rankedChunks_cons_eq_ok {id : Value} {rest : List Value}
    (h : f.rankedChunks (id :: rest) seen = .ok (chunks, last)) :
    (f.rankedChunks rest seen = .ok (chunks, last) ∧
      (id.memberOf seen = true ∨ ∀ b, f.scene.findBlock id = some b → b.kind.isDefinition = true)) ∨
    ∃ c cs mark, chunks = c :: cs ∧ f.scene.findBlock id = some c.block ∧
      c.block.kind.isDefinition = false ∧
      (∃ after, f.rankedChunk seen c.block = .ok (c, after)) ∧ id.memberOf seen = false ∧
      id.same mark = true ∧ f.rankedChunks rest (seen ++ [mark]) = .ok (cs, last) := by
  rw [rankedChunks] at h
  split at h
  · rename_i hseen
    exact .inl ⟨h, .inl hseen⟩
  · rename_i hfresh
    split at h
    · rename_i hb
      exact .inl ⟨h, .inr (by simp [hb])⟩
    · rename_i b hb
      split at h
      · rename_i hkind
        exact .inl ⟨h, .inr (by simp [hb, hkind])⟩
      · rename_i hkind
        obtain ⟨⟨c, after⟩, hc, h⟩ := bind_eq_ok.mp h
        obtain ⟨⟨cs, last'⟩, hcs, h⟩ := bind_eq_ok.mp h
        cases h
        have hsame := Value.same_symm (Value.same_of_equals (Scene.findBlock_equals hb))
        obtain ⟨rfl, -, hafter⟩ := rankedChunk_eq_ok (Scene.findBlock_self hb) hc
        -- the id is marked by the chain of a control block, else by the loop itself
        obtain ⟨mark, hmark, hnext⟩ : ∃ mark, id.same mark = true ∧
            (if id.memberOf after = true then after else after ++ [id]) = seen ++ [mark] := by
          rcases hafter with rfl | rfl
          · exact ⟨id, Value.same_refl id, if_neg hfresh⟩
          · exact ⟨c.block.id, hsame, if_pos (by simp [hsame])⟩
        rw [hnext] at hcs
        exact .inr ⟨c, cs, mark, rfl, hb, by simpa using hkind, ⟨after, hc⟩, by simpa using hfresh,
          hmark, hcs⟩

lemma rankedChunks_written {ids : List Value}
    (h : f.rankedChunks ids seen = .ok (chunks, last)) : f.Written seen chunks last := by
  induction ids generalizing seen chunks with
  | nil =>
    cases h
    exact .nil _
  | cons id rest ih =>
    rcases rankedChunks_cons_eq_ok h with ⟨h, -⟩ |
      ⟨c, cs, mark, rfl, hb, hkind, htext, hfresh, hmark, h⟩
    · exact ih h
    · have hsame := Value.same_of_equals (Scene.findBlock_equals hb)
      refine .cons (Scene.findBlock_self hb) hkind htext ?_ (Value.same_trans hsame hmark) (ih h)
      rwa [Value.memberOf_congr hsame]

/-- Ids that are told apart bring the chunks of their blocks, in order. -/
lemma rankedChunks_blocks {ids : List Value} (hids : ids.Pairwise fun v w => v.same w = false)
    (hseen : ∀ v ∈ ids, v.memberOf seen = false)
    (h : f.rankedChunks ids seen = .ok (chunks, last)) :
    chunks.map (·.block) =
      (ids.filterMap f.scene.findBlock).filter (!·.kind.isDefinition) := by
  induction ids generalizing seen chunks with
  | nil =>
    cases h
    rfl
  | cons id rest ih =>
    obtain ⟨hid, hrest⟩ := List.pairwise_cons.mp hids
    rcases rankedChunks_cons_eq_ok h with ⟨h, hnone⟩ |
      ⟨c, cs, mark, rfl, hb, hkind, -, -, hmark, h⟩
    · rw [ih hrest (fun v hv => hseen v (by simp [hv])) h]
      have hdef := hnone.resolve_left (by simp [hseen id (by simp)])
      cases hb : f.scene.findBlock id with
      | none => rw [List.filterMap_cons_none hb]
      | some b => rw [List.filterMap_cons_some hb, List.filter_cons_of_neg (by simp [hdef b hb])]
    · rw [List.map_cons, List.filterMap_cons_some hb, List.filter_cons_of_pos (by simp [hkind])]
      rw [ih hrest ?_ h]
      intro v hv
      rw [Value.memberOf_append, hseen v (by simp [hv]), Value.memberOf_singleton, Bool.false_or,
        Bool.eq_false_iff]
      intro hvm
      have hne := hid v hv
      rw [Value.same_trans hmark (Value.same_symm hvm)] at hne
      exact Bool.noConfusion hne

namespace Written

lemma memberOf_last (h : f.Written seen chunks last) {v : Value} :
    v.memberOf last = true ↔ v.memberOf seen = true ∨ ∃ c ∈ chunks, v.same c.block.id = true := by
  induction h with
  | nil seen => simp
  | cons found kind text fresh marked rest ih =>
    rw [ih, Value.memberOf_append, Value.memberOf_singleton, Bool.or_eq_true, or_assoc]
    have hm (w : Value) (c : Chunk) (m : Value) (hcm : c.block.id.same m = true) :
        w.same m = true ↔ w.same c.block.id = true :=
      ⟨fun h => Value.same_trans h (Value.same_symm hcm), fun h => Value.same_trans h hcm⟩
    rw [hm v _ _ marked]
    simp only [List.mem_cons, exists_eq_or_imp]

lemma block_mem (h : f.Written seen chunks last) {c : Chunk} (hc : c ∈ chunks) :
    f.scene.findBlock c.block.id = some c.block ∧ c.block.kind.isDefinition = false := by
  induction h with
  | nil => simp at hc
  | cons found kind text fresh marked rest ih =>
    rcases List.mem_cons.mp hc with rfl | hc
    · exact ⟨found, kind⟩
    · exact ih hc

lemma fresh_of_mem (h : f.Written seen chunks last) {c : Chunk} (hc : c ∈ chunks) :
    c.block.id.memberOf seen = false := by
  induction h with
  | nil => simp at hc
  | cons found kind text fresh marked rest ih =>
    rcases List.mem_cons.mp hc with rfl | hc
    · exact fresh
    · have hn := ih hc
      rw [Value.memberOf_append, Bool.or_eq_false_iff] at hn
      exact hn.1

/-- No block is written twice. -/
lemma nodup (h : f.Written seen chunks last) : (chunks.map (·.block)).Nodup := by
  induction h with
  | nil => simp
  | @cons seen last c cs mark found kind text fresh marked rest ih =>
    rw [List.map_cons, List.nodup_cons]
    refine ⟨?_, ih⟩
    intro hmem
    obtain ⟨d, hd, heq⟩ := List.mem_map.mp hmem
    have hn := rest.fresh_of_mem hd
    rw [heq, Value.memberOf_append, Value.memberOf_singleton, marked, Bool.or_true] at hn
    exact Bool.noConfusion hn

/-- Every chunk is written with the blocks before it seen. -/
lemma rankedChunk (h : f.Written seen chunks last) {before after : List Chunk} {c : Chunk}
    (hc : chunks = before ++ c :: after) :
    ∃ new seen', List.Forall₂ (fun d mark => d.block.id.same mark = true) before new ∧
      f.rankedChunk (seen ++ new) c.block = .ok (c, seen') := by
  induction h generalizing before with
  | nil => simp at hc
  | @cons seen last d ds mark found kind text fresh marked rest ih =>
    cases before with
    | nil =>
      obtain ⟨rfl, rfl⟩ := List.cons.inj hc
      obtain ⟨seen', hseen'⟩ := text
      exact ⟨[], seen', .nil, by simpa using hseen'⟩
    | cons e before =>
      obtain ⟨rfl, hrest⟩ := List.cons.inj hc
      obtain ⟨new, seen', hnew, htext⟩ := ih hrest
      refine ⟨mark :: new, seen', .cons marked hnew, ?_⟩
      rwa [List.append_assoc, List.singleton_append] at htext

/-- The marks tell which blocks of the scene have been written. -/
lemma memberOf_iff_written (h : f.Written [] chunks last) (hs : f.scene.DistinctIds)
    (hb : b ∈ f.scene.blocks) : b.id.memberOf last = true ↔ b ∈ chunks.map (·.block) := by
  rw [h.memberOf_last]
  constructor
  · rintro (hn | ⟨c, hc, hsame⟩)
    · simp at hn
    · have hfound := (h.block_mem hc).1
      have heq : c.block.id.equals b.id = true := by
        rw [Value.equals_congr_right _ hsame]
        exact Scene.findBlock_equals hfound
      rw [← hs.eq_of_equals (Scene.findBlock_mem hfound) hb heq]
      exact List.mem_map_of_mem hc
  · intro hmem
    obtain ⟨c, hc, rfl⟩ := List.mem_map.mp hmem
    exact .inr ⟨c, hc, Value.same_refl _⟩

/-- What was written, followed by all that was not marked, is the whole scene. -/
lemma append_rest_perm (h : f.Written [] chunks last) (hs : f.scene.DistinctIds) :
    (chunks.map (·.block) ++ f.scene.blocks.filter fun b =>
      !b.id.memberOf last && !b.kind.isDefinition).Perm
      (f.scene.blocks.filter (!·.kind.isDefinition)) := by
  have hmarked : (chunks.map (·.block)).Perm
      ((f.scene.blocks.filter (!·.kind.isDefinition)).filter (·.id.memberOf last)) := by
    rw [List.perm_ext_iff_of_nodup h.nodup]
    · intro b
      rw [List.mem_filter, List.mem_filter]
      constructor
      · intro hb
        obtain ⟨c, hc, rfl⟩ := List.mem_map.mp hb
        obtain ⟨hfound, hkind⟩ := h.block_mem hc
        have hin := Scene.findBlock_mem hfound
        exact ⟨⟨hin, by simp [hkind]⟩, (h.memberOf_iff_written hs hin).mpr hb⟩
      · rintro ⟨⟨hin, -⟩, hmark⟩
        exact (h.memberOf_iff_written hs hin).mp hmark
    · -- a marked block is equal to itself, so it cannot stand in the scene twice
      have hsub := (List.filter_sublist (p := (·.id.memberOf last))).trans
        (List.filter_sublist (p := fun b : Block => !b.kind.isDefinition) (l := f.scene.blocks))
      refine (hs.sublist hsub).imp_of_mem ?_
      rintro a b ha - hne rfl
      obtain ⟨hin, hmark⟩ := List.mem_filter.mp ha
      have hb := (h.memberOf_iff_written hs (List.mem_filter.mp hin).1).mp hmark
      obtain ⟨c, hc, rfl⟩ := List.mem_map.mp hb
      rw [Scene.findBlock_equals (h.block_mem hc).1] at hne
      exact Bool.noConfusion hne
  have hrest : f.scene.blocks.filter (fun b => !b.id.memberOf last && !b.kind.isDefinition) =
      (f.scene.blocks.filter (!·.kind.isDefinition)).filter (!·.id.memberOf last) := by
    rw [List.filter_filter]
  rw [hrest]
  exact (hmarked.append_right _).trans (List.filter_append_perm _ _)

end Written

lemma entryChunks_eq_ok {entries : List Block} (h : f.entryChunks entries = .ok chunks) :
    ∃ ranks ranked last loose, f.ranks entries = .ok ranks ∧
      f.rankedChunks ((Order.sortByKey (·.2) Rank.lt ranks).map (·.1)) [] = .ok (ranked, last) ∧
      List.Forall₂ (fun b c => f.looseChunk b = .ok c)
        (f.scene.blocks.filter fun b => !b.id.memberOf last && !b.kind.isDefinition) loose ∧
      chunks = ranked ++ loose := by
  rw [entryChunks, bind_eq_ok] at h
  obtain ⟨ranks, hr, h⟩ := h
  obtain ⟨⟨ranked, last⟩, hw, h⟩ := bind_eq_ok.mp h
  obtain ⟨loose, hl, h⟩ := bind_eq_ok.mp h
  cases h
  exact ⟨ranks, ranked, last, loose, hr, hw, mapM_eq_ok hl, rfl⟩

lemma looseChunk_eq_ok (h : f.looseChunk b = .ok c) :
    c.block = b ∧ ∀ seen, f.Contributes seen c := by
  rw [looseChunk, bind_eq_ok] at h
  obtain ⟨text, ht, h⟩ := h
  cases h
  exact ⟨rfl, fun _ => contributes_of_render rfl ht⟩

lemma placedChunks_eq_ok (h : f.placedChunks = .ok chunks) :
    ∃ sorted, Scene.sortBlocks f.scene.blocks = .ok sorted ∧
      List.Forall₂ (fun b c => c.block = b ∧ b.render indentation f.around = .ok c.text)
        (sorted.filter (!·.kind.isDefinition)) chunks := by
  rw [placedChunks, bind_eq_ok] at h
  obtain ⟨sorted, hs, h⟩ := h
  refine ⟨sorted, hs, (mapM_eq_ok h).imp ?_⟩
  intro b c hc
  obtain ⟨text, ht, hc⟩ := bind_eq_ok.mp hc
  cases hc
  exact ⟨rfl, ht⟩

lemma blocks_of_forall₂ {R : Block → Chunk → Prop} {blocks : List Block}
    (hR : ∀ {b c}, R b c → c.block = b) (h : List.Forall₂ R blocks chunks) :
    chunks.map (·.block) = blocks := by
  induction h with
  | nil => rfl
  | cons hc _ ih => rw [List.map_cons, hR hc, ih]

/-- Chunks that hold one for each of the given blocks, in any order, and each what its block may
write there. -/
structure Covers (f : Flow) (blocks : List Block) (chunks : List Chunk) : Prop where
  perm : (chunks.map (·.block)).Perm blocks
  contributes : ∀ {before c after}, chunks = before ++ c :: after →
    ∃ seen, List.Forall₂ (fun d id => d.block.id.same id = true) before seen ∧
      f.Contributes seen c

lemma Covers.of_mem {blocks : List Block} (h : f.Covers blocks chunks) (hc : c ∈ chunks) :
    c.block ∈ blocks ∧ ∃ seen, f.Contributes seen c := by
  obtain ⟨before, after, hcut⟩ := List.append_of_mem hc
  obtain ⟨seen, -, htext⟩ := h.contributes hcut
  exact ⟨h.perm.mem_iff.mp (List.mem_map_of_mem hc), seen, htext⟩

lemma forall₂_ids (before : List Chunk) :
    List.Forall₂ (fun d id => d.block.id.same id = true) before (before.map (·.block.id)) := by
  rw [List.forall₂_map_right_iff, List.forall₂_same]
  exact fun d _ => Value.same_refl _

lemma entryChunks_covers {entries : List Block} (hs : f.scene.DistinctIds)
    (h : f.entryChunks entries = .ok chunks) :
    f.Covers (f.scene.blocks.filter (!·.kind.isDefinition)) chunks := by
  obtain ⟨ranks, ranked, last, loose, -, hr, hl, rfl⟩ := entryChunks_eq_ok h
  have hw := rankedChunks_written hr
  constructor
  · rw [List.map_append, blocks_of_forall₂ (fun h => (looseChunk_eq_ok h).1) hl]
    exact hw.append_rest_perm hs
  · intro before c after hcut
    rcases List.append_eq_append_iff.mp hcut with ⟨mid, rfl, hloose⟩ | ⟨mid, rfl, hmid⟩
    · have hc : c ∈ loose := by simp [hloose]
      obtain ⟨b, -, hb⟩ := exists_left_of_forall₂ hl hc
      exact ⟨_, forall₂_ids _, (looseChunk_eq_ok hb).2 _⟩
    · cases mid with
      | nil =>
        have hc : c ∈ loose := by
          rw [← List.nil_append loose, ← hmid]
          simp
        obtain ⟨b, -, hb⟩ := exists_left_of_forall₂ hl hc
        exact ⟨_, forall₂_ids _, (looseChunk_eq_ok hb).2 _⟩
      | cons d mid =>
        obtain ⟨rfl, -⟩ := List.cons.inj hmid
        obtain ⟨new, seen', hnew, htext⟩ := hw.rankedChunk rfl
        rw [List.nil_append] at htext
        exact ⟨new, hnew, (rankedChunk_eq_ok (hw.block_mem (by simp)).1 htext).2.1⟩

lemma placedChunks_covers (hs : ∀ b ∈ f.scene.blocks, b.kind ≠ .start)
    (h : f.placedChunks = .ok chunks) :
    f.Covers (f.scene.blocks.filter (!·.kind.isDefinition)) chunks := by
  obtain ⟨sorted, hsort, hall⟩ := placedChunks_eq_ok h
  have hperm := Order.sortOn_perm hsort
  constructor
  · rw [blocks_of_forall₂ (fun h => h.1) hall]
    exact hperm.filter _
  · intro before c after hcut
    have hc : c ∈ chunks := by simp [hcut]
    obtain ⟨b, hb, hcb, htext⟩ := exists_left_of_forall₂ hall hc
    have hstart := hs b (hperm.mem_iff.mp (List.mem_filter.mp hb).1)
    refine ⟨_, forall₂_ids _, contributes_of_render hcb ?_⟩
    rwa [if_neg hstart]

end Flow

namespace Scene

lemma flow_eq_ok {s : Scene} {around : Surroundings} {f : Flow} (h : s.flow around = .ok f) :
    s.links = .ok f.links ∧ f.scene = s ∧ f.inputs = f.links.reverse ∧ f.around = around := by
  rw [flow, bind_eq_ok] at h
  obtain ⟨links, hl, h⟩ := h
  cases h
  exact ⟨hl, rfl, rfl, rfl⟩

/-- With start blocks these are the entries. -/
lemma entryBlocks_perm_of_start {s : Scene} {links : Links} {entries : List Block}
    (hstart : ∃ b ∈ s.blocks, b.kind = .start) (h : s.entryBlocks links = .ok entries) :
    entries.Perm (s.blocks.filter (·.kind == .start)) := by
  unfold entryBlocks at h
  rw [if_pos (by simpa using hstart)] at h
  exact Order.sortOn_perm h

lemma kind_ne_start_of_entryBlocks_nil {s : Scene} {links : Links}
    (h : s.entryBlocks links = .ok []) : ∀ b ∈ s.blocks, b.kind ≠ .start := by
  intro b hb hk
  have hmem : b ∈ s.blocks.filter (·.kind == .start) := by simp [hb, hk]
  rw [← (entryBlocks_perm_of_start ⟨b, hb, hk⟩ h).mem_iff] at hmem
  simp at hmem

lemma chunks_eq_ok {s : Scene} {around : Surroundings} {chunks : List Chunk}
    (h : s.chunks around = .ok chunks) :
    ∃ f entries, s.flow around = .ok f ∧ s.entryBlocks f.links = .ok entries ∧
      (if entries.isEmpty then f.placedChunks else f.entryChunks entries) = .ok chunks := by
  rw [Scene.chunks, bind_eq_ok] at h
  obtain ⟨f, hf, h⟩ := h
  obtain ⟨entries, he, h⟩ := bind_eq_ok.mp h
  obtain ⟨-, -, h⟩ := bind_eq_ok.mp h
  exact ⟨f, entries, hf, he, h⟩

lemma chunks_covers {s : Scene} {around : Surroundings} {chunks : List Chunk}
    (hs : s.DistinctIds) (h : s.chunks around = .ok chunks) :
    ∃ f, s.flow around = .ok f ∧ f.Covers (s.blocks.filter (!·.kind.isDefinition)) chunks := by
  obtain ⟨f, entries, hf, he, h⟩ := chunks_eq_ok h
  obtain ⟨-, rfl, -, -⟩ := flow_eq_ok hf
  refine ⟨f, hf, ?_⟩
  cases entries with
  | nil => exact Flow.placedChunks_covers (kind_ne_start_of_entryBlocks_nil he) h
  | cons e rest => exact Flow.entryChunks_covers hs h

lemma script_eq_ok {s : Scene} {cast : Option Cast} {labels : List String} {text : String}
    (hne : s.blocks ≠ []) (h : s.script cast labels = .ok text) :
    ∃ chunks, s.chunks { cast, labels := some labels } = .ok chunks ∧
      text = Text.concat (chunks.map (·.text)) ++ "\n" := by
  have hempty : s.blocks.isEmpty = false := by simpa using hne
  rw [script, hempty, if_neg Bool.false_ne_true, bind_eq_ok] at h
  obtain ⟨chunks, hc, h⟩ := h
  cases h
  exact ⟨chunks, hc, rfl⟩

/-- Nothing of a scene is lost and nothing is written twice: its text is one chunk for each block
that is no definition, in some order, and a newline. -/
theorem script_one_chunk_per_block {s : Scene} {cast : Option Cast} {labels : List String}
    {text : String} (hne : s.blocks ≠ []) (hs : s.DistinctIds)
    (h : s.script cast labels = .ok text) :
    ∃ f chunks, s.flow { cast, labels := some labels } = .ok f ∧
      text = Text.concat (chunks.map (·.text)) ++ "\n" ∧
      (chunks.map (·.block)).Perm (s.blocks.filter (!·.kind.isDefinition)) ∧
      ∀ before c after, chunks = before ++ c :: after →
        ∃ seen, List.Forall₂ (fun d id => d.block.id.same id = true) before seen ∧
          f.Contributes seen c := by
  obtain ⟨chunks, hc, htext⟩ := script_eq_ok hne h
  obtain ⟨f, hf, hcover⟩ := chunks_covers hs hc
  exact ⟨f, chunks, hf, htext, hcover.perm, fun _ _ _ => hcover.contributes⟩

/-- A scene with a branch, a block that leads to itself, a wire to nowhere and a definition. -/
def loopedScene : Scene where
  id := .text "scene"
  name := .text "scene"
  label := .text "scene"
  blocks :=
    [{ id := .text "a", kind := .narration, params := .object [("text", .text "again")],
       x := .int 0, y := .int 0 },
      { id := .text "c", kind := .ifElse, params := .object [("condition", .text "ready")],
        x := .int 3, y := .int 0 },
      { id := .text "i", kind := .image, x := .int 6, y := .int 0 },
      { id := .text "n", kind := .narration, params := .object [("text", .text "on")],
        x := .int 6, y := .int 4 },
      { id := .text "s", kind := .start, params := .object [("label", .text "go")],
        x := .int 0, y := .int 4 }]
  ports :=
    [{ id := .text "a.i", nodeId := .text "a", name := .text "in", direction := .input },
      { id := .text "a.o", nodeId := .text "a", name := .text "out", direction := .output },
      { id := .text "c.i", nodeId := .text "c", name := .text "in", direction := .input },
      { id := .text "c.t", nodeId := .text "c", name := .text "True", direction := .output },
      { id := .text "n.i", nodeId := .text "n", name := .text "in", direction := .input },
      { id := .text "s.o", nodeId := .text "s", name := .text "out", direction := .output }]
  connections :=
    [{ id := .text "1", fromPort := .text "s.o", toPort := .text "c.i" },
      { id := .text "2", fromPort := .text "c.t", toPort := .text "n.i" },
      { id := .text "3", fromPort := .text "a.o", toPort := .text "a.i" },
      { id := .text "4", fromPort := .text "a.o", toPort := .text "missing" }]

def loopedText : String :=
  "label go:\n    if ready:\n                \"on\"\n\n    \"on\"\n    \"again\"\n\n"

theorem loopedScene_one_chunk_per_block :
    loopedScene.blocks ≠ [] ∧ loopedScene.DistinctIds ∧
      loopedScene.script none [] = .ok loopedText ∧
      ∃ f chunks, loopedScene.flow { cast := none, labels := some [] } = .ok f ∧
        loopedText = Text.concat (chunks.map (·.text)) ++ "\n" ∧
        (chunks.map (·.block)).Perm (loopedScene.blocks.filter (!·.kind.isDefinition)) ∧
        ∀ before c after, chunks = before ++ c :: after →
          ∃ seen, List.Forall₂ (fun d id => d.block.id.same id = true) before seen ∧
            f.Contributes seen c := by
  have hne : loopedScene.blocks ≠ [] := by decide
  have hs : loopedScene.DistinctIds := by decide
  have htext : loopedScene.script none [] = .ok loopedText := rfl
  exact ⟨hne, hs, htext, script_one_chunk_per_block hne hs htext⟩

end Scene
end NovelGraph
