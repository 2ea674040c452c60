import NovelGraph.Proofs.Chain
import NovelGraph.Proofs.Renaming
import NovelGraph.Script.Whole

/-! The script does not depend on the ids. Every pass over a renamed scene goes the way of the pass
over the scene itself: it meets the same blocks in the same order and writes the same texts. -/
namespace NovelGraph

open Outcome Script

namespace Flow

/-- A scene with its graph under new ids. -/
def renamed (ρ : Renaming) (f : Flow) : Flow where
  scene := f.scene.renamed ρ
  links := f.links.renamed ρ
  inputs := f.inputs.renamed ρ
  around := f.around

variable (ρ : Renaming) (f : Flow)

section Chains

/-- What a chain has written and seen, under new ids. -/
def doneRenamed (ρ : Renaming) (done : String × List Value) : String × List Value :=
  (done.1, done.2.map (Value.renamed ρ.block))

@[simp] lemma enters_renamed (seen : List Value) (id : Value) :
    (f.renamed ρ).enters (seen.map (Value.renamed ρ.block)) (id.renamed ρ.block) =
      f.enters seen id := by
  simp only [enters, renamed, Value.renamed_memberOf, Inputs.allSeen_renamed]

lemma depth_renamed : (f.renamed ρ).depth = f.depth := by
  simp only [depth, renamed, Links.targets_renamed, List.length_map]

lemma map_append_renamed (seen : List Value) (id : Value) :
    seen.map (Value.renamed ρ.block) ++ [id.renamed ρ.block] =
      (seen ++ [id]).map (Value.renamed ρ.block) := by
  rw [List.map_append, List.map_singleton]

lemma flow_findBlock_renamed (id : Value) :
    (f.renamed ρ).scene.findBlock (id.renamed ρ.block) =
      (f.scene.findBlock id).map (Block.renamed ρ) := Scene.findBlock_renamed ρ f.scene id

/-- Chains of a given depth are the same under new ids. -/
def ChainsRenamed (fuel : ℕ) : Prop :=
  ∀ (seen : List Value) (indent : String) (follow : Bool) (id : Value),
    (f.renamed ρ).chainFrom fuel (seen.map (Value.renamed ρ.block)) indent follow
        (id.renamed ρ.block) =
      doneRenamed ρ <$> f.chainFrom fuel seen indent follow id

namespace ChainsRenamed

variable {ρ f} {fuel : ℕ} {seen : List Value} {indent : String} {follow : Bool} {id : Value}
  {b : Block}

lemma branchFrom (h : f.ChainsRenamed ρ fuel) (seen : List Value) (indent : String) (b : Block)
    (n : ℕ) :
    (f.renamed ρ).branchFrom fuel (seen.map (Value.renamed ρ.block)) indent (b.renamed ρ) n =
      f.branchFrom fuel seen indent b n := by
  have hnext : ((f.renamed ρ).links.nextIds (b.renamed ρ).id)[n]? =
      ((f.links.nextIds b.id)[n]?).map (Value.renamed ρ.block) := by
    rw [← List.getElem?_map]
    exact congrArg (·[n]?) (Links.nextIds_renamed ρ f.links b.id)
  simp only [Flow.branchFrom, hnext]
  cases (f.links.nextIds b.id)[n]? with
  | none => rfl
  | some next =>
    simp only [Option.map_some, h _ _ _ _, bind_map_left]
    rfl

lemma extend (h : f.ChainsRenamed ρ fuel) (done : String × List Value) (next : Value) :
    (f.renamed ρ).extend fuel indent (doneRenamed ρ done) (next.renamed ρ.block) =
      doneRenamed ρ <$> f.extend fuel indent done next := by
  simp only [Flow.extend, doneRenamed, h _ _ _ _, bind_map_left, map_bind, map_pure]

/-- The suites of a control block are chains with the same texts, and nothing follows. -/
lemma chainFrom_control (h : f.ChainsRenamed ρ fuel) (he : f.enters seen id = true)
    (hb : f.scene.findBlock id = some b) (hk : b.kind.isControl = true) :
    (f.renamed ρ).chainFrom (fuel + 1) (seen.map (Value.renamed ρ.block)) indent follow
        (id.renamed ρ.block) =
      doneRenamed ρ <$> f.chainFrom (fuel + 1) seen indent follow id := by
  have he' := (enters_renamed ρ f seen id).trans he
  have hb' := flow_findBlock_renamed ρ f id
  rw [hb, Option.map_some] at hb'
  cases hkind : b.kind <;> simp only [hkind, BlockKind.isControl, Bool.false_eq_true] at hk
  case ifElse =>
    rw [chainFrom_ifElse he hb hkind, chainFrom_ifElse he' hb' hkind, map_append_renamed]
    simp only [h.branchFrom, map_bind]
    refine bind_congr fun ps => ?_
    split_ifs
    · rfl
    · simp only [map_bind]
      rfl
  case whileLoop =>
    rw [chainFrom_whileLoop he hb hkind, chainFrom_whileLoop he' hb' hkind, map_append_renamed]
    simp only [h.branchFrom, map_bind]
    refine bind_congr fun ps => ?_
    split_ifs
    · rfl
    · simp only [map_bind]
      rfl
  case forLoop =>
    rw [chainFrom_forLoop he hb hkind, chainFrom_forLoop he' hb' hkind, map_append_renamed]
    simp only [h.branchFrom, map_bind]
    refine bind_congr fun ps => ?_
    split_ifs
    · rfl
    · simp only [map_bind]
      rfl

/-- Behind other blocks the chain goes on to the same blocks, in the same order. -/
lemma chainFrom_plain (h : f.ChainsRenamed ρ fuel) (he : f.enters seen id = true)
    (hb : f.scene.findBlock id = some b) (hk : b.kind.isControl = false) :
    (f.renamed ρ).chainFrom (fuel + 1) (seen.map (Value.renamed ρ.block)) indent follow
        (id.renamed ρ.block) =
      doneRenamed ρ <$> f.chainFrom (fuel + 1) seen indent follow id := by
  have he' := (enters_renamed ρ f seen id).trans he
  have hb' := flow_findBlock_renamed ρ f id
  rw [hb, Option.map_some] at hb'
  have hsort : (f.renamed ρ).scene.sortByPlace ((f.renamed ρ).links.next (b.renamed ρ).id) =
      List.map (Value.renamed ρ.block) <$> f.scene.sortByPlace (f.links.next b.id) := by
    rw [← Scene.sortByPlace_renamed]
    exact congrArg _ (Links.next_renamed ρ f.links b.id)
  rw [Flow.chainFrom_plain he hb hk, Flow.chainFrom_plain he' hb' hk, map_append_renamed, hsort,
    map_bind]
  refine bind_congr fun own => ?_
  cases follow with
  | false => rfl
  | true =>
    simp only [if_true, bind_map_left, map_bind]
    exact bind_congr fun next =>
      foldlM_hom (doneRenamed ρ) (Value.renamed ρ.block) next h.extend (own, seen ++ [id])

end ChainsRenamed

/-- A chain under new ids is the same chain. -/
theorem chainFrom_renamed (fuel : ℕ) : f.ChainsRenamed ρ fuel := by
  induction fuel with
  | zero => exact fun _ _ _ _ => rfl
  | succ fuel ih =>
    intro seen indent follow id
    cases he : f.enters seen id with
    | false =>
      rw [chainFrom_of_not_enters he, chainFrom_of_not_enters ((enters_renamed ρ f _ _).trans he)]
      rfl
    | true =>
      cases hb : f.scene.findBlock id with
      | none =>
        have hb' := flow_findBlock_renamed ρ f id
        rw [hb, Option.map_none] at hb'
        rw [chainFrom_of_missing he hb,
          chainFrom_of_missing ((enters_renamed ρ f _ _).trans he) hb', map_append_renamed]
        rfl
      | some b =>
        cases hk : b.kind.isControl with
        | false => exact ih.chainFrom_plain he hb hk
        | true => exact ih.chainFrom_control he hb hk

lemma chain_renamed (seen : List Value) (indent : String) (follow : Bool) (id : Value) :
    (f.renamed ρ).chain (seen.map (Value.renamed ρ.block)) indent follow (id.renamed ρ.block) =
      doneRenamed ρ <$> f.chain seen indent follow id := by
  simp only [chain, depth_renamed, chainFrom_renamed ρ f _ _ _ _ _, Value.renamed_requireKey,
    map_bind]

end Chains

section Ranks

/-- Ranks under new ids. -/
def ranksRenamed (ρ : Renaming) (ranks : Ranks) : Ranks := Dict.renamed ρ.block (fun r => r) ranks

@[simp] lemma contains_ranksRenamed (ranks : Ranks) (id : Value) :
    (ranksRenamed ρ ranks).contains (id.renamed ρ.block) = ranks.contains id :=
  Dict.contains_renamed _ _ _ _

lemma set_ranksRenamed (ranks : Ranks) (id : Value) (rank : Rank) :
    (ranksRenamed ρ ranks).set (id.renamed ρ.block) rank = ranksRenamed ρ (ranks.set id rank) :=
  Dict.set_renamed ρ.block (fun r => r) ranks id rank

lemma get?_ranksRenamed (ranks : Ranks) (id : Value) :
    (ranksRenamed ρ ranks).get? (id.renamed ρ.block) = ranks.get? id := by
  rw [ranksRenamed, Dict.get?_renamed, Option.map_id']

@[simp] lemma isReady_renamed (ranks : Ranks) (id : Value) :
    (f.renamed ρ).isReady (ranksRenamed ρ ranks) (id.renamed ρ.block) = f.isReady ranks id := by
  rw [isReady, ranksRenamed, Dict.keys_renamed, renamed, Inputs.allSeen_renamed, isReady]

lemma levelAfterInputs_renamed (ranks : Ranks) (id : Value) :
    (f.renamed ρ).levelAfterInputs (ranksRenamed ρ ranks) (id.renamed ρ.block) =
      f.levelAfterInputs ranks id := by
  simp only [levelAfterInputs, renamed, Inputs.sources_renamed, List.foldl_map, get?_ranksRenamed]

lemma mayRank_renamed (ranks : Ranks) (b : Block) :
    (f.renamed ρ).mayRank (ranksRenamed ρ ranks) (b.renamed ρ) = f.mayRank ranks b := by
  have hc : (ranksRenamed ρ ranks).contains (b.renamed ρ).id = ranks.contains b.id :=
    contains_ranksRenamed ρ ranks b.id
  have hr : (f.renamed ρ).isReady (ranksRenamed ρ ranks) (b.renamed ρ).id = f.isReady ranks b.id :=
    isReady_renamed ρ f ranks b.id
  rw [mayRank, mayRank, hc, hr]
  rfl

/-- The branches of a fork under new ids, if one branch does what it did. -/
lemma foldlM_rankBranch_renamed {fuel : ℕ}
    (hbranch : ∀ (ranks : Ranks) (id : Value) (rank : Rank),
      (f.renamed ρ).rankBranch fuel (ranksRenamed ρ ranks) (id.renamed ρ.block) rank =
        ranksRenamed ρ <$> f.rankBranch fuel ranks id rank)
    (ranks : Ranks) (fork : List (Value × Double)) (level : ℕ) :
    ((f.renamed ρ).scene.sortByPlace (fork.map (Links.hopRenamed ρ)) >>= fun next =>
      next.zipIdx.foldlM
        (fun ranks t => (f.renamed ρ).rankBranch fuel ranks t.1 ⟨level + 1, t.2⟩)
        (ranksRenamed ρ ranks)) =
      ranksRenamed ρ <$> (f.scene.sortByPlace fork >>= fun next =>
        next.zipIdx.foldlM (fun ranks t => f.rankBranch fuel ranks t.1 ⟨level + 1, t.2⟩)
          ranks) := by
  simp only [renamed, Scene.sortByPlace_renamed, bind_map_left, map_bind, List.zipIdx_map]
  refine bind_congr fun next => ?_
  exact foldlM_hom (ranksRenamed ρ) (Prod.map (Value.renamed ρ.block) id) next.zipIdx
    (fun ranks t => hbranch ranks t.1 ⟨level + 1, t.2⟩) ranks

lemma rankBranch_renamed (fuel : ℕ) (ranks : Ranks) (id : Value) (rank : Rank) :
    (f.renamed ρ).rankBranch fuel (ranksRenamed ρ ranks) (id.renamed ρ.block) rank =
      ranksRenamed ρ <$> f.rankBranch fuel ranks id rank := by
  induction fuel generalizing ranks id rank with
  | zero => rfl
  | succ fuel ih =>
    have hfound : (f.renamed ρ).scene.findBlock (id.renamed ρ.block) =
        (f.scene.findBlock id).map (Block.renamed ρ) := Scene.findBlock_renamed ρ f.scene id
    have hnext : (f.renamed ρ).links.next (id.renamed ρ.block) =
        (f.links.next id).map (Links.hopRenamed ρ) := Links.next_renamed ρ f.links id
    simp only [rankBranch, Value.renamed_isTruthy, contains_ranksRenamed, isReady_renamed, hfound,
      hnext, set_ranksRenamed]
    split_ifs
    · rfl
    · cases f.scene.findBlock id with
      | none => rfl
      | some b =>
        match f.links.next id with
        | [] => rfl
        | [(next, d)] =>
          have hsources : (f.renamed ρ).inputs.sources (next.renamed ρ.block) =
              (f.inputs.sources next).map (Value.renamed ρ.block) :=
            Inputs.sources_renamed ρ f.inputs next
          simp only [Option.map_some, List.map_cons, List.map_nil, Links.hopRenamed, hsources,
            List.length_map, ih]
          split_ifs <;> rfl
        | t :: u :: rest =>
          exact foldlM_rankBranch_renamed ρ f ih (ranks.set id rank) (t :: u :: rest) rank.level

lemma rankFrom_renamed (fuel : ℕ) (ranks : Ranks) (id : Value) (rank : Rank) :
    (f.renamed ρ).rankFrom fuel (ranksRenamed ρ ranks) (id.renamed ρ.block) rank =
      ranksRenamed ρ <$> f.rankFrom fuel ranks id rank := by
  induction fuel generalizing ranks id rank with
  | zero => rfl
  | succ fuel ih =>
    have hfound : (f.renamed ρ).scene.findBlock (id.renamed ρ.block) =
        (f.scene.findBlock id).map (Block.renamed ρ) := Scene.findBlock_renamed ρ f.scene id
    have hnext : (f.renamed ρ).links.next (id.renamed ρ.block) =
        (f.links.next id).map (Links.hopRenamed ρ) := Links.next_renamed ρ f.links id
    simp only [rankFrom, contains_ranksRenamed, isReady_renamed, hfound, hnext, set_ranksRenamed]
    cases f.scene.findBlock id with
    | none => split_ifs <;> rfl
    | some b =>
      simp only [Option.map_some]
      split_ifs
      · rfl
      · rfl
      · match f.links.next id with
        | [] => rfl
        | [(next, d)] => exact ih _ _ _
        | t :: u :: rest =>
          exact foldlM_rankBranch_renamed ρ f (rankBranch_renamed ρ f fuel) (ranks.set id rank)
            (t :: u :: rest) rank.level

lemma rankPass_renamed (blocks : List Block) (ranks : Ranks) :
    (f.renamed ρ).rankPass (blocks.map (Block.renamed ρ)) (ranksRenamed ρ ranks) =
      Prod.map (ranksRenamed ρ) id <$> f.rankPass blocks ranks := by
  refine foldlM_hom (Prod.map (ranksRenamed ρ) id) (Block.renamed ρ) blocks ?_ (ranks, false)
  rintro ⟨ranks, progress⟩ b
  simp only [Prod.map, mayRank_renamed, depth_renamed]
  split_ifs
  · have hrank : (f.renamed ρ).rankFrom f.depth (ranksRenamed ρ ranks) (b.renamed ρ).id
        ⟨(f.renamed ρ).levelAfterInputs (ranksRenamed ρ ranks) (b.renamed ρ).id, 0⟩ =
        ranksRenamed ρ <$> f.rankFrom f.depth ranks b.id ⟨f.levelAfterInputs ranks b.id, 0⟩ := by
      rw [← levelAfterInputs_renamed ρ f ranks b.id]
      exact rankFrom_renamed ρ f f.depth ranks b.id _
    simp only [hrank, bind_map_left, map_bind]
    rfl
  · rfl

lemma rankPasses_renamed (n : ℕ) (ranks : Ranks) :
    (f.renamed ρ).rankPasses n (ranksRenamed ρ ranks) =
      ranksRenamed ρ <$> f.rankPasses n ranks := by
  induction n generalizing ranks with
  | zero => rfl
  | succ n ih =>
    have hsort : Scene.sortBlocks (f.renamed ρ).scene.blocks =
        List.map (Block.renamed ρ) <$> Scene.sortBlocks f.scene.blocks :=
      Scene.sortBlocks_renamed ρ f.scene.blocks
    simp only [rankPasses, hsort, bind_map_left, rankPass_renamed, map_bind]
    refine bind_congr fun sorted => bind_congr fun state => ?_
    simp only [Prod.map, id, ih]
    split_ifs <;> rfl

/-- The blocks of a renamed scene get the ranks that they had. -/
theorem ranks_renamed (entries : List Block) :
    (f.renamed ρ).ranks (entries.map (Block.renamed ρ)) = ranksRenamed ρ <$> f.ranks entries := by
  have hfirst : (entries.map (Block.renamed ρ)).foldlM
      (fun ranks b => (f.renamed ρ).rankFrom (f.renamed ρ).depth ranks b.id ⟨0, 0⟩) [] =
      ranksRenamed ρ <$>
        entries.foldlM (fun ranks b => f.rankFrom f.depth ranks b.id ⟨0, 0⟩) [] := by
    refine foldlM_hom (ranksRenamed ρ) (Block.renamed ρ) entries (fun ranks b => ?_) []
    rw [depth_renamed]
    exact rankFrom_renamed ρ f f.depth ranks b.id ⟨0, 0⟩
  have hlength : (f.renamed ρ).scene.blocks.length = f.scene.blocks.length := List.length_map _
  simp only [ranks, hfirst, hlength, bind_map_left, map_bind, rankPasses_renamed]

end Ranks

end Flow

/-- A chunk with its block under its new id. -/
def Chunk.renamed (ρ : Renaming) (c : Chunk) : Chunk := ⟨c.block.renamed ρ, c.text⟩

lemma Chunk.map_text_renamed (ρ : Renaming) (chunks : List Chunk) :
    (chunks.map (Chunk.renamed ρ)).map (·.text) = chunks.map (·.text) := by
  rw [List.map_map]
  rfl

namespace Flow

variable (ρ : Renaming) (f : Flow)

/-- Chunks with the ids seen after them, under new ids. -/
def toldRenamed {α : Type} (g : α → α) (ρ : Renaming) (told : α × List Value) : α × List Value :=
  (g told.1, told.2.map (Value.renamed ρ.block))

lemma rankedChunk_renamed (seen : List Value) (b : Block) :
    (f.renamed ρ).rankedChunk (seen.map (Value.renamed ρ.block)) (b.renamed ρ) =
      toldRenamed (Chunk.renamed ρ) ρ <$> f.rankedChunk seen b := by
  have hchain : (f.renamed ρ).chain (seen.map (Value.renamed ρ.block)) indentation true
      (b.renamed ρ).id = doneRenamed ρ <$> f.chain seen indentation true b.id :=
    chain_renamed ρ f seen indentation true b.id
  have hkind : (b.renamed ρ).kind = b.kind := rfl
  rw [rankedChunk, rankedChunk, hkind, hchain]
  split <;> simp only [map_bind, bind_map_left] <;> rfl

lemma rankedChunks_renamed (order seen : List Value) :
    (f.renamed ρ).rankedChunks (order.map (Value.renamed ρ.block))
        (seen.map (Value.renamed ρ.block)) =
      toldRenamed (List.map (Chunk.renamed ρ)) ρ <$> f.rankedChunks order seen := by
  induction order generalizing seen with
  | nil => rfl
  | cons id rest ih =>
    have hfound : (f.renamed ρ).scene.findBlock (id.renamed ρ.block) =
        (f.scene.findBlock id).map (Block.renamed ρ) := Scene.findBlock_renamed ρ f.scene id
    simp only [List.map_cons, rankedChunks, Value.renamed_memberOf, hfound]
    split_ifs
    · exact ih seen
    · cases f.scene.findBlock id with
      | none => exact ih seen
      | some b =>
        have hkind : (b.renamed ρ).kind = b.kind := rfl
        simp only [Option.map_some, hkind]
        split_ifs
        · exact ih seen
        · simp only [rankedChunk_renamed, bind_map_left, map_bind]
          refine bind_congr fun told => ?_
          simp only [toldRenamed, Value.renamed_memberOf, map_append_renamed,
            ← apply_ite (List.map _), ih, bind_map_left]
          rfl

lemma filter_unseen_renamed (seen : List Value) (blocks : List Block) :
    ((blocks.map (Block.renamed ρ)).filter fun b =>
        !b.id.memberOf (seen.map (Value.renamed ρ.block)) && !b.kind.isDefinition) =
      (blocks.filter fun b => !b.id.memberOf seen && !b.kind.isDefinition).map
        (Block.renamed ρ) := by
  rw [List.filter_map]
  simp only [Function.comp_def, Block.renamed, Value.renamed_memberOf]

lemma entryChunks_renamed (entries : List Block) :
    (f.renamed ρ).entryChunks (entries.map (Block.renamed ρ)) =
      List.map (Chunk.renamed ρ) <$> f.entryChunks entries := by
  have horder : ∀ ranks : Ranks,
      (Order.sortByKey (·.2) Rank.lt (ranksRenamed ρ ranks)).map (·.1) =
        ((Order.sortByKey (·.2) Rank.lt ranks).map (·.1)).map (Value.renamed ρ.block) := by
    intro ranks
    rw [ranksRenamed, Dict.renamed, Order.sortByKey_map (fun _ => rfl), List.map_map, List.map_map]
    rfl
  have hloose : ∀ seen : List Value,
      ((f.renamed ρ).scene.blocks.filter fun b =>
          !b.id.memberOf (seen.map (Value.renamed ρ.block)) && !b.kind.isDefinition).mapM
        (f.renamed ρ).looseChunk =
      List.map (Chunk.renamed ρ) <$>
        (f.scene.blocks.filter fun b => !b.id.memberOf seen && !b.kind.isDefinition).mapM
          f.looseChunk := by
    intro seen
    refine (congrArg (List.mapM _) (filter_unseen_renamed ρ seen f.scene.blocks)).trans ?_
    refine mapM_hom (Block.renamed ρ) (Chunk.renamed ρ) _ fun b => ?_
    simp only [looseChunk, map_bind]
    rfl
  have hranked : ∀ order : List Value,
      (f.renamed ρ).rankedChunks (order.map (Value.renamed ρ.block)) [] =
        toldRenamed (List.map (Chunk.renamed ρ)) ρ <$> f.rankedChunks order [] :=
    fun order => rankedChunks_renamed ρ f order []
  simp only [entryChunks, ranks_renamed, bind_map_left, map_bind, horder, hranked]
  refine bind_congr fun ranks => bind_congr fun told => ?_
  simp only [toldRenamed, hloose, bind_map_left, map_pure, List.map_append]

lemma placedChunks_renamed :
    (f.renamed ρ).placedChunks = List.map (Chunk.renamed ρ) <$> f.placedChunks := by
  have hsort : Scene.sortBlocks (f.renamed ρ).scene.blocks =
      List.map (Block.renamed ρ) <$> Scene.sortBlocks f.scene.blocks :=
    Scene.sortBlocks_renamed ρ f.scene.blocks
  simp only [placedChunks, hsort, bind_map_left, map_bind]
  refine bind_congr fun blocks => ?_
  rw [List.filter_map]
  refine mapM_hom (Block.renamed ρ) (Chunk.renamed ρ) _ fun b => ?_
  simp only [map_bind]
  rfl

end Flow

namespace Scene

variable (ρ : Renaming) (s : Scene)

lemma flow_renamed (around : Surroundings) :
    (s.renamed ρ).flow around = Flow.renamed ρ <$> s.flow around := by
  simp only [flow, links_renamed, bind_map_left, map_bind, map_pure, Links.reverse_renamed]
  rfl

lemma anyLabelled_renamed (blocks : List Block) :
    anyLabelled (blocks.map (Block.renamed ρ)) = anyLabelled blocks := by
  induction blocks with
  | nil => rfl
  | cons b rest ih =>
    rw [List.map_cons, anyLabelled, anyLabelled, ih]
    rfl

lemma chunks_renamed (around : Surroundings) :
    (s.renamed ρ).chunks around = List.map (Chunk.renamed ρ) <$> s.chunks around := by
  simp only [chunks, flow_renamed, bind_map_left, map_bind]
  refine bind_congr fun f => ?_
  have hentries : (s.renamed ρ).entryBlocks (f.renamed ρ).links =
      List.map (Block.renamed ρ) <$> s.entryBlocks f.links := entryBlocks_renamed ρ s f.links
  simp only [hentries, bind_map_left, anyLabelled_renamed, List.isEmpty_map,
    Flow.placedChunks_renamed, Flow.entryChunks_renamed]
  refine bind_congr fun entries => bind_congr fun _ => ?_
  split_ifs <;> rfl

/-- A scene under new ids has the same text. -/
theorem script_renamed (cast : Option Cast) (labels : List String) :
    (s.renamed ρ).script cast labels = s.script cast labels := by
  have hempty : (s.renamed ρ).blocks.isEmpty = s.blocks.isEmpty := List.isEmpty_map
  simp only [script, hempty, chunks_renamed, bind_map_left, Chunk.map_text_renamed]

end Scene

namespace Project

variable (ρ : Renaming) (p : Project)

lemma blocks_renamed : (p.renamed ρ).blocks = p.blocks.map (Block.renamed ρ) := by
  simp only [blocks, Project.renamed, List.flatMap_map, List.map_flatMap, Scene.blocks_renamed]

lemma blocksOf_renamed (kind : BlockKind) :
    (p.renamed ρ).blocksOf kind = (p.blocksOf kind).map (Block.renamed ρ) := by
  rw [blocksOf, blocks_renamed, List.filter_map]
  rfl

lemma paramsOf_renamed (kind : BlockKind) : (p.renamed ρ).paramsOf kind = p.paramsOf kind := by
  rw [paramsOf, blocksOf_renamed, List.mapM_map]
  rfl

lemma pathOfImage?_renamed (name : String) :
    (p.renamed ρ).pathOfImage? name = p.pathOfImage? name := by
  simp only [pathOfImage?, Project.renamed, List.foldlM_map, Scene.blocks_renamed]
  rfl

lemma backgroundImages_renamed : (p.renamed ρ).backgroundImages = p.backgroundImages := by
  simp only [backgroundImages, blocksOf_renamed, List.foldlM_map, pathOfImage?_renamed]
  rfl

lemma definitionLines_renamed : (p.renamed ρ).definitionLines = p.definitionLines := by
  have himages : (p.renamed ρ).imageSection = p.imageSection := by
    simp only [imageSection, allImages, imageBlocks, paramsOf_renamed, backgroundImages_renamed]
    rfl
  have hcharacters : (p.renamed ρ).characterSection = p.characterSection := rfl
  have hblocks : ∀ before, (p.renamed ρ).characterBlockSection before =
      p.characterBlockSection before := by
    intro before
    simp only [characterBlockSection, blocksOf_renamed, List.foldlM_map]
    rfl
  have hvariables : ∀ before, (p.renamed ρ).variableSection before =
      p.variableSection before := by
    intro before
    simp only [variableSection, blocks_renamed, List.filter_map, List.foldlM_map]
    rfl
  simp only [definitionLines, himages, hcharacters, hblocks, hvariables]

lemma characterNames_renamed : (p.renamed ρ).characterNames = p.characterNames := by
  simp only [characterNames, blocks_renamed, List.foldlM_map]
  rfl

lemma labels_renamed : (p.renamed ρ).labels = p.labels := by
  simp only [labels, blocks_renamed, List.mapM_map]
  rfl

lemma firstStart?_renamed : (p.renamed ρ).firstStart? = p.firstStart? := by
  simp only [firstStart?, blocksOf_renamed, List.foldlM_map]
  rfl

/-- A project under new ids has the same script, or fails in the same way. -/
theorem script_independent_of_ids (ρ : Renaming) (p : Project) :
    (p.renamed ρ).script = p.script := by
  have hscenes : ∀ cast labels, (p.renamed ρ).scenes.mapM (·.script cast labels) =
      p.scenes.mapM (·.script cast labels) := by
    intro cast labels
    rw [Project.renamed, List.mapM_map]
    exact congrArg (p.scenes.mapM ·) (funext fun s => Scene.script_renamed ρ s cast labels)
  have hblocks : (p.renamed ρ).characterBlockNames = p.characterBlockNames := by
    rw [characterBlockNames, paramsOf_renamed, characterBlockNames]
  have hundefined : ∀ names fromBlocks, (p.renamed ρ).undefinedCharacters names fromBlocks =
      p.undefinedCharacters names fromBlocks := fun _ _ => rfl
  have hcharacters : (p.renamed ρ).characters = p.characters := rfl
  simp only [script, definitions, definitionLines_renamed, characterNames_renamed, hblocks,
    hundefined, hcharacters, labels_renamed, firstStart?_renamed, hscenes]

end Project
end NovelGraph
