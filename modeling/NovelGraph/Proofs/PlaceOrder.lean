import NovelGraph.Proofs.Chain
import NovelGraph.Proofs.NumberingDepth
import NovelGraph.Proofs.Transport
import NovelGraph.Script.Whole

/-! Places enter a script through the graph of a scene and through the order that they give to its
blocks. Scenes whose blocks say the same things, with the same graph and in the same order, have the
same script, wherever the blocks stand. -/
namespace NovelGraph

open Outcome Script

/-- What a block says, wherever it stands: its id, its kind and its parameters. -/
def Block.content (b : Block) : Block := { b with x := .null, y := .null, portIds := [], tag := 0 }

lemma Block.content_congr {β : Type} {b c : Block} (h : b.content = c.content) (f : Block → β)
    (hf : ∀ d, f d.content = f d) : f b = f c := by rw [← hf b, h, hf c]

/-- Lists of blocks that say the same things in the same order. -/
def SameContents (bs cs : List Block) : Prop := bs.map Block.content = cs.map Block.content

namespace SameContents

variable {bs cs : List Block}

/-- What depends on the contents only is the same for both. -/
lemma congr {β : Type} (h : SameContents bs cs) (f : List Block → β)
    (hf : ∀ ds, f (ds.map Block.content) = f ds) : f bs = f cs := by
  rw [← hf bs, show bs.map Block.content = cs.map Block.content from h, hf cs]

lemma length_eq (h : SameContents bs cs) : bs.length = cs.length :=
  h.congr List.length fun ds => ds.length_map _

lemma isEmpty_eq (h : SameContents bs cs) : bs.isEmpty = cs.isEmpty :=
  h.congr List.isEmpty fun _ => List.isEmpty_map

lemma filter (h : SameContents bs cs) (test : Block → Bool) (htest : ∀ b, test b.content = test b) :
    SameContents (bs.filter test) (cs.filter test) := by
  refine h.congr (fun ds => (ds.filter test).map Block.content) fun ds => ?_
  rw [List.filter_map, List.map_map]
  simp only [Function.comp_def, htest]
  rfl

/-- Loops over such lists do the same if their steps do not look further. -/
lemma foldlM_eq (h : SameContents bs cs) {ε σ : Type} {f : σ → Block → Except ε σ}
    (hf : ∀ s b, f s b.content = f s b) (s : σ) : bs.foldlM f s = cs.foldlM f s := by
  refine h.congr (·.foldlM f s) fun ds => ?_
  rw [List.foldlM_map]
  simp only [hf]

lemma mapM_eq (h : SameContents bs cs) {ε β : Type} {f : Block → Except ε β}
    (hf : ∀ b, f b.content = f b) : bs.mapM f = cs.mapM f := by
  refine h.congr (·.mapM f) fun ds => ?_
  rw [List.mapM_map]
  simp only [Function.comp_def, hf]

lemma flatMap_eq (h : SameContents bs cs) {β : Type} {f : Block → List β}
    (hf : ∀ b, f b.content = f b) : bs.flatMap f = cs.flatMap f := by
  refine h.congr (·.flatMap f) fun ds => ?_
  rw [List.flatMap_map]
  simp only [hf]

/-- A look-up finds nothing in both scenes, or blocks that say the same. -/
lemma findBlock_cases {s t : Scene} (h : SameContents s.blocks t.blocks) (id : Value) :
    (s.findBlock id = none ∧ t.findBlock id = none) ∨
      ∃ b c, s.findBlock id = some b ∧ t.findBlock id = some c ∧ b.content = c.content := by
  have hfind : (s.findBlock id).map Block.content = (t.findBlock id).map Block.content := by
    refine h.congr (fun ds => (ds.find? (·.id.equals id)).map Block.content) fun ds => ?_
    rw [List.find?_map, Option.map_map]
    rfl
  cases hb : s.findBlock id with
  | none =>
    rw [hb, Option.map_none, eq_comm, Option.map_eq_none_iff] at hfind
    exact .inl ⟨rfl, hfind⟩
  | some b =>
    rw [hb, Option.map_some, eq_comm, Option.map_eq_some_iff] at hfind
    obtain ⟨c, hc, hbc⟩ := hfind
    exact .inr ⟨b, c, rfl, hc, hbc.symm⟩

end SameContents

/-- Scenes that differ at most in places, with the same graph and the same order of blocks. -/
structure Scene.SameOrder (s t : Scene) : Prop where
  contents : SameContents s.blocks t.blocks
  links : s.links = t.links
  next : ∀ {l}, s.links = .ok l → ∀ id, s.sortByPlace (l.next id) = t.sortByPlace (l.next id)
  sorted : ∀ keep : Block → Bool, (∀ b, keep b.content = keep b) →
    List.map Block.content <$> Scene.sortBlocks (s.blocks.filter keep) =
      List.map Block.content <$> Scene.sortBlocks (t.blocks.filter keep)

namespace Flow

/-- Flows whose blocks say the same, in the same chains and with the same ranks. -/
structure Retells (f g : Flow) : Prop where
  contents : SameContents f.scene.blocks g.scene.blocks
  around : f.around = g.around
  chain : ∀ seen indent follow id, f.chain seen indent follow id = g.chain seen indent follow id
  ranks : ∀ {bs cs : List Block}, SameContents bs cs → f.ranks bs = g.ranks cs
  sorted : List.map Block.content <$> Scene.sortBlocks f.scene.blocks =
    List.map Block.content <$> Scene.sortBlocks g.scene.blocks

namespace Retells

variable {f g : Flow} {b c : Block}

/-- The text of a chunk, and the ids seen after it. -/
def told (part : Chunk × List Value) : String × List Value := (part.1.text, part.2)

def allTold (parts : List Chunk × List Value) : List String × List Value :=
  (parts.1.map (·.text), parts.2)

lemma render_eq (h : f.Retells g) (hbc : b.content = c.content) (indent : String) :
    b.render indent f.around = c.render indent g.around := by
  rw [h.around]
  exact Block.content_congr hbc (·.render indent g.around) fun _ => rfl

lemma rankedChunk_told (h : f.Retells g) (hbc : b.content = c.content) (seen : List Value) :
    told <$> f.rankedChunk seen b = told <$> g.rankedChunk seen c := by
  have hid : b.id = c.id := Block.content_congr hbc Block.id fun _ => rfl
  have hkind : b.kind = c.kind := Block.content_congr hbc Block.kind fun _ => rfl
  rw [rankedChunk, rankedChunk, hkind, hid]
  split <;> simp only [h.chain, h.render_eq hbc, map_bind] <;> rfl

lemma rankedChunks_told (h : f.Retells g) (order seen : List Value) :
    allTold <$> f.rankedChunks order seen = allTold <$> g.rankedChunks order seen := by
  induction order generalizing seen with
  | nil => rfl
  | cons id rest ih =>
    rw [rankedChunks, rankedChunks]
    rcases h.contents.findBlock_cases id with ⟨hb, hc⟩ | ⟨b, c, hb, hc, hbc⟩
    · simp only [hb, hc]
      split_ifs <;> exact ih seen
    · have hkind : b.kind = c.kind := Block.content_congr hbc Block.kind fun _ => rfl
      simp only [hb, hc, hkind]
      split_ifs
      · exact ih seen
      · exact ih seen
      · rw [map_bind, map_bind]
        refine bind_eq_of_map_eq (h.rankedChunk_told hbc seen) fun part part' hpart => ?_
        obtain ⟨htext, hseen⟩ := Prod.mk.inj hpart
        rw [map_bind, map_bind]
        simp only [hseen]
        refine bind_eq_of_map_eq (ih _) fun parts parts' hparts => ?_
        obtain ⟨htexts, hseen'⟩ := Prod.mk.inj hparts
        simp only [map_pure, allTold, List.map_cons, htext, htexts, hseen']

/-- Chunks that are made one by one, with texts that depend on the contents only. -/
lemma texts_mapM {bs cs : List Block} (hbs : SameContents bs cs)
    {chunk chunk' : Block → Except Fault Chunk} (text : Block → Except Fault String)
    (hcontent : ∀ b, text b.content = text b) (htext : ∀ b, Chunk.text <$> chunk b = text b)
    (htext' : ∀ b, Chunk.text <$> chunk' b = text b) :
    List.map Chunk.text <$> bs.mapM chunk = List.map Chunk.text <$> cs.mapM chunk' := by
  rw [← mapM_hom (fun b => b) Chunk.text bs fun b => (htext b).symm,
    ← mapM_hom (fun b => b) Chunk.text cs fun b => (htext' b).symm, List.map_id', List.map_id']
  exact hbs.mapM_eq hcontent

lemma entryChunks_texts (h : f.Retells g) {bs cs : List Block} (hbs : SameContents bs cs) :
    List.map Chunk.text <$> f.entryChunks bs = List.map Chunk.text <$> g.entryChunks cs := by
  rw [entryChunks, entryChunks, h.ranks hbs, map_bind, map_bind]
  refine bind_congr fun ranks => ?_
  rw [map_bind, map_bind]
  refine bind_eq_of_map_eq (h.rankedChunks_told _ _) fun parts parts' hparts => ?_
  obtain ⟨htexts, hseen⟩ := Prod.mk.inj hparts
  have hloose : List.map Chunk.text <$> (f.scene.blocks.filter fun b =>
        !b.id.memberOf parts.2 && !b.kind.isDefinition).mapM f.looseChunk =
      List.map Chunk.text <$> (g.scene.blocks.filter fun b =>
        !b.id.memberOf parts'.2 && !b.kind.isDefinition).mapM g.looseChunk := by
    rw [hseen]
    refine texts_mapM (h.contents.filter _ fun _ => rfl)
      (fun b => b.render (if b.kind = .start then "" else indentation) f.around) (fun _ => rfl)
      (fun b => ?_) fun b => ?_
    · simp only [looseChunk, map_bind, map_pure, bind_pure]
    · simp only [looseChunk, map_bind, map_pure, h.around, bind_pure]
  rw [map_bind, map_bind]
  refine bind_eq_of_map_eq hloose fun loose loose' hl => ?_
  simp only [map_pure, List.map_append, hl]
  rw [htexts]

lemma placedChunks_texts (h : f.Retells g) :
    List.map Chunk.text <$> f.placedChunks = List.map Chunk.text <$> g.placedChunks := by
  rw [placedChunks, placedChunks, map_bind, map_bind]
  refine bind_eq_of_map_eq h.sorted fun bs cs (hbs : SameContents bs cs) => ?_
  refine texts_mapM (hbs.filter _ fun _ => rfl) (·.render indentation f.around) (fun _ => rfl)
    (fun b => ?_) fun b => ?_
  · simp only [map_bind, map_pure, bind_pure]
  · simp only [map_bind, map_pure, h.around, bind_pure]

end Retells

section Ranks

variable {f g : Flow} (hcontents : SameContents f.scene.blocks g.scene.blocks)
  (hsorted : List.map Block.content <$> Scene.sortBlocks f.scene.blocks =
    List.map Block.content <$> Scene.sortBlocks g.scene.blocks)
  (hinputs : f.inputs = g.inputs) (hrank : f.rankFrom f.depth = g.rankFrom g.depth)

include hinputs hrank

lemma rankPass_congr {bs cs : List Block} (hbs : SameContents bs cs) (ranks : Ranks) :
    f.rankPass bs ranks = g.rankPass cs ranks := by
  simp only [rankPass, mayRank, isReady, levelAfterInputs, hinputs, hrank]
  exact hbs.foldlM_eq (fun _ _ => rfl) _

include hsorted

lemma rankPasses_congr (n : ℕ) (ranks : Ranks) : f.rankPasses n ranks = g.rankPasses n ranks := by
  induction n generalizing ranks with
  | zero => rfl
  | succ n ih =>
    rw [rankPasses, rankPasses]
    refine bind_eq_of_map_eq hsorted fun bs cs hbs => ?_
    rw [rankPass_congr hinputs hrank hbs]
    simp only [ih]

include hcontents

/-- Flows that number alike along their wires give the same ranks. -/
lemma ranks_congr {bs cs : List Block} (hbs : SameContents bs cs) : f.ranks bs = g.ranks cs := by
  have hfirst : bs.foldlM (fun ranks b => f.rankFrom f.depth ranks b.id ⟨0, 0⟩) [] =
      cs.foldlM (fun ranks b => g.rankFrom g.depth ranks b.id ⟨0, 0⟩) [] := by
    rw [hrank]
    exact hbs.foldlM_eq (fun _ _ => rfl) _
  rw [ranks, ranks, hfirst, hcontents.length_eq]
  exact bind_congr fun first => rankPasses_congr hsorted hinputs hrank _ first

end Ranks

/-- The same flow, drawn as another scene. -/
def drawnAs (f : Flow) (t : Scene) : Flow := { f with scene := t }

/-- A flow that can be drawn as a scene: the order of its blocks does not change. -/
structure SameOrder (f : Flow) (t : Scene) : Prop where
  contents : SameContents f.scene.blocks t.blocks
  next : ∀ id, f.scene.sortByPlace (f.links.next id) = t.sortByPlace (f.links.next id)
  sorted : List.map Block.content <$> Scene.sortBlocks f.scene.blocks =
    List.map Block.content <$> Scene.sortBlocks t.blocks

namespace SameOrder

variable {f : Flow} {t : Scene} {b c : Block}

section Chains

variable {fuel : ℕ} {seen : List Value} {indent : String} {follow : Bool} {id : Value}

/-- One step of a chain, given that the chains behind it are the same. -/
lemma chainFrom_step (h : f.SameOrder t) (hfuel : f.chainFrom fuel = (f.drawnAs t).chainFrom fuel)
    (he : f.enters seen id = true) (hb : f.scene.findBlock id = some b)
    (hc : t.findBlock id = some c) (hbc : b.content = c.content) :
    f.chainFrom (fuel + 1) seen indent follow id =
      (f.drawnAs t).chainFrom (fuel + 1) seen indent follow id := by
  have hid : b.id = c.id := Block.content_congr hbc Block.id fun _ => rfl
  have hkind : b.kind = c.kind := Block.content_congr hbc Block.kind fun _ => rfl
  have hparams : b.paramList = c.paramList := Block.content_congr hbc Block.paramList fun _ => rfl
  have hown : f.ownText indent b = (f.drawnAs t).ownText indent c :=
    Block.content_congr hbc (f.ownText indent) fun _ => rfl
  have hbranch : ∀ n, f.branchFrom fuel (seen ++ [id]) indent b n =
      (f.drawnAs t).branchFrom fuel (seen ++ [id]) indent c n := by
    intro n
    rw [branchFrom, branchFrom, hid, hfuel]
    rfl
  have hfollow : f.followOn fuel indent b = (f.drawnAs t).followOn fuel indent c := by
    funext done
    have hextend : f.extend fuel indent = (f.drawnAs t).extend fuel indent := by
      funext done next
      rw [extend, extend, hfuel]
    rw [followOn, followOn, h.next, hextend, hid]
    rfl
  exact chainFrom_congr he he hb hc hkind hparams hown (fun _ => hbranch 0) (fun _ => hbranch 1)
    fun _ own => by rw [hfollow]

theorem chainFrom_eq (h : f.SameOrder t) (fuel : ℕ) :
    f.chainFrom fuel = (f.drawnAs t).chainFrom fuel := by
  induction fuel with
  | zero => rfl
  | succ fuel ih =>
    funext seen indent follow id
    cases he : f.enters seen id with
    | false =>
      have he' : (f.drawnAs t).enters seen id = false := he
      rw [chainFrom_of_not_enters he, chainFrom_of_not_enters he']
    | true =>
      rcases h.contents.findBlock_cases id with ⟨hb, hc⟩ | ⟨b, c, hb, hc, hbc⟩
      · have he' : (f.drawnAs t).enters seen id = true := he
        have hc' : (f.drawnAs t).scene.findBlock id = none := hc
        rw [chainFrom_of_missing he hb, chainFrom_of_missing he' hc']
      · exact h.chainFrom_step ih he hb hc hbc

lemma chain_eq (h : f.SameOrder t) (seen : List Value) (indent : String) (follow : Bool)
    (id : Value) : f.chain seen indent follow id = (f.drawnAs t).chain seen indent follow id := by
  rw [chain, chain, h.chainFrom_eq]
  rfl

end Chains

section Ranks

lemma admits_eq (h : f.SameOrder t) (ranks : Ranks) (id : Value) :
    f.admits ranks id = (f.drawnAs t).admits ranks id := by
  have hfind : (f.scene.findBlock id).isSome = (t.findBlock id).isSome := by
    rcases h.contents.findBlock_cases id with ⟨hb, hc⟩ | ⟨b, c, hb, hc, -⟩ <;> simp [hb, hc]
  rw [admits, admits, hfind]
  rfl

lemma forkOn_eq (h : f.SameOrder t) {fuel level : ℕ}
    (hbranch : f.rankBranch fuel = (f.drawnAs t).rankBranch fuel) (id : Value) (ranks : Ranks) :
    f.forkOn fuel id level ranks = (f.drawnAs t).forkOn fuel id level ranks := by
  simp only [forkOn, rankFork, h.next, hbranch]
  rfl

lemma rankBranch_eq (h : f.SameOrder t) (fuel : ℕ) :
    f.rankBranch fuel = (f.drawnAs t).rankBranch fuel := by
  induction fuel with
  | zero => rfl
  | succ fuel ih =>
    funext ranks id rank
    rw [rankBranch_succ_eq, rankBranch_succ_eq, h.admits_eq]
    simp only [branchOn, h.forkOn_eq ih, ih]
    rfl

lemma rankFrom_eq (h : f.SameOrder t) (fuel : ℕ) :
    f.rankFrom fuel = (f.drawnAs t).rankFrom fuel := by
  induction fuel with
  | zero => rfl
  | succ fuel ih =>
    funext ranks id rank
    rw [rankFrom_succ_eq, rankFrom_succ_eq, h.admits_eq]
    simp only [numberOn, h.forkOn_eq (h.rankBranch_eq fuel), ih]
    rfl

/-- Entries that say the same give the same ranks. -/
theorem ranks_eq (h : f.SameOrder t) {bs cs : List Block} (hbs : SameContents bs cs) :
    f.ranks bs = (f.drawnAs t).ranks cs := by
  have hinputs : f.inputs = (f.drawnAs t).inputs := rfl
  exact ranks_congr h.contents h.sorted hinputs (h.rankFrom_eq _) hbs

end Ranks

/-- Drawn as the other scene the flow tells the same. -/
lemma retells (h : f.SameOrder t) : f.Retells (f.drawnAs t) where
  contents := h.contents
  around := rfl
  chain := h.chain_eq
  ranks := h.ranks_eq
  sorted := h.sorted

end SameOrder
end Flow

namespace Scene

variable {s t : Scene}

lemma anyLabelled_eq {bs cs : List Block} (h : SameContents bs cs) :
    anyLabelled bs = anyLabelled cs := by
  refine h.congr anyLabelled fun ds => ?_
  induction ds with
  | nil => rfl
  | cons b rest ih =>
    rw [List.map_cons, anyLabelled, anyLabelled, ih]
    rfl

/-- Scenes have the same text if they begin with the same blocks and their flows tell the same. -/
theorem script_eq_of_retells (hcontents : SameContents s.blocks t.blocks)
    (hflow : ∀ around, (∃ fault, s.flow around = .error fault ∧ t.flow around = .error fault) ∨
      ∃ f g, s.flow around = .ok f ∧ t.flow around = .ok g ∧ f.Retells g ∧
        List.map Block.content <$> s.entryBlocks f.links =
          List.map Block.content <$> t.entryBlocks g.links)
    (cast : Option Cast) (labels : List String) : s.script cast labels = t.script cast labels := by
  have hchunks : List.map Chunk.text <$> s.chunks { cast, labels := some labels } =
      List.map Chunk.text <$> t.chunks { cast, labels := some labels } := by
    rw [chunks, chunks]
    rcases hflow { cast, labels := some labels } with ⟨fault, hf, hg⟩ |
      ⟨f, g, hf, hg, hfg, hentries⟩
    · rw [hf, hg]
      rfl
    · simp only [hf, hg, ok_bind, map_bind]
      refine bind_eq_of_map_eq hentries fun bs cs (hbs : SameContents bs cs) => ?_
      rw [anyLabelled_eq hbs]
      refine bind_congr fun _ => ?_
      rw [hbs.isEmpty_eq]
      split_ifs
      · exact hfg.placedChunks_texts
      · exact hfg.entryChunks_texts hbs
  rw [script, script, hcontents.isEmpty_eq]
  split_ifs
  · rfl
  · refine bind_eq_of_map_eq hchunks fun parts parts' hparts => ?_
    rw [hparts]

namespace SameOrder

/-- Scenes in the same order begin with blocks that say the same. -/
lemma entryBlocks_eq (h : s.SameOrder t) (l : Links) :
    List.map Block.content <$> s.entryBlocks l = List.map Block.content <$> t.entryBlocks l := by
  have hstarts := h.contents.filter (·.kind == .start) fun _ => rfl
  have hordinary := h.contents.filter (!·.kind.isResource) fun _ => rfl
  have hfree := hordinary.filter (!·.id.memberOf l.targets) fun _ => rfl
  have hbehind : (s.blocks.filter (·.kind.isResource)).flatMap (fun b => l.nextIds b.id) =
      (t.blocks.filter (·.kind.isResource)).flatMap fun b => l.nextIds b.id :=
    (h.contents.filter (·.kind.isResource) fun _ => rfl).flatMap_eq fun _ => rfl
  simp only [entryBlocks, hstarts.isEmpty_eq, hfree.isEmpty_eq, hbehind]
  split_ifs
  · exact h.sorted _ fun _ => rfl
  · exact h.sorted _ fun _ => rfl
  · rw [List.filter_filter, List.filter_filter]
    exact h.sorted _ fun _ => rfl
  · rw [List.filter_filter, List.filter_filter]
    exact h.sorted _ fun _ => rfl

/-- Scenes in the same order have the same text. -/
theorem script_eq (h : s.SameOrder t) (cast : Option Cast) (labels : List String) :
    s.script cast labels = t.script cast labels := by
  refine script_eq_of_retells h.contents (fun around => ?_) cast labels
  rw [flow, flow, ← h.links]
  cases hl : s.links with
  | error fault => exact .inl ⟨fault, rfl, rfl⟩
  | ok l =>
    have horder : Flow.SameOrder ⟨s, l, l.reverse, around⟩ t := by
      refine ⟨h.contents, h.next hl, ?_⟩
      simpa using h.sorted (fun _ => true) fun _ => rfl
    exact .inr ⟨_, _, rfl, rfl, horder.retells, h.entryBlocks_eq l⟩

end SameOrder
end Scene

namespace Project

/-- Projects that differ at most in the places of blocks, with the same order of blocks in each
scene. -/
structure SameOrder (p q : Project) : Prop where
  scenes : List.Forall₂ Scene.SameOrder p.scenes q.scenes
  characters : p.characters = q.characters
  images : p.images = q.images

namespace SameOrder

variable {p q : Project}

lemma contents (h : p.SameOrder q) : SameContents p.blocks q.blocks := by
  have hscenes : ∀ {ss ts : List Scene}, List.Forall₂ Scene.SameOrder ss ts →
      SameContents (ss.flatMap (·.blocks)) (ts.flatMap (·.blocks)) := by
    intro ss ts hst
    induction hst with
    | nil => rfl
    | cons hs _ ih =>
      simp only [SameContents, List.flatMap_cons, List.map_append] at ih ⊢
      rw [hs.contents, ih]
  exact hscenes h.scenes

lemma blocksOf (h : p.SameOrder q) (kind : BlockKind) :
    SameContents (p.blocksOf kind) (q.blocksOf kind) := h.contents.filter _ fun _ => rfl

lemma paramsOf_eq (h : p.SameOrder q) (kind : BlockKind) : p.paramsOf kind = q.paramsOf kind :=
  (h.blocksOf kind).mapM_eq fun _ => rfl

lemma pathOfImage?_eq (h : p.SameOrder q) (name : String) :
    p.pathOfImage? name = q.pathOfImage? name := by
  refine foldlM_eq_of_forall₂ h.scenes (fun found s t hst => ?_) none
  cases found with
  | some _ => rfl
  | none => rw [hst.contents.foldlM_eq fun _ _ => rfl]

lemma allImages_eq (h : p.SameOrder q) : p.allImages = q.allImages := by
  have hbackgrounds : p.backgroundImages = q.backgroundImages := by
    simp only [backgroundImages, h.pathOfImage?_eq]
    exact (h.blocksOf .scene).foldlM_eq (fun _ _ => rfl) _
  simp only [allImages, imageBlocks, h.paramsOf_eq, h.images, hbackgrounds]

lemma namesCharacter_eq (h : p.SameOrder q) : p.namesCharacter = q.namesCharacter := by
  funext name
  rw [namesCharacter, namesCharacter, h.characters]

lemma definitions_eq (h : p.SameOrder q) : p.definitions = q.definitions := by
  have hcharacters : p.characterSection = q.characterSection := by
    rw [characterSection, characterSection, h.characters]
  have hblocks : ∀ before, p.characterBlockSection before = q.characterBlockSection before := by
    intro before
    simp only [characterBlockSection, h.namesCharacter_eq, h.characters]
    rw [(h.blocksOf .character).foldlM_eq (fun _ _ => rfl)]
  have hvariables : ∀ before, p.variableSection before = q.variableSection before := by
    intro before
    rw [variableSection, variableSection,
      (h.contents.filter _ fun _ => rfl).foldlM_eq fun _ _ => rfl]
  simp only [definitions, definitionLines, imageSection, h.allImages_eq, hcharacters, hblocks,
    hvariables]

lemma characterNames_eq (h : p.SameOrder q) : p.characterNames = q.characterNames := by
  rw [characterNames, characterNames, h.characters]
  refine bind_congr fun ms => ?_
  rw [h.contents.foldlM_eq fun _ _ => rfl]

/-- Projects in the same order have the same script, or fail in the same way. -/
theorem script_eq (h : p.SameOrder q) : p.script = q.script := by
  have hblocks : p.characterBlockNames = q.characterBlockNames := by
    rw [characterBlockNames, characterBlockNames, h.paramsOf_eq]
  have hundefined : p.undefinedCharacters = q.undefinedCharacters := by
    funext names fromBlocks
    rw [undefinedCharacters, undefinedCharacters, h.namesCharacter_eq]
  have hlabels : p.labels = q.labels := by
    rw [labels, labels, h.contents.mapM_eq fun _ => rfl]
  have hfirst : p.firstStart? = q.firstStart? :=
    (h.blocksOf .start).foldlM_eq (fun _ _ => rfl) _
  have hscenes : ∀ cast labels, p.scenes.mapM (·.script cast labels) =
      q.scenes.mapM (·.script cast labels) := fun cast labels =>
    mapM_eq_of_forall₂ h.scenes fun s t hst => hst.script_eq cast labels
  simp only [script, h.definitions_eq, h.characterNames_eq, hblocks, hundefined, h.characters,
    hlabels, hfirst, hscenes]

end SameOrder
end Project
end NovelGraph
