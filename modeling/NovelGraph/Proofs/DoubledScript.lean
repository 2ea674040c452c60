import NovelGraph.Proofs.DoubledOrder
import NovelGraph.Proofs.Measured
import NovelGraph.Proofs.NumberingDepth
import NovelGraph.Proofs.PlaceOrder

/-! The script of a scene with a doubled wire. A block with a single wire becomes a fork, a
conditional may take the copy for its second branch, and the branches behind the copy are counted
on. Where none of this happens the script stays as it is, since a block that was tried is passed
over directly afterwards. In a scene without control blocks only the order of the chunks can change.
-/
namespace NovelGraph

open Outcome Script

namespace Scene

/-- A wire whose copy makes no difference to the script: its block is a fork already, its target
lies behind all others, and if its block is a conditional, this has two branches that are not
longer. -/
structure Redundant (s : Scene) (l : Links) (w : Wire) : Prop where
  fork : 2 ≤ (l.next w.source).length
  last : ∀ t ∈ l.next w.source, t.1 ≠ w.target →
    Order.pairLess (s.positionOf t.1) (s.positionOf w.target) = .ok true
  branches : ∀ b, s.findBlock w.source = some b → b.kind = .ifElse →
    2 ≤ (l.next w.source).countP fun t => !(Magnitude.ofDouble w.length).lt (.ofDouble t.2)

variable {s : Scene} {l l' : Links} {w : Wire} {near far : List (Value × Double)} {id : Value}

/-- By place, the copies of a redundant wire come last. -/
lemma Redundant.exists_sortByPlace (hr : s.Redundant l w) (hs : s.Drawn)
    (h : l.Doubled l' w near far) (hid : id.same w.source = true) :
    ∃ before n,
      s.sortByPlace (l.next id) = .ok (before ++ w.target :: List.replicate n w.target) ∧
      s.sortByPlace (l'.next id) =
        .ok (before ++ w.target :: List.replicate (n + 1) w.target) := by
  obtain ⟨low, high, hless, hmore, hsorted, hsplit⟩ := h.exists_sortOn hid hs.isReal_positionOf
  obtain ⟨before, after, rfl⟩ := List.append_of_mem (hsplit.earlier w.hop h.copied le_rfl)
  rw [List.append_assoc, List.cons_append] at hless hsorted
  rw [List.append_assoc, List.cons_append] at hmore
  -- what is not before the target lies at its place, so it is the target
  have hbehind : ∀ t ∈ after ++ high, t.1 = w.target := by
    intro t ht
    have hnext : t ∈ l.next w.source := by
      rw [(h.next_source (Value.same_refl _)).1, ← (h.next_source hid).1]
      exact (Order.sortOn_perm hless).mem_iff.mp (by simp [List.mem_append.mp ht])
    by_contra hne
    have hlt := hr.last t hnext hne
    rw [Order.pairLess_eq_place (hs.isReal_positionOf _) (hs.isReal_positionOf _),
      Except.ok.injEq, decide_eq_true_eq] at hlt
    have hle := (List.pairwise_cons.mp (List.pairwise_append.mp hsorted).2.1).1 t ht
    exact absurd hle (not_le.mpr hlt)
  have hcopies : ∀ t ∈ after ++ w.hop :: high, t.1 = w.target := by
    intro t ht
    rcases List.mem_append.mp ht with ht | ht
    · exact hbehind t (List.mem_append_left _ ht)
    · rcases List.mem_cons.mp ht with rfl | ht
      · rfl
      · exact hbehind t (List.mem_append_right _ ht)
  have hcount : (after ++ w.hop :: high).length = (after ++ high).length + 1 := by
    simp [Nat.add_assoc]
  refine ⟨before.map (·.1), (after ++ high).length, ?_, ?_⟩
  · rw [sortByPlace, hless, ok_bind, List.map_append, List.map_cons,
      List.map_eq_replicate_iff.mpr hbehind]
    rfl
  · rw [sortByPlace, hmore, ok_bind, List.map_append, List.map_cons,
      List.map_eq_replicate_iff.mpr hcopies, hcount]
    rfl

end Scene

namespace Flow

variable {f : Flow} {fuel : ℕ} {seen seen' : List Value} {indent text : String} {follow : Bool}
  {id : Value}

/-- A chain that was tried is not entered directly afterwards. -/
lemma chainFrom_again (h : f.chainFrom fuel seen indent follow id = .ok (text, seen')) :
    f.chainFrom fuel seen' indent follow id = .ok ("", seen') := by
  cases fuel with
  | zero =>
    cases h
    rfl
  | succ fuel =>
    have hentered : seen ++ [id] <+: seen' → f.enters seen' id = false := by
      rintro ⟨new, rfl⟩
      rw [enters, Value.memberOf_append, Value.memberOf_append, Value.memberOf_singleton,
        Value.same_refl]
      simp
    refine chainFrom_of_not_enters ?_
    cases chainFrom_step h with
    | skipped henters => exact henters
    | missing => exact hentered List.prefix_rfl
    | control => exact hentered List.prefix_rfl
    | single => exact hentered List.prefix_rfl
    | followed _ _ _ _ rest =>
      refine hentered ?_
      refine foldlM_invariant (fun done => seen ++ [id] <+: done.2) ?_ List.prefix_rfl rest
      intro t _ done done' hdone hstep
      obtain ⟨more, hmore, -⟩ := extend_eq_ok hstep
      exact hdone.trans (chainFrom_seen_grows hmore)

lemma extend_again {done done' : String × List Value}
    (h : f.extend fuel indent done id = .ok done') : f.extend fuel indent done' id = .ok done' := by
  obtain ⟨more, hmore, -⟩ := extend_eq_ok h
  rw [extend, chainFrom_again hmore, ok_bind]
  simp [pure, Except.pure]

/-- The flow of a scene with one connection more. -/
def withCopy (f : Flow) (d : Connection) (l' : Links) : Flow :=
  { f with scene := f.scene.addConnection d, links := l' }

variable {d : Connection} {l' : Links} {w : Scene.Wire} {near far : List (Value × Double)}

lemma depth_withCopy (h : f.links.Doubled l' w near far) :
    (f.withCopy d l').depth = f.depth + 1 := congrArg (· + 2) h.length_targets

section Branches

variable (h : f.links.Doubled l' w near far) (hr : f.scene.Redundant f.links w)

include h hr

/-- A redundant wire of a conditional stands behind its second branch. -/
lemma one_lt_length_near {b : Block} (hb : f.scene.findBlock w.source = some b)
    (hkind : b.kind = .ifElse) : 1 < near.length := by
  have hcount := hr.branches b hb hkind
  have hfar : far.countP (fun t => !(Magnitude.ofDouble w.length).lt (.ofDouble t.2)) = 0 := by
    rw [List.countP_eq_zero]
    intro t ht
    have hw := h.lengths w.hop (by simp [h.copied])
    have hlt : (Magnitude.ofDouble w.length).lt (.ofDouble t.2) = true :=
      (Magnitude.lt_eq_size hw (h.lengths t (by simp [ht]))).trans (decide_eq_true (h.farther t ht))
    simp [hlt]
  rw [(h.next_source (Value.same_refl _)).1, List.countP_append, hfar, Nat.add_zero] at hcount
  exact hcount.trans List.countP_le_length

lemma getElem?_nextIds_copy {b : Block} {n : ℕ} (hb : f.scene.findBlock b.id = some b)
    (hn : n = 0 ∨ n = 1 ∧ b.kind = .ifElse) :
    (l'.nextIds b.id)[n]? = (f.links.nextIds b.id)[n]? := by
  cases hid : b.id.same w.source with
  | false => rw [Links.nextIds, Links.nextIds, h.next_other hid]
  | true =>
    have hlength : n < near.length := by
      rcases hn with rfl | ⟨rfl, hkind⟩
      · exact List.length_pos_of_mem h.copied
      · rw [Scene.findBlock_congr _ hid] at hb
        exact one_lt_length_near h hr hb hkind
    rw [Links.nextIds, Links.nextIds, (h.next_source hid).1, (h.next_source hid).2, List.map_append,
      List.map_append, List.getElem?_append_left (by simpa using hlength),
      List.getElem?_append_left (by simpa using hlength)]

lemma two_le_length_next (hid : id.same w.source = true) :
    2 ≤ (f.links.next id).length ∧ 2 ≤ (l'.next id).length := by
  have hfork := hr.fork
  obtain ⟨hl, hl'⟩ := h.next_source hid
  rw [(h.next_source (Value.same_refl _)).1] at hfork
  rw [hl, hl']
  simp only [List.length_append, List.length_cons] at hfork ⊢
  omega

end Branches

section Copies

variable (hs : f.scene.Drawn) (h : f.links.Doubled l' w near far)
  (hr : f.scene.Redundant f.links w)

include hs h hr

/-- The successors of a block by place are the same, or the last is there once more. -/
lemma sortByPlace_withCopy (d : Connection) (id : Value) :
    (f.withCopy d l').scene.sortByPlace ((f.withCopy d l').links.next id) =
        f.scene.sortByPlace (f.links.next id) ∨
      ∃ before v n,
        f.scene.sortByPlace (f.links.next id) = .ok (before ++ v :: List.replicate n v) ∧
        (f.withCopy d l').scene.sortByPlace ((f.withCopy d l').links.next id) =
          .ok (before ++ v :: List.replicate (n + 1) v) := by
  cases hid : id.same w.source with
  | false => exact .inl (congrArg f.scene.sortByPlace (h.next_other hid))
  | true =>
    obtain ⟨before, n, hless, hmore⟩ := hr.exists_sortByPlace hs h hid
    exact .inr ⟨before, w.target, n, hless, hmore⟩

lemma followOn_withCopy {b : Block}
    (hchain : (f.withCopy d l').chainFrom fuel = f.chainFrom fuel) :
    (f.withCopy d l').followOn fuel indent b = f.followOn fuel indent b := by
  have hextend : (f.withCopy d l').extend fuel indent = f.extend fuel indent := by
    funext done next
    rw [extend, extend, hchain]
  funext done
  rw [followOn, followOn, hextend]
  rcases sortByPlace_withCopy hs h hr d b.id with hsame | ⟨before, v, n, hless, hmore⟩
  · rw [hsame]
  · rw [hmore, hless, ok_bind, ok_bind, foldlM_replicate extend_again,
      foldlM_replicate extend_again]

/-- A redundant wire can be doubled without changing a chain. -/
theorem chainFrom_withCopy (fuel : ℕ) : (f.withCopy d l').chainFrom fuel = f.chainFrom fuel := by
  induction fuel with
  | zero => rfl
  | succ fuel ih =>
    funext seen indent follow id
    cases he : f.enters seen id with
    | false =>
      have he' : (f.withCopy d l').enters seen id = false := he
      rw [chainFrom_of_not_enters he, chainFrom_of_not_enters he']
    | true =>
      have he' : (f.withCopy d l').enters seen id = true := he
      cases hb : f.scene.findBlock id with
      | none =>
        have hb' : (f.withCopy d l').scene.findBlock id = none := hb
        rw [chainFrom_of_missing he hb, chainFrom_of_missing he' hb']
      | some b =>
        have hbranch : ∀ n, n = 0 ∨ n = 1 ∧ b.kind = .ifElse →
            (f.withCopy d l').branchFrom fuel (seen ++ [id]) indent b n =
              f.branchFrom fuel (seen ++ [id]) indent b n := by
          intro n hn
          have hnext : ((f.withCopy d l').links.nextIds b.id)[n]? = (f.links.nextIds b.id)[n]? :=
            getElem?_nextIds_copy h hr (Scene.findBlock_self hb) hn
          rw [branchFrom, branchFrom, hnext, ih]
        exact chainFrom_congr he' he hb hb rfl rfl rfl (fun _ => hbranch 0 (.inl rfl))
          (fun hkind => hbranch 1 (.inr ⟨rfl, hkind⟩)) fun _ own => by
            rw [followOn_withCopy hs h hr ih]

lemma chain_withCopy (seen : List Value) (indent : String) (follow : Bool) (id : Value) :
    (f.withCopy d l').chain seen indent follow id = f.chain seen indent follow id := by
  rw [chain, chain, depth_withCopy h, chainFrom_withCopy hs h hr, chainFrom_depth_succ]

lemma forkOn_withCopy {level : ℕ} {ranks : Ranks}
    (hbranch : (f.withCopy d l').rankBranch fuel = f.rankBranch fuel) :
    (f.withCopy d l').forkOn fuel id level ranks = f.forkOn fuel id level ranks := by
  have hfork : (f.withCopy d l').rankFork fuel level = f.rankFork fuel level := by
    funext order ranks
    rw [rankFork, rankFork, hbranch]
  rw [forkOn, forkOn, hfork]
  rcases sortByPlace_withCopy hs h hr d id with hsame | ⟨before, v, n, hless, hmore⟩
  · rw [hsame]
  · rw [hmore, hless, ok_bind, ok_bind, rankFork, rankFork,
      foldlM_zipIdx_replicate fun _ hstep => rankBranch_again hstep _,
      foldlM_zipIdx_replicate fun _ hstep => rankBranch_again hstep _]

/-- A redundant wire can be doubled without changing the numbers of a branch. -/
lemma rankBranch_withCopy (fuel : ℕ) : (f.withCopy d l').rankBranch fuel = f.rankBranch fuel := by
  induction fuel with
  | zero => rfl
  | succ fuel ih =>
    funext ranks id rank
    have hbehind : (f.withCopy d l').branchOn fuel id rank = f.branchOn fuel id rank := by
      funext ranks
      cases hid : id.same w.source with
      | false =>
        have hnext : (f.withCopy d l').links.next id = f.links.next id := h.next_other hid
        rw [branchOn, branchOn, hnext, ih]
        simp only [forkOn_withCopy hs h hr ih]
        rfl
      | true =>
        obtain ⟨hless, hmore⟩ := two_le_length_next h hr hid
        rw [branchOn_of_fork hless, branchOn_of_fork hmore, forkOn_withCopy hs h hr ih]
    rw [rankBranch_succ_eq, rankBranch_succ_eq, hbehind]
    rfl

lemma rankFrom_withCopy (fuel : ℕ) : (f.withCopy d l').rankFrom fuel = f.rankFrom fuel := by
  induction fuel with
  | zero => rfl
  | succ fuel ih =>
    funext ranks id rank
    have hbranch := rankBranch_withCopy (d := d) hs h hr fuel
    have hbehind : (f.withCopy d l').numberOn fuel id rank = f.numberOn fuel id rank := by
      funext ranks
      cases hid : id.same w.source with
      | false =>
        have hnext : (f.withCopy d l').links.next id = f.links.next id := h.next_other hid
        rw [numberOn, numberOn, hnext, ih]
        simp only [forkOn_withCopy hs h hr hbranch]
      | true =>
        obtain ⟨hless, hmore⟩ := two_le_length_next h hr hid
        rw [numberOn_of_fork hless, numberOn_of_fork hmore, forkOn_withCopy hs h hr hbranch]
    rw [rankFrom_succ_eq, rankFrom_succ_eq, hbehind]
    rfl

/-- With a copy of a redundant wire a flow tells the same. -/
theorem retells_withCopy : f.Retells (f.withCopy d l') where
  contents := rfl
  around := rfl
  chain := fun seen indent follow id => (chain_withCopy hs h hr seen indent follow id).symm
  ranks := by
    have hinputs : f.inputs = (f.withCopy d l').inputs := rfl
    have hrank : f.rankFrom f.depth = (f.withCopy d l').rankFrom (f.withCopy d l').depth := by
      rw [depth_withCopy h, rankFrom_withCopy hs h hr, rankFrom_depth_succ]
    have hcontents : SameContents f.scene.blocks (f.withCopy d l').scene.blocks := rfl
    intro bs cs hbs
    exact ranks_congr hcontents rfl hinputs hrank hbs
  sorted := rfl

end Copies

section Plain

variable {blocks : List Block} {c : Chunk} {chunks : List Chunk}

/-- What a block writes by itself, if it is no control block. -/
def plainText (f : Flow) (b : Block) : Except Fault String :=
  b.render (if b.kind = .start then "" else indentation) f.around

lemma plainText_of_contributes (hk : c.block.kind.isControl = false) (h : f.Contributes seen c) :
    f.plainText c.block = .ok c.text := by
  unfold Contributes at h
  split at h
  · rename_i hkind
    simpa [plainText, hkind, Block.render] using h
  · rename_i hkind
    simp [hkind, BlockKind.isControl] at hk
  · rename_i hkind
    simp [hkind, BlockKind.isControl] at hk
  · rename_i hkind
    simp [hkind, BlockKind.isControl] at hk
  · rename_i hkind _ _ _
    rwa [plainText, if_neg hkind]

/-- Without control blocks the chunks of a scene are determined up to their order. -/
lemma Covers.perm_map (hplain : ∀ b ∈ blocks, b.kind.isControl = false)
    (h : f.Covers blocks chunks) :
    chunks.Perm (blocks.map fun b => ⟨b, (f.plainText b).toOption.getD ""⟩) := by
  have hchunks : (chunks.map (·.block)).map
      (fun b => (⟨b, (f.plainText b).toOption.getD ""⟩ : Chunk)) = chunks := by
    rw [List.map_map]
    refine (List.map_congr_left fun c hc => ?_).trans chunks.map_id
    obtain ⟨hb, seen, htext⟩ := h.of_mem hc
    simp [plainText_of_contributes (hplain _ hb) htext, Except.toOption]
  exact hchunks.symm ▸ h.perm.map _

lemma Covers.exists_plainText (hplain : ∀ b ∈ blocks, b.kind.isControl = false)
    (h : f.Covers blocks chunks) : ∀ b ∈ blocks, ∃ text, f.plainText b = .ok text := by
  intro b hb
  obtain ⟨c, hc, rfl⟩ := List.mem_map.mp (h.perm.mem_iff.mpr hb)
  obtain ⟨-, seen, htext⟩ := h.of_mem hc
  exact ⟨c.text, plainText_of_contributes (hplain _ hb) htext⟩

section Written

variable (hplain : ∀ b ∈ f.scene.blocks, b.kind.isControl = false)
  (htext : ∀ b ∈ f.scene.blocks.filter (!·.kind.isDefinition), ∃ text, f.plainText b = .ok text)

include hplain htext

lemma exists_rankedChunks (order seen : List Value) :
    ∃ parts, f.rankedChunks order seen = .ok parts := by
  induction order generalizing seen with
  | nil => exact ⟨_, rfl⟩
  | cons id rest ih =>
    rw [rankedChunks]
    split_ifs
    · exact ih seen
    · cases hb : f.scene.findBlock id with
      | none => exact ih seen
      | some b =>
        have hmem := Scene.findBlock_mem hb
        simp only
        split_ifs with hdef
        · exact ih seen
        · obtain ⟨text, htext⟩ := htext b (List.mem_filter.mpr ⟨hmem, by simpa using hdef⟩)
          rw [plainText] at htext
          rw [rankedChunk_of_plain (hplain b hmem), htext]
          obtain ⟨parts, hparts⟩ := ih (if id.memberOf seen then seen else seen ++ [id])
          refine ⟨(⟨b, text⟩ :: parts.1, parts.2), ?_⟩
          simp only [ok_bind, pure, Except.pure, hparts]

/-- A scene whose blocks can be sorted and written has its chunks. -/
theorem exists_entryChunks
    (hsort : ∀ id, ∃ order, f.scene.sortByPlace (f.links.next id) = .ok order)
    (hblocks : ∃ sorted, Scene.sortBlocks f.scene.blocks = .ok sorted) (entries : List Block) :
    ∃ chunks, f.entryChunks entries = .ok chunks := by
  obtain ⟨ranks, hranks⟩ := exists_ranks hsort hblocks entries
  obtain ⟨parts, hparts⟩ := exists_rankedChunks hplain htext
    ((Order.sortByKey (·.2) Rank.lt ranks).map (·.1)) []
  obtain ⟨loose, hloose⟩ : ∃ loose, (f.scene.blocks.filter fun b =>
      !b.id.memberOf parts.2 && !b.kind.isDefinition).mapM f.looseChunk = .ok loose := by
    refine exists_mapM_eq_ok fun b hb => ?_
    obtain ⟨hmem, hdef⟩ := List.mem_filter.mp hb
    obtain ⟨text, htext⟩ := htext b
      (List.mem_filter.mpr ⟨hmem, (Bool.and_eq_true_iff.mp hdef).2⟩)
    rw [plainText] at htext
    exact ⟨⟨b, text⟩, by rw [looseChunk, htext]; rfl⟩
  refine ⟨parts.1 ++ loose, ?_⟩
  rw [entryChunks, hranks, ok_bind]
  simp only [hparts, ok_bind, hloose]
  rfl

end Written
end Plain

end Flow

namespace Scene

lemma Drawn.placed {s : Scene} (hs : s.Drawn) : s.Placed := by
  intro b hb
  obtain ⟨hx, hy⟩ := hs.places b hb
  obtain ⟨m, hm, -⟩ := Value.exists_number hx
  obtain ⟨n, hn, -⟩ := Value.exists_number hy
  simp [hm, hn]

variable {s : Scene} {d : Connection} {l l' : Links} {w : Wire} {near far : List (Value × Double)}

/-- The flow with a doubled wire. -/
lemma flow_addConnection {around : Surroundings} {f : Flow} (hf : s.flow around = .ok f)
    (hl' : (s.addConnection d).links = .ok l') (h : f.links.Doubled l' w near far) :
    (s.addConnection d).flow around = .ok (f.withCopy d l') := by
  obtain ⟨-, rfl, hinputs, rfl⟩ := flow_eq_ok hf
  rw [flow, hl', ok_bind, h.reverse_eq, ← hinputs]
  rfl

/-- A redundant wire can be doubled without changing the script. -/
theorem script_addConnection (hs : s.Drawn) (hl : s.links = .ok l)
    (hl' : (s.addConnection d).links = .ok l') (h : l.Doubled l' w near far)
    (hr : s.Redundant l w) (cast : Option Cast) (labels : List String) :
    (s.addConnection d).script cast labels = s.script cast labels := by
  refine (script_eq_of_retells (by rfl) (fun around => .inr ?_) cast labels).symm
  have hf : s.flow around = .ok ⟨s, l, l.reverse, around⟩ := by
    rw [flow, hl]
    rfl
  exact ⟨_, _, hf, flow_addConnection hf hl' h, Flow.retells_withCopy hs h hr,
    by rw [← entryBlocks_doubled h d]; rfl⟩

/-- Connections that leave the graph as it is do not change the script. -/
lemma script_addConnection_of_links (hl : (s.addConnection d).links = s.links) (cast : Option Cast)
    (labels : List String) : (s.addConnection d).script cast labels = s.script cast labels := by
  have horder : (s.addConnection d).SameOrder s := ⟨rfl, hl, fun _ _ => rfl, fun _ _ => rfl⟩
  exact horder.script_eq cast labels

/-- In a scene without control blocks a doubled wire changes nothing but the order of the chunks. -/
theorem chunks_addConnection_perm (hs : s.Drawn) (hids : s.DistinctIds)
    (hplain : ∀ b ∈ s.blocks, b.kind.isControl = false) (hl : s.links = .ok l)
    (hl' : (s.addConnection d).links = .ok l') (h : l.Doubled l' w near far)
    {around : Surroundings} {chunks : List Chunk} (hc : s.chunks around = .ok chunks) :
    ∃ chunks', (s.addConnection d).chunks around = .ok chunks' ∧ chunks'.Perm chunks := by
  obtain ⟨f, hf, hcovers⟩ := chunks_covers hids hc
  rw [Scene.chunks, hf, ok_bind, bind_eq_ok] at hc
  obtain ⟨entries, hentries, hc⟩ := hc
  obtain ⟨labelled, hlabelled, hc⟩ := bind_eq_ok.mp hc
  obtain ⟨hlinks, rfl, -, -⟩ := flow_eq_ok hf
  cases hlinks.symm.trans hl
  rw [Scene.chunks, flow_addConnection hf hl' h, ok_bind]
  have hentries' : (f.scene.addConnection d).entryBlocks (f.withCopy d l').links = .ok entries := by
    rw [← hentries]
    exact entryBlocks_doubled h d
  rw [hentries', ok_bind, hlabelled, ok_bind]
  split_ifs at hc ⊢ with hempty
  · exact ⟨chunks, hc, List.Perm.refl _⟩
  · have hwritten : ∀ b ∈ f.scene.blocks.filter (!·.kind.isDefinition), b.kind.isControl = false :=
      fun b hb => hplain b (List.mem_of_mem_filter hb)
    have htext := hcovers.exists_plainText hwritten
    obtain ⟨chunks', hc'⟩ := Flow.exists_entryChunks (f := f.withCopy d l') hplain htext
      (fun id => hs.placed.exists_sortByPlace _)
      (hs.placed.exists_sortBlocks (List.Subset.refl _)) entries
    have hcovers' := Flow.entryChunks_covers (f := f.withCopy d l') hids hc'
    exact ⟨chunks', hc', (hcovers'.perm_map hwritten).trans (hcovers.perm_map hwritten).symm⟩

/-- What a second connection between two ports does. If the first joins no blocks, or the scene has
no graph, it does nothing. Else the graph has one wire more, with the same inputs and entries as
before. The topological order stays as it is if the wire comes from the last input of its target,
and the script if the wire is redundant. Without control blocks the script has the same chunks in
any case. -/
theorem doubled_connection {c : Connection} (hc : c ∈ s.connections)
    (hfrom : d.fromPort = c.fromPort) (hto : d.toPort = c.toPort) :
    ((s.wire? c = none ∨ ∃ fault, s.links = .error fault) →
      (s.addConnection d).links = s.links ∧
      ∀ cast labels, (s.addConnection d).script cast labels = s.script cast labels) ∧
    ∀ l w, s.Drawn → s.links = .ok l → s.wire? c = some w →
      ∃ l' near far, (s.addConnection d).links = .ok l' ∧ l.Doubled l' w near far ∧
        l'.reverse = l.reverse ∧ (s.addConnection d).entryBlocks l' = s.entryBlocks l ∧
        (∀ order, s.topological l l.reverse = .ok order → s.ComesLast order w →
          (s.addConnection d).topological l' l'.reverse = .ok order) ∧
        (s.Redundant l w →
          ∀ cast labels, (s.addConnection d).script cast labels = s.script cast labels) ∧
        (s.DistinctIds → (∀ b ∈ s.blocks, b.kind.isControl = false) →
          ∀ around chunks, s.chunks around = .ok chunks →
            ∃ chunks', (s.addConnection d).chunks around = .ok chunks' ∧ chunks'.Perm chunks) := by
  constructor
  · intro h
    have hlinks : (s.addConnection d).links = s.links := by
      cases hl : s.links with
      | error fault => exact links_addConnection_error hl d
      | ok l =>
        rcases h with hw | ⟨fault, hfault⟩
        · exact links_addConnection_none hl hc hfrom hto hw
        · cases hl.symm.trans hfault
    exact ⟨hlinks, script_addConnection_of_links hlinks⟩
  · intro l w hs hl hw
    obtain ⟨l', near, far, hl', h⟩ := exists_doubled hs hl hc hfrom hto hw
    have horder : ∀ order, s.topological l l.reverse = .ok order → s.ComesLast order w →
        s.topological l' l'.reverse = .ok order :=
      fun order horder hlast => topological_doubled hs hl h horder hlast
    exact ⟨l', near, far, hl', h, h.reverse_eq, entryBlocks_doubled h d, horder,
      fun hr => script_addConnection hs hl hl' h hr,
      fun hids hplain around chunks => chunks_addConnection_perm hs hids hplain hl hl' h⟩

def inputOf (name : String) : Port :=
  { id := .text (name ++ ".i"), nodeId := .text name, name := .text "in", direction := .input }

def outputOf (name : String) : Port :=
  { id := .text (name ++ ".o"), nodeId := .text name, name := .text "out", direction := .output }

/-- A connection from the output of one block to the input of another. -/
def connect (id source target : String) : Connection :=
  { id := .text id, fromPort := .text (source ++ ".o"), toPort := .text (target ++ ".i") }

/-- A fork and another way to its second branch. -/
def forkScene : Scene where
  id := .text "s"
  name := .text "Scene"
  label := .text "start"
  blocks :=
    [startBlock "s" "go" 0 0, startBlock "t" "too" 3 0, toldBlock "on" 0 4, toldBlock "left" 0 8,
      toldBlock "right" 3 8]
  ports := ["s", "t", "on"].map outputOf ++ ["on", "left", "right"].map inputOf
  connections :=
    [connect "1" "s" "on", connect "2" "t" "right", connect "3" "on" "left",
      connect "4" "on" "right"]

def forkText : String :=
  "label go:\n    \"on\"\nlabel too:\n    \"right\"\n    \"left\"\n\n"

theorem forkScene_doubled_connection :
    forkScene.Drawn ∧ forkScene.DistinctIds ∧ (∀ b ∈ forkScene.blocks, b.kind.isControl = false) ∧
      connect "4" "on" "right" ∈ forkScene.connections ∧
      ∃ l w l' order chunks, forkScene.links = .ok l ∧
        forkScene.wire? (connect "4" "on" "right") = some w ∧ forkScene.Redundant l w ∧
        forkScene.topological l l.reverse = .ok order ∧ forkScene.ComesLast order w ∧
        order = ["s", "t", "on", "left", "right"].map Value.text ∧
        forkScene.script none [] = .ok forkText ∧
        forkScene.chunks { cast := none, labels := some [] } = .ok chunks ∧
        (forkScene.addConnection (connect "5" "on" "right")).links = .ok l' ∧
        (forkScene.addConnection (connect "5" "on" "right")).topological l' l'.reverse = .ok order ∧
        (forkScene.addConnection (connect "5" "on" "right")).script none [] = .ok forkText ∧
        ∃ chunks', (forkScene.addConnection (connect "5" "on" "right")).chunks
            { cast := none, labels := some [] } = .ok chunks' ∧ chunks'.Perm chunks := by
  have hs : forkScene.Drawn := ⟨by decide +kernel, by decide +kernel⟩
  have hids : forkScene.DistinctIds := by decide +kernel
  have hplain : ∀ b ∈ forkScene.blocks, b.kind.isControl = false := by decide +kernel
  have hc : connect "4" "on" "right" ∈ forkScene.connections := by simp [forkScene]
  have hscript : forkScene.script none [] = .ok forkText := eq_ok_of_toOption (by decide +kernel)
  obtain ⟨chunks, hchunks, -⟩ := script_eq_ok (by decide +kernel) hscript
  obtain ⟨l, w, order, hl, hw, hr, horder, hlast, hnames⟩ : ∃ l w order, forkScene.links = .ok l ∧
      forkScene.wire? (connect "4" "on" "right") = some w ∧ forkScene.Redundant l w ∧
      forkScene.topological l l.reverse = .ok order ∧ forkScene.ComesLast order w ∧
      order = ["s", "t", "on", "left", "right"].map Value.text := by
    refine ⟨_, _, _, rfl, rfl, ⟨by decide +kernel, fun t ht hne => eq_ok_of_toOption ?_, ?_⟩, rfl,
      by decide +kernel, by decide +kernel⟩
    · revert t
      decide +kernel
    · intro b hb hkind
      have hcontrol := hplain b (findBlock_mem hb)
      rw [hkind] at hcontrol
      exact Bool.noConfusion hcontrol
  obtain ⟨l', -, -, hl', -, -, -, htopological, hsame, hperm⟩ :=
    (doubled_connection hc (d := connect "5" "on" "right") rfl rfl).2 l w hs hl hw
  exact ⟨hs, hids, hplain, hc, l, w, l', order, chunks, hl, hw, hr, horder, hlast, hnames, hscript,
    hchunks, hl', htopological order horder hlast, (hsame hr none []).trans hscript,
    hperm hids hplain _ chunks hchunks⟩

/-- Three starts, a block where two of them meet, and a conditional with one branch. -/
def junctionScene : Scene where
  id := .text "s"
  name := .text "Scene"
  label := .text "start"
  blocks :=
    [startBlock "a" "a" 0 0, toldBlock "met" 0 3, startBlock "b" "b" 0 6, startBlock "c" "c" 0 9,
      { id := .text "if", kind := .ifElse, params := .object [("condition", .text "ready")],
        x := .int 0, y := .int 12 },
      toldBlock "yes" 0 15]
  ports := ["a", "b", "c", "if"].map outputOf ++ ["met", "if", "yes"].map inputOf
  connections :=
    [connect "1" "a" "met", connect "2" "b" "met", connect "3" "c" "if", connect "4" "if" "yes"]

/-- Doubled wires that are noticed: a block is listed before one of its inputs, another is written
behind a block that it was written before, and a conditional gets a second branch. -/
theorem junctionScene_doubled_connection :
    junctionScene.Drawn ∧ junctionScene.DistinctIds ∧
      (junctionScene.ports.map (·.id)).Nodup ∧ (junctionScene.connections.map (·.id)).Nodup ∧
      (junctionScene.links >>= fun l => junctionScene.topological l l.reverse) =
        .ok (["a", "b", "met", "c", "if", "yes"].map Value.text) ∧
      ((junctionScene.addConnection (connect "5" "a" "met")).links >>= fun l =>
          (junctionScene.addConnection (connect "5" "a" "met")).topological l l.reverse) =
        .ok (["a", "met", "b", "c", "if", "yes"].map Value.text) ∧
      junctionScene.script none [] =
        .ok ("label a:\nlabel b:\n    \"met\"\n" ++
          "label c:\n    if ready:\n                \"yes\"\n\n    \"yes\"\n\n") ∧
      (junctionScene.addConnection (connect "5" "b" "met")).script none [] =
        .ok ("label a:\nlabel b:\n" ++
          "label c:\n    if ready:\n                \"yes\"\n\n    \"yes\"\n    \"met\"\n\n") ∧
      (junctionScene.addConnection (connect "5" "if" "yes")).script none [] =
        .ok ("label a:\nlabel b:\n    \"met\"\n" ++
          "label c:\n    if ready:\n                \"yes\"\n\n" ++
          "    else:\n                \"yes\"\n\n    \"yes\"\n\n") :=
  ⟨⟨by decide +kernel, by decide +kernel⟩, by decide +kernel, by decide +kernel, by decide +kernel,
    eq_ok_of_toOption (by decide +kernel), eq_ok_of_toOption (by decide +kernel),
    eq_ok_of_toOption (by decide +kernel), eq_ok_of_toOption (by decide +kernel),
    eq_ok_of_toOption (by decide +kernel)⟩

end Scene
end NovelGraph
