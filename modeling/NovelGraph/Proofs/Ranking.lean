import Mathlib.Data.List.Perm.Subperm
import NovelGraph.Proofs.Wires
import NovelGraph.Script.Numbering

/-! How blocks get their ranks. Every block is numbered once and after all of its inputs, as an
entry of the scene, along a wire, or in a later pass where branches meet. -/
namespace NovelGraph

open Outcome

namespace Rank

lemma lt_irrefl (r : Rank) : r.lt r = false := by
  simp [lt]

lemma lt_eq_false_of_level_lt {r q : Rank} (h : r.level < q.level) : q.lt r = false := by
  simp only [lt, Bool.or_eq_false_iff, decide_eq_false_iff_not, Bool.and_eq_false_iff,
    beq_eq_false_iff_ne]
  omega

lemma isWeakOrder_lt : Order.IsWeakOrder lt := by
  constructor
  · intro a b h
    simp only [lt, Bool.or_eq_true, decide_eq_true_eq, Bool.and_eq_true, beq_iff_eq,
      Bool.or_eq_false_iff, decide_eq_false_iff_not, Bool.and_eq_false_iff,
      beq_eq_false_iff_ne] at *
    omega
  · intro a c b h
    simp only [lt, Bool.or_eq_true, decide_eq_true_eq, Bool.and_eq_true, beq_iff_eq] at *
    omega

end Rank

namespace Flow

/-- Why a block is given a rank: it is an entry of the scene; or a wire leads to it from a block
on a lower level, or the only wire from a block of the same rank; or it is above all of its
inputs. -/
inductive RankedBy (f : Flow) (entries : List Block) (ranks : Ranks) (id : Value) : Rank → Prop
  | entry {b : Block} (mem : b ∈ entries) (same : b.id = id) : RankedBy f entries ranks id ⟨0, 0⟩
  | along {source : Value} {r rank : Rank} (given : ranks.get? source = some r)
      (wired : id ∈ f.links.nextIds source)
      (after : r.level < rank.level ∨ rank = r ∧ f.links.nextIds source = [id]) :
      RankedBy f entries ranks id rank
  | meeting : RankedBy f entries ranks id ⟨f.levelAfterInputs ranks id, 0⟩

/-- Ranks given one after the other, each to a block whose inputs have theirs. -/
inductive Ranking (f : Flow) (entries : List Block) : Ranks → Prop
  | nil : Ranking f entries []
  | add {ranks : Ranks} {id : Value} {rank : Rank} {b : Block} (before : Ranking f entries ranks)
      (fresh : ranks.contains id = false) (found : f.scene.findBlock id = some b)
      (ready : f.isReady ranks id = true) (reason : f.RankedBy entries ranks id rank) :
      Ranking f entries (ranks ++ [(id, rank)])

variable {f : Flow} {entries : List Block} {fuel : ℕ} {ranks ranks' : Ranks} {id : Value}
  {rank : Rank}

/-- The branches of a fork, one after the other, with numbers of their own. -/
def rankFork (f : Flow) (fuel : ℕ) (level : ℕ) (order : List Value) (ranks : Ranks) :
    Except Fault Ranks :=
  order.zipIdx.foldlM (fun ranks t => f.rankBranch fuel ranks t.1 ⟨level + 1, t.2⟩) ranks

/-- What numbering a branch does: nothing, or it numbers the block and goes on. -/
lemma rankBranch_eq_ok (h : f.rankBranch (fuel + 1) ranks id rank = .ok ranks') :
    ranks' = ranks ∨
      ∃ b, f.scene.findBlock id = some b ∧ ranks.contains id = false ∧
        f.isReady ranks id = true ∧
        (ranks' = ranks ++ [(id, rank)] ∨
          (∃ next, next ∈ f.links.nextIds id ∧
            f.rankBranch fuel (ranks ++ [(id, rank)]) next ⟨rank.level + 1, rank.branch⟩ =
              .ok ranks') ∨
          ∃ order, f.scene.sortByPlace (f.links.next id) = .ok order ∧
            f.rankFork fuel rank.level order (ranks ++ [(id, rank)]) = .ok ranks') := by
  rw [rankBranch] at h
  split at h
  · cases h
    exact .inl rfl
  · rename_i hc
    simp only [Bool.or_eq_true, Bool.not_eq_true', not_or, Bool.not_eq_true,
      Bool.not_eq_false] at hc
    obtain ⟨⟨-, hfresh⟩, hready⟩ := hc
    split at h
    · cases h
      exact .inl rfl
    · rename_i b hb
      rw [Dict.set_of_not_contains hfresh] at h
      refine .inr ⟨b, hb, hfresh, hready, ?_⟩
      dsimp only at h
      split at h
      · cases h
        exact .inl rfl
      · rename_i next d hn
        split at h
        · cases h
          exact .inl rfl
        · exact .inr (.inl ⟨next, by simp [Links.nextIds, hn], h⟩)
      · obtain ⟨order, ho, h⟩ := bind_eq_ok.mp h
        exact .inr (.inr ⟨order, ho, h⟩)

/-- What numbering from a block does: nothing, or it numbers the block and goes on. -/
lemma rankFrom_eq_ok (h : f.rankFrom (fuel + 1) ranks id rank = .ok ranks') :
    (ranks' = ranks ∧ (ranks.contains id = true ∨ f.scene.findBlock id = none ∨
        f.isReady ranks id = false)) ∨
      ∃ b, f.scene.findBlock id = some b ∧ ranks.contains id = false ∧
        f.isReady ranks id = true ∧
        ((f.links.nextIds id = [] ∧ ranks' = ranks ++ [(id, rank)]) ∨
          (∃ next, f.links.nextIds id = [next] ∧
            f.rankFrom fuel (ranks ++ [(id, rank)]) next rank = .ok ranks') ∨
          ∃ order, 2 ≤ (f.links.nextIds id).length ∧
            f.scene.sortByPlace (f.links.next id) = .ok order ∧
            f.rankFork fuel rank.level order (ranks ++ [(id, rank)]) = .ok ranks') := by
  rw [rankFrom] at h
  split at h
  · rename_i hc
    cases h
    exact .inl ⟨rfl, .inl hc⟩
  · rename_i hfresh
    rw [Bool.not_eq_true] at hfresh
    split at h
    · rename_i hb
      cases h
      exact .inl ⟨rfl, .inr (.inl hb)⟩
    · rename_i b hb
      split at h
      · rename_i hready
        cases h
        exact .inl ⟨rfl, .inr (.inr (by simpa using hready))⟩
      · rename_i hready
        rw [Bool.not_eq_true', Bool.not_eq_false] at hready
        rw [Dict.set_of_not_contains hfresh] at h
        refine .inr ⟨b, hb, hfresh, hready, ?_⟩
        dsimp only at h
        split at h
        · rename_i hn
          cases h
          exact .inl ⟨by simp [Links.nextIds, hn], rfl⟩
        · rename_i next d hn
          exact .inr (.inl ⟨next, by simp [Links.nextIds, hn], h⟩)
        · rename_i hnone hone
          obtain ⟨order, ho, h⟩ := bind_eq_ok.mp h
          refine .inr (.inr ⟨order, ?_, ho, h⟩)
          rw [Links.nextIds, List.length_map]
          match hf : f.links.next id with
          | [] => exact absurd hf hnone
          | [(next, d)] => exact absurd hf (hone next d)
          | _ :: _ :: _ => simp

/-- A fork numbers its branches if numbering a branch does. -/
lemma rankFork_ranking {level : ℕ} {order : List Value}
    (hbranch : ∀ {rs rs' : Ranks} {next : Value} {q : Rank}, f.Ranking entries rs →
      ranks <+: rs → next ∈ order → q.level = level + 1 →
      f.rankBranch fuel rs next q = .ok rs' → f.Ranking entries rs' ∧ rs <+: rs')
    (hr : f.Ranking entries ranks) (h : f.rankFork fuel level order ranks = .ok ranks') :
    f.Ranking entries ranks' ∧ ranks <+: ranks' := by
  refine foldlM_invariant (fun rs => f.Ranking entries rs ∧ ranks <+: rs) ?_
    ⟨hr, List.prefix_rfl⟩ h
  rintro ⟨next, n⟩ hmem rs rs' ⟨hrs, hgrow⟩ hstep
  obtain ⟨hrs', hmore⟩ := hbranch hrs hgrow (List.fst_mem_of_mem_zipIdx hmem) rfl hstep
  exact ⟨hrs', hgrow.trans hmore⟩

lemma mem_nextIds_of_sortByPlace {order : List Value} {next : Value}
    (h : f.scene.sortByPlace (f.links.next id) = .ok order) (hn : next ∈ order) :
    next ∈ f.links.nextIds id :=
  (Scene.sortByPlace_perm h).mem_iff.mp hn

theorem rankBranch_ranking {source : Value} {r : Rank} (hr : f.Ranking entries ranks)
    (given : ranks.get? source = some r) (wired : id ∈ f.links.nextIds source)
    (after : r.level < rank.level) (h : f.rankBranch fuel ranks id rank = .ok ranks') :
    f.Ranking entries ranks' ∧ ranks <+: ranks' := by
  induction fuel generalizing ranks ranks' id rank source r with
  | zero =>
    cases h
    exact ⟨hr, List.prefix_rfl⟩
  | succ fuel ih =>
    rcases rankBranch_eq_ok h with rfl | ⟨b, hb, hfresh, hready, hrest⟩
    · exact ⟨hr, List.prefix_rfl⟩
    have hone : f.Ranking entries (ranks ++ [(id, rank)]) :=
      .add hr hfresh hb hready (.along given wired (.inl after))
    have hgiven := Dict.get?_append_self hfresh rank
    have hgrow : ranks <+: ranks ++ [(id, rank)] := List.prefix_append _ _
    rcases hrest with rfl | ⟨next, hn, h⟩ | ⟨order, ho, h⟩
    · exact ⟨hone, hgrow⟩
    · obtain ⟨hrs, hmore⟩ := ih hone hgiven hn (Nat.lt_succ_self _) h
      exact ⟨hrs, hgrow.trans hmore⟩
    · obtain ⟨hrs, hmore⟩ := rankFork_ranking
        (fun hrs hpre hmem hlevel hstep => ih hrs (Dict.get?_of_isPrefix hpre hgiven)
          (mem_nextIds_of_sortByPlace ho hmem) (hlevel ▸ Nat.lt_succ_self _) hstep) hone h
      exact ⟨hrs, hgrow.trans hmore⟩

/-- Numbering from a block adds ranks; the first of them is that of the block, if it can be
numbered. -/
theorem rankFrom_ranking (hr : f.Ranking entries ranks)
    (reason : f.RankedBy entries ranks id rank)
    (h : f.rankFrom fuel ranks id rank = .ok ranks') :
    f.Ranking entries ranks' ∧ ranks <+: ranks' ∧
      (0 < fuel → (f.scene.findBlock id).isSome = true → f.isReady ranks id = true →
        ranks.contains id = true ∨ ranks ++ [(id, rank)] <+: ranks') := by
  induction fuel generalizing ranks ranks' id rank with
  | zero =>
    cases h
    exact ⟨hr, List.prefix_rfl, by simp⟩
  | succ fuel ih =>
    rcases rankFrom_eq_ok h with ⟨rfl, hblocked⟩ | ⟨b, hb, hfresh, hready, hrest⟩
    · refine ⟨hr, List.prefix_rfl, fun _ hfound hready => ?_⟩
      rcases hblocked with hc | hn | hn
      · exact .inl hc
      · simp [hn] at hfound
      · simp [hn] at hready
    have hone : f.Ranking entries (ranks ++ [(id, rank)]) := .add hr hfresh hb hready reason
    have hgiven := Dict.get?_append_self hfresh rank
    have hgrow : ranks <+: ranks ++ [(id, rank)] := List.prefix_append _ _
    rcases hrest with ⟨-, rfl⟩ | ⟨next, hn, h⟩ | ⟨order, -, ho, h⟩
    · exact ⟨hone, hgrow, fun _ _ _ => .inr List.prefix_rfl⟩
    · obtain ⟨hrs, hmore, -⟩ := ih hone (.along hgiven (by simp [hn]) (.inr ⟨rfl, hn⟩)) h
      exact ⟨hrs, hgrow.trans hmore, fun _ _ _ => .inr hmore⟩
    · obtain ⟨hrs, hmore⟩ := rankFork_ranking
        (fun hrs hpre hmem hlevel hstep => rankBranch_ranking hrs
          (Dict.get?_of_isPrefix hpre hgiven) (mem_nextIds_of_sortByPlace ho hmem)
          (hlevel ▸ Nat.lt_succ_self _) hstep) hone h
      exact ⟨hrs, hgrow.trans hmore, fun _ _ _ => .inr hmore⟩

lemma rankFrom_contains (hr : f.Ranking entries ranks)
    (reason : f.RankedBy entries ranks id rank)
    (h : f.rankFrom (fuel + 1) ranks id rank = .ok ranks')
    (hfound : (f.scene.findBlock id).isSome = true) (hready : f.isReady ranks id = true) :
    ranks'.contains id = true := by
  obtain ⟨-, hgrow, hself⟩ := rankFrom_ranking hr reason h
  rcases hself (Nat.succ_pos _) hfound hready with hold | hnew
  · exact Dict.contains_of_isPrefix hgrow hold
  · exact Dict.contains_of_isPrefix hnew (by simp [Dict.contains])

/-- One block of a pass. -/
def passStep (f : Flow) (state : Ranks × Bool) (b : Block) : Except Fault (Ranks × Bool) :=
  if f.mayRank state.1 b then do
    let ranks ← f.rankFrom f.depth state.1 b.id ⟨f.levelAfterInputs state.1 b.id, 0⟩
    pure (ranks, true)
  else pure state

/-- A pass without a block to number changes nothing. -/
lemma rankPass_idle {sorted : List Block} (h : ∀ b ∈ sorted, f.mayRank ranks b = false) :
    f.rankPass sorted ranks = .ok (ranks, false) := by
  have hstep : ∀ blocks : List Block, (∀ b ∈ blocks, f.mayRank ranks b = false) →
      blocks.foldlM f.passStep (ranks, false) = .ok (ranks, false) := by
    intro blocks hblocks
    induction blocks with
    | nil => rfl
    | cons b rest ih =>
      have hb : f.passStep (ranks, false) b = .ok (ranks, false) := by
        rw [passStep, hblocks b (by simp)]
        rfl
      rw [List.foldlM_cons, hb, ok_bind]
      exact ih fun c hc => hblocks c (by simp [hc])
  exact hstep sorted h

lemma passStep_eq_ok {state state' : Ranks × Bool} {b : Block}
    (h : f.passStep state b = .ok state') :
    (f.mayRank state.1 b = false ∧ state' = state) ∨
      (f.mayRank state.1 b = true ∧ state'.2 = true ∧
        f.rankFrom f.depth state.1 b.id ⟨f.levelAfterInputs state.1 b.id, 0⟩ = .ok state'.1) := by
  unfold passStep at h
  split at h
  · rename_i hm
    obtain ⟨rs, hrs, h⟩ := bind_eq_ok.mp h
    cases h
    exact .inr ⟨hm, rfl, hrs⟩
  · rename_i hm
    cases h
    exact .inl ⟨by simpa using hm, rfl⟩

lemma passStep_ranking {state state' : Ranks × Bool} {b : Block}
    (hr : f.Ranking entries state.1) (h : f.passStep state b = .ok state') :
    f.Ranking entries state'.1 ∧ state.1 <+: state'.1 := by
  rcases passStep_eq_ok h with ⟨-, rfl⟩ | ⟨-, -, hrank⟩
  · exact ⟨hr, List.prefix_rfl⟩
  · obtain ⟨hst, hgrow, -⟩ := rankFrom_ranking hr .meeting hrank
    exact ⟨hst, hgrow⟩

lemma foldlM_passStep_ranking {blocks : List Block} {state state' : Ranks × Bool}
    (hr : f.Ranking entries state.1) (h : blocks.foldlM f.passStep state = .ok state') :
    f.Ranking entries state'.1 ∧ state.1 <+: state'.1 := by
  refine foldlM_invariant (fun st => f.Ranking entries st.1 ∧ state.1 <+: st.1) ?_
    ⟨hr, List.prefix_rfl⟩ h
  rintro b - st st' ⟨hst, hgrow⟩ hstep
  obtain ⟨hst', hmore⟩ := passStep_ranking hst hstep
  exact ⟨hst', hgrow.trans hmore⟩

lemma rankPasses_eq_ok {n : ℕ} (h : f.rankPasses (n + 1) ranks = .ok ranks') :
    ∃ sorted state, Scene.sortBlocks f.scene.blocks = .ok sorted ∧
      sorted.foldlM f.passStep (ranks, false) = .ok state ∧
      (if state.2 then f.rankPasses n state.1 else .ok state.1) = .ok ranks' := by
  rw [rankPasses, bind_eq_ok] at h
  obtain ⟨sorted, hs, h⟩ := h
  obtain ⟨state, hp, h⟩ := bind_eq_ok.mp h
  exact ⟨sorted, state, hs, hp, h⟩

theorem rankPasses_ranking {n : ℕ} (hr : f.Ranking entries ranks)
    (h : f.rankPasses n ranks = .ok ranks') : f.Ranking entries ranks' ∧ ranks <+: ranks' := by
  induction n generalizing ranks with
  | zero =>
    cases h
    exact ⟨hr, List.prefix_rfl⟩
  | succ n ih =>
    obtain ⟨sorted, state, -, hp, h⟩ := rankPasses_eq_ok h
    obtain ⟨hst, hgrow⟩ := foldlM_passStep_ranking hr hp
    split at h
    · obtain ⟨hrs, hmore⟩ := ih hst h
      exact ⟨hrs, hgrow.trans hmore⟩
    · cases h
      exact ⟨hst, hgrow⟩

/-- Numbers what follows one of the entries of a scene. -/
def rankEntry (f : Flow) (ranks : Ranks) (b : Block) : Except Fault Ranks :=
  f.rankFrom f.depth ranks b.id ⟨0, 0⟩

lemma ranks_eq_ok (h : f.ranks entries = .ok ranks) :
    ∃ first, entries.foldlM f.rankEntry [] = .ok first ∧
      f.rankPasses (3 * f.scene.blocks.length) first = .ok ranks := by
  rw [Flow.ranks, bind_eq_ok] at h
  exact h

lemma foldlM_rankEntry_ranking {part : List Block} (hsub : part ⊆ entries)
    (hr : f.Ranking entries ranks) (h : part.foldlM f.rankEntry ranks = .ok ranks') :
    f.Ranking entries ranks' ∧ ranks <+: ranks' := by
  refine foldlM_invariant (fun rs => f.Ranking entries rs ∧ ranks <+: rs) ?_
    ⟨hr, List.prefix_rfl⟩ h
  rintro b hb rs rs' ⟨hrs, hgrow⟩ hstep
  obtain ⟨hrs', hmore, -⟩ := rankFrom_ranking hrs (.entry (hsub hb) rfl) hstep
  exact ⟨hrs', hgrow.trans hmore⟩

/-- The ranks of a scene are given one after the other, to blocks whose inputs have theirs. -/
theorem ranks_ranking (h : f.ranks entries = .ok ranks) : f.Ranking entries ranks := by
  obtain ⟨first, hfirst, hpasses⟩ := ranks_eq_ok h
  have hentries := (foldlM_rankEntry_ranking (List.Subset.refl _) .nil hfirst).1
  exact (rankPasses_ranking hentries hpasses).1

namespace Ranking

/-- How a block was numbered, and with which ranks before it. -/
lemma cut (h : f.Ranking entries ranks) {before after : Ranks}
    (hcut : ranks = before ++ (id, rank) :: after) :
    before.contains id = false ∧ (∃ b, f.scene.findBlock id = some b) ∧
      f.isReady before id = true ∧ f.RankedBy entries before id rank := by
  induction h generalizing after with
  | nil => simp at hcut
  | @add ranks last r b hr fresh found ready reason ih =>
    rcases List.eq_nil_or_concat after with rfl | ⟨init, e, rfl⟩
    · obtain ⟨rfl, he⟩ := List.append_inj' hcut rfl
      cases he
      exact ⟨fresh, ⟨b, found⟩, ready, reason⟩
    · have hassoc : ranks ++ [(last, r)] = (before ++ (id, rank) :: init) ++ [e] := by
        rw [hcut, List.concat_eq_append, List.append_assoc, List.cons_append]
      exact ih (List.append_inj' hassoc rfl).1

lemma distinctKeys (h : f.Ranking entries ranks) : Dict.DistinctKeys ranks := by
  induction h with
  | nil => exact List.Pairwise.nil
  | add _ fresh _ _ _ ih =>
    rw [← Dict.set_of_not_contains fresh]
    exact ih.set _ _

lemma exists_block (h : f.Ranking entries ranks) {e : Value × Rank} (he : e ∈ ranks) :
    ∃ b, f.scene.findBlock e.1 = some b := by
  obtain ⟨before, after, hcut⟩ := List.append_of_mem he
  exact (h.cut hcut).2.1

/-- The numbered blocks, each once. -/
lemma blocks (h : f.Ranking entries ranks) :
    ∃ numbered : List Block, numbered.Nodup ∧ numbered ⊆ f.scene.blocks ∧
      numbered.length = ranks.length ∧
      ∀ b ∈ numbered, ∃ e ∈ ranks, b.id.same e.1 = true := by
  induction h with
  | nil => exact ⟨[], List.nodup_nil, by simp, rfl, by simp⟩
  | @add ranks id rank b _ fresh found _ _ ih =>
    obtain ⟨numbered, hnodup, hsub, hlen, hkeys⟩ := ih
    have hsame := Value.same_of_equals (Scene.findBlock_equals found)
    refine ⟨b :: numbered, List.nodup_cons.mpr ⟨?_, hnodup⟩, ?_, by simp [hlen], ?_⟩
    · intro hmem
      obtain ⟨e, he, hb⟩ := hkeys b hmem
      have hne := Dict.contains_eq_false.mp fresh e he
      rw [Value.same_trans (Value.same_symm hsame) hb] at hne
      exact Bool.noConfusion hne
    · exact List.cons_subset.mpr ⟨Scene.findBlock_mem found, hsub⟩
    · intro c hc
      rcases List.mem_cons.mp hc with rfl | hc
      · exact ⟨(id, rank), by simp, hsame⟩
      · obtain ⟨e, he, hce⟩ := hkeys c hc
        exact ⟨e, by simp [he], hce⟩

lemma length_le (h : f.Ranking entries ranks) : ranks.length ≤ f.scene.blocks.length := by
  obtain ⟨numbered, hnodup, hsub, hlen, -⟩ := h.blocks
  rw [← hlen]
  exact (hnodup.subperm hsub).length_le

end Ranking

section Passes

/-- Nothing is left to number: what has no rank waits for an input. -/
def Settled (f : Flow) (ranks : Ranks) : Prop :=
  ∀ b ∈ f.scene.blocks, (f.scene.findBlock b.id).isSome = true → f.mayRank ranks b = false

/-- A pass that numbers nothing has nothing to number. -/
lemma foldlM_passStep_settled {blocks : List Block} {state state' : Ranks × Bool}
    (hr : f.Ranking entries state.1) (h : blocks.foldlM f.passStep state = .ok state')
    (hlen : state'.1.length = state.1.length) :
    ∀ b ∈ blocks, (f.scene.findBlock b.id).isSome = true → f.mayRank state.1 b = false := by
  induction blocks generalizing state with
  | nil => simp
  | cons b rest ih =>
    rw [List.foldlM_cons, bind_eq_ok] at h
    obtain ⟨mid, hmid, h⟩ := h
    obtain ⟨hmr, hgrow⟩ := passStep_ranking hr hmid
    obtain ⟨-, hmore⟩ := foldlM_passStep_ranking hmr h
    have hsame : mid.1 = state.1 := by
      refine (hgrow.eq_of_length ?_).symm
      have h₁ := hgrow.length_le
      have h₂ := hmore.length_le
      omega
    intro c hc hfound
    rcases List.mem_cons.mp hc with rfl | hc
    · rcases passStep_eq_ok hmid with ⟨hno, -⟩ | ⟨hmay, -, hrank⟩
      · exact hno
      · simp only [mayRank, Bool.and_eq_true, Bool.not_eq_true'] at hmay
        obtain ⟨⟨⟨hfresh, -⟩, -⟩, hready⟩ := hmay
        have hin := rankFrom_contains hr .meeting hrank hfound hready
        rw [hsame, hfresh] at hin
        exact Bool.noConfusion hin
    · rw [← hsame]
      exact ih hmr h (by rw [hlen, hsame]) c hc hfound

/-- A pass without progress changes nothing. -/
lemma foldlM_passStep_of_no_progress {blocks : List Block} {state state' : Ranks × Bool}
    (h : blocks.foldlM f.passStep state = .ok state') (hp : state'.2 = false) :
    state' = state := by
  induction blocks generalizing state with
  | nil =>
    cases h
    rfl
  | cons b rest ih =>
    rw [List.foldlM_cons, bind_eq_ok] at h
    obtain ⟨mid, hmid, h⟩ := h
    have hrest := ih h
    rw [hrest] at hp
    rcases passStep_eq_ok hmid with ⟨-, rfl⟩ | ⟨-, hprogress, -⟩
    · exact hrest
    · rw [hp] at hprogress
      exact Bool.noConfusion hprogress

lemma rankPasses_of_idle {n : ℕ} {sorted : List Block} {progress : Bool}
    (hs : Scene.sortBlocks f.scene.blocks = .ok sorted)
    (hp : sorted.foldlM f.passStep (ranks, false) = .ok (ranks, progress))
    (h : f.rankPasses n ranks = .ok ranks') : ranks' = ranks := by
  induction n with
  | zero =>
    cases h
    rfl
  | succ n ih =>
    obtain ⟨sorted', state, hs', hp', h⟩ := rankPasses_eq_ok h
    cases hs.symm.trans hs'
    cases hp.symm.trans hp'
    cases progress with
    | true => exact ih h
    | false =>
      cases h
      rfl

/-- Passes go on until nothing is left to number, unless each of them numbers a block. -/
lemma rankPasses_settled {n : ℕ} (hr : f.Ranking entries ranks)
    (h : f.rankPasses n ranks = .ok ranks') :
    f.Settled ranks' ∨ ranks.length + n ≤ ranks'.length := by
  induction n generalizing ranks with
  | zero =>
    cases h
    exact .inr (Nat.le_refl _)
  | succ n ih =>
    obtain ⟨sorted, state, hs, hp, h⟩ := rankPasses_eq_ok h
    obtain ⟨hst, hgrow⟩ := foldlM_passStep_ranking hr hp
    have hsettled : state.1.length = ranks.length → f.Settled ranks := by
      intro hlen b hb
      exact foldlM_passStep_settled hr hp hlen b ((Order.sortOn_perm hs).mem_iff.mpr hb)
    split at h
    · by_cases hlen : state.1.length = ranks.length
      · -- such a pass would be repeated without end
        have hsame : ranks = state.1 := hgrow.eq_of_length hlen.symm
        have hidle : sorted.foldlM f.passStep (ranks, false) = .ok (ranks, state.2) := by
          rw [hp, hsame]
        rw [← hsame] at h
        rw [rankPasses_of_idle hs hidle h]
        exact .inl (hsettled hlen)
      · have hle : ranks.length ≤ state.1.length := hgrow.length_le
        rcases ih hst h with hdone | hlong
        · exact .inl hdone
        · exact .inr (by omega)
    · rename_i hprogress
      have hsame := foldlM_passStep_of_no_progress hp (by simpa using hprogress)
      cases h
      rw [hsame] at hsettled ⊢
      exact .inl (hsettled rfl)

/-- There are passes enough. -/
theorem ranks_settled (h : f.ranks entries = .ok ranks) : f.Settled ranks := by
  obtain ⟨first, hfirst, hpasses⟩ := ranks_eq_ok h
  intro b hb
  have hlen : 0 < f.scene.blocks.length := List.length_pos_of_mem hb
  have hle := (ranks_ranking h).length_le
  have hentries := (foldlM_rankEntry_ranking (List.Subset.refl _) .nil hfirst).1
  rcases rankPasses_settled hentries hpasses with hdone | hlong
  · exact hdone b hb
  · omega

/-- The numbering from an entry of the scene, with the ranks before and after it. -/
lemma ranks_at_entry (h : f.ranks entries = .ok ranks) {before after : List Block} {b : Block}
    (hcut : entries = before ++ b :: after) :
    ∃ rs rs', before.foldlM f.rankEntry [] = .ok rs ∧ f.Ranking entries rs ∧
      f.rankFrom f.depth rs b.id ⟨0, 0⟩ = .ok rs' ∧ rs' <+: ranks := by
  obtain ⟨first, hfirst, hpasses⟩ := ranks_eq_ok h
  have hentries := (foldlM_rankEntry_ranking (List.Subset.refl _) .nil hfirst).1
  have hsub : before ⊆ entries ∧ after ⊆ entries := by
    constructor
    · intro c hc
      simp [hcut, hc]
    · intro c hc
      simp [hcut, hc]
  have hb : b ∈ entries := by simp [hcut]
  rw [hcut, List.foldlM_append, bind_eq_ok] at hfirst
  obtain ⟨rs, hrs, hfirst⟩ := hfirst
  rw [List.foldlM_cons, bind_eq_ok] at hfirst
  obtain ⟨rs', hstep, hfirst⟩ := hfirst
  obtain ⟨hrank, -⟩ := foldlM_rankEntry_ranking hsub.1 .nil hrs
  obtain ⟨hrank', -⟩ := rankFrom_ranking hrank (.entry hb rfl) hstep
  obtain ⟨-, hgrow⟩ := foldlM_rankEntry_ranking hsub.2 hrank' hfirst
  exact ⟨rs, rs', hrs, hrank, hstep, hgrow.trans (rankPasses_ranking hentries hpasses).2⟩

/-- Entries without inputs are numbered. -/
lemma foldlM_rankEntry_contains {part : List Block} (hsub : part ⊆ entries)
    (hr : f.Ranking entries ranks) (h : part.foldlM f.rankEntry ranks = .ok ranks') {b : Block}
    (hb : b ∈ part) (hfound : (f.scene.findBlock b.id).isSome = true)
    (hready : ∀ rs, f.isReady rs b.id = true) : ranks'.contains b.id = true := by
  obtain ⟨before, after, rfl⟩ := List.append_of_mem hb
  obtain ⟨hbefore, hafter⟩ := List.append_subset.mp hsub
  rw [List.foldlM_append, bind_eq_ok] at h
  obtain ⟨rs, hrs, h⟩ := h
  rw [List.foldlM_cons, bind_eq_ok] at h
  obtain ⟨rs', hstep, h⟩ := h
  have reason : f.RankedBy entries rs b.id ⟨0, 0⟩ := .entry (hsub hb) rfl
  obtain ⟨hrank, -⟩ := foldlM_rankEntry_ranking hbefore hr hrs
  obtain ⟨hrank', -⟩ := rankFrom_ranking hrank reason hstep
  obtain ⟨-, hgrow⟩ := foldlM_rankEntry_ranking (List.cons_subset.mp hafter).2 hrank' h
  exact Dict.contains_of_isPrefix hgrow (rankFrom_contains hrank reason hstep hfound (hready rs))

lemma ranks_contains_entry (h : f.ranks entries = .ok ranks) {b : Block} (hb : b ∈ entries)
    (hfound : (f.scene.findBlock b.id).isSome = true) (hready : ∀ rs, f.isReady rs b.id = true) :
    ranks.contains b.id = true := by
  obtain ⟨first, hfirst, hpasses⟩ := ranks_eq_ok h
  have hentries := (foldlM_rankEntry_ranking (List.Subset.refl _) .nil hfirst).1
  refine Dict.contains_of_isPrefix (rankPasses_ranking hentries hpasses).2 ?_
  exact foldlM_rankEntry_contains (List.Subset.refl _) .nil hfirst hb hfound hready

end Passes
end Flow
end NovelGraph
