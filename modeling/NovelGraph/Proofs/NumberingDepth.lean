import NovelGraph.Proofs.Branches
import NovelGraph.Proofs.Ranking

/-! How deep numbering looks. Each block on its way is numbered before those behind it, so there are
never more steps than blocks ahead, and a limit above that does not matter. -/
namespace NovelGraph

open Outcome

namespace Flow

variable {f : Flow} {fuel m n level : ℕ} {ranks ranks' : Ranks} {id : Value} {rank : Rank}
  {order : List Value}

/-- The branches behind a fork. -/
def forkOn (f : Flow) (fuel : ℕ) (id : Value) (level : ℕ) (ranks : Ranks) : Except Fault Ranks := do
  f.rankFork fuel level (← f.scene.sortByPlace (f.links.next id)) ranks

/-- The numbering behind a block of a branch. -/
def branchOn (f : Flow) (fuel : ℕ) (id : Value) (rank : Rank) (ranks : Ranks) :
    Except Fault Ranks :=
  match f.links.next id with
  | [] => .ok ranks
  | [(next, _)] =>
    if 1 < (f.inputs.sources next).length then .ok ranks
    else f.rankBranch fuel ranks next { rank with level := rank.level + 1 }
  | _ => f.forkOn fuel id rank.level ranks

/-- The numbering behind a block that no fork leads to. -/
def numberOn (f : Flow) (fuel : ℕ) (id : Value) (rank : Rank) (ranks : Ranks) :
    Except Fault Ranks :=
  match f.links.next id with
  | [] => .ok ranks
  | [(next, _)] => f.rankFrom fuel ranks next rank
  | _ => f.forkOn fuel id rank.level ranks

/-- Whether a block is to be numbered. -/
def admits (f : Flow) (ranks : Ranks) (id : Value) : Bool :=
  !ranks.contains id && f.isReady ranks id && (f.scene.findBlock id).isSome

section Steps

lemma branchOn_of_fork (h : 2 ≤ (f.links.next id).length) :
    f.branchOn fuel id rank ranks = f.forkOn fuel id rank.level ranks := by
  unfold branchOn
  rcases hn : f.links.next id with - | ⟨next, - | ⟨other, rest⟩⟩
  · simp [hn] at h
  · simp [hn] at h
  · rfl

lemma numberOn_of_fork (h : 2 ≤ (f.links.next id).length) :
    f.numberOn fuel id rank ranks = f.forkOn fuel id rank.level ranks := by
  unfold numberOn
  rcases hn : f.links.next id with - | ⟨next, - | ⟨other, rest⟩⟩
  · simp [hn] at h
  · simp [hn] at h
  · rfl

lemma rankBranch_succ_eq (f : Flow) (fuel : ℕ) (ranks : Ranks) (id : Value) (rank : Rank) :
    f.rankBranch (fuel + 1) ranks id rank =
      if id.isTruthy && f.admits ranks id then f.branchOn fuel id rank (ranks.set id rank)
      else .ok ranks := by
  rw [rankBranch, admits]
  cases id.isTruthy with
  | false => rfl
  | true =>
  cases ranks.contains id with
  | true => rfl
  | false =>
  cases f.isReady ranks id with
  | false => rfl
  | true =>
  cases f.scene.findBlock id with
  | none => rfl
  | some b =>
    simp only [branchOn, forkOn]
    rcases f.links.next id with - | ⟨next, - | ⟨other, rest⟩⟩ <;> rfl

lemma rankFrom_succ_eq (f : Flow) (fuel : ℕ) (ranks : Ranks) (id : Value) (rank : Rank) :
    f.rankFrom (fuel + 1) ranks id rank =
      if f.admits ranks id then f.numberOn fuel id rank (ranks.set id rank) else .ok ranks := by
  rw [rankFrom, admits]
  cases ranks.contains id with
  | true => rfl
  | false =>
  cases f.isReady ranks id with
  | false => cases f.scene.findBlock id <;> rfl
  | true =>
  cases f.scene.findBlock id with
  | none => rfl
  | some b =>
    simp only [numberOn, forkOn]
    rcases f.links.next id with - | ⟨next, - | ⟨other, rest⟩⟩ <;> rfl

lemma set_of_admits (h : f.admits ranks id = true) (rank : Rank) :
    ranks.set id rank = ranks ++ [(id, rank)] := by
  simp only [admits, Bool.and_eq_true, Bool.not_eq_true'] at h
  exact Dict.set_of_not_contains h.1.1 rank

end Steps

section Growth

lemma branchOn_grows
    (hbranch : ∀ {rs rs' : Ranks} {next : Value} {q : Rank},
      f.rankBranch fuel rs next q = .ok rs' → rs <+: rs')
    (h : f.branchOn fuel id rank ranks = .ok ranks') : ranks <+: ranks' := by
  unfold branchOn at h
  split at h
  · cases h
    exact List.prefix_rfl
  · split_ifs at h
    · cases h
      exact List.prefix_rfl
    · exact hbranch h
  · obtain ⟨order, -, h⟩ := bind_eq_ok.mp h
    refine foldlM_invariant (fun rs => ranks <+: rs) ?_ List.prefix_rfl h
    intro t _ rs rs' hgrows hstep
    exact hgrows.trans (hbranch hstep)

/-- Numbering only adds ranks. -/
theorem rankBranch_grows (h : f.rankBranch fuel ranks id rank = .ok ranks') : ranks <+: ranks' := by
  induction fuel generalizing ranks ranks' id rank with
  | zero =>
    cases h
    exact List.prefix_rfl
  | succ fuel ih =>
    rw [rankBranch_succ_eq] at h
    split_ifs at h with hadmits
    · rw [set_of_admits (Bool.and_eq_true_iff.mp hadmits).2] at h
      exact (List.prefix_append ranks _).trans (branchOn_grows ih h)
    · cases h
      exact List.prefix_rfl

/-- A branch that was tried is not numbered a second time. -/
lemma rankBranch_again (h : f.rankBranch fuel ranks id rank = .ok ranks') (q : Rank) :
    f.rankBranch fuel ranks' id q = .ok ranks' := by
  cases fuel with
  | zero =>
    cases h
    rfl
  | succ fuel =>
    rw [rankBranch_succ_eq] at h ⊢
    split_ifs at h with hadmits
    · rw [set_of_admits (Bool.and_eq_true_iff.mp hadmits).2] at h
      have hcontains : ranks'.contains id = true :=
        Dict.contains_of_isPrefix (branchOn_grows rankBranch_grows h) (by simp [Dict.contains])
      rw [if_neg (by simp [admits, hcontains])]
    · cases h
      rw [if_neg hadmits]

end Growth

section Congruence

variable (hbranch : ∀ {rs : Ranks} {next : Value} {q : Rank}, ranks <+: rs →
  next ∈ f.links.targets → f.rankBranch m rs next q = f.rankBranch n rs next q)

include hbranch

lemma forkOn_congr_fuel : f.forkOn m id level ranks = f.forkOn n id level ranks := by
  rw [forkOn, forkOn]
  cases hs : f.scene.sortByPlace (f.links.next id) with
  | error fault => rfl
  | ok order =>
    refine foldlM_congr (fun rs => ranks <+: rs) ?_ ?_ List.prefix_rfl
    · intro t ht rs hgrows
      have hmem := (Scene.sortByPlace_perm hs).mem_iff.mp (List.fst_mem_of_mem_zipIdx ht)
      exact hbranch hgrows (Links.mem_targets_of_mem_nextIds hmem)
    · intro t _ rs rs' hgrows hstep
      exact hgrows.trans (rankBranch_grows hstep)

lemma branchOn_congr_fuel : f.branchOn m id rank ranks = f.branchOn n id rank ranks := by
  have hmem : ∀ t ∈ f.links.next id, t.1 ∈ f.links.targets :=
    fun t ht => Links.mem_targets_of_mem_next ht
  unfold branchOn
  split
  · rfl
  · rename_i next d hnext
    rw [hbranch List.prefix_rfl (hmem (next, d) (by simp [hnext]))]
  · exact forkOn_congr_fuel hbranch

lemma numberOn_congr_fuel
    (hfrom : ∀ {next : Value} {q : Rank}, next ∈ f.links.targets →
      f.rankFrom m ranks next q = f.rankFrom n ranks next q) :
    f.numberOn m id rank ranks = f.numberOn n id rank ranks := by
  have hmem : ∀ t ∈ f.links.next id, t.1 ∈ f.links.targets :=
    fun t ht => Links.mem_targets_of_mem_next ht
  unfold numberOn
  split
  · rfl
  · rename_i next d hnext
    rw [hfrom (hmem (next, d) (by simp [hnext]))]
  · exact forkOn_congr_fuel hbranch

end Congruence

/-- A block that a wire leads to is no longer ahead once it is numbered. -/
lemma ahead_lt_of_admits (hid : id ∈ f.links.targets) (h : f.admits ranks id = true)
    {rs : Ranks} (hgrows : ranks.set id rank <+: rs) :
    f.ahead (rs.map (·.1)) < f.ahead (ranks.map (·.1)) := by
  have henters : f.enters (ranks.map (·.1)) id = true := by
    simp only [admits, Bool.and_eq_true, Bool.not_eq_true'] at h
    have hfresh : id.memberOf (ranks.map (·.1)) = false := by
      rw [Bool.eq_false_iff, ne_eq, ← Dict.contains_iff, h.1.1]
      exact Bool.false_ne_true
    rw [enters, hfresh, Bool.not_false, Bool.true_and]
    exact h.1.2
  rw [set_of_admits h] at hgrows
  have hkeys : ranks.map (·.1) ++ [id] <+: rs.map (·.1) := by
    simpa using hgrows.map (·.1)
  exact Nat.lt_of_le_of_lt (ahead_le hkeys) (ahead_lt hid henters)

/-- Deeper than what is ahead of it numbering does not look. -/
theorem rankBranch_succ (hid : id ∈ f.links.targets) (h : f.ahead (ranks.map (·.1)) < fuel) :
    f.rankBranch (fuel + 1) ranks id rank = f.rankBranch fuel ranks id rank := by
  induction fuel generalizing ranks id rank with
  | zero => omega
  | succ fuel ih =>
    rw [rankBranch_succ_eq, rankBranch_succ_eq]
    cases hadmits : id.isTruthy && f.admits ranks id with
    | false => rfl
    | true =>
      refine branchOn_congr_fuel fun {rs next q} hgrows hnext => ih hnext ?_
      have hless := ahead_lt_of_admits hid (Bool.and_eq_true_iff.mp hadmits).2 hgrows
      omega

theorem rankFrom_succ (hid : id ∈ f.links.targets) (h : f.ahead (ranks.map (·.1)) < fuel) :
    f.rankFrom (fuel + 1) ranks id rank = f.rankFrom fuel ranks id rank := by
  induction fuel generalizing ranks id rank with
  | zero => omega
  | succ fuel ih =>
    rw [rankFrom_succ_eq, rankFrom_succ_eq]
    cases hadmits : f.admits ranks id with
    | false => rfl
    | true =>
      have hless : ∀ {rs : Ranks}, ranks.set id rank <+: rs → f.ahead (rs.map (·.1)) < fuel := by
        intro rs hgrows
        have := ahead_lt_of_admits hid hadmits hgrows
        omega
      exact numberOn_congr_fuel (fun hgrows hnext => rankBranch_succ hnext (hless hgrows))
        fun hnext => ih hnext (hless List.prefix_rfl)

/-- No numbering looks deeper than its flow. -/
lemma rankFrom_depth_succ (f : Flow) : f.rankFrom (f.depth + 1) = f.rankFrom f.depth := by
  funext ranks id rank
  have hless : ∀ rs : Ranks, f.ahead (rs.map (·.1)) < f.links.targets.length + 1 :=
    fun rs => Nat.lt_succ_of_le List.countP_le_length
  rw [depth, rankFrom_succ_eq, rankFrom_succ_eq,
    numberOn_congr_fuel (fun _ hnext => rankBranch_succ hnext (hless _))
      fun hnext => rankFrom_succ hnext (hless _)]

section Success

variable (hsort : ∀ id, ∃ order, f.scene.sortByPlace (f.links.next id) = .ok order)

include hsort

lemma exists_forkOn (hbranch : ∀ rs next q, ∃ rs', f.rankBranch fuel rs next q = .ok rs')
    (id : Value) (level : ℕ) (ranks : Ranks) :
    ∃ ranks', f.forkOn fuel id level ranks = .ok ranks' := by
  obtain ⟨order, horder⟩ := hsort id
  rw [forkOn, horder, ok_bind]
  exact exists_foldlM_eq_ok (fun t _ rs => hbranch rs t.1 _) ranks

lemma exists_rankBranch (fuel : ℕ) (ranks : Ranks) (id : Value) (rank : Rank) :
    ∃ ranks', f.rankBranch fuel ranks id rank = .ok ranks' := by
  induction fuel generalizing ranks id rank with
  | zero => exact ⟨ranks, rfl⟩
  | succ fuel ih =>
    rw [rankBranch_succ_eq]
    split_ifs
    · unfold branchOn
      split
      · exact ⟨_, rfl⟩
      · split_ifs
        · exact ⟨_, rfl⟩
        · exact ih _ _ _
      · exact exists_forkOn hsort ih id rank.level _
    · exact ⟨ranks, rfl⟩

lemma exists_rankFrom (fuel : ℕ) (ranks : Ranks) (id : Value) (rank : Rank) :
    ∃ ranks', f.rankFrom fuel ranks id rank = .ok ranks' := by
  induction fuel generalizing ranks id rank with
  | zero => exact ⟨ranks, rfl⟩
  | succ fuel ih =>
    rw [rankFrom_succ_eq]
    split_ifs
    · unfold numberOn
      split
      · exact ⟨_, rfl⟩
      · exact ih _ _ _
      · exact exists_forkOn hsort (exists_rankBranch hsort fuel) id rank.level _
    · exact ⟨ranks, rfl⟩

/-- Numbering a scene succeeds if its blocks can be sorted. -/
theorem exists_ranks (hblocks : ∃ sorted, Scene.sortBlocks f.scene.blocks = .ok sorted)
    (entries : List Block) : ∃ ranks, f.ranks entries = .ok ranks := by
  obtain ⟨sorted, hsorted⟩ := hblocks
  have hpasses : ∀ n ranks, ∃ ranks', f.rankPasses n ranks = .ok ranks' := by
    intro n
    induction n with
    | zero => exact fun ranks => ⟨ranks, rfl⟩
    | succ n ih =>
      intro ranks
      obtain ⟨⟨ranks', progress⟩, hpass⟩ : ∃ result, f.rankPass sorted ranks = .ok result := by
        refine exists_foldlM_eq_ok (fun b _ (rs, progress) => ?_) _
        dsimp only
        split_ifs
        · obtain ⟨rs', hrs⟩ := exists_rankFrom hsort f.depth rs b.id ⟨f.levelAfterInputs rs b.id, 0⟩
          exact ⟨(rs', true), by rw [hrs]; rfl⟩
        · exact ⟨_, rfl⟩
      rw [rankPasses, hsorted, ok_bind, hpass, ok_bind]
      dsimp only
      split_ifs
      · exact ih ranks'
      · exact ⟨ranks', rfl⟩
  obtain ⟨first, hfirst⟩ : ∃ first,
      entries.foldlM (fun ranks b => f.rankFrom f.depth ranks b.id ⟨0, 0⟩) [] = .ok first :=
    exists_foldlM_eq_ok (fun b _ ranks => exists_rankFrom hsort f.depth ranks b.id ⟨0, 0⟩) []
  rw [ranks, hfirst, ok_bind]
  exact hpasses _ first

end Success

end Flow
end NovelGraph
