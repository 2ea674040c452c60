import Mathlib.Data.List.Perm.Basic
import NovelGraph.Graph.Topological
import NovelGraph.Proofs.Listing

/-! The topological order of a scene is a listing of its blocks. The sort counts the open inputs of
each block down and keeps the blocks that are due in the order of their places; in a scene without
double wires the count of a block is the number of its inputs that are not listed. -/
namespace NovelGraph

open Outcome

namespace Scene

variable {s : Scene} {l : Links} {done order : List Block} {a b c : Block} {v : Value}

section Places

lemma lastPositionOf_cases (s : Scene) (v : Value) :
    (∃ b ∈ s.blocks, lastPositionOf s.blockTable v = b.position) ∨
      lastPositionOf s.blockTable v = (.int 0, .int 0) := by
  rw [lastPositionOf]
  cases h : s.blockTable.get? v with
  | none => exact .inr rfl
  | some b => exact .inl ⟨b, (Dict.exists_of_get?_ofItems h).1, rfl⟩

lemma DistinctKeys.lastPositionOf (hs : s.DistinctKeys) (hb : b ∈ s.blocks)
    (h : b.id.same v = true) :
    lastPositionOf s.blockTable v = b.position := by
  rw [Scene.lastPositionOf, hs.blockTable hb h]

/-- Ids from the topmost and leftmost block on. -/
def InPlace (s : Scene) (ids : List Value) : Prop :=
  s.OnGrid → ids.Pairwise fun u w =>
    Order.grid (lastPositionOf s.blockTable u) ≤ Order.grid (lastPositionOf s.blockTable w)

/-- Whatever lies at known places can be sorted by them. -/
lemma Placed.exists_sortOn (hs : s.Placed) {α : Type} (id : α → Value) (items : List α) :
    ∃ out, Order.sortOn (fun a => lastPositionOf s.blockTable (id a)) Order.pairLess items =
      .ok out := by
  have hnumber : ∀ v, (lastPositionOf s.blockTable v).1.number?.isSome = true ∧
      (lastPositionOf s.blockTable v).2.number?.isSome = true := by
    intro v
    rcases s.lastPositionOf_cases v with ⟨b, hb, h⟩ | h
    · rw [h]
      exact (hs b hb).symm
    · rw [h]
      exact ⟨rfl, rfl⟩
  exact Order.exists_sortOn fun a _ b _ => Order.exists_pairLess (hnumber _) (hnumber _)

lemma Placed.exists_sortIds (hs : s.Placed) (ids : List Value) :
    ∃ out, sortIds s.blockTable ids = .ok out ∧ out.Perm ids ∧ s.InPlace out := by
  obtain ⟨out, hout⟩ := hs.exists_sortOn (fun v => v) ids
  refine ⟨out, hout, Order.sortOn_perm hout, fun hgrid => Order.sortOn_grid ?_ hout⟩
  intro v
  rcases s.lastPositionOf_cases v with ⟨b, hb, h⟩ | h
  · rw [h]
    exact (hgrid b hb).symm
  · rw [h]
    exact ⟨(Value.isWhole_int 0).1, (Value.isWhole_int 0).1⟩

end Places

section Settling

/-- What settling one wire into each of `targets` does: their counts go down by one, and those that
have come to zero become ready. -/
structure Settled (s : Scene) (targets : List Value) (p q : Pending) : Prop where
  open_ : ∀ v, q.open_.get? v =
    (p.open_.get? v).map fun n => if v.memberOf targets then n - 1 else n
  ready : q.ready.Perm (p.ready ++ targets.filter fun t => p.open_.get? t = some 1)
  inPlace : s.InPlace p.ready → s.InPlace q.ready

variable {p q r : Pending} {t : Value} {targets : List Value}

lemma get?_set_pred (d : Dict Int) {n : Int} (h : d.get? t = some n) (v : Value) :
    (d.set t (n - 1)).get? v = (d.get? v).map fun n => if v.memberOf [t] then n - 1 else n := by
  rw [Dict.get?_set, Value.memberOf_singleton]
  by_cases hv : v.same t = true
  · rw [if_pos hv, Dict.get?_congr d hv, h]
    simp [hv]
  · rw [if_neg hv]
    simp [hv]

lemma Settled.refl : s.Settled [] p p := ⟨by simp, by simp, fun h => h⟩

/-- One wire is settled. -/
lemma Placed.exists_settle (hs : s.Placed) (p : Pending) (t : Value) :
    ∃ q, settle s.blockTable p t = .ok q ∧ s.Settled [t] p q := by
  rw [settle]
  cases hn : p.open_.get? t with
  | none =>
    refine ⟨p, rfl, fun v => ?_, by simp [hn], fun h => h⟩
    by_cases hv : v.same t = true
    · rw [Dict.get?_congr _ hv, hn]
      rfl
    · simp [hv]
  | some n =>
    by_cases hzero : n - 1 = 0
    · obtain ⟨out, hout, hperm, hplace⟩ := hs.exists_sortIds (p.ready ++ [t])
      have hone : n = 1 := by omega
      simp only [hzero, if_true, hout, ok_bind]
      refine ⟨_, rfl, fun v => ?_, ?_, fun _ => hplace⟩
      · rw [← get?_set_pred p.open_ hn v, hzero]
      · simpa [hn, hone] using hperm
    · have hone : n ≠ 1 := by omega
      simp only [hzero, if_false]
      exact ⟨_, rfl, get?_set_pred p.open_ hn, by simp [hn, hone], fun h => h⟩

lemma Settled.cons (h : s.Settled [t] p q) (hrest : s.Settled targets q r)
    (hfresh : ∀ u ∈ targets, t.same u = false) : s.Settled (t :: targets) p r := by
  have hother : ∀ u ∈ targets, q.open_.get? u = p.open_.get? u := by
    intro u hu
    have hne : u.memberOf [t] = false := by
      rw [Value.memberOf_singleton, Value.same_comm, hfresh u hu]
    simp [h.open_, hne]
  constructor
  · intro v
    rw [hrest.open_, h.open_, Option.map_map]
    congr 1
    funext n
    have hboth : v.memberOf [t] = true → v.memberOf targets = false := by
      intro hv
      rw [Value.memberOf_singleton] at hv
      rw [Value.memberOf, List.any_eq_false]
      intro u hu huv
      have hne := hfresh u hu
      rw [Value.same_trans (Value.same_symm hv) huv] at hne
      exact Bool.noConfusion hne
    have hmem : v.memberOf (t :: targets) = (v.memberOf [t] || v.memberOf targets) :=
      Value.memberOf_append v [t] targets
    rw [Function.comp_apply, hmem]
    cases hv : v.memberOf [t] with
    | true => simp [hboth hv]
    | false => simp
  · have hfilter : targets.filter (fun u => q.open_.get? u = some 1) =
        targets.filter fun u => p.open_.get? u = some 1 :=
      List.filter_congr fun u hu => by rw [hother u hu]
    refine hrest.ready.trans ?_
    rw [hfilter, ← List.singleton_append, List.filter_append, ← List.append_assoc]
    exact h.ready.append_right _
  · exact fun hp => hrest.inPlace (h.inPlace hp)

/-- Wires to different blocks are settled one after the other. -/
lemma Placed.exists_settleAll (hs : s.Placed)
    (hd : targets.Pairwise fun u w => u.same w = false) (p : Pending) :
    ∃ q, targets.foldlM (settle s.blockTable) p = .ok q ∧ s.Settled targets p q := by
  induction targets generalizing p with
  | nil => exact ⟨p, rfl, .refl⟩
  | cons t rest ih =>
    rw [List.pairwise_cons] at hd
    obtain ⟨q, hq, hsettled⟩ := hs.exists_settle p t
    obtain ⟨r, hr, hrest⟩ := ih hd.2 q
    rw [List.foldlM_cons, hq, ok_bind]
    exact ⟨r, hr, hsettled.cons hrest hd.1⟩

end Settling

/-- How many blocks of a kind are not yet listed. -/
def unlisted (s : Scene) (done : List Block) (q : Block → Bool) : ℕ :=
  s.blocks.countP fun a => q a && decide (a ∉ done)

/-- Listing a block leaves one less, if it counts. -/
lemma DistinctKeys.unlisted_snoc (hs : s.DistinctKeys) (hb : b ∈ s.blocks) (hfresh : b ∉ done)
    (q : Block → Bool) :
    s.unlisted done q = s.unlisted (done ++ [b]) q + if q b then 1 else 0 := by
  have hperm := List.perm_cons_erase hb
  have hrest : ∀ a ∈ s.blocks.erase b,
      (q a && decide (a ∉ done)) = (q a && decide (a ∉ done ++ [b])) := by
    intro a ha
    have hne : a ≠ b := (hs.nodup.mem_erase_iff.mp ha).1
    simp [hne]
  rw [unlisted, unlisted, hperm.countP_eq, hperm.countP_eq, List.countP_cons, List.countP_cons,
    List.countP_congr fun a ha => by rw [hrest a ha]]
  simp [hfresh]

/-- The inputs of a block that are not yet listed. -/
def openInputs (s : Scene) (done : List Block) (b : Block) : ℕ :=
  s.unlisted done fun a => decide (s.Wired a b)

lemma openInputs_eq_zero :
    s.openInputs done b = 0 ↔ ∀ a ∈ s.blocks, s.Wired a b → a ∈ done := by
  rw [openInputs, unlisted, List.countP_eq_zero]
  simp

lemma DistinctKeys.openInputs_snoc (hs : s.DistinctKeys) (hb : b ∈ s.blocks) (hfresh : b ∉ done)
    (c : Block) :
    s.openInputs done c = s.openInputs (done ++ [b]) c + if s.Wired b c then 1 else 0 := by
  simpa [openInputs] using hs.unlisted_snoc hb hfresh fun a => decide (s.Wired a c)

lemma due_iff : s.Due done b ↔
    b ∈ s.blocks ∧ b.kind.isResource = false ∧ b ∉ done ∧ s.openInputs done b = 0 := by
  rw [openInputs_eq_zero]
  exact ⟨fun h => ⟨h.mem, h.listed, h.fresh, h.inputs⟩, fun ⟨hm, hk, hf, hi⟩ => ⟨hm, hk, hf, hi⟩⟩

/-- No two wires join the same blocks in the same direction. -/
def SingleWires (s : Scene) : Prop :=
  s.wires.Pairwise fun u w => (u.source.same w.source && u.target.same w.target) = false

instance (s : Scene) : Decidable s.SingleWires := inferInstanceAs (Decidable (List.Pairwise _ _))

/-- The blocks that a block is wired to, by their ids, each once. -/
structure Followers (s : Scene) (b : Block) (targets : List Value) : Prop where
  wired : ∀ c, c.id.memberOf targets = true ↔ s.Wired b c
  named : ∀ t ∈ targets, ∃ c ∈ s.blocks, c.id.same t = true
  distinct : targets.Pairwise fun u w => u.same w = false

lemma SingleWires.nextIds_distinct (hs : s.SingleWires) (hl : s.links = .ok l) (v : Value) :
    (l.nextIds v).Pairwise fun u w => u.same w = false := by
  have hperm : (l.nextIds v).Perm ((s.wiresFrom v).map (·.target)) := by
    rw [Links.nextIds, links_next hl, Links.sortByDistance]
    have h := (Order.sortByKey_perm (·.2) (fun a b => (Magnitude.ofDouble a).lt (.ofDouble b))
      ((s.wiresFrom v).map Wire.hop)).map (·.1)
    simpa [Function.comp_def, Wire.hop] using h
  rw [Value.distinct_perm hperm, List.pairwise_map]
  refine (List.Pairwise.filter _ hs).imp_of_mem ?_
  intro u w hu hw h
  have hu := (List.mem_filter.mp hu).2
  have hw := (List.mem_filter.mp hw).2
  rwa [Value.same_trans (Value.same_symm hu) hw, Bool.true_and] at h

lemma SingleWires.followers (hs : s.SingleWires) (hl : s.links = .ok l) (h : b.id.same v = true)
    {targets : List Value} (hperm : targets.Perm (l.nextIds v)) : s.Followers b targets := by
  constructor
  · intro c
    rw [Value.memberOf_perm hperm]
    exact memberOf_nextIds hl h
  · intro t ht
    exact exists_of_mem_nextIds hl (hperm.mem_iff.mp ht)
  · rw [Value.distinct_perm hperm]
    exact hs.nextIds_distinct hl v

/-- What the sort knows once `done` is listed: the count of each block is that of its open inputs,
and the blocks that are due are ready, each once, in the order of their places. -/
structure Tracks (s : Scene) (done : List Block) (p : Pending) : Prop where
  closed : ∀ b ∈ done, s.openInputs done b = 0
  counted : ∀ b ∈ s.blocks, b.kind.isResource = false →
    p.open_.get? b.id = some (s.openInputs done b : Int)
  passed : ∀ b ∈ s.blocks, b.kind.isResource = true → p.open_.get? b.id = none
  ready : ∀ b ∈ s.blocks, b.id.memberOf p.ready = true ↔ s.Due done b
  named : ∀ v ∈ p.ready, ∃ b ∈ s.blocks, b.id.same v = true
  distinct : p.ready.Pairwise fun u w => u.same w = false
  inPlace : s.InPlace p.ready

namespace Tracks

variable {p q : Pending} {ready targets : List Value}

/-- The block that is first in line. -/
lemma head (h : s.Tracks done p) (hp : p.ready = v :: ready) :
    ∃ b, b.id.same v = true ∧ s.Due done b := by
  obtain ⟨b, hb, hsame⟩ := h.named v (by simp [hp])
  refine ⟨b, hsame, (h.ready b hb).mp ?_⟩
  rw [hp]
  exact Value.memberOf_of_mem (by simp) hsame

lemma head_first (h : s.Tracks done p) (hs : s.DistinctKeys) (hp : p.ready = v :: ready)
    (hb : b ∈ s.blocks) (hsame : b.id.same v = true) (hgrid : s.OnGrid) (hc : s.Due done c) :
    b.grid ≤ c.grid := by
  have hin := (h.ready c hc.mem).mpr hc
  have hsorted := h.inPlace hgrid
  rw [hp] at hin hsorted
  obtain ⟨w, hw, hcw⟩ := Value.exists_of_memberOf hin
  rcases List.mem_cons.mp hw with rfl | hw
  · rw [hs.eq_of_same hb hc.mem (Value.same_trans hsame (Value.same_symm hcw))]
  · have hle := (List.pairwise_cons.mp hsorted).1 w hw
    rwa [hs.lastPositionOf hb hsame, hs.lastPositionOf hc.mem hcw] at hle

/-- Behind the first in line the others stay. -/
lemma memberOf_tail (h : s.Tracks done p) (hs : s.DistinctKeys) (hp : p.ready = v :: ready)
    (hb : b ∈ s.blocks) (hsame : b.id.same v = true) (hc : c ∈ s.blocks) :
    c.id.memberOf ready = true ↔ s.Due done c ∧ c ≠ b := by
  have hdistinct := h.distinct
  rw [← h.ready c hc, hp]
  rw [hp, List.pairwise_cons] at hdistinct
  constructor
  · intro hin
    obtain ⟨w, hw, hcw⟩ := Value.exists_of_memberOf hin
    refine ⟨Value.memberOf_of_mem (List.mem_cons_of_mem _ hw) hcw, ?_⟩
    rintro rfl
    have hne := hdistinct.1 w hw
    rw [Value.same_trans (Value.same_symm hsame) hcw] at hne
    exact Bool.noConfusion hne
  · rintro ⟨hin, hne⟩
    obtain ⟨w, hw, hcw⟩ := Value.exists_of_memberOf hin
    rcases List.mem_cons.mp hw with rfl | hw
    · exact absurd (hs.eq_of_same hc hb (Value.same_trans hcw (Value.same_symm hsame))) hne
    · exact Value.memberOf_of_mem hw hcw

/-- A block whose count comes to zero has its last open input listed. -/
lemma get?_eq_one (h : s.Tracks done p) (hc : c ∈ s.blocks) :
    p.open_.get? c.id = some 1 ↔ c.kind.isResource = false ∧ s.openInputs done c = 1 := by
  cases hk : c.kind.isResource with
  | true => simp [h.passed c hc hk]
  | false => simp [h.counted c hc hk]

/-- Once the wires of the first in line are settled, the others are ready, and those blocks that it
was the last open input of. -/
lemma memberOf_settled (h : s.Tracks done p) (hs : s.DistinctKeys) (hp : p.ready = v :: ready)
    (hb : b ∈ s.blocks) (hsame : b.id.same v = true) (ht : s.Followers b targets)
    (hq : s.Settled targets { p with ready } q) (hc : c ∈ s.blocks) :
    c.id.memberOf q.ready = true ↔ (s.Due done c ∧ c ≠ b) ∨
      (s.Wired b c ∧ c.kind.isResource = false ∧ s.openInputs done c = 1) := by
  rw [← h.memberOf_tail hs hp hb hsame hc, ← h.get?_eq_one hc, ← ht.wired,
    Value.memberOf_perm hq.ready, Value.memberOf_append, Bool.or_eq_true]
  apply or_congr_right
  constructor
  · intro hin
    obtain ⟨t, ht, hct⟩ := Value.exists_of_memberOf hin
    obtain ⟨ht, hone⟩ := List.mem_filter.mp ht
    refine ⟨Value.memberOf_of_mem ht hct, ?_⟩
    rw [Dict.get?_congr _ hct]
    exact of_decide_eq_true hone
  · rintro ⟨hin, hone⟩
    obtain ⟨t, ht, hct⟩ := Value.exists_of_memberOf hin
    rw [Dict.get?_congr _ hct] at hone
    exact Value.memberOf_of_mem (List.mem_filter.mpr ⟨ht, decide_eq_true hone⟩) hct

/-- Once the wires of the first in line are settled, the sort has listed it. -/
lemma step (h : s.Tracks done p) (hs : s.DistinctKeys) (hp : p.ready = v :: ready)
    (hsame : b.id.same v = true) (hdue : s.Due done b) (ht : s.Followers b targets)
    (hq : s.Settled targets { p with ready } q) : s.Tracks (done ++ [b]) q := by
  have hdown := hs.openInputs_snoc hdue.mem hdue.fresh
  have hclosed : ∀ c ∈ done ++ [b], s.openInputs done c = 0 := by
    intro c hc
    rcases List.mem_append.mp hc with hc | hc
    · exact h.closed c hc
    · rw [List.mem_singleton.mp hc]
      exact (due_iff.mp hdue).2.2.2
  constructor
  · intro c hc
    have := hclosed c hc
    have := hdown c
    omega
  · intro c hc hk
    rw [hq.open_, h.counted c hc hk, Option.map_some, hdown c]
    by_cases hw : s.Wired b c
    · simp [(ht.wired c).mpr hw, hw]
    · simp [mt (ht.wired c).mp hw, hw]
  · intro c hc hk
    rw [hq.open_, h.passed c hc hk, Option.map_none]
  · intro c hc
    rw [h.memberOf_settled hs hp hdue.mem hsame ht hq hc, due_iff, due_iff]
    have hfresh : c ∈ done ++ [b] ↔ c ∈ done ∨ c = b := by simp
    have hone := hdown c
    have hzero := hclosed c
    by_cases hw : s.Wired b c
    · simp only [hw, if_true] at hone
      grind
    · simp only [hw, if_false] at hone
      grind
  · intro u hu
    rcases List.mem_append.mp (hq.ready.mem_iff.mp hu) with hu | hu
    · exact h.named u (by simp [hp, show u ∈ ready from hu])
    · exact ht.named u (List.mem_of_mem_filter hu)
  · have hdistinct := h.distinct
    rw [hp, List.pairwise_cons] at hdistinct
    rw [Value.distinct_perm hq.ready, List.pairwise_append]
    refine ⟨hdistinct.2, List.Pairwise.filter _ ht.distinct, ?_⟩
    intro u hu t htarget
    have hu : u ∈ p.ready := by simp [hp, show u ∈ ready from hu]
    obtain ⟨c, hc, hcu⟩ := h.named u hu
    by_contra hut
    -- the same block would be due and have an open input
    have hcount := h.counted c hc ((h.ready c hc).mp (Value.memberOf_of_mem hu hcu)).listed
    have hzero := (due_iff.mp ((h.ready c hc).mp (Value.memberOf_of_mem hu hcu))).2.2.2
    have hone := of_decide_eq_true (List.mem_filter.mp htarget).2
    rw [Dict.get?_congr _ (Value.same_trans hcu (Bool.not_eq_false _ ▸ hut)), hone, hzero] at hcount
    simp at hcount
  · have hin := h.inPlace
    rw [hp] at hin
    exact hq.inPlace fun hgrid => (List.pairwise_cons.mp (hin hgrid)).2

end Tracks

/-- Draining what is ready lists the blocks, as long as the fuel covers those that are left. -/
lemma drain_listing (hs : s.DistinctKeys) (hsingle : s.SingleWires) (hplaced : s.Placed)
    (hl : s.links = .ok l) {p : Pending} {fuel : ℕ} (h : s.Tracks done p)
    (hfuel : s.unlisted done (!·.kind.isResource) < fuel) :
    ∃ order ids, drain s.blockTable l fuel p = .ok ids ∧ s.Listing done order ∧
      List.Forall₂ (fun b id => b.id.same id = true) order ids := by
  induction fuel generalizing done p with
  | zero => omega
  | succ fuel ih =>
    rw [drain]
    cases hp : p.ready with
    | nil =>
      refine ⟨[], [], rfl, .stop fun b hb => ?_, .nil⟩
      have hin := (h.ready b hb.mem).mpr hb
      rw [hp] at hin
      exact Bool.noConfusion hin
    | cons v ready =>
      obtain ⟨b, hsame, hdue⟩ := h.head hp
      obtain ⟨next, hnext⟩ := hplaced.exists_sortOn (fun t : Value × Double => t.1) (l.next v)
      have ht := hsingle.followers hl hsame ((Order.sortOn_perm hnext).map (·.1))
      obtain ⟨q, hq, hsettled⟩ := hplaced.exists_settleAll ht.distinct { p with ready }
      have hless := hs.unlisted_snoc hdue.mem hdue.fresh (!·.kind.isResource)
      simp only [hdue.listed, Bool.not_false, if_true] at hless
      obtain ⟨order, ids, hids, hlisting, hsames⟩ :=
        ih (h.step hs hp hsame hdue ht hsettled) (by omega)
      simp only [hnext, hq, hids, ok_bind]
      exact ⟨b :: order, v :: ids, rfl,
        .next hdue (fun hgrid c hc => h.head_first hs hp hdue.mem hsame hgrid hc) hlisting,
        .cons hsame hsames⟩

/-- The ids that the sort starts from. -/
def sortedIds (s : Scene) : List Value := (s.blocks.filter (!·.kind.isResource)).map (·.id)

lemma DistinctKeys.memberOf_sortedIds (hs : s.DistinctKeys) (hb : b ∈ s.blocks) :
    b.id.memberOf s.sortedIds = !b.kind.isResource := by
  rw [Bool.eq_iff_iff]
  constructor
  · intro h
    obtain ⟨v, hv, hsame⟩ := Value.exists_of_memberOf h
    obtain ⟨c, hc, rfl⟩ := List.mem_map.mp hv
    obtain ⟨hc, hk⟩ := List.mem_filter.mp hc
    rwa [hs.eq_of_same hb hc hsame]
  · intro hk
    exact Value.memberOf_of_mem (List.mem_map_of_mem (List.mem_filter.mpr ⟨hb, hk⟩))
      (Value.same_refl _)

/-- The counts that the sort starts from. -/
def inputCounts (s : Scene) (l : Links) : Dict Int :=
  s.sortedIds.foldl (fun d id => d.set id ((l.reverse.sources id).length : Int)) []

lemma DistinctKeys.length_sources_eq (hs : s.DistinctKeys) (hl : s.links = .ok l)
    (h : b.id.same v = true) :
    (l.reverse.sources v).length = s.openInputs [] b := by
  rw [hs.length_sources hl h]
  simp [openInputs, unlisted]

lemma DistinctKeys.get?_inputCounts (hs : s.DistinctKeys) (hl : s.links = .ok l)
    (hb : b ∈ s.blocks) :
    (s.inputCounts l).get? b.id =
      if b.kind.isResource then none else some (s.openInputs [] b : Int) := by
  rw [inputCounts, Dict.get?_foldl_set (fun v => v), Dict.get?_nil, Option.or_none]
  have hin := hs.memberOf_sortedIds hb
  cases hfind : s.sortedIds.reverse.find? (b.id.same ·) with
  | none =>
    have hout : b.id.memberOf s.sortedIds = false := by
      rw [Value.memberOf, List.any_eq_false]
      intro v hv
      exact List.find?_eq_none.mp hfind v (by simpa using hv)
    rw [hout, eq_comm, Bool.not_eq_false'] at hin
    simp [hin]
  | some v =>
    have hsame : b.id.same v = true := List.find?_some (p := (b.id.same ·)) hfind
    have hv : v ∈ s.sortedIds := by simpa using List.mem_of_find?_eq_some hfind
    rw [Value.memberOf_of_mem hv hsame, eq_comm, Bool.not_eq_true'] at hin
    simp [hin, hs.length_sources_eq hl hsame]

/-- At the start the blocks without inputs are due. -/
lemma DistinctKeys.memberOf_filter_sources (hs : s.DistinctKeys) (hl : s.links = .ok l)
    (hb : b ∈ s.blocks) :
    b.id.memberOf (s.sortedIds.filter fun id => (l.reverse.sources id).isEmpty) = true ↔
      s.Due [] b := by
  have hin := hs.memberOf_sortedIds hb
  rw [due_iff]
  constructor
  · intro h
    obtain ⟨v, hv, hsame⟩ := Value.exists_of_memberOf h
    obtain ⟨hv, hempty⟩ := List.mem_filter.mp hv
    rw [Value.memberOf_of_mem hv hsame, eq_comm, Bool.not_eq_true'] at hin
    refine ⟨hb, hin, by simp, ?_⟩
    rw [← hs.length_sources_eq hl hsame, List.isEmpty_iff.mp hempty, List.length_nil]
  · rintro ⟨-, hk, -, hzero⟩
    rw [hk] at hin
    obtain ⟨v, hv, hsame⟩ := Value.exists_of_memberOf hin
    rw [← hs.length_sources_eq hl hsame, List.length_eq_zero_iff] at hzero
    exact Value.memberOf_of_mem (List.mem_filter.mpr ⟨hv, by simp [hzero]⟩) hsame

lemma DistinctKeys.sortedIds_distinct (hs : s.DistinctKeys) :
    s.sortedIds.Pairwise fun u w => u.same w = false := by
  refine List.pairwise_map.mpr ((hs.nodup.filter _).imp_of_mem ?_)
  intro a b ha hb hne
  by_contra hsame
  exact hne (hs.eq_of_same (List.mem_of_mem_filter ha) (List.mem_of_mem_filter hb)
    (Bool.not_eq_false _ ▸ hsame))

/-- The sort starts with nothing listed. -/
lemma exists_tracks_nil (hs : s.DistinctKeys) (hplaced : s.Placed) (hl : s.links = .ok l) :
    ∃ ready, sortIds s.blockTable (s.sortedIds.filter fun id => (l.reverse.sources id).isEmpty) =
      .ok ready ∧ s.Tracks [] ⟨ready, s.inputCounts l⟩ := by
  obtain ⟨ready, hready, hperm, hplace⟩ := hplaced.exists_sortIds
    (s.sortedIds.filter fun id => (l.reverse.sources id).isEmpty)
  refine ⟨ready, hready, by simp, ?_, ?_, ?_, ?_, ?_, hplace⟩
  · intro b hb hk
    simp [hs.get?_inputCounts hl hb, hk]
  · intro b hb hk
    simp [hs.get?_inputCounts hl hb, hk]
  · intro b hb
    rw [Value.memberOf_perm hperm]
    exact hs.memberOf_filter_sources hl hb
  · intro v hv
    obtain ⟨b, hb, rfl⟩ := List.mem_map.mp (List.mem_of_mem_filter (hperm.mem_iff.mp hv))
    exact ⟨b, List.mem_of_mem_filter hb, Value.same_refl _⟩
  · rw [Value.distinct_perm hperm]
    exact List.Pairwise.filter _ hs.sortedIds_distinct

/-- The topological order of a scene is a listing of its blocks. -/
lemma topological_listing (hl : s.links = .ok l) (hs : s.DistinctKeys) (hsingle : s.SingleWires)
    (hplaced : s.Placed) :
    ∃ order ids, s.topological l l.reverse = .ok ids ∧ s.Listing [] order ∧
      List.Forall₂ (fun b id => b.id.same id = true) order ids := by
  obtain ⟨ready, hready, htracks⟩ := exists_tracks_nil hs hplaced hl
  have hfuel : s.unlisted [] (!·.kind.isResource) < 2 * s.sortedIds.length + 1 := by
    simp only [unlisted, sortedIds, List.length_map, ← List.countP_eq_length_filter]
    simp only [List.not_mem_nil, not_false_eq_true, decide_true, Bool.and_true]
    omega
  have hdrain := drain_listing hs hsingle hplaced hl htracks hfuel
  have htop : s.topological l l.reverse = drain s.blockTable l (2 * s.sortedIds.length + 1)
      ⟨ready, s.inputCounts l⟩ := by
    rw [sortedIds] at hready
    simp only [topological, hready, ok_bind, inputCounts, sortedIds]
  rwa [htop]

/-- The topological order of a scene without double wires whose blocks have different ids. It holds
the least set of blocks that contains each block whose inputs it contains, each once and behind its
inputs; and where coordinates are whole numbers, each block is the topmost and leftmost that could
stand in its place. -/
theorem topological_positional (hl : s.links = .ok l) (hs : s.DistinctKeys)
    (hsingle : s.SingleWires) (hplaced : s.Placed) :
    ∃ order ids, s.topological l l.reverse = .ok ids ∧
      List.Forall₂ (fun b id => b.id.same id = true) order ids ∧ order.Nodup ∧
      IsLeast {listed : Set Block | s.ClosedUnderInputs listed} {b | b ∈ order} ∧
      (∀ a ∈ s.blocks, ∀ b ∈ order, s.Wired a b → [a, b].Sublist order) ∧
      (s.OnGrid → ∀ before b after, order = before ++ b :: after → ∀ c ∈ after,
        (∀ a ∈ s.blocks, s.Wired a c → a ∈ before) → b.grid ≤ c.grid) := by
  obtain ⟨order, ids, hids, hlisting, hsames⟩ := topological_listing hl hs hsingle hplaced
  have hnodup := hlisting.nodup List.nodup_nil
  refine ⟨order, ids, hids, hsames, hnodup, hlisting.isLeast, ?_, ?_⟩
  · intro a ha b hb hw
    obtain ⟨before, after, rfl⟩ := List.append_of_mem hb
    have hbefore := hlisting.due.inputs a ha hw
    exact Order.pair_sublist_append.mpr (.inr (.inl ⟨hbefore, List.mem_cons_self⟩))
  · rintro hgrid before b after rfl c hc hinputs
    obtain ⟨between, rest, rfl⟩ := List.append_of_mem hc
    have hdue : s.Due (before ++ b :: between) c := by
      have hcut : s.Listing [] ((before ++ b :: between) ++ c :: rest) := by simpa using hlisting
      simpa using hcut.due
    refine hlisting.first hgrid ⟨hdue.mem, hdue.listed, ?_, by simpa using hinputs⟩
    intro hmem
    exact hdue.fresh (List.mem_append_left _ (by simpa using hmem))

theorem meetingScene_topological :
    meetingScene.DistinctKeys ∧ meetingScene.SingleWires ∧ meetingScene.Placed ∧
      meetingScene.OnGrid ∧ ∃ (l : Links) (order : List Block), meetingScene.links = .ok l ∧
        meetingScene.topological l l.reverse =
          .ok [.text "top", .text "left", .text "right", .text "end"] ∧
        List.Forall₂ (fun b id => b.id.same id = true) order
          [.text "top", .text "left", .text "right", .text "end"] ∧
        IsLeast {listed : Set Block | meetingScene.ClosedUnderInputs listed} {b | b ∈ order} := by
  have hs : meetingScene.DistinctKeys := by decide
  have hsingle : meetingScene.SingleWires := by decide
  have hplaced : meetingScene.Placed := by decide
  obtain ⟨l, hl, hrun⟩ : ∃ l, meetingScene.links = .ok l ∧ meetingScene.topological l l.reverse =
      .ok [.text "top", .text "left", .text "right", .text "end"] := ⟨_, rfl, rfl⟩
  obtain ⟨order, ids, hids, hsames, -, hleast, -⟩ := topological_positional hl hs hsingle hplaced
  cases hrun.symm.trans hids
  exact ⟨hs, hsingle, hplaced, by decide, l, order, hl, hrun, hsames, hleast⟩

end Scene
end NovelGraph
