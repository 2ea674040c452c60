import NovelGraph.Graph.Topological
import NovelGraph.Proofs.DoubledWires
import NovelGraph.Proofs.NamedBlocks

/-! The topological order of a scene with a doubled wire. The sort counts the inputs of a block once
each and counts down along every wire, so a block that is wired twice to the same input may be
listed before another of its inputs. It is not if the doubled wire comes from the last of them: then
the count has run out when the copy is settled, and the order stays as it is. -/
namespace NovelGraph

open Outcome

namespace Scene

variable {blocks : Dict Block} {p p' q : Pending} {t v : Value} {targets : List Value}

/-- What settling one wire does: the count of the block goes down, and it is ready when the count is
zero. Blocks without a count are passed over. -/
lemma settle_eq_ok (h : settle blocks p t = .ok q) :
    (p.open_.get? t = none ∧ q = p) ∨
      ∃ n, p.open_.get? t = some n ∧ q.open_ = p.open_.set t (n - 1) ∧
        (n = 1 ∧ sortIds blocks (p.ready ++ [t]) = .ok q.ready ∨ n ≠ 1 ∧ q.ready = p.ready) := by
  rw [settle] at h
  cases hn : p.open_.get? t with
  | none =>
    rw [hn] at h
    cases h
    exact .inl ⟨rfl, rfl⟩
  | some n =>
    simp only [hn] at h
    refine .inr ⟨n, rfl, ?_⟩
    by_cases hone : n = 1
    · rw [if_pos (by omega)] at h
      obtain ⟨ready, hready, h⟩ := bind_eq_ok.mp h
      cases h
      exact ⟨rfl, .inl ⟨hone, hready⟩⟩
    · rw [if_neg (by omega)] at h
      cases h
      exact ⟨rfl, .inr ⟨hone, rfl⟩⟩

section Counts

/-- The count of a block is at most `k`, if it has one. -/
def Below (p : Pending) (v : Value) (k : ℤ) : Prop := ∀ n, p.open_.get? v = some n → n ≤ k

lemma Below.mono {j k : ℤ} (h : Below p v j) (hjk : j ≤ k) : Below p v k :=
  fun n hn => (h n hn).trans hjk

lemma Below.settle {k : ℤ} (h : Below p v k) (hq : settle blocks p t = .ok q) :
    Below q v (if v.same t then k - 1 else k) := by
  rcases settle_eq_ok hq with ⟨hnone, rfl⟩ | ⟨n, hn, hopen, -⟩
  · intro m hm
    by_cases hv : v.same t = true
    · rw [Dict.get?_congr _ hv, hnone] at hm
      cases hm
    · rw [if_neg hv]
      exact h m hm
  · intro m hm
    rw [hopen, Dict.get?_set] at hm
    by_cases hv : v.same t = true
    · rw [if_pos hv, Option.some.injEq] at hm
      have hle := h n (Dict.get?_congr p.open_ hv ▸ hn)
      rw [if_pos hv]
      omega
    · rw [if_neg hv] at hm ⊢
      exact h m hm

/-- Counts never go up, and go down along wires. -/
lemma Below.settleAll {k : ℤ} (h : Below p v k)
    (hq : targets.foldlM (Scene.settle blocks) p = .ok q) :
    Below q v (if v.memberOf targets then k - 1 else k) := by
  induction targets generalizing p k with
  | nil =>
    cases hq
    exact h
  | cons t rest ih =>
    rw [List.foldlM_cons, bind_eq_ok] at hq
    obtain ⟨r, hr, hq⟩ := hq
    have hrest := ih (h.settle hr) hq
    have hmem : v.memberOf (t :: rest) = (v.same t || v.memberOf rest) := rfl
    rw [hmem]
    refine hrest.mono ?_
    cases v.same t <;> cases v.memberOf rest <;> simp

end Counts

/-- States of the sort that differ in one count only, which has run out in both. -/
structure Agree (v : Value) (p p' : Pending) : Prop where
  ready : p'.ready = p.ready
  others : ∀ u, u.same v = false → p'.open_.get? u = p.open_.get? u
  spent : Below p v 0
  spent' : Below p' v 0

namespace Agree

lemma refl (h : Below p v 0) : Agree v p p := ⟨rfl, fun _ _ => rfl, h, h⟩

/-- A count that has run out makes nothing ready. -/
lemma settle_spent (h : Below p v 0) (ht : t.same v = true) :
    ∃ q, settle blocks p t = .ok q ∧ Agree v p q := by
  rw [settle]
  cases hn : p.open_.get? t with
  | none => exact ⟨p, rfl, .refl h⟩
  | some n =>
    have hle : n ≤ 0 := h n (Dict.get?_congr p.open_ ht ▸ hn)
    have hzero : ¬n - 1 = 0 := by omega
    have hset : settle blocks p t = .ok { p with open_ := p.open_.set t (n - 1) } := by
      simp only [settle, hn, hzero, if_false]
      rfl
    simp only [hzero, if_false]
    refine ⟨_, rfl, rfl, fun u hu => ?_, h, ?_⟩
    · have hut : ¬u.same t = true := by
        intro hut
        rw [Value.same_trans hut ht] at hu
        exact Bool.noConfusion hu
      rw [Dict.get?_set, if_neg hut]
    · exact (h.settle hset).mono (by split_ifs <;> omega)

lemma trans {r : Pending} (h : Agree v p q) (h' : Agree v q r) : Agree v p r :=
  ⟨h'.ready.trans h.ready, fun u hu => (h'.others u hu).trans (h.others u hu), h.spent, h'.spent'⟩

lemma symm (h : Agree v p q) : Agree v q p :=
  ⟨h.ready.symm, fun u hu => (h.others u hu).symm, h.spent', h.spent⟩

/-- Settling a wire keeps the agreement. -/
lemma settle (h : Agree v p p') (hq : settle blocks p t = .ok q) :
    ∃ q', Scene.settle blocks p' t = .ok q' ∧ Agree v q q' := by
  cases ht : t.same v with
  | true =>
    obtain ⟨r, hr, hpr⟩ := @settle_spent blocks _ _ _ h.spent ht
    obtain ⟨q', hq', hpq'⟩ := @settle_spent blocks _ _ _ h.spent' ht
    cases hr.symm.trans hq
    exact ⟨q', hq', (hpr.symm.trans h).trans hpq'⟩
  | false =>
    have hcount := h.others t ht
    have hbelow : ∀ {r r' : Pending}, Below r v 0 → Scene.settle blocks r t = .ok r' →
        Below r' v 0 := fun hr hr' => (hr.settle hr').mono (by split_ifs <;> omega)
    rcases settle_eq_ok hq with ⟨hnone, rfl⟩ | ⟨n, hn, hopen, hready⟩
    · refine ⟨p', ?_, h⟩
      rw [Scene.settle, hcount, hnone]
      rfl
    · have hset : ∀ u, u.same v = false →
          (p'.open_.set t (n - 1)).get? u = q.open_.get? u := by
        intro u hu
        rw [hopen, Dict.get?_set, Dict.get?_set, h.others u hu]
      have hq' : Scene.settle blocks p' t = .ok ⟨q.ready, p'.open_.set t (n - 1)⟩ := by
        rw [Scene.settle, hcount, hn]
        rcases hready with ⟨rfl, hready⟩ | ⟨hone, hready⟩
        · simp only [h.ready, hready]
          rfl
        · have hzero : ¬n - 1 = 0 := by omega
          simp only [hzero, if_false, hready, ← h.ready]
          rfl
      exact ⟨_, hq', rfl, hset, hbelow h.spent hq, hbelow h.spent' hq'⟩

lemma settleAll (h : Agree v p p') (hq : targets.foldlM (Scene.settle blocks) p = .ok q) :
    ∃ q', targets.foldlM (Scene.settle blocks) p' = .ok q' ∧ Agree v q q' := by
  induction targets generalizing p p' with
  | nil =>
    cases hq
    exact ⟨p', rfl, h⟩
  | cons t rest ih =>
    rw [List.foldlM_cons, bind_eq_ok] at hq
    obtain ⟨r, hr, hq⟩ := hq
    obtain ⟨r', hr', hagree⟩ := h.settle hr
    rw [List.foldlM_cons, hr', ok_bind]
    exact ih hagree hq

/-- Once a count has run out, settling a wire more keeps the agreement. -/
lemma settle_more {low high : List Value} (h : Agree v p p')
    (hq : (low ++ high).foldlM (Scene.settle blocks) p = .ok q) :
    ∃ q', (low ++ v :: high).foldlM (Scene.settle blocks) p' = .ok q' ∧ Agree v q q' := by
  rw [List.foldlM_append, bind_eq_ok] at hq
  obtain ⟨r, hr, hq⟩ := hq
  obtain ⟨r', hr', hagree⟩ := h.settleAll hr
  obtain ⟨m, hm, hmore⟩ := @settle_spent blocks _ _ _ hagree.spent' (Value.same_refl v)
  rw [List.foldlM_append, hr', ok_bind, List.foldlM_cons, hm, ok_bind]
  exact (hagree.trans hmore).settleAll hq

end Agree

/-- A block that waits for one input at most is settled for good by its wire, and a copy of this
wire behind it changes nothing. -/
lemma settle_copy {low high : List Value} (hp : Below p v 1) (hv : v ∈ low)
    (hq : (low ++ high).foldlM (settle blocks) p = .ok q) :
    ∃ q', (low ++ v :: high).foldlM (settle blocks) p = .ok q' ∧ Agree v q q' := by
  obtain ⟨first, rest, rfl⟩ := List.append_of_mem hv
  rw [List.append_assoc, List.foldlM_append, bind_eq_ok] at hq
  obtain ⟨r, hr, hq⟩ := hq
  rw [List.cons_append, List.foldlM_cons, bind_eq_ok] at hq
  obtain ⟨m, hm, hq⟩ := hq
  have hspent : Below m v 0 := by
    have hone : Below r v 1 := (hp.settleAll hr).mono (by split_ifs <;> omega)
    exact (hone.settle hm).mono (by simp)
  obtain ⟨q', hq', hagree⟩ := (Agree.refl hspent).settle_more hq
  refine ⟨q', ?_, hagree⟩
  rw [List.append_assoc, List.foldlM_append, hr, ok_bind, List.cons_append, List.foldlM_cons, hm,
    ok_bind]
  exact hq'

section Waiting

variable {s : Scene} {l l' : Links} {w : Wire} {near far : List (Value × Double)}
  {done order ids : List Value} {id u : Value}

/-- How many ids of a list are not in another one. -/
def missing (ids done : List Value) : ℕ := ids.countP (!·.memberOf done)

lemma missing_cons (u : Value) (ids done : List Value) :
    missing (u :: ids) done = missing ids done + if u.memberOf done then 0 else 1 := by
  rw [missing, missing, List.countP_cons]
  cases u.memberOf done <;> rfl

/-- One more id is at most one of the missing ones. -/
lemma missing_snoc (hd : ids.Pairwise fun u w => u.same w = false) (done : List Value)
    (id : Value) :
    missing ids done ≤ missing ids (done ++ [id]) + if id.memberOf ids then 1 else 0 := by
  induction ids with
  | nil => simp [missing]
  | cons u rest ih =>
    obtain ⟨hu, hrest⟩ := List.pairwise_cons.mp hd
    have ih := ih hrest
    have hmem : id.memberOf (u :: rest) = (u.same id || id.memberOf rest) := by
      rw [Value.same_comm]
      rfl
    rw [missing_cons, missing_cons, hmem, Value.memberOf_append, Value.memberOf_singleton]
    cases hid : u.same id with
    | true =>
      have hother : ¬id.memberOf rest = true := by
        intro hin
        obtain ⟨v, hv, hsame⟩ := Value.exists_of_memberOf hin
        have hne := hu v hv
        rw [Value.same_trans hid hsame] at hne
        exact Bool.noConfusion hne
      rw [if_neg hother] at ih
      cases u.memberOf done <;> simp <;> omega
    | false =>
      rw [Bool.or_false, Bool.false_or]
      omega

lemma missing_eq_zero : missing ids done = 0 ↔ ∀ u ∈ ids, u.memberOf done = true := by
  simp [missing, List.countP_eq_zero]

/-- The inputs of a block are the ids whose successors it is among. -/
lemma memberOf_sources_iff_nextIds (hl : s.links = .ok l) :
    id.memberOf (l.reverse.sources v) = true ↔ v.memberOf (l.nextIds id) = true := by
  rw [memberOf_sources hl]
  constructor
  · rintro ⟨w, hw, hsource, htarget⟩
    exact Value.memberOf_of_mem (List.mem_map_of_mem ((mem_next hl).mpr ⟨w, hw, hsource, rfl⟩))
      htarget
  · intro h
    obtain ⟨u, hu, hsame⟩ := Value.exists_of_memberOf h
    obtain ⟨t, ht, rfl⟩ := List.mem_map.mp hu
    obtain ⟨w, hw, hsource, rfl⟩ := (mem_next hl).mp ht
    exact ⟨w, hw, hsource, hsame⟩

/-- Settling the wires of a block keeps every count within the number of inputs that are missing. -/
lemma Below.list (hl : s.links = .ok l)
    (h : Below p v (missing (l.reverse.sources v) done)) (htargets : targets.Perm (l.nextIds id))
    (hq : targets.foldlM (Scene.settle blocks) p = .ok q) :
    Below q v (missing (l.reverse.sources v) (done ++ [id])) := by
  refine (h.settleAll hq).mono ?_
  have hsnoc := missing_snoc (Links.sources_reverse_distinct l v) done id
  rw [Value.memberOf_perm htargets]
  cases hv : v.memberOf (l.nextIds id) with
  | true =>
    rw [(memberOf_sources_iff_nextIds hl).mpr hv] at hsnoc
    simp only [if_true] at hsnoc ⊢
    omega
  | false =>
    have hnot : ¬id.memberOf (l.reverse.sources v) = true := by
      rw [memberOf_sources_iff_nextIds hl, hv]
      exact Bool.false_ne_true
    rw [if_neg hnot] at hsnoc
    simp only [Bool.false_eq_true, if_false]
    omega

/-- Once a count has run out the sort goes on alike with a copy of the wire that it counts. -/
lemma drain_agree (hs : s.Drawn) (h : l.Doubled l' w near far) {fuel : ℕ}
    (hp : Agree w.target p p') (horder : drain s.blockTable l fuel p = .ok order) :
    drain s.blockTable l' fuel p' = .ok order := by
  induction fuel generalizing p p' order with
  | zero => exact horder
  | succ fuel ih =>
    rw [drain, hp.ready]
    rw [drain] at horder
    cases hready : p.ready with
    | nil =>
      rw [hready] at horder
      exact horder
    | cons id ready =>
      rw [hready] at horder
      obtain ⟨next, hnext, horder⟩ := bind_eq_ok.mp horder
      obtain ⟨q, hq, horder⟩ := bind_eq_ok.mp horder
      obtain ⟨rest, hrest, horder⟩ := bind_eq_ok.mp horder
      cases horder
      have hbehind : Agree w.target { p with ready } { p' with ready } :=
        ⟨rfl, hp.others, hp.spent, hp.spent'⟩
      obtain ⟨next', q', hnext', hq', hagree⟩ : ∃ next' q',
          Order.sortOn (fun t => lastPositionOf s.blockTable t.1) Order.pairLess (l'.next id) =
            .ok next' ∧
          (next'.map (·.1)).foldlM (settle s.blockTable) { p' with ready } = .ok q' ∧
          Agree w.target q q' := by
        cases hid : id.same w.source with
        | false =>
          obtain ⟨q', hq', hagree⟩ := hbehind.settleAll hq
          exact ⟨next, q', by rw [h.next_other hid, hnext], hq', hagree⟩
        | true =>
          obtain ⟨low, high, hless, hmore, -, -⟩ := h.exists_sortOn hid hs.isReal_lastPositionOf
          cases hless.symm.trans hnext
          rw [List.map_append] at hq
          obtain ⟨q', hq', hagree⟩ := hbehind.settle_more hq
          exact ⟨_, q', hmore, by rwa [List.map_append, List.map_cons], hagree⟩
      simp only [hnext', hq', ih hagree hrest, ok_bind]
      rfl

/-- As long as the wire is not settled the sort is the same with a copy of it. -/
lemma drain_doubled (hs : s.Drawn) (hl : s.links = .ok l) (h : l.Doubled l' w near far) {fuel : ℕ}
    (hp : Below p w.target (missing (l.reverse.sources w.target) done))
    (horder : drain s.blockTable l fuel p = .ok order)
    (hlast : w.source.memberOf order = true → ∀ u ∈ l.reverse.sources w.target,
      u.same w.source = true ∨ u.memberOf (done ++ order.takeWhile (!w.source.same ·)) = true) :
    drain s.blockTable l' fuel p = .ok order := by
  induction fuel generalizing p done order with
  | zero => exact horder
  | succ fuel ih =>
    rw [drain] at horder ⊢
    cases hready : p.ready with
    | nil =>
      rw [hready] at horder
      exact horder
    | cons id ready =>
      rw [hready] at horder
      obtain ⟨next, hnext, horder⟩ := bind_eq_ok.mp horder
      obtain ⟨q, hq, horder⟩ := bind_eq_ok.mp horder
      obtain ⟨rest, hrest, horder⟩ := bind_eq_ok.mp horder
      cases horder
      have hperm : (next.map (·.1)).Perm (l.nextIds id) := (Order.sortOn_perm hnext).map _
      have hbehind : Below { p with ready } w.target
          (missing (l.reverse.sources w.target) done) := hp
      have hmem : w.source.memberOf (id :: rest) =
          (w.source.same id || w.source.memberOf rest) := rfl
      cases hid : id.same w.source with
      | false =>
        rw [hmem, Value.same_comm, hid, Bool.false_or,
          List.takeWhile_cons_of_pos (by rw [Value.same_comm, hid]; rfl)] at hlast
        have hsame := ih (hbehind.list hl hperm hq) hrest (by simpa using hlast)
        simp only [h.next_other hid, hnext, hq, hsame, ok_bind]
        rfl
      | true =>
        rw [hmem, Value.same_comm, hid, Bool.true_or,
          List.takeWhile_cons_of_neg (by rw [Value.same_comm, hid]; simp), List.append_nil] at hlast
        -- all other inputs are listed, so the block waits for this one at most
        have hone : Below { p with ready } w.target 1 := by
          refine hbehind.mono ?_
          have hzero : missing (l.reverse.sources w.target) (done ++ [id]) = 0 := by
            rw [missing_eq_zero]
            intro u hu
            rw [Value.memberOf_append, Value.memberOf_singleton, Bool.or_eq_true]
            rcases hlast rfl u hu with hsource | hdone
            · exact .inr (Value.same_trans hsource (Value.same_symm hid))
            · exact .inl hdone
          have hsnoc := missing_snoc (Links.sources_reverse_distinct l w.target) done id
          rw [hzero] at hsnoc
          split_ifs at hsnoc <;> omega
        obtain ⟨low, high, hless, hmore, -, hsplit⟩ :=
          h.exists_sortOn hid hs.isReal_lastPositionOf
        cases hless.symm.trans hnext
        rw [List.map_append] at hq
        have hcopied : w.target ∈ low.map (·.1) :=
          List.mem_map_of_mem (hsplit.earlier w.hop h.copied le_rfl)
        obtain ⟨q', hq', hagree⟩ := settle_copy hone hcopied hq
        have hq'' : ((low ++ w.hop :: high).map (·.1)).foldlM (settle s.blockTable)
            { p with ready } = .ok q' := by rwa [List.map_append, List.map_cons]
        simp only [hmore, hq'', drain_agree hs h hagree hrest, ok_bind]
        rfl

/-- A wire that comes from the last input of its target: where its source is listed, all other
blocks that are wired to the target are listed before. -/
def ComesLast (s : Scene) (order : List Value) (w : Wire) : Prop :=
  w.source.memberOf order = true → ∀ u ∈ s.wires, u.target.same w.target = true →
    u.source.same w.source = true ∨
      u.source.memberOf (order.takeWhile (!w.source.same ·)) = true

instance (s : Scene) (order : List Value) (w : Wire) : Decidable (s.ComesLast order w) :=
  inferInstanceAs (Decidable (_ → ∀ u ∈ s.wires, _))

/-- A wire from the last input of its target can be doubled without changing the order. -/
theorem topological_doubled (hs : s.Drawn) (hl : s.links = .ok l) (h : l.Doubled l' w near far)
    (horder : s.topological l l.reverse = .ok order) (hlast : s.ComesLast order w) :
    s.topological l' l'.reverse = .ok order := by
  rw [h.reverse_eq]
  obtain ⟨ready, hready, hdrain⟩ := bind_eq_ok.mp horder
  have hcount : Below ⟨ready, ((s.blocks.filter fun b => !b.kind.isResource).map (·.id)).foldl
      (fun d id => d.set id ((l.reverse.sources id).length : ℤ)) []⟩ w.target
      (missing (l.reverse.sources w.target) []) := by
    intro n hn
    rw [Dict.get?_foldl_set (fun id => id) (fun id => ((l.reverse.sources id).length : ℤ)),
      Dict.get?_nil, Option.or_none, Option.map_eq_some_iff] at hn
    obtain ⟨id, hid, rfl⟩ := hn
    have hsame : w.target.same id = true := List.find?_some (p := fun id => w.target.same id) hid
    have hsources : l.reverse.sources id = l.reverse.sources w.target := by
      rw [Inputs.sources, Inputs.sources, Dict.get?_congr _ hsame]
    simp [missing, hsources]
  rw [topological]
  simp only [hready, ok_bind]
  refine drain_doubled hs hl h hcount hdrain ?_
  intro hmem u hu
  obtain ⟨v, hv, hsource, htarget⟩ :=
    (memberOf_sources hl).mp (Value.memberOf_of_mem hu (Value.same_refl u))
  rw [List.nil_append, Value.memberOf_congr hsource]
  exact (hlast hmem v hv (Value.same_symm htarget)).imp_left (Value.same_trans hsource)

end Waiting

end Scene
end NovelGraph
