import NovelGraph.Proofs.EmissionOrder

/-! Stems: what follows a block on single wires, up to the first fork. The stem of an entry is ranked
in one go, with the rank of the entry; everything off the stems comes on a higher level. -/
namespace NovelGraph

open Outcome Relation Script

namespace Scene

/-- The only wire that leaves a block leads to another. -/
def OnlyNext (s : Scene) (a b : Block) : Prop :=
  ∃ w, s.wiresFrom a.id = [w] ∧ b.id.same w.target = true

/-- What follows a block on single wires. Start blocks have stems of their own. -/
inductive Stem (s : Scene) (root : Block) : Block → Prop
  | root : Stem s root root
  | next {a b : Block} (before : s.Stem root a) (mem : b ∈ s.blocks) (kind : b.kind ≠ .start)
      (only : s.OnlyNext a b) : Stem s root b

variable {s : Scene} {a b c root : Block}

lemma Wired.congr_left (h : s.Wired a b) (hc : c.id.same a.id = true) : s.Wired c b := by
  obtain ⟨w, hw, hsource, htarget⟩ := h
  exact ⟨w, hw, Value.same_trans hc hsource, htarget⟩

namespace OnlyNext

lemma wired (h : s.OnlyNext a b) : s.Wired a b := by
  obtain ⟨w, hw, hb⟩ := h
  have hmem : w ∈ s.wiresFrom a.id := by simp [hw]
  obtain ⟨hin, hsource⟩ := List.mem_filter.mp hmem
  exact ⟨w, hin, hsource, hb⟩

/-- All wires from the block lead to the same place. -/
lemma same_of_wired (h : s.OnlyNext a b) (hc : s.Wired a c) : c.id.same b.id = true := by
  obtain ⟨w, hw, hb⟩ := h
  obtain ⟨v, hv, hsource, htarget⟩ := hc
  have hmem : v ∈ s.wiresFrom a.id := List.mem_filter.mpr ⟨hv, hsource⟩
  rw [hw, List.mem_singleton] at hmem
  subst hmem
  exact Value.same_trans htarget (Value.same_symm hb)

lemma nextIds {l : Links} (hl : s.links = .ok l) (h : s.OnlyNext a b) :
    ∃ v, l.nextIds a.id = [v] ∧ b.id.same v = true := by
  obtain ⟨w, hw, hb⟩ := h
  refine ⟨w.target, ?_, hb⟩
  rw [Links.nextIds, links_next hl, hw]
  rfl

lemma of_nextIds {l : Links} (hl : s.links = .ok l) {u v : Value} (ha : a.id.same u = true)
    (h : l.nextIds u = [v]) (hb : b.id.same v = true) : s.OnlyNext a b := by
  rw [Links.nextIds, links_next hl, Links.sortByDistance] at h
  have hperm := ((Order.sortByKey_perm (·.2) (fun a b => (Magnitude.ofDouble a).lt (.ofDouble b))
    ((s.wiresFrom u).map Wire.hop)).map (·.1)).symm
  rw [h, List.perm_singleton, List.map_map] at hperm
  obtain ⟨w, hw, hv⟩ := List.map_eq_singleton_iff.mp hperm
  have htarget : w.target = v := hv
  exact ⟨w, (s.wiresFrom_congr ha).trans hw, htarget ▸ hb⟩

end OnlyNext

namespace Stem

lemma mem (hroot : root ∈ s.blocks) (h : s.Stem root b) : b ∈ s.blocks := by
  cases h with
  | root => exact hroot
  | next _ mem _ _ => exact mem

lemma reaches (h : s.Stem root b) : ReflTransGen s.Wired root b := by
  induction h with
  | root => exact .refl
  | next _ _ _ only ih => exact ih.tail only.wired

/-- A stem seen from its first block. -/
lemma cases_head (h : s.Stem root b) :
    b = root ∨ ∃ c ∈ s.blocks, s.OnlyNext root c ∧ s.Stem c b := by
  induction h with
  | root => exact .inl rfl
  | next _ mem kind only ih =>
    rcases ih with rfl | ⟨c, hc, hfirst, hrest⟩
    · exact .inr ⟨_, mem, only, .root⟩
    · exact .inr ⟨c, hc, hfirst, .next hrest mem kind only⟩

/-- What can be reached from the root of a stem stands on the stem or behind it. -/
lemma cases_reach (h : s.Stem root a) (hc : TransGen s.Wired root c) :
    (∃ d, s.Stem root d ∧ s.Stem d a ∧ c.id.same d.id = true) ∨ TransGen s.Wired a c := by
  induction h with
  | root => exact .inr hc
  | @next a b before mem kind only ih =>
    rcases ih with ⟨d, hd, hda, hcd⟩ | hac
    · exact .inl ⟨d, hd, .next hda mem kind only, hcd⟩
    · obtain ⟨y, hay, hyc⟩ := TransGen.head'_iff.mp hac
      have hyb := only.same_of_wired hay
      rcases hyc.cases_head with rfl | ⟨z, hyz, hzc⟩
      · exact .inl ⟨b, .next before mem kind only, .root, hyb⟩
      · exact .inr (TransGen.head'_iff.mpr ⟨z, hyz.congr_left (Value.same_symm hyb), hzc⟩)

end Stem

/-- A block without inputs, with a stem that can only be entered from it. -/
structure ClearStem (s : Scene) (root : Block) : Prop where
  found : ∀ b ∈ s.blocks, s.findBlock b.id = some b
  mem : root ∈ s.blocks
  free : ∀ a, ¬s.Wired a root
  loop : ∀ b ∈ s.blocks, ¬s.Wired b b
  only : ∀ {a b}, s.Stem root a → b ∈ s.blocks → b.kind ≠ .start → s.OnlyNext a b →
    ∀ w ∈ s.wires, b.id.same w.target = true → a.id.same w.source = true

end Scene

namespace Flow

variable {f : Flow} {entries : List Block} {fuel : ℕ} {ranks ranks' : Ranks} {id : Value}
  {rank : Rank}

section Keys

variable {P : Value → Prop}

lemma keys_of_append (hid : P id) (h : ∀ e ∈ ranks', e ∈ ranks ++ [(id, rank)] ∨ P e.1) :
    ∀ e ∈ ranks', e ∈ ranks ∨ P e.1 := by
  intro e he
  rcases h e he with hin | hp
  · rcases List.mem_append.mp hin with hold | hnew
    · exact .inl hold
    · rw [List.mem_singleton.mp hnew]
      exact .inr hid
  · exact .inr hp

lemma rankFork_keys {level : ℕ} {order : List Value}
    (hbranch : ∀ {rs rs' : Ranks} {next : Value} {q : Rank}, next ∈ order →
      f.rankBranch fuel rs next q = .ok rs' → ∀ e ∈ rs', e ∈ rs ∨ P e.1)
    (h : f.rankFork fuel level order ranks = .ok ranks') : ∀ e ∈ ranks', e ∈ ranks ∨ P e.1 := by
  refine foldlM_invariant (fun rs => ∀ e ∈ rs, e ∈ ranks ∨ P e.1) ?_ (fun e he => .inl he) h
  rintro ⟨next, n⟩ hmem rs rs' hrs hstep e he
  rcases hbranch (List.fst_mem_of_mem_zipIdx hmem) hstep e he with hold | hnew
  · exact hrs e hold
  · exact .inr hnew

lemma rankBranch_keys (hP : ∀ {u v}, P u → v ∈ f.links.nextIds u → P v) (hid : P id)
    (h : f.rankBranch fuel ranks id rank = .ok ranks') : ∀ e ∈ ranks', e ∈ ranks ∨ P e.1 := by
  induction fuel generalizing ranks ranks' id rank with
  | zero =>
    cases h
    exact fun e he => .inl he
  | succ fuel ih =>
    rcases rankBranch_eq_ok h with rfl | ⟨b, -, -, -, rfl | ⟨next, hn, h⟩ | ⟨order, ho, h⟩⟩
    · exact fun e he => .inl he
    · exact keys_of_append hid fun e he => .inl he
    · exact keys_of_append hid (ih (hP hid hn) h)
    · refine keys_of_append hid (rankFork_keys (fun hmem hstep => ?_) h)
      exact ih (hP hid (mem_nextIds_of_sortByPlace ho hmem)) hstep

/-- Numbering from a block reaches only ids with a property that the block has and that wires hand
on. -/
lemma rankFrom_keys (hP : ∀ {u v}, P u → v ∈ f.links.nextIds u → P v) (hid : P id)
    (h : f.rankFrom fuel ranks id rank = .ok ranks') : ∀ e ∈ ranks', e ∈ ranks ∨ P e.1 := by
  induction fuel generalizing ranks ranks' id rank with
  | zero =>
    cases h
    exact fun e he => .inl he
  | succ fuel ih =>
    rcases rankFrom_eq_ok h with
      ⟨rfl, -⟩ | ⟨b, -, -, -, ⟨-, rfl⟩ | ⟨next, hn, h⟩ | ⟨order, -, ho, h⟩⟩
    · exact fun e he => .inl he
    · exact keys_of_append hid fun e he => .inl he
    · exact keys_of_append hid (ih (hP hid (by simp [hn])) h)
    · refine keys_of_append hid (rankFork_keys (fun hmem hstep => ?_) h)
      exact rankBranch_keys hP (hP hid (mem_nextIds_of_sortByPlace ho hmem)) hstep

/-- Among the entries only those before it, or a wire, can bring a block its rank. -/
lemma foldlM_rankEntry_keys {part : List Block} (h : part.foldlM f.rankEntry [] = .ok ranks) :
    ∀ e ∈ ranks, (∃ b ∈ part, e.1 = b.id) ∨ e.1 ∈ f.links.targets := by
  refine foldlM_invariant
    (fun rs => ∀ e ∈ rs, (∃ b ∈ part, e.1 = b.id) ∨ e.1 ∈ f.links.targets) ?_ (by simp) h
  intro b hb rs rs' hrs hstep e he
  rcases rankFrom_keys (P := fun v => (∃ c ∈ part, v = c.id) ∨ v ∈ f.links.targets)
    (fun _ hv => .inr (Links.mem_targets_of_mem_nextIds hv)) (.inl ⟨b, hb, rfl⟩) hstep e he with
    hold | hnew
  · exact hrs e hold
  · exact hnew

end Keys

section Arrival

variable {s : Scene} {around : Surroundings} {root a b : Block} {run : List Value} {v : Value}

/-- The numbering from a root has come to a block of its stem: the blocks before it have been given
the rank of the root, and it is about to get it too. -/
structure Arrives (f : Flow) (entries : List Block) (ranks ranks' : Ranks) (root : Block)
    (rank : Rank) (b : Block) (run : List Value) (v : Value) (fuel : ℕ) : Prop where
  same : b.id.same v = true
  found : f.scene.findBlock v = some b
  depth : run.length + fuel + 1 = f.depth
  ranking : f.Ranking entries (ranks ++ run.map (·, rank))
  fresh : Dict.contains (ranks ++ run.map (·, rank)) v = false
  ready : f.isReady (ranks ++ run.map (·, rank)) v = true
  reason : f.RankedBy entries (ranks ++ run.map (·, rank)) v rank
  left : f.rankFrom (fuel + 1) (ranks ++ run.map (·, rank)) v rank = .ok ranks'
  head : (run ++ [v]).head? = some root.id
  targets : ∀ u ∈ (run ++ [v]).tail, u ∈ f.links.targets
  plain : ∀ u ∈ (run ++ [v]).tail, ∃ c, f.scene.findBlock u = some c ∧ c.kind ≠ .start

namespace Arrives

variable (h : f.Arrives entries ranks ranks' root rank a run v fuel)

include h

/-- With the block that is arrived at. -/
lemma ranking_append : f.Ranking entries (ranks ++ (run ++ [v]).map (·, rank)) := by
  rw [List.map_append, List.map_singleton, ← List.append_assoc]
  exact .add h.ranking h.fresh h.found h.ready h.reason

lemma rankFrom_cases :
    (f.links.nextIds v = [] ∧ ranks' = ranks ++ (run ++ [v]).map (·, rank)) ∨
      (∃ next, f.links.nextIds v = [next] ∧
        f.rankFrom fuel (ranks ++ (run ++ [v]).map (·, rank)) next rank = .ok ranks') ∨
      ∃ order, 2 ≤ (f.links.nextIds v).length ∧
        f.scene.sortByPlace (f.links.next v) = .ok order ∧
        f.rankFork fuel rank.level order (ranks ++ (run ++ [v]).map (·, rank)) = .ok ranks' := by
  rw [List.map_append, List.map_singleton, ← List.append_assoc]
  rcases rankFrom_eq_ok h.left with ⟨-, hc | hn | hn⟩ | ⟨b, -, -, -, hrest⟩
  · rw [h.fresh] at hc
    exact Bool.noConfusion hc
  · rw [h.found] at hn
    cases hn
  · rw [h.ready] at hn
    exact Bool.noConfusion hn
  · exact hrest

lemma isPrefix : ranks ++ (run ++ [v]).map (·, rank) <+: ranks' := by
  have hfound : (f.scene.findBlock v).isSome = true := by
    rw [h.found]
    rfl
  rw [List.map_append, List.map_singleton, ← List.append_assoc]
  refine ((rankFrom_ranking h.ranking h.reason h.left).2.2 (Nat.succ_pos _) hfound
    h.ready).resolve_left ?_
  rw [h.fresh]
  exact Bool.false_ne_true

/-- The blocks of a stem are told apart, so there is depth enough for all of them. -/
lemma length_le : run.length ≤ f.links.targets.length := by
  have hd := h.ranking_append.distinctKeys
  rw [Dict.DistinctKeys, List.pairwise_append, List.pairwise_map] at hd
  have hnodup : (run ++ [v]).Nodup := by
    refine hd.2.1.imp ?_
    rintro u w hne rfl
    rw [Value.same_refl] at hne
    exact Bool.noConfusion hne
  have hle := ((hnodup.sublist (List.tail_sublist _)).subperm h.targets).length_le
  simpa using hle

/-- From a block on the stem to the next. -/
lemma next (hf : s.flow around = .ok f) (hnext : s.OnlyNext a b) (hk : b.kind ≠ .start)
    (hb : s.findBlock b.id = some b) (hloop : ¬s.Wired b b)
    (honly : ∀ w ∈ s.wires, b.id.same w.target = true → a.id.same w.source = true) :
    ∃ u fuel', f.Arrives entries ranks ranks' root rank b (run ++ [v]) u fuel' := by
  obtain ⟨hl, hscene, -, -⟩ := Scene.flow_eq_ok hf
  obtain ⟨u, hu, hbu⟩ := hnext.nextIds hl
  have hvu : f.links.nextIds v = [u] := by
    rw [← hu, Links.nextIds, Links.nextIds, Links.next, Links.next, Dict.get?_congr _ h.same]
  have hmem : u ∈ f.links.nextIds v := by simp [hvu]
  obtain ⟨w, hw, hsource, htarget⟩ := hnext.wired
  have huw : u.same w.target = true := Value.same_trans (Value.same_symm hbu) htarget
  have hwv : w.source.same v = true := Value.same_trans (Value.same_symm hsource) h.same
  have hself : Dict.contains (ranks ++ (run ++ [v]).map (·, rank)) v = true := by
    simp [Dict.contains]
  obtain ⟨fuel', rfl⟩ : ∃ fuel', fuel = fuel' + 1 := by
    have hlen := h.length_le
    have hdepth : run.length + fuel + 1 = f.links.targets.length + 2 := h.depth
    exact ⟨fuel - 1, by omega⟩
  have htail : (run ++ [v] ++ [u]).tail = (run ++ [v]).tail ++ [u] :=
    List.tail_append_of_ne_nil (by simp)
  refine ⟨u, fuel', hbu, ?_, ?_, h.ranking_append, ?_, ?_, ?_, ?_, ?_, ?_, ?_⟩
  · rw [hscene, ← Scene.findBlock_congr s hbu, hb]
  · have hdepth := h.depth
    rw [List.length_append, List.length_singleton]
    omega
  · -- a block that has its rank was preceded by its input
    rw [Bool.eq_false_iff]
    intro hc
    rw [List.map_append, List.map_singleton, ← List.append_assoc, Dict.contains,
      List.any_append, Bool.or_eq_true] at hc
    rcases hc with hc | hc
    · obtain ⟨e, he, hue⟩ := List.any_eq_true.mp hc
      obtain ⟨front, back, hcut⟩ := List.append_of_mem he
      have hready := (isReady_iff hf).mp (h.ranking.cut hcut).2.2.1 w hw
        (Value.same_trans (Value.same_symm hue) huw)
      have hin := Dict.contains_of_isPrefix ⟨_, hcut.symm⟩ hready
      rw [Dict.contains_congr _ hwv, h.fresh] at hin
      exact Bool.noConfusion hin
    · simp only [List.any_cons, List.any_nil, Bool.or_false] at hc
      exact hloop (hnext.wired.congr_left
        (Value.same_trans hbu (Value.same_trans hc (Value.same_symm h.same))))
  · rw [isReady_iff hf]
    intro x hx hux
    have hxv : x.source.same v = true := Value.same_trans
      (Value.same_symm (honly x hx (Value.same_trans hbu hux))) h.same
    rw [Dict.contains_congr _ hxv]
    exact hself
  · refine .along (r := rank) ?_ hmem (.inr ⟨rfl, hvu⟩)
    rw [List.map_append, List.map_singleton, ← List.append_assoc]
    exact Dict.get?_append_self h.fresh rank
  · rcases h.rankFrom_cases with ⟨hn, -⟩ | ⟨next, hn, hrest⟩ | ⟨order, hn, -, -⟩
    · simp [hvu] at hn
    · rw [hvu, List.singleton_inj] at hn
      subst hn
      exact hrest
    · simp [hvu] at hn
  · rw [List.head?_append, h.head, Option.some_or]
  · rw [htail]
    intro x hx
    rcases List.mem_append.mp hx with hx | hx
    · exact h.targets x hx
    · rw [List.mem_singleton.mp hx]
      exact Links.mem_targets_of_mem_nextIds hmem
  · rw [htail]
    intro x hx
    rcases List.mem_append.mp hx with hx | hx
    · exact h.plain x hx
    · rw [List.mem_singleton.mp hx]
      refine ⟨b, ?_, hk⟩
      rw [hscene, ← Scene.findBlock_congr s hbu, hb]

end Arrives

/-- Numbering goes through the whole stem of a block whose stem can only be entered from it. -/
lemma arrives_of_stem (hf : s.flow around = .ok f) (hclear : s.ClearStem root)
    (hr : f.Ranking entries ranks) (hfresh : ranks.contains root.id = false)
    (reason : f.RankedBy entries ranks root.id rank)
    (h : f.rankFrom f.depth ranks root.id rank = .ok ranks') (hb : s.Stem root b) :
    ∃ run v fuel, f.Arrives entries ranks ranks' root rank b run v fuel := by
  have hscene := (Scene.flow_eq_ok hf).2.1
  induction hb with
  | root =>
    have hready : f.isReady ranks root.id = true := by
      rw [isReady_iff hf]
      intro w hw htarget
      obtain ⟨⟨a, -, hsource⟩, -⟩ := Scene.wire_ends hw
      exact absurd ⟨w, hw, Value.same_symm hsource, htarget⟩ (hclear.free a)
    refine ⟨[], root.id, f.links.targets.length + 1, ?_⟩
    constructor
    case same => exact Value.same_refl _
    case found => exact hscene ▸ hclear.found root hclear.mem
    case depth => simp [depth]
    case left =>
      rw [List.map_nil, List.append_nil]
      exact h
    all_goals simp_all
  | @next a b before mem kind only ih =>
    obtain ⟨run, v, fuel, ha⟩ := ih
    obtain ⟨u, fuel', hb⟩ := ha.next hf only kind (hclear.found b mem) (hclear.loop b mem)
      (hclear.only before mem kind only)
    exact ⟨_, u, fuel', hb⟩

/-- An entry without inputs has no rank before its turn. -/
lemma contains_eq_false_of_entry (hf : s.flow around = .ok f) (hs : s.DistinctIds)
    (hclear : s.ClearStem root) {before : List Block} (hbefore : ∀ e ∈ before, e ∈ s.blocks)
    (hnew : root ∉ before) (h : before.foldlM f.rankEntry [] = .ok ranks) :
    ranks.contains root.id = false := by
  rw [Dict.contains_eq_false]
  intro e he
  rw [Bool.eq_false_iff]
  intro hsame
  rcases foldlM_rankEntry_keys h e he with ⟨b, hb, hid⟩ | htarget
  · rw [hid] at hsame
    have heq := hs.findBlock_eq (hbefore b hb) (Value.same_symm hsame)
      (hclear.found root hclear.mem)
    exact hnew (heq ▸ hb)
  · obtain ⟨w, hw, hwe⟩ := Scene.exists_wire_of_mem_targets (Scene.flow_eq_ok hf).1 htarget
    obtain ⟨⟨a, -, hsource⟩, -⟩ := Scene.wire_ends hw
    exact hclear.free a ⟨w, hw, Value.same_symm hsource, hwe ▸ hsame⟩

/-- The stem of an entry stands in one piece among the ranks, from the entry on. -/
theorem ranks_stem (hf : s.flow around = .ok f) (hs : s.DistinctIds) (hclear : s.ClearStem root)
    (hr : f.ranks entries = .ok ranks) {before after : List Block}
    (hcut : entries = before ++ root :: after) (hbefore : ∀ e ∈ before, e ∈ s.blocks)
    (hnew : root ∉ before) (hb : s.Stem root b) :
    ∃ rs run v more, before.foldlM f.rankEntry [] = .ok rs ∧
      ranks = rs ++ (run ++ [v]).map (·, ⟨0, 0⟩) ++ more ∧
      f.scene.findBlock v = some b ∧ (run ++ [v]).head? = some root.id ∧
      ∀ u ∈ (run ++ [v]).tail, ∃ c, f.scene.findBlock u = some c ∧ c.kind ≠ .start := by
  obtain ⟨rs, rs', hrs, hranking, hstep, hgrow⟩ := ranks_at_entry hr hcut
  have hfresh := contains_eq_false_of_entry hf hs hclear hbefore hnew hrs
  have hentry : root ∈ entries := by simp [hcut]
  obtain ⟨run, v, fuel, harrives⟩ :=
    arrives_of_stem hf hclear hranking hfresh (.entry hentry rfl) hstep hb
  obtain ⟨more, hmore⟩ := harrives.isPrefix.trans hgrow
  exact ⟨rs, run, v, more, hrs, hmore.symm, harrives.found, harrives.head, harrives.plain⟩

/-- On the lowest level there is nothing but stems of entries. -/
theorem Ranking.stem_of_level_zero (hf : s.flow around = .ok f) (hs : s.DistinctIds)
    (hfound : ∀ b ∈ s.blocks, s.findBlock b.id = some b) (hentries : ∀ e ∈ entries, e ∈ s.blocks)
    (hstarts : ∀ {a b}, b ∈ s.blocks → s.Wired a b → b.kind ≠ .start)
    (h : f.Ranking entries ranks) {e : Value × Rank} (he : e ∈ ranks) (hlevel : e.2.level = 0)
    (hb : s.findBlock e.1 = some b) : ∃ root ∈ entries, s.Stem root b := by
  obtain ⟨hl, hscene, -, -⟩ := Scene.flow_eq_ok hf
  induction h generalizing e b with
  | nil => simp at he
  | @add ranks id rank c hr fresh found ready reason ih =>
    rcases List.mem_append.mp he with he | he
    · exact ih he hlevel hb
    · obtain rfl := List.mem_singleton.mp he
      have hmem := Scene.findBlock_mem hb
      have hsame := Value.same_of_equals (Scene.findBlock_equals hb)
      cases reason with
      | entry mem same =>
        subst same
        obtain rfl := hs.findBlock_eq hmem hsame (hfound _ (hentries _ mem))
        exact ⟨_, mem, .root⟩
      | @along source r rank given wired after =>
        obtain ⟨hrank, honly⟩ := after.resolve_left (by simp only at hlevel; omega)
        obtain ⟨e, he, hse, rfl⟩ := Dict.exists_of_get? given
        obtain ⟨a, ha⟩ := hr.exists_block he
        rw [hscene] at ha
        obtain ⟨root, hroot, hstem⟩ := ih he (hrank ▸ hlevel) ha
        have hse' := Value.same_of_equals (Scene.findBlock_equals ha)
        have hnext : s.OnlyNext a b :=
          .of_nextIds hl (Value.same_trans hse' (Value.same_symm hse)) honly hsame
        exact ⟨root, hroot, .next hstem hmem (hstarts hmem hnext.wired) hnext⟩
      | meeting => simp [levelAfterInputs] at hlevel

end Arrival
end Flow
end NovelGraph
