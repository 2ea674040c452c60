import NovelGraph.Proofs.Chunks
import NovelGraph.Proofs.Wires

/-! The two branches of a conditional. The first is the chain behind the nearest block that is wired
to the conditional, the second the chain behind the next one; the ports that the wires leave have no
part in it. -/
namespace NovelGraph

open Outcome Script

namespace Flow

/-- How many ids are still ahead of a chain. -/
def ahead (f : Flow) (seen : List Value) : ℕ := f.links.targets.countP (!·.memberOf seen)

variable {f : Flow} {fuel : ℕ} {seen seen' : List Value} {indent text : String} {follow : Bool}
  {id : Value} {b : Block}

lemma countP_unseen_le (ids seen new : List Value) :
    ids.countP (!·.memberOf (seen ++ new)) ≤ ids.countP (!·.memberOf seen) := by
  refine List.countP_mono_left ?_
  intro v _ hv
  rw [Value.memberOf_append, Bool.not_or, Bool.and_eq_true] at hv
  exact hv.1

lemma ahead_le (h : seen <+: seen') : f.ahead seen' ≤ f.ahead seen := by
  obtain ⟨new, rfl⟩ := h
  exact countP_unseen_le _ seen new

/-- Entering a block that a wire leads to leaves less ahead. -/
lemma ahead_lt (hid : id ∈ f.links.targets) (h : f.enters seen id = true) :
    f.ahead (seen ++ [id]) < f.ahead seen := by
  rw [enters, Bool.and_eq_true] at h
  obtain ⟨before, after, hcut⟩ := List.append_of_mem hid
  have hbefore := countP_unseen_le before seen [id]
  have hafter := countP_unseen_le after seen [id]
  rw [ahead, ahead, hcut, List.countP_append, List.countP_append,
    List.countP_cons_of_neg (by simp),
    List.countP_cons_of_pos (p := fun v : Value => !v.memberOf seen) h.1]
  omega

/-- How deep the chains behind a block may look matters only as far as it matters to them. -/
lemma chainFrom_congr_fuel {m n : ℕ}
    (h : ∀ {seen' indent follow t}, seen ++ [id] <+: seen' → t ∈ f.links.targets →
      f.chainFrom m seen' indent follow t = f.chainFrom n seen' indent follow t) :
    f.chainFrom (m + 1) seen indent follow id = f.chainFrom (n + 1) seen indent follow id := by
  cases he : f.enters seen id with
  | false => rw [chainFrom_of_not_enters he, chainFrom_of_not_enters he]
  | true =>
    cases hb : f.scene.findBlock id with
    | none => rw [chainFrom_of_missing he hb, chainFrom_of_missing he hb]
    | some b =>
      have hbranch : ∀ k, f.branchFrom m (seen ++ [id]) indent b k =
          f.branchFrom n (seen ++ [id]) indent b k := by
        intro k
        unfold branchFrom
        cases hk : (f.links.nextIds b.id)[k]? with
        | none => rfl
        | some next =>
          have hnext := Links.mem_targets_of_mem_nextIds (List.mem_of_getElem? hk)
          simp only [h List.prefix_rfl hnext]
      refine chainFrom_congr he he hb hb rfl rfl rfl (fun _ => hbranch 0) (fun _ => hbranch 1)
        fun _ own => ?_
      cases hs : f.scene.sortByPlace (f.links.next b.id) with
      | error fault => simp only [followOn, hs]; rfl
      | ok order =>
        simp only [followOn, hs, ok_bind]
        refine foldlM_congr (fun done => seen ++ [id] <+: done.2) ?_ ?_ List.prefix_rfl
        · intro next hmem done hdone
          have hnext := Links.mem_targets_of_mem_nextIds
            ((Scene.sortByPlace_perm hs).mem_iff.mp hmem)
          unfold extend
          rw [h hdone hnext]
        · intro next _ done done' hdone hstep
          obtain ⟨more, hmore, -⟩ := extend_eq_ok hstep
          exact hdone.trans (chainFrom_seen_grows hmore)

/-- Deeper than what is ahead of it a chain does not look. -/
theorem chainFrom_succ (hid : id ∈ f.links.targets) (h : f.ahead seen < fuel) :
    f.chainFrom (fuel + 1) seen indent follow id = f.chainFrom fuel seen indent follow id := by
  induction fuel generalizing seen indent follow id with
  | zero => omega
  | succ fuel ih =>
    cases he : f.enters seen id with
    | false => rw [chainFrom_of_not_enters he, chainFrom_of_not_enters he]
    | true =>
      refine chainFrom_congr_fuel fun hgrows ht => ih ht ?_
      have hless := ahead_lt hid he
      have hle := ahead_le (f := f) hgrows
      omega

/-- No chain looks deeper than its flow. -/
lemma chainFrom_depth_succ (f : Flow) : f.chainFrom (f.depth + 1) = f.chainFrom f.depth := by
  funext seen indent follow id
  exact chainFrom_congr_fuel fun _ ht => chainFrom_succ ht (Nat.lt_succ_of_le List.countP_le_length)

lemma chain_eq_of_mem_targets (hkey : id.isKey = true) (hid : id ∈ f.links.targets) :
    f.chain seen indent follow id =
      f.chainFrom (f.links.targets.length + 1) seen indent follow id := by
  have hahead : f.ahead seen < f.links.targets.length + 1 := Nat.lt_succ_of_le List.countP_le_length
  rw [chain, Value.requireKey, if_pos hkey]
  exact chainFrom_succ hid hahead

/-- The suites of a conditional are chains of their own: the first begins at the nearest block
behind it, the second at the next one. -/
theorem chain_ifElse {ps : Params} {first second : Value} {rest : List Value}
    (hb : f.scene.findBlock b.id = some b) (hk : b.kind = .ifElse) (hps : b.paramList = .ok ps)
    (hc : (param ps "condition").isEmpty = false) (he : f.enters seen b.id = true)
    (hnext : f.links.nextIds b.id = first :: second :: rest) (hkey : b.id.isKey = true)
    (hfirst : first.isKey = true) (hsecond : second.isKey = true) :
    f.chain seen indent follow b.id = (do
      let (yes, _) ← f.chain (seen ++ [b.id]) (indent ++ indentation) true first
      let (no, _) ← f.chain (seen ++ [b.id]) (indent ++ indentation) true second
      pure (conditional indent ps yes no, seen ++ [b.id])) := by
  have hmem : ∀ next ∈ f.links.nextIds b.id, next ∈ f.links.targets := by
    intro next hn
    obtain ⟨t, ht, rfl⟩ := List.mem_map.mp hn
    exact Links.mem_targets_of_mem_next ht
  rw [chain_eq_of_mem_targets hfirst (hmem first (by simp [hnext])),
    chain_eq_of_mem_targets hsecond (hmem second (by simp [hnext])), chain, Value.requireKey,
    if_pos hkey]
  have hyes : f.branchFrom (f.links.targets.length + 1) (seen ++ [b.id]) indent b 0 = (do
      pure (← f.chainFrom (f.links.targets.length + 1) (seen ++ [b.id]) (indent ++ indentation)
        true first).1) := by
    rw [branchFrom, hnext]
    rfl
  have hno : f.branchFrom (f.links.targets.length + 1) (seen ++ [b.id]) indent b 1 = (do
      pure (← f.chainFrom (f.links.targets.length + 1) (seen ++ [b.id]) (indent ++ indentation)
        true second).1) := by
    rw [branchFrom, hnext]
    rfl
  show f.chainFrom (f.links.targets.length + 1 + 1) seen indent follow b.id = _
  rw [chainFrom_ifElse he hb hk, hps, ok_bind, hc, if_neg Bool.false_ne_true, hyes, hno]
  simp only [bind_assoc, pure_bind]

end Flow

namespace Scene

/-- Whether the first of two wires is the shorter one. -/
def Wire.nearer (v w : Wire) : Bool := (Magnitude.ofDouble v.length).lt (.ofDouble w.length)

lemma Wire.nearer_asymm {v w : Wire} (h : v.nearer w = true) : w.nearer v = false := by
  unfold nearer at *
  generalize Magnitude.ofDouble v.length = m at *
  generalize Magnitude.ofDouble w.length = n at *
  cases m with
  | finite a d =>
    cases n with
    | finite b e =>
      simp only [Magnitude.lt, Magnitude.finiteLt, decide_eq_true_eq,
        decide_eq_false_iff_not] at *
      rw [Int.min_comm e d]
      exact Int.not_lt.mpr (Int.le_of_lt h)
    | infinite negative => simpa [Magnitude.lt] using h
    | nan => rfl
  | infinite positive =>
    cases n with
    | finite b e => simpa [Magnitude.lt] using h
    | infinite negative => simp_all [Magnitude.lt]
    | nan => rfl
  | nan => cases n <;> rfl

/-- Of two wires one comes first if it is shorter, or not longer and drawn earlier. -/
def Wire.Precedes (drawn : List Wire) (v w : Wire) : Prop :=
  v.nearer w = true ∨ w.nearer v = false ∧ [v, w].Sublist drawn

lemma Wire.precedes_pair_iff {v w : Wire} : Precedes [v, w] v w ↔ w.nearer v = false := by
  constructor
  · rintro (h | ⟨h, -⟩)
    · exact nearer_asymm h
    · exact h
  · exact fun h => .inr ⟨h, List.Sublist.refl _⟩

lemma Wire.precedes_pair_swap_iff {v w : Wire} (hne : v ≠ w) :
    Precedes [v, w] w v ↔ w.nearer v = true := by
  constructor
  · rintro (h | ⟨-, hsub⟩)
    · exact h
    · have heq := hsub.eq_of_length rfl
      simp only [List.cons.injEq] at heq
      exact absurd heq.2.1 hne
  · exact .inl

lemma sortByDistance_pair (v w : Wire) :
    Links.sortByDistance [v.hop, w.hop] =
      if w.nearer v then [w.hop, v.hop] else [v.hop, w.hop] :=
  Order.sortByKey_pair _ _ _ _

variable {s : Scene} {l : Links}

lemma isKey_of_mem_blocks (h : s.links = .ok l) {b : Block} (hb : b ∈ s.blocks) :
    b.id.isKey = true := by
  have hkey := (links_eq_ok h).1 b hb
  rw [Value.requireKey] at hkey
  split_ifs at hkey with hk
  exact hk

lemma isKey_of_mem_nextIds (h : s.links = .ok l) {id next : Value} (hn : next ∈ l.nextIds id) :
    next.isKey = true := by
  obtain ⟨t, ht, rfl⟩ := List.mem_map.mp hn
  obtain ⟨w, hw, -, rfl⟩ := (mem_next h).mp ht
  obtain ⟨-, b, hb, hs⟩ := wire_ends hw
  rw [← isKey_of_mem_blocks h hb]
  exact Value.isKey_congr hs

/-- The wires of a block that leave a port of a given name. -/
def wiresNamed (s : Scene) (id : Value) (name : String) : List Wire :=
  (s.wiresFrom id).filter (·.port.name.same (.text name))

section TwoPorts

variable {id : Value} {yes no : Wire} (hyes : s.wiresNamed id "True" = [yes])
  (hno : s.wiresNamed id "False" = [no])

include hyes hno

lemma mem_of_wiresNamed : yes ∈ s.wiresFrom id ∧ no ∈ s.wiresFrom id ∧ yes ≠ no := by
  have hy : yes ∈ s.wiresNamed id "True" := by simp [hyes]
  have hn : no ∈ s.wiresNamed id "False" := by simp [hno]
  obtain ⟨hyin, hyname⟩ := List.mem_filter.mp hy
  obtain ⟨hnin, hnname⟩ := List.mem_filter.mp hn
  refine ⟨hyin, hnin, ?_⟩
  rintro rfl
  exact absurd (Value.same_text.mp (Value.same_trans (Value.same_symm hyname) hnname)) (by decide)

/-- Two wires on two ports are drawn in one order or the other. -/
lemma wiresFrom_of_two (hlen : (s.wiresFrom id).length = 2) :
    s.wiresFrom id = [yes, no] ∨ s.wiresFrom id = [no, yes] := by
  obtain ⟨hy, hn, hne⟩ := mem_of_wiresNamed hyes hno
  obtain ⟨v, w, hvw⟩ := List.length_eq_two.mp hlen
  rw [hvw] at hy hn ⊢
  simp only [List.mem_cons, List.not_mem_nil, or_false] at hy hn
  rcases hy with rfl | rfl
  · rcases hn with rfl | rfl
    · exact absurd rfl hne
    · exact .inl rfl
  · rcases hn with rfl | rfl
    · exact .inr rfl
    · exact absurd rfl hne

lemma exists_first_two : ∃ first second rest,
    Links.sortByDistance ((s.wiresFrom id).map Wire.hop) = first :: second :: rest := by
  obtain ⟨hy, hn, hne⟩ := mem_of_wiresNamed hyes hno
  have hlen : (Links.sortByDistance ((s.wiresFrom id).map Wire.hop)).length =
      (s.wiresFrom id).length := by
    rw [Links.sortByDistance, (Order.sortByKey_perm _ _ _).length_eq, List.length_map]
  rcases hs : Links.sortByDistance ((s.wiresFrom id).map Wire.hop) with
    _ | ⟨first, _ | ⟨second, rest⟩⟩
  · rw [hs] at hlen
    rw [List.eq_nil_of_length_eq_zero hlen.symm] at hy
    simp at hy
  · rw [hs] at hlen
    obtain ⟨w, hw⟩ := List.length_eq_one_iff.mp hlen.symm
    rw [hw, List.mem_singleton] at hy hn
    exact absurd (hy.trans hn.symm) hne
  · exact ⟨first, second, rest, rfl⟩

/-- The wire that precedes the other comes first in the graph. -/
lemma sortByDistance_of_two (hlen : (s.wiresFrom id).length = 2) :
    (Wire.Precedes (s.wiresFrom id) yes no →
      Links.sortByDistance ((s.wiresFrom id).map Wire.hop) = [yes.hop, no.hop]) ∧
    (¬Wire.Precedes (s.wiresFrom id) yes no →
      Links.sortByDistance ((s.wiresFrom id).map Wire.hop) = [no.hop, yes.hop]) := by
  obtain ⟨-, -, hne⟩ := mem_of_wiresNamed hyes hno
  rcases wiresFrom_of_two hyes hno hlen with hw | hw
  · rw [hw, List.map_cons, List.map_singleton, sortByDistance_pair, Wire.precedes_pair_iff]
    constructor
    · intro h
      rw [h, if_neg Bool.false_ne_true]
    · intro h
      rw [if_pos (Bool.not_eq_false _ ▸ h)]
  · rw [hw, List.map_cons, List.map_singleton, sortByDistance_pair,
      Wire.precedes_pair_swap_iff hne.symm]
    constructor
    · intro h
      rw [if_pos h]
    · intro h
      rw [if_neg h]

end TwoPorts

/-- The branches of a conditional go by distance. The first two wires in the order of their lengths
lead to its suites, whichever ports they leave. With one wire on each of its two ports, the suites
are those of the ports exactly if the wire of the first port precedes the other. -/
theorem chain_ifElse_by_distance {around : Surroundings} {f : Flow} {b : Block} {ps : Params}
    {yes no : Wire} {seen : List Value} {indent : String} {follow : Bool}
    (hf : s.flow around = .ok f) (hb : s.findBlock b.id = some b) (hk : b.kind = .ifElse)
    (hps : b.paramList = .ok ps) (hc : (param ps "condition").isEmpty = false)
    (hyes : s.wiresNamed b.id "True" = [yes]) (hno : s.wiresNamed b.id "False" = [no])
    (he : f.enters seen b.id = true) :
    ∃ first second rest,
      Links.sortByDistance ((s.wiresFrom b.id).map Wire.hop) = first :: second :: rest ∧
      f.chain seen indent follow b.id = (do
        let (suite, _) ← f.chain (seen ++ [b.id]) (indent ++ indentation) true first.1
        let (otherwise, _) ← f.chain (seen ++ [b.id]) (indent ++ indentation) true second.1
        pure (conditional indent ps suite otherwise, seen ++ [b.id])) ∧
      ((s.wiresFrom b.id).length = 2 →
        (Wire.Precedes (s.wiresFrom b.id) yes no → first = yes.hop ∧ second = no.hop) ∧
        (¬Wire.Precedes (s.wiresFrom b.id) yes no → first = no.hop ∧ second = yes.hop)) := by
  obtain ⟨hl, rfl, -, -⟩ := flow_eq_ok hf
  obtain ⟨first, second, rest, hsort⟩ := exists_first_two hyes hno
  have hnext : f.links.nextIds b.id = first.1 :: second.1 :: rest.map (·.1) := by
    rw [Links.nextIds, links_next hl, hsort, List.map_cons, List.map_cons]
  have hkey : ∀ next ∈ f.links.nextIds b.id, next.isKey = true :=
    fun next hn => isKey_of_mem_nextIds hl hn
  refine ⟨first, second, rest, hsort, ?_, ?_⟩
  · exact Flow.chain_ifElse hb hk hps hc he hnext (isKey_of_mem_blocks hl (findBlock_mem hb))
      (hkey _ (by simp [hnext])) (hkey _ (by simp [hnext]))
  · intro hlen
    obtain ⟨hbefore, hbehind⟩ := sortByDistance_of_two hyes hno hlen
    rw [hsort] at hbefore hbehind
    simp only [List.cons.injEq] at hbefore hbehind
    exact ⟨fun h => ⟨(hbefore h).1, (hbefore h).2.1⟩, fun h => ⟨(hbehind h).1, (hbehind h).2.1⟩⟩

def readyBlock : Block :=
  { id := .text "c", kind := .ifElse, params := .object [("condition", .text "ready")],
    x := .int 0, y := .int 0 }

/-- A conditional with one wire on each port; the block behind the second port lies nearer. -/
def swappedScene : Scene where
  id := .text "scene"
  name := .text "scene"
  label := .text "scene"
  blocks :=
    [readyBlock,
      { id := .text "t", kind := .narration, params := .object [("text", .text "yes")],
        x := .int 9, y := .int 0 },
      { id := .text "f", kind := .narration, params := .object [("text", .text "no")],
        x := .int 3, y := .int 0 }]
  ports :=
    [{ id := .text "c.t", nodeId := .text "c", name := .text "True", direction := .output },
      { id := .text "c.f", nodeId := .text "c", name := .text "False", direction := .output },
      { id := .text "t.i", nodeId := .text "t", name := .text "in", direction := .input },
      { id := .text "f.i", nodeId := .text "f", name := .text "in", direction := .input }]
  connections :=
    [{ id := .text "1", fromPort := .text "c.t", toPort := .text "t.i" },
      { id := .text "2", fromPort := .text "c.f", toPort := .text "f.i" }]

/-- The suites of the conditional are exchanged. -/
theorem swappedScene_branches :
    ∃ f, swappedScene.flow {} = .ok f ∧ f.enters [] (.text "c") = true ∧
      (swappedScene.wiresNamed (.text "c") "True").map (·.target) = [.text "t"] ∧
      (swappedScene.wiresNamed (.text "c") "False").map (·.target) = [.text "f"] ∧
      f.chain [.text "c"] "    " true (.text "t") =
        .ok ("    \"yes\"\n", [.text "c", .text "t"]) ∧
      f.chain [.text "c"] "    " true (.text "f") =
        .ok ("    \"no\"\n", [.text "c", .text "f"]) ∧
      f.chain [] "" true (.text "c") =
        .ok ("if ready:\n        \"no\"\n\nelse:\n        \"yes\"\n\n", [.text "c"]) :=
  ⟨_, rfl, rfl, rfl, rfl, rfl, rfl, rfl⟩

theorem swappedScene_by_distance :
    ∃ f yes no, swappedScene.flow {} = .ok f ∧ f.enters [] readyBlock.id = true ∧
      swappedScene.wiresNamed readyBlock.id "True" = [yes] ∧
      swappedScene.wiresNamed readyBlock.id "False" = [no] ∧
      ¬Wire.Precedes (swappedScene.wiresFrom readyBlock.id) yes no ∧
      f.chain [] "" true readyBlock.id = (do
        let (suite, _) ← f.chain [readyBlock.id] indentation true no.target
        let (otherwise, _) ← f.chain [readyBlock.id] indentation true yes.target
        pure (conditional "" [("condition", .text "ready")] suite otherwise, [readyBlock.id])) := by
  obtain ⟨f, hf, he⟩ : ∃ f, swappedScene.flow {} = .ok f ∧ f.enters [] readyBlock.id = true :=
    ⟨_, rfl, rfl⟩
  obtain ⟨yes, no, hyes, hno, hbehind⟩ : ∃ yes no,
      swappedScene.wiresNamed readyBlock.id "True" = [yes] ∧
      swappedScene.wiresNamed readyBlock.id "False" = [no] ∧
      ¬Wire.Precedes (swappedScene.wiresFrom readyBlock.id) yes no := by
    refine ⟨_, _, rfl, rfl, ?_⟩
    rintro (hnear | ⟨hfar, -⟩)
    · cases hnear
    · cases hfar
  have hpar : readyBlock.paramList = .ok [("condition", .text "ready")] := rfl
  obtain ⟨first, second, rest, -, hchain, htwo⟩ :=
    chain_ifElse_by_distance hf rfl rfl hpar rfl hyes hno he
  obtain ⟨rfl, rfl⟩ := (htwo rfl).2 hbehind
  exact ⟨f, yes, no, hf, he, hyes, hno, hbehind, hchain⟩

end Scene
end NovelGraph
