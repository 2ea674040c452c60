import Mathlib.Order.Bounds.Basic
import NovelGraph.Proofs.Branches
import NovelGraph.Proofs.LineEnds
import NovelGraph.Proofs.Redrawing
import NovelGraph.Proofs.Stems

/-! Which blocks a chain writes, where ways meet and run in circles. A block is passed over as long
as one of its inputs is missing, and tried again behind each of its inputs; so in the end the chain
has added the least set that contains its first block and every block behind a member all of whose
inputs were seen or are members. The places of the blocks have a part in the order, but not in the
set. -/
namespace NovelGraph

open Outcome Script

namespace Scene

/-- A block that can be entered: it was not seen, and all its inputs were. -/
structure Enters (s : Scene) (seen : List Value) (b : Block) : Prop where
  fresh : b.id.memberOf seen = false
  inputs : ∀ a ∈ s.blocks, s.Wired a b → a.id.memberOf seen = true

/-- Blocks that are entered one after the other. -/
def Steps (s : Scene) : List Value → List Block → Prop
  | _, [] => True
  | seen, b :: rest => b ∈ s.blocks ∧ s.Enters seen b ∧ s.Steps (seen ++ [b.id]) rest

variable {s : Scene} {seen seen' roots roots' : List Value} {order order' : List Block}
  {a b : Block}

lemma Enters.congr (h : ∀ v : Value, v.memberOf seen = v.memberOf seen') (hb : s.Enters seen b) :
    s.Enters seen' b :=
  ⟨by rw [← h, hb.fresh], fun a ha hw => by rw [← h, hb.inputs a ha hw]⟩

namespace Steps

lemma congr (h : ∀ v : Value, v.memberOf seen = v.memberOf seen') (ho : s.Steps seen order) :
    s.Steps seen' order := by
  induction order generalizing seen seen' with
  | nil => trivial
  | cons b rest ih =>
    refine ⟨ho.1, ho.2.1.congr h, ih (fun v => ?_) ho.2.2⟩
    rw [Value.memberOf_append, Value.memberOf_append, h]

lemma append (h : s.Steps seen order) (h' : s.Steps (seen ++ order.map Block.id) order') :
    s.Steps seen (order ++ order') := by
  induction order generalizing seen with
  | nil => simpa using h'
  | cons b rest ih => exact ⟨h.1, h.2.1, ih h.2.2 (by simpa using h')⟩

/-- What is entered at some point has its inputs among what was seen until then. -/
lemma cut (h : s.Steps seen (order ++ b :: order')) :
    b ∈ s.blocks ∧ s.Enters (seen ++ order.map Block.id) b := by
  induction order generalizing seen with
  | nil => exact ⟨h.1, by simpa using h.2.1⟩
  | cons c rest ih => simpa using ih h.2.2

lemma mem (h : s.Steps seen order) (hb : b ∈ order) : b ∈ s.blocks := by
  obtain ⟨before, after, rfl⟩ := List.append_of_mem hb
  exact h.cut.1

lemma fresh (h : s.Steps seen order) (hb : b ∈ order) : b.id.memberOf seen = false := by
  obtain ⟨before, after, rfl⟩ := List.append_of_mem hb
  have hfresh := h.cut.2.fresh
  rw [Value.memberOf_append, Bool.or_eq_false_iff] at hfresh
  exact hfresh.1

lemma nodup (h : s.Steps seen order) : order.Nodup := by
  induction order generalizing seen with
  | nil => exact .nil
  | cons b rest ih =>
    refine List.nodup_cons.mpr ⟨fun hb => ?_, ih h.2.2⟩
    have hfresh := h.2.2.fresh hb
    rw [Value.memberOf_append, Value.memberOf_singleton, Value.same_refl, Bool.or_true] at hfresh
    exact Bool.noConfusion hfresh

end Steps

/-- Members of a chain stand behind those of its members that they are wired to. -/
lemma Steps.input_before (h : s.Steps seen order) (hs : s.Named) (ha : a ∈ order) (hb : b ∈ order)
    (hw : s.Wired a b) : [a, b].Sublist order := by
  obtain ⟨before, after, rfl⟩ := List.append_of_mem hb
  have hin := h.cut.2.inputs a (h.mem ha) hw
  rw [Value.memberOf_append, h.fresh ha, Bool.false_or] at hin
  have hbefore := hs.keys.mem_of_memberOf (fun c hc => h.mem (List.mem_append_left _ hc))
    (h.mem ha) hin
  exact Order.pair_sublist_append.mpr (.inr (.inl ⟨hbefore, List.mem_cons_self⟩))

/-- What a chain has done that was started at `roots` in turn: it has entered blocks that are roots
or behind a member, and nothing is left there that could be entered. -/
structure Visit (s : Scene) (seen roots : List Value) (order : List Block) : Prop where
  steps : s.Steps seen order
  reached : ∀ b ∈ order, b.id.memberOf roots = true ∨ ∃ a ∈ order, s.Wired a b
  finished : ∀ b, b.id.memberOf roots = true ∨ (∃ a ∈ order, s.Wired a b) →
    ¬s.Enters (seen ++ order.map Block.id) b

namespace Visit

lemma congr (h : ∀ v : Value, v.memberOf seen = v.memberOf seen') (hv : s.Visit seen roots order) :
    s.Visit seen' roots order := by
  refine ⟨hv.steps.congr h, hv.reached, fun b hb henters => hv.finished b hb (henters.congr ?_)⟩
  intro v
  rw [Value.memberOf_append, Value.memberOf_append, h]

lemma nil : s.Visit seen [] [] := ⟨trivial, by simp, by simp⟩

/-- A block that cannot be entered is passed over. -/
lemma skip {id : Value} (h : ∀ b, b.id.same id = true → ¬s.Enters seen b) :
    s.Visit seen [id] [] := by
  refine ⟨trivial, by simp, ?_⟩
  rintro b (hb | ⟨a, ha, -⟩)
  · simpa using h b (by simpa using hb)
  · simp at ha

/-- A block that has its last input entered later is tried again behind it. -/
lemma append (h : s.Visit seen roots order)
    (h' : s.Visit (seen ++ order.map Block.id) roots' order') :
    s.Visit seen (roots ++ roots') (order ++ order') := by
  refine ⟨h.steps.append h'.steps, ?_, ?_⟩
  · intro b hb
    rw [Value.memberOf_append, Bool.or_eq_true]
    rcases List.mem_append.mp hb with hb | hb
    · rcases h.reached b hb with hroot | ⟨a, ha, hw⟩
      · exact .inl (.inl hroot)
      · exact .inr ⟨a, List.mem_append_left _ ha, hw⟩
    · rcases h'.reached b hb with hroot | ⟨a, ha, hw⟩
      · exact .inl (.inr hroot)
      · exact .inr ⟨a, List.mem_append_right _ ha, hw⟩
  · intro b hb henters
    rw [List.map_append, ← List.append_assoc] at henters
    by_cases hlate : b.id.memberOf roots' = true ∨ ∃ a ∈ order', s.Wired a b
    · exact h'.finished b hlate henters
    · -- none of its inputs is new, so it could have been entered before
      rw [not_or, not_exists] at hlate
      refine h.finished b ?_ ⟨?_, fun a ha hw => ?_⟩
      · rw [Value.memberOf_append, Bool.or_eq_true] at hb
        rcases hb with (hroot | hroot) | ⟨a, ha, hw⟩
        · exact .inl hroot
        · exact absurd hroot hlate.1
        · rcases List.mem_append.mp ha with ha | ha
          · exact .inr ⟨a, ha, hw⟩
          · exact absurd ⟨ha, hw⟩ (hlate.2 a)
      · have hfresh := henters.fresh
        rw [Value.memberOf_append, Bool.or_eq_false_iff] at hfresh
        exact hfresh.1
      · have hin := henters.inputs a ha hw
        rw [Value.memberOf_append, Bool.or_eq_true] at hin
        refine hin.resolve_right fun hnew => ?_
        obtain ⟨v, hv, hsame⟩ := Value.exists_of_memberOf hnew
        obtain ⟨c, hc, rfl⟩ := List.mem_map.mp hv
        exact hlate.2 c ⟨hc, Wired.congr_left hw (Value.same_symm hsame)⟩

/-- A block is entered, and what it is wired to is tried. -/
lemma enter {id : Value} (hr : b ∈ s.blocks) (hid : b.id.same id = true) (he : s.Enters seen b)
    (hroots : ∀ c, c.id.memberOf roots = true ↔ s.Wired b c)
    (h : s.Visit (seen ++ [b.id]) roots order) : s.Visit seen [id] (b :: order) := by
  refine ⟨⟨hr, he, h.steps⟩, ?_, ?_⟩
  · intro c hc
    rw [Value.memberOf_singleton]
    rcases List.mem_cons.mp hc with rfl | hc
    · exact .inl hid
    · rcases h.reached c hc with hroot | ⟨a, ha, hw⟩
      · exact .inr ⟨b, by simp, (hroots c).mp hroot⟩
      · exact .inr ⟨a, by simp [ha], hw⟩
  · intro c hc henters
    rw [List.map_cons, ← List.singleton_append, ← List.append_assoc] at henters
    rcases hc with hc | ⟨a, ha, hw⟩
    · have hfresh := henters.fresh
      have hsame : c.id.same b.id = true :=
        Value.same_trans (by simpa using hc) (Value.same_symm hid)
      rw [Value.memberOf_append, Value.memberOf_append, Value.memberOf_singleton, hsame] at hfresh
      simp at hfresh
    · rcases List.mem_cons.mp ha with rfl | ha
      · exact h.finished c (.inl ((hroots c).mpr hw)) henters
      · exact h.finished c (.inr ⟨a, ha, hw⟩) henters

end Visit

/-- A set of ids that contains a block and every unseen block behind a member, all of whose inputs
were seen or are members. -/
structure Absorbs (s : Scene) (seen : List Value) (first : Value) (members : Set Value) : Prop where
  first : first ∈ members
  behind : ∀ b ∈ s.blocks, b.id.memberOf seen = false →
    (∃ a ∈ s.blocks, a.id ∈ members ∧ s.Wired a b) →
    (∀ a ∈ s.blocks, s.Wired a b → a.id.memberOf seen = true ∨ a.id ∈ members) → b.id ∈ members

namespace Visit

variable {first : Block}

/-- What could be entered in the end was entered. -/
lemma mem (h : s.Visit seen roots order) (hs : s.Named) (hb : b ∈ s.blocks)
    (hroot : b.id.memberOf roots = true ∨ ∃ a ∈ order, s.Wired a b)
    (hfresh : b.id.memberOf seen = false)
    (hinputs : ∀ a ∈ s.blocks, s.Wired a b → a.id.memberOf seen = true ∨ a ∈ order) :
    b ∈ order := by
  refine hs.keys.mem_of_memberOf (fun c hc => h.steps.mem hc) hb ?_
  by_contra hnot
  refine h.finished b hroot ⟨?_, fun a ha hw => ?_⟩
  · simpa [hfresh] using hnot
  · rw [Value.memberOf_append, Bool.or_eq_true]
    refine (hinputs a ha hw).imp_right fun hin => ?_
    exact Value.memberOf_of_mem (List.mem_map_of_mem hin) (Value.same_refl _)

/-- A chain whose first block cannot be entered adds nothing. -/
lemma eq_nil (h : s.Visit seen [first.id] order) (hs : s.Named) (hfirst : first ∈ s.blocks)
    (hnot : ¬s.Enters seen first) : order = [] := by
  cases order with
  | nil => rfl
  | cons b rest =>
    have hb := h.steps.2.1
    rcases h.reached b (by simp) with hroot | ⟨a, ha, hw⟩
    · rw [Value.memberOf_singleton] at hroot
      rw [hs.keys.eq_of_same (h.steps.mem (by simp)) hfirst hroot] at hb
      exact absurd hb hnot
    · have hin := hb.inputs a (h.steps.mem ha) hw
      rw [h.steps.fresh ha] at hin
      exact Bool.noConfusion hin

lemma absorbs (h : s.Visit seen [first.id] order) (hs : s.Named) (hfirst : first ∈ s.blocks)
    (he : s.Enters seen first) : s.Absorbs seen first.id {v | v ∈ order.map Block.id} := by
  have hmem : ∀ {a}, a ∈ s.blocks → a.id ∈ order.map Block.id → a ∈ order := by
    intro a ha hin
    exact hs.keys.mem_of_memberOf (fun c hc => h.steps.mem hc) ha
      (Value.memberOf_of_mem hin (Value.same_refl _))
  constructor
  · refine List.mem_map_of_mem (h.mem hs hfirst (.inl (by simp)) he.fresh fun a ha hw => ?_)
    exact .inl (he.inputs a ha hw)
  · rintro b hb hfresh ⟨a, ha, hin, hw⟩ hinputs
    refine List.mem_map_of_mem (h.mem hs hb (.inr ⟨a, hmem ha hin, hw⟩) hfresh fun c hc hcw => ?_)
    exact (hinputs c hc hcw).imp_right (hmem hc)

lemma subset_of_absorbs (h : s.Visit seen [first.id] order) (hs : s.Named)
    (hfirst : first ∈ s.blocks) {members : Set Value} (hN : s.Absorbs seen first.id members) :
    ∀ b ∈ order, b.id ∈ members := by
  -- by the order in which they were entered
  have hfrom : ∀ rest done, order = done ++ rest → (∀ b ∈ done, b.id ∈ members) →
      ∀ b ∈ rest, b.id ∈ members := by
    intro rest
    induction rest with
    | nil => simp
    | cons b rest ih =>
      intro done heq hdone
      have hsteps := h.steps
      rw [heq] at hsteps
      have hinputs : ∀ a ∈ s.blocks, s.Wired a b → a.id.memberOf seen = true ∨ a ∈ done := by
        intro a ha hw
        have hin := hsteps.cut.2.inputs a ha hw
        rw [Value.memberOf_append, Bool.or_eq_true] at hin
        exact hin.imp_right (hs.keys.mem_of_memberOf
          (fun c hc => hsteps.mem (List.mem_append_left _ hc)) ha)
      have hb : b.id ∈ members := by
        rcases h.reached b (by simp [heq]) with hroot | ⟨a, ha, hw⟩
        · rw [Value.memberOf_singleton] at hroot
          rw [hs.keys.eq_of_same hsteps.cut.1 hfirst hroot]
          exact hN.first
        · have hdone' : a ∈ done := (hinputs a (h.steps.mem ha) hw).resolve_left (by
            rw [h.steps.fresh ha]
            exact Bool.false_ne_true)
          refine hN.behind b hsteps.cut.1 (h.steps.fresh (by simp [heq]))
            ⟨a, h.steps.mem ha, hdone a hdone', hw⟩ fun c hc hcw => ?_
          exact (hinputs c hc hcw).imp_right (hdone c)
      refine List.forall_mem_cons.mpr ⟨hb, ih (done ++ [b]) (by simp [heq]) fun c hc => ?_⟩
      rcases List.mem_append.mp hc with hc | hc
      · exact hdone c hc
      · rwa [List.mem_singleton.mp hc]
  exact hfrom order [] rfl (by simp)

/-- A chain whose first block is entered adds the least set that is closed. -/
lemma isLeast (h : s.Visit seen [first.id] order) (hs : s.Named) (hfirst : first ∈ s.blocks)
    (he : s.Enters seen first) :
    IsLeast {members | s.Absorbs seen first.id members} {v | v ∈ order.map Block.id} := by
  refine ⟨h.absorbs hs hfirst he, fun members hN v hv => ?_⟩
  obtain ⟨b, hb, rfl⟩ := List.mem_map.mp hv
  exact h.subset_of_absorbs hs hfirst hN b hb

end Visit
end Scene

namespace Flow

variable {s : Scene} {around : Surroundings} {f : Flow} {fuel : ℕ}
  {seen roots roots' ids ids' : List Value} {order order' : List Block} {b : Block} {id : Value}

lemma enters_iff (hf : s.flow around = .ok f) (hid : b.id.same id = true) :
    f.enters seen id = true ↔ s.Enters seen b := by
  obtain ⟨hl, -, hi, -⟩ := Scene.flow_eq_ok hf
  rw [enters, hi, Bool.and_eq_true, Scene.allSeen_iff hl, Bool.not_eq_true',
    Value.memberOf_congr (Value.same_symm hid)]
  constructor
  · rintro ⟨hfresh, hall⟩
    refine ⟨hfresh, ?_⟩
    rintro a - ⟨w, hw, hsource, htarget⟩
    rw [Value.memberOf_congr hsource]
    exact hall w hw (Value.same_trans (Value.same_symm hid) htarget)
  · rintro ⟨hfresh, hinputs⟩
    refine ⟨hfresh, fun w hw htarget => ?_⟩
    obtain ⟨⟨a, ha, hsource⟩, -⟩ := Scene.wire_ends hw
    rw [Value.memberOf_congr hsource]
    exact hinputs a ha ⟨w, hw, Value.same_symm hsource, Value.same_trans hid htarget⟩

/-- What the chains that are started at `roots` in turn do: they visit blocks, and write their own
texts one after the other. -/
structure Gathers (f : Flow) (fuel : ℕ) (seen roots : List Value) (order : List Block)
    (ids : List Value) : Prop where
  named : List.Forall₂ (fun b id => b.id.same id = true) order ids
  visit : f.scene.Visit seen roots order
  text : ∀ indent text, roots.foldlM (f.extend fuel indent) (text, seen) = (do
    let texts ← order.mapM (f.ownText indent)
    pure (text ++ Text.concat texts, seen ++ ids))

namespace Gathers

lemma nil : f.Gathers fuel seen [] [] [] := by
  refine ⟨.nil, .nil, fun indent text => ?_⟩
  simp [Text.concat]

lemma append (h : f.Gathers fuel seen roots order ids)
    (h' : f.Gathers fuel (seen ++ ids) roots' order' ids') :
    f.Gathers fuel seen (roots ++ roots') (order ++ order') (ids ++ ids') := by
  refine ⟨List.rel_append h.named h'.named, h.visit.append (h'.visit.congr fun v => ?_), ?_⟩
  · rw [Value.memberOf_append, Value.memberOf_append, Block.memberOf_named h.named]
  · intro indent text
    rw [List.foldlM_append, h.text, List.mapM_append]
    simp only [bind_assoc, pure_bind, h'.text, Text.concat_append, String.append_assoc,
      List.append_assoc]

lemma skip (hf : s.flow around = .ok f) (h : f.enters seen id = false) :
    f.Gathers fuel seen [id] [] [] := by
  obtain ⟨-, rfl, -, -⟩ := Scene.flow_eq_ok hf
  refine ⟨.nil, .skip fun b hb he => ?_, fun indent text => ?_⟩
  · rw [(enters_iff hf hb).mpr he] at h
    exact Bool.noConfusion h
  · have hchain : f.chainFrom fuel seen indent true id = pure ("", seen) := by
      cases fuel with
      | zero => rfl
      | succ fuel => exact chainFrom_of_not_enters h
    simp [extend, hchain, Text.concat]

/-- A block that is entered writes its own text, and then what it is wired to is tried. -/
lemma enter (hf : s.flow around = .ok f) (hs : s.Named) (hb : b ∈ s.blocks)
    (hk : b.kind.isControl = false) (hid : b.id.same id = true) (he : f.enters seen id = true)
    {next : List Value} (hnext : s.sortByPlace (f.links.next b.id) = .ok next)
    (h : f.Gathers fuel (seen ++ [id]) next order ids) :
    f.Gathers (fuel + 1) seen [id] (b :: order) (id :: ids) := by
  obtain ⟨hl, rfl, -, -⟩ := Scene.flow_eq_ok hf
  refine ⟨.cons hid h.named, ?_, fun indent text => ?_⟩
  · have hroots : ∀ c : Block, c.id.memberOf next = true ↔ f.scene.Wired b c := by
      intro c
      rw [Value.memberOf_perm (Scene.sortByPlace_perm hnext)]
      exact Scene.memberOf_nextIds hl (Value.same_refl _)
    refine Scene.Visit.enter hb hid ((enters_iff hf hid).mp he) hroots (h.visit.congr fun v => ?_)
    rw [Value.memberOf_append, Value.memberOf_append, ← Block.memberOf_named (.cons hid .nil)]
    rfl
  · have hchain : f.chainFrom (fuel + 1) seen indent true id = _ :=
      chainFrom_plain he (hs.findBlock hb hid) hk
    simp only [if_true, hnext, ok_bind, h.text] at hchain
    simp [extend, hchain, Text.concat_cons]

/-- Chains that are started in turn gather what each of them does. -/
lemma exists_list (h : ∀ t ∈ roots, ∀ seen', seen <+: seen' →
    ∃ order ids, f.Gathers fuel seen' [t] order ids) :
    ∃ order ids, f.Gathers fuel seen roots order ids := by
  induction roots generalizing seen with
  | nil => exact ⟨[], [], .nil⟩
  | cons t rest ih =>
    obtain ⟨order, ids, hfirst⟩ := h t (by simp) seen List.prefix_rfl
    obtain ⟨order', ids', hrest⟩ := ih fun u hu seen' hseen =>
      h u (by simp [hu]) seen' ((List.prefix_append seen ids).trans hseen)
    exact ⟨order ++ order', ids ++ ids', hfirst.append hrest⟩

end Gathers

/-- In a scene without control blocks a chain gathers blocks, as long as the fuel covers what is
ahead of it. -/
lemma exists_gathers (hf : s.flow around = .ok f) (hs : s.Named)
    (hplain : ∀ b ∈ s.blocks, b.kind.isControl = false) (hb : b ∈ s.blocks)
    (hid : b.id.same id = true)
    (hfuel : f.enters seen id = true → f.ahead (seen ++ [id]) < fuel) :
    ∃ order ids, f.Gathers fuel seen [id] order ids := by
  obtain ⟨hl, -, -, -⟩ := Scene.flow_eq_ok hf
  induction fuel generalizing seen id b with
  | zero =>
    have hskip : f.enters seen id = false := by
      by_contra he
      exact absurd (hfuel (Bool.not_eq_false _ ▸ he)) (Nat.not_lt_zero _)
    exact ⟨[], [], .skip hf hskip⟩
  | succ fuel ih =>
    cases he : f.enters seen id with
    | false => exact ⟨[], [], .skip hf he⟩
    | true =>
      obtain ⟨next, hnext⟩ := hs.exists_sortByPlace hl b.id
      have hone : ∀ t ∈ next, ∀ seen', seen ++ [id] <+: seen' →
          ∃ order ids, f.Gathers fuel seen' [t] order ids := by
        intro t ht seen' hseen
        have hmem := (Scene.sortByPlace_perm hnext).mem_iff.mp ht
        obtain ⟨c, hc, hsame⟩ := Scene.exists_of_mem_nextIds hl hmem
        refine ih hc hsame fun henters => ?_
        have hless := ahead_lt (Links.mem_targets_of_mem_nextIds hmem) henters
        have hle := ahead_le (f := f) hseen
        have hbound := hfuel he
        omega
      obtain ⟨order, ids, hgathers⟩ := Gathers.exists_list hone
      exact ⟨b :: order, id :: ids, .enter hf hs hb (hplain b hb) hid he hnext hgathers⟩

/-- What a chain does: it adds the ids of some blocks to what was seen, and its text is made of
their own texts in that order. It fails exactly where the first of these fails. -/
structure Adds (f : Flow) (seen : List Value) (first : Value) (order : List Block)
    (ids : List Value) : Prop where
  named : List.Forall₂ (fun b id => b.id.same id = true) order ids
  text : ∀ indent, f.chain seen indent true first = (do
    let texts ← order.mapM (f.ownText indent)
    pure (Text.concat texts, seen ++ ids))

/-- The chain from a block of a scene without control blocks. -/
lemma exists_adds (hf : s.flow around = .ok f) (hs : s.Named)
    (hplain : ∀ b ∈ s.blocks, b.kind.isControl = false) {first : Block} (hfirst : first ∈ s.blocks)
    (seen : List Value) :
    ∃ order ids, f.Adds seen first.id order ids ∧ s.Visit seen [first.id] order := by
  obtain ⟨hl, hscene, -, -⟩ := Scene.flow_eq_ok hf
  have hfuel : f.ahead (seen ++ [first.id]) < f.depth := by
    have hle : f.ahead (seen ++ [first.id]) ≤ f.links.targets.length := List.countP_le_length
    rw [depth]
    omega
  obtain ⟨order, ids, h⟩ :=
    exists_gathers hf hs hplain hfirst (Value.same_refl _) fun _ => hfuel
  refine ⟨order, ids, ⟨h.named, fun indent => ?_⟩, hscene ▸ h.visit⟩
  have hkey : first.id.requireKey = .ok () := by
    rw [Value.requireKey, if_pos (Scene.isKey_of_mem_blocks hl hfirst)]
  have htext := h.text indent ""
  rw [chain, hkey, ok_bind]
  simpa [extend] using htext

end Flow

namespace Scene

variable {s : Scene} {around : Surroundings} {f : Flow} {l l' : Links} {seen : List Value}
  {place : Block → Value × Value} {first : Block}

lemma enters_redrawn (hl : s.links = .ok l) (hl' : (s.redrawn place).links = .ok l') {b : Block}
    {p : Value × Value} : (s.redrawn place).Enters seen (b.movedTo p) ↔ s.Enters seen b := by
  constructor
  · intro h
    refine ⟨h.fresh, fun a ha hw => ?_⟩
    exact h.inputs (a.movedTo (place a)) (mem_redrawn ha) ((wired_redrawn hl hl').mpr hw)
  · intro h
    refine ⟨h.fresh, fun a' ha' hw => ?_⟩
    obtain ⟨a, ha, rfl⟩ := List.mem_map.mp ha'
    exact h.inputs a ha ((wired_redrawn hl hl').mp hw)

lemma absorbs_redrawn (hl : s.links = .ok l) (hl' : (s.redrawn place).links = .ok l') {v : Value}
    {members : Set Value} :
    (s.redrawn place).Absorbs seen v members ↔ s.Absorbs seen v members := by
  constructor
  · intro h
    refine ⟨h.first, fun b hb hfresh hbehind hinputs => ?_⟩
    refine h.behind (b.movedTo (place b)) (mem_redrawn hb) hfresh ?_ fun a' ha' hw => ?_
    · obtain ⟨a, ha, hin, hw⟩ := hbehind
      exact ⟨_, mem_redrawn ha, hin, (wired_redrawn hl hl').mpr hw⟩
    · obtain ⟨a, ha, rfl⟩ := List.mem_map.mp ha'
      exact hinputs a ha ((wired_redrawn hl hl').mp hw)
  · intro h
    refine ⟨h.first, fun b' hb' hfresh hbehind hinputs => ?_⟩
    obtain ⟨b, hb, rfl⟩ := List.mem_map.mp hb'
    refine h.behind b hb hfresh ?_ fun a ha hw => ?_
    · obtain ⟨a', ha', hin, hw⟩ := hbehind
      obtain ⟨a, ha, rfl⟩ := List.mem_map.mp ha'
      exact ⟨a, ha, hin, (wired_redrawn hl hl').mp hw⟩
    · exact hinputs (a.movedTo (place a)) (mem_redrawn ha) ((wired_redrawn hl hl').mpr hw)

/-- Wherever the blocks of a scene are drawn, a chain visits the same of them. -/
lemma Visit.redrawn (hl : s.links = .ok l) (hl' : (s.redrawn place).links = .ok l') (hs : s.Named)
    (hfirst : first ∈ s.blocks) {order order' : List Block} (h : s.Visit seen [first.id] order)
    (h' : (s.redrawn place).Visit seen [first.id] order') (v : Value) :
    v ∈ order'.map Block.id ↔ v ∈ order.map Block.id := by
  have hmoved : (s.redrawn place).Visit seen [(first.movedTo (place first)).id] order' := h'
  by_cases he : s.Enters seen first
  · have hleast := h.isLeast hs hfirst he
    have hleast' := hmoved.isLeast (hs.redrawn place) (mem_redrawn hfirst)
      ((enters_redrawn hl hl').mpr he)
    have hsets : {members : Set Value | (s.redrawn place).Absorbs seen first.id members} =
        {members | s.Absorbs seen first.id members} := Set.ext fun _ => absorbs_redrawn hl hl'
    exact Set.ext_iff.mp (hleast'.unique (hsets ▸ hleast)) v
  · rw [h.eq_nil hs hfirst he, hmoved.eq_nil (hs.redrawn place) (mem_redrawn hfirst)
      (mt (enters_redrawn hl hl').mp he)]

/-- Where ways meet. In a scene of named blocks without control blocks, a chain adds nothing if its
first block was seen or lacks an input; otherwise it adds the least set that contains this block and
every unseen block behind a member, all of whose inputs were seen or are members. It writes the own
texts of what it adds, each block once and behind its inputs, and adds the same wherever the blocks
are drawn. -/
theorem chain_adds_closure (hf : s.flow around = .ok f) (hs : s.Named)
    (hplain : ∀ b ∈ s.blocks, b.kind.isControl = false) (hfirst : first ∈ s.blocks)
    (seen : List Value) :
    ∃ order ids, f.Adds seen first.id order ids ∧ order.Nodup ∧ order ⊆ s.blocks ∧
      (¬s.Enters seen first → order = []) ∧
      (s.Enters seen first →
        IsLeast {members | s.Absorbs seen first.id members} {v | v ∈ order.map Block.id}) ∧
      (∀ a ∈ order, ∀ b ∈ order, s.Wired a b → [a, b].Sublist order) ∧
      ∀ place f', (s.redrawn place).flow around = .ok f' →
        ∃ order' ids', f'.Adds seen first.id order' ids' ∧
          ∀ v, v ∈ order'.map Block.id ↔ v ∈ order.map Block.id := by
  obtain ⟨order, ids, hadds, hvisit⟩ := Flow.exists_adds hf hs hplain hfirst seen
  refine ⟨order, ids, hadds, hvisit.steps.nodup, fun b hb => hvisit.steps.mem hb,
    hvisit.eq_nil hs hfirst, hvisit.isLeast hs hfirst,
    fun a ha b hb hw => hvisit.steps.input_before hs ha hb hw, fun place f' hf' => ?_⟩
  have hplain' : ∀ b ∈ (s.redrawn place).blocks, b.kind.isControl = false := by
    intro b hb
    obtain ⟨c, hc, rfl⟩ := List.mem_map.mp hb
    exact hplain c hc
  obtain ⟨order', ids', hadds', hvisit'⟩ := Flow.exists_adds hf' (hs.redrawn place) hplain'
    (mem_redrawn hfirst) seen
  exact ⟨order', ids', hadds',
    hvisit.redrawn (flow_eq_ok hf).1 (flow_eq_ok hf').1 hs hfirst hvisit'⟩

/-- The block where the ways meet is passed over behind the left one, and written behind the right
one. -/
theorem meetingScene_chain :
    meetingScene.Named ∧ (∀ b ∈ meetingScene.blocks, b.kind.isControl = false) ∧
      ∃ (f : Flow) (order : List Block),
        meetingScene.flow { cast := none, labels := none } = .ok f ∧
        f.Adds [] (.text "top") order [.text "top", .text "left", .text "right", .text "end"] ∧
        f.chain [] "" true (.text "top") = .ok ("\"left\"\n\"right\"\n\"end\"\n",
          [.text "top", .text "left", .text "right", .text "end"]) ∧
        IsLeast {members | meetingScene.Absorbs [] (.text "top") members}
          {v | v ∈ order.map Block.id} := by
  have hs : meetingScene.Named := by decide
  have hplain : ∀ b ∈ meetingScene.blocks, b.kind.isControl = false := by decide
  obtain ⟨f, hf, hrun⟩ : ∃ f, meetingScene.flow { cast := none, labels := none } = .ok f ∧
      f.chain [] "" true (.text "top") = .ok ("\"left\"\n\"right\"\n\"end\"\n",
        [.text "top", .text "left", .text "right", .text "end"]) := ⟨_, rfl, rfl⟩
  obtain ⟨first, hfirst, hid, henters⟩ : ∃ first ∈ meetingScene.blocks, first.id = .text "top" ∧
      meetingScene.Enters [] first := by
    refine ⟨meetingScene.blocks[3], by decide, rfl, rfl, ?_⟩
    decide
  obtain ⟨order, ids, hadds, -, -, -, hleast, -⟩ := chain_adds_closure hf hs hplain hfirst []
  rw [hid] at hadds hleast
  have hids := hadds.text ""
  rw [hrun] at hids
  obtain ⟨texts, -, hids⟩ := bind_eq_ok.mp hids.symm
  rw [pure_eq_ok, Prod.mk.injEq, List.nil_append] at hids
  obtain ⟨-, rfl⟩ := hids
  exact ⟨hs, hplain, f, order, hf, hadds, hrun, hleast henters⟩

/-- A block that is not found under its id, and one behind it. -/
def adriftScene : Scene where
  id := .text "s"
  name := .text "Scene"
  label := .text "start"
  blocks := [strayBlock "n" 0 0, { toldBlock "b" 0 3 with id := .int 2 }]
  ports :=
    [{ id := .text "n.o", nodeId := .float .nan, name := .text "out", direction := .output },
      { id := .text "b.i", nodeId := .int 2, name := .text "in", direction := .input }]
  connections := [{ id := .text "1", fromPort := .text "n.o", toPort := .text "b.i" }]

/-- A chain takes note of a block that is not found and stops there. It writes nothing, and the
block behind it is not added, although it belongs to every set that absorbs what can be entered. -/
theorem adriftScene_chain :
    adriftScene.DistinctKeys ∧ (∀ b ∈ adriftScene.blocks, b.kind.isControl = false) ∧
      adriftScene.Enters [] (strayBlock "n" 0 0) ∧
      (∀ members, adriftScene.Absorbs [] (.float .nan) members → .int 2 ∈ members) ∧
      ∃ f, adriftScene.flow { cast := none, labels := none } = .ok f ∧
        f.chain [] "" true (.float .nan) = .ok ("", [.float .nan]) := by
  have henters : adriftScene.Enters [] (strayBlock "n" 0 0) := ⟨rfl, by decide⟩
  have hbehind : ∀ members, adriftScene.Absorbs [] (.float .nan) members → .int 2 ∈ members := by
    intro members h
    refine h.behind { toldBlock "b" 0 3 with id := .int 2 } (by decide) rfl
      ⟨strayBlock "n" 0 0, by decide, h.first, by decide⟩ ?_
    intro a ha hw
    simp only [adriftScene, List.mem_cons, List.not_mem_nil, or_false] at ha
    rcases ha with rfl | rfl
    · exact .inr h.first
    · exact absurd hw (by decide)
  exact ⟨by decide, by decide, henters, hbehind, _, rfl, rfl⟩

end Scene
end NovelGraph
