import Mathlib.Algebra.Order.BigOperators.Group.List
import Mathlib.Algebra.Order.Group.Nat
import NovelGraph.Proofs.ControlHeaders
import NovelGraph.Proofs.LineCount

/-! How often the line of a block stands in the text of its scene: once where the block is written,
and again in the suites of the control blocks before it. -/
namespace NovelGraph

open Outcome Relation Script Text

namespace Script

/-- A condition on lines that is met by none that control statements bring along. -/
structure OfBlocks (p : String → Bool) : Prop where
  empty : p "" = false
  pass : p "pass" = false
  otherwise : p "else:" = false

/-- How many of the successors of a block begin a suite of it. -/
def suites : BlockKind → ℕ
  | .ifElse => 2
  | .whileLoop | .forLoop => 1
  | _ => 0

variable {p : String → Bool} {indent line : String} {ps : Params}

lemma countLines_header (hp : OfBlocks p) (hi : Spaces indent) {kind : BlockKind}
    (h : header? kind ps = some line) (rest : String) :
    countLines p (indent ++ line ++ rest) = countLines p line + countLines p rest := by
  rw [countLines_append hp.empty (endsLine_append_of_last indent (header?_last h)),
    countLines_indent hi]

lemma countLines_conditional (hp : OfBlocks p) (hi : Spaces indent)
    (h : header? .ifElse ps = some line) (yes no : String) :
    countLines p (conditional indent ps yes no) =
      countLines p line + (countLines p yes + countLines p no) := by
  have hother : countLines p (if no.isEmpty then "" else indent ++ "else:\n" ++ suite indent no) =
      countLines p no := by
    split_ifs with he
    · rw [String.isEmpty_iff.mp he]
    · have hword : "else:\n" = "else:" ++ "\n" := rfl
      rw [countLines_append hp.empty (endsLine_append_of_last indent rfl),
        countLines_word hp.empty hi hword (by decide) rfl hp.otherwise,
        countLines_suite hp.empty hi, Nat.zero_add]
  rw [conditional_eq h, countLines_header hp hi h,
    countLines_append hp.empty (body_endsLine _ _), countLines_body hp.empty hp.pass hi, hother]

lemma countLines_whileLoop (hp : OfBlocks p) (hi : Spaces indent)
    (h : header? .whileLoop ps = some line) (text : String) :
    countLines p (whileLoop indent ps text) = countLines p line + countLines p text := by
  rw [whileLoop_eq h, countLines_header hp hi h, countLines_body hp.empty hp.pass hi]

lemma countLines_forLoop (hp : OfBlocks p) (hi : Spaces indent)
    (h : header? .forLoop ps = some line) (text : String) :
    countLines p (forLoop indent ps text) = countLines p line + countLines p text := by
  rw [forLoop_eq h, countLines_header hp hi h, countLines_body hp.empty hp.pass hi]

end Script

/-- A block that writes no line of a kind, neither by itself nor as its header. -/
structure Block.Silent (p : String → Bool) (around : Surroundings) (b : Block) : Prop where
  own : ∀ {indent text}, Spaces indent → b.render indent around = .ok text → countLines p text = 0
  header : ∀ {ps line}, b.paramList = .ok ps → header? b.kind ps = some line →
    countLines p line = 0

namespace Flow

variable {f : Flow} {fuel : ℕ} {seen seen' : List Value} {indent text : String} {follow : Bool}
  {id : Value} {b : Block} {p : String → Bool}

/-- The lines of a control statement are those of its header and of its suites. -/
lemma ControlText.countLines_eq (hp : OfBlocks p) (hi : Spaces indent)
    (h : f.ControlText fuel seen indent b text) :
    text = "" ∨ ∃ ps line branches, b.paramList = .ok ps ∧ header? b.kind ps = some line ∧
      List.Forall₂ (fun n branch => f.branchFrom fuel seen indent b n = .ok branch)
        (List.range (suites b.kind)) branches ∧
      countLines p text = countLines p line + (branches.map (countLines p)).sum := by
  cases h with
  | silent => exact .inl rfl
  | @ifElse ps yes no kind params first second =>
    cases hl : header? .ifElse ps with
    | none => exact .inl (conditional_of_no_header hl indent yes no)
    | some line =>
      refine .inr ⟨ps, line, [yes, no], params, kind ▸ hl, ?_, ?_⟩
      · rw [kind]
        exact .cons first (.cons second .nil)
      · simp [countLines_conditional hp hi hl]
  | @whileLoop ps inner kind params first =>
    cases hl : header? .whileLoop ps with
    | none => exact .inl (whileLoop_of_no_header hl indent inner)
    | some line =>
      refine .inr ⟨ps, line, [inner], params, kind ▸ hl, ?_, ?_⟩
      · rw [kind]
        exact .cons first .nil
      · simp [countLines_whileLoop hp hi hl]
  | @forLoop ps inner kind params first =>
    cases hl : header? .forLoop ps with
    | none => exact .inl (forLoop_of_no_header hl indent inner)
    | some line =>
      refine .inr ⟨ps, line, [inner], params, kind ▸ hl, ?_, ?_⟩
      · rw [kind]
        exact .cons first .nil
      · simp [countLines_forLoop hp hi hl]

lemma wired_of_mem_next (hl : f.scene.links = .ok f.links) {t : Value × Double}
    (ht : t ∈ f.links.next b.id) {d : Block} (hd : f.scene.findBlock t.1 = some d) :
    f.scene.Wired b d := by
  obtain ⟨w, hw, hsource, rfl⟩ := (Scene.mem_next hl).mp ht
  exact ⟨w, hw, hsource, Value.same_of_equals (Scene.findBlock_equals hd)⟩

lemma ownText_endsLine (hb : b ∈ f.scene.blocks) (h : f.ownText indent b = .ok text) :
    EndsLine text :=
  (ownText_assembled hb h).endsLine fun hown => Block.render_endsLine hown.2

lemma chainFrom_endsLine (h : f.chainFrom fuel seen indent follow id = .ok (text, seen')) :
    EndsLine text :=
  (chainFrom_assembled h).endsLine fun hown => Block.render_endsLine hown.2

section Silent

variable {P : Block → Prop} (hp : OfBlocks p) (hl : f.scene.links = .ok f.links)
  (hclosed : ∀ {a c}, P a → c ∈ f.scene.blocks → f.scene.Wired a c → P c)
  (hsilent : ∀ a ∈ f.scene.blocks, P a → a.Silent p f.around)

include hp hsilent

lemma ownText_countLines_eq_zero (hi : Spaces indent) (hb : b ∈ f.scene.blocks) (hP : P b)
    (h : f.ownText indent b = .ok text) : countLines p text = 0 := by
  unfold ownText at h
  split at h
  · cases h
    exact countLines_empty hp.empty
  · exact (hsilent b hb hP).own hi h

include hl hclosed

/-- Where only silent blocks can be reached, a chain has no such line. -/
theorem chainFrom_countLines_eq_zero (hi : Spaces indent)
    (hid : ∀ b, f.scene.findBlock id = some b → P b)
    (h : f.chainFrom fuel seen indent follow id = .ok (text, seen')) : countLines p text = 0 := by
  induction fuel generalizing seen indent follow id text seen' with
  | zero =>
    cases h
    exact countLines_empty hp.empty
  | succ fuel ih =>
    -- the silent blocks are closed under wires, so all chains that start here begin at one
    have hnext : ∀ {b : Block} {t}, f.scene.findBlock id = some b → t ∈ f.links.next b.id →
        ∀ d, f.scene.findBlock t.1 = some d → P d := by
      intro b t hb ht d hd
      exact hclosed (hid b hb) (Scene.findBlock_mem hd) (wired_of_mem_next hl ht hd)
    cases chainFrom_step h with
    | skipped => exact countLines_empty hp.empty
    | missing => exact countLines_empty hp.empty
    | control _ found written =>
      rcases written.countLines_eq hp hi with rfl | ⟨ps, line, branches, hps, hh, hall, hcount⟩
      · exact countLines_empty hp.empty
      · have hbranch : ∀ branch ∈ branches, countLines p branch = 0 := by
          intro branch hmem
          obtain ⟨n, -, hn⟩ := exists_left_of_forall₂ hall hmem
          rcases branchFrom_eq_ok hn with rfl | ⟨next, after, hat, hchain⟩
          · exact countLines_empty hp.empty
          · obtain ⟨t, ht, rfl⟩ := List.mem_map.mp (List.mem_of_getElem? hat)
            exact ih (hi.append spaces_indentation) (hnext found ht) hchain
        rw [hcount, (hsilent _ (Scene.findBlock_mem found) (hid _ found)).header hps hh,
          Nat.zero_add, List.sum_eq_zero_iff_forall_eq_nat]
        simpa using hbranch
    | single _ found written =>
      exact ownText_countLines_eq_zero hp hsilent hi (Scene.findBlock_mem found) (hid _ found)
        written
    | followed _ found written order rest =>
      have hb := Scene.findBlock_mem found
      refine (foldlM_invariant (fun done : String × List Value =>
        EndsLine done.1 ∧ countLines p done.1 = 0) ?_ ?_ rest).2
      · intro v hv done done' hdone hstep
        obtain ⟨more, hmore, htext⟩ := extend_eq_ok hstep
        obtain ⟨t, ht, rfl⟩ := List.mem_map.mp ((Scene.sortByPlace_perm order).mem_iff.mp hv)
        rw [htext, endsLine_append, countLines_append hp.empty hdone.1, hdone.2,
          Nat.zero_add]
        exact ⟨⟨chainFrom_endsLine hmore, fun _ => hdone.1⟩, ih hi (hnext found ht) hmore⟩
      · exact ⟨ownText_endsLine hb written,
          ownText_countLines_eq_zero hp hsilent hi hb (hid _ found) written⟩

end Silent

/-- A chain that enters a block has the line of it. -/
lemma chainFrom_countLines_pos (hp : OfBlocks p) (he : f.enters seen id = true)
    (hb : f.scene.findBlock id = some b) (hk : b.kind.isControl = false)
    (hdef : b.kind.isDefinition = false)
    (hown : ∀ {text}, b.render indent f.around = .ok text → countLines p text = 1)
    (h : f.chainFrom (fuel + 1) seen indent true id = .ok (text, seen')) :
    1 ≤ countLines p text := by
  rw [chainFrom_plain he hb hk, bind_eq_ok] at h
  obtain ⟨own, hrender, h⟩ := h
  obtain ⟨order, -, h⟩ := bind_eq_ok.mp h
  have hfirst : EndsLine own ∧ 1 ≤ countLines p own := by
    refine ⟨ownText_endsLine (Scene.findBlock_mem hb) hrender, ?_⟩
    rw [ownText, hdef, if_neg Bool.false_ne_true] at hrender
    rw [hown hrender]
  -- what follows is appended, and cannot take the line away again
  refine (foldlM_invariant (fun done : String × List Value =>
    EndsLine done.1 ∧ 1 ≤ countLines p done.1) ?_ ?_ h).2
  · intro v _ done done' hdone hstep
    obtain ⟨more, hmore, htext⟩ := extend_eq_ok hstep
    rw [htext, endsLine_append, countLines_append hp.empty hdone.1]
    exact ⟨⟨chainFrom_endsLine hmore, fun _ => hdone.1⟩, Nat.le_add_right_of_le hdone.2⟩
  · exact hfirst

/-- A control block that is entered has the line of a block at the head of one of its suites. -/
lemma chainFrom_countLines_pos_of_suite (hp : OfBlocks p) (hi : Spaces indent)
    (he : f.enters seen id = true) {c : Block} (hc : f.scene.findBlock id = some c) {ps : Params}
    {line : String} (hps : c.paramList = .ok ps) (hh : header? c.kind ps = some line) {n : ℕ}
    {next : Value} (hn : n < suites c.kind) (hat : (f.links.nextIds c.id)[n]? = some next)
    (henter : f.enters (seen ++ [id]) next = true) (hb : f.scene.findBlock next = some b)
    (hk : b.kind.isControl = false) (hdef : b.kind.isDefinition = false)
    (hown : ∀ {indent text}, Spaces indent → b.render indent f.around = .ok text →
      countLines p text = 1)
    (h : f.chainFrom (fuel + 1 + 1) seen indent follow id = .ok (text, seen')) :
    1 ≤ countLines p text := by
  obtain ⟨-, hcontrol⟩ := chainFrom_control he hc (isControl_of_header? hh) h
  obtain ⟨rest, hrest⟩ := chainFrom_header he hc hps hh h
  rcases hcontrol.countLines_eq hp hi with rfl | ⟨ps', line', branches, -, -, hall, hcount⟩
  · have hlast := header?_last hh
    rw [(String.append_eq_empty_iff.mp (String.append_eq_empty_iff.mp hrest.symm).1).2] at hlast
    simp at hlast
  · obtain ⟨branch, hmem, hbranch⟩ := exists_left_of_forall₂ hall.flip (List.mem_range.mpr hn)
    have hbranch : f.branchFrom (fuel + 1) (seen ++ [id]) indent c n = .ok branch := hbranch
    rw [branchFrom, hat, bind_eq_ok] at hbranch
    obtain ⟨⟨inner, after⟩, hchain, hpure⟩ := hbranch
    obtain rfl : inner = branch := Except.ok.inj hpure
    have hone := chainFrom_countLines_pos hp henter hb hk hdef
      (hown (hi.append spaces_indentation)) hchain
    have hle : countLines p inner ≤ (branches.map (countLines p)).sum :=
      List.le_sum_of_mem (List.mem_map_of_mem hmem)
    omega

/-- What a chunk holds: the line of a block, or the chain of a control block. -/
lemma Contributes.cases {c : Chunk} (h : f.Contributes seen c) :
    (∃ indent, Spaces indent ∧ c.block.render indent f.around = .ok c.text) ∨
      c.block.kind.isControl = true ∧
        ∃ after, f.chain seen indentation true c.block.id = .ok (c.text, after) := by
  have hcontrol : c.block.kind.isControl = true → (c.text = "" ∨
      ∃ after, f.chain seen indentation true c.block.id = .ok (c.text, after)) →
      (∃ indent, Spaces indent ∧ c.block.render indent f.around = .ok c.text) ∨
        c.block.kind.isControl = true ∧
          ∃ after, f.chain seen indentation true c.block.id = .ok (c.text, after) := by
    rintro hk (he | hc)
    · refine .inl ⟨"", spaces_empty, ?_⟩
      rw [Block.render_of_control hk, he]
    · exact .inr ⟨hk, hc⟩
  unfold Contributes at h
  split at h
  · rename_i hk
    exact .inl ⟨"", spaces_empty, by simpa [Block.render, hk] using h⟩
  · rename_i hk
    exact hcontrol (by rw [hk]; rfl) h
  · rename_i hk
    exact hcontrol (by rw [hk]; rfl) h
  · rename_i hk
    exact hcontrol (by rw [hk]; rfl) h
  · exact .inl ⟨indentation, spaces_indentation, h⟩

lemma Contributes.countLines_eq_zero {P : Block → Prop} (hp : OfBlocks p)
    (hl : f.scene.links = .ok f.links) (hs : f.scene.DistinctIds)
    (hclosed : ∀ {a c}, P a → c ∈ f.scene.blocks → f.scene.Wired a c → P c)
    (hsilent : ∀ a ∈ f.scene.blocks, P a → a.Silent p f.around) {c : Chunk}
    (hb : c.block ∈ f.scene.blocks) (hP : P c.block) (h : f.Contributes seen c) :
    countLines p c.text = 0 := by
  rcases h.cases with ⟨indent, hi, hrender⟩ | ⟨-, after, hchain⟩
  · exact (hsilent c.block hb hP).own hi hrender
  · obtain ⟨-, -, hchain⟩ := bind_eq_ok.mp hchain
    refine chainFrom_countLines_eq_zero hp hl hclosed hsilent spaces_indentation ?_ hchain
    intro b hfound
    rwa [hs.findBlock_eq hb (Value.same_refl _) hfound]

/-- One block is the first of a suite of another, and can be reached from there only. -/
def HeadsSuite (f : Flow) (b c : Block) : Prop :=
  (∃ n next, n < suites c.kind ∧ (f.links.nextIds c.id)[n]? = some next ∧ b.id.same next = true) ∧
    ∀ w ∈ f.scene.wires, b.id.same w.target = true → c.id.same w.source = true

section Ranked

variable {s : Scene} {around : Surroundings} {entries : List Block} {ranks : Ranks}
  {ranked before after : List Chunk} {c : Chunk} {last : List Value}

/-- A block is not written before its only input. -/
lemma notMem_before_of_only_input (hf : s.flow around = .ok f) (hs : s.DistinctIds)
    (hranking : f.Ranking entries ranks)
    (hranked : f.rankedChunks ((Order.sortByKey (·.2) Rank.lt ranks).map (·.1)) [] =
      .ok (ranked, last)) (hcut : ranked = before ++ c :: after)
    (hentry : ∀ e ∈ entries, b.id.same e.id = false) (hw : s.Wired c.block b)
    (honly : ∀ w ∈ s.wires, b.id.same w.target = true → c.block.id.same w.source = true) :
    b ∉ before.map (·.block) := by
  intro hmem
  obtain ⟨d, hd, rfl⟩ := List.mem_map.mp hmem
  obtain ⟨front, back, hsplit⟩ := List.append_of_mem hd
  have hearly : ranked = front ++ d :: (back ++ c :: after) := by simp [hcut, hsplit]
  have hwritten := rankedChunks_written hranked
  obtain ⟨hfound, hk⟩ := hwritten.block_mem (c := c) (by simp [hcut])
  have hc := (Scene.flow_eq_ok hf).2.1 ▸ Scene.findBlock_mem hfound
  have hbefore : f.Before ranks c.block d.block := by
    refine hranking.before_of_only_input hf hw honly hentry ?_ ?_
    · rw [Dict.contains_eq_isSome]
      exact isSome_of_rankedChunks hf hs hranking hranked hcut
    · rw [Dict.contains_eq_isSome]
      exact isSome_of_rankedChunks hf hs hranking hranked hearly
  have hfront := (mem_before_iff hf hs hranking hranked hearly hc hk hw).mpr hbefore
  have hnodup := hwritten.nodup
  rw [hearly, List.map_append] at hnodup
  exact (List.nodup_append.mp hnodup).2.2 _ hfront c.block (by simp) rfl

/-- The head of a suite is entered from its control block. -/
lemma enters_of_headsSuite (hf : s.flow around = .ok f) (hs : s.DistinctIds)
    (hranking : f.Ranking entries ranks)
    (hranked : f.rankedChunks ((Order.sortByKey (·.2) Rank.lt ranks).map (·.1)) [] =
      .ok (ranked, last)) (hcut : ranked = before ++ c :: after) {marks : List Value}
    (hmarks : List.Forall₂ (fun d mark => d.block.id.same mark = true) before marks)
    (hb : b ∈ s.blocks) (hentry : ∀ e ∈ entries, b.id.same e.id = false) {next : Value}
    (hnext : next ∈ f.links.nextIds c.block.id) (hsame : b.id.same next = true)
    (hfound : s.findBlock next = some b)
    (honly : ∀ w ∈ s.wires, b.id.same w.target = true → c.block.id.same w.source = true) :
    f.enters (marks ++ [c.block.id]) next = true := by
  obtain ⟨hl, rfl, hi, -⟩ := Scene.flow_eq_ok hf
  obtain ⟨t, ht, rfl⟩ := List.mem_map.mp hnext
  have hw : f.scene.Wired c.block b := wired_of_mem_next hl ht hfound
  have hwritten := rankedChunks_written hranked
  have hnew : t.1.memberOf (marks ++ [c.block.id]) = false := by
    rw [Bool.eq_false_iff, Value.memberOf_append, Value.memberOf_singleton, ne_eq, Bool.or_eq_true]
    rintro (hm | hm)
    · obtain ⟨d, hd, htd⟩ := (memberOf_marks hmarks).mp hm
      have hdb := hs.findBlock_eq hb (Value.same_trans hsame htd)
        (hwritten.block_mem (c := d) (by simp [hcut, hd])).1
      exact notMem_before_of_only_input hf hs hranking hranked hcut hentry hw honly
        (hdb ▸ List.mem_map_of_mem hd)
    · have hcb := hs.findBlock_eq hb (Value.same_trans hsame hm)
        (hwritten.block_mem (c := c) (by simp [hcut])).1
      exact hranking.not_wired_self hf (isSome_of_rankedChunks hf hs hranking hranked hcut)
        (hcb.symm ▸ hw)
  rw [enters, hnew, Bool.not_false, Bool.true_and, hi, Scene.allSeen_iff hl]
  intro w hwire htarget
  have hsource := Value.same_symm (honly w hwire (Value.same_trans hsame htarget))
  rw [Value.memberOf_append, Value.memberOf_singleton, hsource, Bool.or_true]

end Ranked
end Flow

namespace Scene

/-- The lines of a kind are those of certain blocks, one whenever such a block is written. -/
structure LinesOf (s : Scene) (around : Surroundings) (p : String → Bool) (q : Block → Bool) :
    Prop where
  lines : OfBlocks p
  plain : ∀ b ∈ s.blocks, q b = true → b.kind.isControl = false
  written : ∀ b ∈ s.blocks, q b = true → b.kind.isDefinition = false
  own : ∀ b ∈ s.blocks, q b = true → ∀ {indent text}, Spaces indent →
    b.render indent around = .ok text → countLines p text = 1
  rest : ∀ b ∈ s.blocks, q b = false → b.Silent p around

/-- How many lines of a kind stand in the texts of control blocks. -/
def repeats (s : Scene) (around : Surroundings) (p : String → Bool) : ℕ :=
  match s.chunks around with
  | .ok chunks => ((chunks.filter (·.block.kind.isControl)).map fun c => countLines p c.text).sum
  | .error _ => 0

variable {s : Scene} {cast : Option Cast} {labels : List String} {text : String} {b : Block}
  {p : String → Bool} {q : Block → Bool} {around : Surroundings} {chunks : List Chunk}

lemma repeats_eq (h : s.chunks around = .ok chunks) : s.repeats around p =
    ((chunks.filter (·.block.kind.isControl)).map fun c => countLines p c.text).sum := by
  rw [repeats, h]

/-- The lines of a scene are those of its chunks. -/
lemma countLines_chunks (hp : OfBlocks p) (hs : s.DistinctIds) (h : s.chunks around = .ok chunks) :
    countLines p (concat (chunks.map (·.text)) ++ "\n") =
      (chunks.map fun c => countLines p c.text).sum := by
  rw [countLines_newline hp.empty, countLines_concat hp.empty (chunks_endsLine hs h), List.map_map]
  rfl

/-- Chunks of which the plain ones hold a line if they belong to certain blocks. -/
lemma sum_countLines (hq : ∀ c ∈ chunks, q c.block = true → c.block.kind.isControl = false)
    (h : ∀ c ∈ chunks, c.block.kind.isControl = false →
      countLines p c.text = if q c.block then 1 else 0) :
    (chunks.map fun c => countLines p c.text).sum = (chunks.map (·.block)).countP q +
      ((chunks.filter (·.block.kind.isControl)).map fun c => countLines p c.text).sum := by
  induction chunks with
  | nil => rfl
  | cons c rest ih =>
    have hrest := ih (fun d hd => hq d (by simp [hd])) fun d hd => h d (by simp [hd])
    rw [List.map_cons, List.map_cons, List.sum_cons, List.countP_cons, hrest]
    cases hk : c.block.kind.isControl with
    | true =>
      have hne : ¬q c.block = true := fun heq => by simp [hq c (by simp) heq] at hk
      have hfilter : (c :: rest).filter (·.block.kind.isControl) =
          c :: rest.filter (·.block.kind.isControl) := List.filter_cons_of_pos hk
      rw [hfilter, List.map_cons, List.sum_cons, if_neg hne]
      omega
    | false =>
      rw [List.filter_cons_of_neg (by simp [hk]), h c (by simp) hk]
      omega

namespace LinesOf

/-- The line of a block stands in its own chunk, and wherever control blocks repeat it. -/
theorem countLines_script (hs : s.DistinctIds)
    (hq : s.LinesOf { cast, labels := some labels } p q) (h : s.script cast labels = .ok text) :
    countLines p text = s.blocks.countP q + s.repeats { cast, labels := some labels } p := by
  by_cases hne : s.blocks = []
  · -- the text of a scene without blocks is not made of chunks
    have hnone : s.repeats { cast, labels := some labels } p = 0 := by
      cases hc : s.chunks { cast, labels := some labels } with
      | error e => rw [repeats, hc]
      | ok chunks =>
        obtain ⟨f, -, hcover⟩ := chunks_covers hs hc
        have hperm := hcover.perm
        rw [hne, List.filter_nil, List.perm_nil, List.map_eq_nil_iff] at hperm
        rw [repeats_eq hc, hperm]
        rfl
    rw [script, hne] at h
    cases h
    have hword : "pass\n" = "pass" ++ "\n" := rfl
    have hpass := countLines_word hq.lines.empty spaces_empty hword (by decide) rfl hq.lines.pass
    rw [hnone, hne]
    exact (countLines_newline hq.lines.empty "pass\n").trans hpass
  · obtain ⟨chunks, hc, rfl⟩ := script_eq_ok hne h
    obtain ⟨f, hf, hcover⟩ := chunks_covers hs hc
    have haround := (flow_eq_ok hf).2.2.2
    have hin : ∀ c ∈ chunks, c.block ∈ s.blocks := by
      intro c hmem
      obtain ⟨hb, -⟩ := hcover.of_mem hmem
      exact (List.mem_filter.mp hb).1
    have hkept : (s.blocks.filter (!·.kind.isDefinition)).countP q = s.blocks.countP q := by
      rw [List.countP_filter]
      refine List.countP_congr fun b hb => ?_
      rw [Bool.and_eq_true, and_iff_left_iff_imp]
      intro hqb
      simp [hq.written b hb hqb]
    rw [countLines_chunks hq.lines hs hc, repeats_eq hc, ← hkept, ← hcover.perm.countP_eq]
    refine sum_countLines (fun c hmem => hq.plain c.block (hin c hmem)) ?_
    intro c hmem hk
    obtain ⟨-, seen, htext⟩ := hcover.of_mem hmem
    rcases htext.cases with ⟨indent, hi, hrender⟩ | ⟨hcontrol, -⟩
    · rw [haround] at hrender
      cases hqc : q c.block with
      | true => exact hq.own c.block (hin c hmem) hqc hi hrender
      | false => exact (hq.rest c.block (hin c hmem) hqc).own hi hrender
    · simp [hk] at hcontrol

/-- Control blocks from which no such block can be reached repeat nothing. -/
theorem repeats_eq_zero (hs : s.DistinctIds) (hq : s.LinesOf around p q)
    (hfree : ∀ c ∈ s.blocks, c.kind.isControl = true → ∀ b ∈ s.blocks, q b = true →
      ¬TransGen s.Wired c b) : s.repeats around p = 0 := by
  cases hc : s.chunks around with
  | error e => rw [repeats, hc]
  | ok chunks =>
    obtain ⟨f, hf, hcover⟩ := chunks_covers hs hc
    obtain ⟨hl, rfl, -, rfl⟩ := flow_eq_ok hf
    rw [repeats_eq hc, List.sum_eq_zero_iff_forall_eq_nat]
    intro n hn
    obtain ⟨c, hmem, rfl⟩ := List.mem_map.mp hn
    obtain ⟨hc, hk⟩ := List.mem_filter.mp hmem
    obtain ⟨hb, seen, htext⟩ := hcover.of_mem hc
    have hin := (List.mem_filter.mp hb).1
    -- a chain comes only to blocks from which no block of the kind can be reached
    refine htext.countLines_eq_zero
      (P := fun a => ∀ b ∈ f.scene.blocks, q b = true → ¬ReflTransGen f.scene.Wired a b)
      hq.lines hl hs ?_ ?_ hin ?_
    · intro a d ha _ hw b hb hqb hd
      exact ha b hb hqb (.head hw hd)
    · intro a ha hna
      refine hq.rest a ha ?_
      rw [Bool.eq_false_iff]
      exact fun hqa => hna a ha hqa .refl
    · intro b hb hqb hreach
      rcases reflTransGen_iff_eq_or_transGen.mp hreach with rfl | hreach
      · rw [hq.plain _ hin hqb] at hk
        exact Bool.noConfusion hk
      · exact hfree c.block hin hk b hb hqb hreach

section Again

variable {f : Flow} {entries : List Block} {ranks : Ranks} {ps : Params} {line : String}
  (hs : s.DistinctIds) (hfound : ∀ b ∈ s.blocks, s.findBlock b.id = some b)
  (hq : s.LinesOf { cast, labels := some labels } p q)
  (hstart : ∃ b ∈ s.blocks, b.kind = .start) (hb : b ∈ s.blocks) (hqb : q b = true)
  (hk : b.kind ≠ .start) (hf : s.flow { cast, labels := some labels } = .ok f)
  (he : s.entryBlocks f.links = .ok entries) (hr : f.ranks entries = .ok ranks)

include hs hfound hq hstart hb hqb hk hf he hr

/-- A control block that is written has the line if the block is at the head of one of its suites. -/
lemma countLines_chunk_pos (hchunks : f.entryChunks entries = .ok chunks) {k : Chunk}
    (hmem : k ∈ chunks) (hps : k.block.paramList = .ok ps)
    (hh : header? k.block.kind ps = some line) (hopen : f.Opens ranks k.block)
    (hhead : f.HeadsSuite b k.block) : 1 ≤ countLines p k.text := by
  obtain ⟨hl, rfl, hi, haround⟩ := flow_eq_ok hf
  obtain ⟨⟨n, next, hn, hat, hsame⟩, honly⟩ := hhead
  rcases Flow.entryChunks_cases hf hs hr hchunks hmem with
    ⟨ranked, last, before, after, marks, seen', hranked, hcut, hmarks, hchunk, hiff⟩ | ⟨-, hnot⟩
  · have hkey := ((Flow.rankedChunks_written hranked).block_mem (c := k) (by simp [hcut])).1
    have hnext : f.scene.findBlock next = some b := by
      rw [← findBlock_congr f.scene hsame, hfound b hb]
    rw [Flow.rankedChunk_of_control (isControl_of_header? hh), bind_eq_ok] at hchunk
    obtain ⟨⟨inner, after'⟩, hchain, hpure⟩ := hchunk
    have htext : inner = k.text := congrArg Chunk.text (Prod.mk.inj (Except.ok.inj hpure)).1
    obtain ⟨-, -, hchain⟩ := bind_eq_ok.mp hchain
    have henter := Flow.enters_of_headsSuite hf hs (Flow.ranks_ranking hr) hranked hcut hmarks
      hb (same_entry_eq_false hs hfound hstart he hb hk)
      (List.mem_of_getElem? hat) hsame hnext honly
    rw [← htext]
    exact Flow.chainFrom_countLines_pos_of_suite hq.lines spaces_indentation (hiff.mpr hopen)
      hkey hps hh hn hat henter hnext (hq.plain b hb hqb) (hq.written b hb hqb)
      (haround ▸ hq.own b hb hqb) hchain
  · exact absurd hopen hnot

/-- The line of a block at the head of a suite of a control block that is written is repeated. -/
theorem one_le_repeats (h : s.script cast labels = .ok text) {c : Block} (hc : c ∈ s.blocks)
    (hps : c.paramList = .ok ps) (hh : header? c.kind ps = some line) (hopen : f.Opens ranks c)
    (hhead : f.HeadsSuite b c) : 1 ≤ s.repeats { cast, labels := some labels } p := by
  obtain ⟨f', entries', ranks', chunks, hf', he', hr', hentries, hchunks, -, hcover, -⟩ :=
    script_ranked hs hstart h
  cases hf.symm.trans hf'
  cases he.symm.trans he'
  cases hr.symm.trans hr'
  have hck := isControl_of_header? hh
  have hin : c ∈ chunks.map (·.block) := by
    rw [hcover.perm.mem_iff, List.mem_filter, isDefinition_of_isControl hck]
    exact ⟨hc, rfl⟩
  obtain ⟨k, hmem, rfl⟩ := List.mem_map.mp hin
  have hone := hq.countLines_chunk_pos hs hfound hstart hb hqb hk hf he hr hentries hmem hps hh
    hopen hhead
  rw [repeats_eq hchunks]
  exact hone.trans (List.le_sum_of_mem (List.mem_map_of_mem (List.mem_filter.mpr ⟨hmem, hck⟩)))

end Again
end LinesOf
end Scene
end NovelGraph
