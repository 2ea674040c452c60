import NovelGraph.Proofs.EmissionOrder
import NovelGraph.Proofs.LabelClosure

/-! Which control blocks of a scene are written. A control block brings its header if everything that
leads to it was written before it; definitions never are, and so they silence what they lead to. -/
namespace NovelGraph

open Outcome Relation Script Text

namespace Script

/-- The line that opens a control statement, if the parameters that it needs are there. -/
def header? (kind : BlockKind) (ps : Params) : Option String :=
  match kind with
  | .ifElse =>
    (nonEmpty? (param ps "condition")).map fun condition => "if " ++ condition ++ ":\n"
  | .whileLoop =>
    (nonEmpty? (param ps "condition")).map fun condition => "while " ++ condition ++ ":\n"
  | .forLoop => do
    let name ← nonEmpty? (param ps "variable")
    let items ← nonEmpty? (param ps "iterable")
    pure ("for " ++ name ++ " in " ++ items ++ ":\n")
  | _ => none

variable {ps : Params} {line : String}

lemma isControl_of_header? {kind : BlockKind} (h : header? kind ps = some line) :
    kind.isControl = true := by
  unfold header? at h
  split at h
  · rfl
  · rfl
  · rfl
  · cases h

lemma isDefinition_of_isControl {kind : BlockKind} (h : kind.isControl = true) :
    kind.isDefinition = false := by
  cases kind <;> simp only [BlockKind.isControl, Bool.false_eq_true] at h
  all_goals rfl

lemma header?_ifElse (h : header? .ifElse ps = some line) :
    (param ps "condition").isEmpty = false ∧ line = "if " ++ param ps "condition" ++ ":\n" := by
  obtain ⟨condition, hc, rfl⟩ := Option.map_eq_some_iff.mp h
  obtain ⟨rfl, hne⟩ := nonEmpty?_eq_some hc
  exact ⟨hne, rfl⟩

lemma header?_whileLoop (h : header? .whileLoop ps = some line) :
    (param ps "condition").isEmpty = false ∧ line = "while " ++ param ps "condition" ++ ":\n" := by
  obtain ⟨condition, hc, rfl⟩ := Option.map_eq_some_iff.mp h
  obtain ⟨rfl, hne⟩ := nonEmpty?_eq_some hc
  exact ⟨hne, rfl⟩

lemma header?_forLoop (h : header? .forLoop ps = some line) :
    ((param ps "variable").isEmpty || (param ps "iterable").isEmpty) = false ∧
      line = "for " ++ param ps "variable" ++ " in " ++ param ps "iterable" ++ ":\n" := by
  obtain ⟨name, hname, h⟩ := Option.bind_eq_some_iff.mp h
  obtain ⟨items, hitems, h⟩ := Option.bind_eq_some_iff.mp h
  obtain ⟨rfl, hne⟩ := nonEmpty?_eq_some hname
  obtain ⟨rfl, hne'⟩ := nonEmpty?_eq_some hitems
  cases h
  exact ⟨by rw [hne, hne']; rfl, rfl⟩

/-- Headers end their lines. -/
lemma header?_last {kind : BlockKind} (h : header? kind ps = some line) :
    line.toList.getLast? = some '\n' := by
  have hlast : ∀ s : String, (s ++ ":\n").toList.getLast? = some '\n' := by
    intro s
    rw [String.toList_append, List.getLast?_append_of_ne_nil _ (by decide)]
    rfl
  have hk := isControl_of_header? h
  cases kind <;> simp only [BlockKind.isControl, Bool.false_eq_true] at hk
  · rw [(header?_ifElse h).2]
    exact hlast _
  · rw [(header?_whileLoop h).2]
    exact hlast _
  · rw [(header?_forLoop h).2]
    exact hlast _

lemma conditional_eq (h : header? .ifElse ps = some line) (indent yes no : String) :
    conditional indent ps yes no = indent ++ line ++ (body indent yes ++
      (if no.isEmpty then "" else indent ++ "else:\n" ++ suite indent no)) := by
  obtain ⟨hc, rfl⟩ := header?_ifElse h
  simp only [conditional, hc, Bool.false_eq_true, if_false, String.append_assoc]

lemma conditional_of_no_header (h : header? .ifElse ps = none) (indent yes no : String) :
    conditional indent ps yes no = "" := by
  rw [header?, Option.map_eq_none_iff, nonEmpty?_eq_none] at h
  rw [conditional, if_pos h]

lemma whileLoop_eq (h : header? .whileLoop ps = some line) (indent text : String) :
    whileLoop indent ps text = indent ++ line ++ body indent text := by
  obtain ⟨hc, rfl⟩ := header?_whileLoop h
  simp only [whileLoop, hc, Bool.false_eq_true, if_false, String.append_assoc]

lemma whileLoop_of_no_header (h : header? .whileLoop ps = none) (indent text : String) :
    whileLoop indent ps text = "" := by
  rw [header?, Option.map_eq_none_iff, nonEmpty?_eq_none] at h
  rw [whileLoop, if_pos h]

lemma forLoop_eq (h : header? .forLoop ps = some line) (indent text : String) :
    forLoop indent ps text = indent ++ line ++ body indent text := by
  obtain ⟨hc, rfl⟩ := header?_forLoop h
  simp only [forLoop, hc, Bool.false_eq_true, if_false, String.append_assoc]

lemma forLoop_of_no_header (h : header? .forLoop ps = none) (indent text : String) :
    forLoop indent ps text = "" := by
  have hempty : ((param ps "variable").isEmpty || (param ps "iterable").isEmpty) = true := by
    by_contra hne
    rw [Bool.not_eq_true, Bool.or_eq_false_iff] at hne
    simp [header?, nonEmpty?, hne.1, hne.2] at h
  rw [forLoop, if_pos hempty]

end Script

lemma Block.render_of_control {b : Block} (hk : b.kind.isControl = true) {indent : String}
    {around : Surroundings} : b.render indent around = .ok "" := by
  unfold Block.render
  cases hkind : b.kind <;> simp only [hkind, BlockKind.isControl, Bool.false_eq_true] at hk
  all_goals rfl

namespace Flow

variable {f : Flow} {fuel : ℕ} {seen seen' : List Value} {indent text line : String} {follow : Bool}
  {id : Value} {b : Block} {ps : Params}

/-- A control block that is entered writes its header first. -/
lemma chainFrom_header (he : f.enters seen id = true) (hb : f.scene.findBlock id = some b)
    (hps : b.paramList = .ok ps) (hl : header? b.kind ps = some line)
    (h : f.chainFrom (fuel + 1) seen indent follow id = .ok (text, seen')) :
    ∃ rest, text = indent ++ line ++ rest := by
  have hk := isControl_of_header? hl
  cases hkind : b.kind <;> simp only [hkind, BlockKind.isControl, Bool.false_eq_true] at hk
  all_goals rw [hkind] at hl
  case ifElse =>
    rw [chainFrom_ifElse he hb hkind, hps, ok_bind, (header?_ifElse hl).1,
      if_neg Bool.false_ne_true] at h
    obtain ⟨yes, -, h⟩ := bind_eq_ok.mp h
    obtain ⟨no, -, h⟩ := bind_eq_ok.mp h
    cases h
    exact ⟨_, conditional_eq hl indent yes no⟩
  case whileLoop =>
    rw [chainFrom_whileLoop he hb hkind, hps, ok_bind, (header?_whileLoop hl).1,
      if_neg Bool.false_ne_true] at h
    obtain ⟨inner, -, h⟩ := bind_eq_ok.mp h
    cases h
    exact ⟨_, whileLoop_eq hl indent inner⟩
  case forLoop =>
    rw [chainFrom_forLoop he hb hkind, hps, ok_bind, (header?_forLoop hl).1,
      if_neg Bool.false_ne_true] at h
    obtain ⟨inner, -, h⟩ := bind_eq_ok.mp h
    cases h
    exact ⟨_, forLoop_eq hl indent inner⟩

lemma rankedChunk_header {c : Chunk} (hb : f.scene.findBlock b.id = some b)
    (hps : b.paramList = .ok ps) (hl : header? b.kind ps = some line)
    (h : f.rankedChunk seen b = .ok (c, seen')) :
    (f.enters seen b.id = true → ∃ rest, c.text = indentation ++ line ++ rest) ∧
      (f.enters seen b.id = false → c.text = "") := by
  rw [rankedChunk_of_control (isControl_of_header? hl), bind_eq_ok] at h
  obtain ⟨⟨text, after⟩, hc, h⟩ := h
  cases h
  rw [chain, bind_eq_ok] at hc
  obtain ⟨-, -, hc⟩ := hc
  refine ⟨fun he => chainFrom_header he hb hps hl hc, fun he => ?_⟩
  rw [depth, chainFrom_of_not_enters he] at hc
  cases hc
  rfl

lemma looseChunk_of_control {c : Chunk} (hk : b.kind.isControl = true)
    (h : f.looseChunk b = .ok c) : c.text = "" := by
  rw [looseChunk, bind_eq_ok] at h
  obtain ⟨text, ht, h⟩ := h
  cases h
  rw [Block.render_of_control hk] at ht
  exact (Except.ok.inj ht).symm

/-- When a control block is written with its suites: it has a rank, and all that leads to it is
written before it. -/
def Opens (f : Flow) (ranks : Ranks) (b : Block) : Prop :=
  ranks.contains b.id = true ∧ ∀ a ∈ f.scene.blocks, f.scene.Wired a b →
    a.kind.isDefinition = false ∧ f.Before ranks a b

variable {s : Scene} {around : Surroundings} {entries : List Block} {ranks : Ranks}

lemma memberOf_marks {before : List Chunk} {marks : List Value}
    (h : List.Forall₂ (fun d mark => d.block.id.same mark = true) before marks) {v : Value} :
    v.memberOf marks = true ↔ ∃ d ∈ before, v.same d.block.id = true := by
  induction h with
  | nil => simp
  | @cons d mark before marks hd _ ih =>
    have hv : v.same mark = true ↔ v.same d.block.id = true :=
      ⟨fun h => Value.same_trans h (Value.same_symm hd), fun h => Value.same_trans h hd⟩
    rw [← List.singleton_append, Value.memberOf_append, Value.memberOf_singleton, Bool.or_eq_true,
      hv, ih]
    simp only [List.mem_cons, exists_eq_or_imp]

/-- Blocks that lead to themselves get no rank. -/
lemma Ranking.not_wired_self (hf : s.flow around = .ok f) (h : f.Ranking entries ranks)
    (hb : (ranks.get? b.id).isSome = true) : ¬s.Wired b b := by
  intro hw
  obtain ⟨q, hq⟩ := Option.isSome_iff_exists.mp hb
  obtain ⟨u, v, r, hsub, hu, hv⟩ := h.input_before hf hw hq
  have hne := List.pairwise_iff_forall_sublist.mp h.distinctKeys hsub
  rw [Value.same_trans (Value.same_symm hu) hv] at hne
  exact Bool.noConfusion hne

section Ranked

variable {ranked before after : List Chunk} {c : Chunk} {last : List Value}
  (hf : s.flow around = .ok f) (hs : s.DistinctIds) (hranking : f.Ranking entries ranks)
  (hranked : f.rankedChunks ((Order.sortByKey (·.2) Rank.lt ranks).map (·.1)) [] =
    .ok (ranked, last))
  (hcut : ranked = before ++ c :: after)

include hf hs hranking hranked hcut

lemma isSome_of_rankedChunks : (ranks.get? c.block.id).isSome = true := by
  obtain ⟨-, rfl, -, -⟩ := Scene.flow_eq_ok hf
  have hblocks := rankedChunks_rankedBlocks hranking hranked
  obtain ⟨hfound, hk⟩ := (rankedChunks_written hranked).block_mem (c := c) (by simp [hcut])
  rw [← mem_rankedBlocks hs hranking (Scene.findBlock_mem hfound) hk, ← hblocks, hcut]
  simp

/-- What leads to a block stands before it if its rank is not the higher one. -/
lemma mem_before_iff {a : Block} (ha : a ∈ s.blocks) (hk : a.kind.isDefinition = false)
    (hw : s.Wired a c.block) : a ∈ before.map (·.block) ↔ f.Before ranks a c.block := by
  have hsome := isSome_of_rankedChunks hf hs hranking hranked hcut
  have hwritten := rankedChunks_written hranked
  have hblocks := rankedChunks_rankedBlocks hranking hranked
  obtain ⟨hfound, hck⟩ := hwritten.block_mem (c := c) (by simp [hcut])
  have hc := (Scene.flow_eq_ok hf).2.1 ▸ Scene.findBlock_mem hfound
  have hne : a ≠ c.block := fun h => hranking.not_wired_self hf hsome (h ▸ hw)
  have hunranked : c.block ∉ f.unrankedBlocks ranks := by
    rw [unrankedBlocks, List.mem_filter]
    simp [Option.isSome_iff_ne_none.mp hsome]
  have hnodup := hwritten.nodup
  rw [← pair_sublist_blocks_iff hf hs hranking (hblocks ▸ hnodup) ha hc hk hck hw hne, ← hblocks,
    hcut, List.map_append, List.map_cons, Order.pair_sublist_append]
  rw [hcut, List.map_append, List.map_cons] at hnodup
  rw [Order.pair_sublist_cut hnodup]
  refine ⟨.inl, fun h => ?_⟩
  rcases h with h | ⟨-, h⟩ | h
  · exact h
  · exact absurd h hunranked
  · exact absurd (h.subset (by simp)) hunranked

/-- With the blocks before it seen, a block is entered if all that leads to it is among them. -/
lemma enters_iff_opens {marks : List Value}
    (hmarks : List.Forall₂ (fun d mark => d.block.id.same mark = true) before marks) :
    f.enters marks c.block.id = true ↔ f.Opens ranks c.block := by
  have hsome := isSome_of_rankedChunks hf hs hranking hranked hcut
  have hbefore {a : Block} := mem_before_iff (a := a) hf hs hranking hranked hcut
  obtain ⟨hl, rfl, hi, -⟩ := Scene.flow_eq_ok hf
  have hwritten := rankedChunks_written hranked
  have hid : ∀ d ∈ ranked, ∀ {a}, a ∈ f.scene.blocks → a.id.same d.block.id = true → d.block = a :=
    fun d hd _ ha hsame => hs.findBlock_eq ha hsame (hwritten.block_mem hd).1
  have hnew : c.block.id.memberOf marks = false := by
    rw [Bool.eq_false_iff]
    intro hm
    obtain ⟨d, hd, hsame⟩ := (memberOf_marks hmarks).mp hm
    have hc := Scene.findBlock_mem (hwritten.block_mem (c := c) (by simp [hcut])).1
    have heq := hid d (by simp [hcut, hd]) hc hsame
    have hnodup := hwritten.nodup
    rw [hcut, List.map_append, List.map_cons] at hnodup
    exact (List.nodup_append.mp hnodup).2.2 _ (List.mem_map_of_mem hd) _ List.mem_cons_self heq
  rw [enters, hnew, Bool.not_false, Bool.true_and, hi, Scene.allSeen_iff hl, Opens,
    Dict.contains_eq_isSome]
  constructor
  · intro hall
    refine ⟨hsome, fun a ha hw => ?_⟩
    obtain ⟨w, hwire, hsource, htarget⟩ := id hw
    obtain ⟨d, hd, hsame⟩ := (memberOf_marks hmarks).mp (hall w hwire htarget)
    have hmem : d ∈ ranked := by simp [hcut, hd]
    obtain rfl := hid d hmem ha (Value.same_trans hsource hsame)
    have hk := (hwritten.block_mem hmem).2
    exact ⟨hk, (hbefore ha hk hw).mp (List.mem_map_of_mem hd)⟩
  · rintro ⟨-, hall⟩ w hwire htarget
    obtain ⟨⟨a, ha, hsource⟩, -⟩ := Scene.wire_ends hwire
    have hw : f.scene.Wired a c.block := ⟨w, hwire, Value.same_symm hsource, htarget⟩
    obtain ⟨hk, hbef⟩ := hall a ha hw
    obtain ⟨d, hd, rfl⟩ := List.mem_map.mp ((hbefore ha hk hw).mpr hbef)
    exact (memberOf_marks hmarks).mpr ⟨d, hd, hsource⟩

end Ranked

/-- A chunk stands among the ranked ones, where all before it were seen, or among the rest. -/
lemma entryChunks_cases (hf : s.flow around = .ok f) (hs : s.DistinctIds) {chunks : List Chunk}
    (hr : f.ranks entries = .ok ranks) (h : f.entryChunks entries = .ok chunks) {c : Chunk}
    (hc : c ∈ chunks) :
    (∃ ranked last before after marks seen',
      f.rankedChunks ((Order.sortByKey (·.2) Rank.lt ranks).map (·.1)) [] = .ok (ranked, last) ∧
      ranked = before ++ c :: after ∧
      List.Forall₂ (fun d mark => d.block.id.same mark = true) before marks ∧
      f.rankedChunk marks c.block = .ok (c, seen') ∧
      (f.enters marks c.block.id = true ↔ f.Opens ranks c.block)) ∨
    f.looseChunk c.block = .ok c ∧ ¬f.Opens ranks c.block := by
  have hscene := (Scene.flow_eq_ok hf).2.1
  obtain ⟨ranks', ranked, last, loose, hr', hranked, hloose, rfl⟩ := entryChunks_eq_ok h
  obtain rfl : ranks = ranks' := Except.ok.inj (hr.symm.trans hr')
  have hwritten := rankedChunks_written hranked
  rcases List.mem_append.mp hc with hc | hc
  · obtain ⟨before, after, hcut⟩ := List.append_of_mem hc
    obtain ⟨marks, seen', hmarks, hchunk⟩ := hwritten.rankedChunk hcut
    exact .inl ⟨ranked, last, before, after, marks, seen', hranked, hcut, hmarks, hchunk,
      enters_iff_opens hf hs (ranks_ranking hr) hranked hcut hmarks⟩
  · obtain ⟨b, hb, hchunk⟩ := exists_left_of_forall₂ hloose hc
    obtain ⟨rfl, -⟩ := looseChunk_eq_ok hchunk
    refine .inr ⟨hchunk, fun h => ?_⟩
    -- a block with a rank has been written, and is not among the rest
    obtain ⟨hmem, hmark⟩ := List.mem_filter.mp hb
    rw [Bool.and_eq_true, Bool.not_eq_true', Bool.not_eq_true'] at hmark
    have hranks := h.1
    rw [Dict.contains_eq_isSome, ← mem_rankedBlocks (hscene ▸ hs) (ranks_ranking hr) hmem hmark.2,
      ← rankedChunks_rankedBlocks (ranks_ranking hr) hranked,
      ← hwritten.memberOf_iff_written (hscene ▸ hs) hmem, hmark.1] at hranks
    exact Bool.noConfusion hranks

/-- The chunk of a control block: its header comes first, or there is nothing. -/
lemma entryChunks_header (hf : s.flow around = .ok f) (hs : s.DistinctIds) {chunks : List Chunk}
    (hr : f.ranks entries = .ok ranks) (h : f.entryChunks entries = .ok chunks) {c : Chunk}
    (hc : c ∈ chunks) (hps : c.block.paramList = .ok ps)
    (hl : header? c.block.kind ps = some line) :
    (f.Opens ranks c.block → ∃ rest, c.text = indentation ++ line ++ rest) ∧
      (¬f.Opens ranks c.block → c.text = "") := by
  rcases entryChunks_cases hf hs hr h hc with
    ⟨ranked, last, before, after, marks, seen', hranked, hcut, -, hchunk, hiff⟩ | ⟨hchunk, hnot⟩
  · have hfound := ((rankedChunks_written hranked).block_mem (c := c) (by simp [hcut])).1
    obtain ⟨hopen, hshut⟩ := rankedChunk_header hfound hps hl hchunk
    rw [Bool.eq_false_iff, ne_eq, hiff] at hshut
    exact ⟨fun h => hopen (hiff.mpr h), hshut⟩
  · exact ⟨fun h => absurd h hnot, fun _ => looseChunk_of_control (isControl_of_header? hl) hchunk⟩

end Flow

namespace Scene

variable {s : Scene} {around : Surroundings} {f : Flow} {entries : List Block} {ranks : Ranks}
  {b : Block}

/-- Behind a single input and without definitions above it, a block is opened. -/
lemma Directed.opens_of_plain (hf : s.flow around = .ok f) (hs : s.DistinctIds)
    (hdir : s.Directed) (hstart : ∃ b ∈ s.blocks, b.kind = .start)
    (he : s.entryBlocks f.links = .ok entries) (hr : f.ranks entries = .ok ranks)
    (hb : b ∈ s.blocks)
    (hplain : ∀ a ∈ s.blocks, ReflTransGen s.Wired a b → a.kind.isDefinition = false)
    (honly : ∀ a ∈ s.blocks, s.Wired a b → ∀ w ∈ s.wires, b.id.same w.target = true →
      a.id.same w.source = true) : f.Opens ranks b := by
  have hrank {c : Block} := Flow.ranks_contains_of_plain (b := c) hf hdir hstart he hr
  have hscene := (flow_eq_ok hf).2.1
  refine ⟨hrank hb hplain, ?_⟩
  rw [hscene]
  intro a ha hw
  have habove : ∀ c ∈ s.blocks, ReflTransGen s.Wired c a → c.kind.isDefinition = false :=
    fun c hc hca => hplain c hc (hca.tail hw)
  exact ⟨habove a ha .refl, hdir.before_of_only_input hf hs hstart he hr hb (hrank ha habove)
    (hrank hb hplain) hw (honly a ha hw)⟩

/-- The headers of a scene. A control block whose parameters are there is opened by its header,
at the first level of the scene, if it has a rank and no block that leads to it is a definition or
comes later by rank; otherwise its place stays empty. Without circles and wires to start blocks it is
opened if it has one input and no definition stands above it. -/
theorem script_headers {cast : Option Cast} {labels : List String} {text line : String}
    {ps : Params} (hs : s.DistinctIds) (hstart : ∃ b ∈ s.blocks, b.kind = .start)
    (h : s.script cast labels = .ok text) (hb : b ∈ s.blocks) (hps : b.paramList = .ok ps)
    (hl : header? b.kind ps = some line) :
    ∃ f entries ranks chunks c, s.flow { cast, labels := some labels } = .ok f ∧
      s.entryBlocks f.links = .ok entries ∧ f.ranks entries = .ok ranks ∧
      f.entryChunks entries = .ok chunks ∧ text = concat (chunks.map (·.text)) ++ "\n" ∧
      f.Covers (s.blocks.filter (!·.kind.isDefinition)) chunks ∧ c ∈ chunks ∧ c.block = b ∧
      (f.Opens ranks b → (∃ rest, c.text = indentation ++ line ++ rest) ∧
        HasLine text (indentation ++ line)) ∧
      (¬f.Opens ranks b → c.text = "") ∧
      (s.Directed →
        (∀ a ∈ s.blocks, ReflTransGen s.Wired a b → a.kind.isDefinition = false) →
        (∀ a ∈ s.blocks, s.Wired a b → ∀ w ∈ s.wires, b.id.same w.target = true →
          a.id.same w.source = true) → f.Opens ranks b) := by
  obtain ⟨f, entries, ranks, chunks, hf, he, hr, hentries, hchunks, htext, hcover, -⟩ :=
    script_ranked hs hstart h
  have hmem : b ∈ chunks.map (·.block) := by
    rw [hcover.perm.mem_iff, List.mem_filter, isDefinition_of_isControl (isControl_of_header? hl)]
    exact ⟨hb, rfl⟩
  obtain ⟨c, hc, rfl⟩ := List.mem_map.mp hmem
  obtain ⟨hopen, hshut⟩ := Flow.entryChunks_header hf hs hr hentries hc hps hl
  refine ⟨f, entries, ranks, chunks, c, hf, he, hr, hentries, htext, hcover, hc, rfl,
    fun hopens => ⟨hopen hopens, ?_⟩, hshut,
    fun hdir hplain honly => hdir.opens_of_plain hf hs hstart he hr hb hplain honly⟩
  obtain ⟨rest, hrest⟩ := hopen hopens
  have hline : HasLine c.text (indentation ++ line) := ⟨"", rest, by simp [hrest], by simp⟩
  have hall : HasLine (concat (chunks.map (·.text))) (indentation ++ line) :=
    hline.concat (List.mem_map_of_mem hc) (chunks_endsLine hs hchunks)
  rw [htext]
  simpa using hall.within endsLine_empty "\n"

def gateBlock : Block where
  id := .text "c"
  kind := .ifElse
  params := .object [("condition", .text "ready")]
  x := .int 8
  y := .int 0

def pictureBlock : Block where
  id := .text "m"
  kind := .image
  params := .object [("name", .text "bg"), ("path", .text "bg.png")]
  x := .int 4
  y := .int 0

/-- A start block, one more block, and a conditional. -/
def gatedScene (middle : Block) : Scene where
  id := .text "s"
  name := .text "Scene"
  label := .text "start"
  blocks := [startBlock "s" "go" 0 0, middle, gateBlock]
  ports :=
    [{ id := .text "s.o", nodeId := .text "s", name := .text "out", direction := .output },
      { id := .text "m.i", nodeId := .text "m", name := .text "in", direction := .input },
      { id := .text "m.o", nodeId := .text "m", name := .text "out", direction := .output },
      { id := .text "c.i", nodeId := .text "c", name := .text "in", direction := .input }]
  connections :=
    [{ id := .text "1", fromPort := .text "s.o", toPort := .text "m.i" },
      { id := .text "2", fromPort := .text "m.o", toPort := .text "c.i" }]

/-- The conditional behind the picture is not written. -/
theorem gatedScene_picture_script :
    (gatedScene pictureBlock).DistinctIds ∧
      ((gatedScene pictureBlock).wires.map fun w => (w.source, w.target)) =
        [(.text "s", .text "m"), (.text "m", .text "c")] ∧
      header? gateBlock.kind [("condition", .text "ready")] = some "if ready:\n" ∧
      (gatedScene pictureBlock).script none [] = .ok "label go:\n\n" :=
  ⟨by decide, rfl, rfl, rfl⟩

theorem gatedScene_headers :
    (gatedScene pictureBlock).DistinctIds ∧ (gatedScene (toldBlock "m" 4 0)).DistinctIds ∧
      gateBlock.paramList = .ok [("condition", .text "ready")] ∧
      header? gateBlock.kind [("condition", .text "ready")] = some "if ready:\n" ∧
      (∃ (text : String) (chunks : List Chunk) (c : Chunk),
        (gatedScene pictureBlock).script none [] = .ok text ∧
        text = concat (chunks.map (·.text)) ++ "\n" ∧ c ∈ chunks ∧ c.block = gateBlock ∧
        c.text = "") ∧
      ∃ text, (gatedScene (toldBlock "m" 4 0)).script none [] = .ok text ∧
        HasLine text (indentation ++ "if ready:\n") := by
  have hps : gateBlock.paramList = .ok [("condition", .text "ready")] := rfl
  have hl : header? gateBlock.kind [("condition", .text "ready")] = some "if ready:\n" := rfl
  have hs : (gatedScene pictureBlock).DistinctIds := by decide
  have hs' : (gatedScene (toldBlock "m" 4 0)).DistinctIds := by decide
  obtain ⟨text, hscript⟩ : ∃ text, (gatedScene pictureBlock).script none [] = .ok text := ⟨_, rfl⟩
  obtain ⟨text', hscript'⟩ : ∃ text, (gatedScene (toldBlock "m" 4 0)).script none [] = .ok text :=
    ⟨_, rfl⟩
  refine ⟨hs, hs', hps, hl, ?_, text', hscript', ?_⟩
  · obtain ⟨f, entries, ranks, chunks, c, hf, -, -, -, htext, -, hc, hcb, -, hshut, -⟩ :=
      script_headers hs (by decide) hscript (by decide) hps hl
    refine ⟨text, chunks, c, hscript, htext, hc, hcb, hshut ?_⟩
    rintro ⟨-, hplain⟩
    rw [(flow_eq_ok hf).2.1] at hplain
    exact Bool.noConfusion (hplain pictureBlock (by decide) (by decide)).1
  · obtain ⟨f, entries, ranks, chunks, c, hf, he, hr, -, -, -, -, -, hopen, -, -⟩ :=
      script_headers hs' (by decide) hscript' (by decide) hps hl
    have honly : ∀ a ∈ (gatedScene (toldBlock "m" 4 0)).blocks,
        (gatedScene (toldBlock "m" 4 0)).Wired a gateBlock → a = toldBlock "m" 4 0 := by decide
    obtain ⟨f', entries', ranks', hf', he', hr', hopens⟩ : ∃ f entries ranks,
        (gatedScene (toldBlock "m" 4 0)).flow { cast := none, labels := some [] } = .ok f ∧
        (gatedScene (toldBlock "m" 4 0)).entryBlocks f.links = .ok entries ∧
        f.ranks entries = .ok ranks ∧ f.Opens ranks gateBlock := by
      refine ⟨_, _, _, rfl, rfl, rfl, rfl, ?_⟩
      intro a ha hw
      obtain rfl := honly a ha hw
      exact ⟨rfl, rfl⟩
    cases hf'.symm.trans hf
    cases he'.symm.trans he
    cases hr'.symm.trans hr
    exact (hopen hopens).2

end Scene
end NovelGraph
