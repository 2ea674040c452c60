import NovelGraph.Proofs.OneLine

/-! How often a narration is told. It is told where it stands in the scene; a narration at the head
of a suite is told there as well. -/
namespace NovelGraph

open Outcome Relation Script Text

namespace Script

/-- The lines that tell a text begin with it, in quotes. -/
def tells (text line : String) : Bool := startsWith line (inQuotes text)

lemma inQuotes_toList (text : String) : (inQuotes text).toList = '"' :: (text.toList ++ ['"']) := by
  simp [inQuotes]

lemma marked_tells (text : String) : Marked '"' (tells text) := by
  intro line h
  rw [tells, startsWith, List.isPrefixOf_iff_prefix, inQuotes_toList] at h
  obtain ⟨rest, hrest⟩ := h
  rw [← hrest]
  rfl

lemma spoken_eq_inQuotes {text : String} (h : '"' ∉ text.toList) : spoken text = inQuotes text := by
  have hescape : escapeQuotes text = text := by
    rw [← String.toList_inj, escapeQuotes, replaceChar, String.toList_ofList]
    generalize text.toList = cs at h
    induction cs with
    | nil => rfl
    | cons c cs ih =>
      rw [List.mem_cons, not_or] at h
      rw [List.flatMap_cons, if_neg (Ne.symm h.1), ih h.2, List.singleton_append]
  rw [spoken, inQuotes, hescape]

lemma eq_of_append_cons {a : Char} {xs ys rs ss : List Char} (hx : a ∉ xs) (hy : a ∉ ys)
    (h : xs ++ a :: rs = ys ++ a :: ss) : xs = ys := by
  induction xs generalizing ys with
  | nil =>
    cases ys with
    | nil => rfl
    | cons y ys =>
      obtain ⟨rfl, -⟩ := List.cons.inj h
      simp at hy
  | cons x xs ih =>
    cases ys with
    | nil =>
      obtain ⟨rfl, -⟩ := List.cons.inj h
      simp at hx
    | cons y ys =>
      obtain ⟨rfl, hrest⟩ := List.cons.inj h
      rw [List.mem_cons, not_or] at hx hy
      rw [ih hx.2 hy.2 hrest]

/-- Texts without quotes can be told apart by their lines. -/
lemma tells_inQuotes_append {text other : String} (ht : '"' ∉ text.toList) (ho : '"' ∉ other.toList)
    (rest : String) : tells text (inQuotes other ++ rest) = decide (text = other) := by
  rw [Bool.eq_iff_iff, decide_eq_true_eq, tells, startsWith, List.isPrefixOf_iff_prefix,
    String.toList_append, inQuotes_toList, inQuotes_toList]
  constructor
  · rintro ⟨more, h⟩
    rw [List.cons_append, List.cons_append, List.append_assoc, List.append_assoc] at h
    exact String.toList_inj.mp (eq_of_append_cons ht ho (List.cons.inj h).2)
  · rintro rfl
    exact List.prefix_append _ _

lemma countLines_narration {text indent : String} {ps : Params} (hi : Spaces indent)
    (ht : '"' ∉ text.toList) (hone : ∀ key, '\n' ∉ (param ps key).toList)
    (hquote : '"' ∉ (param ps "text").toList) :
    countLines (tells text) (narration indent ps) =
      if !(param ps "text").isEmpty && decide (text = param ps "text") then 1 else 0 := by
  have hp : tells text "" = false := (marked_tells text).eq_false (by simp)
  simp only [narration]
  cases he : (param ps "text").isEmpty with
  | true => simpa using countLines_empty hp
  | false =>
    have hline : '\n' ∉ (inQuotes (param ps "text") ++
        clause "with" (param ps "with_transition")).toList := by
      simp only [clause]
      split_ifs <;> simp [inQuotes, hone]
    have hhead : (inQuotes (param ps "text") ++
        clause "with" (param ps "with_transition")).toList =
          '"' :: ((param ps "text").toList ++ ['"'] ++
            (clause "with" (param ps "with_transition")).toList) := by
      rw [String.toList_append, inQuotes_toList, List.cons_append]
    have hown : indent ++ inQuotes (param ps "text") ++ clause "with" (param ps "with_transition") =
        indent ++ (inQuotes (param ps "text") ++ clause "with" (param ps "with_transition")) :=
      String.append_assoc
    rw [if_neg Bool.false_ne_true, spoken_eq_inQuotes hquote, hown, countLines_line hp hi hline,
      unindented_of_head rfl hhead, tells_inQuotes_append ht hquote]
    rfl

end Script

namespace Scene

/-- Scenes of start blocks, control blocks and narration, with parameters on one line each and all
narrated texts different and without quotes. -/
structure Tale (s : Scene) : Prop where
  found : ∀ b ∈ s.blocks, s.findBlock b.id = some b
  kinds : ∀ b ∈ s.blocks, b.kind = .start ∨ b.kind.isControl = true ∨ b.kind = .narration
  oneLine : ∀ b ∈ s.blocks, b.OneLine
  unquoted : ∀ b ∈ s.blocks, b.kind = .narration → ∀ {ps}, b.paramList = .ok ps →
    '"' ∉ (param ps "text").toList
  distinct : ∀ a ∈ s.blocks, ∀ b ∈ s.blocks, a.kind = .narration → b.kind = .narration →
    ∀ {ps qs}, a.paramList = .ok ps → b.paramList = .ok qs → param ps "text" = param qs "text" →
      a = b

variable {s : Scene} {cast : Option Cast} {labels : List String} {text : String} {b : Block}
  {ps : Params}

/-- In a tale the lines that tell a text belong to one block. -/
lemma Tale.linesOf (h : s.Tale) (hb : b ∈ s.blocks) (hk : b.kind = .narration)
    (hps : b.paramList = .ok ps) (hne : (param ps "text").isEmpty = false)
    (around : Surroundings) : s.LinesOf around (tells (param ps "text")) (· == b) := by
  have hp := marked_tells (param ps "text")
  have htext := h.unquoted b hb hk hps
  refine
    { lines := ofBlocks_of_marked hp (by decide) (by decide)
      plain := ?_
      written := ?_
      own := ?_
      rest := ?_ }
  · intro c _ hcb
    rw [beq_iff_eq.mp hcb, hk]
    rfl
  · intro c _ hcb
    rw [beq_iff_eq.mp hcb, hk]
    rfl
  · intro c _ hcb indent own hi hrender
    obtain rfl := beq_iff_eq.mp hcb
    obtain ⟨qs, hqs, rfl⟩ := Block.render_narration hk hrender
    obtain rfl : ps = qs := Except.ok.inj (hps.symm.trans hqs)
    rw [countLines_narration hi htext (h.oneLine c hb hps) htext, hne]
    simp
  · intro c hc hcb
    rcases h.kinds c hc with hck | hck | hck
    · exact Block.silent_of_writesLine hp (Block.writesLine_of_start (h.oneLine c hc) hck) rfl
        (by decide) (by rw [hck]; rfl)
    · exact Block.silent_of_control hp (by decide) (h.oneLine c hc) hck
    · -- another narration begins with a quote as well, but tells another text
      refine ⟨?_, ?_⟩
      · intro indent own hi hrender
        obtain ⟨qs, hqs, rfl⟩ := Block.render_narration hck hrender
        have hdiff : param ps "text" ≠ param qs "text" := fun heq =>
          beq_eq_false_iff_ne.mp hcb (h.distinct c hc b hb hck hk hqs hps heq.symm)
        rw [countLines_narration hi htext (h.oneLine c hc hqs) (h.unquoted c hc hck hqs)]
        simp [hdiff]
      · intro qs line _ hh
        have hcontrol := isControl_of_header? hh
        rw [hck] at hcontrol
        exact Bool.noConfusion hcontrol

/-- How often a narration is told: once where it stands in the scene, and as often as control blocks
tell it in their suites. Behind no control block it is told once; at the head of a suite of a control
block that is written it is told again. -/
theorem script_told (hs : s.DistinctIds) (htale : s.Tale) (h : s.script cast labels = .ok text)
    (hb : b ∈ s.blocks) (hk : b.kind = .narration) (hps : b.paramList = .ok ps)
    (hne : (param ps "text").isEmpty = false) :
    countLines (tells (param ps "text")) text =
      1 + s.repeats { cast, labels := some labels } (tells (param ps "text")) ∧
    ((∀ c ∈ s.blocks, c.kind.isControl = true → ¬TransGen s.Wired c b) →
      countLines (tells (param ps "text")) text = 1) ∧
    ((∃ b ∈ s.blocks, b.kind = .start) → ∀ f entries ranks,
      s.flow { cast, labels := some labels } = .ok f → s.entryBlocks f.links = .ok entries →
      f.ranks entries = .ok ranks → ∀ c ∈ s.blocks, ∀ qs line, c.paramList = .ok qs →
      header? c.kind qs = some line → f.Opens ranks c → f.HeadsSuite b c →
      2 ≤ countLines (tells (param ps "text")) text) := by
  have hlines := htale.linesOf hb hk hps hne { cast, labels := some labels }
  have hcount := hlines.countLines_script hs h
  have hone : s.blocks.countP (· == b) = 1 :=
    List.count_eq_one_of_mem (hs.nodup htale.found) hb
  rw [hone] at hcount
  refine ⟨hcount, ?_, ?_⟩
  · intro hfree
    rw [hcount, hlines.repeats_eq_zero hs]
    intro c hc hck d _ hd
    rw [beq_iff_eq.mp hd]
    exact hfree c hc hck
  · intro hstart f entries ranks hf he hr c hc qs line hqs hh hopen hhead
    have hagain := hlines.one_le_repeats hs htale.found hstart hb (beq_self_eq_true b)
      (by rw [hk]; decide) hf he hr h hc hqs hh hopen hhead
    omega

/-- A conditional with a narration before it and one in its branch. -/
def guardedScene : Scene where
  id := .text "s"
  name := .text "Scene"
  label := .text "start"
  blocks := [startBlock "s" "go" 0 0, toldBlock "m" 4 0, gateBlock, toldBlock "a" 12 0]
  ports :=
    [{ id := .text "s.o", nodeId := .text "s", name := .text "out", direction := .output },
      { id := .text "m.i", nodeId := .text "m", name := .text "in", direction := .input },
      { id := .text "m.o", nodeId := .text "m", name := .text "out", direction := .output },
      { id := .text "c.i", nodeId := .text "c", name := .text "in", direction := .input },
      { id := .text "c.t", nodeId := .text "c", name := .text "True", direction := .output },
      { id := .text "a.i", nodeId := .text "a", name := .text "in", direction := .input }]
  connections :=
    [{ id := .text "1", fromPort := .text "s.o", toPort := .text "m.i" },
      { id := .text "2", fromPort := .text "m.o", toPort := .text "c.i" },
      { id := .text "3", fromPort := .text "c.t", toPort := .text "a.i" }]

def guardedText : String :=
  "label go:\n    \"m\"\n    if ready:\n                \"a\"\n\n    \"a\"\n\n"

/-- What the branch tells is told once more, without the condition. -/
theorem guardedScene_script :
    guardedScene.DistinctIds ∧
      (guardedScene.wires.map fun w => (w.source, w.target)) =
        [(.text "s", .text "m"), (.text "m", .text "c"), (.text "c", .text "a")] ∧
      guardedScene.script none [] = .ok guardedText ∧
      countLines (tells "m") guardedText = 1 ∧ countLines (tells "a") guardedText = 2 :=
  ⟨by decide, rfl, rfl, by decide, by decide⟩

lemma guardedScene_tale : guardedScene.Tale where
  found := by decide
  kinds := by decide
  oneLine := by
    have hall : ∀ b ∈ guardedScene.blocks, ∀ ps ∈ b.paramList.toOption, ∀ m ∈ ps,
        '\n' ∉ m.2.display.toList := by decide
    exact fun b hb => Block.oneLine_of_forall (hall b hb)
  unquoted := by
    intro b hb _ ps hps
    have hall : ∀ b ∈ guardedScene.blocks, ∀ ps ∈ b.paramList.toOption,
        '"' ∉ (param ps "text").toList := by decide
    exact hall b hb ps (by simp [hps, Except.toOption])
  distinct := by
    intro a ha b hb hka hkb ps qs hps hqs htext
    have hall : ∀ a ∈ guardedScene.blocks, ∀ b ∈ guardedScene.blocks, a.kind = .narration →
        b.kind = .narration → ∀ ps ∈ a.paramList.toOption, ∀ qs ∈ b.paramList.toOption,
          param ps "text" = param qs "text" → a = b := by decide
    exact hall a ha b hb hka hkb ps (by simp [hps, Except.toOption]) qs
      (by simp [hqs, Except.toOption]) htext

/-- Behind the conditional there is only its branch. -/
lemma guardedScene_behind {x : Block} (h : TransGen guardedScene.Wired gateBlock x) :
    x.id.same (.text "a") = true := by
  induction h with
  | single hw =>
    obtain ⟨w, hw, hsource, htarget⟩ := hw
    have hall : ∀ w ∈ guardedScene.wires, gateBlock.id.same w.source = true →
        w.target = .text "a" := by decide
    exact hall w hw hsource ▸ htarget
  | tail _ hw ih =>
    obtain ⟨w, hw, hsource, -⟩ := hw
    have hall : ∀ w ∈ guardedScene.wires, (Value.text "a").same w.source = false := by decide
    have hnone := hall w hw
    rw [Value.same_trans (Value.same_symm ih) hsource] at hnone
    exact Bool.noConfusion hnone

theorem guardedScene_told :
    guardedScene.DistinctIds ∧ guardedScene.Tale ∧
      guardedScene.script none [] = .ok guardedText ∧
      countLines (tells "m") guardedText = 1 ∧ 2 ≤ countLines (tells "a") guardedText := by
  have hs : guardedScene.DistinctIds := by decide
  have htale := guardedScene_tale
  have hscript : guardedScene.script none [] = .ok guardedText := rfl
  have hps : ∀ name x y, (toldBlock name x y).paramList = .ok [("text", .text name)] :=
    fun _ _ _ => rfl
  obtain ⟨-, honce, -⟩ := script_told hs htale hscript (b := toldBlock "m" 4 0) (by decide) rfl
    (hps _ _ _) rfl
  obtain ⟨-, -, hagain⟩ := script_told hs htale hscript (b := toldBlock "a" 12 0) (by decide) rfl
    (hps _ _ _) rfl
  refine ⟨hs, htale, hscript, honce ?_, ?_⟩
  · intro c hc hck hreach
    have hgate : ∀ c ∈ guardedScene.blocks, c.kind.isControl = true → c = gateBlock := by decide
    rw [hgate c hc hck] at hreach
    exact absurd (guardedScene_behind hreach) (by decide)
  · obtain ⟨f, entries, ranks, hf, he, hr, hopen, hhead⟩ : ∃ f entries ranks,
        guardedScene.flow { cast := none, labels := some [] } = .ok f ∧
        guardedScene.entryBlocks f.links = .ok entries ∧ f.ranks entries = .ok ranks ∧
        f.Opens ranks gateBlock ∧ f.HeadsSuite (toldBlock "a" 12 0) gateBlock := by
      refine ⟨_, _, _, rfl, rfl, rfl, ⟨rfl, ?_⟩, ⟨0, _, by decide, rfl, rfl⟩, by decide⟩
      intro a ha hw
      have honly : ∀ a ∈ guardedScene.blocks, guardedScene.Wired a gateBlock →
          a = toldBlock "m" 4 0 := by decide
      obtain rfl := honly a ha hw
      exact ⟨rfl, rfl⟩
    exact hagain (by decide) f entries ranks hf he hr gateBlock (by decide) _ _ rfl rfl hopen hhead

end Scene
end NovelGraph
