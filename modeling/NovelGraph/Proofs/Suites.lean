import NovelGraph.Proofs.ControlHeaders
import NovelGraph.Proofs.Margins

/-! The suites of control statements. Whatever a block writes holds something to read, so a chain is
empty or holds something to read, and the suite that a control statement makes of it does too. All
that can be read in a suite stands behind its margin, at every depth. -/
namespace NovelGraph

open Outcome Script Text

namespace Text

/-- Lines that hold something to read, and nothing to read in front of the margin. -/
structure IsSuite (margin text : String) : Prop where
  filled : ∃ line ∈ lines text, isBlankLine line = false
  indented : ∀ line ∈ lines text, isBlankLine line = false → startsWith line margin = true

/-- A text that is there holds something to read. -/
def Legible (text : String) : Prop := text = "" ∨ isBlankLine text = false

lemma Legible.append {s t : String} (hs : Legible s) (ht : Legible t) : Legible (s ++ t) := by
  rcases hs with rfl | hs
  · rwa [String.empty_append]
  · exact .inr (by simp [hs])

/-- A statement that is left out, or says something. -/
lemma legible_optional {p : Prop} [Decidable p] {s : String} (hs : isBlankLine s = false) :
    Legible (if p then "" else s) := by
  split_ifs
  · exact .inl rfl
  · exact .inr hs

end Text

namespace Script

@[simp] lemma isBlankLine_spoken (s : String) : isBlankLine (spoken s) = false := by
  simp +decide [spoken]

lemma transfer_legible {word : String} (hword : isBlankLine word = false) (target : String)
    (labels : Option (List String)) (indent : String) :
    Legible (transfer word target labels indent) :=
  legible_optional (by simp [hword])

lemma say_legible (cast : Option Cast) (indent : String) (ps : Params) :
    Legible (say cast indent ps) := by
  refine legible_optional ?_
  split_ifs <;> simp

lemma labelLine_legible (indent label : String) : isBlankLine (labelLine indent label) = false := by
  simp +decide [labelLine]

/-- Every statement that stands by itself is empty or says something. -/
theorem plainStatement?_legible {kind : BlockKind} {g : String → Params → Except Fault String}
    (hg : plainStatement? kind = some g) {indent text : String} {ps : Params}
    (h : g indent ps = .ok text) : Legible text := by
  cases kind <;> simp only [plainStatement?, Option.some.injEq, reduceCtorEq] at hg <;> subst hg
  case menu =>
    rw [menu, bind_eq_ok] at h
    obtain ⟨cs, -, h⟩ := h
    cases h
    exact .inr (by simp +decide)
  all_goals obtain rfl := Except.ok.inj h
  case say => exact say_legible none indent ps
  case jump | call => exact transfer_legible rfl _ none indent
  case returnFrom | scene | pause | transition | withEffect | stopMusic | stopSound =>
    exact .inr (by simp +decide [sceneChange, pause, transition, stop])
  case character => exact legible_optional (by simp +decide [characterLine])
  all_goals exact legible_optional (by simp +decide)

/-- A suite of lines that hold something to read. -/
lemma suite_isSuite {indent text : String} (hi : '\n' ∉ indent.toList)
    (h : isBlankLine text = false) : IsSuite (indent ++ indentation) (suite indent text) := by
  have hrows : suite indent text = stacked ((Text.lines text).map fun line =>
      if isBlankLine line then "" else indent ++ indentation ++ line) := by
    rw [suite, stacked, List.map_map]
    congr 1
    refine List.map_congr_left fun line _ => ?_
    simp only [suiteLine, Function.comp_apply]
    split_ifs <;> rfl
  have hlines : Text.lines (suite indent text) = (Text.lines text).map (fun line =>
      if isBlankLine line then "" else indent ++ indentation ++ line) ++ [""] := by
    rw [hrows]
    refine lines_stacked fun row hrow => ?_
    obtain ⟨line, hline, rfl⟩ := List.mem_map.mp hrow
    split_ifs
    · simp
    · simp [hi, spaces_indentation.newline_notMem, newline_notMem_of_mem_lines hline]
  constructor
  · obtain ⟨line, hline, hfull⟩ := exists_line_of_not_isBlankLine h
    refine ⟨indent ++ indentation ++ line, ?_, by simp [hfull]⟩
    rw [hlines, List.mem_append, List.mem_map]
    exact .inl ⟨line, hline, by simp [hfull]⟩
  · intro row hrow hfull
    rw [hlines, List.mem_append, List.mem_map, List.mem_singleton] at hrow
    rcases hrow with ⟨line, -, rfl⟩ | rfl
    · split_ifs at hfull ⊢
      · cases hfull
      · simp [startsWith]
    · cases hfull

lemma body_empty (indent : String) : body indent "" = suite indent "pass" := by
  have hlines : Text.lines "pass" = ["pass"] := rfl
  have hline : suiteLine (indent ++ indentation) "pass" = indent ++ indentation ++ "pass" ++ "\n" :=
    if_neg (by decide)
  rw [suite, hlines, List.map_singleton, hline, concat_cons, concat_nil, String.append_empty,
    String.append_assoc]
  rfl

lemma body_isSuite {indent text : String} (hi : '\n' ∉ indent.toList) (h : Legible text) :
    IsSuite (indent ++ indentation) (body indent text) := by
  rcases h with rfl | h
  · rw [body_empty]
    exact suite_isSuite hi rfl
  · have hne : text.isEmpty = false := by
      by_contra hempty
      rw [Bool.not_eq_false, String.isEmpty_iff] at hempty
      rw [hempty] at h
      cases h
    rw [body, hne, if_neg Bool.false_ne_true]
    exact suite_isSuite hi h

end Script

/-- Whatever a block writes is empty or says something. -/
theorem Block.render_legible {b : Block} {indent text : String} {around : Surroundings}
    (h : b.render indent around = .ok text) : Legible text := by
  unfold render at h
  split at h
  · obtain ⟨label, -, h⟩ := bind_eq_ok.mp h
    cases h
    exact legible_optional (labelLine_legible _ _)
  · cases h
    exact .inl rfl
  · cases h
    exact .inl rfl
  · cases h
    exact .inl rfl
  · obtain ⟨ps, -, h⟩ := bind_eq_ok.mp h
    cases h
    exact transfer_legible rfl _ _ _
  · obtain ⟨ps, -, h⟩ := bind_eq_ok.mp h
    cases h
    exact transfer_legible rfl _ _ _
  · obtain ⟨ps, -, h⟩ := bind_eq_ok.mp h
    cases h
    exact say_legible _ _ _
  · obtain ⟨ps, -, h⟩ := bind_eq_ok.mp h
    cases h
    exact legible_optional (labelLine_legible _ _)
  · obtain ⟨statement, hs, h⟩ := bind_eq_ok.mp h
    cases h
    cases statement with
    | none => exact .inl rfl
    | some t =>
      unfold statement? at hs
      split at hs
      · cases hs
        exact .inr (by simp +decide)
      · cases hs
      · rename_i g hg _
        obtain ⟨ps, -, hs⟩ := bind_eq_ok.mp hs
        obtain ⟨own, hown, hs⟩ := bind_eq_ok.mp hs
        cases hs
        exact plainStatement?_legible hg hown

namespace Flow

/-- Texts of blocks at a given indentation, one behind the other. A control statement is its header
with a suite, made of such a text one level deeper; a conditional may have two. -/
inductive LaidOut (f : Flow) : String → String → Prop
  | nothing {indent : String} : LaidOut f indent ""
  | own {indent text : String} {b : Block} (mem : b ∈ f.scene.blocks)
      (plain : b.kind.isControl = false) (written : b.render indent f.around = .ok text) :
      LaidOut f indent text
  | append {indent s t : String} (first : LaidOut f indent s) (second : LaidOut f indent t) :
      LaidOut f indent (s ++ t)
  | control {indent line inner : String} {b : Block} {ps : Params} (mem : b ∈ f.scene.blocks)
      (params : b.paramList = .ok ps) (header : header? b.kind ps = some line)
      (nested : LaidOut f (indent ++ indentation) inner)
      (suite : IsSuite (indent ++ indentation) (body indent inner)) :
      LaidOut f indent (indent ++ line ++ body indent inner)
  | ifElse {indent line yes no : String} {b : Block} {ps : Params} (mem : b ∈ f.scene.blocks)
      (kind : b.kind = .ifElse) (params : b.paramList = .ok ps)
      (header : header? b.kind ps = some line) (first : LaidOut f (indent ++ indentation) yes)
      (second : LaidOut f (indent ++ indentation) no)
      (suite : IsSuite (indent ++ indentation) (body indent yes))
      (other : IsSuite (indent ++ indentation) (Script.suite indent no)) :
      LaidOut f indent
        (indent ++ line ++ (body indent yes ++ (indent ++ "else:\n" ++ Script.suite indent no)))

variable {f : Flow} {fuel : ℕ} {seen seen' : List Value} {indent text : String} {follow : Bool}
  {id : Value} {b : Block} {fault : Fault}

lemma LaidOut.legible (h : f.LaidOut indent text) : Legible text := by
  have hheader : ∀ {kind ps line}, header? kind ps = some line → ∀ indent rest : String,
      Legible (indent ++ line ++ rest) := by
    intro kind ps line hl indent rest
    have hk := isControl_of_header? hl
    right
    cases kind <;> simp only [BlockKind.isControl, Bool.false_eq_true] at hk
    · simp +decide [(header?_ifElse hl).2]
    · simp +decide [(header?_whileLoop hl).2]
    · simp +decide [(header?_forLoop hl).2]
  induction h with
  | nothing => exact .inl rfl
  | own _ _ written => exact Block.render_legible written
  | append _ _ ihs iht => exact ihs.append iht
  | control _ _ header => exact hheader header _ _
  | ifElse _ _ _ header => exact hheader header _ _

lemma ownText_laidOut (hb : b ∈ f.scene.blocks) (h : f.ownText indent b = .ok text) :
    f.LaidOut indent text := by
  unfold ownText at h
  split at h
  · cases h
    exact .nothing
  · cases hk : b.kind.isControl with
    | false => exact .own hb hk h
    | true =>
      rw [Block.render_of_control hk] at h
      cases h
      exact .nothing

/-- A control statement around texts that are laid out one level deeper. -/
lemma ControlText.laidOut (hi : '\n' ∉ indent.toList) (hb : b ∈ f.scene.blocks)
    (hbranch : ∀ {n text}, f.branchFrom fuel seen indent b n = .ok text →
      f.LaidOut (indent ++ indentation) text)
    (h : f.ControlText fuel seen indent b text) : f.LaidOut indent text := by
  -- a suite says something because its text does or is empty
  have hsuite : ∀ {n text}, f.branchFrom fuel seen indent b n = .ok text →
      IsSuite (indent ++ indentation) (body indent text) :=
    fun hn => body_isSuite hi (hbranch hn).legible
  cases h with
  | silent => exact .nothing
  | @ifElse ps yes no kind params first second =>
    cases hl : header? .ifElse ps with
    | none =>
      rw [conditional_of_no_header hl]
      exact .nothing
    | some line =>
      rw [conditional_eq hl]
      rw [← kind] at hl
      split_ifs with hno
      · rw [String.append_empty]
        exact .control hb params hl (hbranch first) (hsuite first)
      · have hother := hsuite second
        rw [body, if_neg hno] at hother
        exact .ifElse hb kind params hl (hbranch first) (hbranch second) (hsuite first) hother
  | @whileLoop ps inner kind params first =>
    cases hl : header? .whileLoop ps with
    | none =>
      rw [whileLoop_of_no_header hl]
      exact .nothing
    | some line =>
      rw [whileLoop_eq hl]
      exact .control hb params (kind ▸ hl) (hbranch first) (hsuite first)
  | @forLoop ps inner kind params first =>
    cases hl : header? .forLoop ps with
    | none =>
      rw [forLoop_of_no_header hl]
      exact .nothing
    | some line =>
      rw [forLoop_eq hl]
      exact .control hb params (kind ▸ hl) (hbranch first) (hsuite first)

theorem chainFrom_laidOut (hi : '\n' ∉ indent.toList)
    (h : f.chainFrom fuel seen indent follow id = .ok (text, seen')) : f.LaidOut indent text := by
  induction fuel generalizing seen indent follow id text seen' with
  | zero =>
    cases h
    exact .nothing
  | succ fuel ih =>
    cases chainFrom_step h with
    | skipped => exact .nothing
    | missing => exact .nothing
    | control _ found written =>
      have hdeeper : '\n' ∉ (indent ++ indentation).toList := by
        simp [hi, spaces_indentation.newline_notMem]
      refine written.laidOut hi (Scene.findBlock_mem found) fun hn => ?_
      rcases branchFrom_eq_ok hn with rfl | ⟨next, after, -, hnext⟩
      · exact .nothing
      · exact ih hdeeper hnext
    | single _ found written => exact ownText_laidOut (Scene.findBlock_mem found) written
    | followed _ found written _ rest =>
      have hfirst := ownText_laidOut (Scene.findBlock_mem found) written
      refine foldlM_invariant (fun done => f.LaidOut indent done.1) ?_ hfirst rest
      intro t _ done done' hdone hstep
      obtain ⟨more, hmore, htext⟩ := extend_eq_ok hstep
      rw [htext]
      exact hdone.append (ih hi hmore)

/-- What stops a chain at a block: its parameters cannot be read, its statement cannot be written, or
what follows it cannot be put in order. -/
inductive Halts (f : Flow) (b : Block) (fault : Fault) : Prop
  | params (h : b.paramList = .error fault)
  | statement {indent : String} (h : b.render indent f.around = .error fault)
  | order (h : f.scene.sortByPlace (f.links.next b.id) = .error fault)

lemma branchFrom_eq_error {n : ℕ} (h : f.branchFrom fuel seen indent b n = .error fault) :
    ∃ next, f.chainFrom fuel seen (indent ++ indentation) true next = .error fault := by
  unfold branchFrom at h
  split at h
  · cases h
  · rename_i next _
    rcases bind_eq_error.mp h with h | ⟨done, -, h⟩
    · exact ⟨next, h⟩
    · cases h

/-- A chain that fails does so at a block of the scene. -/
theorem chainFrom_eq_error (h : f.chainFrom fuel seen indent follow id = .error fault) :
    ∃ b ∈ f.scene.blocks, f.Halts b fault := by
  induction fuel generalizing seen indent follow id with
  | zero => cases h
  | succ fuel ih =>
    cases he : f.enters seen id with
    | false =>
      rw [chainFrom_of_not_enters he] at h
      cases h
    | true =>
    cases hb : f.scene.findBlock id with
    | none =>
      rw [chainFrom_of_missing he hb] at h
      cases h
    | some b =>
      have hmem := Scene.findBlock_mem hb
      have hbranch : ∀ {n}, f.branchFrom fuel (seen ++ [id]) indent b n = .error fault →
          ∃ b ∈ f.scene.blocks, f.Halts b fault := by
        intro n hn
        obtain ⟨next, hnext⟩ := branchFrom_eq_error hn
        exact ih hnext
      cases hk : b.kind.isControl with
      | false =>
        rw [chainFrom_plain he hb hk] at h
        rcases bind_eq_error.mp h with h | ⟨own, -, h⟩
        · unfold ownText at h
          split at h
          · cases h
          · exact ⟨b, hmem, .statement h⟩
        split at h
        · rcases bind_eq_error.mp h with h | ⟨next, -, h⟩
          · exact ⟨b, hmem, .order h⟩
          obtain ⟨t, -, done, h⟩ := foldlM_eq_error h
          rcases bind_eq_error.mp h with h | ⟨more, -, h⟩
          · exact ih h
          · cases h
        · cases h
      | true =>
        cases hkind : b.kind <;> simp only [hkind, BlockKind.isControl, Bool.false_eq_true] at hk
        case ifElse =>
          rw [chainFrom_ifElse he hb hkind] at h
          rcases bind_eq_error.mp h with h | ⟨ps, -, h⟩
          · exact ⟨b, hmem, .params h⟩
          split at h
          · cases h
          rcases bind_eq_error.mp h with h | ⟨yes, -, h⟩
          · exact hbranch h
          rcases bind_eq_error.mp h with h | ⟨no, -, h⟩
          · exact hbranch h
          cases h
        case whileLoop =>
          rw [chainFrom_whileLoop he hb hkind] at h
          rcases bind_eq_error.mp h with h | ⟨ps, -, h⟩
          · exact ⟨b, hmem, .params h⟩
          split at h
          · cases h
          rcases bind_eq_error.mp h with h | ⟨inner, -, h⟩
          · exact hbranch h
          cases h
        case forLoop =>
          rw [chainFrom_forLoop he hb hkind] at h
          rcases bind_eq_error.mp h with h | ⟨ps, -, h⟩
          · exact ⟨b, hmem, .params h⟩
          split at h
          · cases h
          rcases bind_eq_error.mp h with h | ⟨inner, -, h⟩
          · exact hbranch h
          cases h

/-- No control statement lacks its suite. A chain is empty or has a line that is not blank. It is put
together from what blocks write, and a control block writes its header with a suite in which something
stands, all of it behind the margin; the same holds for the second suite of a conditional and for the
chains in the suites, however deep they are. A chain is refused only for what cannot be an id, and
where a block cannot be written. -/
theorem chain_suites_filled (f : Flow) (seen : List Value) (hi : Spaces indent) (follow : Bool)
    (id : Value) :
    (∃ text after, f.chain seen indent follow id = .ok (text, after) ∧
      (text = "" ∨ ∃ line ∈ lines text, isBlankLine line = false) ∧ f.LaidOut indent text) ∨
    ∃ fault, f.chain seen indent follow id = .error fault ∧
      (id.requireKey = .error fault ∨ ∃ b ∈ f.scene.blocks, f.Halts b fault) := by
  cases h : f.chain seen indent follow id with
  | ok done =>
    obtain ⟨text, after⟩ := done
    obtain ⟨-, -, hchain⟩ := bind_eq_ok.mp h
    have hlaid := chainFrom_laidOut hi.newline_notMem hchain
    exact .inl ⟨text, after, rfl, hlaid.legible.imp_right exists_line_of_not_isBlankLine, hlaid⟩
  | error fault =>
    refine .inr ⟨fault, rfl, ?_⟩
    rcases bind_eq_error.mp h with hkey | ⟨-, -, hchain⟩
    · exact .inl hkey
    · exact .inr (chainFrom_eq_error hchain)

end Flow

/-- A conditional around two loops, one around some code and one without anything. -/
def Scene.nestedScene : Scene where
  id := .text "s"
  name := .text "Scene"
  label := .text "start"
  blocks :=
    [{ id := .text "choose", kind := .ifElse, params := .object [("condition", .text "ready")],
        x := .int 0, y := .int 0 },
      { id := .text "loop", kind := .whileLoop, params := .object [("condition", .text "busy")],
        x := .int 0, y := .int 3 },
      { id := .text "work", kind := .code, params := .object [("code", .text "a = 1\n\nb = 2")],
        x := .int 0, y := .int 6 },
      { id := .text "each", kind := .forLoop,
        params := .object [("variable", .text "x"), ("iterable", .text "xs")],
        x := .int 4, y := .int 0 }]
  ports :=
    [{ id := .text "choose.o", nodeId := .text "choose", name := .text "out", direction := .output },
      { id := .text "loop.i", nodeId := .text "loop", name := .text "in", direction := .input },
      { id := .text "loop.o", nodeId := .text "loop", name := .text "out", direction := .output },
      { id := .text "work.i", nodeId := .text "work", name := .text "in", direction := .input },
      { id := .text "each.i", nodeId := .text "each", name := .text "in", direction := .input }]
  connections :=
    [{ id := .text "1", fromPort := .text "choose.o", toPort := .text "each.i" },
      { id := .text "2", fromPort := .text "choose.o", toPort := .text "loop.i" },
      { id := .text "3", fromPort := .text "loop.o", toPort := .text "work.i" }]

/-- Suites within suites; the loop without anything says `pass`. -/
theorem Scene.nestedScene_suites :
    ∃ (f : Flow) (text : String), Scene.nestedScene.flow { cast := none, labels := none } = .ok f ∧
      f.chain [] "" true (.text "choose") = .ok (text, [.text "choose"]) ∧
      text = "if ready:\n        while busy:\n                    python:\n" ++
        "                        a = 1\n\n                        b = 2\n\n\n" ++
        "else:\n        for x in xs:\n            pass\n\n" ∧
      (∃ line ∈ lines text, isBlankLine line = false) ∧ f.LaidOut "" text := by
  obtain ⟨f, hf, hrun⟩ : ∃ f, Scene.nestedScene.flow { cast := none, labels := none } = .ok f ∧
      f.chain [] "" true (.text "choose") =
        .ok ("if ready:\n        while busy:\n                    python:\n" ++
          "                        a = 1\n\n                        b = 2\n\n\n" ++
          "else:\n        for x in xs:\n            pass\n\n", [.text "choose"]) :=
    ⟨_, rfl, eq_ok_of_toOption (by decide +kernel)⟩
  rcases Flow.chain_suites_filled f [] spaces_empty true (.text "choose") with
    ⟨text, after, hchain, hfilled, hlaid⟩ | ⟨fault, hchain, -⟩
  · cases hrun.symm.trans hchain
    exact ⟨f, _, hf, hrun, rfl, hfilled.resolve_left (by decide), hlaid⟩
  · cases hrun.symm.trans hchain

end NovelGraph
