import NovelGraph.Proofs.DefinitionLines

/-! The constants and default values among the definitions of a project. A default value is written
for the first block with a name, and the name is not the one that the value is given to. -/
namespace NovelGraph

open Outcome Script Text

namespace Project

variable {p : Project} {lines : List String} {text line : String} {done : List Block} {b : Block}

/-- The parameter by which blocks with variables are told apart. -/
def nameOf (b : Block) : String :=
  match b.paramList with
  | .ok ps => param ps "name"
  | .error _ => ""

/-- The first block with a default value under a name. -/
def firstDefault? (blocks : List Block) (name : String) : Option Block :=
  blocks.find? fun b => b.kind == .defaultVar && nameOf b == name

/-- The line is the statement of the first default value under some name. -/
def StatesDefault (blocks : List Block) (line : String) : Prop :=
  ∃ name b ps, name ≠ "" ∧ firstDefault? blocks name = some b ∧ b.paramList = .ok ps ∧
    line = assignment "default" "variable" "" ps

lemma nameOf_of_paramList {ps : Params} (h : b.paramList = .ok ps) :
    nameOf b = param ps "name" := by
  rw [nameOf, h]

section Histories

lemma firstDefault?_append_of_ne (hk : b.kind ≠ .defaultVar) (name : String) :
    firstDefault? (done ++ [b]) name = firstDefault? done name := by
  simp [firstDefault?, List.find?_append, hk]

lemma firstDefault?_append (hk : b.kind = .defaultVar) (name : String) :
    firstDefault? (done ++ [b]) name =
      (firstDefault? done name).or (if nameOf b = name then some b else none) := by
  rw [firstDefault?, List.find?_append, firstDefault?, List.find?_singleton, hk]
  simp

/-- Other blocks do not matter. -/
lemma firstDefault?_filter (blocks : List Block) (name : String) :
    firstDefault? (blocks.filter fun b => b.kind == .define || b.kind == .defaultVar) name =
      firstDefault? blocks name := by
  rw [firstDefault?, List.find?_filter, firstDefault?]
  congr 1
  funext b
  rw [Bool.eq_iff_iff]
  simp only [decide_eq_true_eq, Bool.and_eq_true, Bool.or_eq_true]
  tauto

lemma statesDefault_append_of_ne (hk : b.kind ≠ .defaultVar) :
    StatesDefault (done ++ [b]) line ↔ StatesDefault done line := by
  simp only [StatesDefault, firstDefault?_append_of_ne hk]

/-- A name that is empty or was there before states nothing new. -/
lemma statesDefault_append_of_old (hk : b.kind = .defaultVar)
    (hold : nameOf b = "" ∨ (firstDefault? done (nameOf b)).isSome = true) :
    StatesDefault (done ++ [b]) line ↔ StatesDefault done line := by
  have hsame : ∀ name, name ≠ "" → firstDefault? (done ++ [b]) name = firstDefault? done name := by
    intro name hne
    rw [firstDefault?_append hk]
    split_ifs with hname
    · subst hname
      obtain ⟨c, hc⟩ := Option.isSome_iff_exists.mp (hold.resolve_left hne)
      rw [hc, Option.some_or]
    · exact Option.or_none
  constructor
  · rintro ⟨name, c, ps, hne, hc, h⟩
    exact ⟨name, c, ps, hne, hsame name hne ▸ hc, h⟩
  · rintro ⟨name, c, ps, hne, hc, h⟩
    exact ⟨name, c, ps, hne, (hsame name hne).trans hc, h⟩

lemma statesDefault_append_of_new {ps : Params} (hk : b.kind = .defaultVar)
    (hps : b.paramList = .ok ps) (hne : nameOf b ≠ "")
    (hnew : firstDefault? done (nameOf b) = none) :
    StatesDefault (done ++ [b]) line ↔
      StatesDefault done line ∨ line = assignment "default" "variable" "" ps := by
  constructor
  · rintro ⟨name, c, qs, hname, hc, hqs, hline⟩
    rw [firstDefault?_append hk, Option.or_eq_some_iff] at hc
    rcases hc with hc | ⟨-, hc⟩
    · exact .inl ⟨name, c, qs, hname, hc, hqs, hline⟩
    · split_ifs at hc
      obtain rfl := Option.some.inj hc
      obtain rfl := Except.ok.inj (hps.symm.trans hqs)
      exact .inr hline
  · rintro (⟨name, c, qs, hname, hc, hqs, hline⟩ | hline)
    · refine ⟨name, c, qs, hname, ?_, hqs, hline⟩
      rw [firstDefault?_append hk, hc, Option.some_or]
    · refine ⟨nameOf b, b, ps, hne, ?_, hps, hline⟩
      rw [firstDefault?_append hk, hnew, Option.none_or, if_pos rfl]

end Histories

section Statements

/-- A statement with its heading, if that is not near. Empty statements are left out. -/
def addStatement (word heading line : String) (lines : List String) : List String :=
  if line.isEmpty then lines
  else if hasHeading word lines then lines ++ [line]
  else lines ++ [heading, line]

variable {word heading statement : String}

lemma subset_addStatement : lines ⊆ addStatement word heading statement lines := by
  intro line hline
  rw [addStatement]
  split_ifs <;> simp [hline]

lemma mem_of_mem_addStatement (h : line ∈ addStatement word heading statement lines) :
    line ∈ lines ∨ line = heading ∨ line = statement := by
  rw [addStatement] at h
  split_ifs at h
  · exact .inl h
  · simp only [List.mem_append, List.mem_singleton] at h
    exact h.imp_right .inr
  · simpa using h

lemma addStatement_endsLine (hlines : ∀ line ∈ lines, EndsLine line) (hheading : EndsLine heading)
    (hstatement : EndsLine statement) :
    ∀ line ∈ addStatement word heading statement lines, EndsLine line := by
  intro line hline
  rcases mem_of_mem_addStatement hline with hline | rfl | rfl
  · exact hlines line hline
  · exact hheading
  · exact hstatement

lemma mem_addStatement (h : statement ≠ "") :
    statement ∈ addStatement word heading statement lines := by
  rw [addStatement, if_neg (by simpa using h)]
  split_ifs <;> simp

/-- The constant or the default value of a block. -/
def variableStep (state : List String × List String × List String) (b : Block) :
    Except Fault (List String × List String × List String) := do
  let ps ← b.paramList
  let name := param ps "name"
  if b.kind = .define then
    if name.isEmpty || state.2.1.contains name then pure state
    else
      pure (addStatement "define" "# Define Statements\n" (assignment "define" "name" "" ps)
        state.1, state.2.1 ++ [name], state.2.2)
  else if name.isEmpty || state.2.2.contains name then pure state
  else
    pure (addStatement "default" "# Default Statements\n" (assignment "default" "variable" "" ps)
      state.1, state.2.1, state.2.2 ++ [name])

lemma variableSection_eq (p : Project) (before : List String) :
    p.variableSection before = (do
      let state ← (p.blocks.filter fun b => b.kind == .define || b.kind == .defaultVar).foldlM
        variableStep (before, [], [])
      pure (if state.2.1.isEmpty && state.2.2.isEmpty then state.1 else state.1 ++ ["\n"])) := by
  rw [variableSection]
  congr 2
  funext state b
  obtain ⟨lines, defined, defaulted⟩ := state
  simp only [variableStep]
  refine bind_congr fun ps => ?_
  by_cases hk : b.kind = .define
  · simp only [hk, if_true]
    rfl
  · simp only [hk, if_false]
    rfl

/-- What a block with a variable does: nothing if its name is empty or was there before, else it
adds a statement. -/
inductive Stated (state : List String × List String × List String) (b : Block) :
    List String × List String × List String → Prop
  | oldConstant (hk : b.kind = .define) (hold : nameOf b = "" ∨ nameOf b ∈ state.2.1) :
      Stated state b state
  | newConstant {ps : Params} (hk : b.kind = .define) (hps : b.paramList = .ok ps)
      (hne : nameOf b ≠ "") :
      Stated state b
        (addStatement "define" "# Define Statements\n" (assignment "define" "name" "" ps) state.1,
          state.2.1 ++ [nameOf b], state.2.2)
  | oldDefault (hk : b.kind ≠ .define) (hold : nameOf b = "" ∨ nameOf b ∈ state.2.2) :
      Stated state b state
  | newDefault {ps : Params} (hk : b.kind ≠ .define) (hps : b.paramList = .ok ps)
      (hne : nameOf b ≠ "") (hnew : nameOf b ∉ state.2.2) :
      Stated state b
        (addStatement "default" "# Default Statements\n" (assignment "default" "variable" "" ps)
          state.1, state.2.1, state.2.2 ++ [nameOf b])

theorem variableStep_eq_ok {state state' : List String × List String × List String}
    (h : variableStep state b = .ok state') : Stated state b state' := by
  have hcases : ∀ (name : String) (names : List String),
      (name.isEmpty || names.contains name) = true ↔ name = "" ∨ name ∈ names := by simp
  rw [variableStep, bind_eq_ok] at h
  obtain ⟨ps, hps, h⟩ := h
  simp only [← nameOf_of_paramList hps, hcases] at h
  split_ifs at h with hk hold hold
  · obtain rfl := Except.ok.inj h
    exact .oldConstant hk hold
  · obtain rfl := Except.ok.inj h
    exact .newConstant hk hps (not_or.mp hold).1
  · obtain rfl := Except.ok.inj h
    exact .oldDefault hk hold
  · obtain rfl := Except.ok.inj h
    exact .newDefault hk hps (not_or.mp hold).1 (not_or.mp hold).2

end Statements

section Passes

variable {ps : Params}

lemma assignment_endsLine (word key : String) (ps : Params) :
    EndsLine (assignment word key "" ps) := endsLine_optional _

lemma assignment_head {word key : String} (h : param ps key ≠ "") :
    HasLine (assignment word key "" ps) (word ++ " " ++ param ps key ++ " = ") := by
  rw [assignment, if_neg (by simpa using h), String.empty_append, String.append_assoc]
  exact hasLine_append _ _

lemma assignment_ne_empty {word key : String} (h : param ps key ≠ "") :
    assignment word key "" ps ≠ "" := by
  rw [assignment, if_neg (by simpa using h)]
  simp

lemma constant_unlike (ps : Params) :
    startsWith (assignment "define" "name" "" ps) "default " = false := by
  rw [assignment]
  split_ifs
  · rfl
  · simp [startsWith, List.isPrefixOf]

/-- What is known when some blocks with variables have been gone through. -/
structure VariablesDone (before : List String) (done : List Block)
    (state : List String × List String × List String) : Prop where
  kept : before ⊆ state.1
  ends : ∀ line ∈ state.1, EndsLine line
  constants : ∀ name ∈ state.2.1, ∃ line ∈ state.1, HasLine line ("define " ++ name ++ " = ")
  defined : ∀ b ∈ done, b.kind = .define → nameOf b ≠ "" → nameOf b ∈ state.2.1
  defaulted : ∀ name, name ∈ state.2.2 ↔ name ≠ "" ∧ (firstDefault? done name).isSome = true
  defaults : ∀ line, startsWith line "default " = true →
    (line ∈ state.1 ↔ StatesDefault done line)

namespace VariablesDone

variable {before : List String} {state : List String × List String × List String}

lemma old_constant (hs : VariablesDone before done state) (hk : b.kind = .define)
    (hold : nameOf b = "" ∨ nameOf b ∈ state.2.1) : VariablesDone before (done ++ [b]) state := by
  have hne : b.kind ≠ .defaultVar := by
    rw [hk]
    decide
  refine ⟨hs.kept, hs.ends, hs.constants, ?_, ?_, ?_⟩
  · exact List.forall_mem_append.mpr ⟨hs.defined, by simpa using fun _ => hold.resolve_left⟩
  · simp only [firstDefault?_append_of_ne hne]
    exact hs.defaulted
  · simp only [statesDefault_append_of_ne hne]
    exact hs.defaults

/-- A constant that is new gets a line; the default values stay. -/
lemma new_constant (hs : VariablesDone before done state) (hk : b.kind = .define)
    (hps : b.paramList = .ok ps) (hname : nameOf b ≠ "") :
    VariablesDone before (done ++ [b])
      (addStatement "define" "# Define Statements\n" (assignment "define" "name" "" ps) state.1,
        state.2.1 ++ [nameOf b], state.2.2) := by
  have hne : b.kind ≠ .defaultVar := by
    rw [hk]
    decide
  refine ⟨List.Subset.trans hs.kept subset_addStatement,
    addStatement_endsLine hs.ends (endsLine_of_last rfl) (assignment_endsLine _ _ _), ?_, ?_, ?_,
    ?_⟩
  · intro name hmem
    rcases List.mem_append.mp hmem with hmem | hmem
    · obtain ⟨line, hline, hhead⟩ := hs.constants name hmem
      exact ⟨line, subset_addStatement hline, hhead⟩
    · rw [nameOf_of_paramList hps] at hname hmem
      rw [List.mem_singleton.mp hmem]
      exact ⟨_, mem_addStatement (assignment_ne_empty hname), assignment_head hname⟩
  · refine List.forall_mem_append.mpr ⟨fun c hc hck hcn => ?_, by simp⟩
    exact List.mem_append_left _ (hs.defined c hc hck hcn)
  · simp only [firstDefault?_append_of_ne hne]
    exact hs.defaulted
  · intro line hstart
    rw [statesDefault_append_of_ne hne, ← hs.defaults line hstart]
    refine ⟨fun hline => ?_, fun hline => subset_addStatement hline⟩
    rcases mem_of_mem_addStatement hline with hline | rfl | rfl
    · exact hline
    · exact absurd hstart (by decide)
    · rw [constant_unlike] at hstart
      exact absurd hstart Bool.false_ne_true

lemma defined_append (hs : VariablesDone before done state) (hk : b.kind ≠ .define) :
    ∀ c ∈ done ++ [b], c.kind = .define → nameOf c ≠ "" → nameOf c ∈ state.2.1 :=
  List.forall_mem_append.mpr ⟨hs.defined, by simp [hk]⟩

lemma old_default (hs : VariablesDone before done state) (hk : b.kind = .defaultVar)
    (hne : b.kind ≠ .define) (hold : nameOf b = "" ∨ nameOf b ∈ state.2.2) :
    VariablesDone before (done ++ [b]) state := by
  have hfirst : nameOf b = "" ∨ (firstDefault? done (nameOf b)).isSome = true :=
    hold.imp_right fun hmem => ((hs.defaulted _).mp hmem).2
  refine ⟨hs.kept, hs.ends, hs.constants, hs.defined_append hne, ?_, ?_⟩
  · intro name
    rw [hs.defaulted, firstDefault?_append hk]
    refine and_congr_right fun hnonempty => ?_
    split_ifs with heq
    · subst heq
      simp [hfirst.resolve_left hnonempty]
    · rw [Option.or_none]
  · simp only [statesDefault_append_of_old hk hfirst]
    exact hs.defaults

/-- A default value under a name that is new gets a line, if it has a variable; the constants
stay. -/
lemma new_default (hs : VariablesDone before done state) (hk : b.kind = .defaultVar)
    (hne : b.kind ≠ .define) (hps : b.paramList = .ok ps) (hname : nameOf b ≠ "")
    (hfresh : nameOf b ∉ state.2.2) :
    VariablesDone before (done ++ [b])
      (addStatement "default" "# Default Statements\n" (assignment "default" "variable" "" ps)
        state.1, state.2.1, state.2.2 ++ [nameOf b]) := by
  have hnew : firstDefault? done (nameOf b) = none := by
    rw [hs.defaulted] at hfresh
    simpa [hname] using hfresh
  refine ⟨List.Subset.trans hs.kept subset_addStatement,
    addStatement_endsLine hs.ends (endsLine_of_last rfl) (assignment_endsLine _ _ _), ?_,
    hs.defined_append hne, ?_, ?_⟩
  · intro name hmem
    obtain ⟨line, hline, hhead⟩ := hs.constants name hmem
    exact ⟨line, subset_addStatement hline, hhead⟩
  · intro name
    rw [List.mem_append, List.mem_singleton, hs.defaulted, firstDefault?_append hk]
    by_cases heq : nameOf b = name
    · subst heq
      simp [hname]
    · simp [heq, Ne.symm heq]
  · intro line hstart
    rw [statesDefault_append_of_new hk hps hname hnew, ← hs.defaults line hstart]
    constructor
    · intro hline
      rcases mem_of_mem_addStatement hline with hline | rfl | rfl
      · exact .inl hline
      · exact absurd hstart (by decide)
      · exact .inr rfl
    · rintro (hline | rfl)
      · exact subset_addStatement hline
      · refine mem_addStatement fun hempty => ?_
        rw [hempty] at hstart
        exact absurd hstart (by decide)

lemma step (hs : VariablesDone before done state) (hb : b.kind = .define ∨ b.kind = .defaultVar)
    {state' : List String × List String × List String} (h : variableStep state b = .ok state') :
    VariablesDone before (done ++ [b]) state' := by
  cases variableStep_eq_ok h with
  | oldConstant hk hold => exact hs.old_constant hk hold
  | newConstant hk hps hname => exact hs.new_constant hk hps hname
  | oldDefault hk hold => exact hs.old_default (hb.resolve_left hk) hk hold
  | newDefault hk hps hname hnew => exact hs.new_default (hb.resolve_left hk) hk hps hname hnew

end VariablesDone

/-- The constants and default values behind the lines before them. -/
lemma variableSection_eq_ok {before : List String} (h : p.variableSection before = .ok lines)
    (hbefore : ∀ line ∈ before, Unlike "default " line) :
    before ⊆ lines ∧ (∀ line ∈ lines, EndsLine line) ∧
      (∀ b ∈ p.blocks, b.kind = .define → ∀ ps, b.paramList = .ok ps → param ps "name" ≠ "" →
        ∃ line ∈ lines, HasLine line ("define " ++ param ps "name" ++ " = ")) ∧
      ∀ line, startsWith line "default " = true →
        (line ∈ lines ↔ StatesDefault p.blocks line) := by
  rw [variableSection_eq, bind_eq_ok] at h
  obtain ⟨state, hstate, h⟩ := h
  obtain rfl := Except.ok.inj h
  have hdone : VariablesDone before
      (p.blocks.filter fun b => b.kind == .define || b.kind == .defaultVar) state := by
    refine foldlM_history (VariablesDone before) ?_ ?_ hstate
    · intro done b hb s t hs hstep
      exact hs.step (by simpa using (List.mem_filter.mp hb).2) hstep
    · refine ⟨List.Subset.refl _, fun line hline => (hbefore line hline).1, by simp, by simp,
        by simp [firstDefault?], ?_⟩
      intro line hstart
      refine iff_of_false (fun hline => ?_) (by simp [StatesDefault, firstDefault?])
      rw [(hbefore line hline).2] at hstart
      exact Bool.false_ne_true hstart
  refine ⟨fun line hline => mem_closed.mpr (.inl (hdone.kept hline)), ?_, ?_, ?_⟩
  · intro line hline
    rcases mem_closed.mp hline with hline | ⟨-, rfl⟩
    · exact hdone.ends line hline
    · exact endsLine_newline
  · intro b hb hk ps hps hname
    rw [← nameOf_of_paramList hps] at hname ⊢
    obtain ⟨line, hline, hhead⟩ := hdone.constants _ (hdone.defined b (by simp [hb, hk]) hk hname)
    exact ⟨line, mem_closed.mpr (.inl hline), hhead⟩
  · intro line hstart
    have hstates := hdone.defaults line hstart
    simp only [StatesDefault, firstDefault?_filter] at hstates
    rw [StatesDefault, ← hstates, mem_closed]
    refine or_iff_left ?_
    rintro ⟨-, rfl⟩
    exact absurd hstart (by decide)

end Passes

/-- What the lines of the definitions hold. Characters, constants and pictures have their lines,
default values only as far as they come first under their names. -/
structure Defining (p : Project) (lines : List String) : Prop where
  ends : ∀ line ∈ lines, EndsLine line
  cast : ∀ ms, p.characters = .object ms → ∀ name ∈ ms.map (·.1),
    ∃ line ∈ lines, HasLine line (characterHead name)
  characters : ∀ b ∈ p.blocks, b.kind = .character → ∀ ps, b.paramList = .ok ps →
    param ps "name" ≠ "" → ∃ line ∈ lines, HasLine line (characterHead (param ps "name"))
  constants : ∀ b ∈ p.blocks, b.kind = .define → ∀ ps, b.paramList = .ok ps →
    param ps "name" ≠ "" → ∃ line ∈ lines, HasLine line ("define " ++ param ps "name" ++ " = ")
  images : ∀ b ∈ p.blocks, b.kind = .image → ∀ ps, b.paramList = .ok ps → param ps "name" ≠ "" →
    param ps "path" ≠ "" →
    ∃ line ∈ lines, HasLine line ("image " ++ normalize (param ps "name") ++ " = ")
  defaults : ∀ line, startsWith line "default " = true →
    (line ∈ lines ↔ StatesDefault p.blocks line)

theorem definitionLines_defining (h : p.definitionLines = .ok lines) : p.Defining lines := by
  rw [definitionLines, bind_eq_ok] at h
  obtain ⟨images, himages, h⟩ := h
  obtain ⟨characters, hcharacters, h⟩ := bind_eq_ok.mp h
  obtain ⟨blocks, hblocks, h⟩ := bind_eq_ok.mp h
  obtain ⟨himagesUnlike, hpictures⟩ := imageSection_eq_ok himages
  obtain ⟨hblocksUnlike, hcast⟩ := characterBlockSection_eq_ok hblocks
  obtain ⟨hsub, hends, hconstants, hdefaults⟩ := variableSection_eq_ok h (by
    intro line hline
    rcases List.mem_append.mp hline with hline | hline
    · rcases List.mem_append.mp hline with hline | hline
      · exact himagesUnlike line hline
      · exact characterSection_unlike hcharacters line hline
    · exact hblocksUnlike line hline)
  have hproject : ∀ ms, p.characters = .object ms → ∀ name ∈ ms.map (·.1),
      ∃ line ∈ lines, HasLine line (characterHead name) := by
    intro ms hms name hname
    obtain ⟨line, hline, hhead⟩ := characterSection_mem hcharacters hms hname
    exact ⟨line, hsub (by simp [hline]), hhead⟩
  refine ⟨hends, hproject, ?_, hconstants, ?_, hdefaults⟩
  · intro b hb hk ps hps hname
    rcases hcast b hb hk ps hps hname with hold | ⟨line, hline, hhead⟩
    · obtain ⟨ms, hms, hmem⟩ := mem_of_namesCharacter hcharacters hname hold
      exact hproject ms hms _ hmem
    · exact ⟨line, hsub (by simp [hline]), hhead⟩
  · intro b hb hk ps hps hname hpath
    obtain ⟨line, hline, hhead⟩ := hpictures b hb hk ps hps hname hpath
    exact ⟨line, hsub (by simp [hline]), hhead⟩

/-- What becomes of the blocks that define something. Characters, constants and pictures with names
all have a line in the definitions. Of the default values those and only those are written that come
first under a name that is not empty; what counts there is the parameter `name`, and not the
variable that gets the value. -/
theorem definitions_of_blocks (h : p.definitions = .ok text) :
    (∀ b ∈ p.blocks, ∀ ps, b.paramList = .ok ps → param ps "name" ≠ "" →
      (b.kind = .character →
        HasLine text ("define " ++ normalize (param ps "name") ++ " = Character(")) ∧
      (b.kind = .define → HasLine text ("define " ++ param ps "name" ++ " = ")) ∧
      (b.kind = .image → param ps "path" ≠ "" →
        HasLine text ("image " ++ normalize (param ps "name") ++ " = "))) ∧
      (∀ b ∈ p.blocks, ∀ ps, b.paramList = .ok ps → param ps "name" ≠ "" →
        param ps "variable" ≠ "" → firstDefault? p.blocks (param ps "name") = some b →
          HasLine text ("default " ++ param ps "variable" ++ " = ")) ∧
      ∃ lines, p.definitionLines = .ok lines ∧ text = concat lines ∧
        (∀ line ∈ lines, EndsLine line) ∧
        ∀ line, startsWith line "default " = true →
          (line ∈ lines ↔ StatesDefault p.blocks line) := by
  obtain ⟨lines, hlines, rfl⟩ := definitions_eq_ok h
  have hdef := definitionLines_defining hlines
  have hwhole : ∀ {head : String}, (∃ line ∈ lines, HasLine line head) →
      HasLine (concat lines) head :=
    fun ⟨_, hmem, hhead⟩ => hhead.concat hmem hdef.ends
  refine ⟨?_, ?_, lines, hlines, rfl, hdef.ends, hdef.defaults⟩
  · intro b hb ps hps hname
    refine ⟨fun hk => ?_, fun hk => ?_, fun hk hpath => ?_⟩
    · exact hwhole (hdef.characters b hb hk ps hps hname)
    · exact hwhole (hdef.constants b hb hk ps hps hname)
    · exact hwhole (hdef.images b hb hk ps hps hname hpath)
  · intro b hb ps hps hname hvariable hfirst
    refine hwhole ⟨assignment "default" "variable" "" ps, ?_, assignment_head hvariable⟩
    rw [hdef.defaults]
    · exact ⟨_, b, ps, hname, hfirst, hps, rfl⟩
    · rw [assignment, if_neg (by simpa using hvariable)]
      simp [startsWith, List.isPrefixOf]

/-- A project of blocks that define something. -/
def ofDefinitions (blocks : List (BlockKind × Params)) : Project where
  name := .text "story"
  scenes :=
    [{ id := .text "s", name := .text "Scene", label := .text "start"
       blocks := blocks.map fun b => { id := .text "d", kind := b.1, params := .object b.2 } }]

/-- A character twice, a constant, a picture and two default values under one name. -/
def definingProject : Project :=
  ofDefinitions
    [(.character, [("name", .text "Ann B")]), (.character, [("name", .text "Ann B")]),
      (.define, [("name", .text "speed"), ("value", .text "2")]),
      (.image, [("name", .text "bg"), ("path", .text "bg.png")]),
      (.defaultVar, [("name", .text "n"), ("variable", .text "score"), ("value", .text "0")]),
      (.defaultVar, [("name", .text "n"), ("variable", .text "lost"), ("value", .text "1")])]

def definingText : String :=
  "# Image Definitions\nimage bg = \"bg.png\"\n\ndefine Ann_B = Character(None)\n\n" ++
    "# Define Statements\ndefine speed = 2\n# Default Statements\ndefault score = 0\n\n"

theorem definingProject_blocks :
    definingProject.definitions = .ok definingText ∧
      HasLine definingText "define Ann_B = Character(" ∧ HasLine definingText "define speed = " ∧
      HasLine definingText "image bg = " ∧ HasLine definingText "default score = " := by
  have h : definingProject.definitions = .ok definingText := eq_ok_of_toOption (by decide +kernel)
  obtain ⟨hblocks, hdefaults, -⟩ := definitions_of_blocks h
  have hchange : ∀ {head word : String}, HasLine definingText head → head = word →
      HasLine definingText word := fun hline heq => heq ▸ hline
  refine ⟨h, ?_, ?_, ?_, ?_⟩
  · exact hchange ((hblocks definingProject.blocks[0] (by decide) _ rfl (by decide +kernel)).1 rfl)
      (by decide +kernel)
  · exact hchange
      ((hblocks definingProject.blocks[2] (by decide) _ rfl (by decide +kernel)).2.1 rfl)
      (by decide +kernel)
  · exact hchange ((hblocks definingProject.blocks[3] (by decide) _ rfl (by decide +kernel)).2.2 rfl
      (by decide +kernel)) (by decide +kernel)
  · exact hchange (hdefaults definingProject.blocks[4] (by decide) _ rfl (by decide +kernel)
      (by decide +kernel) (by decide +kernel)) (by decide +kernel)

def namelessDefault : Project :=
  ofDefinitions [(.defaultVar, [("variable", .text "score"), ("value", .text "0")])]

/-- A default value without a name is lost. -/
theorem namelessDefault_definitions :
    (∃ b ∈ namelessDefault.blocks, b.kind = .defaultVar ∧
        ∃ ps, b.paramList = .ok ps ∧ param ps "variable" = "score" ∧
          assignment "default" "variable" "" ps = "default score = 0\n") ∧
      namelessDefault.definitions = .ok "" ∧ ¬HasLine "" "default score = " := by
  refine ⟨⟨_, List.mem_singleton_self _, rfl, _, rfl, rfl, rfl⟩, rfl, ?_⟩
  rintro ⟨before, after, h, -⟩
  simp at h

end Project
end NovelGraph
