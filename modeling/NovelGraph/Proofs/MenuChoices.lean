import NovelGraph.Proofs.Margins
import NovelGraph.Proofs.OneLine

/-! Menus line by line. A choice brings its own line and, directly below, what it does. An
unconditional choice owns its action, which stands one level deeper. Behind a condition both stand
equally deep. -/
namespace NovelGraph.Script

open Outcome Text

namespace Choice

/-- The texts of a choice do not go on in another line. -/
structure OneLine (c : Choice) : Prop where
  text : '\n' ∉ c.text.toList
  jump : '\n' ∉ c.jump.toList
  condition : '\n' ∉ c.condition.toList

/-- Where the line of a choice begins: one level deep, or two behind a condition. -/
def margin (indent : String) (c : Choice) : String :=
  if c.condition.isEmpty then indent ++ indentation else indent ++ indentation ++ indentation

/-- The condition of a choice as the lines above it. -/
def guard (indent : String) (c : Choice) : List String :=
  if c.condition.isEmpty then [] else [indent ++ indentation ++ ("if " ++ c.condition ++ ":")]

def deed (c : Choice) : String := if c.jump.isEmpty then "pass" else "jump " ++ c.jump

def line (indent : String) (c : Choice) : String := c.margin indent ++ (spoken c.text ++ ":")

/-- What happens when a choice is taken. -/
def action (indent : String) (c : Choice) : String :=
  indent ++ indentation ++ indentation ++ c.deed

/-- The lines of a choice; one without text has none. -/
def lines (indent : String) (c : Choice) : List String :=
  if c.text.isEmpty then [] else c.guard indent ++ [c.line indent, c.action indent]

variable {indent : String} {c : Choice}

lemma render_eq_stacked (indent : String) (c : Choice) :
    c.render indent = stacked (c.lines indent) := by
  unfold render lines guard line action margin deed
  split_ifs <;> simp [String.append_assoc]

lemma margin_spaces (hi : Spaces indent) (c : Choice) : Spaces (c.margin indent) := by
  have hone := hi.append spaces_indentation
  unfold margin
  split_ifs
  · exact hone
  · exact hone.append spaces_indentation

lemma line_head (c : Choice) : (spoken c.text ++ ":").toList.head? = some '"' := by simp [spoken]

lemma deed_head (c : Choice) :
    ∃ d, c.deed.toList.head? = some d ∧ isBlank d = false := by
  unfold deed
  split_ifs
  · exact ⟨'p', rfl, rfl⟩
  · exact ⟨'j', by simp, rfl⟩

lemma unindented_line (hi : Spaces indent) (c : Choice) :
    unindented (c.line indent) = spoken c.text ++ ":" :=
  unindented_append_of_head (margin_spaces hi c) c.line_head rfl

lemma unindented_action (hi : Spaces indent) (c : Choice) :
    unindented (c.action indent) = c.deed := by
  obtain ⟨d, hd, hblank⟩ := c.deed_head
  exact unindented_append_of_head ((hi.append spaces_indentation).append spaces_indentation) hd
    hblank

lemma depth_action (hi : Spaces indent) (c : Choice) :
    depth (c.action indent) = (indent ++ indentation ++ indentation).length := by
  obtain ⟨d, hd, hblank⟩ := c.deed_head
  exact depth_append ((hi.append spaces_indentation).append spaces_indentation) hd hblank

/-- One level lies between a choice and its action, and none if the choice has a condition. -/
lemma depth_action_eq (hi : Spaces indent) (c : Choice) :
    depth (c.action indent) =
      depth (c.line indent) + if c.condition.isEmpty then indentation.length else 0 := by
  rw [depth_action hi, line, depth_append (margin_spaces hi c) c.line_head rfl, margin]
  split_ifs
  · rw [String.length_append]
  · rw [Nat.add_zero]

lemma newline_notMem_lines (hi : Spaces indent) (hc : c.OneLine) :
    ∀ row ∈ c.lines indent, '\n' ∉ row.toList := by
  have hindent := hi.newline_notMem
  have hmargin := (margin_spaces hi c).newline_notMem
  have hlevel := spaces_indentation.newline_notMem
  have hspoken : '\n' ∉ (escapeQuotes c.text).toList :=
    newline_notMem_replaceChar (by decide) hc.text
  have hguard : ∀ row ∈ c.guard indent, '\n' ∉ row.toList := by
    unfold guard
    split_ifs <;> simp [hindent, hlevel, hc.condition]
  have hdeed : '\n' ∉ c.deed.toList := by
    unfold deed
    split_ifs <;> simp [hc.jump]
  unfold lines
  split_ifs
  · simp
  · intro row hrow
    simp only [List.mem_append, List.mem_cons, List.not_mem_nil, or_false] at hrow
    rcases hrow with hrow | rfl | rfl
    · exact hguard row hrow
    · simp [line, spoken, hmargin, hspoken]
    · simp [action, hindent, hlevel, hdeed]

end Choice

variable {indent : String} {ps : Params} {cs : List Choice}

/-- The lines of a menu above its choices. -/
def menuHead (indent : String) (ps : Params) : List String :=
  let question := param ps "question"
  (if question.isEmpty then [] else [indent ++ spoken question]) ++ [indent ++ "menu:"]

lemma menu_eq_stacked (h : choices ps = .ok cs) (indent : String) :
    menu indent ps = .ok (stacked (menuHead indent ps ++ cs.flatMap (Choice.lines indent))) := by
  rw [menu, h, ok_bind, pure_eq_ok, stacked_append, stacked_flatMap, menuHead]
  simp only [Choice.render_eq_stacked]
  split_ifs <;> simp [String.append_assoc]

lemma newline_notMem_menuHead (hi : Spaces indent)
    (hquestion : '\n' ∉ (param ps "question").toList) :
    ∀ row ∈ menuHead indent ps, '\n' ∉ row.toList := by
  have hindent := hi.newline_notMem
  have hspoken : '\n' ∉ (escapeQuotes (param ps "question")).toList :=
    newline_notMem_replaceChar (by decide) hquestion
  rw [menuHead]
  split_ifs <;> simp [spoken, hindent, hspoken]

/-- Where the texts of a menu have no line breaks, every choice with text has a line of its own, and
directly below it the line of what it does, a jump or `pass`. This line stands deeper than that of
the choice exactly if the choice has no condition; otherwise both stand equally deep. -/
theorem menu_action_below_choice (hi : Spaces indent) (h : choices ps = .ok cs)
    (hquestion : '\n' ∉ (param ps "question").toList) (hcs : ∀ c ∈ cs, c.OneLine) :
    ∃ text, menu indent ps = .ok text ∧
      Text.lines text = menuHead indent ps ++ cs.flatMap (Choice.lines indent) ++ [""] ∧
      ∀ c ∈ cs, c.text ≠ "" →
        c.lines indent = c.guard indent ++ [c.line indent, c.action indent] ∧
        unindented (c.line indent) = spoken c.text ++ ":" ∧
        unindented (c.action indent) = (if c.jump.isEmpty then "pass" else "jump " ++ c.jump) ∧
        (depth (c.line indent) < depth (c.action indent) ↔ c.condition = "") ∧
        (c.condition ≠ "" → depth (c.action indent) = depth (c.line indent)) := by
  refine ⟨_, menu_eq_stacked h indent, lines_stacked ?_, fun c hc htext => ?_⟩
  · rw [List.forall_mem_append]
    refine ⟨newline_notMem_menuHead hi hquestion, fun row hrow => ?_⟩
    obtain ⟨c, hc, hrow⟩ := List.mem_flatMap.mp hrow
    exact Choice.newline_notMem_lines hi (hcs c hc) row hrow
  · have hdepth := c.depth_action_eq hi
    have hlevel : 0 < indentation.length := by decide
    refine ⟨if_neg (by simpa using htext), c.unindented_line hi, c.unindented_action hi, ?_, ?_⟩
    · by_cases hcond : c.condition = ""
      · simp [hdepth, hcond, hlevel]
      · simp [hdepth, hcond]
    · intro hcond
      simp [hdepth, hcond]

/-- A menu with a free answer and one behind a condition. -/
def gateMenu : Params :=
  [("question", .text "Where to?"),
    ("choices", .list [.text "Stay", .object [("text", .text "Go"), ("jump", .text "gate"),
      ("condition", .text "ready")]])]

theorem gateMenu_lines :
    (∃ text, menu "" gateMenu = .ok text ∧
      Text.lines text = ["\"Where to?\"", "menu:", "    \"Stay\":", "        pass",
        "    if ready:", "        \"Go\":", "        jump gate", ""]) ∧
      depth "    \"Stay\":" < depth "        pass" ∧
      depth "        jump gate" = depth "        \"Go\":" := by
  have hcs : choices gateMenu = .ok [⟨"Stay", "", ""⟩, ⟨"Go", "gate", "ready"⟩] := rfl
  have hone : ∀ c ∈ [(⟨"Stay", "", ""⟩ : Choice), ⟨"Go", "gate", "ready"⟩], c.OneLine := by
    simp only [List.forall_mem_cons, List.not_mem_nil, false_implies, implies_true, and_true]
    exact ⟨⟨by decide, by decide, by decide⟩, by decide, by decide, by decide⟩
  obtain ⟨text, htext, hlines, hchoices⟩ :=
    menu_action_below_choice spaces_empty hcs (by decide) hone
  obtain ⟨-, -, -, hstay, -⟩ := hchoices ⟨"Stay", "", ""⟩ (by simp) (by decide)
  obtain ⟨-, -, -, -, hgo⟩ := hchoices ⟨"Go", "gate", "ready"⟩ (by simp) (by decide)
  exact ⟨⟨text, htext, hlines⟩, hstay.mpr rfl, hgo (by decide)⟩

/-- The jump of an answer behind a condition is no deeper than the answer, so it is not its own. -/
theorem gateMenu_jump_not_deeper :
    ∃ above below line action,
      (menu "" gateMenu).map Text.lines = .ok (above ++ line :: action :: below) ∧
      line = "        \"Go\":" ∧ action = "        jump gate" ∧ ¬depth line < depth action :=
  ⟨["\"Where to?\"", "menu:", "    \"Stay\":", "        pass", "    if ready:"], [""], _, _, rfl,
    rfl, rfl, by decide⟩

end NovelGraph.Script
