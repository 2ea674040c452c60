import Mathlib.Tactic.SplitIfs
import NovelGraph.Proofs.Outcome
import NovelGraph.Proofs.Texts
import NovelGraph.Script.Suite

/-! Texts that end where a line ends, and the statements of blocks as such texts. -/
namespace NovelGraph

open Outcome

namespace Text

/-- The text is empty, or its last character ends a line. -/
def EndsLine (s : String) : Prop := ∀ c ∈ s.toList.getLast?, c = '\n'

@[simp] lemma endsLine_empty : EndsLine "" := by simp [EndsLine]

@[simp] lemma endsLine_append (s t : String) :
    EndsLine (s ++ t) ↔ EndsLine t ∧ (t = "" → EndsLine s) := by
  by_cases ht : t = ""
  · simp [ht]
  · have hne : t.toList ≠ [] := by simpa using ht
    simp [EndsLine, ht, List.getLast?_append_of_ne_nil _ hne]

lemma endsLine_of_last {s : String} (h : s.toList.getLast? = some '\n') : EndsLine s := by
  intro c hc
  rw [h] at hc
  exact (Option.mem_some_iff.mp hc).symm

lemma endsLine_append_of_last (s : String) {t : String} (h : t.toList.getLast? = some '\n') :
    EndsLine (s ++ t) := by
  rw [endsLine_append]
  refine ⟨endsLine_of_last h, fun ht => ?_⟩
  simp [ht] at h

@[simp] lemma endsLine_newline : EndsLine "\n" := endsLine_of_last rfl

lemma endsLine_line (s : String) : EndsLine (s ++ "\n") := by simp

lemma endsLine_ite {p : Prop} [Decidable p] {s t : String} (hs : EndsLine s) (ht : EndsLine t) :
    EndsLine (if p then s else t) := by
  split_ifs
  · exact hs
  · exact ht

/-- A statement that is left out, or is one line. -/
lemma endsLine_optional {p : Prop} [Decidable p] (s : String) :
    EndsLine (if p then "" else s ++ "\n") := endsLine_ite endsLine_empty (endsLine_line s)

@[simp] lemma concat_nil : concat [] = "" := rfl

@[simp] lemma concat_cons (s : String) (rest : List String) :
    concat (s :: rest) = s ++ concat rest := rfl

@[simp] lemma concat_append (parts rest : List String) :
    concat (parts ++ rest) = concat parts ++ concat rest := by
  induction parts with
  | nil => simp
  | cons s parts ih => simp [ih, String.append_assoc]

lemma endsLine_concat {parts : List String} (h : ∀ s ∈ parts, EndsLine s) :
    EndsLine (concat parts) := by
  induction parts with
  | nil => simp
  | cons s rest ih =>
    rw [concat_cons, endsLine_append]
    exact ⟨ih fun t ht => h t (by simp [ht]), fun _ => h s (by simp)⟩

/-- The given text stands in a longer one, from the beginning of a line on. -/
def HasLine (text line : String) : Prop :=
  ∃ before after, text = before ++ line ++ after ∧ EndsLine before

lemma hasLine_self (line : String) : HasLine line line := ⟨"", "", by simp, by simp⟩

lemma hasLine_append (start rest : String) : HasLine (start ++ rest) start :=
  ⟨"", rest, by simp, by simp⟩

lemma HasLine.within {text line before : String} (h : HasLine text line) (hb : EndsLine before)
    (after : String) : HasLine (before ++ text ++ after) line := by
  obtain ⟨front, back, rfl, hf⟩ := h
  refine ⟨before ++ front, back ++ after, by simp only [String.append_assoc], ?_⟩
  rw [endsLine_append]
  exact ⟨hf, fun _ => hb⟩

lemma HasLine.concat {texts : List String} {text line : String} (h : HasLine text line)
    (hmem : text ∈ texts) (hend : ∀ t ∈ texts, EndsLine t) : HasLine (concat texts) line := by
  obtain ⟨before, after, rfl⟩ := List.append_of_mem hmem
  rw [concat_append, concat_cons, ← String.append_assoc]
  exact h.within (endsLine_concat fun t ht => hend t (by simp [ht])) _

end Text

namespace Script

open Text

lemma suite_endsLine (indent text : String) : EndsLine (suite indent text) := by
  apply endsLine_concat
  intro line hline
  obtain ⟨piece, -, rfl⟩ := List.mem_map.mp hline
  unfold suiteLine
  split_ifs <;> simp

lemma choice_endsLine (indent : String) (c : Choice) : EndsLine (c.render indent) := by
  unfold Choice.render
  split_ifs <;> simp [endsLine_of_last (s := "pass\n") rfl]

lemma menu_endsLine {indent text : String} {ps : Params} (h : menu indent ps = .ok text) :
    EndsLine text := by
  rw [menu, bind_eq_ok] at h
  obtain ⟨cs, -, h⟩ := h
  cases h
  have hcs : EndsLine (concat (cs.map (·.render indent))) := by
    apply endsLine_concat
    intro line hline
    obtain ⟨c, -, rfl⟩ := List.mem_map.mp hline
    exact choice_endsLine indent c
  simp [hcs, endsLine_of_last (s := "menu:\n") rfl]

/-- Every statement that stands by itself is empty or ends its last line. -/
theorem plainStatement?_endsLine {kind : BlockKind} {g : String → Params → Except Fault String}
    (hg : plainStatement? kind = some g) {indent text : String} {ps : Params}
    (h : g indent ps = .ok text) : EndsLine text := by
  cases kind <;> simp only [plainStatement?, Option.some.injEq, reduceCtorEq] at hg <;> subst hg
  case menu => exact menu_endsLine h
  all_goals obtain rfl := Except.ok.inj h
  case scene | transition | withEffect | stopMusic | stopSound => exact endsLine_line _
  case say => exact endsLine_ite endsLine_empty (endsLine_ite (endsLine_line _) (endsLine_line _))
  case returnFrom => simp [endsLine_of_last (s := "return\n") rfl]
  case pause => simp [pause, endsLine_of_last (s := ")\n") rfl]
  case code =>
    refine endsLine_ite endsLine_empty ?_
    simp [suite_endsLine, endsLine_of_last (s := "python:\n") rfl]
  case character =>
    refine endsLine_ite endsLine_empty ?_
    simp [characterLine, endsLine_of_last (s := ")\n") rfl]
  all_goals exact endsLine_optional _

lemma body_endsLine (indent text : String) : EndsLine (body indent text) := by
  unfold body
  split_ifs
  · simp [endsLine_of_last (s := "pass\n") rfl]
  · exact suite_endsLine _ _

lemma conditional_endsLine (indent : String) (ps : Params) (yes no : String) :
    EndsLine (conditional indent ps yes no) := by
  refine endsLine_ite endsLine_empty ?_
  rw [endsLine_append]
  refine ⟨endsLine_ite endsLine_empty ?_, fun _ => ?_⟩
  · simp [suite_endsLine, endsLine_of_last (s := "else:\n") rfl]
  · simp [body_endsLine, endsLine_of_last (s := ":\n") rfl]

lemma whileLoop_endsLine (indent : String) (ps : Params) (text : String) :
    EndsLine (whileLoop indent ps text) := by
  refine endsLine_ite endsLine_empty ?_
  simp [body_endsLine, endsLine_of_last (s := ":\n") rfl]

lemma forLoop_endsLine (indent : String) (ps : Params) (text : String) :
    EndsLine (forLoop indent ps text) := by
  refine endsLine_ite endsLine_empty ?_
  simp [body_endsLine, endsLine_of_last (s := ":\n") rfl]

lemma labelLine_endsLine (indent label : String) : EndsLine (labelLine indent label) := by
  simp [labelLine, endsLine_of_last (s := ":\n") rfl]

end Script

open Script Text

lemma Block.statement?_endsLine {b : Block} {indent text : String}
    (h : b.statement? indent = .ok (some text)) : EndsLine text := by
  unfold statement? at h
  split at h
  · cases h
    simp [endsLine_of_last (s := "return\n") rfl]
  · cases h
  · rename_i g hg _
    obtain ⟨ps, -, h⟩ := bind_eq_ok.mp h
    obtain ⟨t, ht, h⟩ := bind_eq_ok.mp h
    cases h
    exact plainStatement?_endsLine hg ht

/-- Whatever a block writes ends where a line ends. -/
theorem Block.render_endsLine {b : Block} {indent text : String} {around : Surroundings}
    (h : b.render indent around = .ok text) : EndsLine text := by
  unfold render at h
  split at h
  · obtain ⟨label, -, h⟩ := bind_eq_ok.mp h
    cases h
    exact endsLine_ite endsLine_empty (labelLine_endsLine _ _)
  · cases h
    exact endsLine_empty
  · cases h
    exact endsLine_empty
  · cases h
    exact endsLine_empty
  · obtain ⟨ps, -, h⟩ := bind_eq_ok.mp h
    cases h
    exact endsLine_optional _
  · obtain ⟨ps, -, h⟩ := bind_eq_ok.mp h
    cases h
    exact endsLine_optional _
  · obtain ⟨ps, -, h⟩ := bind_eq_ok.mp h
    cases h
    exact endsLine_ite endsLine_empty (endsLine_ite (endsLine_line _) (endsLine_line _))
  · obtain ⟨ps, -, h⟩ := bind_eq_ok.mp h
    cases h
    exact endsLine_ite endsLine_empty (labelLine_endsLine _ _)
  · obtain ⟨statement, hs, h⟩ := bind_eq_ok.mp h
    cases h
    cases statement with
    | none => exact endsLine_empty
    | some t => exact statement?_endsLine hs

end NovelGraph
