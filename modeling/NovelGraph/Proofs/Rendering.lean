import NovelGraph.Proofs.Outcome
import NovelGraph.Script.Statement

/-! When a block has a statement. Parameters are read as texts, and every value has a text. Only the
answers of a menu are read in another way: a text is taken as JSON where it can be, and what it
denotes has to have items. -/
namespace NovelGraph

open Outcome Script

/-- A value without items: a number, a truth value or null. -/
def Value.isSingle : Value → Bool
  | .text _ | .list _ | .object _ => false
  | .null | .bool _ | .int _ | .float _ => true

lemma Value.iterate_eq_error_iff {v : Value} {f : Fault} :
    v.iterate = .error f ↔ v.isSingle = true ∧ f = .notIterable v := by
  cases v <;> simp [iterate, isSingle, eq_comm]

namespace Script

variable {ps : Params} {f : Fault} {indent : String}

/-- The answers of a menu are given as the JSON text of a value without items. -/
def AnswersSingle (ps : Params) (v : Value) : Prop :=
  ∃ s, Value.lookup ps "choices" = some (.text s) ∧ Json.read s = .ok v ∧ v.isSingle = true

lemma choices_eq_error_iff :
    choices ps = .error f ↔ ∃ v, AnswersSingle ps v ∧ f = .notIterable v := by
  unfold choices AnswersSingle
  split
  · rename_i s hs
    cases hread : Json.read s with
    | error e => simp [hs, hread]
    | ok v =>
      simp only [hs, Option.some.injEq, Value.text.injEq, exists_eq_left', hread, Except.ok.injEq]
      rw [bind_pure_eq_error, Value.iterate_eq_error_iff]
      constructor
      · rintro ⟨hsingle, hf⟩
        exact ⟨v, ⟨rfl, hsingle⟩, hf⟩
      · rintro ⟨w, ⟨rfl, hsingle⟩, hf⟩
        exact ⟨hsingle, hf⟩
  · rename_i items hs
    simp [hs]
  · rename_i htext _
    simp only [reduceCtorEq, false_iff]
    rintro ⟨v, ⟨s, hs, -⟩, -⟩
    exact htext s hs

lemma menu_eq_error_iff :
    menu indent ps = .error f ↔ ∃ v, AnswersSingle ps v ∧ f = .notIterable v := by
  rw [← choices_eq_error_iff]
  exact bind_pure_eq_error

/-- Of the statements that stand by themselves only a menu can fail. -/
lemma plainStatement?_eq_error_iff {kind : BlockKind} {g : String → Params → Except Fault String}
    (hg : plainStatement? kind = some g) :
    g indent ps = .error f ↔ kind = .menu ∧ ∃ v, AnswersSingle ps v ∧ f = .notIterable v := by
  cases kind <;> simp only [plainStatement?, Option.some.injEq, reduceCtorEq] at hg <;> subst hg
  case menu => simp [menu_eq_error_iff]
  all_goals simp

end Script

namespace Block

variable {b : Block} {ps : Params} {f : Fault} {indent : String} {around : Surroundings}

lemma paramList_of_object (h : b.params = .object ps) : b.paramList = .ok ps := by
  rw [paramList, h]
  rfl

lemma statement?_eq_error_iff (h : b.params = .object ps) :
    b.statement? indent = .error f ↔
      b.kind = .menu ∧ ∃ v, AnswersSingle ps v ∧ f = .notIterable v := by
  unfold statement?
  split
  · rename_i hk
    simp [hk]
  · rename_i hnone _
    have hk : b.kind ≠ .menu := by
      intro hk
      rw [hk] at hnone
      cases hnone
    simp [hk]
  · rename_i g hg _
    rw [paramList_of_object h, ok_bind, bind_pure_eq_error, plainStatement?_eq_error_iff hg]

lemma render_eq_error_iff_of_object (h : b.params = .object ps) :
    b.render indent around = .error f ↔
      b.kind = .menu ∧ ∃ v, AnswersSingle ps v ∧ f = .notIterable v := by
  have hps := paramList_of_object h
  unfold render
  split
  case h_9 => rw [bind_pure_eq_error, statement?_eq_error_iff h]
  all_goals
    rename_i hk
    simp [hk, startLine, startLabel, hps, ok_bind, pure, Except.pure]

/-- A block whose parameters are an object has a statement, at every indentation and in all
surroundings. The one exception is a menu whose answers are given as the JSON text of a value
without items; it fails on that value. -/
theorem render_fails_iff_answers_single (h : b.params = .object ps) (indent : String)
    (around : Surroundings) :
    ((∃ text, b.render indent around = .ok text) ↔
        ¬(b.kind = .menu ∧ ∃ v, AnswersSingle ps v)) ∧
      ∀ f, b.render indent around = .error f ↔
        b.kind = .menu ∧ ∃ v, AnswersSingle ps v ∧ f = .notIterable v := by
  have herror : ∀ f, b.render indent around = .error f ↔
      b.kind = .menu ∧ ∃ v, AnswersSingle ps v ∧ f = .notIterable v :=
    fun f => render_eq_error_iff_of_object h
  refine ⟨⟨?_, fun hmany => ?_⟩, herror⟩
  · rintro ⟨text, htext⟩ ⟨hk, v, hv⟩
    have hfails := (herror (.notIterable v)).mpr ⟨hk, v, hv, rfl⟩
    rw [htext] at hfails
    cases hfails
  · cases hrun : b.render indent around with
    | ok text => exact ⟨text, rfl⟩
    | error f =>
      obtain ⟨hk, v, hv, -⟩ := (herror f).mp hrun
      exact absurd ⟨hk, v, hv⟩ hmany

/-- A menu whose answers are a text. -/
def askingBlock (answers : String) : Block where
  id := .text "m"
  kind := .menu
  params := .object [("question", .list [.int 1, .null]), ("choices", .text answers)]
  x := .int 0
  y := .int 0

/-- Answers of several kinds in a list. -/
theorem askingBlock_list_rendered :
    (askingBlock "[5, null, [], \"Go\"]").params =
        .object [("question", .list [.int 1, .null]), ("choices", .text "[5, null, [], \"Go\"]")] ∧
      ∃ text, (askingBlock "[5, null, [], \"Go\"]").render "    " {} = .ok text := by
  have hread : Json.read "[5, null, [], \"Go\"]" =
      .ok (.list [.int 5, .null, .list [], .text "Go"]) := rfl
  refine ⟨rfl, (render_fails_iff_answers_single rfl "    " {}).1.mpr ?_⟩
  rintro ⟨-, v, s, hs, hv, hsingle⟩
  obtain rfl := Value.text.inj (Option.some.inj hs)
  rw [hread] at hv
  obtain rfl := Except.ok.inj hv
  cases hsingle

/-- A bare number as the answers of a menu stops the writing. -/
theorem askingBlock_number_fails :
    ∃ ps, (askingBlock "5").params = .object ps ∧
      (askingBlock "5").render "" {} = .error (.notIterable (.int 5)) :=
  ⟨_, rfl, rfl⟩

end Block

end NovelGraph
