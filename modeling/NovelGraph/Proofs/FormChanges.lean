import NovelGraph.Proofs.EditorChanges
import NovelGraph.Proofs.FormWork

/-! The form tells when a parameter is saved, but not when the choices of a menu are changed in
place. -/
namespace NovelGraph

open Scene (OneState)

namespace Editor

variable {e d : Editor}

/-- A new state of a block is shown wherever the block is. -/
lemma Ready.putBlock {fail : Editor → Prop} (h : e.Ready) (b : Block) :
    Ends (Editor.putBlock b) e
      (fun _ e' => e.Edited e' ∧ e'.desk = e.desk ∧ e'.form = e.form.putBlock b) fail := by
  unfold Editor.putBlock
  rw [ends_modify]
  set e' : Editor := { e with session := _, canvas := _, outline := _, form := _ }
  have hscenes : e'.scenes = e.scenes.map (·.putBlock b) := by
    simp only [e', scenes, Canvas.scenes, Outline.putBlock, Canvas.putBlock]
    cases e.session.project <;> cases e.outline.project <;> cases e.canvas.project <;>
      cases e.canvas.scene <;> simp [Project.putBlock]
  have hprojects : e'.projects = e.projects.map (·.putBlock b) := by
    simp only [e', projects, Outline.putBlock, Canvas.putBlock]
    cases e.session.project <;> cases e.outline.project <;> cases e.canvas.project <;> simp
  refine ⟨⟨⟨⟨?_, ?_, ?_, ?_⟩, ?_, h.idle, h.marked⟩, ?_, List.prefix_rfl, rfl, rfl⟩, rfl, rfl⟩
  · rw [hscenes]
    simp only [OneState, List.forall_mem_map]
    exact fun s hs t ht htag => congrArg (·.putBlock b) (h.synced.scenes s hs t ht htag)
  · rw [hprojects]
    simp only [List.forall_mem_map]
    exact fun p hp q hq htag => congrArg (·.putBlock b) (h.synced.projects p hp q hq htag)
  · rw [hscenes]
    exact List.forall_mem_map.mpr h.synced.sceneTags
  · rw [hprojects]
    exact List.forall_mem_map.mpr h.synced.projectTags
  · simpa [e'] using h.isOpen
  · simp only [openTag, e', Option.map_map]
    rfl

end Editor

namespace Form

variable {e d : Editor} {b : Block}

/-- A parameter is set, unless the parameters are none. -/
lemma ends_assign (h : e.Ready) (key : String) (v : Value) : Ends (assign key v) e
    (fun _ e' => e.Hushed e' ∧
      (e.form.block.isSome → ∃ b ms, e'.form.block = some b ∧ b.params = .object ms))
    fun e' => e' = e ∧ ∀ b ms, e.form.block = some b → b.params ≠ .object ms := by
  unfold assign
  rw [ends_bind, ends_get]
  split
  case h_1 hb => exact ⟨h.hushed_of_kept (.refl e), by simp [hb]⟩
  case h_2 b hb =>
    split
    case h_1 ms _ =>
      rw [ends_bind]
      refine (h.putBlock _).imp ?_
      rintro - d ⟨hedited, hdesk, hform⟩
      have hblock : d.form.block =
          some { b with params := .object (Value.assign ms key v) } := by
        simp [hform, Form.putBlock, hb]
      have hd : e.Hushed d := ⟨hedited, hdesk ▸ .refl _⟩
      split_ifs
      · exact ⟨e.steady_hushed hd (.of_eq rfl), fun _ => ⟨_, _, hblock, rfl⟩⟩
      · exact ⟨hd, fun _ => ⟨_, _, hblock, rfl⟩⟩
    case h_2 w hnone =>
      refine ⟨rfl, fun c ms hc => ?_⟩
      obtain rfl := Option.some.inj (hb.symm.trans hc)
      exact hnone ms

/-- What is done to a block on the form is told in the end. -/
lemma ends_announce (h : e.Edited d) (hb : d.form.block.isSome) :
    Ends announce d (fun _ => e.Honest) e.Honest := by
  obtain ⟨b, hb⟩ := Option.isSome_iff_exists.mp hb
  unfold announce
  rw [ends_bind, ends_get, hb]
  exact h.told rfl

lemma ends_saveParam (h : e.Ready) (key : String) (v : Value) :
    Ends (saveParam key v) e (fun _ => e.Honest) e.Honest := by
  have hstay := h.honest_of_kept (.refl e)
  unfold saveParam
  rw [ends_bind, ends_get]
  split_ifs with hb
  · rw [ends_bind]
    refine (ends_assign h key v).mono ?_ ?_
    · rintro - d ⟨hd, hblock⟩
      obtain ⟨b, ms, hb, -⟩ := hblock hb
      exact ends_announce hd.toEdited (by simp [hb])
    · rintro d ⟨rfl, -⟩
      exact hstay
  · exact hstay

lemma aside_changeField (key : String) (f : Widget → Widget) : Aside (changeField key f) :=
  aside_formChange _

/-- What is written into a field is told if it is taken over. -/
theorem ends_type (h : e.Ready) (key text : String) :
    Ends (type key text) e (fun _ => e.Honest) e.Honest := by
  have hkept : ∀ d, e.Kept d → e.Honest d := fun _ => h.honest_of_kept
  have hparam : ∀ d v, e.Kept d → Ends (saveParam key v) d (fun _ => e.Honest) e.Honest :=
    fun d v hd => (ends_saveParam (h.kept hd) key v).both fun _ he => (hkept d hd).trans he
  unfold type
  refine (aside_changeField _ _).step e.steady_kept (.refl e) hkept fun _ d hd => ?_
  refine aside_get.step e.steady_kept hd hkept fun _ d hd => ?_
  split
  · exact hparam d _ hd
  · exact hparam d _ hd
  · exact hkept d hd

theorem ends_tick (h : e.Ready) (key : String) (on : Bool) :
    Ends (tick key on) e (fun _ => e.Honest) e.Honest := by
  have hkept : ∀ d, e.Kept d → e.Honest d := fun _ => h.honest_of_kept
  unfold tick
  refine (aside_changeField _ _).step e.steady_kept (.refl e) hkept fun _ d hd => ?_
  exact (ends_saveParam (h.kept hd) key _).both fun _ he => (hkept d hd).trans he

/-- While the form is saved: nothing has been done yet, or what has been done can go on. -/
structure Saving (e d : Editor) : Prop where
  hushed : e.Hushed d
  block : d.form.block.isSome
  begun : d.content = e.content ∨ ∃ b ms, d.form.block = some b ∧ b.params = .object ms

lemma Saving.ends_assign (h : Saving e d) (key : String) (v : Value) :
    Ends (assign key v) d (fun _ => Saving e) e.Honest := by
  refine (Form.ends_assign h.hushed.ready key v).mono ?_ ?_
  · rintro - d' ⟨hd', hblock⟩
    obtain ⟨b, ms, hb, hms⟩ := hblock h.block
    exact ⟨h.hushed.trans hd', by simp [hb], .inr ⟨b, ms, hb, hms⟩⟩
  · rintro d' ⟨rfl, hnone⟩
    rcases h.begun with hsame | ⟨b, ms, hb, hms⟩
    · exact ⟨h.hushed.toEdited, .inl hsame⟩
    · exact absurd hms (hnone b ms hb)

theorem ends_save (h : e.Ready) : Ends save e (fun _ => e.Honest) e.Honest := by
  unfold save
  rw [ends_bind, ends_get]
  dsimp only
  split_ifs with hb
  · have hstart : Saving e e := ⟨h.hushed_of_kept (.refl e), hb, .inl rfl⟩
    rw [ends_bind]
    refine (ends_forM (I := Saving e) (fun g _ d hd => ?_) hstart).imp fun _ d hd => ?_
    · split
      · split_ifs
        · exact hd
        · exact hd.ends_assign _ _
      · exact hd
    · split
      · rw [ends_bind]
        refine (hd.ends_assign _ _).imp fun _ d hd => ?_
        rw [ends_bind]
        exact ends_announce (e.steady_edited hd.hushed.toEdited (.of_eq rfl)) hd.block
      · exact ends_announce hd.hushed.toEdited hd.block
  · exact h.honest_of_kept (.refl e)

section Choices

/-- Choices are replaced in the block itself where the form shares them, and nothing is told. -/
lemma ends_replaceChoices (h : e.Ready) (data : Value) (rows : List String)
    (currentRow : Option Nat) :
    Ends (replaceChoices data rows currentRow) e (fun _ => e.Hushed) e.Hushed := by
  have hstay := h.hushed_of_kept (.refl e)
  unfold replaceChoices
  rw [ends_bind, ends_get]
  split
  · exact hstay
  · split_ifs
    · rw [ends_bind]
      refine (ends_assign h _ _).mono ?_ ?_
      · rintro - d ⟨hd, -⟩
        exact e.steady_hushed hd (.of_eq rfl)
      · rintro d ⟨rfl, -⟩
        exact hstay
    · exact e.steady_hushed hstay (.of_eq rfl)

lemma aside_askChoice (title : String) (text jump condition : Value) (needsText : Bool) :
    Aside (askChoice title text jump condition needsText) := by
  unfold askChoice
  refine (aside_askText _ _ _).bind fun t => ?_
  split
  · exact aside_pure _
  refine .ite (aside_pure _) ((aside_askText _ _ _).bind fun j => ?_)
  split
  · exact aside_pure _
  refine (aside_askText _ _ _).bind fun c => ?_
  split
  · exact aside_pure _
  · exact aside_pure _

theorem ends_addChoice (h : e.Ready) : Ends addChoice e (fun _ => e.Hushed) e.Hushed := by
  have hkept : ∀ d, e.Kept d → e.Hushed d := fun _ => h.hushed_of_kept
  unfold addChoice
  refine (aside_askChoice _ _ _ _ _).step e.steady_kept (.refl e) hkept fun answer d hd => ?_
  split
  · exact hkept d hd
  refine aside_get.step e.steady_kept hd hkept fun _ d hd => ?_
  split
  · exact hkept d hd
  split
  · exact (ends_replaceChoices (h.kept hd) _ _ _).both fun _ he => (hkept d hd).trans he
  · exact hkept d hd

theorem ends_editChoice (h : e.Ready) : Ends editChoice e (fun _ => e.Hushed) e.Hushed := by
  have hkept : ∀ d, e.Kept d → e.Hushed d := fun _ => h.hushed_of_kept
  unfold editChoice
  refine aside_get.step e.steady_kept (.refl e) hkept fun _ d hd => ?_
  split
  · exact hkept d hd
  split
  · exact (aside_note rfl d).both fun _ he => hkept _ (hd.trans he)
  refine (aside_ofExcept _).step e.steady_kept hd hkept fun _ d hd => ?_
  split_ifs
  · refine (aside_ofExcept _).step e.steady_kept hd hkept fun _ d hd => ?_
    refine (aside_askChoice _ _ _ _ _).step e.steady_kept hd hkept fun answer d hd => ?_
    split
    · exact hkept d hd
    split
    · exact (ends_replaceChoices (h.kept hd) _ _ _).both fun _ he => (hkept d hd).trans he
    · exact hkept d hd
  · exact hkept d hd

theorem ends_removeChoice (h : e.Ready) : Ends removeChoice e (fun _ => e.Hushed) e.Hushed := by
  have hkept : ∀ d, e.Kept d → e.Hushed d := fun _ => h.hushed_of_kept
  unfold removeChoice
  refine aside_get.step e.steady_kept (.refl e) hkept fun _ d hd => ?_
  split
  · exact hkept d hd
  split
  · exact (aside_note rfl d).both fun _ he => hkept _ (hd.trans he)
  refine (aside_ofExcept _).step e.steady_kept hd hkept fun _ d hd => ?_
  split_ifs
  · split
    · exact (ends_replaceChoices (h.kept hd) _ _ _).both fun _ he => (hkept d hd).trans he
    · exact hkept d hd
    · exact hkept d hd
  · exact hkept _ (hd.trans (.of_eq rfl))

lemma aside_askFile (title filters : Value) :
    Aside (Editor.atDesk (Desk.askFile title filters)) := by
  refine aside_dialog (n := .file title filters) rfl fun d => ?_
  obtain ⟨_, _, _, answers, _⟩ := d
  cases answers with
  | nil => rfl
  | cons v _ => cases v <;> rfl

def Button.removes : Button → Bool
  | .removeChoice => true
  | .chooseFile _ _ _ | .chooseBackground _ _ _ => false

/-- The field that a button puts the name of a file into. -/
def Button.target : Button → Option String
  | .chooseFile key _ _ | .chooseBackground key _ _ => key
  | .removeChoice => none

/-- A button that does not remove a choice puts the name of a file into a field. -/
theorem ends_pressButton_of_chooses (hb : e.form.button.any (·.removes) = false) :
    Ends pressButton e (fun _ => e.Kept) e.Kept := by
  have hfile : ∀ (key : Option String) (title filters : Value) (shown : String → String),
      Aside (do
        let path ← Editor.atDesk (Desk.askFile title filters)
        if !path.isEmpty then key.forM (changeField · (·.setText (shown path)))) := by
    intro key title filters shown
    refine (aside_askFile _ _).bind fun path => .ite ?_ (aside_pure _)
    cases key with
    | none => exact aside_pure _
    | some key => exact aside_changeField _ _
  unfold pressButton
  rw [ends_bind, ends_get]
  split
  · exact .refl e
  · next hremoves => simp [hremoves, Button.removes] at hb
  · exact hfile _ _ _ id e
  · exact hfile _ _ _ (fun path => if Text.startsWith (Path.ofText path).stem "bg " then
      (Path.ofText path).stem else "bg " ++ (Path.ofText path).stem) e

theorem ends_pressButton_of_removes (h : e.Ready) (hb : e.form.button.any (·.removes) = true) :
    Ends pressButton e (fun _ => e.Hushed) e.Hushed := by
  have hkept : ∀ d, e.Kept d → e.Hushed d := fun _ => h.hushed_of_kept
  unfold pressButton
  rw [ends_bind, ends_get]
  split
  · exact hkept e (.refl e)
  · rw [ends_bind, ends_get]
    dsimp only
    split_ifs
    · exact ends_removeChoice h
    · exact (aside_note rfl e).both fun _ he => hkept _ he
    · exact hkept _ (.of_eq rfl)
  · next hchooses => simp [hchooses, Button.removes] at hb
  · next hchooses => simp [hchooses, Button.removes] at hb

end Choices
end Form
end NovelGraph
