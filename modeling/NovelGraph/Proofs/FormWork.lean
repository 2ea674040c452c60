import NovelGraph.Proofs.SideWork

/-! The form is filled, looked at and typed into without any effect on the project. Only what it
assigns to its block has one. -/
namespace NovelGraph.Form

lemma aside_formChange (f : Form → Form) : Aside (change f) := aside_modify fun _ => .of_eq rfl

lemma aside_value (key : String) (default : Value) : Aside (value key default) := by
  refine aside_get.bind fun e => ?_
  split
  · exact aside_pure _
  · exact (aside_ofExcept _).bind fun _ => aside_pure _

lemma aside_addLabel (key label : String) : Aside (addLabel key label) :=
  (aside_atHost _).bind fun _ => (aside_formChange _).seq (aside_pure _)

lemma aside_addField (field : Field) : Aside (addField field) :=
  (aside_formChange _).seq (aside_formChange _)

lemma aside_addLine (key label default : String) : Aside (addLine key label default) :=
  (aside_addLabel _ _).bind fun _ => (aside_value _ _).bind fun _ => aside_addField _

lemma aside_addArea (key label : String) : Aside (addArea key label) :=
  (aside_addLabel _ _).bind fun _ => (aside_value _ _).bind fun _ => aside_addField _

lemma aside_addCheck (key label : String) (default : Bool) : Aside (addCheck key label default) :=
  (aside_value _ _).bind fun _ => (aside_atHost _).bind fun _ => aside_addField _

lemma aside_addCombo {offers : EditorM (List (Value × Value))} (h : Aside offers)
    (key label default : String) (trigger : Trigger) (explains : Bool) :
    Aside (addCombo key label default offers trigger explains) :=
  (aside_addLabel _ _).bind fun _ => h.bind fun _ =>
    (aside_value _ _).bind fun _ => aside_addField _

lemma aside_offered {α : Type} (ask : Project → Except Fault (List α)) : Aside (offered ask) := by
  refine aside_get.bind fun e => ?_
  split
  · exact aside_pure _
  · exact aside_ofExcept _

lemma aside_addOptions (key label : String) (options : List String) (default : String) :
    Aside (addOptions key label options default) :=
  aside_addCombo (aside_mapM fun _ => (aside_atHost _).bind fun _ => aside_pure _) _ _ _ _ _

lemma aside_addCharacter (key label : String) : Aside (addCharacter key label) :=
  aside_addCombo ((aside_offered _).bind fun _ => aside_pure _) _ _ _ _ _

lemma aside_addPicture (key label : String) : Aside (addPicture key label) :=
  aside_addCombo
    ((aside_offered _).bind fun _ => (aside_offered _).bind fun _ => aside_pure _) _ _ _ _ _

lemma aside_addTarget (key label : String) : Aside (addTarget key label) :=
  aside_addCombo ((aside_offered _).bind fun _ => aside_pure _) _ _ _ _ _

lemma aside_addButton (button : Button) (tip : String) : Aside (addButton button tip) :=
  (aside_formChange _).seq (aside_formChange _)

lemma aside_addAudio (key label : String) : Aside (addAudio key label) :=
  (aside_addCombo ((aside_offered _).bind fun _ => aside_pure _) _ _ _ _ _).seq
    (aside_addButton _ _)

lemma aside_addFile (key label default kind : String) : Aside (addFile key label default kind) :=
  (aside_addLine _ _ _).seq (aside_addButton _ _)

lemma aside_addBackground (key label default : String) :
    Aside (addBackground key label default) := by
  refine Aside.seq (aside_addCombo ?_ _ _ _ _ _) (aside_addButton _ _)
  refine (aside_offered _).bind fun _ => aside_mapM fun _ => ?_
  exact .ite (aside_pure _) ((aside_atHost _).bind fun _ => aside_pure _)

lemma aside_addChoices : Aside addChoices := by
  refine (aside_formChange _).seq (aside_get.bind fun e => ?_)
  have hrest : ∀ stored, Aside (do
      let choices := readChoices stored
      let rows := (← Editor.ofExcept choices.data.iterate).map choiceRow
      make (.list rows)
      enter { key := "_choices_list", widget := .list rows }
      enter { key := "_choices_data", widget := .list [] }
      change ({ · with choices := some { choices with rows } })
      make (.button (.text "➕ Добавить") .null)
      make (.button (.text "✏️ Изменить") .null)
      make (.button (.text "➖ Удалить") .null)
      change ({ · with button := some .removeChoice })) := fun _ =>
    (aside_ofExcept _).bind fun _ => (aside_formChange _).seq ((aside_formChange _).seq
      ((aside_formChange _).seq ((aside_formChange _).seq ((aside_formChange _).seq
        ((aside_formChange _).seq ((aside_formChange _).seq (aside_formChange _)))))))
  split
  · exact (aside_pure _).bind hrest
  · exact (aside_ofExcept _).bind fun _ => (aside_pure _).bind hrest

/-- The fields for a kind of block are made, whatever it is. -/
lemma aside_addFields (k : BlockKind) : Aside (addFields k) := by
  cases k <;>
    simp only [addFields, fadeIn, fadeOut, loop, textLine, addTransition, addPosition, addLayer,
      addScreenTransition] <;>
    repeat' with_reducible first
      | exact aside_addLine _ _ _
      | exact aside_addOptions _ _ _ _
      | exact aside_addCheck _ _ _
      | exact aside_addAudio _ _
      | exact aside_addPicture _ _
      | exact aside_addTarget _ _
      | exact aside_addCharacter _ _
      | exact aside_addBackground _ _ _
      | exact aside_addFile _ _ _ _
      | exact aside_addArea _ _
      | exact aside_addChoices
      | exact aside_pure _
      | apply Aside.seq

theorem aside_setBlock (b : Option Block) : Aside (setBlock b) := by
  refine (aside_formChange _).seq ?_
  cases b with
  | none => exact aside_pure _
  | some b => exact aside_addFields b.kind

end NovelGraph.Form
