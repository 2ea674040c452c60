import NovelGraph.Editor.Window
import NovelGraph.Proofs.Work

/-! Work that leaves the open project and the canvas alone: words are looked up, dialogs are shown,
fields are put on the form, and nothing is told of a change. -/
namespace NovelGraph

/-- Signals after which there is something to save. -/
def Signal.marks : Signal → Bool
  | .projectModified | .scenesModified | .propertiesSaved _ => true
  | .selectionChanged _ | .sceneSelected _ | .languageChanged _ => false

def Notice.marks : Notice → Bool
  | .signal s => s.marks
  | .event _ _ => false

/-- The second desk has noticed more than the first, but no change. -/
def Desk.Silent (d d' : Desk) : Prop := ∃ more, d'.log = d.log ++ more ∧ ∀ n ∈ more, n.marks = false

lemma Desk.Silent.refl (d : Desk) : d.Silent d := ⟨[], by simp⟩

lemma Desk.Silent.trans {d d' d'' : Desk} (h : d.Silent d') (h' : d'.Silent d'') :
    d.Silent d'' := by
  obtain ⟨more, hlog, hmore⟩ := h
  obtain ⟨rest, hlog', hrest⟩ := h'
  refine ⟨more ++ rest, ?_, List.forall_mem_append.mpr ⟨hmore, hrest⟩⟩
  rw [hlog', hlog, List.append_assoc]

/-- The project and its copies are as they were, and so is whether there is something to save. -/
structure Editor.Kept (e e' : Editor) : Prop where
  session : e'.session = e.session
  outline : e'.outline.project = e.outline.project
  canvas : e'.canvas = e.canvas
  nextTag : e'.desk.nextTag = e.desk.nextTag
  silent : e.desk.Silent e'.desk
  modified : e'.window.modified = e.window.modified
  canSave : e'.window.canSave = e.window.canSave

lemma Editor.Kept.of_eq {e e' : Editor}
    (h : (e'.session, e'.outline.project, e'.canvas, e'.desk.nextTag, e'.desk.log,
        e'.window.modified, e'.window.canSave) =
      (e.session, e.outline.project, e.canvas, e.desk.nextTag, e.desk.log, e.window.modified,
        e.window.canSave)) : e.Kept e' := by
  simp only [Prod.mk.injEq] at h
  obtain ⟨hsession, houtline, hcanvas, htag, hlog, hmodified, hcanSave⟩ := h
  exact ⟨hsession, houtline, hcanvas, htag, ⟨[], by simp [hlog]⟩, hmodified, hcanSave⟩

lemma Editor.Kept.refl (e : Editor) : e.Kept e := .of_eq rfl

lemma Editor.Kept.trans {e e' e'' : Editor} (h : e.Kept e') (h' : e'.Kept e'') : e.Kept e'' where
  session := h'.session.trans h.session
  outline := h'.outline.trans h.outline
  canvas := h'.canvas.trans h.canvas
  nextTag := h'.nextTag.trans h.nextTag
  silent := h.silent.trans h'.silent
  modified := h'.modified.trans h.modified
  canSave := h'.canSave.trans h.canSave

/-- Something that does not depend on anything else of the editor. -/
def Editor.Steady (I : Editor → Prop) : Prop := ∀ ⦃d d' : Editor⦄, I d → d.Kept d' → I d'

lemma Editor.steady_kept (e : Editor) : Steady e.Kept := fun _ _ => .trans

variable {α β : Type}

@[simp] lemma Editor.ends_atDesk {work : StateM Desk α} {e : Editor} {post : α → Editor → Prop}
    {fail : Editor → Prop} : Ends (Editor.atDesk work) e post fail ↔
      post (work e.desk).1 { e with desk := (work e.desk).2 } := Iff.rfl

@[simp] lemma Editor.ends_adopt {p : Project} {e : Editor} {post : Project → Editor → Prop}
    {fail : Editor → Prop} : Ends (Editor.adopt p) e post fail ↔
      post (p.retag e.desk.nextTag).1
        { e with desk := { e.desk with nextTag := (p.retag e.desk.nextTag).2 } } := Iff.rfl

/-- Work that keeps the project, also where it fails. -/
def Aside (work : EditorM α) : Prop := ∀ e, Ends work e (fun _ => e.Kept) e.Kept

section Rules

variable {work : EditorM α} {next : α → EditorM β} {rest : EditorM β}

lemma aside_pure (a : α) : Aside (pure a : EditorM α) := fun e => .refl e

lemma aside_throw (f : Fault) : Aside (throw f : EditorM α) := fun e => .refl e

lemma aside_get : Aside (get : EditorM Editor) := fun e => .refl e

lemma aside_modify {f : Editor → Editor} (h : ∀ e : Editor, e.Kept (f e)) :
    Aside (modify f : EditorM PUnit) :=
  fun e => h e

/-- What such work does not touch still holds where the next work starts. -/
lemma Aside.step {I : Editor → Prop} {d : Editor} {post : β → Editor → Prop} {fail : Editor → Prop}
    (h : Aside work) (hI : Editor.Steady I) (hd : I d) (hfail : ∀ d', I d' → fail d')
    (hnext : ∀ a d', I d' → Ends (next a) d' post fail) : Ends (work >>= next) d post fail := by
  rw [ends_bind]
  exact (h d).mono (fun a d' hd' => hnext a d' (hI hd hd')) fun d' hd' => hfail d' (hI hd hd')

lemma Aside.bind (h : Aside work) (h' : ∀ a, Aside (next a)) : Aside (work >>= next) := by
  intro e
  refine h.step e.steady_kept (.refl e) (fun _ he => he) fun a e' he => ?_
  exact (h' a e').both fun _ he' => he.trans he'

lemma Aside.seq (h : Aside work) (h' : Aside rest) : Aside (work >>= fun _ => rest) :=
  h.bind fun _ => h'

lemma Aside.discard (h : Aside work) : Aside (discard work) := fun e => ends_discard.mpr (h e)

lemma Aside.ite {c : Prop} [Decidable c] {yes no : EditorM α} (h : Aside yes) (h' : Aside no) :
    Aside (if c then yes else no) := by
  split_ifs
  · exact h
  · exact h'

lemma aside_mapM {items : List α} {f : α → EditorM β} (h : ∀ a, Aside (f a)) :
    Aside (items.mapM f) := by
  induction items with
  | nil =>
    rw [List.mapM_nil]
    exact aside_pure []
  | cons a rest ih =>
    rw [List.mapM_cons]
    exact (h a).bind fun b => ih.bind fun bs => aside_pure (b :: bs)

lemma aside_forM {items : List α} {f : α → EditorM PUnit} (h : ∀ a, Aside (f a)) :
    Aside (items.forM f) := by
  induction items with
  | nil => exact aside_pure _
  | cons a rest ih => exact (h a).seq ih

lemma aside_foldlM {items : List α} {f : β → α → EditorM β} (h : ∀ b a, Aside (f b a)) (b : β) :
    Aside (items.foldlM f b) := by
  induction items generalizing b with
  | nil =>
    rw [List.foldlM_nil]
    exact aside_pure b
  | cons a rest ih =>
    rw [List.foldlM_cons]
    exact (h b a).bind ih

end Rules

section Primitives

lemma aside_atHost (work : HostM α) : Aside (Editor.atHost work) := by
  intro e
  unfold Ends Editor.atHost
  cases work e.host with
  | ok a host => exact .of_eq rfl
  | error f host => exact .of_eq rfl

lemma aside_phrase (key default : String) : Aside (Editor.phrase key default) := aside_atHost _

lemma aside_ofExcept (x : Except Fault α) : Aside (Editor.ofExcept x) := by
  cases x with
  | ok a => exact aside_pure a
  | error f => exact aside_throw f

lemma aside_atDesk {work : StateM Desk α} (htag : ∀ d : Desk, (work d).2.nextTag = d.nextTag)
    (hlog : ∀ d : Desk, d.Silent (work d).2) : Aside (Editor.atDesk work) :=
  fun e => ⟨rfl, rfl, rfl, htag e.desk, hlog e.desk, rfl, rfl⟩

lemma aside_note {n : Notice} (h : n.marks = false) : Aside (Editor.atDesk (Desk.note n)) :=
  aside_atDesk (fun _ => rfl) fun _ => ⟨[n], rfl, by simpa using h⟩

lemma aside_send {s : Signal} (h : s.marks = false) : Aside (Editor.send s) := aside_note h

lemma aside_freshId : Aside (Editor.atDesk Desk.freshId) :=
  aside_atDesk (fun _ => rfl) fun d => .refl d

/-- A dialog is noted, and takes the next answer. -/
lemma aside_dialog {work : StateM Desk α} {n : Notice} (hn : n.marks = false)
    (h : ∀ d : Desk, (work d).2 = { d with log := d.log ++ [n], answers := d.answers.tail }) :
    Aside (Editor.atDesk work) := by
  refine aside_atDesk (fun d => ?_) fun d => ?_
  · rw [h]
  · rw [h]
    exact ⟨[n], rfl, by simpa using hn⟩

lemma aside_confirm (title text : Value) (default : Bool) :
    Aside (Editor.atDesk (Desk.confirm title text default)) := by
  refine aside_dialog (n := .question title text default) rfl fun d => ?_
  obtain ⟨_, _, _, answers, _⟩ := d
  cases answers <;> rfl

lemma aside_askText (title label preset : Value) :
    Aside (Editor.atDesk (Desk.askText title label preset)) := by
  refine aside_dialog (n := .input title label preset) rfl fun d => ?_
  obtain ⟨_, _, _, answers, _⟩ := d
  cases answers with
  | nil => rfl
  | cons v _ => cases v <;> rfl

lemma aside_askDirectory (title start : Value) :
    Aside (Editor.atDesk (Desk.askDirectory title start)) := by
  refine aside_dialog (n := .directory title start) rfl fun d => ?_
  obtain ⟨_, _, _, answers, _⟩ := d
  cases answers with
  | nil => rfl
  | cons v _ => cases v <;> rfl

end Primitives

section Panels

lemma aside_setText (s : String) : Aside (Preview.setText s) := aside_modify fun _ => .of_eq rfl

lemma aside_refresh : Aside Preview.refresh := by
  refine aside_get.bind fun e => ?_
  split
  · exact aside_setText _
  · split
    · exact aside_setText _
    · exact aside_setText _

lemma aside_warn (key title text : String) : Aside (Outline.warn key title text) :=
  (aside_phrase _ _).bind fun _ => (aside_phrase _ _).bind fun _ => aside_note rfl

lemma aside_button (panel key text tip : String) : Aside (do
    let text ← Editor.phrase (panel ++ key) text
    pure (Widget.button text (← Editor.phrase (panel ++ key ++ "_tooltip") tip))) :=
  (aside_phrase _ _).bind fun _ => (aside_phrase _ _).bind fun _ => aside_pure _

lemma aside_widgets : Aside Outline.widgets := by
  have hbutton := aside_button "ui.scene_manager."
  unfold Outline.widgets
  exact (aside_phrase _ _).bind fun _ => (hbutton _ _ _).bind fun _ => (hbutton _ _ _).bind fun _ =>
    (hbutton _ _ _).bind fun _ => (hbutton _ _ _).bind fun _ => aside_pure _

lemma aside_rows : Aside Palette.rows := by
  have hrow : ∀ k, Aside (Palette.row k) := fun k => (aside_atHost _).bind fun _ => aside_pure _
  have hheaded : Aside Palette.headed :=
    aside_foldlM (fun _ _ => (aside_phrase _ _).bind fun _ =>
      (aside_ofExcept _).bind fun _ => aside_pure _) []
  refine hheaded.bind fun _ => Aside.bind ?_ fun _ => aside_pure _
  exact aside_mapM fun _ => (aside_mapM hrow).bind fun _ => aside_pure _

end Panels

namespace Window

lemma aside_change {f : Window → Window} (hmodified : ∀ w, (f w).modified = w.modified)
    (hcanSave : ∀ w, (f w).canSave = w.canSave) : Aside (change f) :=
  aside_modify fun e => ⟨rfl, rfl, rfl, rfl, .refl e.desk, hmodified e.window, hcanSave e.window⟩

lemma aside_updateTitle : Aside updateTitle :=
  aside_get.bind fun _ => aside_change (fun _ => rfl) fun _ => rfl

lemma aside_schedule : Aside schedule := (aside_note rfl).seq (aside_note rfl)

lemma aside_loadGeometry : Aside loadGeometry :=
  (aside_atHost _).bind fun _ => aside_change (fun _ => rfl) fun _ => rfl

lemma aside_stretch (factors : List Nat) : Aside (stretch factors) :=
  aside_forM fun _ => aside_note rfl

lemma aside_loadSizes : Aside loadSizes := by
  have hright : Aside (do
      let right ← Editor.atHost (Host.splitterSizes "right")
      if ← Editor.ofExcept (areSizes isPositive right) then change ({ · with rightSizes := right })
      else stretch [1, 2, 2]) :=
    (aside_atHost _).bind fun _ => (aside_ofExcept _).bind fun _ =>
      .ite (aside_change (fun _ => rfl) fun _ => rfl) (aside_stretch _)
  unfold loadSizes
  refine (aside_atHost _).bind fun main => (aside_ofExcept _).bind fun _ => ?_
  split_ifs
  · exact .seq (aside_change (fun _ => rfl) fun _ => rfl) hright
  · exact (aside_stretch _).seq (aside_get.bind fun _ =>
      .seq (aside_change (fun _ => rfl) fun _ => rfl) hright)

lemma aside_buttons : Aside buttons := by
  have hbutton := aside_button "ui.main_window."
  unfold buttons
  refine (hbutton _ _ _).bind fun _ => (hbutton _ _ _).bind fun _ => (hbutton _ _ _).bind fun _ =>
    (hbutton _ _ _).bind fun _ => (hbutton _ _ _).bind fun _ => (hbutton _ _ _).bind fun _ =>
    (hbutton _ _ _).bind fun _ => ?_
  exact (aside_phrase _ _).discard.seq (aside_widgets.bind fun _ => (aside_phrase _ _).discard.seq
    (aside_rows.discard.seq (aside_pure _)))

end Window
end NovelGraph
