import NovelGraph.Proofs.FormChanges
import NovelGraph.Proofs.OutlineChanges
import NovelGraph.Proofs.ShownProject
import NovelGraph.Proofs.SignalReception

/-! Unsaved changes. When scenes are removed or moved, when choices are changed in place or when a
removal of blocks fails, the window does not learn of it. After everything else that changes the
open project there is something to save. -/
namespace NovelGraph

def Notice.signal? : Notice → Option Signal
  | .signal s => some s
  | .event _ _ => none

/-- The editor in front of other files and other people, who have not noticed anything yet. -/
def Editor.addressed (e : Editor) (host : Host) (answers : List Value) : Editor :=
  { e with host, desk := { e.desk with answers, log := [] } }

namespace Window

/-- What can be done in the window and its panels. -/
inductive Action where
  | newProject
  | openProject
  | saveProject
  | addScene
  | deleteScene (row : Option Nat)
  | moveUp (row : Option Nat)
  | moveDown (row : Option Nat)
  | chooseScene (row : Option Nat)
  | doubleClick (row : Option Nat)
  | drop (format data : String) (x y : Value)
  | moveBox (number : Nat) (x y : Value)
  | press (items : List Item) (at_ : Point) (left control : Bool)
  | drag (at_ : Point)
  | release (items : List Item)
  | select (items : List Item)
  | announceSelection
  | deleteSelection
  | deleteWire (number : Nat)
  | menu (items : List Item)
  | type (key text : String)
  | tick (key : String) (on : Bool)
  | saveForm
  | addChoice
  | editChoice (row : Option Nat)
  | removeChoice (row : Option Nat)
  | pressButton

/-- Something is done with a row of the list of scenes. -/
def atRow (row : Option Nat) (work : EditorM Unit) : EditorM Unit := do
  Outline.change ({ · with currentRow := row })
  work

/-- Something is done with a row of the list of choices. -/
def atChoice (row : Option Nat) (work : EditorM Unit) : EditorM Unit := do
  Form.change fun f => { f with choices := f.choices.map ({ · with currentRow := row }) }
  work

/-- The newest button of the form is pressed. A field that takes over every change also does so when
the button has put another text into it. -/
def pressButton : EditorM Unit := do
  let before := (← get).form
  Form.pressButton
  (before.button.bind (·.target)).forM fun key => do
    match before.field? key, (← get).form.field? key with
    | some old, some { trigger := .onChange, widget, .. } =>
      if old.widget.text != widget.text then Form.saveParam key (.text (Text.strip widget.text))
    | _, _ => pure ()

namespace Action

def work : Action → EditorM Unit
  | newProject => Window.newProject
  | openProject => Window.openProject
  | saveProject => Window.saveProject
  | addScene => Outline.addScene
  | deleteScene row => atRow row Outline.deleteScene
  | moveUp row => atRow row Outline.moveUp
  | moveDown row => atRow row Outline.moveDown
  | chooseScene row => atRow row Outline.selectionChanged
  | doubleClick row => atRow row Outline.doubleClick
  | drop format data x y => discard (Editor.onCanvas (Canvas.dropBlock format data x y))
  | moveBox number x y => Editor.onCanvas (Canvas.moveBox number x y)
  | press items at_ left control => discard (Editor.onCanvas (Canvas.press items at_ left control))
  | drag at_ => discard (Editor.onCanvas (Canvas.move at_))
  | release items => discard (Editor.onCanvas (Canvas.release items))
  | select items => Editor.onCanvas do
    modify (·.select items)
    Canvas.announceSelection
  | announceSelection => Editor.onCanvas Canvas.announceSelection
  | deleteSelection => Editor.onCanvas Canvas.deleteSelection
  | deleteWire number => Editor.onCanvas (Canvas.deleteWire number)
  | menu items => Editor.onCanvas do
    let action ← Canvas.openMenu items
    action.forM Canvas.MenuAction.perform
  | type key text => Form.type key text
  | tick key on => Form.tick key on
  | saveForm => Form.save
  | addChoice => Form.addChoice
  | editChoice row => atChoice row Form.editChoice
  | removeChoice row => atChoice row Form.removeChoice
  | pressButton => Window.pressButton

/-- Nobody is told of what these do. Of the buttons of the form only that is meant which removes a
choice. -/
def hides (form : Form) : Action → Bool
  | deleteScene _ | moveUp _ | moveDown _ => true
  | addChoice | editChoice _ | removeChoice _ => true
  | pressButton => form.button.any (·.removes)
  | _ => false

def saves : Action → Bool
  | saveProject => true
  | _ => false

/-- The project as a whole is dealt with. -/
def turns : Action → Bool
  | newProject | openProject | saveProject => true
  | _ => false

/-- Blocks are removed one after the other, which may fail half way. -/
def deletes : Action → Bool
  | deleteSelection | menu _ => true
  | _ => false

end Action

/-- An editor, what its project held when it was new, opened or saved for the last time, and whether
it has been changed since then by something that nobody is told of. -/
structure Watch where
  editor : Editor
  settled : Option (List (Value × List Block × List Connection))
  hidden : Bool := false

namespace Watch

def start (e : Editor) : Watch := { editor := e, settled := e.content }

/-- The editor when something has been done and nothing has been received yet. -/
def done (w : Watch) (a : Action) (host : Host) (answers : List Value) : Editor :=
  leaves a.work (w.editor.addressed host answers)

/-- Something is done, and then all that was told is received. -/
def step (w : Watch) (a : Action) (host : Host) (answers : List Value) : Watch :=
  let done := w.done a host answers
  let editor := leaves ((done.desk.log.filterMap Notice.signal?).forM receive) done
  if editor.openTag != w.editor.openTag || (a.saves && done.desk.log.any Notice.informs) then
    start editor
  else
    { editor
      settled := w.settled
      hidden := w.hidden || editor.content != w.editor.content &&
        (a.hides w.editor.form || a.deletes && !succeeds a.work (w.editor.addressed host answers)) }

/-- What is done, each time with the files and answers that there are. -/
def run (w : Watch) (turns : List (Action × Host × List Value)) : Watch :=
  turns.foldl (fun w t => w.step t.1 t.2.1 t.2.2) w

end Watch

section Effects

open Editor (Kept Ready Edited Honest Hushed Turned Opened Saved)

variable {e e' d : Editor} {p q : Project} {directory : Option Path}

lemma ends_atRow {work : EditorM Unit} {row : Option Nat} {P : Editor → Editor → Prop}
    (hP : ∀ {d}, e.Kept d → ∀ {e'}, P d e' → P e e') (h : e.Ready)
    (hwork : ∀ {d : Editor}, d.Ready → Ends work d (fun _ => P d) (P d)) :
    Ends (atRow row work) e (fun _ => P e) (P e) := by
  have hkept : e.Kept { e with outline := { e.outline with currentRow := row } } := .of_eq rfl
  exact (hwork (h.kept hkept)).both fun _ => hP hkept

lemma ends_atChoice {work : EditorM Unit} {row : Option Nat} {P : Editor → Editor → Prop}
    (hP : ∀ {d}, e.Kept d → ∀ {e'}, P d e' → P e e') (h : e.Ready)
    (hwork : ∀ {d : Editor}, d.Ready → Ends work d (fun _ => P d) (P d)) :
    Ends (atChoice row work) e (fun _ => P e) (P e) := by
  have hkept : e.Kept { e with form := { e.form with
      choices := e.form.choices.map ({ · with currentRow := row }) } } := .of_eq rfl
  exact (hwork (h.kept hkept)).both fun _ => hP hkept

lemma ends_pressButton_of_removes (h : e.Ready) (hb : e.form.button.any (·.removes) = true) :
    Ends pressButton e (fun _ => e.Hushed) e.Hushed := by
  have htarget : e.form.button.bind (·.target) = none := by
    cases hbutton : e.form.button with
    | none => rfl
    | some button =>
      rw [hbutton] at hb
      cases button with
      | removeChoice => rfl
      | chooseFile | chooseBackground => cases hb
  unfold pressButton
  rw [ends_bind, ends_get]
  dsimp only
  rw [ends_bind, htarget]
  exact Form.ends_pressButton_of_removes h hb

/-- A field that takes over the name of a file tells it. -/
lemma ends_pressButton_of_chooses (h : e.Ready) (hb : e.form.button.any (·.removes) = false) :
    Ends pressButton e (fun _ => e.Honest) e.Honest := by
  have hkept : ∀ d, e.Kept d → e.Honest d := fun _ => h.honest_of_kept
  unfold pressButton
  rw [ends_bind, ends_get]
  dsimp only
  rw [ends_bind]
  refine (Form.ends_pressButton_of_chooses hb).mono (fun _ d hd => ?_) hkept
  cases e.form.button.bind (·.target) with
  | none => exact hkept d hd
  | some key =>
    refine aside_get.step e.steady_kept hd hkept fun _ d hd => ?_
    split
    · split_ifs
      · exact (Form.ends_saveParam (h.kept hd) key _).both fun _ he => (hkept d hd).trans he
      · exact hkept d hd
    · exact hkept d hd

/-- What is hidden is not told. -/
lemma Action.ends_hides {a : Action} (ha : a.hides e.form = true) (h : e.Ready) :
    Ends a.work e (fun _ => e.Hushed) e.Hushed := by
  have hback : ∀ {d}, e.Kept d → ∀ {e'}, d.Hushed e' → e.Hushed e' :=
    fun hk _ he => (h.hushed_of_kept hk).trans he
  cases a with
  | deleteScene row => exact ends_atRow hback h Outline.ends_deleteScene
  | moveUp row => exact ends_atRow hback h Outline.ends_moveUp
  | moveDown row => exact ends_atRow hback h Outline.ends_moveDown
  | addChoice => exact Form.ends_addChoice h
  | editChoice row => exact ends_atChoice hback h Form.ends_editChoice
  | removeChoice row => exact ends_atChoice hback h Form.ends_removeChoice
  | pressButton => exact ends_pressButton_of_removes h ha
  | _ => cases ha

/-- Everything else that works on the open project tells of what it changes, unless a removal
fails. -/
lemma Action.ends_tells {a : Action} (ha : a.hides e.form = false) (hp : a.turns = false)
    (h : e.Ready) :
    Ends a.work e (fun _ => e.Honest) (if a.deletes then e.Edited else e.Honest) := by
  have hback : ∀ {d}, e.Kept d → ∀ {e'}, d.Honest e' → e.Honest e' :=
    fun hk _ he => (h.honest_of_kept hk).trans he
  have haside : ∀ {work : EditorM Unit}, Aside work →
      ∀ {d : Editor}, d.Ready → Ends work d (fun _ => d.Honest) d.Honest :=
    fun hwork d hd => (hwork d).both fun _ => hd.honest_of_kept
  cases a with
  | addScene => exact Outline.ends_addScene h
  | chooseScene row => exact ends_atRow hback h (haside Outline.aside_selectionChanged)
  | doubleClick row => exact ends_atRow hback h (haside Outline.aside_doubleClick)
  | drop format data x y =>
    exact ends_discard.mpr ((Canvas.candid_dropBlock format data x y).onCanvas h)
  | moveBox number x y => exact (Canvas.candid_moveBox number x y).onCanvas h
  | press items at_ left control =>
    exact ends_discard.mpr ((Canvas.candid_press items at_ left control).onCanvas h)
  | drag at_ => exact ends_discard.mpr ((Canvas.candid_move at_).onCanvas h)
  | release items => exact ends_discard.mpr ((Canvas.candid_release items).onCanvas h)
  | select items =>
    exact ((Canvas.candid_select items).bind fun _ => Canvas.candid_announceSelection).onCanvas h
  | announceSelection => exact Canvas.candid_announceSelection.onCanvas h
  | deleteSelection => exact Canvas.fair_deleteSelection.onCanvas h
  | deleteWire number => exact (Canvas.candid_deleteWire number).onCanvas h
  | menu items => exact (Canvas.fair_menu items).onCanvas h
  | type key text => exact Form.ends_type h key text
  | tick key on => exact Form.ends_tick h key on
  | saveForm => exact Form.ends_save h
  | pressButton => exact ends_pressButton_of_chooses h ha
  | newProject => cases hp
  | openProject => cases hp
  | saveProject => cases hp
  | _ => cases ha

/-- What can become of something that is done: another project is open, the project was reported as
saved, or a change may be hidden in one of two ways; otherwise it was told. -/
inductive Action.Effect (a : Action) (e e' : Editor) : Prop where
  | turned (h : e'.openTag ≠ e.openTag)
  | reported (ha : a.saves = true) (h : e'.desk.log.any Notice.informs = true)
  | hushed (ha : a.hides e.form = true) (h : e.Edited e')
  | failed (ha : a.deletes = true) (hfails : succeeds a.work e = false) (h : e.Edited e')
  | told (h : e.Honest e')

theorem Action.effect (a : Action) (h : e.Ready) :
    (leaves a.work e).Ready ∧ a.Effect e (leaves a.work e) := by
  cases hturns : a.turns with
  | true =>
    cases a with
    | newProject =>
      rcases (ends_newProject h.idle).leaves with hk | ⟨p, q, ht⟩
      · exact ⟨h.kept hk, .told (h.honest_of_kept hk)⟩
      · exact ⟨ht.ready, .turned (ht.openTag_ne h)⟩
    | openProject =>
      cases (ends_openProject h).leaves with
      | cancelled _ hk => exact ⟨h.kept hk, .told (h.honest_of_kept hk)⟩
      | refused _ _ hk => exact ⟨h.kept hk, .told (h.honest_of_kept hk)⟩
      | @blank p _ _ _ hready hsession _ _ _ =>
        refine ⟨hready, .turned ?_⟩
        obtain ⟨⟨r, later⟩, hr⟩ : ∃ x, p.retag e.desk.nextTag = x := ⟨_, rfl⟩
        have htag : r.tag = e.desk.nextTag := by rw [(Project.retag_eq hr).1]
        change Editor.openTag (leaves Window.openProject e) ≠ _
        simp only [Editor.openTag, hsession, hr, Option.map_some, htag]
        exact h.openTag_ne_nextTag.symm
      | shown _ _ _ ht => exact ⟨ht.ready, .turned (ht.openTag_ne h)⟩
    | saveProject =>
      have hsaved := (ends_saveProject h).leaves
      refine ⟨hsaved.ready, ?_⟩
      rcases hsaved.marks with hmarks | ⟨n, hn, hinforms⟩
      · obtain ⟨p, q, hp, hq, hscenes, htag, -⟩ := hsaved.project
        refine .told ⟨⟨hsaved.ready, ?_, hsaved.silent.log, hmarks.1, hmarks.2⟩, .inl ?_⟩
        · change Editor.openTag (leaves Window.saveProject e) = _
          simp only [Editor.openTag, hp, hq, Option.map_some, htag]
        · change Editor.content (leaves Window.saveProject e) = _
          simp only [Editor.content, hp, hq, Option.map_some, Project.content, hscenes]
      · exact .reported rfl (List.any_eq_true.mpr ⟨n, hn, hinforms⟩)
    | _ => cases hturns
  | false =>
    cases hhides : a.hides e.form with
    | true =>
      have hhushed := (Action.ends_hides hhides h).leaves
      exact ⟨hhushed.ready, .hushed hhides hhushed.toEdited⟩
    | false =>
      have hends := Action.ends_tells hhides hturns h
      cases hdeletes : a.deletes with
      | false =>
        simp only [hdeletes, Bool.false_eq_true, if_false] at hends
        exact ⟨hends.leaves.ready, .told hends.leaves⟩
      | true =>
        simp only [hdeletes, if_true] at hends
        have hedited := (hends.mono (fun _ _ he => he.toEdited) fun _ he => he).leaves
        refine ⟨hedited.ready, ?_⟩
        cases hsucceeds : succeeds a.work e with
        | true => exact .told (hends.of_succeeds hsucceeds)
        | false => exact .failed hdeletes hsucceeds hedited

end Effects

namespace Watch

variable {w : Watch}

/-- The editor can be worked with, and unless something is hidden a change can be seen. -/
structure Sound (w : Watch) : Prop where
  ready : w.editor.Ready
  seen : w.hidden = false → w.editor.content = w.settled ∨ w.editor.window.modified = true

lemma ready_addressed {e : Editor} (h : e.Ready) (host : Host) (answers : List Value) :
    (e.addressed host answers).Ready :=
  { h with synced := { h.synced with } }

lemma step_editor (w : Watch) (a : Action) (host : Host) (answers : List Value) :
    (w.step a host answers).editor = leaves
      (((w.done a host answers).desk.log.filterMap Notice.signal?).forM receive)
      (w.done a host answers) := by
  unfold step
  dsimp only
  split_ifs <;> rfl

lemma step_cases (w : Watch) (a : Action) (host : Host) (answers : List Value) :
    (w.step a host answers).settled = (w.step a host answers).editor.content ∨
    (w.step a host answers).editor.openTag = w.editor.openTag ∧
      (a.saves && (w.done a host answers).desk.log.any Notice.informs) = false ∧
      (w.step a host answers).settled = w.settled ∧
      (w.step a host answers).hidden = (w.hidden ||
        (w.step a host answers).editor.content != w.editor.content &&
          (a.hides w.editor.form ||
            a.deletes && !succeeds a.work (w.editor.addressed host answers))) := by
  unfold step
  dsimp only
  split_ifs with h
  · exact .inl rfl
  · simp only [Bool.or_eq_true, bne_iff_ne, ne_eq, not_or, not_not, Bool.not_eq_true] at h
    exact .inr ⟨h.1, h.2, rfl, rfl⟩

/-- All that was told is received. -/
lemma step_heeded (h : w.editor.Ready) (a : Action) (host : Host) (answers : List Value) :
    (w.done a host answers).Heeded ((w.done a host answers).desk.log.filterMap Notice.signal?)
      (w.step a host answers).editor := by
  have hready : (w.done a host answers).Ready := (a.effect (ready_addressed h host answers)).1
  rw [step_editor]
  exact (ends_receiveAll hready _).leaves

lemma exists_signal_of_marks {log : List Notice} {n : Notice} (hn : n ∈ log)
    (hmarks : n.marks = true) : ∃ s ∈ log.filterMap Notice.signal?, s.marks = true := by
  cases n with
  | signal s => exact ⟨s, List.mem_filterMap.mpr ⟨_, hn, rfl⟩, hmarks⟩
  | event name details => cases hmarks

/-- One step. -/
theorem Sound.step (h : w.Sound) (a : Action) (host : Host) (answers : List Value) :
    (w.step a host answers).Sound := by
  have hheeded := step_heeded h.ready a host answers
  refine ⟨hheeded.ready, fun hhidden => ?_⟩
  rcases w.step_cases a host answers with hsettled | ⟨hopen, hreport, hsettled, hhid⟩
  · exact .inl hsettled.symm
  rw [hhid, Bool.or_eq_false_iff, Bool.and_eq_false_iff] at hhidden
  obtain ⟨hw, hchange⟩ := hhidden
  have hkeep : ∀ {e : Editor}, (w.step a host answers).editor.content = w.editor.content →
      e.window.modified = w.editor.window.modified →
      (e.window.modified = true → (w.step a host answers).editor.window.modified = true) →
      (w.step a host answers).editor.content = (w.step a host answers).settled ∨
        (w.step a host answers).editor.window.modified = true := by
    intro e hsame hmodified hlater
    rcases h.seen hw with hc | hm
    · exact .inl (hsame.trans (hc.trans hsettled.symm))
    · exact .inr (hlater (hmodified.trans hm))
  cases (a.effect (ready_addressed h.ready host answers)).2 with
  | turned hne => exact absurd (hheeded.openTag.symm.trans hopen) hne
  | reported hsaves hinforms =>
    rw [hsaves, Bool.true_and] at hreport
    cases hinforms.symm.trans hreport
  | hushed ha he =>
    have ha : a.hides w.editor.form = true := ha
    rw [ha, Bool.true_or] at hchange
    exact hkeep (by simpa using hchange) he.modified hheeded.modified
  | failed ha hfails he =>
    rw [ha, hfails, Bool.not_false, Bool.and_self, Bool.or_true] at hchange
    exact hkeep (by simpa using hchange) he.modified hheeded.modified
  | told ht =>
    rcases ht.told with hsame | ⟨more, hmore, n, hn, hmarks⟩
    · exact hkeep (hheeded.content.trans hsame) ht.modified hheeded.modified
    · refine .inr (hheeded.marked (exists_signal_of_marks ?_ hmarks))
      exact hmore ▸ List.mem_append_right _ hn

/-- All of them. -/
theorem Sound.run (h : w.Sound) (turns : List (Action × Host × List Value)) :
    (w.run turns).Sound := by
  induction turns generalizing w with
  | nil => exact h
  | cons t rest ih => exact ih (h.step t.1 t.2.1 t.2.2)

lemma sound_start {e : Editor} (h : e.Ready) : (start e).Sound := ⟨h, fun _ => .inl rfl⟩

/-- What is hidden leaves the window as it was. -/
lemma step_of_hides (h : w.editor.Ready) {a : Action} (ha : a.hides w.editor.form = true)
    (host : Host) (answers : List Value) :
    (w.step a host answers).editor.window.modified = w.editor.window.modified ∧
      (w.step a host answers).editor.window.canSave = w.editor.window.canSave := by
  have hhushed : (w.editor.addressed host answers).Hushed (w.done a host answers) :=
    (Action.ends_hides (e := w.editor.addressed host answers) ha (ready_addressed h _ _)).leaves
  have hsilent : ∀ s ∈ (w.done a host answers).desk.log.filterMap Notice.signal?,
      s.marks = false := by
    obtain ⟨more, hlog, hmore⟩ := hhushed.silent
    intro s hs
    obtain ⟨n, hn, hns⟩ := List.mem_filterMap.mp hs
    rw [hlog] at hn
    have hmarks := hmore n (by simpa [Editor.addressed] using hn)
    cases n with
    | signal t =>
      obtain rfl := Option.some.inj hns
      exact hmarks
    | event name details => cases hns
  obtain ⟨hmodified, hcanSave⟩ := (step_heeded h a host answers).unmarked hsilent
  exact ⟨hmodified.trans hhushed.modified, hcanSave.trans hhushed.canSave⟩

end Watch

/-- A project that does not hold what it held when it was last new, opened or saved can be saved,
unless it was changed by something that nobody is told of. That never changes whether there is
something to save. -/
theorem unsaved_changes_shown {host : Host} {desk : Desk} {textHeight : Value.Number}
    {geometry : Geometry} (h : succeeds start (closed host desk textHeight geometry) = true)
    (turns : List (Action × Host × List Value)) :
    let w := (Watch.start (leaves start (closed host desk textHeight geometry))).run turns
    (w.hidden = false → w.editor.content ≠ w.settled →
      w.editor.window.modified = true ∧ w.editor.window.canSave = true) ∧
    ∀ a : Action, a.hides w.editor.form = true → ∀ host answers,
      (w.step a host answers).editor.window.modified = w.editor.window.modified ∧
        (w.step a host answers).editor.window.canSave = w.editor.window.canSave := by
  obtain ⟨p, q, ht⟩ := (ends_start rfl).of_succeeds h
  have hsound := (Watch.sound_start ht.ready).run turns
  refine ⟨fun hhidden hchanged => ?_, fun a ha host answers => ?_⟩
  · have hmodified := (hsound.seen hhidden).resolve_left hchanged
    exact ⟨hmodified, hsound.ready.marked hmodified⟩
  · exact Watch.step_of_hides hsound.ready ha host answers

/-- Files among which there is a project with two scenes. -/
def bookcase : Host where
  disk := ⟨[(["c.json"], .file (.text "\x7b\x7d")), (["two"], .directory),
    (["two", "project.json"], .file (.text <|
      "\x7b\"name\": \"Two\", \"scenes\": [" ++
      "\x7b\"id\": \"a\", \"name\": \"A\", \"label\": \"a\"\x7d, " ++
      "\x7b\"id\": \"b\", \"name\": \"B\", \"label\": \"b\"\x7d]\x7d"))]⟩
  settingsFile := .ofText "/c.json"
  wordDirectory := .ofText "/w"
  homeDirectory := .ofText "/h"

def atBookcase : Editor := closed bookcase { names := Canvas.tally } (.int 20) {}

/-- A block is dropped on the canvas. -/
def dropped : Watch := (Watch.start (leaves start atBookcase)).run
  [(.drop Canvas.dragFormat "SAY" (.int 0) (.int 0), bookcase, [])]

theorem dropped_block_shown : dropped.hidden = false ∧ dropped.editor.content ≠ dropped.settled ∧
    dropped.editor.window.modified = true ∧ dropped.editor.window.canSave = true := by
  have hstart : succeeds start atBookcase = true := by decide +kernel
  have hchanged : dropped.hidden = false ∧ dropped.editor.content ≠ dropped.settled := by
    decide +kernel
  have hshown := (unsaved_changes_shown hstart
    [(.drop Canvas.dragFormat "SAY" (.int 0) (.int 0), bookcase, [])]).1
  rw [← atBookcase, ← dropped] at hshown
  exact ⟨hchanged.1, hchanged.2, hshown hchanged.1 hchanged.2⟩

/-- A project is opened, and its second scene is moved up. -/
def moved : Watch := (Watch.start (leaves start atBookcase)).run
  [(.openProject, bookcase, [.text "/two"]), (.moveUp (some 1), bookcase, [])]

theorem moved_scene_hidden : moved.editor.content ≠ moved.settled ∧
    moved.editor.window.modified = false ∧ moved.editor.window.canSave = false := by
  decide +kernel

end Window
end NovelGraph
