import NovelGraph.Proofs.OpenAndSave

/-! The project on the canvas and the project that is saved. They are the same, except after an open
that found a project without scenes: it is saved from then on, while the panels show the one
before. -/
namespace NovelGraph

namespace Editor

/-- The editor in front of other files and other people. -/
def facing (e : Editor) (host : Host) (answers : List Value) : Editor :=
  { e with host, desk := { e.desk with answers } }

lemma kept_facing (e : Editor) (host : Host) (answers : List Value) :
    e.Kept (e.facing host answers) := .of_eq rfl

/-- The panels show the open project, unless it has no scenes. -/
structure Attended (e : Editor) : Prop where
  ready : e.Ready
  shown : ∃ p q, e.session.project = some p ∧ e.Shows q ∧ (p = q ∨ p.scenes = [])

variable {e e' : Editor} {p q : Project} {directory : Option Path}

lemma Shows.scenes_ne_nil (h : e.Shows q) : q.scenes ≠ [] := by
  obtain ⟨s, hs, -⟩ := h.scene
  exact List.ne_nil_of_mem hs

lemma Attended.kept (h : e.Attended) (hk : e.Kept e') : e'.Attended := by
  obtain ⟨p, q, hp, hq, hpq⟩ := h.shown
  exact ⟨h.ready.kept hk, p, q, hk.session ▸ hp, hq.kept hk, hpq⟩

lemma Turned.attended (h : e.Turned e' p q directory) : e'.Attended :=
  ⟨h.ready, q, q, by rw [h.session], h.shows, .inl rfl⟩

lemma Attended.presented (h : e.Attended) (hp : e.session.project = some p)
    (hq : e.Presented e' p q) : e'.Attended := by
  exact ⟨h.ready.presented hp hq, q, q, by rw [hq.session], hq.shows, .inl rfl⟩

lemma Attended.opened (h : e.Attended) (ho : e.Opened e') : e'.Attended := by
  cases ho with
  | cancelled _ hk => exact h.kept hk
  | refused _ _ hk => exact h.kept hk
  | @blank p _ _ hempty hready hsession houtline hcanvas _ =>
    obtain ⟨-, q, -, hq, -⟩ := h.shown
    refine ⟨hready, _, q, by rw [hsession], ⟨houtline.trans hq.outline, ?_, ?_⟩, .inr ?_⟩
    · rw [hcanvas]
      exact hq.canvas
    · rw [hcanvas]
      exact hq.scene
    · exact (Project.scenes_eq_nil_of_retag rfl).mpr hempty
  | shown _ _ _ ht => exact ht.attended

lemma Attended.saved (h : e.Attended) (hs : e.Saved e') : e'.Attended := by
  obtain ⟨p, r, hp, hr, hpr⟩ := h.shown
  obtain ⟨p', q, hp', hq, hscenes, htag, hshows⟩ := hs.project
  obtain rfl := Option.some.inj (hp.symm.trans hp')
  have hnow := hshows r hr
  split_ifs at hnow with hsame
  · exact ⟨hs.ready, q, q, hq, hnow, .inl rfl⟩
  · refine ⟨hs.ready, q, r, hq, hnow, .inr ?_⟩
    rcases hpr with rfl | hempty
    · exact absurd htag.symm hsame
    · rw [hscenes, hempty]

end Editor

namespace Window

/-- What can be done to the project as a whole. -/
inductive Deed where
  | newProject
  | openProject
  | saveProject
  | selectScene (s : Option Scene)

def Deed.work : Deed → EditorM Unit
  | .newProject => Window.newProject
  | .openProject => Window.openProject
  | .saveProject => Window.saveProject
  | .selectScene s => Window.selectScene s

/-- The editor before its window has been opened. -/
def closed (host : Host) (desk : Desk) (textHeight : Value.Number) (geometry : Geometry) :
    Editor where
  host
  desk
  canvas := { desk, textHeight }
  window := { geometry }

/-- The editors that there can be after the window was opened and some of this was done. Files and
answers are whatever they are each time. -/
inductive Reached : Editor → Prop where
  | start {host : Host} {desk : Desk} {textHeight : Value.Number} {geometry : Geometry}
      (h : succeeds Window.start (closed host desk textHeight geometry) = true) :
      Reached (leaves Window.start (closed host desk textHeight geometry))
  | step {e : Editor} (h : Reached e) (d : Deed) (host : Host) (answers : List Value) :
      Reached (leaves d.work (e.facing host answers))

variable {e : Editor}

/-- One deed. -/
lemma Deed.attended (d : Deed) (h : e.Attended) :
    Ends d.work e (fun _ e' => e'.Attended) fun e' => e'.Attended := by
  cases d with
  | newProject =>
    refine (ends_newProject h.ready.idle).both ?_
    rintro e' (hk | ⟨p, q, ht⟩)
    · exact h.kept hk
    · exact ht.attended
  | openProject => exact (ends_openProject h.ready).both fun _ => h.opened
  | saveProject => exact (ends_saveProject h.ready).both fun _ => h.saved
  | selectScene s =>
    refine (ends_selectScene h.ready s).both ?_
    rintro e' (hk | ⟨p, q, hp, hq⟩)
    · exact h.kept hk
    · exact h.presented hp hq

/-- All of them. -/
lemma Reached.attended (h : Reached e) : e.Attended := by
  induction h with
  | start hs =>
    obtain ⟨p, q, ht⟩ := (ends_start rfl).of_succeeds hs
    exact ht.attended
  | step _ d host answers ih => exact (d.attended (ih.kept (Editor.kept_facing _ _ _))).leaves

/-- At any time the panels show the open project exactly if it has scenes. What is open then, and
what is shown, is left as it is by an open that fails. An open that succeeds changes what is open,
and what is shown only if there are scenes. -/
theorem open_project_shown (h : Reached e) (host : Host) (answers : List Value)
    (directory : String) (hchosen : directory ≠ "") : ∃ p q,
    e.session.project = some p ∧ e.outline.project = some q ∧ e.canvas.project = some q ∧
      (p = q ↔ p.scenes ≠ []) ∧
    let e' := leaves openProject (e.facing host (.text directory :: answers))
    match Project.load host.disk (.ofText directory) with
    | .error _ =>
      e'.session = e.session ∧ e'.outline.project = some q ∧ e'.canvas.project = some q
    | .ok r => e'.session.directory = some (.ofText directory) ∧
      if r.scenes.isEmpty then
        e'.session.project = some (r.retag e.desk.nextTag).1 ∧
          e'.outline.project = some q ∧ e'.canvas.project = some q
      else ∃ r', r'.content = r.content ∧ e'.session.project = some r' ∧
        e'.outline.project = some r' ∧ e'.canvas.project = some r' := by
  have hat := h.attended
  obtain ⟨p, q, hp, hq, hpq⟩ := hat.shown
  refine ⟨p, q, hp, hq.outline, hq.canvas, ⟨?_, fun hne => hpq.resolve_right hne⟩, ?_⟩
  · rintro rfl
    exact hq.scenes_ne_nil
  have hopen := (ends_openProject
    (hat.ready.kept (e.kept_facing host (.text directory :: answers)))).leaves
  cases hopen with
  | cancelled hoffer _ => exact absurd hoffer hchosen
  | refused _ hload hk =>
    change Project.load host.disk (.ofText directory) = _ at hload
    rw [hload]
    exact ⟨hk.session, hk.outline.trans hq.outline, hk.canvas ▸ hq.canvas⟩
  | blank _ hload hempty _ hsession houtline hcanvas _ =>
    change Project.load host.disk (.ofText directory) = _ at hload
    rw [hload]
    simp only [hsession, hempty, List.isEmpty_nil, if_true, hcanvas]
    exact ⟨rfl, rfl, houtline.trans hq.outline, hq.canvas⟩
  | @shown r r' _ hload hscenes ht =>
    change Project.load host.disk (.ofText directory) = _ at hload
    rw [hload]
    simp only [ht.session, List.isEmpty_iff, if_neg hscenes]
    exact ⟨rfl, r', ht.content, rfl, ht.shows.outline, ht.shows.canvas⟩

/-- Files among which there is a project without scenes. -/
def shelf : Host where
  disk := ⟨[(["c.json"], .file (.text "\x7b\x7d")), (["empty"], .directory),
    (["empty", "project.json"], .file (.text "\x7b\"name\": \"Empty\", \"scenes\": []\x7d"))]⟩
  settingsFile := .ofText "/c.json"
  wordDirectory := .ofText "/w"
  homeDirectory := .ofText "/h"

def atShelf : Editor := leaves Window.start (closed shelf { names := Canvas.tally } (.int 20) {})

lemma reached_atShelf : Reached atShelf := .start (by decide +kernel)

theorem open_project_shown_atShelf : Reached atShelf ∧ ∃ p q,
    atShelf.session.project = some p ∧ atShelf.outline.project = some q ∧
      atShelf.canvas.project = some q ∧ (p = q ↔ p.scenes ≠ []) ∧
    let e' := leaves openProject (atShelf.facing shelf [.text "/empty"])
    e'.session.directory = some (.ofText "/empty") ∧ e'.outline.project = some q ∧
      e'.canvas.project = some q := by
  obtain ⟨p, q, hp, ho, hc, hpq, hopen⟩ :=
    open_project_shown reached_atShelf shelf [] "/empty" (by decide)
  have hload : (match Project.load shelf.disk (.ofText "/empty") with
      | .ok r => r.scenes.isEmpty
      | .error _ => false) = true := by decide +kernel
  refine ⟨reached_atShelf, p, q, hp, ho, hc, hpq, ?_⟩
  cases hfound : Project.load shelf.disk (.ofText "/empty") with
  | error f =>
    rw [hfound] at hload
    cases hload
  | ok r =>
    simp only [hfound] at hload hopen
    rw [hload] at hopen
    exact ⟨hopen.1, hopen.2.2⟩

/-- The project without scenes is open, and the new one is shown. -/
theorem empty_project_not_shown :
    let e := leaves openProject (atShelf.facing shelf [.text "/empty"])
    Reached e ∧ e.session.project.map (·.name) = some (.text "Empty") ∧
      e.outline.project.map (·.name) = some (.text "New Project") ∧
      e.canvas.project.map (·.name) = some (.text "New Project") :=
  ⟨reached_atShelf.step .openProject shelf [.text "/empty"], by decide +kernel⟩

end Window
end NovelGraph
