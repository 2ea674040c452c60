import NovelGraph.Proofs.EditorCopies
import NovelGraph.Proofs.SideWork

/-! A project is shown: the list of scenes and the canvas get the open project, and a scene of it is
drawn. With it: a new project, and the start of the window. -/
namespace NovelGraph

open Scene (OneState newest)

namespace Editor

variable {e e' e'' : Editor} {p q : Project} {s : Scene}

/-- The panels show a project, and the canvas one of its scenes. -/
structure Shows (e : Editor) (p : Project) : Prop where
  outline : e.outline.project = some p
  canvas : e.canvas.project = some p
  scene : ∃ s ∈ p.scenes, e.canvas.scene = some s

/-- The second editor is the first after an open project has been shown. Ports may have been made
for a scene of it. -/
structure Presented (e e' : Editor) (p q : Project) : Prop where
  reworked : p.Reworked q
  oneState : OneState q.scenes
  content : q.content = p.content
  session : e'.session = { e.session with project := some q }
  shows : e'.Shows q
  idle : e'.canvas.loading = false
  nextTag : e'.desk.nextTag = e.desk.nextTag
  silent : e.desk.Silent e'.desk
  modified : e'.window.modified = e.window.modified
  canSave : e'.window.canSave = e.window.canSave

lemma Kept.projects_eq (h : e.Kept e') : e'.projects = e.projects := by
  simp only [projects, h.session, h.outline, h.canvas]

lemma Kept.scenes_eq (h : e.Kept e') : e'.scenes = e.scenes := by
  simp only [scenes, h.session, h.outline, h.canvas]

lemma Synced.kept (hs : e.Synced) (h : e.Kept e') : e'.Synced where
  scenes := h.scenes_eq ▸ hs.scenes
  projects := h.projects_eq ▸ hs.projects
  sceneTags := by
    rw [h.scenes_eq, h.nextTag]
    exact hs.sceneTags
  projectTags := by
    rw [h.projects_eq, h.nextTag]
    exact hs.projectTags

lemma Shows.kept (hs : e.Shows p) (h : e.Kept e') : e'.Shows p where
  outline := h.outline.trans hs.outline
  canvas := h.canvas ▸ hs.canvas
  scene := h.canvas ▸ hs.scene

lemma Presented.kept (hp : e.Presented e' p q) (h : e'.Kept e'') : e.Presented e'' p q where
  reworked := hp.reworked
  oneState := hp.oneState
  content := hp.content
  session := h.session.trans hp.session
  shows := hp.shows.kept h
  idle := h.canvas ▸ hp.idle
  nextTag := h.nextTag.trans hp.nextTag
  silent := hp.silent.trans h.silent
  modified := h.modified.trans hp.modified
  canSave := h.canSave.trans hp.canSave

/-- There is one project, and its copies agree. -/
lemma Presented.synced (h : e.Presented e' p q) (htag : p.tag < e.desk.nextTag)
    (htags : ∀ s ∈ p.scenes, s.tag < e.desk.nextTag) : e'.Synced := by
  have hsession : e'.session.project = some q := by rw [h.session]
  have hprojects : ∀ r ∈ e'.projects, r = q := by
    simp [projects, hsession, h.shows.outline, h.shows.canvas]
  have hscenes : e'.scenes ⊆ q.scenes := by
    intro s hs
    rcases mem_scenes_iff.mp hs with ⟨r, hr, hs⟩ | hscene
    · exact hprojects r hr ▸ hs
    · obtain ⟨t, ht, hcanvas⟩ := h.shows.scene
      obtain rfl := Option.some.inj (hcanvas.symm.trans hscene)
      exact ht
  refine ⟨h.oneState.subset hscenes, fun r hr u hu _ => ?_, fun s hs => ?_, fun r hr => ?_⟩
  · rw [hprojects r hr, hprojects u hu]
  · obtain ⟨t, ht, hts⟩ := Outcome.exists_left_of_forall₂ h.reworked.tags (hscenes hs)
    rw [h.nextTag, ← hts]
    exact htags t ht
  · rw [hprojects r hr, h.nextTag, h.reworked.tag_eq]
    exact htag

end Editor

namespace Window

variable {e : Editor} {p : Project} {s : Scene}

/-- A scene of the open project is drawn, and all panels have the ports that were made for it. -/
lemma ends_drawScene {fail : Editor → Prop} (hidle : e.canvas.loading = false)
    (hsession : e.session.project = some p) (houtline : e.outline.project = some p)
    (hp : OneState p.scenes) (hs : s ∈ p.scenes) :
    Ends (Editor.onCanvas (modify (·.load (some p) (some s)))) e
      (fun _ e' => ∃ q, e.Presented e' p q) fail := by
  have hfound : (p.findScene s.id).getD s ∈ p.scenes := by
    cases hfind : p.findScene s.id with
    | none => exact hs
    | some t => exact List.mem_of_find?_eq_some hfind
  set t := (p.findScene s.id).getD s with ht
  obtain ⟨u, later, hu, hproject, hscene, hdesk, hloading⟩ :=
    Canvas.load_eq (c := { e.canvas with desk := e.desk }) hidle ht.symm
  obtain ⟨htag, hcontent⟩ := Scene.completePorts_eq hu
  refine Editor.ends_onCanvas (ends_modify.mpr fun e' he => ⟨p.putScene u, ?_⟩)
  set d := Canvas.load (some p) (some s) { e.canvas with desk := e.desk }
  have hmem : u ∈ (p.putScene u).scenes :=
    List.mem_map.mpr ⟨t, hfound, if_pos htag.symm⟩
  have hone : OneState (p.putScene u).scenes := by
    simp only [OneState, Project.putScene, List.forall_mem_map, Scene.tag_replaced]
    intro a ha b hb hab
    rw [hp a ha b hb hab]
  have hnews : d.scenes = (p.putScene u).scenes ++ [u] := by
    simp [Canvas.scenes, hproject, hscene]
  have hall : OneState d.scenes := hone.subset (by simp [hnews, hmem])
  have hsub : (p.putScene u).scenes ⊆ d.scenes := by simp [hnews]
  have hrenew := (p.reworked_putScene u).renew_eq hall hsub
  have hself := Project.renew_self hall hsub
  refine ⟨p.reworked_putScene u, hone, ?_, ?_, ⟨?_, ?_, u, hmem, ?_⟩, ?_, ?_, ?_, ?_, ?_⟩
  · simp only [Project.content, Project.putScene, List.map_map]
    refine List.map_congr_left fun a ha => ?_
    simp only [Function.comp_apply]
    split_ifs with h
    · rw [hcontent, hp a ha t hfound (h.trans htag)]
    · rfl
  · rw [he.session]
    simp [hsession, hrenew]
  · rw [he.outline]
    simp [houtline, hrenew]
  · rw [he.project]
    simp [hproject, hself]
  · rw [he.scene]
    simp [hscene, hall.newest_eq (hsub hmem)]
  · exact he.loading.trans hloading
  · rw [he.desk]
    simp [hdesk]
  · rw [he.desk]
    simp [hdesk, Desk.Silent]
  · rw [he.window]
  · rw [he.window]

/-- A scene of the open project is shown everywhere. -/
theorem ends_showScene (hidle : e.canvas.loading = false) (hsession : e.session.project = some p)
    (hp : OneState p.scenes) (hs : s ∈ p.scenes) :
    Ends (showScene p s) e (fun _ e' => ∃ q, e.Presented e' p q)
      fun e' => ∃ q, e.Presented e' p q := by
  have hrest : ∀ {e' : Editor}, (∃ q, e.Presented e' p q) →
      Ends (do
          Editor.atDesk (Desk.note (.event "center" []))
          Preview.refresh
          updateTitle) e' (fun _ e'' => ∃ q, e.Presented e'' p q) fun e'' =>
        ∃ q, e.Presented e'' p q := by
    rintro e' ⟨q, hq⟩
    have haside := (aside_note (n := .event "center" []) rfl).seq
      (aside_refresh.seq aside_updateTitle)
    exact (haside e').mono (fun _ _ h => ⟨q, hq.kept h⟩) fun _ h => ⟨q, hq.kept h⟩
  simp only [showScene, Outline.setProject, Outline.setCurrent, Outline.change, View.showScene,
    ends_bind, ends_modify]
  refine Ends.imp (ends_drawScene ?_ ?_ ?_ hp hs) fun _ e' he => ?_
  · exact hidle
  · exact hsession
  · rfl
  have hshown : ∃ q, e.Presented e' p q := by
    obtain ⟨q, hq⟩ := he
    exact ⟨q, { hq with }⟩
  simpa only [ends_bind] using hrest hshown

end Window

namespace Editor

/-- A project is open, its copies agree, and the button for saving can be pressed if there is
something to save. -/
structure Ready (e : Editor) : Prop where
  synced : e.Synced
  isOpen : e.session.project.isSome = true
  idle : e.canvas.loading = false
  marked : e.window.modified = true → e.window.canSave = true

variable {e e' : Editor} {p q : Project} {news : List Scene}

lemma Ready.kept (h : e.Ready) (hk : e.Kept e') : e'.Ready where
  synced := h.synced.kept hk
  isOpen := hk.session ▸ h.isOpen
  idle := hk.canvas ▸ h.idle
  marked := by
    rw [hk.modified, hk.canSave]
    exact h.marked

lemma Ready.presented (h : e.Ready) (hp : e.session.project = some p) (hq : e.Presented e' p q) :
    e'.Ready := by
  have hsession : e'.session.project = some q := by rw [hq.session]
  have hmem := mem_projects_of_open hp
  refine ⟨hq.synced (h.synced.projectTags p hmem) ?_, by simp [hsession], hq.idle, ?_⟩
  · exact fun s hs => h.synced.sceneTags s (scenes_subset hmem hs)
  · rw [hq.modified, hq.canSave]
    exact h.marked

lemma Ready.saved (h : e.Ready) : Ready { e with window := { e.window with
    modified := false, canSave := false && e.session.project.isSome } } :=
  { h with synced := { h.synced with }, marked := fun hm => by cases hm }

/-- Where copies agree, one does not change when another is put in its place. -/
lemma Synced.newest_eq (h : e.Synced) (hnews : news ⊆ e.scenes) {s : Scene} (hs : s ∈ e.scenes) :
    newest news s = s := by
  rcases Scene.newest_cases news s with hmem | ⟨heq, -⟩
  · exact h.scenes _ (hnews hmem) s hs (Scene.newest_tag news s)
  · exact heq

lemma Synced.renew_eq (h : e.Synced) (hnews : news ⊆ e.scenes) (hp : p.scenes ⊆ e.scenes) :
    p.renew news = p := by
  rw [Project.renew, List.map_congr_left fun s hs => h.newest_eq hnews (hp hs), List.map_id']

/-- A new state of the open project in which the scenes are the same. -/
lemma Synced.putRest {fail : Editor → Prop} (h : e.Synced) (hsession : e.session.project = some p)
    (hscenes : q.scenes = p.scenes) (htag : q.tag = p.tag) :
    Ends (Editor.putProject q) e
      (fun _ e' => e'.Synced ∧ e'.session = { e.session with project := some q } ∧
        (∀ r, e.Shows r → e'.Shows (if r.tag = q.tag then q else r)) ∧
        e'.canvas.loading = e.canvas.loading ∧ e'.desk = e.desk ∧ e'.window = e.window) fail := by
  have hopen := mem_projects_of_open hsession
  have hold : q.scenes ⊆ e.scenes := hscenes ▸ scenes_subset hopen
  refine (h.putProject (h.scenes.subset hold) (fun s hs => h.sceneTags s (hold hs))
    (htag ▸ h.projectTags p hopen)).imp fun _ e' he => ?_
  obtain ⟨hsynced, he⟩ := he
  have hq : q.renew q.scenes = q := h.renew_eq hold hold
  refine ⟨hsynced, ?_, fun r hr => ?_, he.loading, he.desk, he.window⟩
  · rw [he.session]
    simp [overlay, hsession, htag, hq]
  · have hmem := mem_projects_of_outline hr.outline
    have hsub := scenes_subset hmem
    have hrenew : (if r.tag = q.tag then q else r).renew q.scenes =
        if r.tag = q.tag then q else r := by
      split_ifs
      · exact hq
      · exact h.renew_eq hold hsub
    have hkept : (if r.tag = q.tag then q else r).scenes = r.scenes := by
      split_ifs with hrq
      · rw [hscenes, h.projects p hopen r hmem (htag ▸ hrq.symm)]
      · rfl
    obtain ⟨t, ht, hscene⟩ := hr.scene
    refine ⟨?_, ?_, t, hkept ▸ ht, ?_⟩
    · rw [he.outline]
      simp [overlay, hr.outline, hrenew]
    · rw [he.project]
      simp [overlay, hr.canvas, hrenew]
    · rw [he.scene]
      simp [overlay, hscene, h.newest_eq hold (hsub ht)]

/-- The second editor is the first after another project has been opened and shown. -/
structure Turned (e e' : Editor) (p q : Project) (directory : Option Path) : Prop where
  ready : e'.Ready
  session : e'.session = { project := some q, directory }
  shows : e'.Shows q
  reworked : (p.retag e.desk.nextTag).1.Reworked q
  content : q.content = p.content
  silent : e.desk.Silent e'.desk

variable {e'' : Editor} {directory : Option Path}

lemma Turned.of_kept (hk : e.Kept e') (h : e'.Turned e'' p q directory) :
    e.Turned e'' p q directory where
  ready := h.ready
  session := h.session
  shows := h.shows
  reworked := hk.nextTag ▸ h.reworked
  content := h.content
  silent := hk.silent.trans h.silent

lemma Turned.kept (h : e.Turned e' p q directory) (hk : e'.Kept e'') :
    e.Turned e'' p q directory where
  ready := h.ready.kept hk
  session := hk.session.trans h.session
  shows := h.shows.kept hk
  reworked := h.reworked
  content := h.content
  silent := h.silent.trans hk.silent

lemma Turned.saved (h : e.Turned e' p q directory) : e.Turned { e' with window := { e'.window with
    modified := false, canSave := false && e'.session.project.isSome } } p q directory :=
  { h with ready := h.ready.saved, shows := { h.shows with } }

/-- A project with new tags, and nothing else, is open: when it is shown, that is done. -/
lemma Turned.of_presented {r : Project} {later : Nat} (hretag : p.retag e.desk.nextTag = (r, later))
    (hsession : e'.session = { project := some r, directory })
    (hnext : e'.desk.nextTag = later) (hsilent : e.desk.Silent e'.desk)
    (hmarked : e'.window.modified = true → e'.window.canSave = true)
    (h : e'.Presented e'' r q) : e.Turned e'' p q directory := by
  obtain ⟨hrest, hlt, hone, htags, hcontent⟩ := Project.retag_eq hretag
  have htag : r.tag < e'.desk.nextTag := by
    rw [hrest, hnext]
    exact hlt
  refine ⟨⟨h.synced htag (hnext ▸ htags), ?_, h.idle, ?_⟩, ?_, h.shows, ?_, ?_,
    hsilent.trans h.silent⟩
  · rw [h.session]
    rfl
  · rw [h.modified, h.canSave]
    exact hmarked
  · rw [h.session, hsession]
  · rw [hretag]
    exact h.reworked
  · exact h.content.trans hcontent

end Editor

namespace Window

open Editor (Turned Presented)

variable {e : Editor} {p : Project}

lemma ends_present (hidle : e.canvas.loading = false) (hsession : e.session.project = some p)
    (hp : OneState p.scenes) (hne : p.scenes ≠ []) :
    Ends (p.scenes.head?.forM (showScene p)) e (fun _ e' => ∃ q, e.Presented e' p q)
      fun e' => ∃ q, e.Presented e' p q := by
  obtain ⟨s, rest, hs⟩ := List.exists_cons_of_ne_nil hne
  rw [hs]
  exact ends_showScene hidle hsession hp (hs ▸ List.mem_cons_self)

/-- A new project takes the place of the open one. -/
theorem ends_startProject (hidle : e.canvas.loading = false) (name : Value) :
    Ends (startProject name) e (fun _ e' => ∃ p q, e.Turned e' p q none)
      fun e' => ∃ p q, e.Turned e' p q none := by
  have hbegin : ∀ (e : Editor) (p : Project), e.canvas.loading = false → p.scenes ≠ [] →
      Ends (do
          let p ← Editor.adopt p
          modify ({ · with session := { project := some p } })
          markSaved
          p.scenes.head?.forM (showScene p)) e (fun _ e' => ∃ q, e.Turned e' p q none)
        fun e' => ∃ q, e.Turned e' p q none := by
    intro e p hidle hne
    obtain ⟨⟨r, later⟩, hr⟩ : ∃ x, p.retag e.desk.nextTag = x := ⟨_, rfl⟩
    obtain ⟨-, -, hone, -, -⟩ := Project.retag_eq hr
    simp only [markSaved, setModified, ends_bind, Editor.ends_adopt, ends_modify, hr]
    refine Ends.both (ends_present ?_ ?_ hone (mt (Project.scenes_eq_nil_of_retag hr).mp hne)) ?_
    · exact hidle
    · rfl
    · rintro e' ⟨q, hq⟩
      refine ⟨q, .of_presented hr ?_ ?_ ?_ ?_ hq⟩
      · rfl
      · rfl
      · exact .refl _
      · exact fun h => by cases h
  unfold startProject
  rw [ends_bind, Editor.ends_atDesk]
  refine Ends.both (hbegin _ _ ?_ ?_) ?_
  · exact hidle
  · simp
  · rintro e' ⟨q, hq⟩
    exact ⟨_, q, { hq with }⟩

theorem ends_newProject (hidle : e.canvas.loading = false) :
    Ends newProject e (fun _ e' => e.Kept e' ∨ ∃ p q, e.Turned e' p q none) fun e' =>
      e.Kept e' ∨ ∃ p q, e.Turned e' p q none := by
  unfold newProject
  rw [ends_bind]
  refine (aside_askText _ _ _ e).mono (fun name e' he => ?_) fun e' he => .inl he
  split
  · exact .inl he
  · exact .inl he
  · refine (ends_startProject (he.canvas ▸ hidle) _).both ?_
    rintro e'' ⟨p, q, hq⟩
    exact .inr ⟨p, q, hq.of_kept he⟩

/-- The window opens with a new project. -/
theorem ends_start (hidle : e.canvas.loading = false) :
    Ends start e (fun _ e' => ∃ p q, e.Turned e' p q none) fun _ => True := by
  have hfail : ∀ d, e.Kept d → True := fun _ _ => trivial
  unfold start
  refine (aside_phrase _ _).step e.steady_kept (.refl e) hfail fun title d hd => ?_
  have hchange : Aside (change ({ · with title })) := aside_change (fun _ => rfl) fun _ => rfl
  refine hchange.step e.steady_kept hd hfail fun _ d hd => ?_
  refine aside_loadGeometry.step e.steady_kept hd hfail fun _ d hd => ?_
  refine aside_buttons.step e.steady_kept hd hfail fun widgets d hd => ?_
  refine aside_loadSizes.step e.steady_kept hd hfail fun _ d hd => ?_
  rw [ends_bind]
  refine (ends_startProject (hd.canvas ▸ hidle) _).mono ?_ fun _ _ => trivial
  rintro - d' ⟨p, q, hq⟩
  have hrest : Aside (do
      updateTitle
      loadSizes
      note (.event "singleShot" [.int 100])
      pure widgets) :=
    aside_updateTitle.seq (aside_loadSizes.seq (.seq (aside_note rfl) (aside_pure _)))
  exact (hrest d').mono (fun _ e' he => ⟨p, q, (hq.of_kept hd).kept he⟩) fun _ _ => trivial

end Window
end NovelGraph
