import NovelGraph.Proofs.PresentedProject

/-! What the window does when a project is opened or saved, or another scene is selected, for all
answers in the dialogs and all that can be on the disk. -/
namespace NovelGraph

open Scene (OneState)

/-- The directory that will be chosen; none is if this is empty. -/
def Desk.offered (d : Desk) : String :=
  match d.answers with
  | .text s :: _ => s
  | _ => ""

lemma Desk.askDirectory_fst (title start : Value) (d : Desk) :
    (Desk.askDirectory title start d).1 = d.offered := by
  obtain ⟨_, _, _, answers, _⟩ := d
  cases answers with
  | nil => rfl
  | cons v _ => cases v <;> rfl

namespace Editor

/-- What an open does. A project without scenes is opened, but nothing shows it. -/
inductive Opened (e e' : Editor) : Prop where
  | cancelled (hoffer : e.desk.offered = "") (hkept : e.Kept e')
  | refused {f : Fault} (hoffer : e.desk.offered ≠ "")
      (hload : Project.load e.host.disk (.ofText e.desk.offered) = .error f) (hkept : e.Kept e')
  | blank {p : Project} (hoffer : e.desk.offered ≠ "")
      (hload : Project.load e.host.disk (.ofText e.desk.offered) = .ok p) (hempty : p.scenes = [])
      (hready : e'.Ready)
      (hsession : e'.session = { project := some (p.retag e.desk.nextTag).1,
                                 directory := some (.ofText e.desk.offered) })
      (houtline : e'.outline.project = e.outline.project) (hcanvas : e'.canvas = e.canvas)
      (hsilent : e.desk.Silent e'.desk)
  | shown {p q : Project} (hoffer : e.desk.offered ≠ "")
      (hload : Project.load e.host.disk (.ofText e.desk.offered) = .ok p) (hscenes : p.scenes ≠ [])
      (hturned : e.Turned e' p q (some (.ofText e.desk.offered)))

variable {e : Editor} {p q : Project} {later : Nat}

/-- A project that has no scenes and a new tag has no copies. -/
lemma Synced.blank (h : e.Synced) (hscenes : q.scenes = []) (htag : q.tag = e.desk.nextTag)
    (hlater : e.desk.nextTag < later) {directory : Option Path} :
    Synced { e with
      session := { project := some q, directory }, desk := { e.desk with nextTag := later } } := by
  have hprojects : ∀ r ∈ Editor.projects { e with
      session := { project := some q, directory }, desk := { e.desk with nextTag := later } },
      r = q ∨ r ∈ e.projects := by
    intro r hr
    simp only [Editor.projects, List.mem_append, Option.mem_toList,
      Option.some.injEq] at hr ⊢
    tauto
  have hold : Editor.scenes { e with
      session := { project := some q, directory }, desk := { e.desk with nextTag := later } }
      ⊆ e.scenes := by
    simp [Editor.scenes, hscenes]
  refine ⟨h.scenes.subset hold, fun r hr u hu hru => ?_, fun s hs => ?_, fun r hr => ?_⟩
  · rcases hprojects r hr with rfl | hrold
    · rcases hprojects u hu with rfl | huold
      · rfl
      · exact absurd (hru.symm.trans htag) (Nat.ne_of_lt (h.projectTags u huold))
    · rcases hprojects u hu with rfl | huold
      · exact absurd (hru.trans htag) (Nat.ne_of_lt (h.projectTags r hrold))
      · exact h.projects r hrold u huold hru
  · exact Nat.lt_trans (h.sceneTags s (hold hs)) hlater
  · rcases hprojects r hr with rfl | hr
    · exact htag ▸ hlater
    · exact Nat.lt_trans (h.projectTags r hr) hlater

end Editor

lemma Session.openIn_eq (t : Tree) (directory : Path) : Session.openIn t directory =
    (Project.load t directory).map fun p => { project := some p, directory := some directory } := by
  unfold Session.openIn
  cases Project.load t directory <;> rfl

namespace Window

open Editor (Turned Presented Opened)

variable {e d : Editor} {p : Project}

/-- A project that has been read is entered, and shown unless it has no scenes. -/
lemma ends_enter (h : d.Ready) (directory : Path) {P : Editor → Prop}
    (hblank : p.scenes = [] → ∀ e', e'.Ready →
      e'.session = { project := some (p.retag d.desk.nextTag).1, directory := some directory } →
      e'.outline.project = d.outline.project → e'.canvas = d.canvas → d.desk.Silent e'.desk → P e')
    (hshown : p.scenes ≠ [] → ∀ q e', d.Turned e' p q (some directory) → P e') :
    Ends (do
      Editor.enter { project := some p, directory := some directory }
      match (← get).session.project with
      | some { scenes := [], .. } | none => warn "Ошибка" "В проекте нет сцен."
      | some p =>
        p.scenes.head?.forM (showScene p)
        markSaved) d (fun _ e' => P e') P := by
  obtain ⟨⟨r, later⟩, hr⟩ : ∃ x, p.retag d.desk.nextTag = x := ⟨_, rfl⟩
  obtain ⟨hrest, hlater, hone, htags, hcontent⟩ := Project.retag_eq hr
  have henter : Editor.enter { project := some p, directory := some directory } = (do
      let p ← Editor.adopt p
      modify ({ · with session := { project := some p, directory := some directory } })) := by
    simp [Editor.enter, Option.mapM_some]
  rw [ends_bind, henter]
  simp only [ends_bind, Editor.ends_adopt, ends_modify, ends_get, hr]
  split
  case h_1 hopen =>
    have hnil : r.scenes = [] := by rw [Option.some.inj hopen]
    have hready : Editor.Ready { d with
        session := { project := some r, directory := some directory }
        desk := { d.desk with nextTag := later } } :=
      ⟨h.synced.blank hnil (by rw [hrest]) hlater, rfl, h.idle, h.marked⟩
    refine Ends.both (aside_note rfl _) fun e' he =>
      hblank ((Project.scenes_eq_nil_of_retag hr).mp hnil) e' (hready.kept he) ?_ ?_ ?_ ?_
    · rw [he.session, hr]
    · exact he.outline
    · exact he.canvas
    · exact he.silent
  case h_2 hopen => cases hopen
  case h_3 p' hne hopen =>
    obtain rfl := Option.some.inj hopen
    have hne : r.scenes ≠ [] := by
      intro hnil
      exact hne r.name r.globals r.characters r.images r.styles r.tag (by rw [← hnil])
    have hscenes : p.scenes ≠ [] := mt (Project.scenes_eq_nil_of_retag hr).mpr hne
    have hturned : ∀ {e' : Editor} {q : Project}, Presented { d with
        session := { project := some r, directory := some directory }
        desk := { d.desk with nextTag := later } } e' r q → d.Turned e' p q (some directory) := by
      intro e' q hq
      refine .of_presented hr ?_ ?_ ?_ ?_ hq
      · rfl
      · rfl
      · exact .refl _
      · exact h.marked
    rw [ends_bind]
    refine Ends.mono (ends_present ?_ ?_ hone hne) (fun _ e' he => ?_) fun e' he => ?_
    · exact h.idle
    · rfl
    · obtain ⟨q, hq⟩ := he
      exact hshown hscenes q _ (hturned hq).saved
    · obtain ⟨q, hq⟩ := he
      exact hshown hscenes q e' (hturned hq)

/-- What an open does, for all that can be found in a directory. -/
theorem ends_openProject (h : e.Ready) :
    Ends openProject e (fun _ e' => e.Opened e') e.Opened := by
  have hask := aside_askDirectory
    (.text "Выбери папку существующего проекта (где лежит project.json)") (.text "") e
  unfold openProject
  rw [Editor.ends_atDesk] at hask
  rw [ends_bind, Editor.ends_atDesk, Desk.askDirectory_fst]
  set d : Editor := { e with desk := (Desk.askDirectory _ _ e.desk).2 }
  have hhost : d.host = e.host := rfl
  by_cases hoffer : e.desk.offered = ""
  · rw [hoffer]
    exact .cancelled hoffer hask
  have hchosen : (!e.desk.offered.isEmpty) = true := by simpa using hoffer
  rw [if_pos hchosen, ends_bind, ends_get, Session.openIn_eq, hhost]
  cases hload : Project.load e.host.disk (.ofText e.desk.offered) with
  | error f =>
    have hrefused : ∀ {work : EditorM Unit}, Aside work →
        Ends work d (fun _ e' => e.Opened e') e.Opened := fun hwork =>
      (hwork d).both fun _ he => .refused hoffer hload (hask.trans he)
    simp only [Except.map]
    split
    · exact hrefused (aside_note rfl)
    · exact hrefused (aside_note rfl)
    · exact hrefused (aside_throw _)
    · rename_i heq
      cases heq
  | ok p =>
    refine ends_enter (h.kept hask) _ (fun hempty e' hready hsession houtline hcanvas hsilent => ?_)
      fun hscenes q e' hq => .shown hoffer hload hscenes (hq.of_kept hask)
    exact .blank hoffer hload hempty hready (hask.nextTag ▸ hsession) (houtline.trans hask.outline)
      (hcanvas.trans hask.canvas) (hask.silent.trans hsilent)

end Window

/-- Whether something was reported as done. -/
def Notice.informs : Notice → Bool
  | .event "information" _ => true
  | _ => false

namespace Editor

/-- What a save does: the project may get another name, and there is nothing to save any more if it
was reported as saved. -/
structure Saved (e e' : Editor) : Prop where
  ready : e'.Ready
  project : ∃ p q, e.session.project = some p ∧ e'.session.project = some q ∧
    q.scenes = p.scenes ∧ q.tag = p.tag ∧ ∀ r, e.Shows r → e'.Shows (if r.tag = q.tag then q else r)
  silent : e.desk.Silent e'.desk
  marks : (e'.window.modified = e.window.modified ∧ e'.window.canSave = e.window.canSave) ∨
    ∃ n ∈ e'.desk.log, n.informs = true

variable {e e' : Editor}

lemma steady_saved (e : Editor) : Steady e.Saved := by
  intro d d' h hk
  obtain ⟨p, q, hp, hq, hscenes, htag, hshows⟩ := h.project
  refine ⟨h.ready.kept hk, ⟨p, q, hp, hk.session ▸ hq, hscenes, htag, fun r hr => ?_⟩,
    h.silent.trans hk.silent, h.marks.imp (fun hm => ?_) fun hm => ?_⟩
  · exact (hshows r hr).kept hk
  · exact ⟨hk.modified.trans hm.1, hk.canSave.trans hm.2⟩
  · obtain ⟨n, hn, hinforms⟩ := hm
    obtain ⟨more, hlog, -⟩ := hk.silent
    exact ⟨n, hlog ▸ List.mem_append_left more hn, hinforms⟩

lemma Ready.saved_of_kept (h : e.Ready) (hk : e.Kept e') : e.Saved e' := by
  obtain ⟨p, hp⟩ := Option.isSome_iff_exists.mp h.isOpen
  refine e.steady_saved ⟨h, ⟨p, p, hp, hp, rfl, rfl, fun r hr => ?_⟩, .refl _, .inl ⟨rfl, rfl⟩⟩ hk
  split_ifs with htag
  · have hmem := mem_projects_of_outline hr.outline
    exact h.synced.projects r hmem p (mem_projects_of_open hp) htag ▸ hr
  · exact hr

lemma Saved.moved {directory : Option Path} (h : e.Saved e') :
    e.Saved { e' with session := { e'.session with directory } } := by
  obtain ⟨p, q, hp, hq, hscenes, htag, hshows⟩ := h.project
  refine ⟨{ h.ready with synced := { h.ready.synced with } },
    ⟨p, q, hp, hq, hscenes, htag, fun r hr => { hshows r hr with }⟩, h.silent, h.marks⟩

/-- There is nothing to save after it has been reported. -/
lemma Saved.reported {n : Notice} (h : e.Saved e') (hsilent : n.marks = false)
    (hinforms : n.informs = true) : e.Saved { e' with
      desk := { e'.desk with log := e'.desk.log ++ [n] }
      window := { e'.window with
        modified := false, canSave := false && e'.session.project.isSome } } := by
  have hkept : e'.Kept { e' with desk := { e'.desk with log := e'.desk.log ++ [n] } } :=
    ⟨rfl, rfl, rfl, rfl, ⟨[n], rfl, by simpa using hsilent⟩, rfl, rfl⟩
  have hnoted := e.steady_saved h hkept
  obtain ⟨p, q, hp, hq, hscenes, htag, hshows⟩ := hnoted.project
  refine ⟨hnoted.ready.saved, ⟨p, q, hp, hq, hscenes, htag, fun r hr => { hshows r hr with }⟩,
    hnoted.silent, .inr ⟨n, by simp, hinforms⟩⟩

end Editor

namespace Window

open Editor (Saved)

variable {e d : Editor} {p : Project}

/-- The open project gets another name. -/
lemma ends_rename (h : e.Ready) (hp : e.session.project = some p) (hd : e.Kept d) (name : Value) :
    Ends (Editor.putProject { p with name }) d (fun _ d' => e.Saved d') e.Saved := by
  have hp' : d.session.project = some p := hd.session ▸ hp
  refine ((h.kept hd).synced.putRest (q := { p with name }) hp' rfl rfl).imp ?_
  rintro - d' ⟨hsynced, hsession, hshows, hloading, hdesk, hwindow⟩
  have hopen : d'.session.project = some { p with name } := by rw [hsession]
  refine ⟨⟨hsynced, ?_, ?_, ?_⟩, ⟨p, _, hp, hopen, rfl, rfl, ?_⟩, ?_, .inl ⟨?_, ?_⟩⟩
  · rw [hopen]
    rfl
  · rw [hloading, hd.canvas, h.idle]
  · rw [hwindow, hd.modified, hd.canSave]
    exact h.marked
  · exact fun r hr => hshows r (hr.kept hd)
  · exact hdesk ▸ hd.silent
  · rw [hwindow, hd.modified]
  · rw [hwindow, hd.canSave]

theorem ends_saveAs (h : e.Ready) (hp : e.session.project = some p) :
    Ends (saveAs p) e (fun _ e' => e.Saved e') e.Saved := by
  have hkept : ∀ d, e.Kept d → e.Saved d := fun _ => h.saved_of_kept
  have hfail : ∀ d, e.Saved d → e.Saved d := fun _ hd => hd
  have hwrite : ∀ (q : Project) (directory : Path) (go : Bool) d, e.Saved d → Ends (do
      if go then
        Editor.onDisk (q.save directory)
        modify fun e => { e with session := { e.session with directory := some directory } }
        updateTitle
      pure go) d (fun _ e' => e.Saved e') e.Saved := by
    intro q directory go d hd
    split_ifs
    · refine (aside_atHost _).step e.steady_saved hd hfail fun _ d hd => ?_
      rw [ends_bind, ends_modify]
      exact aside_updateTitle.step e.steady_saved hd.moved hfail fun _ d hd => hd
    · exact hd
  unfold saveAs
  refine (aside_askDirectory _ _).step e.steady_kept (.refl e) hkept fun base d hd => ?_
  split_ifs
  · exact hkept d hd
  refine (aside_askText _ _ _).step e.steady_kept hd hkept fun name d hd => ?_
  split
  · exact hkept d hd
  · exact hkept d hd
  rw [ends_bind]
  refine (ends_rename h hp hd _).imp fun _ d hd => ?_
  refine aside_get.step e.steady_saved hd hfail fun _ d hd => ?_
  dsimp only
  split_ifs
  · rw [pure_bind]
    exact hwrite _ _ true d hd
  · exact (aside_confirm _ _ _).step e.steady_saved hd hfail (hwrite _ _)

/-- The open project is written, and then the work goes on. -/
lemma ends_write (h : e.Ready) (hp : e.session.project = some p) {next : Bool → EditorM Unit}
    (hnext : ∀ done d, e.Saved d → Ends (next done) d (fun _ e' => e.Saved e') e.Saved) :
    Ends (if e.session.directory.isNone = true then saveAs p >>= next
      else do
        Editor.onDisk e.session.save
        let done ← pure true
        next done) e (fun _ e' => e.Saved e') e.Saved := by
  split_ifs
  · rw [ends_bind]
    exact (ends_saveAs h hp).imp hnext
  · refine (aside_atHost _).step e.steady_kept (.refl e) (fun _ => h.saved_of_kept) fun _ d hd => ?_
    rw [pure_bind]
    exact hnext true d (h.saved_of_kept hd)

theorem ends_saveProject (h : e.Ready) : Ends saveProject e (fun _ e' => e.Saved e') e.Saved := by
  obtain ⟨p, hp⟩ := Option.isSome_iff_exists.mp h.isOpen
  unfold saveProject
  rw [ends_bind, ends_get]
  simp only [hp]
  refine ends_write h hp fun done d hd => ?_
  split_ifs
  · rw [ends_bind, ends_get]
    split
    · exact hd.reported rfl rfl
    · exact hd.reported rfl rfl
  · exact hd

/-- A scene of the open project is shown, or nothing happens. -/
theorem ends_selectScene (h : e.Ready) (s : Option Scene) :
    Ends (selectScene s) e
      (fun _ e' => e.Kept e' ∨ ∃ p q, e.session.project = some p ∧ e.Presented e' p q)
      fun e' => e.Kept e' ∨ ∃ p q, e.session.project = some p ∧ e.Presented e' p q := by
  have hstay : e.Kept e ∨ ∃ p q, e.session.project = some p ∧ e.Presented e p q := .inl (.refl e)
  unfold selectScene
  rw [ends_bind, ends_get]
  split
  · exact hstay
  · exact hstay
  case h_3 p s hp =>
    split
    · exact hstay
    case h_2 t ht =>
      split_ifs
      · exact hstay
      have hsub := Editor.scenes_subset (Editor.mem_projects_of_open hp)
      refine (ends_showScene h.idle hp (h.synced.scenes.subset hsub)
        (List.mem_of_find?_eq_some ht)).both ?_
      rintro e' ⟨q, hq⟩
      exact .inr ⟨p, q, hp, hq⟩

end Window
end NovelGraph
