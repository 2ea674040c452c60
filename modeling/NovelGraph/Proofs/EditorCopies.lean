import NovelGraph.Editor.Window
import NovelGraph.Proofs.SceneOpening

/-! The copies of a scene that the parts of the editor hold. The open project, the list of scenes
and the canvas each have their own, and a tag tells which belong together. Whatever is done on the
canvas or with the project as a whole, copies with the same tag stay equal. -/
namespace NovelGraph

namespace Scene

/-- The last of some scenes that has the tag of a scene, or that scene itself. -/
def newest (news : List Scene) (s : Scene) : Scene :=
  news.foldl (fun a b => if a.tag = b.tag then b else a) s

/-- Scenes with the same tag are in the same state. -/
def OneState (scenes : List Scene) : Prop := ∀ s ∈ scenes, ∀ t ∈ scenes, s.tag = t.tag → s = t

/-- What a scene holds besides names and ports. -/
def content (s : Scene) : Value × List Block × List Connection :=
  (s.id, s.blocks.map Block.visible, s.connections)

variable {news scenes : List Scene} {s t : Scene}

lemma newest_cons (a : Scene) (news : List Scene) (s : Scene) :
    newest (a :: news) s = newest news (if s.tag = a.tag then a else s) := rfl

lemma tag_replaced (s t : Scene) : (if s.tag = t.tag then t else s).tag = s.tag := by
  split_ifs with h
  · exact h.symm
  · rfl

@[simp] lemma newest_tag (news : List Scene) (s : Scene) : (newest news s).tag = s.tag := by
  induction news generalizing s with
  | nil => rfl
  | cons a rest ih => rw [newest_cons, ih, tag_replaced]

lemma newest_cases (news : List Scene) (s : Scene) :
    newest news s ∈ news ∨ newest news s = s ∧ ∀ t ∈ news, t.tag ≠ s.tag := by
  induction news generalizing s with
  | nil => exact .inr ⟨rfl, by simp⟩
  | cons a rest ih =>
    rw [newest_cons]
    split_ifs with h
    · rcases ih a with hmem | ⟨heq, -⟩
      · exact .inl (List.mem_cons_of_mem a hmem)
      · exact .inl (heq.symm ▸ List.mem_cons_self)
    · rcases ih s with hmem | ⟨heq, hrest⟩
      · exact .inl (List.mem_cons_of_mem a hmem)
      · exact .inr ⟨heq, List.forall_mem_cons.mpr ⟨Ne.symm h, hrest⟩⟩

lemma OneState.newest_eq (h : OneState news) (ht : t ∈ news) (htag : t.tag = s.tag) :
    newest news s = t := by
  rcases newest_cases news s with hmem | ⟨-, hnone⟩
  · exact h _ hmem t ht (by rw [newest_tag, htag])
  · exact absurd htag (hnone t ht)

lemma OneState.subset {some : List Scene} (h : OneState scenes) (hsub : some ⊆ scenes) :
    OneState some := fun s hs t ht => h s (hsub hs) t (hsub ht)

/-- Copies are equal after some scenes have taken the places of older states, if those that none of
them replaces were. -/
lemma OneState.renew (h : OneState news)
    (hold : ∀ s ∈ scenes, ∀ t ∈ scenes, s.tag = t.tag → s = t ∨ ∃ u ∈ news, u.tag = s.tag) :
    OneState (scenes.map (newest news)) := by
  simp only [OneState, List.forall_mem_map, newest_tag]
  intro s hs t ht htag
  rcases hold s hs t ht htag with rfl | ⟨u, hu, hus⟩
  · rfl
  · rw [h.newest_eq hu hus, h.newest_eq hu (hus.trans htag)]

end Scene

open Scene (OneState newest)

namespace Project

/-- The project with the newest states of its scenes. -/
def renew (news : List Scene) (p : Project) : Project :=
  { p with scenes := p.scenes.map (newest news) }

def content (p : Project) : List (Value × List Block × List Connection) :=
  p.scenes.map Scene.content

/-- The second project has the scenes of the first, in states where something may have changed. -/
structure Reworked (p q : Project) : Prop where
  rest : q = { p with scenes := q.scenes }
  tags : List.Forall₂ (fun s t : Scene => s.tag = t.tag) p.scenes q.scenes

variable {p q : Project} {news : List Scene} {t : Scene}

lemma renew_cons (a : Scene) (news : List Scene) (p : Project) :
    p.renew (a :: news) = (p.putScene a).renew news := by
  simp only [renew, putScene, List.map_map]
  rfl

lemma renew_nil (p : Project) : p.renew [] = p := by
  simp only [renew]
  congr 1
  exact List.map_id p.scenes

/-- Where all states are there already, nothing is replaced by something else. -/
lemma Reworked.renew_eq (h : p.Reworked q) (hnews : OneState news) (hsub : q.scenes ⊆ news) :
    p.renew news = q := by
  have hscenes : ∀ {ss ts : List Scene}, List.Forall₂ (fun s t : Scene => s.tag = t.tag) ss ts →
      ts ⊆ news → ss.map (newest news) = ts := by
    intro ss ts hst hsub
    induction hst with
    | nil => rfl
    | cons htag _ ih =>
      obtain ⟨hmem, hsub⟩ := List.cons_subset.mp hsub
      rw [List.map_cons, hnews.newest_eq hmem htag.symm, ih hsub]
  rw [renew, hscenes h.tags hsub, ← h.rest]

lemma Reworked.refl (p : Project) : p.Reworked p := ⟨rfl, List.forall₂_same.mpr fun _ _ => rfl⟩

lemma Reworked.tag_eq (h : p.Reworked q) : q.tag = p.tag := by rw [h.rest]

lemma reworked_map {f : Scene → Scene} (hf : ∀ s, (f s).tag = s.tag) (p : Project) :
    p.Reworked { p with scenes := p.scenes.map f } := by
  refine ⟨rfl, ?_⟩
  rw [List.forall₂_map_right_iff]
  exact List.forall₂_same.mpr fun s _ => (hf s).symm

lemma reworked_putScene (p : Project) (t : Scene) : p.Reworked (p.putScene t) :=
  p.reworked_map fun s => s.tag_replaced t

lemma renew_self (hnews : OneState news) (hsub : p.scenes ⊆ news) : p.renew news = p :=
  (Reworked.refl p).renew_eq hnews hsub

end Project

/-- The scenes that the canvas holds. -/
def Canvas.scenes (c : Canvas) : List Scene := (c.project.map (·.scenes)).getD [] ++ c.scene.toList

namespace Editor

/-- All projects that the editor holds. -/
def projects (e : Editor) : List Project :=
  e.session.project.toList ++ e.outline.project.toList ++ e.canvas.project.toList

/-- All scenes that the editor holds, each as often as it does. -/
def scenes (e : Editor) : List Scene :=
  (e.session.project.map (·.scenes)).getD [] ++ (e.outline.project.map (·.scenes)).getD [] ++
    e.canvas.scenes

/-- Copies of a scene or of a project are equal, and have tags that were given out. -/
structure Synced (e : Editor) : Prop where
  scenes : OneState e.scenes
  projects : ∀ p ∈ e.projects, ∀ q ∈ e.projects, p.tag = q.tag → p = q
  sceneTags : ∀ s ∈ e.scenes, s.tag < e.desk.nextTag
  projectTags : ∀ p ∈ e.projects, p.tag < e.desk.nextTag

/-- The second editor is the first after new states of scenes have been shown everywhere. -/
structure Refreshed (news : List Scene) (e e' : Editor) : Prop where
  session : e'.session = { e.session with project := e.session.project.map (·.renew news) }
  outline : e'.outline.project = e.outline.project.map (·.renew news)
  project : e'.canvas.project = e.canvas.project.map (·.renew news)
  scene : e'.canvas.scene = e.canvas.scene.map (newest news)
  loading : e'.canvas.loading = e.canvas.loading
  desk : e'.desk = e.desk
  window : e'.window = e.window

variable {e e' : Editor} {news : List Scene}

lemma refreshed_foldl (news : List Scene) (e : Editor) :
    e.Refreshed news (news.foldl putScene e) := by
  induction news generalizing e with
  | nil =>
    have hid : (fun p : Project => p.renew []) = id := funext Project.renew_nil
    refine ⟨?_, ?_, ?_, ?_, rfl, rfl, rfl⟩ <;> simp [hid]
    exact Option.map_id'.symm
  | cons a rest ih =>
    obtain ⟨hsession, houtline, hproject, hscene, hloading, hdesk, hwindow⟩ := ih (e.putScene a)
    refine ⟨?_, ?_, ?_, ?_, hloading, hdesk, hwindow⟩
    · rw [List.foldl_cons, hsession]
      simp [putScene, Function.comp_def, Project.renew_cons]
    · rw [List.foldl_cons, houtline]
      simp [putScene, Outline.putScene, Function.comp_def, Project.renew_cons]
    · rw [List.foldl_cons, hproject]
      simp [putScene, Canvas.putScene, Function.comp_def, Project.renew_cons]
    · rw [List.foldl_cons, hscene]
      simp only [putScene, Canvas.putScene, Option.map_map]
      rfl

lemma Refreshed.scenes_eq (h : e.Refreshed news e') : e'.scenes = e.scenes.map (newest news) := by
  simp only [scenes, Canvas.scenes, h.session, h.outline, h.project, h.scene]
  cases e.session.project <;> cases e.outline.project <;> cases e.canvas.project <;>
    cases e.canvas.scene <;> simp [Project.renew]

lemma Refreshed.projects_eq (h : e.Refreshed news e') :
    e'.projects = e.projects.map (·.renew news) := by
  simp only [projects, h.session, h.outline, h.project]
  cases e.session.project <;> cases e.outline.project <;> cases e.canvas.project <;> simp

variable {α : Type} {p q : Project} {d : Canvas}

/-- What is true after new states have been shown everywhere is true after work on the canvas. -/
lemma ends_onCanvas {work : CanvasM α} {post : α → Editor → Prop} {fail : Editor → Prop}
    (h : Ends work { e.canvas with desk := e.desk }
      (fun a d => ∀ e', Refreshed d.scenes { e with canvas := d, desk := d.desk } e' → post a e')
      fun d => ∀ e', Refreshed d.scenes { e with canvas := d, desk := d.desk } e' → fail e') :
    Ends (onCanvas work) e post fail := by
  have hafter : ∀ d : Canvas, Refreshed d.scenes { e with canvas := d, desk := d.desk }
      { d.scenes.foldl putScene { e with canvas := d, desk := d.desk } with
        form := d.boxes.foldl (fun f b => f.putBlock b.block)
          (d.scenes.foldl putScene { e with canvas := d, desk := d.desk }).form } := by
    intro d
    have hr := refreshed_foldl d.scenes { e with canvas := d, desk := d.desk }
    exact ⟨hr.session, hr.outline, hr.project, hr.scene, hr.loading, hr.desk, hr.window⟩
  unfold Ends at h ⊢
  unfold onCanvas
  cases hrun : work { e.canvas with desk := e.desk } with
  | ok a d =>
    rw [hrun] at h
    exact h _ (hafter d)
  | error f d =>
    rw [hrun] at h
    exact h _ (hafter d)

/-- Copies agree after new states have been shown everywhere, if all others are still as they
were. -/
lemma Synced.refreshed {d : Editor} (h : e.Synced) (hnews : OneState news)
    (hscenes : ∀ s ∈ d.scenes, s ∈ e.scenes ∨ s ∈ news)
    (hprojects : ∀ p ∈ d.projects, ∀ q ∈ d.projects, p.tag = q.tag → p.renew news = q.renew news)
    (htags : ∀ s ∈ news, s.tag < d.desk.nextTag) (hlow : ∀ p ∈ d.projects, p.tag < d.desk.nextTag)
    (hnext : e.desk.nextTag ≤ d.desk.nextTag) (he : d.Refreshed news e') : e'.Synced := by
  refine ⟨?_, ?_, ?_, ?_⟩
  · rw [he.scenes_eq]
    refine hnews.renew fun s hs t ht htag => ?_
    rcases hscenes s hs with hs | hs
    · rcases hscenes t ht with ht | ht
      · exact .inl (h.scenes s hs t ht htag)
      · exact .inr ⟨t, ht, htag.symm⟩
    · exact .inr ⟨s, hs, rfl⟩
  · rw [he.projects_eq]
    simp only [List.forall_mem_map]
    exact hprojects
  · rw [he.scenes_eq, he.desk]
    simp only [List.forall_mem_map, Scene.newest_tag]
    intro s hs
    rcases hscenes s hs with hs | hs
    · exact Nat.lt_of_lt_of_le (h.sceneTags s hs) hnext
    · exact htags s hs
  · rw [he.projects_eq, he.desk]
    simp only [List.forall_mem_map]
    exact hlow

/-- Copies agree after work on the canvas if those on the canvas do. -/
theorem Synced.onCanvas (h : e.Synced) (hscenes : OneState d.scenes)
    (hproject : ∀ q ∈ d.project, ∃ p ∈ e.canvas.project, p.Reworked q)
    (htags : ∀ s ∈ d.scenes, s.tag < d.desk.nextTag) (hnext : e.desk.nextTag ≤ d.desk.nextTag)
    (he : Refreshed d.scenes { e with canvas := d, desk := d.desk } e') : e'.Synced := by
  -- every project has an older state, which looks the same when the new scenes are put into it
  have holder : ∀ q ∈ Editor.projects { e with canvas := d, desk := d.desk }, ∃ p ∈ e.projects,
      p.tag = q.tag ∧ p.renew d.scenes = q.renew d.scenes := by
    intro q hq
    simp only [Editor.projects, List.mem_append, Option.mem_toList] at hq ⊢
    rcases hq with hq | hq
    · exact ⟨q, .inl hq, rfl, rfl⟩
    · obtain ⟨p, hp, hpq⟩ := hproject q hq
      have hsub : q.scenes ⊆ d.scenes := by simp [Canvas.scenes, Option.mem_def.mp hq]
      refine ⟨p, .inr hp, hpq.tag_eq.symm, ?_⟩
      rw [hpq.renew_eq hscenes hsub, Project.renew_self hscenes hsub]
  refine h.refreshed hscenes (fun s hs => ?_) (fun p hp q hq htag => ?_) htags
    (fun q hq => ?_) hnext he
  · rcases List.mem_append.mp hs with hs | hs
    · exact .inl (List.mem_append_left _ hs)
    · exact .inr hs
  · obtain ⟨p', hp', hptag, hpnew⟩ := holder p hp
    obtain ⟨q', hq', hqtag, hqnew⟩ := holder q hq
    rw [← hpnew, ← hqnew, h.projects p' hp' q' hq' (hptag.trans (htag.trans hqtag.symm))]
  · obtain ⟨p, hp, htag, -⟩ := holder q hq
    exact Nat.lt_of_lt_of_le (htag ▸ h.projectTags p hp) hnext

/-- The editor with one project in the place of its other states. -/
def overlay (e : Editor) (p : Project) : Editor :=
  let refresh (q : Project) : Project := if q.tag = p.tag then p else q
  { e with
    session := { e.session with project := e.session.project.map refresh }
    canvas := { e.canvas with project := e.canvas.project.map refresh }
    outline := { e.outline with project := e.outline.project.map refresh } }

lemma mem_projects_overlay (h : q ∈ (e.overlay p).projects) :
    q = p ∨ q ∈ e.projects ∧ q.tag ≠ p.tag := by
  have hmap : (e.overlay p).projects = e.projects.map fun q => if q.tag = p.tag then p else q := by
    simp only [projects, overlay]
    cases e.session.project <;> cases e.outline.project <;> cases e.canvas.project <;> simp
  rw [hmap, List.mem_map] at h
  obtain ⟨r, hr, rfl⟩ := h
  split_ifs with htag
  · exact .inl rfl
  · exact .inr ⟨hr, htag⟩

lemma mem_scenes_iff {s : Scene} :
    s ∈ e.scenes ↔ (∃ p ∈ e.projects, s ∈ p.scenes) ∨ e.canvas.scene = some s := by
  simp only [scenes, Canvas.scenes, projects]
  cases e.session.project <;> cases e.outline.project <;> cases e.canvas.project <;>
    cases e.canvas.scene <;> simp [eq_comm, or_assoc]

lemma scenes_subset (hp : p ∈ e.projects) : p.scenes ⊆ e.scenes :=
  fun _ hs => mem_scenes_iff.mpr (.inl ⟨p, hp, hs⟩)

lemma mem_projects_of_open (h : e.session.project = some p) : p ∈ e.projects := by
  simp [projects, h]

lemma mem_projects_of_outline (h : e.outline.project = some p) : p ∈ e.projects := by
  simp [projects, h]

/-- Copies agree after a new state of a project has been shown. -/
theorem Synced.putProject (h : e.Synced) (hscenes : OneState p.scenes)
    (htags : ∀ s ∈ p.scenes, s.tag < e.desk.nextTag) (htag : p.tag < e.desk.nextTag)
    {fail : Editor → Prop} :
    Ends (putProject p) e (fun _ e' => e'.Synced ∧ (e.overlay p).Refreshed p.scenes e') fail := by
  have he := refreshed_foldl p.scenes (e.overlay p)
  refine ⟨h.refreshed (d := e.overlay p) hscenes (fun s hs => ?_) (fun q hq r hr hqr => ?_) htags
    (fun q hq => ?_) (Nat.le_refl _) he, he⟩
  · rcases mem_scenes_iff.mp hs with ⟨q, hq, hmem⟩ | hscene
    · rcases mem_projects_overlay hq with rfl | ⟨hq, -⟩
      · exact .inr hmem
      · exact .inl (scenes_subset hq hmem)
    · exact .inl (mem_scenes_iff.mpr (.inr hscene))
  · rcases mem_projects_overlay hq with rfl | ⟨hq, hqp⟩
    · rcases mem_projects_overlay hr with rfl | ⟨-, hrp⟩
      · rfl
      · exact absurd hqr.symm hrp
    · rcases mem_projects_overlay hr with rfl | ⟨hr, -⟩
      · exact absurd hqr hqp
      · rw [h.projects q hq r hr hqr]
  · rcases mem_projects_overlay hq with rfl | ⟨hq, -⟩
    · exact htag
    · exact h.projectTags q hq

end Editor

section Tags

variable {s t : Scene} {p q : Project} {next later : Nat}

lemma Scene.content_retag (next : Nat) (s : Scene) : (s.retag next).1.content = s.content := by
  have hblocks : (s.retag next).1.blocks.map Block.visible = s.blocks.map Block.visible := by
    refine List.ext_getElem? fun k => ?_
    simp only [Scene.retag, List.getElem?_map, List.getElem?_mapIdx, Option.map_map]
    rfl
  simp only [content, hblocks]
  rfl

/-- Scenes that get tags get different ones, and stay what they are. -/
lemma Project.retagScenes_eq {ss ts : List Scene} (h : retagScenes next ss = (ts, later)) :
    next ≤ later ∧ (∀ t ∈ ts, next ≤ t.tag ∧ t.tag < later) ∧ (ts.map (·.tag)).Nodup ∧
      ts.map Scene.content = ss.map Scene.content := by
  induction ss generalizing next ts with
  | nil =>
    obtain ⟨rfl, rfl⟩ := Prod.mk.inj h
    simp
  | cons s rest ih =>
    obtain ⟨⟨others, last⟩, hrest⟩ : ∃ r, retagScenes (s.retag next).2 rest = r := ⟨_, rfl⟩
    simp only [retagScenes, hrest] at h
    obtain ⟨rfl, rfl⟩ := Prod.mk.inj h
    obtain ⟨hle, htags, hnodup, hcontent⟩ := ih hrest
    have hfirst : (s.retag next).1.tag = next := rfl
    have hmore : next < (s.retag next).2 := by simp [Scene.retag]; omega
    refine ⟨by omega, ?_, ?_, ?_⟩
    · refine List.forall_mem_cons.mpr ⟨by omega, fun t ht => ?_⟩
      have := htags t ht
      omega
    · rw [List.map_cons, List.nodup_cons]
      refine ⟨fun hmem => ?_, hnodup⟩
      obtain ⟨t, ht, htag⟩ := List.mem_map.mp hmem
      have := htags t ht
      omega
    · rw [List.map_cons, List.map_cons, hcontent, s.content_retag]

lemma Scene.OneState.of_nodup {ts : List Scene} (h : (ts.map (·.tag)).Nodup) : OneState ts :=
  fun _ hs _ ht htag => List.inj_on_of_nodup_map h hs ht htag

/-- A project that gets tags gets new ones. -/
lemma Project.retag_eq (h : p.retag next = (q, later)) :
    q = { p with scenes := q.scenes, tag := next } ∧ next < later ∧ OneState q.scenes ∧
      (∀ s ∈ q.scenes, s.tag < later) ∧ q.content = p.content := by
  obtain ⟨⟨ts, last⟩, hts⟩ : ∃ r, retagScenes (next + 1) p.scenes = r := ⟨_, rfl⟩
  simp only [retag, hts] at h
  obtain ⟨rfl, rfl⟩ := Prod.mk.inj h
  obtain ⟨hle, htags, hnodup, hcontent⟩ := retagScenes_eq hts
  exact ⟨rfl, by omega, .of_nodup hnodup, fun s hs => (htags s hs).2, hcontent⟩

lemma Project.scenes_eq_nil_of_retag (h : p.retag next = (q, later)) :
    q.scenes = [] ↔ p.scenes = [] := by
  obtain ⟨-, -, -, -, hcontent⟩ := retag_eq h
  rw [← List.map_eq_nil_iff (f := Scene.content), ← List.map_eq_nil_iff (f := Scene.content)]
  exact iff_of_eq (congrArg (· = []) hcontent)

end Tags

section Ports

variable {s t : Scene}

lemma Scene.content_addPort (s : Scene) (p : Port) : (s.addPort p).content = s.content := by
  have hblocks : ∀ bs : List Block, (updateFirst (·.id.equals p.nodeId) (·.addPortId p.id) bs).map
      Block.visible = bs.map Block.visible := by
    intro bs
    induction bs with
    | nil => rfl
    | cons b rest ih =>
      rw [updateFirst]
      split_ifs
      · rw [List.map_cons, List.map_cons, Block.addPortId]
        split_ifs <;> rfl
      · rw [List.map_cons, List.map_cons, ih]
  simp only [content, addPort, hblocks]

/-- Ports that are made for a scene are not part of what it holds. -/
lemma Scene.ensurePort_eq {names : Nat → String} {blockId id : Value} {name : String}
    {side : Direction} {next later : Nat}
    (h : s.ensurePort names blockId name side next = (id, t, later)) :
    t.tag = s.tag ∧ t.content = s.content := by
  rw [ensurePort] at h
  split at h
  · obtain ⟨-, rfl, -⟩ : _ ∧ s = t ∧ _ := by simpa using h
    exact ⟨rfl, rfl⟩
  · obtain ⟨-, rfl, -⟩ : _ ∧ s.addPort
        { id := .text (names next), nodeId := blockId, name := .text name, direction := side } = t ∧
        _ := by simpa using h
    exact ⟨rfl, s.content_addPort _⟩

lemma Scene.completePorts_eq {names : Nat → String} {sockets : List (Value × String × Direction)}
    {next later : Nat} (h : s.completePorts names sockets next = (t, later)) :
    t.tag = s.tag ∧ t.content = s.content := by
  induction sockets generalizing s next with
  | nil =>
    obtain ⟨rfl, -⟩ := Prod.mk.inj h
    exact ⟨rfl, rfl⟩
  | cons x rest ih =>
    obtain ⟨blockId, name, side⟩ := x
    obtain ⟨⟨id, u, middle⟩, hu⟩ : ∃ r, s.ensurePort names blockId name side next = r := ⟨_, rfl⟩
    rw [completePorts, hu] at h
    obtain ⟨htag, hcontent⟩ := ensurePort_eq hu
    obtain ⟨htag', hcontent'⟩ := ih h
    exact ⟨htag'.trans htag, hcontent'.trans hcontent⟩

end Ports
end NovelGraph
