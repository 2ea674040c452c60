import NovelGraph.Proofs.CanvasChanges
import NovelGraph.Proofs.OpenAndSave

/-! What becomes of the open project when something is done in a panel, and whether that is told.
Work on the canvas, whose changes are shown everywhere, tells of them. -/
namespace NovelGraph

open Scene (OneState newest)

namespace Editor

/-- What the open project holds. -/
def content (e : Editor) : Option (List (Value × List Block × List Connection)) :=
  e.session.project.map Project.content

/-- Which project is open. -/
def openTag (e : Editor) : Option Nat := e.session.project.map (·.tag)

/-- The same project is open, and whether there is something to save has not been looked at. -/
structure Edited (e e' : Editor) : Prop where
  ready : e'.Ready
  openTag : e'.openTag = e.openTag
  log : e.desk.log <+: e'.desk.log
  modified : e'.window.modified = e.window.modified
  canSave : e'.window.canSave = e.window.canSave

/-- Besides, it holds the same, or a change was told. -/
structure Honest (e e' : Editor) : Prop extends Edited e e' where
  told : e'.content = e.content ∨ e.desk.Loud e'.desk

/-- Besides, nothing was told of a change. -/
structure Hushed (e e' : Editor) : Prop extends Edited e e' where
  silent : e.desk.Silent e'.desk

section Relations

variable {e e' e'' : Editor}

lemma Edited.trans (h : e.Edited e') (h' : e'.Edited e'') : e.Edited e'' where
  ready := h'.ready
  openTag := h'.openTag.trans h.openTag
  log := h.log.trans h'.log
  modified := h'.modified.trans h.modified
  canSave := h'.canSave.trans h.canSave

lemma Honest.trans (h : e.Honest e') (h' : e'.Honest e'') : e.Honest e'' := by
  refine ⟨h.toEdited.trans h'.toEdited, ?_⟩
  rcases h.told with hsame | hloud
  · exact h'.told.imp (·.trans hsame) (.of_earlier h.log)
  · exact .inr (hloud.trans_prefix h'.log)

lemma Hushed.trans (h : e.Hushed e') (h' : e'.Hushed e'') : e.Hushed e'' :=
  ⟨h.toEdited.trans h'.toEdited, h.silent.trans h'.silent⟩

lemma Kept.content_eq (h : e.Kept e') : e'.content = e.content := by
  simp only [content, h.session]

lemma Ready.edited_of_kept (h : e.Ready) (hk : e.Kept e') : e.Edited e' where
  ready := h.kept hk
  openTag := by simp only [openTag, hk.session]
  log := hk.silent.log
  modified := hk.modified
  canSave := hk.canSave

lemma Ready.honest_of_kept (h : e.Ready) (hk : e.Kept e') : e.Honest e' :=
  ⟨h.edited_of_kept hk, .inl hk.content_eq⟩

lemma Ready.hushed_of_kept (h : e.Ready) (hk : e.Kept e') : e.Hushed e' :=
  ⟨h.edited_of_kept hk, hk.silent⟩

lemma steady_edited (e : Editor) : Steady e.Edited := fun _ _ h hk =>
  h.trans (h.ready.edited_of_kept hk)

lemma steady_honest (e : Editor) : Steady e.Honest := fun _ _ h hk =>
  h.trans (h.ready.honest_of_kept hk)

lemma steady_hushed (e : Editor) : Steady e.Hushed := fun _ _ h hk =>
  h.trans (h.ready.hushed_of_kept hk)

/-- What is changed and then told. -/
lemma Edited.told {s : Signal} (h : e.Edited e') (hs : s.marks = true) :
    e.Honest { e' with desk := { e'.desk with log := e'.desk.log ++ [.signal s] } } := by
  have hsend := Desk.loud_send hs e'.desk
  have hready : Ready { e' with desk := { e'.desk with log := e'.desk.log ++ [.signal s] } } :=
    { h.ready with synced := { h.ready.synced with } }
  exact ⟨⟨hready, h.openTag, h.log.trans hsend.log, h.modified, h.canSave⟩,
    .inr (.of_earlier h.log hsend)⟩

section Turning

variable {p q : Project} {directory : Option Path}

lemma Ready.openTag_ne_nextTag (h : e.Ready) : e.openTag ≠ some e.desk.nextTag := by
  obtain ⟨p, hp⟩ := Option.isSome_iff_exists.mp h.isOpen
  have hlow := h.synced.projectTags p (mem_projects_of_open hp)
  simp only [Editor.openTag, hp, Option.map_some, ne_eq, Option.some.injEq]
  exact Nat.ne_of_lt hlow

/-- A project that is opened is another one. -/
lemma Turned.openTag_ne (ht : e.Turned e' p q directory) (h : e.Ready) :
    e'.openTag ≠ e.openTag := by
  obtain ⟨⟨r, later⟩, hr⟩ : ∃ x, p.retag e.desk.nextTag = x := ⟨_, rfl⟩
  have htag : q.tag = e.desk.nextTag := by
    rw [ht.reworked.tag_eq, hr, (Project.retag_eq hr).1]
  simp only [Editor.openTag, ht.session, Option.map_some, htag]
  exact h.openTag_ne_nextTag.symm

end Turning
end Relations

section OnCanvas

variable {e e' : Editor} {d : Canvas}

/-- New states of scenes on the canvas are shown everywhere. -/
lemma Ready.evolved (h : e.Ready) (hd : Canvas.Evolves { e.canvas with desk := e.desk } d)
    (he : Refreshed d.scenes { e with canvas := d, desk := d.desk } e') : e.Edited e' := by
  obtain ⟨f, hf, hstates⟩ := hd.states
  have hsub : e.canvas.scenes ⊆ e.scenes := List.subset_append_right _ _
  have hone : OneState d.scenes := by
    intro t ht u hu htag
    obtain ⟨s, hs, rfl⟩ := hstates t ht
    obtain ⟨r, hr, rfl⟩ := hstates u hu
    rw [h.synced.scenes s (hsub hs) r (hsub hr) ((hf s).symm.trans (htag.trans (hf r)))]
  have htags : ∀ t ∈ d.scenes, t.tag < d.desk.nextTag := by
    intro t ht
    obtain ⟨s, hs, rfl⟩ := hstates t ht
    exact hf s ▸ Nat.lt_of_lt_of_le (h.synced.sceneTags s (hsub hs)) hd.nextTag
  have hsynced := h.synced.onCanvas hone hd.project htags hd.nextTag he
  refine ⟨⟨hsynced, ?_, ?_, ?_⟩, ?_, ?_, ?_, ?_⟩
  · rw [he.session, Option.isSome_map]
    exact h.isOpen
  · rw [he.loading]
    exact hd.loading.trans h.idle
  · rw [he.window]
    exact h.marked
  · simp only [openTag, he.session, Option.map_map]
    rfl
  · rw [he.desk]
    exact hd.log
  · rw [he.window]
  · rw [he.window]

/-- The open project holds the same if the scenes on the canvas do. -/
lemma Ready.content_evolved (h : e.Ready)
    (hquiet : ∀ t ∈ d.scenes, ∃ s ∈ e.canvas.scenes, t.tag = s.tag ∧ t.content = s.content)
    (he : Refreshed d.scenes { e with canvas := d, desk := d.desk } e') :
    e'.content = e.content := by
  simp only [content, he.session, Option.map_map]
  refine Option.map_congr fun p hp => ?_
  simp only [Function.comp_apply, Project.content, Project.renew, List.map_map]
  refine List.map_congr_left fun s hs => ?_
  have hmem : s ∈ e.scenes := scenes_subset (mem_projects_of_open hp) hs
  rcases Scene.newest_cases d.scenes s with hnew | ⟨hold, -⟩
  · obtain ⟨r, hr, htag, hcontent⟩ := hquiet _ hnew
    have hsame : r = s := h.synced.scenes r (List.mem_append_right _ hr) s hmem
      (htag.symm.trans (Scene.newest_tag d.scenes s))
    exact hcontent.trans (congrArg Scene.content hsame)
  · exact congrArg Scene.content hold

lemma Ready.evolved_honest (h : e.Ready) (hd : Canvas.Honest { e.canvas with desk := e.desk } d)
    (he : Refreshed d.scenes { e with canvas := d, desk := d.desk } e') : e.Honest e' := by
  refine ⟨h.evolved hd.toEvolves he, hd.told.imp (fun hquiet => ?_) fun hloud => ?_⟩
  · exact h.content_evolved hquiet he
  · rw [he.desk]
    exact hloud

end OnCanvas
end Editor

section OnCanvas

variable {α : Type} {work : CanvasM α} {e : Editor}

theorem Canvas.Candid.onCanvas (hwork : Candid work) (h : e.Ready) :
    Ends (Editor.onCanvas work) e (fun _ => e.Honest) e.Honest :=
  Editor.ends_onCanvas ((hwork _).mono (fun _ _ hd _ he => h.evolved_honest hd he)
    fun _ hd _ he => h.evolved_honest hd he)

theorem Canvas.Fair.onCanvas (hwork : Fair work) (h : e.Ready) :
    Ends (Editor.onCanvas work) e (fun _ => e.Honest) e.Edited :=
  Editor.ends_onCanvas ((hwork _).mono (fun _ _ hd _ he => h.evolved_honest hd he)
    fun _ hd _ he => h.evolved hd he)

end OnCanvas
end NovelGraph
