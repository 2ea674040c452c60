import NovelGraph.Proofs.EditorChanges
import NovelGraph.Proofs.FormWork

/-! What the window does when it is told something. The open project stays what it is, and after a
change there is something to save, whatever else fails. -/
namespace NovelGraph

open Scene (OneState)

namespace Editor

/-- The open project holds the same, and what was to be saved still is. -/
structure Minded (e e' : Editor) : Prop where
  ready : e'.Ready
  openTag : e'.openTag = e.openTag
  content : e'.content = e.content
  modified : e.window.modified = true → e'.window.modified = true

variable {e e' e'' : Editor} {p q : Project}

lemma Minded.trans (h : e.Minded e') (h' : e'.Minded e'') : e.Minded e'' where
  ready := h'.ready
  openTag := h'.openTag.trans h.openTag
  content := h'.content.trans h.content
  modified hm := h'.modified (h.modified hm)

lemma Ready.minded_of_kept (h : e.Ready) (hk : e.Kept e') : e.Minded e' where
  ready := h.kept hk
  openTag := by simp only [Editor.openTag, hk.session]
  content := hk.content_eq
  modified hm := hk.modified.trans hm

lemma steady_minded (e : Editor) : Steady e.Minded := fun _ _ h hk =>
  h.trans (h.ready.minded_of_kept hk)

lemma Ready.minded_of_presented (h : e.Ready) (hp : e.session.project = some p)
    (hq : e.Presented e' p q) : e.Minded e' where
  ready := h.presented hp hq
  openTag := by
    simp only [Editor.openTag, hq.session, hp, Option.map_some, hq.reworked.tag_eq]
  content := by
    simp only [Editor.content, hq.session, hp, Option.map_some, hq.content]
  modified hm := hq.modified.trans hm

end Editor

namespace Window

variable {e d : Editor}

/-- There is something to save. -/
lemma ends_markModified {fail : Editor → Prop} (h : e.Ready) :
    Ends markModified e (fun _ e' => e.Minded e' ∧ e'.window.modified = true) fail := by
  unfold markModified setModified
  rw [ends_bind, ends_get, if_pos h.isOpen, ends_modify]
  refine ⟨⟨⟨{ h.synced with }, h.isOpen, h.idle, fun _ => ?_⟩, rfl, rfl, fun _ => rfl⟩, rfl⟩
  simpa using h.isOpen

/-- The characters of a project are not among what counts here. -/
lemma ends_putCharacters {p : Project} {fail : Editor → Prop} (h : e.Ready)
    (hp : e.session.project = some p) (characters : Value) :
    Ends (Editor.putProject { p with characters }) e (fun _ => e.Minded) fail := by
  refine (h.synced.putRest (q := { p with characters }) hp rfl rfl).imp ?_
  rintro - e' ⟨hsynced, hsession, -, hloading, -, hwindow⟩
  have hopen : e'.session.project = some { p with characters } := by rw [hsession]
  refine ⟨⟨hsynced, by simp [hopen], hloading.trans h.idle, ?_⟩, ?_, ?_, ?_⟩
  · rw [hwindow]
    exact h.marked
  · simp only [Editor.openTag, hopen, hp, Option.map_some]
  · simp only [Editor.content, hopen, hp, Option.map_some]
    rfl
  · rw [hwindow]
    exact id

lemma ends_enterCharacter (h : e.Ready) (b : Block) :
    Ends (enterCharacter b) e (fun _ => e.Minded) e.Minded := by
  have hkept : ∀ d, e.Kept d → e.Minded d := fun _ => h.minded_of_kept
  unfold enterCharacter
  refine (aside_ofExcept _).step e.steady_kept (.refl e) hkept fun ps d hd => ?_
  rw [ends_bind, ends_get]
  split
  · exact hkept d hd
  case h_2 p hp =>
    split_ifs
    · refine (aside_ofExcept _).step d.steady_kept (.refl d) ?_ fun characters d' hd' => ?_
      · exact fun _ hd' => hkept _ (hd.trans hd')
      · have hd'' := hd.trans hd'
        exact (ends_putCharacters (h.kept hd'') (hd'.session ▸ hp) _).imp fun _ _ he =>
          (hkept d' hd'').trans he
    · exact hkept d hd

lemma ends_refreshBox (c : Canvas) (number : Nat) :
    Ends (Canvas.refreshBox number) c (fun _ => c.Passive) c.Passive := by
  have hask : ∀ {α β : Type} (x : Except Fault α) (next : α → CanvasM β) (d : Canvas), c.Passive d →
      (∀ a, Ends (next a) d (fun _ => c.Passive) c.Passive) →
      Ends (Canvas.ofExcept x >>= next) d (fun _ => c.Passive) c.Passive := by
    intro α β x next d hd hnext
    cases x with
    | ok a => exact hnext a
    | error f => exact hd
  unfold Canvas.refreshBox
  rw [ends_bind, ends_get]
  split
  · exact .of_eq rfl
  · split_ifs
    · exact .of_eq rfl
    · rw [ends_bind, ends_set]
      refine hask _ _ _ (.of_eq rfl) fun text => ?_
      rw [ends_bind, ends_set]
      exact hask _ _ _ (.of_eq rfl) fun content => .of_eq rfl

lemma ends_refreshShown (h : e.Minded d) (number : Nat) :
    Ends (Editor.onCanvas (Canvas.refreshBox number)) d (fun _ => e.Minded) e.Minded := by
  have hshown : ∀ c e', Canvas.Passive { d.canvas with desk := d.desk } c →
      Editor.Refreshed c.scenes { d with canvas := c, desk := c.desk } e' → e.Minded e' := by
    intro c e' hc he
    have hedited := h.ready.evolved hc.honest.toEvolves he
    have hquiet : ∀ t ∈ c.scenes, ∃ s ∈ d.canvas.scenes, t.tag = s.tag ∧ t.content = s.content :=
      fun t ht => ⟨t, hc.scenes_eq ▸ ht, rfl, rfl⟩
    exact h.trans ⟨hedited.ready, hedited.openTag, h.ready.content_evolved hquiet he,
      hedited.modified.trans⟩
  exact Editor.ends_onCanvas ((ends_refreshBox _ number).mono (fun _ _ hc _ he => hshown _ _ hc he)
    fun _ hc _ he => hshown _ _ hc he)

lemma ends_refreshNewest (h : e.Minded d) (boxes : List Box) :
    Ends (refreshNewest boxes) d (fun _ => e.Minded) e.Minded := by
  induction boxes generalizing d with
  | nil => exact h
  | cons b rest ih =>
    refine ends_tryCatch (ends_refreshShown h b.number) fun f d' hd' => ?_
    split
    · exact ih hd'
    · exact ih hd'
    · exact hd'

/-- Whatever happens when the parameters of a block have been saved, the project holds the same. -/
theorem ends_propertiesSaved (h : e.Ready) (b : Block) :
    Ends (propertiesSaved (some b)) e (fun _ => e.Minded) e.Minded := by
  have hrest : ∀ (_ : Unit) d, e.Minded d → Ends (do
      markModified
      let c := (← get).canvas
      if !c.loading && c.scene.any (fun s => (s.findBlock b.id).isSome) then
        refreshNewest (c.boxes.reverse.filter fun x => x.block.id.equals b.id)) d
      (fun _ => e.Minded) e.Minded := by
    intro _ d hd
    rw [ends_bind]
    refine (ends_markModified hd.ready).imp ?_
    rintro - d' ⟨hd', -⟩
    rw [ends_bind, ends_get]
    dsimp only
    split_ifs
    · exact ends_refreshNewest (hd.trans hd') _
    · exact hd.trans hd'
  unfold propertiesSaved
  dsimp only
  split_ifs
  · rw [ends_bind]
    exact (ends_enterCharacter h b).imp hrest
  · exact hrest () e (h.minded_of_kept (.refl e))

end Window

/-- What holds after some signals have been received: the open project is the same, there is
something to save if one of them marks a change, and nothing else has happened to that. -/
structure Editor.Heeded (signals : List Signal) (e e' : Editor) : Prop extends Minded e e' where
  marked : (∃ s ∈ signals, s.marks = true) → e'.window.modified = true
  unmarked : (∀ s ∈ signals, s.marks = false) →
    e'.window.modified = e.window.modified ∧ e'.window.canSave = e.window.canSave

lemma Editor.Heeded.append {xs ys : List Signal} {e d e' : Editor} (h : e.Heeded xs d)
    (h' : d.Heeded ys e') : e.Heeded (xs ++ ys) e' := by
  refine ⟨h.toMinded.trans h'.toMinded, ?_, fun hnone => ?_⟩
  · rintro ⟨s, hs, hmarks⟩
    rcases List.mem_append.mp hs with hs | hs
    · exact h'.modified (h.marked ⟨s, hs, hmarks⟩)
    · exact h'.marked ⟨s, hs, hmarks⟩
  · obtain ⟨hxs, hys⟩ := List.forall_mem_append.mp hnone
    obtain ⟨hmodified, hcanSave⟩ := h.unmarked hxs
    obtain ⟨hmodified', hcanSave'⟩ := h'.unmarked hys
    exact ⟨hmodified'.trans hmodified, hcanSave'.trans hcanSave⟩

namespace Window

variable {e d : Editor}

lemma ends_try {work : EditorM Unit} {P fail : Editor → Prop} (h : Ends work e (fun _ => P) P) :
    Ends (try work catch _ => pure ()) e (fun _ => P) fail :=
  ends_tryCatch h fun _ _ ht => ht

/-- A signal that marks a change. -/
lemma ends_marking {fail : Editor → Prop} (h : e.Ready) :
    Ends ([markModified, schedule].forM fun work => try work catch _ => pure ()) e
      (fun _ e' => e.Minded e' ∧ e'.window.modified = true) fail := by
  have hsteady : Editor.Steady fun e' => e.Minded e' ∧ e'.window.modified = true :=
    fun _ _ hd hk => ⟨e.steady_minded hd.1 hk, hk.modified.trans hd.2⟩
  rw [ends_forM_cons]
  refine (ends_try (ends_markModified h)).imp fun _ d hd => ?_
  rw [ends_forM_cons]
  refine (ends_try ((aside_schedule d).both fun _ hk => hsteady hd hk)).imp fun _ d hd => ?_
  exact hd

/-- Only the project that is shown may become another one. -/
lemma ends_unmarking {work : EditorM Unit} {s : Signal} {fail : Editor → Prop} (h : e.Ready)
    (hs : s.marks = false)
    (hwork : Ends work e
      (fun _ e' => e.Kept e' ∨ ∃ p q, e.session.project = some p ∧ e.Presented e' p q)
      fun e' => e.Kept e' ∨ ∃ p q, e.session.project = some p ∧ e.Presented e' p q) :
    Ends ([work].forM fun work => try work catch _ => pure ()) e (fun _ => e.Heeded [s]) fail := by
  rw [ends_forM_cons]
  refine (ends_try hwork).imp fun _ e' he => ?_
  have hnone : ¬∃ t ∈ [s], t.marks = true := by simp [hs]
  rcases he with hk | ⟨p, q, hp, hq⟩
  · exact ⟨h.minded_of_kept hk, fun hsome => absurd hsome hnone, fun _ => ⟨hk.modified, hk.canSave⟩⟩
  · exact ⟨h.minded_of_presented hp hq, fun hsome => absurd hsome hnone,
      fun _ => ⟨hq.modified, hq.canSave⟩⟩

theorem ends_receive {fail : Editor → Prop} (h : e.Ready) (s : Signal) :
    Ends (receive s) e (fun _ => e.Heeded [s]) fail := by
  have hmarking : ∀ {t : Signal} {e' : Editor}, t.marks = true →
      e.Minded e' ∧ e'.window.modified = true → e.Heeded [t] e' := by
    intro t e' ht he
    refine ⟨he.1, fun _ => he.2, fun hnone => ?_⟩
    rw [hnone t (List.mem_singleton_self t)] at ht
    cases ht
  cases s with
  | projectModified => exact (ends_marking h).imp fun _ _ => hmarking rfl
  | scenesModified => exact (ends_marking h).imp fun _ _ => hmarking rfl
  | propertiesSaved b =>
    rw [receive, responses, ends_forM_cons]
    refine (ends_try (ends_propertiesSaved h b)).imp fun _ d hd => ?_
    exact (ends_marking hd.ready).imp fun _ _ he => hmarking rfl ⟨hd.trans he.1, he.2⟩
  | selectionChanged b =>
    exact ends_unmarking h rfl ((Form.aside_setBlock b e).both fun _ => .inl)
  | sceneSelected s => exact ends_unmarking h rfl (ends_selectScene h s)
  | languageChanged v =>
    have hlanguage : Aside changeLanguage := (aside_atHost _).seq ((aside_phrase _ _).bind fun _ =>
      aside_change (fun _ => rfl) fun _ => rfl)
    exact ends_unmarking h rfl ((hlanguage e).both fun _ => .inl)

/-- Signals are received one after the other. -/
theorem ends_receiveAll {fail : Editor → Prop} (h : e.Ready) (signals : List Signal) :
    Ends (signals.forM receive) e (fun _ => e.Heeded signals) fail := by
  induction signals generalizing e with
  | nil =>
    exact ⟨h.minded_of_kept (.refl e), by simp, fun _ => ⟨rfl, rfl⟩⟩
  | cons s rest ih =>
    rw [ends_forM_cons]
    refine (ends_receive h s).imp fun _ d hd => ?_
    exact (ih hd.ready).imp fun _ _ he => hd.append he

end Window
end NovelGraph
