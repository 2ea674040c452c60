import NovelGraph.Proofs.EditorCopies
import NovelGraph.Proofs.SideWork

/-! What work on the canvas does to the scenes that it holds. They only get new states, and whenever
blocks or connections change that is told. Only a removal that fails half way tells nothing. -/
namespace NovelGraph

open Scene (OneState)

/-- The second desk has noticed a change that the first has not. -/
def Desk.Loud (d d' : Desk) : Prop := ∃ more, d.log ++ more = d'.log ∧ ∃ n ∈ more, n.marks = true

namespace Desk

variable {d d' d'' : Desk}

lemma Silent.log (h : d.Silent d') : d.log <+: d'.log := by
  obtain ⟨more, hlog, -⟩ := h
  exact ⟨more, hlog.symm⟩

lemma Loud.log (h : d.Loud d') : d.log <+: d'.log := by
  obtain ⟨more, hlog, -⟩ := h
  exact ⟨more, hlog⟩

lemma Loud.trans_prefix (h : d.Loud d') (h' : d'.log <+: d''.log) : d.Loud d'' := by
  obtain ⟨more, hlog, n, hn, hmarks⟩ := h
  obtain ⟨rest, hrest⟩ := h'
  refine ⟨more ++ rest, ?_, n, List.mem_append_left rest hn, hmarks⟩
  rw [← List.append_assoc, hlog, hrest]

lemma Loud.of_earlier (h : d.log <+: d'.log) (h' : d'.Loud d'') : d.Loud d'' := by
  obtain ⟨rest, hrest⟩ := h
  obtain ⟨more, hlog, n, hn, hmarks⟩ := h'
  refine ⟨rest ++ more, ?_, n, List.mem_append_right rest hn, hmarks⟩
  rw [← List.append_assoc, hrest, hlog]

lemma loud_send {s : Signal} (h : s.marks = true) (d : Desk) :
    d.Loud { d with log := d.log ++ [.signal s] } :=
  ⟨[.signal s], rfl, .signal s, List.mem_singleton_self _, h⟩

end Desk

lemma Project.Reworked.trans {p q r : Project} (h : p.Reworked q) (h' : q.Reworked r) :
    p.Reworked r := by
  refine ⟨?_, ?_⟩
  · rw [h'.rest, h.rest]
  · exact Outcome.forall₂_comp (fun _ _ _ hst htu => hst.trans htu) h.tags h'.tags

namespace Canvas

/-- The second canvas holds new states of the scenes of the first. -/
structure Evolves (c d : Canvas) : Prop where
  project : ∀ q ∈ d.project, ∃ p ∈ c.project, p.Reworked q
  states : ∃ f : Scene → Scene, (∀ s, (f s).tag = s.tag) ∧ ∀ t ∈ d.scenes, ∃ s ∈ c.scenes, f s = t
  nextTag : c.desk.nextTag ≤ d.desk.nextTag
  loading : d.loading = c.loading
  log : c.desk.log <+: d.desk.log

/-- Besides, what the scenes hold is the same, or a change was told. -/
structure Honest (c d : Canvas) : Prop extends Evolves c d where
  told : (∀ t ∈ d.scenes, ∃ s ∈ c.scenes, t.tag = s.tag ∧ t.content = s.content) ∨
    c.desk.Loud d.desk

/-- The scenes are the same. -/
structure Passive (c d : Canvas) : Prop where
  project : d.project = c.project
  scene : d.scene = c.scene
  nextTag : c.desk.nextTag ≤ d.desk.nextTag
  loading : d.loading = c.loading
  log : c.desk.log <+: d.desk.log

section Relations

variable {c d d' : Canvas} {s t : Scene}

lemma Passive.of_eq (h : (d.project, d.scene, d.loading, d.desk.nextTag, d.desk.log) =
    (c.project, c.scene, c.loading, c.desk.nextTag, c.desk.log)) : c.Passive d := by
  simp only [Prod.mk.injEq] at h
  obtain ⟨hproject, hscene, hloading, htag, hlog⟩ := h
  exact ⟨hproject, hscene, Nat.le_of_eq htag.symm, hloading, hlog ▸ List.prefix_rfl⟩

lemma Passive.scenes_eq (h : c.Passive d) : d.scenes = c.scenes := by
  simp only [scenes, h.project, h.scene]

lemma Passive.honest (h : c.Passive d) : c.Honest d where
  project q hq := ⟨q, h.project ▸ hq, .refl q⟩
  states := ⟨id, fun _ => rfl, fun t ht => ⟨t, h.scenes_eq ▸ ht, rfl⟩⟩
  nextTag := h.nextTag
  loading := h.loading
  log := h.log
  told := .inl fun t ht => ⟨t, h.scenes_eq ▸ ht, rfl, rfl⟩

lemma Passive.trans (h : c.Passive d) (h' : d.Passive d') : c.Passive d' where
  project := h'.project.trans h.project
  scene := h'.scene.trans h.scene
  nextTag := Nat.le_trans h.nextTag h'.nextTag
  loading := h'.loading.trans h.loading
  log := h.log.trans h'.log

lemma Evolves.trans (h : c.Evolves d) (h' : d.Evolves d') : c.Evolves d' := by
  obtain ⟨f, hf, hstates⟩ := h.states
  obtain ⟨g, hg, hstates'⟩ := h'.states
  refine ⟨fun r hr => ?_, ⟨g ∘ f, fun s => (hg _).trans (hf s), fun u hu => ?_⟩,
    Nat.le_trans h.nextTag h'.nextTag, h'.loading.trans h.loading, h.log.trans h'.log⟩
  · obtain ⟨q, hq, hqr⟩ := h'.project r hr
    obtain ⟨p, hp, hpq⟩ := h.project q hq
    exact ⟨p, hp, hpq.trans hqr⟩
  · obtain ⟨t, ht, rfl⟩ := hstates' u hu
    obtain ⟨s, hs, rfl⟩ := hstates t ht
    exact ⟨s, hs, rfl⟩

lemma Honest.trans (h : c.Honest d) (h' : d.Honest d') : c.Honest d' := by
  refine ⟨h.toEvolves.trans h'.toEvolves, ?_⟩
  rcases h.told with hquiet | hloud
  · rcases h'.told with hquiet' | hloud'
    · refine .inl fun u hu => ?_
      obtain ⟨t, ht, htag, hcontent⟩ := hquiet' u hu
      obtain ⟨s, hs, htag', hcontent'⟩ := hquiet t ht
      exact ⟨s, hs, htag.trans htag', hcontent.trans hcontent'⟩
    · exact .inr (.of_earlier h.log hloud')
  · exact .inr (hloud.trans_prefix h'.log)

/-- A new state of one scene. -/
lemma scenes_putScene (c : Canvas) (t : Scene) :
    (c.putScene t).scenes = c.scenes.map fun s => if s.tag = t.tag then t else s := by
  simp only [scenes, putScene]
  cases c.project <;> cases c.scene <;> simp [Project.putScene]

lemma evolves_putScene (c : Canvas) (t : Scene) : c.Evolves (c.putScene t) where
  project q hq := by
    obtain ⟨p, hp, rfl⟩ := Option.map_eq_some_iff.mp hq
    exact ⟨p, hp, p.reworked_putScene t⟩
  states := by
    refine ⟨fun s => if s.tag = t.tag then t else s, (·.tag_replaced t), fun u hu => ?_⟩
    rw [scenes_putScene] at hu
    exact List.mem_map.mp hu
  nextTag := Nat.le_refl _
  loading := rfl
  log := List.prefix_rfl

/-- The scene whose new state it is is shown from then on. -/
lemma evolves_showScene (hs : s ∈ c.scenes) (htag : t.tag = s.tag) :
    c.Evolves { c.putScene t with scene := some t } := by
  have hput := c.evolves_putScene t
  obtain ⟨f, hf, hstates⟩ := hput.states
  refine ⟨hput.project, ⟨f, hf, fun u hu => hstates u ?_⟩, hput.nextTag, hput.loading, hput.log⟩
  have hmem : t ∈ (c.putScene t).scenes := by
    rw [scenes_putScene]
    exact List.mem_map.mpr ⟨s, hs, if_pos htag.symm⟩
  simp only [scenes, List.mem_append, Option.toList_some, List.mem_singleton] at hu hmem ⊢
  rcases hu with hu | rfl
  · exact .inl hu
  · exact hmem

lemma model?_mem (h : c.model? = some s) : s ∈ c.scenes := by
  obtain ⟨t, ht, rfl⟩ := Option.map_eq_some_iff.mp h
  simp only [scenes, ht, Option.toList_some, List.mem_append, List.mem_singleton]
  cases hp : c.project with
  | none => exact .inr rfl
  | some p =>
    cases hfind : p.findScene t.id with
    | none => simp [hfind]
    | some u => simpa [hfind] using Or.inl (List.mem_of_find?_eq_some hfind)

end Relations

/-- Work that tells of every change, also where it fails. -/
def Candid {α : Type} (work : CanvasM α) : Prop := ∀ c, Ends work c (fun _ d => c.Honest d) c.Honest

/-- Work that tells of every change unless it fails. -/
def Fair {α : Type} (work : CanvasM α) : Prop := ∀ c, Ends work c (fun _ d => c.Honest d) c.Evolves

section Rules

variable {α β : Type} {work : CanvasM α} {next : α → CanvasM β} {c d : Canvas} {s t : Scene}

lemma Honest.refl (c : Canvas) : c.Honest c := Passive.honest (.of_eq rfl)

lemma Candid.fair (h : Candid work) : Fair work :=
  fun c => (h c).mono (fun _ _ hd => hd) fun _ hd => hd.toEvolves

lemma candid_pure (a : α) : Candid (pure a : CanvasM α) := fun c => .refl c

lemma candid_modify {f : Canvas → Canvas} (h : ∀ c : Canvas, c.Passive (f c)) :
    Candid (modify f : CanvasM PUnit) :=
  fun c => (h c).honest

lemma candid_atDesk {work : StateM Desk α} (htag : ∀ d : Desk, d.nextTag ≤ (work d).2.nextTag)
    (hlog : ∀ d : Desk, d.log <+: (work d).2.log) : Candid (atDesk work) :=
  fun c => Passive.honest ⟨rfl, rfl, htag c.desk, rfl, hlog c.desk⟩

lemma candid_note (n : Notice) : Candid (atDesk (Desk.note n)) :=
  candid_atDesk (fun _ => Nat.le_refl _) fun _ => List.prefix_append _ _

lemma candid_send (s : Signal) : Candid (send s) := candid_note (.signal s)

lemma Candid.bind (h : Candid work) (h' : ∀ a, Candid (next a)) : Candid (work >>= next) := by
  intro c
  rw [ends_bind]
  exact (h c).imp fun a d hd => (h' a d).both fun _ hd' => hd.trans hd'

lemma Fair.bind (h : Fair work) (h' : ∀ a, Fair (next a)) : Fair (work >>= next) := by
  intro c
  rw [ends_bind]
  refine (h c).imp fun a d hd => (h' a d).mono (fun _ d' hd' => ?_) fun d' hd' => ?_
  · exact hd.trans hd'
  · exact hd.toEvolves.trans hd'

lemma fair_forM {items : List α} {f : α → CanvasM PUnit} (h : ∀ a, Fair (f a)) :
    Fair (items.forM f) := by
  induction items with
  | nil => exact (candid_pure _).fair
  | cons a rest ih => exact (h a).bind fun _ => ih

/-- What is changed and then told. -/
lemma Evolves.told {s : Signal} (h : c.Evolves d) (hs : s.marks = true) :
    c.Honest { d with desk := { d.desk with log := d.desk.log ++ [.signal s] } } := by
  have hsend := Desk.loud_send hs d.desk
  have hnoted : d.Honest { d with desk := { d.desk with log := d.desk.log ++ [.signal s] } } :=
    Passive.honest ⟨rfl, rfl, Nat.le_refl _, rfl, hsend.log⟩
  exact ⟨h.trans hnoted.toEvolves, .inr (.of_earlier h.log hsend)⟩

end Rules

section Drawing

variable {c d : Canvas} {s t : Scene}

lemma passive_dropWire (c : Canvas) (w : Wire Plug) : c.Passive (c.dropWire w) := by
  unfold dropWire
  cases w.source <;> cases w.target <;> exact .of_eq rfl

lemma passive_attach (c : Canvas) (p : Plug) (n : Nat) : c.Passive (c.attach p n) := by
  unfold attach
  split_ifs <;> exact .of_eq rfl

lemma passive_addWire {id : Value} {source : Plug} {target : Option Plug} {w : Wire Plug}
    (h : c.addWire id source target = .ok (d, w)) : c.Passive d := by
  obtain ⟨v, -, hv⟩ := Outcome.bind_eq_ok.mp h
  obtain ⟨rfl, -⟩ := Prod.mk.inj (Except.ok.inj hv)
  exact .of_eq rfl

lemma candid_showWire (drawing : Wire Plug × Option Fault) : Candid (showWire drawing) :=
  fun _ => ends_showWire (Passive.honest (.of_eq rfl)) (Passive.honest (.of_eq rfl))

lemma candid_passOn : Candid passOn := (candid_note _).bind fun _ => candid_pure _

theorem candid_press (items : List Item) (at_ : Point) (left control : Bool) :
    Candid (press items at_ left control) := by
  intro c
  unfold press
  dsimp only
  split
  case h_1 =>
    rw [ends_bind, ends_get]
    split
    · exact Passive.honest (.of_eq rfl)
    case h_2 d w hwire =>
      rw [ends_bind, ends_set]
      refine (((candid_showWire _).bind fun _ => candid_pure _) _).both fun _ h => ?_
      exact .trans (Passive.honest (.trans (passive_addWire hwire) (.of_eq (by rfl)))) h
  case h_2 =>
    rw [ends_bind, ends_get]
    split_ifs
    all_goals exact Passive.honest (.of_eq rfl)
  case h_3 => exact candid_passOn c

theorem candid_move (at_ : Point) : Candid (move at_) := by
  intro c
  unfold move
  rw [ends_bind, ends_get]
  split
  · exact ((candid_showWire _).bind fun _ => candid_pure _) c
  · exact candid_passOn c

theorem candid_announceSelection : Candid announceSelection := by
  intro c
  unfold announceSelection
  rw [ends_bind, ends_get]
  split_ifs
  · exact candid_send _ c
  · exact .refl c

lemma candid_select (items : List Item) : Candid (modify (·.select items)) :=
  candid_modify fun _ => .of_eq rfl

end Drawing

section Blocks

variable {c d : Canvas} {b : Block}

/-- There is always a text for a new block. -/
lemma exists_fresh_preview (h : b.params = .object []) :
    ∃ text, Node.preview b = .ok (.text text) := by
  unfold Node.preview
  rw [h]
  cases b.kind <;> exact ⟨_, rfl⟩

lemma exists_fresh_box (h : b.params = .object []) (c : Canvas) : ∃ d, c.addBox b = .ok d := by
  obtain ⟨text, htext⟩ := exists_fresh_preview h
  have hfitted : ∃ shown, Node.fitted (.text text) c.textHeight = .ok shown := by
    unfold Node.fitted
    split_ifs
    · simp only [Value.size, Value.head, bind, Except.bind, pure, Except.pure]
      split_ifs
      · exact ⟨_, rfl⟩
      · exact ⟨_, rfl⟩
    · exact ⟨_, rfl⟩
  obtain ⟨shown, hshown⟩ := hfitted
  unfold addBox Node.content
  rw [htext]
  simp only [bind, Except.bind, hshown]
  exact ⟨_, rfl⟩

lemma passive_addBox (h : c.addBox b = .ok d) : c.Passive d := by
  obtain ⟨content, -, hd⟩ := Outcome.bind_eq_ok.mp h
  obtain rfl := Except.ok.inj hd
  exact .of_eq rfl

theorem candid_dropBlock (format data : String) (x y : Value) :
    Candid (dropBlock format data x y) := by
  intro c
  unfold dropBlock
  rw [ends_bind, ends_get]
  split
  case h_1 s kind _ _ =>
    split_ifs
    · exact .refl c
    simp only [ends_bind, ends_atDesk, ends_modify, ends_get]
    set block : Block := { id := _, kind, x, y, tag := _ }
    set d : Canvas := { c with desk := _ }
    have hd : c.Passive d := ⟨rfl, rfl, Nat.le_succ _, rfl, List.prefix_rfl⟩
    obtain ⟨d', hbox⟩ := exists_fresh_box (b := block) rfl (d.putScene (s.addBlock block))
    have hchanged : c.Evolves d' :=
      hd.honest.toEvolves.trans
        ((d.evolves_putScene _).trans (passive_addBox hbox).honest.toEvolves)
    rw [hbox]
    exact hchanged.told rfl
  case h_2 => exact .refl c

lemma evolves_putBlock (c : Canvas) (b : Block) : c.Evolves (c.putBlock b) where
  project q hq := by
    obtain ⟨p, hp, rfl⟩ := Option.map_eq_some_iff.mp hq
    exact ⟨p, hp, p.reworked_map (f := (·.putBlock b)) fun _ => rfl⟩
  states := by
    refine ⟨(·.putBlock b), fun _ => rfl, fun t ht => ?_⟩
    have hscenes : (c.putBlock b).scenes = c.scenes.map (·.putBlock b) := by
      simp only [scenes, putBlock]
      cases c.project <;> cases c.scene <;> simp [Project.putBlock]
    rw [hscenes] at ht
    exact List.mem_map.mp ht
  nextTag := Nat.le_refl _
  loading := rfl
  log := List.prefix_rfl

lemma passive_redrawWires (wires : List Nat) (c : Canvas) : c.Passive (redrawWires wires c).1 := by
  induction wires generalizing c with
  | nil => exact .of_eq rfl
  | cons n rest ih =>
    unfold redrawWires
    split
    · exact ih c
    · split
      · exact .trans (d := c.setWire _) (.of_eq rfl) (ih _)
      · exact .of_eq rfl

lemma passive_redrawBox (b : Box) (c : Canvas) : c.Passive (redrawBox b c).1 := by
  unfold redrawBox
  refine List.foldlRecOn (motive := fun r : Canvas × Bool => c.Passive r.1) _ _ (.of_eq rfl) ?_
  exact fun r hr p _ => hr.trans (passive_redrawWires _ _)

theorem candid_moveBox (number : Nat) (x y : Value) : Candid (moveBox number x y) := by
  intro c
  unfold moveBox
  rw [ends_bind, ends_get]
  split
  · exact .refl c
  case h_2 b _ =>
    rw [ends_bind, ends_set]
    have hset : c.Passive (c.setBox { b with x, y }) := .of_eq rfl
    split_ifs
    · have hdrawn := hset.trans (passive_redrawBox { b with x, y } _)
      rw [ends_bind, ends_set]
      split_ifs
      · exact (hdrawn.honest.toEvolves.trans (evolves_putBlock _ _)).told rfl
      · exact hdrawn.honest
    · exact hset.honest

end Blocks

section Connecting

variable {c d : Canvas}

/-- A port that is made does not count as a change. -/
lemma candid_portId (block : Option Value) (name : String) (isOutput : Bool) :
    Candid (portId block name isOutput) := by
  intro c
  unfold portId
  rw [ends_bind, ends_get]
  split
  case h_1 s blockId hs =>
    obtain ⟨⟨id, t, later⟩, ht⟩ : ∃ r, s.ensurePort c.desk.names blockId name (.ofSide isOutput)
      c.desk.nextId = r := ⟨_, rfl⟩
    obtain ⟨htag, hcontent⟩ := Scene.ensurePort_eq ht
    simp only [ht]
    split_ifs
    · have hmem := model?_mem hs
      have hshown := evolves_showScene hmem htag
      have hmade : c.Honest { c.putScene t with scene := some t } := by
        refine ⟨hshown, .inl fun u hu => ?_⟩
        have hold : u = t ∨ u ∈ c.scenes := by
          simp only [scenes, putScene, Option.toList_some, List.mem_append,
            List.mem_singleton] at hu ⊢
          rcases hu with hu | rfl
          · cases hp : c.project with
            | none => simp [hp] at hu
            | some p =>
              rw [hp] at hu
              obtain ⟨v, hv, rfl⟩ := List.mem_map.mp hu
              split_ifs
              · exact .inl rfl
              · exact .inr (.inl hv)
          · exact .inl rfl
        rcases hold with rfl | hu
        · exact ⟨s, hmem, htag, hcontent⟩
        · exact ⟨u, hu, rfl, rfl⟩
      exact hmade.trans (Passive.honest (.of_eq (by rfl)))
    · exact .refl c
  case h_2 => exact Passive.honest (.of_eq rfl)

lemma candid_plugDraft (number : Nat) (source target : Plug) :
    Candid (plugDraft number source target) := by
  intro c
  unfold plugDraft
  rw [ends_bind, ends_get]
  split
  · exact .refl c
  · refine ((candid_showWire _).bind fun _ => candid_modify fun d => ?_) c
    exact (passive_attach d source number).trans (passive_attach _ target number)

lemma candid_connectDraft (number : Nat) (source target : Plug) :
    Candid (connectDraft number source target) := by
  intro c
  unfold connectDraft
  rw [ends_bind, ends_get]
  dsimp only
  split_ifs
  · exact .refl c
  refine ((candid_portId _ _ _).bind fun fromPort => (candid_portId _ _ _).bind fun toPort => ?_) c
  split_ifs
  · exact candid_pure false
  intro d
  rw [ends_bind, ends_atDesk, ends_bind, ends_get]
  set d' : Canvas := { d with desk := _ }
  have hd' : d.Passive d' := .of_eq rfl
  split
  · exact hd'.honest
  case h_2 s hs =>
    have hjoined := evolves_showScene
      (t := s.addConnection { id := (Desk.freshId d.desk).1, fromPort, toPort }) (model?_mem hs) rfl
    refine Evolves.told (s := .projectModified) ?_ rfl
    exact (hd'.honest.toEvolves.trans hjoined).trans (Passive.honest (.of_eq (by rfl))).toEvolves

theorem candid_release (items : List Item) : Candid (release items) := by
  intro c
  unfold release
  rw [ends_bind, ends_get]
  have hend : Candid (do
      modify ({ · with draft := none })
      pure Outcome.accepted) :=
    (candid_modify fun _ => .of_eq (by rfl)).bind fun _ => candid_pure _
  split
  · exact candid_passOn c
  case h_2 number source _ =>
    have hdrop : Candid (modify (·.removeWire number) : CanvasM PUnit) :=
      candid_modify fun _ => .of_eq rfl
    dsimp only
    split
    · exact (hdrop.bind fun _ => hend) c
    case h_2 target _ =>
      have hplug : ∀ connected : Bool, Candid (do
          if connected then plugDraft number source target else modify (·.removeWire number)
          modify ({ · with draft := none })
          pure Outcome.accepted) := by
        intro connected
        split_ifs
        · exact (candid_plugDraft number source target).bind fun _ => hend
        · exact hdrop.bind fun _ => hend
      split_ifs
      · exact ((candid_connectDraft number source target).bind hplug) c
      · exact hplug true c

end Connecting

section Deleting

variable {α : Type} {c d d' : Canvas}

theorem candid_deleteWire (number : Nat) : Candid (deleteWire number) := by
  intro c
  unfold deleteWire
  rw [ends_bind, ends_get]
  split
  case h_1 s w hs _ =>
    split_ifs
    · have hcut := evolves_showScene (t := s.removeConnection w.id) (model?_mem hs) rfl
      exact (hcut.told rfl).trans (passive_dropWire _ w).honest
    · exact .refl c
  case h_2 => exact .refl c

lemma evolves_cutWire (c : Canvas) (number : Nat) : c.Evolves (c.cutWire number) := by
  unfold cutWire
  split
  · exact (Honest.refl c).toEvolves
  case h_2 w _ =>
    dsimp only
    split
    case h_1 s _ =>
      split_ifs
      · exact (c.evolves_putScene _).trans (passive_dropWire _ w).honest.toEvolves
      · exact (passive_dropWire _ w).honest.toEvolves
    case h_2 => exact (passive_dropWire _ w).honest.toEvolves

/-- Nothing is cut if no scene is shown. -/
lemma passive_cutWire (number : Nat) (h : (c.cutWire number).scene = none) :
    c.Passive (c.cutWire number) := by
  unfold cutWire at h ⊢
  split at h
  · exact .of_eq rfl
  case h_2 w _ =>
    dsimp only at h ⊢
    rw [(passive_dropWire _ w).scene] at h
    split at h
    case h_1 s hs =>
      split_ifs at h ⊢
      · simp [putScene, model?] at h hs
        simp [h] at hs
      · exact passive_dropWire c w
    case h_2 => exact passive_dropWire c w

/-- The scenes get new states only while one of them is shown. -/
structure Trimmed (c d : Canvas) : Prop extends Evolves c d where
  blank : d.scene = none → c.Passive d

lemma Trimmed.trans (h : c.Trimmed d) (h' : d.Trimmed d') : c.Trimmed d' := by
  refine ⟨h.toEvolves.trans h'.toEvolves, fun hnone => ?_⟩
  have hpassive := h'.blank hnone
  exact (h.blank (hpassive.scene.symm.trans hnone)).trans hpassive

lemma trimmed_foldl {f : Canvas → α → Canvas} (hf : ∀ c a, Trimmed c (f c a)) (items : List α)
    (c : Canvas) : c.Trimmed (items.foldl f c) := by
  induction items generalizing c with
  | nil => exact ⟨(Honest.refl c).toEvolves, fun _ => .of_eq rfl⟩
  | cons a rest ih => exact (hf c a).trans (ih (f c a))

/-- A box loses its wires, plug by plug. -/
lemma trimmed_unplug (plugs : List Plug) (c : Canvas) :
    c.Trimmed (plugs.foldl (fun c p => (c.attached p).foldl cutWire c) c) :=
  trimmed_foldl (fun c p => trimmed_foldl
    (fun c n => ⟨evolves_cutWire c n, passive_cutWire n⟩) (c.attached p) c) plugs c

theorem fair_deleteBox (number : Nat) : Fair (deleteBox number) := by
  intro c
  unfold deleteBox
  rw [ends_bind, ends_get]
  split
  · exact .refl c
  case h_2 b _ =>
    have hcut := trimmed_unplug b.plugs c
    rw [ends_bind, ends_set, ends_bind, ends_get]
    generalize b.plugs.foldl _ c = d at hcut ⊢
    split
    case h_1 hmodel => exact (hcut.blank (Option.map_eq_none_iff.mp hmodel)).honest
    case h_2 s _ =>
      dsimp only
      rw [ends_bind, ends_set]
      have hremoved :=
        hcut.toEvolves.trans (d.evolves_putScene (s.tryRemoveBlock b.block.id).1)
      split
      · exact hremoved
      · exact (hremoved.told rfl).trans (Passive.honest (.of_eq (by rfl)))

lemma fair_deleteBoxes (boxes : List Box) : Fair (deleteBoxes boxes) := by
  intro c
  unfold deleteBoxes
  rw [ends_bind, ends_get]
  split_ifs
  · exact .refl c
  have hask : Candid (atDesk (Desk.confirm (.text "Удаление блоков")
      (.text (removalQuestion boxes)) false)) := by
    refine candid_atDesk (fun d => ?_) fun d => ?_
    · exact Nat.le_of_eq (congrArg Desk.nextTag (confirm_desk _ _ _ d)).symm
    · rw [confirm_desk]
      exact List.prefix_append _ _
  refine (hask.fair.bind fun yes => ?_) c
  split_ifs
  · exact fair_forM fun b => fair_deleteBox b.number
  · exact (candid_pure _).fair

theorem fair_deleteSelection : Fair deleteSelection := by
  intro c
  unfold deleteSelection
  rw [ends_bind, ends_get]
  split_ifs
  · refine ((fair_forM fun n => (candid_deleteWire n).fair).bind fun _ => ?_) c
    exact fair_deleteBoxes c.selectedBoxes
  · exact .refl c

/-- What a menu offers is done at once. -/
theorem fair_menu (items : List Item) : Fair (do
    let action ← openMenu items
    action.forM MenuAction.perform) := by
  have hopen : Candid (openMenu items) := by
    intro c
    unfold openMenu
    rw [ends_bind, ends_get]
    split
    · exact .refl c
    · exact ((candid_note _).bind fun _ => candid_pure _) c
    · split
      · exact .refl c
      · split_ifs
        · rw [ends_bind, ends_set]
          refine (((candid_note _).bind fun _ => candid_pure _) _).both fun _ h => ?_
          exact .trans (Passive.honest (.of_eq (by rfl))) h
        · exact ((candid_note _).bind fun _ => candid_pure _) c
  refine hopen.fair.bind fun action => ?_
  cases action with
  | none => exact (candid_pure _).fair
  | some a =>
    cases a with
    | deleteBlocks =>
      refine (candid_modify fun _ => .of_eq (by rfl)).fair.bind fun _ c => ?_
      exact fair_deleteBoxes c.selectedBoxes c
    | deleteWire n => exact (candid_deleteWire n).fair

end Deleting
end Canvas
end NovelGraph
