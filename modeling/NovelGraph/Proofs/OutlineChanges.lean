import NovelGraph.Proofs.EditorChanges

/-! The list of scenes tells when a scene is added, but not when one is removed or moved. -/
namespace NovelGraph

open Scene (OneState)

section Scenes

variable {e d : Editor} {p q : Project} {s : Scene}

@[simp] lemma Editor.ends_adoptScene {post : Scene → Editor → Prop} {fail : Editor → Prop} :
    Ends (Editor.adoptScene s) e post fail ↔ post (s.retag e.desk.nextTag).1
      { e with desk := { e.desk with nextTag := (s.retag e.desk.nextTag).2 } } := Iff.rfl

lemma Editor.Ready.putProject {fail : Editor → Prop} (h : e.Ready) (hscenes : OneState p.scenes)
    (htags : ∀ s ∈ p.scenes, s.tag < e.desk.nextTag) (htag : p.tag < e.desk.nextTag) :
    Ends (Editor.putProject p) e (fun _ e' => e.Edited e' ∧ e'.desk = e.desk) fail := by
  refine (h.synced.putProject hscenes htags htag).imp ?_
  rintro - e' ⟨hsynced, he⟩
  refine ⟨⟨⟨hsynced, ?_, ?_, ?_⟩, ?_, ?_, ?_, ?_⟩, he.desk⟩
  · rw [he.session]
    simpa [Editor.overlay] using h.isOpen
  · rw [he.loading]
    exact h.idle
  · rw [he.window]
    exact h.marked
  · simp only [Editor.openTag, he.session, Editor.overlay, Option.map_map]
    refine Option.map_congr fun q _ => ?_
    simp only [Function.comp_apply, Project.renew]
    split_ifs with hq
    · exact hq.symm
    · rfl
  · rw [he.desk]
    exact List.prefix_rfl
  · rw [he.window]
    rfl
  · rw [he.window]
    rfl

/-- Scenes of a project are moved or removed. -/
lemma Editor.Ready.putSome {fail : Editor → Prop} (h : e.Ready) (hp : p ∈ e.projects)
    (hsub : q.scenes ⊆ p.scenes) (htag : q.tag = p.tag) :
    Ends (Editor.putProject q) e (fun _ e' => e.Hushed e') fail := by
  have hold : q.scenes ⊆ e.scenes :=
    List.Subset.trans hsub (Editor.scenes_subset hp)
  refine (h.putProject (h.synced.scenes.subset hold) (fun s hs => h.synced.sceneTags s (hold hs))
    (htag ▸ h.synced.projectTags p hp)).imp ?_
  rintro - e' ⟨hedited, hdesk⟩
  exact ⟨hedited, hdesk ▸ .refl _⟩

namespace Outline

lemma aside_outlineChange {f : Outline → Outline} (h : ∀ o, (f o).project = o.project) :
    Aside (change f) :=
  aside_modify fun e => ⟨rfl, h e.outline, rfl, rfl, .refl _, rfl, rfl⟩

/-- A new scene comes last. -/
lemma ends_append (h : e.Ready) (hp : p ∈ e.projects) (id name label : Value) :
    Ends (do
        let s ← Editor.adoptScene { id, name, label }
        Editor.putProject (p.addScene s)
        change refreshed
        let s := ((p.addScene s).findScene id).getD s
        change fun o => { o with current := some s }
        Editor.send .scenesModified
        Editor.send (.sceneSelected (some s))) e (fun _ => e.Honest) e.Honest := by
  rw [ends_bind, Editor.ends_adoptScene, ends_bind]
  set s : Scene := (Scene.retag e.desk.nextTag { id, name, label }).1
  set d : Editor := { e with desk := _ }
  have hd : e.Edited d := by
    refine ⟨⟨⟨h.synced.scenes, h.synced.projects, ?_, ?_⟩, h.isOpen, h.idle, h.marked⟩, rfl,
      List.prefix_rfl, rfl, rfl⟩
    · exact fun s hs => Nat.lt_succ_of_lt (h.synced.sceneTags s hs)
    · exact fun p hp => Nat.lt_succ_of_lt (h.synced.projectTags p hp)
  have hold := Editor.scenes_subset hp
  have hnew : ∀ t ∈ p.scenes, t.tag < s.tag := fun t ht => h.synced.sceneTags t (hold ht)
  have hone : OneState (p.addScene s).scenes := by
    intro t ht u hu htu
    rcases List.mem_append.mp ht with ht | ht <;> rcases List.mem_append.mp hu with hu | hu
    · exact h.synced.scenes t (hold ht) u (hold hu) htu
    · have := hnew t ht
      rw [List.mem_singleton.mp hu] at htu
      omega
    · have := hnew u hu
      rw [List.mem_singleton.mp ht] at htu
      omega
    · rw [List.mem_singleton.mp ht, List.mem_singleton.mp hu]
  refine (hd.ready.putProject hone ?_ ?_).imp ?_
  · refine List.forall_mem_append.mpr ⟨fun t ht => ?_, List.forall_mem_singleton.mpr ?_⟩
    · exact Nat.lt_succ_of_lt (hnew t ht)
    · exact Nat.lt_succ_self _
  · exact Nat.lt_succ_of_lt (h.synced.projectTags p hp)
  rintro - d' ⟨hd', -⟩
  simp only [change, Editor.send, ends_bind, ends_modify, Editor.ends_atDesk]
  have hrows : e.Edited { d' with outline := { d'.outline.refreshed with
      current := some (((p.addScene s).findScene id).getD s) } } :=
    e.steady_edited (hd.trans hd') (.of_eq rfl)
  exact e.steady_honest (hrows.told rfl)
    ⟨rfl, rfl, rfl, rfl, ⟨[.signal (.sceneSelected _)], rfl, by simp [Notice.marks, Signal.marks]⟩,
      rfl, rfl⟩

/-- A scene that is added is told of. -/
theorem ends_addScene (h : e.Ready) : Ends addScene e (fun _ => e.Honest) e.Honest := by
  have hkept : ∀ d, e.Kept d → e.Honest d := fun _ => h.honest_of_kept
  unfold addScene
  rw [ends_bind, ends_get]
  split
  · exact (aside_warn _ _ _ e).both hkept
  case h_2 p hp =>
    refine (aside_phrase _ _).step e.steady_kept (.refl e) hkept fun title d hd => ?_
    refine (aside_phrase _ _).step e.steady_kept hd hkept fun ask d hd => ?_
    refine (aside_askText _ _ _).step e.steady_kept hd hkept fun name d hd => ?_
    split
    · exact hkept d hd
    · exact hkept d hd
    refine (aside_phrase _ _).step e.steady_kept hd hkept fun ask d hd => ?_
    refine (aside_askText _ _ _).step e.steady_kept hd hkept fun label d hd => ?_
    split
    · exact hkept d hd
    · exact hkept d hd
    refine aside_freshId.step e.steady_kept hd hkept fun id d hd => ?_
    have hmem := Editor.mem_projects_of_outline (hd.outline.trans hp)
    refine (ends_append (h.kept hd) hmem _ _ _).both fun _ he => ?_
    exact (hkept d hd).trans he

/-- A scene that is removed is not told of. -/
theorem ends_deleteScene (h : e.Ready) : Ends deleteScene e (fun _ => e.Hushed) e.Hushed := by
  have hkept : ∀ d, e.Kept d → e.Hushed d := fun _ => h.hushed_of_kept
  have hfail : ∀ d, e.Hushed d → e.Hushed d := fun _ hd => hd
  have hchoose : ∀ p, Aside (chooseFirst p) := by
    intro p
    unfold chooseFirst
    split
    · exact aside_outlineChange fun _ => rfl
    · exact .seq (aside_outlineChange fun _ => rfl) (aside_send rfl)
  unfold deleteScene
  rw [ends_bind, ends_get]
  dsimp only
  split
  · exact hkept e (.refl e)
  · exact (aside_warn _ _ _ e).both hkept
  case h_3 p id hp _ =>
    split
    · exact hkept e (.refl e)
    case h_2 s _ =>
      refine (aside_phrase _ _).step e.steady_kept (.refl e) hkept fun title d hd => ?_
      refine (aside_phrase _ _).step e.steady_kept hd hkept fun template d hd => ?_
      have hrest : ∀ (text : String) d, e.Kept d → Ends (do
          if ← Editor.atDesk (Desk.confirm title (.text text) false) then
            if p.scenes.length ≤ 1 then
              warn "cannot_delete_last" "Ошибка" "Нельзя удалить последнюю сцену в проекте."
            else
              let p := p.removeScene id
              Editor.putProject p
              if (p.findScene id).isSome then
                warn "delete_error" "Ошибка" "Не удалось удалить сцену."
              else chooseFirst p) d (fun _ => e.Hushed) e.Hushed := by
        intro text d hd
        refine (aside_confirm _ _ _).step e.steady_kept hd hkept fun yes d hd => ?_
        split_ifs
        · exact (aside_warn _ _ _ d).both fun _ he => hkept _ (hd.trans he)
        · have hmem := Editor.mem_projects_of_outline (hd.outline.trans hp)
          rw [ends_bind]
          have hsub : (p.removeScene id).scenes ⊆ p.scenes := List.filter_subset_self _
          refine ((h.kept hd).putSome hmem hsub rfl).imp fun _ d' hd' => ?_
          refine Ends.both (Aside.ite (aside_warn _ _ _) (hchoose _) d') fun _ he => ?_
          exact e.steady_hushed ((hkept d hd).trans hd') he
        · exact hkept d hd
      split
      · exact (aside_ofExcept _).step e.steady_kept hd hkept hrest
      · exact (aside_throw _).step e.steady_kept hd hkept hrest

lemma swapUp_go_subset {α : Type} {test : α → Bool} {a : α} {items moved : List α}
    (h : swapUp.go test a items = some moved) : moved ⊆ a :: items := by
  induction items generalizing a moved with
  | nil => cases h
  | cons b rest ih =>
    rw [swapUp.go] at h
    split_ifs at h
    · obtain rfl := Option.some.inj h
      simp
    · obtain ⟨others, hothers, rfl⟩ := Option.map_eq_some_iff.mp h
      exact List.cons_subset_cons a (ih hothers)

lemma swapUp_subset {α : Type} {test : α → Bool} {items moved : List α}
    (h : swapUp test items = some moved) : moved ⊆ items := by
  cases items with
  | nil => cases h
  | cons a rest =>
    rw [swapUp] at h
    split_ifs at h
    exact swapUp_go_subset h

lemma swapDown_subset {α : Type} {test : α → Bool} {items moved : List α}
    (h : swapDown test items = some moved) : moved ⊆ items := by
  induction items generalizing moved with
  | nil => cases h
  | cons a rest ih =>
    rw [swapDown.eq_def] at h
    dsimp only at h
    split_ifs at h
    · cases rest with
      | nil => cases h
      | cons b others =>
        obtain rfl := Option.some.inj h
        simp
    · obtain ⟨others, hothers, rfl⟩ := Option.map_eq_some_iff.mp h
      exact List.cons_subset_cons a (ih hothers)

/-- A scene that is moved is not told of. -/
lemma ends_moveScene {move : Project → Value → Option Project}
    (hmove : ∀ p id q, move p id = some q → q.scenes ⊆ p.scenes ∧ q.tag = p.tag) (h : e.Ready) :
    Ends (moveScene move) e (fun _ => e.Hushed) e.Hushed := by
  unfold moveScene
  rw [ends_bind, ends_get]
  dsimp only
  split
  case h_1 p id hp _ =>
    split
    · exact h.hushed_of_kept (.refl e)
    case h_2 q hq =>
      obtain ⟨hsub, htag⟩ := hmove p id q hq
      rw [ends_bind]
      refine (h.putSome (Editor.mem_projects_of_outline hp) hsub htag).imp fun _ d hd => ?_
      exact e.steady_hushed hd (.of_eq rfl)
  case h_2 => exact h.hushed_of_kept (.refl e)

theorem ends_moveUp (h : e.Ready) : Ends moveUp e (fun _ => e.Hushed) e.Hushed := by
  refine ends_moveScene (fun p id q hq => ?_) h
  obtain ⟨scenes, hscenes, rfl⟩ := Option.map_eq_some_iff.mp hq
  exact ⟨swapUp_subset hscenes, rfl⟩

theorem ends_moveDown (h : e.Ready) : Ends moveDown e (fun _ => e.Hushed) e.Hushed := by
  refine ends_moveScene (fun p id q hq => ?_) h
  obtain ⟨scenes, hscenes, rfl⟩ := Option.map_eq_some_iff.mp hq
  exact ⟨swapDown_subset hscenes, rfl⟩

lemma aside_choose (id : Value) : Aside (choose id) := by
  refine aside_get.bind fun e => ?_
  dsimp only
  split
  · exact aside_pure _
  · exact .ite (aside_pure _) (aside_send rfl)

lemma aside_doubleClick : Aside doubleClick := by
  refine aside_get.bind fun e => ?_
  split
  · exact aside_choose _
  · exact aside_throw _

lemma aside_selectionChanged : Aside selectionChanged := by
  refine aside_get.bind fun e => ?_
  dsimp only
  split_ifs
  · split
    · exact aside_choose _
    · exact aside_pure _
  · exact aside_pure _

end Outline
end Scenes
end NovelGraph
