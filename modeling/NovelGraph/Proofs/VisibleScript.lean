import NovelGraph.Proofs.Visibility

/-! Scripts of what is visible. The lists of ports and the tags of blocks leave no trace in a script,
nor does anything of a scene besides its blocks and its graph. -/
namespace NovelGraph

lemma AlikeBlocks.contents {bs cs : List Block} (h : AlikeBlocks bs cs) : SameContents bs cs :=
  h.congr (List.map Block.content) fun _ => List.map_map

/-- Scenes with blocks that are alike and the same graph have the same order. -/
lemma Scene.sameOrder_of_alike {s t : Scene} (h : AlikeBlocks s.blocks t.blocks)
    (hlinks : s.links = t.links) : s.SameOrder t := by
  refine ⟨h.contents, hlinks, fun _ _ => sortByPlace_alike h _, fun keep hkeep => ?_⟩
  have hvisible : ∀ b, keep b.visible = keep b := fun b => (hkeep b.visible).symm.trans (hkeep b)
  have hcontent : ∀ bs : List Block, List.map Block.content <$> sortBlocks bs =
      List.map Block.content <$> List.map Block.visible <$> sortBlocks bs := by
    intro bs
    rw [Functor.map_map]
    simp only [List.map_map]
    rfl
  rw [hcontent, hcontent, (h.filter keep hvisible).sortBlocks]

namespace Project

/-- Projects of which the same script is written: their scenes cannot be told apart, and they have
the same characters and pictures. -/
structure Alike (p q : Project) : Prop where
  scenes : List.Forall₂ (fun s t => AlikeBlocks s.blocks t.blocks ∧ s.links = t.links) p.scenes
    q.scenes
  characters : p.characters = q.characters
  images : p.images = q.images

/-- Projects that are alike have the same script, or fail in the same way. -/
theorem Alike.script_eq {p q : Project} (h : p.Alike q) : p.script = q.script := by
  have horder : p.SameOrder q :=
    ⟨h.scenes.imp fun _ _ hst => Scene.sameOrder_of_alike hst.1 hst.2, h.characters, h.images⟩
  exact horder.script_eq

end Project
end NovelGraph
