import NovelGraph.Proofs.PlaceOrder
import NovelGraph.Proofs.Wires

/-! What is visible of a block in a script: its id, its kind, its parameters and its place. Blocks
that differ in nothing else are found, wired and put in order in the same way. -/
namespace NovelGraph

open Outcome Script

/-- What a script is written from, of a block. -/
def Block.visible (b : Block) : Block := { b with portIds := [], tag := 0 }

/-- Blocks that a script cannot tell apart. -/
def Block.Alike (b c : Block) : Prop := b.visible = c.visible

namespace Block.Alike

variable {b c : Block}

/-- A function that looks no further does not tell them apart either. -/
lemma congr {β : Type} (h : b.Alike c) (f : Block → β) (hf : ∀ d, f d.visible = f d) :
    f b = f c :=
  calc
    f b = f b.visible := (hf b).symm
    _ = f c.visible := congrArg f h
    _ = f c := hf c

lemma id_eq (h : b.Alike c) : b.id = c.id := h.congr Block.id fun _ => rfl

lemma position_eq (h : b.Alike c) : b.position = c.position :=
  h.congr Block.position fun _ => rfl

lemma distance_eq {b' c' : Block} (h : b.Alike c) (h' : b'.Alike c') :
    b.distance b' = c.distance c' :=
  (h.congr (·.distance b') fun _ => rfl).trans (h'.congr c.distance fun _ => rfl)

end Block.Alike

lemma Block.alike_cases {x y : Option Block} (h : x.map Block.visible = y.map Block.visible) :
    (x = none ∧ y = none) ∨ ∃ b c, x = some b ∧ y = some c ∧ b.Alike c := by
  cases x with
  | none =>
    rw [Option.map_none, eq_comm, Option.map_eq_none_iff] at h
    exact .inl ⟨rfl, h⟩
  | some b =>
    rw [Option.map_some, eq_comm, Option.map_eq_some_iff] at h
    obtain ⟨c, rfl, hbc⟩ := h
    exact .inr ⟨b, c, rfl, rfl, hbc.symm⟩

/-- Lists of blocks that a script cannot tell apart. -/
def AlikeBlocks (bs cs : List Block) : Prop := bs.map Block.visible = cs.map Block.visible

namespace AlikeBlocks

variable {bs cs : List Block}

/-- What depends on the visible blocks only is the same for both. -/
lemma congr {β : Type} (h : AlikeBlocks bs cs) (f : List Block → β)
    (hf : ∀ ds, f (ds.map Block.visible) = f ds) : f bs = f cs :=
  calc
    f bs = f (bs.map Block.visible) := (hf bs).symm
    _ = f (cs.map Block.visible) := congrArg f h
    _ = f cs := hf cs

lemma filter (h : AlikeBlocks bs cs) (test : Block → Bool) (htest : ∀ b, test b.visible = test b) :
    AlikeBlocks (bs.filter test) (cs.filter test) := by
  refine h.congr (fun ds => (ds.filter test).map Block.visible) fun ds => ?_
  rw [List.filter_map, List.map_map]
  simp only [Function.comp_def, htest]
  rfl

lemma forM_eq (h : AlikeBlocks bs cs) {ε : Type} {f : Block → Except ε Unit}
    (hf : ∀ b, f b.visible = f b) : bs.forM f = cs.forM f :=
  h.congr (·.forM f) fun ds => forM_hom Block.visible ds hf

/-- Sorted, they are alike again. -/
lemma sortBlocks (h : AlikeBlocks bs cs) :
    List.map Block.visible <$> Scene.sortBlocks bs =
      List.map Block.visible <$> Scene.sortBlocks cs := by
  have hplace : ∀ b : Block, b.visible.position = b.position := fun _ => rfl
  refine h.congr (fun ds => List.map Block.visible <$> Scene.sortBlocks ds) fun ds => ?_
  rw [Scene.sortBlocks, Order.sortOn_map hplace, Functor.map_map]
  simp only [List.map_map]
  rfl

end AlikeBlocks

namespace Scene

variable {s t : Scene}

lemma findBlock_alike (h : AlikeBlocks s.blocks t.blocks) (id : Value) :
    (s.findBlock id).map Block.visible = (t.findBlock id).map Block.visible := by
  refine h.congr (fun ds => (ds.find? (·.id.equals id)).map Block.visible) fun ds => ?_
  rw [List.find?_map, Option.map_map]
  rfl

/-- A look-up finds nothing in both scenes, or blocks that are alike. -/
lemma findBlock_cases (h : AlikeBlocks s.blocks t.blocks) (id : Value) :
    (s.findBlock id = none ∧ t.findBlock id = none) ∨
      ∃ b c, s.findBlock id = some b ∧ t.findBlock id = some c ∧ b.Alike c :=
  Block.alike_cases (findBlock_alike h id)

lemma sortByPlace_alike (h : AlikeBlocks s.blocks t.blocks) (targets : List (Value × Double)) :
    s.sortByPlace targets = t.sortByPlace targets := by
  have hplace : s.positionOf = t.positionOf := by
    funext id
    rcases findBlock_cases h id with ⟨hs, ht⟩ | ⟨b, c, hs, ht, hbc⟩
    · rw [positionOf, positionOf, hs, ht]
    · rw [positionOf, positionOf, hs, ht]
      exact hbc.position_eq
  rw [sortByPlace, sortByPlace, hplace]

lemma blockTable_alike (h : AlikeBlocks s.blocks t.blocks) (id : Value) :
    (s.blockTable.get? id).map Block.visible = (t.blockTable.get? id).map Block.visible := by
  refine h.congr (fun ds => ((Dict.ofItems Block.id ds).get? id).map Block.visible) fun ds => ?_
  have htable : Dict.ofItems Block.id (ds.map Block.visible) =
      (Dict.ofItems Block.id ds).map fun e => (e.1, e.2.visible) := by
    rw [Dict.ofItems, List.foldl_map]
    refine @List.foldl_hom _ _ _ (List.map fun e : Value × Block => (e.1, e.2.visible)) _ _ _ []
      fun d b => ?_
    exact Dict.set_map d Block.visible b.id b
  rw [htable, Dict.get?_map, Option.map_map]
  rfl

/-- What is visible of the ends of a wire. -/
def visibleEnds (ends : (Value × Block) × (Value × Block)) : (Value × Block) × (Value × Block) :=
  ((ends.1.1, ends.1.2.visible), (ends.2.1, ends.2.2.visible))

/-- Wires join the same blocks at the same distances. -/
lemma addWire_congr {owners : Dict Value} {blocks blocks' : Dict Block}
    (h : ∀ id, (blocks.get? id).map Block.visible = (blocks'.get? id).map Block.visible) (l : Links)
    (c : Connection) : addWire owners blocks l c = addWire owners blocks' l c := by
  have hends : Option.map visibleEnds <$> wireEnds? owners blocks c =
      Option.map visibleEnds <$> wireEnds? owners blocks' c := by
    simp only [wireEnds?, map_bind]
    refine bind_congr fun _ => bind_congr fun _ => ?_
    split
    · rename_i a b _ _
      split_ifs
      · simp only [map_bind]
        refine bind_congr fun _ => bind_congr fun _ => ?_
        rcases Block.alike_cases (h a) with ⟨hp, hp'⟩ | ⟨p, p', hp, hp', ha⟩
        · rw [hp, hp']
        · rcases Block.alike_cases (h b) with ⟨hq, hq'⟩ | ⟨q, q', hq, hq', hb⟩
          · rw [hp, hp', hq, hq']
          · rw [hp, hp', hq, hq']
            simp only [map_pure, Option.map_some, visibleEnds]
            rw [ha, hb]
      · rfl
    · rfl
  refine bind_eq_of_map_eq hends fun ends ends' heq => ?_
  cases ends with
  | none =>
    cases ends' with
    | none => rfl
    | some _ => cases heq
  | some ends =>
    cases ends' with
    | none => cases heq
    | some ends' =>
      obtain ⟨⟨a, p⟩, b, q⟩ := ends
      obtain ⟨⟨a', p'⟩, b', q'⟩ := ends'
      simp only [Option.map_some, visibleEnds, Option.some.injEq, Prod.mk.injEq] at heq
      obtain ⟨⟨rfl, hp⟩, rfl, hq⟩ := heq
      have hd : p.distance q = p'.distance q' := Block.Alike.distance_eq hp hq
      simp only [hd]

theorem links_alike (h : AlikeBlocks s.blocks t.blocks) (hports : s.ports = t.ports)
    (hwires : s.connections = t.connections) : s.links = t.links := by
  have hkeys : s.blocks.forM (·.id.requireKey) = t.blocks.forM (·.id.requireKey) :=
    h.forM_eq fun _ => rfl
  have howners : s.portOwners = t.portOwners := by rw [portOwners, portOwners, hports]
  have hadd : addWire s.portOwners s.blockTable = addWire t.portOwners t.blockTable := by
    funext l c
    rw [howners]
    exact addWire_congr (blockTable_alike h) l c
  rw [links, links, hports, hkeys, hwires, hadd]

end Scene
end NovelGraph
