import Mathlib.Logic.Embedding.Basic
import NovelGraph.Graph.Entry
import NovelGraph.Proofs.Transport

/-! Stories under new ids. Ids are only ever compared with each other, so the graph of a renamed
scene is the renamed graph, with the same distances in the same order. -/
namespace NovelGraph

open Outcome

/-- Texts that can stand for something. -/
abbrev Ident := { s : String // s ≠ "" }

namespace Value

/-- A value under a new name. Only ids have one; all other values stay as they are. -/
def renamed (ρ : Ident ↪ Ident) : Value → Value
  | .text s => if h : s = "" then .text s else .text (ρ ⟨s, h⟩).1
  | v => v

/-- Whether a value is an id. -/
lemma ident_or (v : Value) : (∃ s : Ident, v = .text s.1) ∨ ∀ s : Ident, v ≠ .text s.1 := by
  by_cases h : ∃ s : Ident, v = .text s.1
  · exact .inl h
  · exact .inr fun s hs => h ⟨s, hs⟩

variable (ρ : Ident ↪ Ident)

lemma renamed_ident (s : Ident) : (Value.text s.1).renamed ρ = .text (ρ s).1 := by
  rw [renamed, dif_neg s.2]

lemma renamed_of_not_ident {v : Value} (h : ∀ s : Ident, v ≠ .text s.1) : v.renamed ρ = v := by
  cases v with
  | text s =>
    by_cases hs : s = ""
    · rw [renamed, dif_pos hs]
    · exact absurd rfl (h ⟨s, hs⟩)
  | _ => rfl

@[simp] lemma renamed_same (v w : Value) : (v.renamed ρ).same (w.renamed ρ) = v.same w := by
  rw [Bool.eq_iff_iff, same_iff, same_iff]
  rcases ident_or v with ⟨s, rfl⟩ | hv <;> rcases ident_or w with ⟨t, rfl⟩ | hw
  · simp [renamed_ident, Subtype.val_inj]
  · rw [renamed_ident, renamed_of_not_ident ρ hw, canon_text, canon_text]
    exact iff_of_false (fun h => hw _ (canon_eq_text h.symm)) fun h => hw _ (canon_eq_text h.symm)
  · rw [renamed_ident, renamed_of_not_ident ρ hv, canon_text, canon_text]
    exact iff_of_false (fun h => hv _ (canon_eq_text h)) fun h => hv _ (canon_eq_text h)
  · rw [renamed_of_not_ident ρ hv, renamed_of_not_ident ρ hw]

@[simp] lemma renamed_equals (v w : Value) : (v.renamed ρ).equals (w.renamed ρ) = v.equals w := by
  unfold equals
  rw [renamed_same]
  rcases ident_or v with ⟨s, rfl⟩ | hv
  · rw [renamed_ident]
  · rw [renamed_of_not_ident ρ hv]

@[simp] lemma renamed_isTruthy (v : Value) : (v.renamed ρ).isTruthy = v.isTruthy := by
  rcases ident_or v with ⟨s, rfl⟩ | hv
  · rw [renamed_ident, isTruthy, isTruthy, String.isEmpty_eq_false_iff.mpr s.2,
      String.isEmpty_eq_false_iff.mpr (ρ s).2]
  · rw [renamed_of_not_ident ρ hv]

@[simp] lemma renamed_requireKey (v : Value) : (v.renamed ρ).requireKey = v.requireKey := by
  rcases ident_or v with ⟨s, rfl⟩ | hv
  · rw [renamed_ident]
    rfl
  · rw [renamed_of_not_ident ρ hv]

@[simp] lemma renamed_memberOf (v : Value) (vs : List Value) :
    (v.renamed ρ).memberOf (vs.map (renamed ρ)) = v.memberOf vs := by
  simp only [memberOf, List.any_map, Function.comp_def, renamed_same]

end Value

namespace Dict

variable {α β : Type}

/-- A table under new keys, with a change of its entries. -/
def renamed (ρ : Ident ↪ Ident) (g : α → β) (d : Dict α) : Dict β :=
  d.map fun e => (e.1.renamed ρ, g e.2)

variable (ρ : Ident ↪ Ident) (g : α → β)

@[simp] lemma get?_renamed (d : Dict α) (key : Value) :
    (d.renamed ρ g).get? (key.renamed ρ) = (d.get? key).map g := by
  simp only [get?, renamed, List.find?_map, Function.comp_def, Value.renamed_same, Option.map_map]

@[simp] lemma contains_renamed (d : Dict α) (key : Value) :
    (d.renamed ρ g).contains (key.renamed ρ) = d.contains key := by
  simp only [contains, renamed, List.any_map, Function.comp_def, Value.renamed_same]

@[simp] lemma set_renamed (d : Dict α) (key : Value) (a : α) :
    (d.renamed ρ g).set (key.renamed ρ) (g a) = (d.set key a).renamed ρ g := by
  induction d with
  | nil => rfl
  | cons e rest ih =>
    simp only [renamed, List.map_cons, set, Value.renamed_same] at ih ⊢
    split_ifs
    · rfl
    · rw [ih, List.map_cons]

lemma update_renamed {e : α} {e' : β} (hempty : e' = g e) {f : α → α} {f' : β → β}
    (hf : ∀ a, f' (g a) = g (f a)) (d : Dict α) (key : Value) :
    (d.renamed ρ g).update (key.renamed ρ) e' f' = (d.update key e f).renamed ρ g := by
  rw [update, update, get?_renamed, hempty, Option.getD_map, hf, set_renamed]

/-- A table that is filled item by item. -/
lemma foldl_set_renamed {ι κ : Type} (h : ι → κ) (key : ι → Value) (entry : ι → α)
    (key' : κ → Value) (entry' : κ → β) (hkey : ∀ i, key' (h i) = (key i).renamed ρ)
    (hentry : ∀ i, entry' (h i) = g (entry i)) (items : List ι) :
    (items.map h).foldl (fun (d : Dict β) i => Dict.set d (key' i) (entry' i)) [] =
      renamed ρ g (items.foldl (fun (d : Dict α) i => Dict.set d (key i) (entry i)) []) := by
  rw [List.foldl_map]
  refine @List.foldl_hom _ _ _ (renamed ρ g) _ _ _ [] fun d i => ?_
  rw [hkey, hentry, set_renamed]

lemma keys_renamed (d : Dict α) :
    (d.renamed ρ g).map (·.1) = (d.map (·.1)).map (Value.renamed ρ) := by
  simp only [renamed, List.map_map, Function.comp_def]

end Dict

/-- New ids for blocks, ports, connections and scenes, different ones for different ones. -/
structure Renaming where
  block : Ident ↪ Ident
  port : Ident ↪ Ident
  connection : Ident ↪ Ident
  scene : Ident ↪ Ident

def Block.renamed (ρ : Renaming) (b : Block) : Block :=
  { b with id := b.id.renamed ρ.block, portIds := b.portIds.map (Value.renamed ρ.port) }

def Port.renamed (ρ : Renaming) (p : Port) : Port :=
  { p with id := p.id.renamed ρ.port, nodeId := p.nodeId.renamed ρ.block }

def Connection.renamed (ρ : Renaming) (c : Connection) : Connection :=
  { c with
    id := c.id.renamed ρ.connection
    fromPort := c.fromPort.renamed ρ.port
    toPort := c.toPort.renamed ρ.port }

def Scene.renamed (ρ : Renaming) (s : Scene) : Scene :=
  { s with
    id := s.id.renamed ρ.scene
    blocks := s.blocks.map (Block.renamed ρ)
    ports := s.ports.map (Port.renamed ρ)
    connections := s.connections.map (Connection.renamed ρ) }

/-- A project under new ids, in all places that mention them. -/
def Project.renamed (ρ : Renaming) (p : Project) : Project :=
  { p with scenes := p.scenes.map (Scene.renamed ρ) }

namespace Links

/-- A successor under its new id. -/
def hopRenamed (ρ : Renaming) (t : Value × Double) : Value × Double := (t.1.renamed ρ.block, t.2)

def renamed (ρ : Renaming) (l : Links) : Links := Dict.renamed ρ.block (List.map (hopRenamed ρ)) l

variable (ρ : Renaming) (l : Links)

@[simp] lemma next_renamed (id : Value) :
    (l.renamed ρ).next (id.renamed ρ.block) = (l.next id).map (hopRenamed ρ) := by
  rw [next, renamed, Dict.get?_renamed, next]
  cases l.get? id with
  | none => rfl
  | some targets => rfl

@[simp] lemma nextIds_renamed (id : Value) :
    (l.renamed ρ).nextIds (id.renamed ρ.block) = (l.nextIds id).map (Value.renamed ρ.block) := by
  simp only [nextIds, next_renamed, List.map_map]
  rfl

@[simp] lemma targets_renamed :
    (l.renamed ρ).targets = l.targets.map (Value.renamed ρ.block) := by
  simp only [targets, renamed, Dict.renamed, List.flatMap_map, List.map_flatMap, List.map_map]
  rfl

lemma sortByDistance_renamed (targets : List (Value × Double)) :
    sortByDistance (targets.map (hopRenamed ρ)) =
      (sortByDistance targets).map (hopRenamed ρ) :=
  Order.sortByKey_map (fun _ => rfl) _ _

end Links

namespace Inputs

def renamed (ρ : Renaming) (i : Inputs) : Inputs :=
  Dict.renamed ρ.block (List.map (Value.renamed ρ.block)) i

variable (ρ : Renaming) (i : Inputs)

@[simp] lemma sources_renamed (id : Value) :
    (i.renamed ρ).sources (id.renamed ρ.block) = (i.sources id).map (Value.renamed ρ.block) := by
  rw [sources, renamed, Dict.get?_renamed, sources]
  cases i.get? id with
  | none => rfl
  | some sources => rfl

@[simp] lemma allSeen_renamed (seen : List Value) (id : Value) :
    (i.renamed ρ).allSeen (seen.map (Value.renamed ρ.block)) (id.renamed ρ.block) =
      i.allSeen seen id := by
  simp only [allSeen, sources_renamed, List.all_map, Function.comp_def, Value.renamed_memberOf]

end Inputs

lemma Links.reverse_renamed (ρ : Renaming) (l : Links) :
    (l.renamed ρ).reverse = l.reverse.renamed ρ := by
  rw [reverse, renamed, Dict.renamed, List.foldl_map, reverse]
  refine @List.foldl_hom _ _ _ (Inputs.renamed ρ) _ _ _ [] fun inputs e => ?_
  rw [List.foldl_map]
  refine List.foldl_hom (Inputs.renamed ρ) fun inputs t => ?_
  refine Dict.update_renamed ρ.block (List.map (Value.renamed ρ.block)) (e := []) rfl ?_ inputs t.1
  intro sources
  simp only [Value.renamed_memberOf]
  split_ifs <;> simp

namespace Scene

variable (ρ : Renaming) (s : Scene)

@[simp] lemma blocks_renamed : (s.renamed ρ).blocks = s.blocks.map (Block.renamed ρ) := rfl

@[simp] lemma findBlock_renamed (id : Value) :
    (s.renamed ρ).findBlock (id.renamed ρ.block) = (s.findBlock id).map (Block.renamed ρ) := by
  simp only [findBlock, blocks_renamed, List.find?_map, Function.comp_def, Block.renamed,
    Value.renamed_equals]

@[simp] lemma positionOf_renamed (id : Value) :
    (s.renamed ρ).positionOf (id.renamed ρ.block) = s.positionOf id := by
  rw [positionOf, findBlock_renamed, positionOf]
  cases s.findBlock id with
  | none => rfl
  | some b => rfl

lemma blockTable_renamed :
    (s.renamed ρ).blockTable = Dict.renamed ρ.block (Block.renamed ρ) s.blockTable :=
  Dict.foldl_set_renamed ρ.block (Block.renamed ρ) (Block.renamed ρ) (·.id) (fun b => b) (·.id)
    (fun b => b) (fun _ => rfl) (fun _ => rfl) s.blocks

lemma portOwners_renamed :
    (s.renamed ρ).portOwners = Dict.renamed ρ.port (Value.renamed ρ.block) s.portOwners :=
  Dict.foldl_set_renamed ρ.port (Value.renamed ρ.block) (Port.renamed ρ) (·.id) (·.nodeId) (·.id)
    (·.nodeId) (fun _ => rfl) (fun _ => rfl) s.ports

/-- The ends of a wire under their new ids. -/
def endRenamed (ρ : Renaming) (e : Value × Block) : Value × Block :=
  (e.1.renamed ρ.block, e.2.renamed ρ)

lemma wireEnds?_renamed (owners : Dict Value) (blocks : Dict Block) (c : Connection) :
    wireEnds? (Dict.renamed ρ.port (Value.renamed ρ.block) owners)
        (Dict.renamed ρ.block (Block.renamed ρ) blocks) (c.renamed ρ) =
      Option.map (Prod.map (endRenamed ρ) (endRenamed ρ)) <$> wireEnds? owners blocks c := by
  simp only [wireEnds?, Connection.renamed, Value.renamed_requireKey, Dict.get?_renamed, map_bind]
  refine bind_congr fun _ => bind_congr fun _ => ?_
  cases owners.get? c.fromPort with
  | none => rfl
  | some a =>
  cases owners.get? c.toPort with
  | none => rfl
  | some b =>
  simp only [Option.map_some, Value.renamed_isTruthy, Value.renamed_requireKey, Dict.get?_renamed]
  split_ifs
  · simp only [map_bind]
    refine bind_congr fun _ => bind_congr fun _ => ?_
    cases blocks.get? a with
    | none => rfl
    | some p =>
    cases blocks.get? b with
    | none => rfl
    | some q => rfl
  · rfl

lemma addWire_renamed (owners : Dict Value) (blocks : Dict Block) (l : Links) (c : Connection) :
    addWire (Dict.renamed ρ.port (Value.renamed ρ.block) owners)
        (Dict.renamed ρ.block (Block.renamed ρ) blocks) (l.renamed ρ) (c.renamed ρ) =
      Links.renamed ρ <$> addWire owners blocks l c := by
  simp only [addWire, wireEnds?_renamed, bind_map_left, map_bind]
  refine bind_congr fun ends => ?_
  cases ends with
  | none => rfl
  | some ends =>
    simp only [Option.map_some, Prod.map, endRenamed, map_bind]
    refine bind_congr fun d => ?_
    rw [map_pure]
    congr 1
    exact Dict.update_renamed ρ.block (List.map (Links.hopRenamed ρ)) (e := []) rfl
      (f := (· ++ [(ends.2.1, d)])) (fun _ => by rw [List.map_append]; rfl) l ends.1.1

/-- The graph of a scene under new ids is its graph, renamed. -/
theorem links_renamed : (s.renamed ρ).links = Links.renamed ρ <$> s.links := by
  have hports : (s.renamed ρ).ports.forM (·.id.requireKey) = s.ports.forM (·.id.requireKey) :=
    forM_hom (Port.renamed ρ) s.ports fun p => Value.renamed_requireKey ρ.port p.id
  have hblocks : (s.renamed ρ).blocks.forM (·.id.requireKey) =
      s.blocks.forM (·.id.requireKey) :=
    forM_hom (Block.renamed ρ) s.blocks fun b => Value.renamed_requireKey ρ.block b.id
  have hwires : (s.renamed ρ).connections.foldlM
      (addWire (s.renamed ρ).portOwners (s.renamed ρ).blockTable) [] =
      Links.renamed ρ <$> s.connections.foldlM (addWire s.portOwners s.blockTable) [] := by
    rw [portOwners_renamed, blockTable_renamed]
    exact foldlM_hom (Links.renamed ρ) (Connection.renamed ρ) s.connections
      (addWire_renamed ρ s.portOwners s.blockTable) []
  rw [links, links, hports, hblocks, hwires]
  simp only [map_bind, bind_map_left, map_pure]
  refine bind_congr fun _ => bind_congr fun _ => bind_congr fun l => ?_
  simp only [Links.renamed, Dict.renamed, List.map_map, Function.comp_def,
    Links.sortByDistance_renamed]

@[simp] lemma sortByPlace_renamed (targets : List (Value × Double)) :
    (s.renamed ρ).sortByPlace (targets.map (Links.hopRenamed ρ)) =
      List.map (Value.renamed ρ.block) <$> s.sortByPlace targets := by
  have hsort : Order.sortOn (fun t => (s.renamed ρ).positionOf t.1) Order.pairLess
      (targets.map (Links.hopRenamed ρ)) =
      List.map (Links.hopRenamed ρ) <$>
        Order.sortOn (fun t => s.positionOf t.1) Order.pairLess targets := by
    refine Order.sortOn_map ?_ _ _
    exact fun t => positionOf_renamed ρ s t.1
  rw [sortByPlace, hsort, sortByPlace]
  simp only [bind_map_left, map_bind, map_pure, List.map_map]
  rfl

@[simp] lemma sortBlocks_renamed (blocks : List Block) :
    sortBlocks (blocks.map (Block.renamed ρ)) = List.map (Block.renamed ρ) <$> sortBlocks blocks :=
  Order.sortOn_map (fun _ => rfl) _ _

/-- A scene under new ids begins with the same blocks. -/
theorem entryBlocks_renamed (l : Links) :
    (s.renamed ρ).entryBlocks (l.renamed ρ) =
      List.map (Block.renamed ρ) <$> s.entryBlocks l := by
  have hfilter : ∀ {p q : Block → Bool} (blocks : List Block), (∀ b, p (b.renamed ρ) = q b) →
      (blocks.map (Block.renamed ρ)).filter p = (blocks.filter q).map (Block.renamed ρ) := by
    intro p q blocks hp
    rw [List.filter_map, Function.comp_def]
    simp only [hp]
  have hordinary : (s.renamed ρ).blocks.filter (fun b => !b.kind.isResource) =
      (s.blocks.filter fun b => !b.kind.isResource).map (Block.renamed ρ) :=
    hfilter s.blocks fun _ => rfl
  have hstarts : (s.renamed ρ).blocks.filter (·.kind == .start) =
      (s.blocks.filter (·.kind == .start)).map (Block.renamed ρ) := hfilter s.blocks fun _ => rfl
  have hresources : (s.renamed ρ).blocks.filter (·.kind.isResource) =
      (s.blocks.filter (·.kind.isResource)).map (Block.renamed ρ) := hfilter s.blocks fun _ => rfl
  have hmember : ∀ (b : Block) (ids : List Value),
      (b.renamed ρ).id.memberOf (ids.map (Value.renamed ρ.block)) = b.id.memberOf ids :=
    fun b ids => Value.renamed_memberOf ρ.block b.id ids
  have hbehind : ∀ blocks : List Block,
      (blocks.map (Block.renamed ρ)).flatMap (fun b => (l.renamed ρ).nextIds b.id) =
        (blocks.flatMap fun b => l.nextIds b.id).map (Value.renamed ρ.block) := by
    intro blocks
    rw [List.flatMap_map, List.map_flatMap]
    exact congrArg (List.flatMap · blocks) (funext fun b => Links.nextIds_renamed ρ l b.id)
  have hempty : (l.renamed ρ).isEmpty = l.isEmpty := by
    rw [Links.renamed, Dict.renamed, List.isEmpty_map]
  simp only [entryBlocks]
  rw [hordinary, hstarts, hresources, hempty, hbehind, Links.targets_renamed]
  rw [hfilter (q := fun b => !b.id.memberOf l.targets) _ fun b => congrArg (!·) (hmember b _),
    hfilter (q := fun b => b.id.memberOf _) _ fun b => hmember b _]
  simp only [List.isEmpty_map, sortBlocks_renamed]
  split_ifs <;> rfl

end Scene
end NovelGraph
