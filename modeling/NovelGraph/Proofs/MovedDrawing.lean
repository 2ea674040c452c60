import NovelGraph.Proofs.PlaceOrder
import NovelGraph.Proofs.Redrawing

/-! Moving a drawing as a whole. With integer coordinates all distances and all comparisons of places
stay as they are, so the graph, the order of the blocks and the script do. Only a block that is not
found under its own id, since a not-a-number equals nothing, has a place that does not move: the
origin. -/
namespace NovelGraph

open Outcome

namespace Value

def isInteger : Value → Bool
  | .int _ => true
  | _ => false

/-- An integer moved by a distance; anything else stays. -/
def shifted (d : ℤ) : Value → Value
  | .int n => .int (n + d)
  | v => v

lemma exists_int {v : Value} (h : v.isInteger = true) : ∃ n, v = .int n := by
  cases v with
  | int n => exact ⟨n, rfl⟩
  | _ => cases h

lemma difference_shifted {v w : Value} (hv : v.isInteger = true) (hw : w.isInteger = true) (d : ℤ) :
    (v.shifted d).difference (w.shifted d) = v.difference w := by
  obtain ⟨m, rfl⟩ := exists_int hv
  obtain ⟨n, rfl⟩ := exists_int hw
  have hsub : m + d - (n + d) = m - n := by omega
  simp only [shifted, difference, number?, Number.sub, Number.combine, hsub]

end Value

/-- Places move without changing which comes first. -/
lemma Order.pairLess_shifted {p q : Value × Value}
    (hp : p.1.isInteger = true ∧ p.2.isInteger = true)
    (hq : q.1.isInteger = true ∧ q.2.isInteger = true) (d e : ℤ) :
    pairLess (p.1.shifted d, p.2.shifted e) (q.1.shifted d, q.2.shifted e) = pairLess p q := by
  obtain ⟨y, hy⟩ := Value.exists_int hp.1
  obtain ⟨x, hx⟩ := Value.exists_int hp.2
  obtain ⟨y', hy'⟩ := Value.exists_int hq.1
  obtain ⟨x', hx'⟩ := Value.exists_int hq.2
  have hwhole := fun n => (Value.isWhole_int n).1
  have hint := fun n => (Value.isWhole_int n).2
  rw [pairLess_eq_grid (by simp [hy, hx, Value.shifted, hwhole])
    (by simp [hy', hx', Value.shifted, hwhole]), pairLess_eq_grid (by simp [hy, hx, hwhole])
    (by simp [hy', hx', hwhole])]
  simp [grid, hy, hx, hy', hx', Value.shifted, hint, Prod.Lex.toLex_lt_toLex]

namespace Scene

/-- The coordinates of all blocks are integers. -/
def OnIntegers (s : Scene) : Prop :=
  ∀ b ∈ s.blocks, b.x.isInteger = true ∧ b.y.isInteger = true

instance (s : Scene) : Decidable s.OnIntegers := inferInstanceAs (Decidable (∀ b ∈ s.blocks, _))

/-- The place of a block, moved with the drawing. -/
def shiftedPlace (dx dy : ℤ) (b : Block) : Value × Value := (b.x.shifted dx, b.y.shifted dy)

/-- The scene with its drawing moved as a whole. -/
def shifted (s : Scene) (dx dy : ℤ) : Scene := s.redrawn (shiftedPlace dx dy)

variable {s : Scene} {dx dy : ℤ} {l : Links} {a b : Block}

lemma distance_shifted (hs : s.OnIntegers) (ha : a ∈ s.blocks) (hb : b ∈ s.blocks) :
    (a.movedTo (shiftedPlace dx dy a)).distance (b.movedTo (shiftedPlace dx dy b)) =
      a.distance b := by
  have hx : (b.x.shifted dx).difference (a.x.shifted dx) = b.x.difference a.x :=
    Value.difference_shifted (hs b hb).1 (hs a ha).1 dx
  have hy : (b.y.shifted dy).difference (a.y.shifted dy) = b.y.difference a.y :=
    Value.difference_shifted (hs b hb).2 (hs a ha).2 dy
  simp only [Block.distance, Block.movedTo, shiftedPlace, hx, hy]

lemma pairLess_shifted (hs : s.OnIntegers) (ha : a ∈ s.blocks) (hb : b ∈ s.blocks) :
    Order.pairLess (a.movedTo (shiftedPlace dx dy a)).position
      (b.movedTo (shiftedPlace dx dy b)).position = Order.pairLess a.position b.position :=
  @Order.pairLess_shifted a.position b.position (hs a ha).symm (hs b hb).symm dy dx

lemma blockTable_redrawn (s : Scene) (place : Block → Value × Value) (v : Value) :
    (s.redrawn place).blockTable.get? v =
      (s.blockTable.get? v).map fun b => b.movedTo (place b) := by
  rw [blockTable_get?, blockTable_get?, redrawn_blocks, ← List.map_reverse, List.find?_map]
  rfl

/-- The blocks at the ends of a wire, each at its new place. -/
def movedEnds (place : Block → Value × Value) (ends : (Value × Block) × (Value × Block)) :
    (Value × Block) × (Value × Block) :=
  ((ends.1.1, ends.1.2.movedTo (place ends.1.2)), (ends.2.1, ends.2.2.movedTo (place ends.2.2)))

lemma wireEnds?_redrawn (s : Scene) (place : Block → Value × Value) (owners : Dict Value)
    (c : Connection) :
    wireEnds? owners (s.redrawn place).blockTable c =
      Option.map (movedEnds place) <$> wireEnds? owners s.blockTable c := by
  simp only [wireEnds?, blockTable_redrawn, map_bind]
  refine bind_congr fun _ => bind_congr fun _ => ?_
  split
  · rename_i v w _ _
    split_ifs
    · simp only [map_bind]
      refine bind_congr fun _ => bind_congr fun _ => ?_
      cases s.blockTable.get? v with
      | none => rfl
      | some a =>
        cases s.blockTable.get? w with
        | none => rfl
        | some b => rfl
    · rfl
  · rfl

/-- A scene whose distances do not change keeps its graph. -/
lemma links_redrawn {place : Block → Value × Value}
    (h : ∀ a ∈ s.blocks, ∀ b ∈ s.blocks,
      (a.movedTo (place a)).distance (b.movedTo (place b)) = a.distance b) :
    (s.redrawn place).links = s.links := by
  have hkeys : (s.redrawn place).blocks.forM (·.id.requireKey) =
      s.blocks.forM (·.id.requireKey) := forM_hom _ _ fun _ => rfl
  have hadd : addWire (s.redrawn place).portOwners (s.redrawn place).blockTable =
      addWire s.portOwners s.blockTable := by
    funext m c
    have howners : (s.redrawn place).portOwners = s.portOwners := rfl
    rw [addWire, addWire, howners, wireEnds?_redrawn, bind_map_left]
    cases hends : wireEnds? s.portOwners s.blockTable c with
    | error fault => rfl
    | ok ends =>
      rw [ok_bind, ok_bind]
      cases hjoined : s.ends? c with
      | none =>
        rw [wireEnds?_eq_ok hends, hjoined]
        rfl
      | some joined =>
        obtain ⟨ha, hb⟩ := Measured.ends_mem hjoined
        rw [wireEnds?_eq_ok hends, hjoined]
        simp only [Option.map_some, movedEnds, h _ ha _ hb]
  rw [links, links, hkeys, hadd]
  rfl

lemma positionOf_shifted {id : Value} (h : s.findBlock id = some b) :
    (s.shifted dx dy).positionOf id = (b.movedTo (shiftedPlace dx dy b)).position := by
  have hmoved : (s.shifted dx dy).findBlock id = some (b.movedTo (shiftedPlace dx dy b)) := by
    rw [Scene.findBlock] at h
    rw [Scene.findBlock, shifted, redrawn_blocks, List.find?_map]
    exact congrArg (Option.map _) h
  rw [positionOf, hmoved]

/-- What a wire leads to is found, where every id equals itself. -/
lemma exists_findBlock (hids : ∀ b ∈ s.blocks, b.id.equals b.id = true) (hl : s.links = .ok l)
    {id : Value} {t : Value × Double} (ht : t ∈ l.next id) : ∃ b, s.findBlock t.1 = some b := by
  obtain ⟨w, hw, -, rfl⟩ := (mem_next hl).mp ht
  obtain ⟨-, b, hb, hsame⟩ := wire_ends hw
  have hequals : b.id.equals w.target = true := by
    rw [Value.equals_congr_right b.id hsame]
    exact hids b hb
  rw [← Option.isSome_iff_exists]
  exact List.find?_isSome.mpr ⟨b, hb, hequals⟩

lemma sortByPlace_shifted (hs : s.OnIntegers) (hids : ∀ b ∈ s.blocks, b.id.equals b.id = true)
    (hl : s.links = .ok l) (id : Value) :
    (s.shifted dx dy).sortByPlace (l.next id) = s.sortByPlace (l.next id) := by
  have hless : ∀ t ∈ l.next id, ∀ u ∈ l.next id,
      Order.pairLess ((s.shifted dx dy).positionOf t.1) ((s.shifted dx dy).positionOf u.1) =
        Order.pairLess (s.positionOf t.1) (s.positionOf u.1) := by
    intro t ht u hu
    obtain ⟨b, hb⟩ := exists_findBlock hids hl ht
    obtain ⟨c, hc⟩ := exists_findBlock hids hl hu
    rw [positionOf_shifted hb, positionOf_shifted hc, positionOf, positionOf, hb, hc]
    exact pairLess_shifted hs (findBlock_mem hb) (findBlock_mem hc)
  have hsort := Order.sort_map_of_mem (g := fun t => t) hless
  rw [List.map_id'] at hsort
  rw [sortByPlace, sortByPlace, Order.sortOn, Order.sortOn, hsort]
  simp

/-- A drawing that is moved as a whole keeps its graph and its order. -/
lemma sameOrder_shifted (hs : s.OnIntegers) (hids : ∀ b ∈ s.blocks, b.id.equals b.id = true)
    (dx dy : ℤ) : (s.shifted dx dy).SameOrder s := by
  have hlinks : (s.shifted dx dy).links = s.links :=
    links_redrawn fun a ha b hb => distance_shifted hs ha hb
  refine ⟨List.map_map, hlinks, fun hl id => ?_, fun keep hkeep => ?_⟩
  · rw [hlinks] at hl
    exact sortByPlace_shifted hs hids hl id
  · have hmoved : ∀ b : Block, keep (b.movedTo (shiftedPlace dx dy b)) = keep b := by
      intro b
      rw [← hkeep, ← hkeep b]
      rfl
    have hsort : sortBlocks ((s.blocks.filter keep).map fun b =>
        b.movedTo (shiftedPlace dx dy b)) =
        List.map (fun b => b.movedTo (shiftedPlace dx dy b)) <$> sortBlocks (s.blocks.filter keep) :=
      Order.sort_map_of_mem fun a ha b hb =>
        pairLess_shifted hs (List.mem_filter.mp ha).1 (List.mem_filter.mp hb).1
    rw [shifted, redrawn_blocks, List.filter_map]
    simp only [Function.comp_def, hmoved]
    rw [hsort, Functor.map_map]
    simp only [List.map_map]
    rfl

end Scene

lemma Scene.SameOrder.refl (s : Scene) : s.SameOrder s :=
  ⟨rfl, rfl, fun _ _ => rfl, fun _ _ => rfl⟩

namespace Project

/-- Moving the whole drawing of a scene does not change the script. The coordinates of its blocks are
integers, and every id equals itself. -/
theorem script_of_shifted_scene {p : Project} {before after : List Scene} {s : Scene}
    (hp : p.scenes = before ++ s :: after) (hs : s.OnIntegers)
    (hids : ∀ b ∈ s.blocks, b.id.equals b.id = true) (dx dy : ℤ) :
    { p with scenes := before ++ s.shifted dx dy :: after }.script = p.script := by
  have hsame : ∀ scenes : List Scene, List.Forall₂ Scene.SameOrder scenes scenes :=
    fun scenes => List.forall₂_same.mpr fun t _ => .refl t
  have horder : Project.SameOrder { p with scenes := before ++ s.shifted dx dy :: after } p := by
    refine ⟨?_, rfl, rfl⟩
    rw [hp]
    exact List.rel_append (hsame before)
      (.cons (Scene.sameOrder_shifted hs hids dx dy) (hsame after))
  exact horder.script_eq

/-- Two starts with two ways each. The first way of the first start has the given id. -/
def twoForks (id : Value) : Scene where
  id := .text "s"
  name := .text "Scene"
  label := .text "start"
  blocks :=
    [Scene.startBlock "one" "one" 0 0, Scene.startBlock "two" "two" 100 0,
      { Scene.toldBlock "n" 0 3 with id }, Scene.toldBlock "w" 0 4, Scene.toldBlock "p" 100 3,
      Scene.toldBlock "q" 104 3]
  ports :=
    [{ id := .text "one.o", nodeId := .text "one", name := .text "out", direction := .output },
      { id := .text "two.o", nodeId := .text "two", name := .text "out", direction := .output },
      { id := .text "n.i", nodeId := id, name := .text "in", direction := .input },
      { id := .text "w.i", nodeId := .text "w", name := .text "in", direction := .input },
      { id := .text "p.i", nodeId := .text "p", name := .text "in", direction := .input },
      { id := .text "q.i", nodeId := .text "q", name := .text "in", direction := .input }]
  connections :=
    [{ id := .text "1", fromPort := .text "one.o", toPort := .text "n.i" },
      { id := .text "2", fromPort := .text "one.o", toPort := .text "w.i" },
      { id := .text "3", fromPort := .text "two.o", toPort := .text "p.i" },
      { id := .text "4", fromPort := .text "two.o", toPort := .text "q.i" }]

/-- The script of a story with such a scene, up to the lines of the four ways. -/
def twoForksText (lines : List String) : String :=
  "# Generated by RenPy Node Editor\n" ++
  "# This file is auto-generated. Do not edit manually.\n\n" ++
  "define narrator = Character('Narrator')\n\n\n" ++
  "# Игра начинается здесь:\nlabel start:\n    jump one\nlabel one:\nlabel two:\n" ++
  Text.concat (lines.map fun line => "    \"" ++ line ++ "\"\n") ++ "\n"

def twoForksStory (s : Scene) : Project where
  name := .text "story"
  scenes := [s]

/-- The drawing moves past the origin, and the script stays. -/
theorem twoForks_shifted :
    (twoForks (.text "n")).OnIntegers ∧
      (∀ b ∈ (twoForks (.text "n")).blocks, b.id.equals b.id = true) ∧
      (twoForksStory (twoForks (.text "n"))).script = .ok (twoForksText ["n", "p", "w", "q"]) ∧
      (twoForksStory ((twoForks (.text "n")).shifted (-200) (-10))).script =
        .ok (twoForksText ["n", "p", "w", "q"]) := by
  have hs : (twoForks (.text "n")).OnIntegers := by decide
  have hids : ∀ b ∈ (twoForks (.text "n")).blocks, b.id.equals b.id = true := by decide
  have hscript : (twoForksStory (twoForks (.text "n"))).script =
      .ok (twoForksText ["n", "p", "w", "q"]) := eq_ok_of_toOption (by decide +kernel)
  have hscenes : (twoForksStory (twoForks (.text "n"))).scenes = [] ++ twoForks (.text "n") :: [] :=
    rfl
  refine ⟨hs, hids, hscript, ?_⟩
  rw [← hscript]
  exact script_of_shifted_scene hscenes hs hids (-200) (-10)

/-- Under a not-a-number as its id a block stays at the origin, past which the others move. -/
theorem twoForks_nan_shifted :
    (twoForks (.float .nan)).OnIntegers ∧
      (twoForksStory (twoForks (.float .nan))).script = .ok (twoForksText ["p", "w", "q", "n"]) ∧
      (twoForksStory ((twoForks (.float .nan)).shifted (-10) (-10))).script =
        .ok (twoForksText ["w", "p", "q", "n"]) ∧
      twoForksText ["w", "p", "q", "n"] ≠ twoForksText ["p", "w", "q", "n"] :=
  ⟨by decide, eq_ok_of_toOption (by decide +kernel), eq_ok_of_toOption (by decide +kernel),
    by decide +kernel⟩

end Project
end NovelGraph
