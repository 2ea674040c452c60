import NovelGraph.Proofs.CanvasEditing

/-! Editing sessions: whatever is done with a canvas that at first shows an empty scene, the scene
stays in order. -/
namespace NovelGraph.Canvas

variable {names : Nat → String} {c : Canvas} {s : Scene}

/-- What can be done with the canvas: a block is dropped, a wire is drawn from one plug along a path
to what lies under the end of it, a wire is deleted, some items are selected and deleted with these
answers to the questions, or the scene is loaded again. -/
inductive Gesture where
  | drop (format data : String) (x y : Value)
  | drag (hit : List Item) (start : Point) (control : Bool) (path : List Point) (under : List Item)
  | deleteWire (number : Nat)
  | deleteSelected (items : List Item) (answers : List Value)
  | reload

namespace Gesture

/-- The canvas while a wire is being drawn. -/
def drawn (hit : List Item) (start : Point) (control : Bool) (path : List Point) (c : Canvas) :
    Canvas :=
  path.foldl (fun c at_ => leaves (move at_) c) (leaves (press hit start true control) c)

/-- What a gesture leaves, also where a part of it fails. -/
def perform : Gesture → Canvas → Canvas
  | drop format data x y, c => leaves (dropBlock format data x y) c
  | drag hit start control path under, c =>
    leaves (release under) (drawn hit start control path c)
  | deleteWire number, c => leaves (Canvas.deleteWire number) c
  | deleteSelected items answers, c =>
    leaves deleteSelection { c.select items with desk := { c.desk with answers } }
  | reload, c => c.load c.project c.scene

/-- A wire is drawn from an output on the canvas, and a plug at which it ends is there as well. -/
def Fits (c : Canvas) : Gesture → Prop
  | drag hit _ _ _ under =>
    (∃ source, pressed? hit = some source ∧ c.HasPlug source ∧ source.isOutput = true) ∧
      ∀ p, under.head? = some (.plug p) → c.HasPlug p
  | _ => True

end Gesture

/-- The states of a session that starts with a project of one empty scene. -/
inductive Reachable (names : Nat → String) : Canvas → Prop
  | start {p : Project} {s : Scene} {desk : Desk} {textHeight : Value.Number}
      (hscenes : p.scenes = [s]) (hblocks : s.blocks = []) (hports : s.ports = [])
      (hconnections : s.connections = []) (hnames : desk.names = names) :
      Reachable names (load (some p) (some s) { desk, textHeight })
  | step {c : Canvas} (g : Gesture) (hc : Reachable names c) (hg : g.Fits c) :
      Reachable names (g.perform c)

lemma drawing_drawn {source : Plug} {hit : List Item} (hhit : pressed? hit = some source)
    (hout : source.isOutput = true) (start : Point) (control : Bool) (path : List Point)
    (c : Canvas) : Drawing source c (Gesture.drawn hit start control path c) :=
  List.foldlRecOn path _ (ends_press hhit hout start control).leaves
    fun _ hd at_ _ => (hd.ends_move at_).leaves

section Drags

variable {source : Plug} {hit under : List Item} (hn : Function.Injective names)
  (hhit : pressed? hit = some source) (hsource : c.HasPlug source)
  (hout : source.isOutput = true) (start : Point) (control : Bool) (path : List Point)
include hn hhit hsource hout

theorem InOrder.drag (hc : InOrder names c)
    (hunder : ∀ p, under.head? = some (.plug p) → c.HasPlug p) :
    InOrder names ((Gesture.drag hit start control path under).perform c) := by
  have hdrawn := drawing_drawn hhit hout start control path c
  have hseen : ∀ p, c.HasPlug p → HasPlug _ p := fun p hp => hp.of_resembles hdrawn.resembles
  exact ((hc.of_resembles hdrawn.resembles).ends_release hn (hseen source hsource) hout
    hdrawn.starts fun p hp => hseen p (hunder p hp)).leaves

/-- A wire that can be drawn from an output to an input connects them. -/
theorem Holds.drag {target : Plug} (hs : Holds names c s) (hnames : ∀ n, names n ≠ "")
    (hdraw : ∃ r, c.addWire .null source none = .ok r) (hunder : under.head? = some (.plug target))
    (htarget : c.HasPlug target) (hin : target.isOutput = false) :
    ∃ t, Holds names ((Gesture.drag hit start control path under).perform c) t ∧
      c.Joins source target s t := by
  have hdrawn := drawing_drawn hhit hout start control path c
  have hseen : ∀ p, c.HasPlug p → HasPlug _ p := fun p hp => hp.of_resembles hdrawn.resembles
  obtain ⟨⟨number, plug⟩, hdraft⟩ := Option.isSome_iff_exists.mp (hdrawn.begun hdraw)
  obtain rfl := hdrawn.starts number plug hdraft
  obtain ⟨t, ht, hjoins⟩ := ((hs.of_resembles hdrawn.resembles).ends_release hn
    (hseen plug hsource) hout hdraft hunder (hseen target htarget) hin).leaves
  exact ⟨t, ht, (hjoins hnames).of_resembles hdrawn.resembles⟩

end Drags

/-- Every gesture leaves the scene in order. -/
theorem InOrder.perform (hn : Function.Injective names) (hc : InOrder names c) {g : Gesture}
    (hg : g.Fits c) : InOrder names (g.perform c) := by
  cases g with
  | drop format data x y => exact (hc.ends_dropBlock hn format data x y).leaves
  | drag hit start control path under =>
    obtain ⟨⟨source, hhit, hsource, hout⟩, hunder⟩ := hg
    exact hc.drag hn hhit hsource hout start control path hunder
  | deleteWire number => exact (hc.ends_deleteWire number).leaves
  | deleteSelected items answers =>
    have hselected := hc.of_resembles (resembles_select c items)
    exact (InOrder.of_resembles hselected {}).ends_deleteSelection.leaves
  | reload => exact hc.reload hn

theorem Reachable.inOrder (hn : Function.Injective names) (hc : Reachable names c) :
    InOrder names c := by
  induction hc with
  | @start p s desk textHeight hscenes hblocks hports hconnections hnames =>
    refine Holds.load hn rfl (.cleared hscenes hnames ?_ ?_ ?_)
    · exact .empty hblocks hports hconnections
    · rw [hblocks]
      exact List.nodup_nil
    · rw [hblocks]
      exact fun _ hb => by cases hb
  | step g _ hg ih => exact ih.perform hn hg

section Rehearsal

/-- Ids that are told apart by their lengths. -/
def tally (n : Nat) : String := String.ofList (List.replicate (n + 1) 'i')

lemma tally_injective : Function.Injective tally := by
  intro m n h
  simpa [tally] using congrArg String.length h

def blank : Scene := { id := .text "s", name := .text "S", label := .text "s" }

def opening : Canvas :=
  load (some { name := .text "P", scenes := [blank] }) (some blank) { desk := { names := tally } }

/-- A block is dropped so many units to the right and down. -/
def dropAt (kind : String) (x y : ℕ) : Gesture :=
  .drop dragFormat kind (.float (Double.ofRatio false x 1)) (.float (Double.ofRatio false y 1))

/-- Three blocks are dropped, the last is deleted, and the scene is loaded again. -/
def rehearsal : Canvas :=
  [dropAt "START" 0 40, dropAt "SAY" 300 90, dropAt "SAY" 600 40,
    .deleteSelected [.box 2] [.bool true], .reload].foldl (fun c (g : Gesture) => g.perform c) opening

lemma rehearsal_reachable : Reachable tally rehearsal := by
  refine List.foldlRecOn _ _ (.start rfl rfl rfl rfl rfl) fun c hc g hg => hc.step g ?_
  simp only [List.mem_cons, List.not_mem_nil, or_false] at hg
  rcases hg with rfl | rfl | rfl | rfl | rfl <;> exact trivial

/-- The two blocks that are left are connected. -/
def connecting : Gesture :=
  .drag [.plug (.on 3 "out" true)] origin false [] [.plug (.on 4 "in" false)]

instance (c : Canvas) (p : Plug) : Decidable (c.HasPlug p) :=
  inferInstanceAs (Decidable (∃ x ∈ c.boxes, p ∈ x.plugs))

lemma rehearsal_plugs :
    rehearsal.HasPlug (.on 3 "out" true) ∧ rehearsal.HasPlug (.on 4 "in" false) := by
  decide +kernel

lemma connecting_reachable : Reachable tally (connecting.perform rehearsal) := by
  refine .step connecting rehearsal_reachable ⟨⟨_, rfl, rehearsal_plugs.1, rfl⟩, ?_⟩
  rintro p hp
  obtain rfl : Plug.on 4 "in" false = p := by simpa using hp
  exact rehearsal_plugs.2

lemma connecting_connections :
    (connecting.perform rehearsal).scene.map (·.connections.length) = some 1 := by
  decide +kernel

end Rehearsal

/-- Throughout a session the canvas shows the only scene of its project, and that scene is in
order. -/
theorem session_intact (hn : Function.Injective names) (hc : Reachable names c) :
    ∃ p s, c.project = some p ∧ p.scenes = [s] ∧ c.scene = some s ∧ s.Intact := by
  obtain ⟨s, hs⟩ := hc.inOrder hn
  obtain ⟨p, hp, hscenes⟩ := hs.project
  exact ⟨p, s, hp, hscenes, hs.scene, hs.sound.intact⟩

theorem rehearsal_intact : ∃ p s, (connecting.perform rehearsal).project = some p ∧ p.scenes = [s] ∧
    (connecting.perform rehearsal).scene = some s ∧ s.Intact ∧ s.connections.length = 1 := by
  obtain ⟨p, s, hp, hscenes, hs, hintact⟩ := session_intact tally_injective connecting_reachable
  have hone := connecting_connections
  rw [hs] at hone
  exact ⟨p, s, hp, hscenes, hs, hintact, Option.some.inj hone⟩

end NovelGraph.Canvas
