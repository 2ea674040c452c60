import NovelGraph.Proofs.NamedBlocks
import NovelGraph.Proofs.Stems

/-! Scenes that are made of lines: every block has at most one way in and one way out, and start
blocks have no way in. A line cannot come back to itself or run into another, so the lines of the
start blocks hold every block of the scene, once. -/
namespace NovelGraph

open Relation

namespace Scene

/-- The wires that lead to a block. -/
def wiresTo (s : Scene) (id : Value) : List Wire := s.wires.filter (id.same ·.target)

/-- What follows a block, up to a block that nothing follows. -/
inductive Line (s : Scene) : Block → List Block → Prop
  | last {b : Block} (none : s.wiresFrom b.id = []) : Line s b []
  | next {b c : Block} {rest : List Block} (only : s.OnlyNext b c) (mem : c ∈ s.blocks)
      (behind : s.Line c rest) : Line s b (c :: rest)

/-- Scenes without control blocks, where no wires part or meet. Every block is on the way from a
start block; these have labels, and nothing leads to them. -/
structure Linear (s : Scene) : Prop extends s.Named where
  plain : ∀ b ∈ s.blocks, b.kind.isControl = false
  out : ∀ b ∈ s.blocks, (s.wiresFrom b.id).length ≤ 1
  into : ∀ b ∈ s.blocks, (s.wiresTo b.id).length ≤ 1
  starts : ∀ b ∈ s.blocks, b.kind = .start → s.wiresTo b.id = []
  labels : ∀ b ∈ s.blocks, b.kind = .start → ∃ label, label ≠ "" ∧ b.startLabel = .ok label
  reached : ∀ b ∈ s.blocks, b.kind ≠ .start →
    ∃ start ∈ s.blocks, start.kind = .start ∧ TransGen s.Wired start b

variable {s : Scene} {a b c d e : Block} {line : List Block}

lemma Wired.congr_right (h : s.Wired a b) (hc : c.id.same b.id = true) : s.Wired a c := by
  obtain ⟨w, hw, hsource, htarget⟩ := h
  exact ⟨w, hw, hsource, Value.same_trans hc htarget⟩

lemma transGen_congr_right (h : TransGen s.Wired a b) (hc : c.id.same b.id = true) :
    TransGen s.Wired a c := by
  obtain ⟨d, had, hdb⟩ := TransGen.tail'_iff.mp h
  exact TransGen.tail'_iff.mpr ⟨d, had, hdb.congr_right hc⟩

namespace Linear

variable (hs : s.Linear)

include hs

lemma same_of_wired (ha : s.Wired a b) (hc : s.Wired c b) : a.id.same c.id = true := by
  obtain ⟨w, hw, hsource, htarget⟩ := ha
  obtain ⟨v, hv, hsource', htarget'⟩ := hc
  obtain ⟨-, d, hd, hwd⟩ := wire_ends hw
  have hdb := Value.same_symm (Value.same_trans htarget hwd)
  have hmem : ∀ u ∈ s.wires, b.id.same u.target = true → u ∈ s.wiresTo d.id :=
    fun u hu hub => List.mem_filter.mpr ⟨hu, Value.same_trans hdb hub⟩
  have hone := hs.into d hd
  match hto : s.wiresTo d.id with
  | [] =>
    have hin := hmem w hw htarget
    simp [hto] at hin
  | [u] =>
    have hin := hmem w hw htarget
    have hin' := hmem v hv htarget'
    rw [hto, List.mem_singleton] at hin hin'
    subst hin hin'
    exact Value.same_trans hsource (Value.same_symm hsource')
  | _ :: _ :: _ => simp [hto] at hone

lemma not_wired_start (hb : b ∈ s.blocks) (hk : b.kind = .start) : ¬s.Wired a b := by
  rintro ⟨w, hw, -, htarget⟩
  have hmem : w ∈ s.wiresTo b.id := List.mem_filter.mpr ⟨hw, htarget⟩
  simp [hs.starts b hb hk] at hmem

/-- On the way from a block without a way in there are no circles. -/
lemma not_circle (hfree : ∀ a, ¬s.Wired a e) (h : ReflTransGen s.Wired e b) :
    ¬TransGen s.Wired b b := by
  induction h with
  | refl =>
    intro hloop
    obtain ⟨a, -, ha⟩ := TransGen.tail'_iff.mp hloop
    exact hfree a ha
  | @tail a b _ hab ih =>
    intro hloop
    obtain ⟨c, hbc, hcb⟩ := TransGen.tail'_iff.mp hloop
    exact ih (transGen_congr_right (TransGen.head' hab hbc) (hs.same_of_wired hab hcb))

lemma acyclic (hb : b ∈ s.blocks) : ¬TransGen s.Wired b b := by
  by_cases hk : b.kind = .start
  · exact hs.not_circle (fun a => hs.not_wired_start hb hk) .refl
  · obtain ⟨start, hmem, hstart, hreach⟩ := hs.reached b hb hk
    exact hs.not_circle (fun a => hs.not_wired_start hmem hstart) hreach.to_reflTransGen

/-- There is only one block without a way in from which a block can be reached. -/
lemma same_root (hfree : ∀ a, ¬s.Wired a d) (hfree' : ∀ a, ¬s.Wired a e)
    (hb : ReflTransGen s.Wired d b) (hc : ReflTransGen s.Wired e c) (h : c.id.same b.id = true) :
    d.id.same e.id = true := by
  induction hb generalizing c with
  | refl =>
    rcases hc.cases_tail with rfl | ⟨a, -, hac⟩
    · exact Value.same_symm h
    · exact absurd (hac.congr_right (Value.same_symm h)) (hfree a)
  | @tail a b _ hab ih =>
    rcases hc.cases_tail with rfl | ⟨x, hx, hxc⟩
    · exact absurd (hab.congr_right h) (hfree' a)
    · exact ih hx (hs.same_of_wired (hxc.congr_right (Value.same_symm h)) hab)

/-- Every block begins a line. -/
theorem exists_line (hb : b ∈ s.blocks) : ∃ line, s.Line b line := by
  have htrans : IsTrans { b // b ∈ s.blocks } fun a b => TransGen s.Wired b.1 a.1 :=
    ⟨fun _ _ _ hab hbc => hbc.trans hab⟩
  have hirrefl : Std.Irrefl fun a b : { b // b ∈ s.blocks } => TransGen s.Wired b.1 a.1 :=
    ⟨fun b => hs.acyclic b.2⟩
  have hwf := Finite.wellFounded_of_trans_of_irrefl
    fun a b : { b // b ∈ s.blocks } => TransGen s.Wired b.1 a.1
  suffices h : ∀ b : { b // b ∈ s.blocks }, ∃ line, s.Line b.1 line from h ⟨b, hb⟩
  intro b
  induction b using hwf.induction with
  | _ b ih =>
    have hone := hs.out b.1 b.2
    match hfrom : s.wiresFrom b.1.id with
    | [] => exact ⟨[], .last hfrom⟩
    | [w] =>
      have hw : w ∈ s.wires := (List.mem_filter.mp (hfrom ▸ List.mem_singleton_self w)).1
      obtain ⟨-, c, hc, hwc⟩ := wire_ends hw
      have honly : s.OnlyNext b.1 c := ⟨w, hfrom, Value.same_symm hwc⟩
      obtain ⟨rest, hrest⟩ := ih ⟨c, hc⟩ (.single honly.wired)
      exact ⟨c :: rest, .next honly hc hrest⟩
    | _ :: _ :: _ => simp [hfrom] at hone

end Linear

namespace Line

lemma subset (h : s.Line b line) : line ⊆ s.blocks := by
  induction h with
  | last => simp
  | next _ mem _ ih => exact List.cons_subset.mpr ⟨mem, ih⟩

lemma reaches (h : s.Line b line) : ∀ c ∈ line, TransGen s.Wired b c := by
  induction h with
  | last => simp
  | @next b c rest only _ _ ih =>
    intro d hd
    rcases List.mem_cons.mp hd with rfl | hd
    · exact .single only.wired
    · exact .head only.wired (ih d hd)

lemma reaches_refl (h : s.Line b line) (hc : c ∈ b :: line) : ReflTransGen s.Wired b c := by
  rcases List.mem_cons.mp hc with rfl | hc
  · exact .refl
  · exact (h.reaches c hc).to_reflTransGen

lemma nodup (hs : s.Linear) (h : s.Line b line) (hb : b ∈ s.blocks) : (b :: line).Nodup := by
  induction h with
  | last => simp
  | next only mem behind ih =>
    refine List.nodup_cons.mpr ⟨fun hmem => ?_, ih mem⟩
    exact hs.acyclic hb ((next only mem behind).reaches _ hmem)

/-- Lines are complete: they hold whatever their blocks lead to. -/
lemma exists_of_wired (h : s.Line b line) (hc : c ∈ b :: line) (hw : s.Wired c d) :
    ∃ d' ∈ line, d.id.same d'.id = true := by
  induction h with
  | @last b none =>
    obtain ⟨w, hw, hsource, -⟩ := hw
    rw [List.mem_singleton.mp hc] at hsource
    have hmem : w ∈ s.wiresFrom b.id := List.mem_filter.mpr ⟨hw, hsource⟩
    simp [none] at hmem
  | @next b x rest only _ _ ih =>
    rcases List.mem_cons.mp hc with rfl | hc
    · exact ⟨x, by simp, only.same_of_wired hw⟩
    · obtain ⟨d', hd', hsame⟩ := ih hc
      exact ⟨d', by simp [hd'], hsame⟩

lemma exists_of_reach (h : s.Line b line) (hd : TransGen s.Wired b d) :
    ∃ d' ∈ line, d.id.same d'.id = true := by
  induction hd with
  | single hw => exact h.exists_of_wired List.mem_cons_self hw
  | tail _ hw ih =>
    obtain ⟨a, ha, hsame⟩ := ih
    exact h.exists_of_wired (List.mem_cons_of_mem _ ha) (hw.congr_left (Value.same_symm hsame))

end Line

/-- A line from each of the start blocks, these in the order in which the scene begins with them. -/
structure Lines (s : Scene) (l : Links) (lines : List (Block × List Block)) : Prop where
  entries : s.entryBlocks l = .ok (lines.map (·.1))
  line : ∀ e ∈ lines, s.Line e.1 e.2

/-- The blocks of lines, one line after the other. -/
def inLines (lines : List (Block × List Block)) : List Block := lines.flatMap fun e => e.1 :: e.2

namespace Lines

variable {l : Links} {lines : List (Block × List Block)}

lemma start_of_mem (h : s.Lines l lines) (hstart : ∃ b ∈ s.blocks, b.kind = .start)
    {e : Block × List Block} (he : e ∈ lines) : e.1 ∈ s.blocks ∧ e.1.kind = .start := by
  have hmem := (entryBlocks_perm_of_start hstart h.entries).mem_iff.mp (List.mem_map_of_mem he)
  simpa using hmem

lemma subset (h : s.Lines l lines) (hstart : ∃ b ∈ s.blocks, b.kind = .start) :
    inLines lines ⊆ s.blocks := by
  intro b hb
  obtain ⟨e, he, hb⟩ := List.mem_flatMap.mp hb
  rcases List.mem_cons.mp hb with rfl | hb
  · exact (h.start_of_mem hstart he).1
  · exact (h.line e he).subset hb

/-- Lines have no block in common. -/
lemma nodup (hs : s.Linear) (h : s.Lines l lines) (hstart : ∃ b ∈ s.blocks, b.kind = .start) :
    (inLines lines).Nodup := by
  have hentries : (lines.map (·.1)).Nodup :=
    (entryBlocks_perm_of_start hstart h.entries).nodup_iff.mpr (hs.keys.nodup.filter _)
  rw [List.Nodup, List.pairwise_map] at hentries
  rw [inLines, List.nodup_flatMap]
  refine ⟨fun e he => (h.line e he).nodup hs (h.start_of_mem hstart he).1, ?_⟩
  refine hentries.imp_of_mem ?_
  intro d e hd he hne b hb hb'
  obtain ⟨hdmem, hdk⟩ := h.start_of_mem hstart hd
  obtain ⟨hemem, hek⟩ := h.start_of_mem hstart he
  refine hne (hs.keys.eq_of_same hdmem hemem ?_)
  exact hs.same_root (fun a => hs.not_wired_start hdmem hdk)
    (fun a => hs.not_wired_start hemem hek) ((h.line d hd).reaches_refl hb)
    ((h.line e he).reaches_refl hb') (Value.same_refl _)

/-- Every block stands on a line. -/
lemma mem (hs : s.Linear) (h : s.Lines l lines) (hstart : ∃ b ∈ s.blocks, b.kind = .start)
    (hb : b ∈ s.blocks) : b ∈ inLines lines := by
  have hentry : ∀ {a : Block}, a ∈ s.blocks → a.kind = .start → ∃ e ∈ lines, e.1 = a := by
    intro a ha hk
    rw [← List.mem_map, (entryBlocks_perm_of_start hstart h.entries).mem_iff]
    simp [ha, hk]
  rw [inLines, List.mem_flatMap]
  by_cases hk : b.kind = .start
  · obtain ⟨e, he, rfl⟩ := hentry hb hk
    exact ⟨e, he, List.mem_cons_self⟩
  · obtain ⟨start, hmem, hsk, hreach⟩ := hs.reached b hb hk
    obtain ⟨e, he, rfl⟩ := hentry hmem hsk
    obtain ⟨b', hb', hsame⟩ := (h.line e he).exists_of_reach hreach
    obtain rfl := hs.keys.eq_of_same hb ((h.line e he).subset hb') hsame
    exact ⟨e, he, List.mem_cons_of_mem _ hb'⟩

end Lines

/-- A scene that is not empty has a start block. -/
lemma Linear.exists_start (hs : s.Linear) (hne : s.blocks ≠ []) :
    ∃ b ∈ s.blocks, b.kind = .start := by
  obtain ⟨b, hb⟩ := List.exists_mem_of_ne_nil _ hne
  by_cases hk : b.kind = .start
  · exact ⟨b, hb, hk⟩
  · obtain ⟨start, hmem, hsk, -⟩ := hs.reached b hb hk
    exact ⟨start, hmem, hsk⟩

/-- The lines of a scene, from its start blocks on. -/
theorem Linear.exists_lines (hs : s.Linear) {l : Links} {starts : List Block}
    (hstart : ∃ b ∈ s.blocks, b.kind = .start) (he : s.entryBlocks l = .ok starts) :
    ∃ lines, s.Lines l lines := by
  have hmem : ∀ b ∈ starts, b ∈ s.blocks := by
    intro b hb
    exact List.mem_of_mem_filter ((entryBlocks_perm_of_start hstart he).mem_iff.mp hb)
  obtain ⟨lines, hlines, hline⟩ : ∃ lines : List (Block × List Block),
      lines.map (·.1) = starts ∧ ∀ e ∈ lines, s.Line e.1 e.2 := by
    clear he
    induction starts with
    | nil => exact ⟨[], rfl, by simp⟩
    | cons b rest ih =>
      obtain ⟨line, hline⟩ := hs.exists_line (hmem b (by simp))
      obtain ⟨lines, rfl, hlines⟩ := ih fun c hc => hmem c (by simp [hc])
      refine ⟨(b, line) :: lines, rfl, ?_⟩
      intro e he
      rcases List.mem_cons.mp he with rfl | he
      · exact hline
      · exact hlines e he
  exact ⟨lines, hlines ▸ he, hline⟩

end Scene
end NovelGraph
