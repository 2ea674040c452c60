import Mathlib.Data.List.Pairwise
import NovelGraph.Order
import NovelGraph.Proofs.Outcome

/-! Sorting by runs and binary insertion: nothing is lost, and for an order that never fails the
result ascends and keeps equal items in their old order. -/
namespace NovelGraph.Order

open Outcome

variable {α κ : Type}

section Pairs

variable {a b : α} {items : List α}

lemma pair_sublist_cons {c : α} :
    [a, b].Sublist (c :: items) ↔ [a, b].Sublist items ∨ (a = c ∧ b ∈ items) := by
  rw [List.sublist_cons_iff]
  constructor
  · rintro (h | ⟨rest, he, h⟩)
    · exact .inl h
    · cases he
      exact .inr ⟨rfl, List.singleton_sublist.mp h⟩
  · rintro (h | ⟨rfl, h⟩)
    · exact .inl h
    · exact .inr ⟨[b], rfl, List.singleton_sublist.mpr h⟩

/-- Two items stand one behind the other in joined lists if they do in one of the two, or the first
stands in one and the second in the other. -/
lemma pair_sublist_append {others : List α} :
    [a, b].Sublist (items ++ others) ↔
      [a, b].Sublist items ∨ (a ∈ items ∧ b ∈ others) ∨ [a, b].Sublist others := by
  induction items with
  | nil => simp
  | cons c rest ih =>
    rw [List.cons_append, pair_sublist_cons, pair_sublist_cons, ih, List.mem_append, List.mem_cons,
      or_and_right, and_or_left]
    simp only [or_assoc, or_left_comm, or_comm]

lemma pair_sublist_filter {p : α → Bool} (ha : p a = true) (hb : p b = true) :
    [a, b].Sublist (items.filter p) ↔ [a, b].Sublist items := by
  constructor
  · intro h
    exact h.trans List.filter_sublist
  · intro h
    have hfilter := h.filter p
    rwa [List.filter_cons_of_pos ha, List.filter_cons_of_pos hb, List.filter_nil] at hfilter

lemma pair_sublist_total (ha : a ∈ items) (hb : b ∈ items) (hne : a ≠ b) :
    [a, b].Sublist items ∨ [b, a].Sublist items := by
  obtain ⟨before, after, rfl⟩ := List.append_of_mem ha
  rw [pair_sublist_append, pair_sublist_append, pair_sublist_cons, pair_sublist_cons]
  rcases List.mem_append.mp hb with hb | hb
  · exact .inr (.inr (.inl ⟨hb, List.mem_cons_self⟩))
  · exact .inl (.inr (.inr (.inr ⟨rfl, (List.mem_cons.mp hb).resolve_left hne.symm⟩)))

lemma pair_sublist_asymm (hd : items.Nodup) (h : [a, b].Sublist items) :
    ¬[b, a].Sublist items := by
  induction items with
  | nil => simp at h
  | cons c rest ih =>
    obtain ⟨hc, hrest⟩ := List.nodup_cons.mp hd
    intro hback
    have hmem : ∀ {x y : α}, [x, y].Sublist rest → x ∈ rest ∧ y ∈ rest :=
      fun hs => ⟨hs.subset (by simp), hs.subset (by simp)⟩
    rcases pair_sublist_cons.mp h with hin | ⟨rfl, -⟩
    · rcases pair_sublist_cons.mp hback with hback | ⟨rfl, -⟩
      · exact ih hrest hin hback
      · exact hc (hmem hin).2
    · rcases pair_sublist_cons.mp hback with hback | ⟨rfl, hback⟩
      · exact hc (hmem hback).2
      · exact hc hback

/-- What stands before an item in a list without repetitions. -/
lemma pair_sublist_cut {before after : List α} (hd : (before ++ b :: after).Nodup) :
    [a, b].Sublist (before ++ b :: after) ↔ a ∈ before := by
  rw [List.nodup_append, List.nodup_cons] at hd
  obtain ⟨-, ⟨hafter, -⟩, hdisjoint⟩ := hd
  have hbefore : b ∉ before := fun hmem => hdisjoint b hmem b List.mem_cons_self rfl
  rw [pair_sublist_append, pair_sublist_cons]
  constructor
  · rintro (h | ⟨ha, -⟩ | h | ⟨-, h⟩)
    · exact absurd (h.subset (by simp)) hbefore
    · exact ha
    · exact absurd (h.subset (by simp)) hafter
    · exact absurd h hafter
  · exact fun ha => .inr (.inl ⟨ha, List.mem_cons_self⟩)

/-- Lists without repetitions are equal if they hold the same items and pairs have one order. -/
lemma eq_of_pair_sublist {items out : List α} (hperm : items.Perm out) (hd : out.Nodup)
    (h : ∀ {a b}, [a, b].Sublist items → [a, b].Sublist out) : items = out := by
  have hitems : items.Pairwise fun a b => [a, b].Sublist out :=
    List.pairwise_iff_forall_sublist.mpr h
  have hout : out.Pairwise fun a b => [a, b].Sublist out :=
    List.pairwise_iff_forall_sublist.mpr id
  refine hperm.eq_of_pairwise ?_ hitems hout
  intro a b _ _ hab hba
  exact absurd hba (pair_sublist_asymm hd hab)

lemma eq_filter_append_of_pairwise {low : α → Bool} {items : List α}
    (h : items.Pairwise fun a b => low b = true → low a = true) :
    items = items.filter low ++ items.filter (!low ·) := by
  induction items with
  | nil => rfl
  | cons a rest ih =>
    obtain ⟨ha, hrest⟩ := List.pairwise_cons.mp h
    cases hl : low a with
    | true =>
      rw [List.filter_cons_of_pos hl, List.filter_cons_of_neg (by simp [hl]), List.cons_append,
        ← ih hrest]
    | false =>
      -- behind an item that is not low nothing is
      have hnone : rest.filter low = [] := by
        rw [List.filter_eq_nil_iff]
        intro b hb hlb
        simp [ha b hb hlb] at hl
      have hself := ih hrest
      rw [hnone, List.nil_append] at hself
      rw [List.filter_cons_of_neg (by simp [hl]), List.filter_cons_of_pos (by simp [hl]), hnone,
        List.nil_append, ← hself]

end Pairs

section Permutation

variable {lt : α → α → Except Fault Bool}

lemma insert_perm {sorted out : List α} {item : α} (h : insert lt sorted item = .ok out) :
    out.Perm (sorted ++ [item]) := by
  rw [insert, bind_eq_ok] at h
  obtain ⟨n, -, h⟩ := h
  rw [pure_eq_ok] at h
  subst h
  have hcut : (sorted.take n ++ item :: sorted.drop n).Perm
      (item :: (sorted.take n ++ sorted.drop n)) := List.perm_middle
  rw [List.take_append_drop] at hcut
  exact hcut.trans (List.perm_append_singleton item sorted).symm

lemma foldlM_insert_perm {items sorted out : List α}
    (h : items.foldlM (insert lt) sorted = .ok out) : out.Perm (sorted ++ items) := by
  induction items generalizing sorted with
  | nil =>
    rw [List.foldlM_nil, pure_eq_ok] at h
    simp [h]
  | cons a rest ih =>
    rw [List.foldlM_cons, bind_eq_ok] at h
    obtain ⟨next, hn, h⟩ := h
    have hone := (insert_perm hn).append_right rest
    rw [List.append_assoc] at hone
    exact (ih h).trans hone

lemma ascendingRun_append {last : α} {items run others : List α}
    (h : ascendingRun lt last items = .ok (run, others)) : run ++ others = items := by
  induction items generalizing last run with
  | nil =>
    cases h
    rfl
  | cons a rest ih =>
    rw [ascendingRun, bind_eq_ok] at h
    obtain ⟨less, -, h⟩ := h
    cases less with
    | true =>
      cases h
      rfl
    | false =>
      obtain ⟨⟨tail, left⟩, ht, h⟩ := bind_eq_ok.mp h
      cases h
      rw [List.cons_append, ih ht]

lemma descendingRun_append {last : α} {items run others : List α}
    (h : descendingRun lt last items = .ok (run, others)) : run ++ others = items := by
  induction items generalizing last run with
  | nil =>
    cases h
    rfl
  | cons a rest ih =>
    rw [descendingRun, bind_eq_ok] at h
    obtain ⟨less, -, h⟩ := h
    cases less with
    | false =>
      cases h
      rfl
    | true =>
      obtain ⟨⟨tail, left⟩, ht, h⟩ := bind_eq_ok.mp h
      cases h
      rw [List.cons_append, ih ht]

/-- Whatever the comparison does, a sort that succeeds returns the items that it was given. -/
theorem sort_perm {items out : List α} (h : sort lt items = .ok out) : out.Perm items := by
  match items with
  | [] => cases h; exact .refl _
  | [a] => cases h; exact .refl _
  | a :: b :: rest =>
    rw [sort, bind_eq_ok] at h
    obtain ⟨less, -, h⟩ := h
    cases less with
    | true =>
      obtain ⟨⟨run, others⟩, hr, h⟩ := bind_eq_ok.mp h
      rw [← descendingRun_append hr]
      exact (foldlM_insert_perm h).trans ((List.reverse_perm _).append_right others)
    | false =>
      obtain ⟨⟨run, others⟩, hr, h⟩ := bind_eq_ok.mp h
      rw [← ascendingRun_append hr]
      exact foldlM_insert_perm h

theorem sortOn_perm {key : α → κ} {less : κ → κ → Except Fault Bool} {items out : List α}
    (h : sortOn key less items = .ok out) : out.Perm items := sort_perm h

theorem sortByKey_perm (key : α → κ) (less : κ → κ → Bool) (items : List α) :
    (sortByKey key less items).Perm items := by
  unfold sortByKey
  split
  · rename_i sorted h
    exact sortOn_perm h
  · exact .refl _

end Permutation

/-- A comparison that orders items up to ties. -/
structure IsWeakOrder (less : α → α → Bool) : Prop where
  asymm : ∀ {a b}, less a b = true → less b a = false
  split : ∀ {a c} b, less a c = true → less a b = true ∨ less b c = true

namespace IsWeakOrder

variable {less : α → α → Bool}

lemma ascending_trans (h : IsWeakOrder less) : IsTrans α fun a b => less b a = false := by
  constructor
  intro a b c hab hbc
  by_contra hca
  rcases h.split b (Bool.not_eq_false _ ▸ hca) with hcb | hba
  · simp [hcb] at hbc
  · simp [hba] at hab

lemma descending_trans (h : IsWeakOrder less) : IsTrans α fun a b => less b a = true := by
  constructor
  intro a b c hab hbc
  rcases h.split a hbc with hca | hab'
  · exact hca
  · simp [h.asymm hab] at hab'

end IsWeakOrder

/-- The items of a list in ascending order, with ties in the order of the list. -/
structure StablySorted (less : α → α → Bool) (items out : List α) : Prop where
  perm : out.Perm items
  sorted : out.Pairwise fun a b => less b a = false
  stable : ∀ {a b}, [a, b].Sublist items → less b a = false → [a, b].Sublist out

/-- Two items keep their order exactly if the second is not less. -/
lemma StablySorted.pair_sublist_iff {less : α → α → Bool} {items out : List α}
    (h : StablySorted less items out) {a b : α} (hab : [a, b].Sublist items) :
    [a, b].Sublist out ↔ less b a = false := by
  constructor
  · intro hout
    have hpair := h.sorted.sublist hout
    rwa [List.pairwise_pair] at hpair
  · exact h.stable hab

/-- What is less than all else comes first, in its old order. -/
lemma StablySorted.eq_filter_append {less : α → α → Bool} {items out : List α}
    (h : StablySorted less items out) (hd : items.Nodup) {low : α → Bool}
    (hties : ∀ {a b}, low a = true → low b = true → less b a = false)
    (hless : ∀ {a b}, low a = true → low b = false → less a b = true) :
    out = items.filter low ++ out.filter (!low ·) := by
  have hfirst : items.filter low = out.filter low := by
    refine eq_of_pair_sublist (h.perm.symm.filter low) ((h.perm.nodup_iff.mpr hd).filter low) ?_
    intro a b hab
    have ha := (List.mem_filter.mp (hab.subset (by simp : a ∈ [a, b]))).2
    have hb := (List.mem_filter.mp (hab.subset (by simp : b ∈ [a, b]))).2
    rw [pair_sublist_filter ha hb] at hab ⊢
    exact h.stable hab (hties ha hb)
  rw [hfirst]
  refine eq_filter_append_of_pairwise (h.sorted.imp ?_)
  intro a b hab hb
  by_contra ha
  simp [hless hb (Bool.not_eq_true _ ▸ ha)] at hab

section Stability

variable {less : α → α → Bool}

lemma insertionPoint_halve {sorted : List α} {item : α} (fuel : ℕ) {low high : ℕ}
    (h : low < high) (hm : low + (high - low) / 2 < sorted.length) :
    insertionPoint (fun a b => .ok (less a b)) item sorted (fuel + 1) low high =
      if less item sorted[low + (high - low) / 2] then
        insertionPoint (fun a b => .ok (less a b)) item sorted fuel low (low + (high - low) / 2)
      else insertionPoint (fun a b => .ok (less a b)) item sorted fuel
        (low + (high - low) / 2 + 1) high := by
  rw [insertionPoint, if_neg (by omega)]
  simp only [List.getElem?_eq_getElem hm]
  rfl

/-- Halving finds the place of an item in an ascending list: nothing before it is larger, all
behind it are. -/
lemma insertionPoint_bounds (hw : IsWeakOrder less) {sorted : List α}
    (hs : sorted.Pairwise fun a b => less b a = false) (item : α) (fuel low high : ℕ)
    (hfuel : high - low ≤ fuel) (hle : low ≤ high) (hlen : high ≤ sorted.length)
    (hbefore : ∀ x ∈ sorted.take low, less item x = false)
    (hbehind : ∀ x ∈ sorted.drop high, less item x = true) :
    ∃ n, insertionPoint (fun a b => .ok (less a b)) item sorted fuel low high = .ok n ∧
      (∀ x ∈ sorted.take n, less item x = false) ∧
      (∀ x ∈ sorted.drop n, less item x = true) := by
  induction fuel generalizing low high with
  | zero =>
    have he : high = low := by omega
    subst he
    exact ⟨high, rfl, hbefore, hbehind⟩
  | succ fuel ih =>
    by_cases hdone : high ≤ low
    · have he : high = low := by omega
      subst he
      exact ⟨high, by simp [insertionPoint], hbefore, hbehind⟩
    · have hm : low + (high - low) / 2 < sorted.length := by omega
      rw [insertionPoint_halve fuel (by omega) hm]
      have hp := hs
      rw [← List.take_append_drop (low + (high - low) / 2) sorted,
        List.drop_eq_getElem_cons hm, List.pairwise_append, List.pairwise_cons] at hp
      obtain ⟨-, ⟨hright, -⟩, hcross⟩ := hp
      cases hlt : less item sorted[low + (high - low) / 2] with
      | true =>
        refine ih low _ (by omega) (by omega) (by omega) hbefore ?_
        intro x hx
        rw [List.drop_eq_getElem_cons hm, List.mem_cons] at hx
        rcases hx with rfl | hx
        · exact hlt
        · refine (hw.split x hlt).resolve_right ?_
          simp [hright x hx]
      | false =>
        refine ih _ high (by omega) (by omega) (by omega) ?_ hbehind
        intro x hx
        rw [List.take_succ_eq_append_getElem hm, List.mem_append, List.mem_singleton] at hx
        rcases hx with hx | rfl
        · exact hw.ascending_trans.trans _ _ _ (hcross x hx _ List.mem_cons_self) hlt
        · exact hlt

lemma insert_stablySorted (hw : IsWeakOrder less) {items sorted : List α}
    (h : StablySorted less items sorted) (item : α) :
    ∃ out, insert (fun a b => .ok (less a b)) sorted item = .ok out ∧
      StablySorted less (items ++ [item]) out := by
  obtain ⟨n, hn, hbefore, hbehind⟩ := insertionPoint_bounds hw h.sorted item sorted.length 0
    sorted.length (by omega) (by omega) (by omega) (by simp) (by simp)
  have hins : insert (fun a b => .ok (less a b)) sorted item =
      .ok (sorted.take n ++ item :: sorted.drop n) := by
    rw [insert, hn]
    rfl
  have hcut := List.take_append_drop n sorted
  have hp := h.sorted
  rw [← hcut, List.pairwise_append] at hp
  refine ⟨_, hins, (insert_perm hins).trans (h.perm.append_right _), ?_, ?_⟩
  · rw [List.pairwise_append, List.pairwise_cons]
    refine ⟨hp.1, ⟨fun x hx => hw.asymm (hbehind x hx), hp.2.1⟩, ?_⟩
    intro x hx y hy
    rcases List.mem_cons.mp hy with rfl | hy
    · exact hbefore x hx
    · exact hp.2.2 x hx y hy
  · intro a b hab hle
    rcases pair_sublist_append.mp hab with hold | ⟨ha, hb⟩ | hnone
    · have hkept := h.stable hold hle
      rw [← hcut] at hkept
      exact hkept.trans ((List.Sublist.refl _).append (List.sublist_cons_self _ _))
    · -- a tie with the new item stands in the part before it
      obtain rfl := List.mem_singleton.mp hb
      have hmem : a ∈ sorted.take n := by
        have hin := h.perm.mem_iff.mpr ha
        rw [← hcut, List.mem_append] at hin
        refine hin.resolve_right fun hd => ?_
        simp [hbehind a hd] at hle
      exact (List.singleton_sublist.mpr hmem).append (by simp)
    · exact absurd hnone.length_le (by simp)

lemma foldlM_insert_stablySorted (hw : IsWeakOrder less) {items sorted : List α}
    (h : StablySorted less items sorted) (others : List α) :
    ∃ out, others.foldlM (insert fun a b => .ok (less a b)) sorted = .ok out ∧
      StablySorted less (items ++ others) out := by
  induction others generalizing items sorted with
  | nil => exact ⟨sorted, rfl, by simpa using h⟩
  | cons a rest ih =>
    obtain ⟨next, hn, hs⟩ := insert_stablySorted hw h a
    obtain ⟨out, ho, hout⟩ := ih hs
    refine ⟨out, ?_, by simpa using hout⟩
    rw [List.foldlM_cons, hn]
    exact ho

lemma ascendingRun_sorted (hw : IsWeakOrder less) (last : α) (items : List α) :
    ∃ run others, ascendingRun (fun a b => .ok (less a b)) last items = .ok (run, others) ∧
      (last :: run).Pairwise fun a b => less b a = false := by
  induction items generalizing last with
  | nil => exact ⟨[], [], rfl, by simp⟩
  | cons a rest ih =>
    cases hl : less a last with
    | true => exact ⟨[], a :: rest, by simp [ascendingRun, hl, bind, Except.bind, pure,
        Except.pure], by simp⟩
    | false =>
      obtain ⟨run, others, hr, hs⟩ := ih a
      refine ⟨a :: run, others, ?_, ?_⟩
      · simp [ascendingRun, hl, hr, bind, Except.bind, pure, Except.pure]
      · have := hw.ascending_trans
        exact List.Pairwise.cons_cons_of_trans hl hs

lemma descendingRun_sorted (hw : IsWeakOrder less) (last : α) (items : List α) :
    ∃ run others, descendingRun (fun a b => .ok (less a b)) last items = .ok (run, others) ∧
      (last :: run).Pairwise fun a b => less b a = true := by
  induction items generalizing last with
  | nil => exact ⟨[], [], rfl, by simp⟩
  | cons a rest ih =>
    cases hl : less a last with
    | false => exact ⟨[], a :: rest, by simp [descendingRun, hl, bind, Except.bind, pure,
        Except.pure], by simp⟩
    | true =>
      obtain ⟨run, others, hr, hs⟩ := ih a
      refine ⟨a :: run, others, ?_, ?_⟩
      · simp [descendingRun, hl, hr, bind, Except.bind, pure, Except.pure]
      · have := hw.descending_trans
        exact List.Pairwise.cons_cons_of_trans hl hs

/-- With an order that never fails, sorting succeeds and is stable. -/
theorem sort_stablySorted (hw : IsWeakOrder less) (items : List α) :
    ∃ out, sort (fun a b => .ok (less a b)) items = .ok out ∧ StablySorted less items out := by
  match items with
  | [] => exact ⟨[], rfl, .refl _, .nil, fun h _ => h⟩
  | [a] => exact ⟨[a], rfl, .refl _, by simp, fun h _ => h⟩
  | a :: b :: rest =>
    cases hl : less b a with
    | true =>
      obtain ⟨run, others, hr, hs⟩ := descendingRun_sorted hw b rest
      have hdown : (a :: b :: run).Pairwise fun x y => less y x = true := by
        have := hw.descending_trans
        exact List.Pairwise.cons_cons_of_trans hl hs
      -- a strictly descending run has no ties whose order could change
      have hrun : StablySorted less (a :: b :: run) (a :: b :: run).reverse := by
        refine ⟨List.reverse_perm _, ?_, ?_⟩
        · rw [List.pairwise_reverse]
          exact hdown.imp hw.asymm
        · intro x y hxy hle
          have hlt := List.pairwise_pair.mp (hdown.sublist hxy)
          simp [hlt] at hle
      obtain ⟨out, ho, hout⟩ := foldlM_insert_stablySorted hw hrun others
      refine ⟨out, ?_, ?_⟩
      · simpa [sort, hl, hr, bind, Except.bind] using ho
      · rwa [← descendingRun_append hr]
    | false =>
      obtain ⟨run, others, hr, hs⟩ := ascendingRun_sorted hw b rest
      have hup : (a :: b :: run).Pairwise fun x y => less y x = false := by
        have := hw.ascending_trans
        exact List.Pairwise.cons_cons_of_trans hl hs
      have hrun : StablySorted less (a :: b :: run) (a :: b :: run) :=
        ⟨.refl _, hup, fun h _ => h⟩
      obtain ⟨out, ho, hout⟩ := foldlM_insert_stablySorted hw hrun others
      refine ⟨out, ?_, ?_⟩
      · simpa [sort, hl, hr, bind, Except.bind] using ho
      · rwa [← ascendingRun_append hr]

end Stability

theorem sortByKey_stablySorted (key : α → κ) {less : κ → κ → Bool} (hw : IsWeakOrder less)
    (items : List α) :
    StablySorted (fun a b => less (key a) (key b)) items (sortByKey key less items) := by
  have hk : IsWeakOrder fun a b : α => less (key a) (key b) :=
    ⟨fun h => hw.asymm h, fun b h => hw.split (key b) h⟩
  obtain ⟨out, ho, hs⟩ := sort_stablySorted hk items
  simpa only [sortByKey, sortOn, ho] using hs

/-- Two items change places only if the second is less. -/
lemma sortByKey_pair (key : α → κ) (less : κ → κ → Bool) (a b : α) :
    sortByKey key less [a, b] = if less (key b) (key a) then [b, a] else [a, b] := by
  cases h : less (key b) (key a) with
  | true => simp [sortByKey, sortOn, sort, h, descendingRun, bind, Except.bind, pure, Except.pure]
  | false => simp [sortByKey, sortOn, sort, h, ascendingRun, bind, Except.bind, pure, Except.pure]

end NovelGraph.Order
