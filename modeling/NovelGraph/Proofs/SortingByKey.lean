import Mathlib.Data.List.Sort
import NovelGraph.Proofs.Sorting
import NovelGraph.Proofs.Transport

/-! Sorting by a key that is ordered. It succeeds and is insertion sort, so an item more changes
nothing but that it stands in the result: behind what has a lower key, and behind the items with its
own key that it stood behind before. -/
namespace NovelGraph.Order

variable {α κ : Type} [LinearOrder κ] {key : α → κ}

lemma isWeakOrder_key (key : α → κ) : IsWeakOrder fun a b => decide (key a < key b) := by
  constructor
  · intro a b hab
    rw [decide_eq_true_eq] at hab
    exact decide_eq_false hab.asymm
  · intro a c b hac
    rw [decide_eq_true_eq] at hac
    rw [decide_eq_true_eq, decide_eq_true_eq]
    exact (lt_or_ge _ _).imp_right hac.trans_le'

section InsertionSort

/-- By key, and ties in any order. -/
def upTo (key : α → κ) (a b : α) : Prop := key a ≤ key b

instance (key : α → κ) : DecidableRel (upTo key) :=
  fun _ _ => inferInstanceAs (Decidable (_ ≤ _))

instance (key : α → κ) : Std.Total (upTo key) := ⟨fun a b => le_total (key a) (key b)⟩

instance (key : α → κ) : IsTrans α (upTo key) := ⟨fun _ _ _ => le_trans⟩

/-- The items of a list by key, ties in the order of the list. -/
def byKey (key : α → κ) (items : List α) : List α := items.insertionSort (upTo key)

lemma byKey_perm (key : α → κ) (items : List α) : (byKey key items).Perm items :=
  items.perm_insertionSort _

lemma byKey_sorted (key : α → κ) (items : List α) :
    (byKey key items).Pairwise (upTo key) := items.pairwise_insertionSort _

/-- Of items without repetitions there is only one stable order. -/
lemma StablySorted.eq_byKey {items out : List α}
    (h : StablySorted (fun a b => decide (key a < key b)) items out) (hd : items.Nodup) :
    byKey key items = out := by
  have hout : out.Nodup := h.perm.nodup_iff.mpr hd
  have hsorted : (byKey key items).Nodup := (byKey_perm key items).nodup_iff.mpr hd
  refine eq_of_pair_sublist ((byKey_perm key items).trans h.perm.symm) hout ?_
  intro a b hab
  have hle : upTo key a b := List.pairwise_pair.mp ((byKey_sorted key items).sublist hab)
  have hmem : ∀ c ∈ [a, b], c ∈ items := fun c hc =>
    (byKey_perm key items).mem_iff.mp (hab.subset hc)
  have ha := hmem a (by simp)
  have hb := hmem b (by simp)
  have hne : a ≠ b := List.pairwise_pair.mp (hsorted.sublist hab)
  rcases pair_sublist_total ha hb hne with hfirst | hback
  · exact h.stable hfirst (decide_eq_false (not_lt.mpr hle))
  · -- the two were exchanged, so the first is less
    have hlt : key a < key b := by
      refine lt_of_le_of_ne hle fun heq => ?_
      have hkept : [b, a].Sublist (byKey key items) :=
        List.pair_sublist_insertionSort (r := upTo key) heq.ge hback
      exact pair_sublist_asymm hsorted hab hkept
    refine (pair_sublist_total (h.perm.mem_iff.mpr ha) (h.perm.mem_iff.mpr hb) hne).resolve_right ?_
    intro hba
    have hge := List.pairwise_pair.mp (h.sorted.sublist hba)
    simp [hlt] at hge

/-- Where items are compared by a key, sorting them succeeds and is insertion sort. -/
theorem sort_eq_byKey {lt : α → α → Except Fault Bool} {items : List α}
    (h : ∀ a ∈ items, ∀ b ∈ items, lt a b = .ok (decide (key a < key b))) :
    sort lt items = .ok (byKey key items) := by
  -- numbered items are all different, and numbers have no part in the comparison
  have hnumbered : items.zipIdx.map (·.1) = items := by simp
  have hless : ∀ a ∈ items.zipIdx, ∀ b ∈ items.zipIdx,
      lt a.1 b.1 = .ok (decide (key a.1 < key b.1)) := fun a ha b hb =>
    h a.1 (List.fst_mem_of_mem_zipIdx ha) b.1 (List.fst_mem_of_mem_zipIdx hb)
  obtain ⟨out, hout, hsorted⟩ :=
    sort_stablySorted (isWeakOrder_key fun a : α × ℕ => key a.1) items.zipIdx
  have hd : items.zipIdx.Nodup := .of_map (·.2) (by simp [List.nodup_range'])
  have hkey : (byKey (fun a : α × ℕ => key a.1) items.zipIdx).map (·.1) =
      byKey key (items.zipIdx.map (·.1)) :=
    List.map_insertionSort _ (upTo key) (fun a : α × ℕ => a.1) _ fun _ _ _ _ => Iff.rfl
  rw [hnumbered] at hkey
  calc sort lt items
      = sort lt (items.zipIdx.map (·.1)) := by rw [hnumbered]
    _ = List.map (·.1) <$> sort (fun a b => .ok (decide (key a.1 < key b.1))) items.zipIdx :=
        sort_map_of_mem hless
    _ = .ok (byKey key items) := by
        rw [hout, ← hkey, hsorted.eq_byKey hd]
        rfl

end InsertionSort

section OneMore

variable {low high rest : List α} {a x : α}

lemma orderedInsert_append_of_le (h : ∀ b ∈ rest, key a ≤ key b) :
    (low ++ rest).orderedInsert (upTo key) a = low.orderedInsert (upTo key) a ++ rest := by
  induction low with
  | nil =>
    cases rest with
    | nil => rfl
    | cons b rest =>
      have hb : upTo key a b := h b (by simp)
      simp [hb]
  | cons b low ih =>
    by_cases hb : upTo key a b
    · simp [hb]
    · simp [hb, ih]

lemma orderedInsert_append_of_lt (h : ∀ b ∈ low, key b < key a) :
    (low ++ rest).orderedInsert (upTo key) a = low ++ rest.orderedInsert (upTo key) a := by
  induction low with
  | nil => rfl
  | cons b low ih =>
    have hb : ¬upTo key a b := not_le.mpr (h b (by simp))
    simp [hb, ih fun c hc => h c (by simp [hc])]

lemma exists_orderedInsert (x : α) {sorted : List α} (h : sorted.Pairwise (upTo key)) :
    ∃ low high, sorted.orderedInsert (upTo key) x = low ++ x :: high ∧ sorted = low ++ high ∧
      (∀ a ∈ low, key a < key x) ∧ ∀ a ∈ high, key x ≤ key a := by
  induction sorted with
  | nil => exact ⟨[], [], rfl, rfl, by simp, by simp⟩
  | cons b rest ih =>
    obtain ⟨hb, hrest⟩ := List.pairwise_cons.mp h
    by_cases hx : upTo key x b
    · refine ⟨[], b :: rest, by simp [hx], rfl, by simp, ?_⟩
      exact List.forall_mem_cons.mpr ⟨hx, fun a ha => hx.trans (hb a ha)⟩
    · obtain ⟨low, high, hmore, hless, hlow, hhigh⟩ := ih hrest
      refine ⟨b :: low, high, by simp [hx, hmore], by simp [hless], ?_, hhigh⟩
      exact List.forall_mem_cons.mpr ⟨not_le.mp hx, hlow⟩

/-- Where an item stands that sorted items are extended with: between those that come before it and
those that come behind. -/
structure Splits (key : α → κ) (x : α) (before after low high : List α) : Prop where
  below : ∀ a ∈ low, key a ≤ key x
  above : ∀ a ∈ high, key x ≤ key a
  earlier : ∀ a ∈ before, key a ≤ key x → a ∈ low
  later : ∀ a ∈ high, a ∈ after ∨ key x < key a

/-- An item more in a list is an item more in the sorted list. -/
theorem byKey_append_cons (key : α → κ) (before after : List α) (x : α) :
    ∃ low high, byKey key (before ++ x :: after) = low ++ x :: high ∧
      byKey key (before ++ after) = low ++ high ∧ Splits key x before after low high := by
  induction before with
  | nil =>
    obtain ⟨low, high, hmore, hless, hlow, hhigh⟩ :=
      exists_orderedInsert x (byKey_sorted key after)
    refine ⟨low, high, hmore, hless, fun a ha => (hlow a ha).le, hhigh, by simp, fun a ha => ?_⟩
    refine .inl ((byKey_perm key after).mem_iff.mp ?_)
    simp [hless, ha]
  | cons a before ih =>
    obtain ⟨low, high, hmore, hless, hsplit⟩ := ih
    have hmore' : byKey key (a :: before ++ x :: after) =
        (low ++ x :: high).orderedInsert (upTo key) a := by
      rw [← hmore]
      rfl
    have hless' : byKey key (a :: before ++ after) =
        (low ++ high).orderedInsert (upTo key) a := by
      rw [← hless]
      rfl
    rcases le_or_gt (key a) (key x) with hle | hlt
    · refine ⟨low.orderedInsert (upTo key) a, high, ?_, ?_, ?_⟩
      · rw [hmore', orderedInsert_append_of_le]
        exact List.forall_mem_cons.mpr ⟨hle, fun b hb => hle.trans (hsplit.above b hb)⟩
      · rw [hless', orderedInsert_append_of_le fun b hb => hle.trans (hsplit.above b hb)]
      · refine ⟨?_, hsplit.above, ?_, hsplit.later⟩
        · intro b hb
          rcases (List.mem_orderedInsert _).mp hb with rfl | hb
          · exact hle
          · exact hsplit.below b hb
        · intro b hb hbx
          rw [List.mem_orderedInsert]
          exact (List.mem_cons.mp hb).imp_right fun hb => hsplit.earlier b hb hbx
    · have hlow : ∀ b ∈ low, key b < key a := fun b hb => (hsplit.below b hb).trans_lt hlt
      refine ⟨low, high.orderedInsert (upTo key) a, ?_, ?_, ?_⟩
      · have hx : ¬upTo key a x := not_le.mpr hlt
        rw [hmore', orderedInsert_append_of_lt hlow, List.orderedInsert_cons, if_neg hx]
      · rw [hless', orderedInsert_append_of_lt hlow]
      · refine ⟨hsplit.below, ?_, ?_, ?_⟩
        · intro b hb
          rcases (List.mem_orderedInsert _).mp hb with rfl | hb
          · exact hlt.le
          · exact hsplit.above b hb
        · intro b hb hbx
          refine hsplit.earlier b ((List.mem_cons.mp hb).resolve_left ?_) hbx
          rintro rfl
          exact absurd hbx (not_le.mpr hlt)
        · intro b hb
          rcases (List.mem_orderedInsert _).mp hb with rfl | hb
          · exact .inr hlt
          · exact hsplit.later b hb

end OneMore

end NovelGraph.Order
