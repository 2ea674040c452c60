import NovelGraph.Order
import NovelGraph.Proofs.Identity
import NovelGraph.Proofs.Outcome

/-! Loops, sorting and tables under a map of their items. What they do is settled by the comparisons
that they make, so they commute with every map that keeps those. -/
namespace NovelGraph

namespace Outcome

variable {ε α β σ τ γ δ : Type}

/-- Two loops whose steps correspond have results that correspond. -/
theorem foldlM_hom {f : σ → α → Except ε σ} {f' : τ → β → Except ε τ} (g : σ → τ) (h : α → β)
    (items : List α) (step : ∀ s a, f' (g s) (h a) = g <$> f s a) (s : σ) :
    (items.map h).foldlM f' (g s) = g <$> items.foldlM f s := by
  induction items generalizing s with
  | nil => rfl
  | cons a rest ih =>
    rw [List.map_cons, List.foldlM_cons, List.foldlM_cons, step, bind_map_left, map_bind]
    exact bind_congr ih

lemma mapM_hom {f : α → Except ε γ} {f' : β → Except ε δ} (h : α → β) (k : γ → δ) (items : List α)
    (step : ∀ a, f' (h a) = k <$> f a) : (items.map h).mapM f' = List.map k <$> items.mapM f := by
  induction items with
  | nil => rfl
  | cons a rest ih =>
    rw [List.map_cons, List.mapM_cons, List.mapM_cons, step, ih]
    simp only [bind_map_left, map_bind, map_pure, List.map_cons]

lemma forM_hom {f : α → Except ε Unit} {f' : β → Except ε Unit} (h : α → β) (items : List α)
    (step : ∀ a, f' (h a) = f a) : (items.map h).forM f' = items.forM f := by
  induction items with
  | nil => rfl
  | cons a rest ih =>
    simp only [List.map_cons, List.forM, step, ih]

end Outcome

namespace Order

open Outcome

variable {α β κ : Type} {lt : α → α → Except Fault Bool} {lt' : β → β → Except Fault Bool}
  {g : α → β}

section Sorting

variable (hlt : ∀ a b, lt' (g a) (g b) = lt a b)

include hlt

lemma insertionPoint_map (item : α) (sorted : List α) (fuel low high : ℕ) :
    insertionPoint lt' (g item) (sorted.map g) fuel low high =
      insertionPoint lt item sorted fuel low high := by
  induction fuel generalizing low high with
  | zero => rfl
  | succ fuel ih =>
    simp only [insertionPoint, List.getElem?_map]
    split_ifs
    · rfl
    · cases sorted[low + (high - low) / 2]? with
      | none => rfl
      | some other => simp only [Option.map_some, hlt, ih]

lemma insert_map (sorted : List α) (item : α) :
    insert lt' (sorted.map g) (g item) = List.map g <$> insert lt sorted item := by
  simp only [insert, insertionPoint_map hlt, List.length_map, map_bind, map_pure, List.map_append,
    List.map_cons, List.map_take, List.map_drop]

lemma ascendingRun_map (last : α) (items : List α) :
    ascendingRun lt' (g last) (items.map g) =
      Prod.map (List.map g) (List.map g) <$> ascendingRun lt last items := by
  induction items generalizing last with
  | nil => rfl
  | cons a rest ih =>
    simp only [List.map_cons, ascendingRun, hlt, ih, map_bind, bind_map_left]
    refine bind_congr fun less => ?_
    cases less with
    | true => rfl
    | false =>
      simp only [Bool.false_eq_true, if_false, map_bind]
      rfl

lemma descendingRun_map (last : α) (items : List α) :
    descendingRun lt' (g last) (items.map g) =
      Prod.map (List.map g) (List.map g) <$> descendingRun lt last items := by
  induction items generalizing last with
  | nil => rfl
  | cons a rest ih =>
    simp only [List.map_cons, descendingRun, hlt, ih, map_bind, bind_map_left]
    refine bind_congr fun less => ?_
    cases less with
    | true =>
      simp only [if_true, map_bind]
      rfl
    | false => rfl

/-- Sorting looks at items only through the comparison. -/
theorem sort_map (items : List α) : sort lt' (items.map g) = List.map g <$> sort lt items := by
  match items with
  | [] => rfl
  | [a] => rfl
  | a :: b :: rest =>
    simp only [List.map_cons, sort, hlt, ascendingRun_map hlt, descendingRun_map hlt, map_bind,
      bind_map_left]
    refine bind_congr fun less => ?_
    have hinsert : ∀ others sorted : List α, (others.map g).foldlM (insert lt') (sorted.map g) =
        List.map g <$> others.foldlM (insert lt) sorted :=
      fun others sorted => foldlM_hom (List.map g) g others (insert_map hlt) sorted
    cases less with
    | true =>
      simp only [if_true, map_bind]
      refine bind_congr fun run => ?_
      simpa using hinsert run.2 (a :: b :: run.1).reverse
    | false =>
      simp only [Bool.false_eq_true, if_false, map_bind]
      refine bind_congr fun run => ?_
      simpa using hinsert run.2 (a :: b :: run.1)

end Sorting

/-- Sorting commutes with a map that keeps the comparisons between the items at hand. -/
lemma sort_map_of_mem {g : α → β} {items : List α}
    (h : ∀ a ∈ items, ∀ b ∈ items, lt' (g a) (g b) = lt a b) :
    sort lt' (items.map g) = List.map g <$> sort lt items := by
  have hcut : sort lt items =
      List.map Subtype.val <$> sort (fun a b => lt a.1 b.1) items.attach := by
    rw [← sort_map (fun _ _ => rfl), List.attach_map_subtype_val]
  have himage : items.map g = items.attach.map fun a => g a.1 := by simp
  have hsort : sort lt' (items.attach.map fun a => g a.1) =
      List.map (fun a => g a.1) <$> sort (fun a b => lt a.1 b.1) items.attach :=
    sort_map (g := fun a : { a // a ∈ items } => g a.1) (fun a b => h a.1 a.2 b.1 b.2) items.attach
  rw [himage, hsort, hcut, Functor.map_map]
  simp only [List.map_map]
  rfl

lemma sortOn_map {key : α → κ} {key' : β → κ} (hkey : ∀ a, key' (g a) = key a)
    (less : κ → κ → Except Fault Bool) (items : List α) :
    sortOn key' less (items.map g) = List.map g <$> sortOn key less items :=
  sort_map (fun a b => by rw [hkey, hkey]) items

lemma sortByKey_map {key : α → κ} {key' : β → κ} (hkey : ∀ a, key' (g a) = key a)
    (less : κ → κ → Bool) (items : List α) :
    sortByKey key' less (items.map g) = (sortByKey key less items).map g := by
  rw [sortByKey, sortOn_map hkey, sortByKey]
  cases sortOn key (fun a b => .ok (less a b)) items with
  | error e => rfl
  | ok sorted => rfl

end Order
end NovelGraph
