import NovelGraph.Proofs.Values
import NovelGraph.Value.Dict

/-! Tables: what they have under a key, and what is left of that when an entry is changed, when they
are filled item by item, or when their entries are mapped. -/
namespace NovelGraph.Dict

variable {α β : Type}

lemma get?_congr (d : Dict α) {v w : Value} (h : v.same w = true) : d.get? v = d.get? w := by
  unfold get?
  congr 2
  funext e
  rw [Bool.eq_iff_iff]
  exact ⟨fun g => Value.same_trans (Value.same_symm h) g, fun g => Value.same_trans h g⟩

lemma get?_update (d : Dict α) (key other : Value) (empty : α) (f : α → α) :
    get? (update d key empty f) other =
      if other.same key = true then some (f ((d.get? other).getD empty)) else d.get? other := by
  rw [update, get?_set]
  split_ifs with h
  · rw [get?_congr d h]
  · rfl

lemma get?_map (d : Dict α) (f : α → β) (key : Value) :
    get? (d.map fun e => (e.1, f e.2)) key = (d.get? key).map f := by
  induction d with
  | nil => rfl
  | cons e rest ih =>
    rw [List.map_cons, get?_cons, get?_cons, ih]
    split_ifs with h
    · rfl
    · rfl

lemma exists_of_get? {d : Dict α} {key : Value} {a : α} (h : d.get? key = some a) :
    ∃ e ∈ d, key.same e.1 = true ∧ e.2 = a := by
  obtain ⟨e, he, ha⟩ := Option.map_eq_some_iff.mp h
  exact ⟨e, List.mem_of_find?_eq_some he,
    List.find?_some (p := fun e : Value × α => key.same e.1) he, ha⟩

/-- No two entries have the same key. -/
def DistinctKeys (d : Dict α) : Prop := d.Pairwise fun a b => a.1.same b.1 = false

lemma DistinctKeys.get? {d : Dict α} (hd : d.DistinctKeys) {e : Value × α} (he : e ∈ d)
    {key : Value} (h : key.same e.1 = true) : d.get? key = some e.2 := by
  induction d with
  | nil => simp at he
  | cons e' rest ih =>
    rw [DistinctKeys, List.pairwise_cons] at hd
    rw [get?_cons]
    rcases List.mem_cons.mp he with rfl | he
    · rw [if_pos h]
    · have hne : key.same e'.1 = false := by
        rw [← Bool.not_eq_true]
        intro hc
        have hs := hd.1 e he
        rw [Value.same_trans (Value.same_symm hc) h] at hs
        exact Bool.noConfusion hs
      rw [hne, if_neg Bool.false_ne_true]
      exact ih hd.2 he

lemma contains_eq_false {d : Dict α} {key : Value} :
    d.contains key = false ↔ ∀ e ∈ d, key.same e.1 = false := by
  rw [contains, List.any_eq_false]
  simp only [Bool.not_eq_true]

lemma set_of_not_contains {d : Dict α} {key : Value} (h : d.contains key = false) (a : α) :
    d.set key a = d ++ [(key, a)] := by
  rw [contains_eq_false] at h
  induction d with
  | nil => rfl
  | cons e rest ih =>
    have he := h e (by simp)
    rw [set, he, if_neg Bool.false_ne_true, ih fun e' h' => h e' (by simp [h']), List.cons_append]

lemma keys_set (d : Dict α) (key : Value) (a : α) :
    (d.set key a).map (·.1) =
      if d.contains key then d.map (·.1) else d.map (·.1) ++ [key] := by
  induction d with
  | nil => rfl
  | cons e rest ih =>
    rw [set]
    cases h : key.same e.1 with
    | true => simp [contains, h]
    | false =>
      have hc : contains (e :: rest) key = contains rest key := by simp [contains, h]
      rw [if_neg Bool.false_ne_true, List.map_cons, ih, hc]
      split_ifs <;> simp

lemma DistinctKeys.set {d : Dict α} (hd : d.DistinctKeys) (key : Value) (a : α) :
    (d.set key a).DistinctKeys := by
  have hkeys : ((d.set key a).map (·.1)).Pairwise fun v w => v.same w = false := by
    rw [keys_set]
    split_ifs with hc
    · exact List.pairwise_map.mpr hd
    · rw [List.pairwise_append]
      refine ⟨List.pairwise_map.mpr hd, List.pairwise_singleton _ _, ?_⟩
      intro v hv w hw
      obtain ⟨e, he, rfl⟩ := List.mem_map.mp hv
      rw [List.mem_singleton.mp hw, Value.same_comm]
      exact contains_eq_false.mp (Bool.not_eq_true _ ▸ hc) e he
  exact List.pairwise_map.mp hkeys

/-- What a table of items holds under a key is an item with that key. -/
lemma exists_of_get?_ofItems {key : β → Value} {items : List β} {v : Value} {b : β}
    (h : (ofItems key items).get? v = some b) : b ∈ items ∧ v.same (key b) = true := by
  have hfold : ∀ (rest : List β) (d : Dict β), (∀ i ∈ rest, i ∈ items) →
      (∀ w c, d.get? w = some c → c ∈ items ∧ w.same (key c) = true) →
      (rest.foldl (fun d i => d.set (key i) i) d).get? v = some b →
      b ∈ items ∧ v.same (key b) = true := by
    intro rest
    induction rest with
    | nil => exact fun d _ hd hv => hd v b hv
    | cons i rest ih =>
      intro d hrest hd hv
      refine ih _ (fun j hj => hrest j (by simp [hj])) ?_ hv
      intro w c hw
      rw [get?_set] at hw
      split_ifs at hw with hs
      · cases hw
        exact ⟨hrest _ (by simp), hs⟩
      · exact hd w c hw
  exact hfold items [] (fun _ hi => hi) (by simp [get?_nil]) h

lemma get?_of_isPrefix {d d' : Dict α} (h : d <+: d') {key : Value} {a : α}
    (hg : d.get? key = some a) : d'.get? key = some a := by
  obtain ⟨new, rfl⟩ := h
  obtain ⟨e, he, ha⟩ := Option.map_eq_some_iff.mp hg
  rw [get?, List.find?_append, he, Option.some_or, Option.map_some, ha]

lemma get?_append_self {d : Dict α} {key : Value} (h : d.contains key = false) (a : α) :
    get? (d ++ [(key, a)]) key = some a := by
  rw [← set_of_not_contains h, get?_set, if_pos (Value.same_refl key)]

lemma contains_of_isPrefix {d d' : Dict α} (h : d <+: d') {key : Value}
    (hc : d.contains key = true) : d'.contains key = true := by
  obtain ⟨new, rfl⟩ := h
  rw [contains, List.any_append, ← contains, hc, Bool.true_or]

lemma contains_eq_isSome (d : Dict α) (key : Value) : d.contains key = (d.get? key).isSome := by
  rw [Bool.eq_iff_iff, contains, get?, Option.isSome_map, List.find?_isSome, List.any_eq_true]

lemma contains_congr (d : Dict α) {v w : Value} (h : v.same w = true) :
    d.contains v = d.contains w := by
  rw [contains_eq_isSome, contains_eq_isSome, get?_congr d h]

lemma contains_iff {d : Dict α} {key : Value} :
    d.contains key = true ↔ key.memberOf (d.map (·.1)) = true := by
  simp only [contains, Value.memberOf, List.any_map]
  rfl

/-- What a table that is filled in a loop has under a key: the last entry with it. -/
lemma get?_foldl_set {ι : Type} (key : ι → Value) (entry : ι → α) (items : List ι) (d : Dict α)
    (v : Value) :
    get? (items.foldl (fun d i => d.set (key i) (entry i)) d) v =
      ((items.reverse.find? fun i => v.same (key i)).map entry).or (d.get? v) := by
  induction items generalizing d with
  | nil => simp
  | cons i rest ih =>
    rw [List.foldl_cons, ih, get?_set, List.reverse_cons, List.find?_append]
    cases rest.reverse.find? fun i => v.same (key i) with
    | some j => simp
    | none => by_cases h : v.same (key i) = true <;> simp [h]

lemma update_cons (e : Value × α) (rest : Dict α) (key : Value) (empty : α) (f : α → α) :
    update (e :: rest) key empty f =
      if key.same e.1 then (e.1, f e.2) :: rest else e :: update rest key empty f := by
  rw [update, get?_cons, set]
  split_ifs with h
  · rfl
  · rfl

lemma get?_ofItems (key : β → Value) (items : List β) (v : Value) :
    (ofItems key items).get? v = items.reverse.find? fun i => v.same (key i) := by
  rw [ofItems, get?_foldl_set key (fun i => i)]
  simp [get?_nil]

/-- Items that have other keys leave no trace under a key. -/
lemma get?_ofItems_filter {key : β → Value} {items : List β} {keep : β → Bool} {v : Value}
    (h : ∀ i ∈ items, v.same (key i) = true → keep i = true) :
    (ofItems key (items.filter keep)).get? v = (ofItems key items).get? v := by
  rw [get?_ofItems, get?_ofItems, ← List.filter_reverse, List.find?_filter]
  replace h : ∀ i ∈ items.reverse, v.same (key i) = true → keep i = true := by simpa using h
  generalize items.reverse = last at h
  induction last with
  | nil => rfl
  | cons i rest ih =>
    rw [List.find?_cons, List.find?_cons, ih fun j hj => h j (List.mem_cons_of_mem i hj)]
    cases hsame : v.same (key i) with
    | false => simp
    | true => simp [h i List.mem_cons_self hsame]

lemma mem_set {d : Dict α} {key : Value} {a : α} {e : Value × α} (h : e ∈ d.set key a) :
    e ∈ d ∨ e.2 = a := by
  induction d with
  | nil =>
    rw [List.mem_singleton.mp h]
    exact .inr rfl
  | cons e' rest ih =>
    rw [set] at h
    split_ifs at h
    · rcases List.mem_cons.mp h with rfl | h
      · exact .inr rfl
      · exact .inl (List.mem_cons_of_mem _ h)
    · rcases List.mem_cons.mp h with rfl | h
      · exact .inl List.mem_cons_self
      · exact (ih h).imp_left (List.mem_cons_of_mem _)

/-- Of items with different keys the table has the first under a key, since there is no other. -/
lemma get?_ofItems_of_distinct {key : β → Value} {items : List β}
    (h : items.Pairwise fun i j => (key i).same (key j) = false) (v : Value) :
    (ofItems key items).get? v = items.find? fun i => v.same (key i) := by
  rw [get?_ofItems]
  induction items with
  | nil => rfl
  | cons i rest ih =>
    obtain ⟨hi, hrest⟩ := List.pairwise_cons.mp h
    rw [List.reverse_cons, List.find?_append, ih hrest, List.find?_cons]
    cases hv : v.same (key i) with
    | false => simp [hv]
    | true =>
      have hnone : rest.find? (fun j => v.same (key j)) = none := by
        refine List.find?_eq_none.mpr fun j hj hsame => ?_
        have hdiff := hi j hj
        rw [Value.same_trans (Value.same_symm hv) hsame] at hdiff
        cases hdiff
      rw [hnone]
      simp [hv]

/-- A key that a table has stays where it is when its entry is changed. -/
lemma exists_set_of_get? {d : Dict α} {key : Value} {a : α} (h : d.get? key = some a) :
    ∃ before k after, key.same k = true ∧ d = before ++ (k, a) :: after ∧
      ∀ b, d.set key b = before ++ (k, b) :: after := by
  induction d with
  | nil => cases h
  | cons e rest ih =>
    rw [get?_cons] at h
    by_cases he : key.same e.1 = true
    · rw [if_pos he, Option.some.injEq] at h
      subst h
      exact ⟨[], e.1, rest, he, rfl, fun b => by simp [set, he]⟩
    · rw [if_neg he] at h
      obtain ⟨before, k, after, hk, hrest, hset⟩ := ih h
      exact ⟨e :: before, k, after, hk, by simp [hrest], fun b => by simp [set, he, hset]⟩

lemma set_eq_self {d : Dict α} {key : Value} {a : α} (h : d.get? key = some a) :
    d.set key a = d := by
  obtain ⟨before, k, after, -, hd, hset⟩ := exists_set_of_get? h
  rw [hset, ← hd]

/-- What a table has under a key in the middle, and under other keys. -/
lemma get?_middle {before after : Dict α} {k : Value} {a : α}
    (hd : DistinctKeys (before ++ (k, a) :: after)) (v : Value) :
    get? (before ++ (k, a) :: after) v =
      if v.same k = true then some a else get? (before ++ after) v := by
  by_cases hv : v.same k = true
  · rw [if_pos hv]
    exact hd.get? (e := (k, a)) (by simp) hv
  · rw [if_neg hv, get?, get?, List.find?_append, List.find?_append,
      List.find?_cons_of_neg (by simpa using hv)]

lemma distinctKeys_middle {before after : Dict α} {k : Value} {a : α} (b : α) :
    DistinctKeys (before ++ (k, a) :: after) ↔ DistinctKeys (before ++ (k, b) :: after) := by
  simp only [DistinctKeys, List.pairwise_append, List.pairwise_cons, List.forall_mem_cons]

lemma set_map (d : Dict α) (f : α → β) (key : Value) (a : α) :
    set (d.map fun e => (e.1, f e.2)) key (f a) = (d.set key a).map fun e => (e.1, f e.2) := by
  induction d with
  | nil => rfl
  | cons e rest ih =>
    simp only [List.map_cons, set, ih]
    split_ifs <;> rfl

end NovelGraph.Dict
