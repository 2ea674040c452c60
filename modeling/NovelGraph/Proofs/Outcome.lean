import Mathlib.Data.List.Forall2
import NovelGraph.Fault

/-! Computations that may fail, taken apart where they succeed. -/
namespace NovelGraph.Outcome

variable {ε α β σ : Type}

lemma bind_eq_ok {x : Except ε α} {f : α → Except ε β} {b : β} :
    x >>= f = .ok b ↔ ∃ a, x = .ok a ∧ f a = .ok b := by
  cases x with
  | error e => simp [bind, Except.bind]
  | ok a => simp [bind, Except.bind]

lemma bind_eq_error {x : Except ε α} {f : α → Except ε β} {e : ε} :
    x >>= f = .error e ↔ x = .error e ∨ ∃ a, x = .ok a ∧ f a = .error e := by
  cases x with
  | error e' => simp [bind, Except.bind]
  | ok a => simp [bind, Except.bind]

lemma bind_pure_eq_error {x : Except ε α} {k : α → β} {e : ε} :
    (x >>= fun a => pure (k a)) = .error e ↔ x = .error e := by
  rw [bind_eq_error]
  simp [pure, Except.pure]

lemma ok_bind (a : α) (f : α → Except ε β) : (.ok a : Except ε α) >>= f = f a := rfl

lemma eq_ok_of_toOption {x : Except ε α} {a : α} (h : x.toOption = some a) : x = .ok a := by
  cases x with
  | error e => cases h
  | ok b => exact congrArg Except.ok (Option.some.inj h)

lemma pure_eq_ok {a b : α} : (pure a : Except ε α) = .ok b ↔ a = b := by
  simp [pure, Except.pure]

/-- A loop that succeeds keeps what each of its steps keeps. -/
theorem foldlM_invariant {f : σ → α → Except ε σ} (P : σ → Prop) {items : List α}
    (step : ∀ a ∈ items, ∀ s t, P s → f s a = .ok t → P t) {s t : σ} (hs : P s)
    (h : items.foldlM f s = .ok t) : P t := by
  induction items generalizing s with
  | nil =>
    rw [List.foldlM_nil, pure_eq_ok] at h
    exact h ▸ hs
  | cons a rest ih =>
    rw [List.foldlM_cons, bind_eq_ok] at h
    obtain ⟨u, hu, ht⟩ := h
    exact ih (fun b hb => step b (by simp [hb])) (step a (by simp) s u hs hu) ht

/-- What a loop knows of the items behind it, it knows of all in the end. -/
theorem foldlM_history {f : σ → α → Except ε σ} (P : List α → σ → Prop) {items : List α}
    (step : ∀ done, ∀ a ∈ items, ∀ s t, P done s → f s a = .ok t → P (done ++ [a]) t) {s t : σ}
    (hs : P [] s) (h : items.foldlM f s = .ok t) : P items t := by
  have hfrom : ∀ done, P done s → P (done ++ items) t := by
    clear hs
    induction items generalizing s with
    | nil =>
      rw [List.foldlM_nil, pure_eq_ok] at h
      subst h
      simp
    | cons a rest ih =>
      rw [List.foldlM_cons, bind_eq_ok] at h
      obtain ⟨u, hu, h⟩ := h
      intro done hdone
      have hrest := ih (fun done b hb => step done b (by simp [hb])) h
      simpa using hrest (done ++ [a]) (step done a (by simp) s u hdone hu)
  simpa using hfrom [] hs

/-- Two loops agree if their steps agree in all states that the first one can be in. -/
theorem foldlM_congr {f g : σ → α → Except ε σ} (P : σ → Prop) {items : List α}
    (heq : ∀ a ∈ items, ∀ s, P s → f s a = g s a)
    (step : ∀ a ∈ items, ∀ s t, P s → f s a = .ok t → P t) {s : σ} (hs : P s) :
    items.foldlM f s = items.foldlM g s := by
  induction items generalizing s with
  | nil => rfl
  | cons a rest ih =>
    rw [List.foldlM_cons, List.foldlM_cons, ← heq a (by simp) s hs]
    cases ha : f s a with
    | error e => rfl
    | ok t =>
      exact ih (fun b hb => heq b (by simp [hb])) (fun b hb => step b (by simp [hb]))
        (step a (by simp) s t hs ha)

/-- What is related to a list item by item comes from its items. -/
lemma exists_left_of_forall₂ {α β : Type*} {R : α → β → Prop} {items : List α} {out : List β}
    (h : List.Forall₂ R items out) {y : β} (hy : y ∈ out) : ∃ x ∈ items, R x y := by
  induction h with
  | nil => simp at hy
  | cons hr _ ih =>
    rcases List.mem_cons.mp hy with rfl | hy
    · exact ⟨_, by simp, hr⟩
    · obtain ⟨x, hx, hR⟩ := ih hy
      exact ⟨x, by simp [hx], hR⟩

lemma getElem?_of_forall₂ {α β : Type*} {R : α → β → Prop} {items : List α} {out : List β}
    (h : List.Forall₂ R items out) {i : ℕ} {x : α} (hx : items[i]? = some x) :
    ∃ y, out[i]? = some y ∧ R x y := by
  induction h generalizing i with
  | nil => simp at hx
  | cons hr _ ih =>
    cases i with
    | zero => exact ⟨_, rfl, Option.some.inj hx ▸ hr⟩
    | succ i => exact ih hx

lemma forall₂_comp {α β γ : Type*} {R : α → β → Prop} {S : β → γ → Prop} {T : α → γ → Prop}
    (hT : ∀ a b c, R a b → S b c → T a c) {as : List α} {bs : List β} {cs : List γ}
    (h : List.Forall₂ R as bs) (g : List.Forall₂ S bs cs) : List.Forall₂ T as cs := by
  induction h generalizing cs with
  | nil =>
    cases g
    exact .nil
  | cons hab _ ih =>
    cases g with
    | cons hbc g => exact .cons (hT _ _ _ hab hbc) (ih g)

theorem mapM_eq_ok {f : α → Except ε β} {items : List α} {results : List β}
    (h : items.mapM f = .ok results) : List.Forall₂ (fun a b => f a = .ok b) items results := by
  induction items generalizing results with
  | nil =>
    rw [List.mapM_nil, pure_eq_ok] at h
    subst h
    exact .nil
  | cons a rest ih =>
    rw [List.mapM_cons, bind_eq_ok] at h
    obtain ⟨b, hb, h⟩ := h
    rw [bind_eq_ok] at h
    obtain ⟨bs, hbs, h⟩ := h
    rw [pure_eq_ok] at h
    subst h
    exact .cons hb (ih hbs)

lemma mem_of_mapM_eq_ok {f : α → Except ε β} {items : List α} {results : List β}
    (h : items.mapM f = .ok results) {b : β} : b ∈ results ↔ ∃ a ∈ items, f a = .ok b := by
  have hall := mapM_eq_ok h
  clear h
  induction hall with
  | nil => simp
  | cons hab _ ih =>
    simp only [List.mem_cons, ih, exists_eq_or_imp, hab, Except.ok.injEq]
    rw [eq_comm]

lemma exists_of_mapM_eq_ok {f : α → Except ε β} {items : List α} {results : List β}
    (h : items.mapM f = .ok results) {a : α} (ha : a ∈ items) : ∃ b ∈ results, f a = .ok b := by
  have hall := mapM_eq_ok h
  clear h
  induction hall with
  | nil => simp at ha
  | cons hab _ ih =>
    rcases List.mem_cons.mp ha with rfl | ha
    · exact ⟨_, List.mem_cons_self, hab⟩
    · obtain ⟨b, hb, hf⟩ := ih ha
      exact ⟨b, List.mem_cons_of_mem _ hb, hf⟩

lemma map_eq_of_mapM_eq_ok {γ : Type} {f : α → Except ε β} {g : β → γ} {k : α → γ} {items : List α}
    {results : List β} (h : items.mapM f = .ok results)
    (hg : ∀ a ∈ items, ∀ b, f a = .ok b → g b = k a) : results.map g = items.map k := by
  have hall := mapM_eq_ok h
  clear h
  induction hall with
  | nil => rfl
  | cons hab _ ih =>
    rw [List.map_cons, List.map_cons, hg _ (by simp) _ hab, ih fun a ha => hg a (by simp [ha])]

lemma filterM_ok {f : α → Except ε Bool} {keep : α → Bool} {items : List α}
    (h : ∀ a ∈ items, f a = .ok (keep a)) : items.filterM f = .ok (items.filter keep) := by
  have hkept : ∀ kept, items.filterAuxM f kept = .ok ((items.filter keep).reverse ++ kept) := by
    induction items with
    | nil => exact fun _ => rfl
    | cons a rest ih =>
      intro kept
      rw [List.filterAuxM, h a (by simp), ok_bind, ih fun b hb => h b (by simp [hb])]
      cases hkeep : keep a <;> simp [hkeep]
  rw [List.filterM, hkept, ok_bind, List.append_nil, List.reverse_reverse]
  rfl

lemma filterM_eq_nil {f : α → Except ε Bool} {items : List α} (h : ∀ a ∈ items, f a = .ok false) :
    items.filterM f = .ok [] := by
  rw [filterM_ok h, List.filter_false]

/-- A choice that succeeds has asked about every item, and has what was wanted. -/
lemma filterM_eq_ok {f : α → Except ε Bool} {items kept : List α} (h : items.filterM f = .ok kept) :
    ∀ a ∈ items, ∃ keep, f a = .ok keep ∧ (keep = true → a ∈ kept) := by
  have hfrom : ∀ old out, items.filterAuxM f old = .ok out →
      old ⊆ out ∧ ∀ a ∈ items, ∃ keep, f a = .ok keep ∧ (keep = true → a ∈ out) := by
    clear h
    induction items with
    | nil =>
      intro old out hout
      obtain rfl := pure_eq_ok.mp hout
      simp
    | cons a rest ih =>
      intro old out hout
      rw [List.filterAuxM, bind_eq_ok] at hout
      obtain ⟨keep, ha, hout⟩ := hout
      obtain ⟨hsub, hrest⟩ := ih _ _ hout
      refine ⟨fun b hb => hsub ?_, List.forall_mem_cons.mpr ⟨⟨keep, ha, ?_⟩, hrest⟩⟩
      · cases keep <;> simp [hb]
      · rintro rfl
        exact hsub (by simp)
  rw [List.filterM, bind_eq_ok] at h
  obtain ⟨out, hout, h⟩ := h
  obtain rfl := pure_eq_ok.mp h
  simpa using (hfrom [] out hout).2

lemma forM_eq_ok {f : α → Except ε Unit} {items : List α} (h : items.forM f = .ok ()) :
    ∀ a ∈ items, f a = .ok () := by
  induction items with
  | nil => simp
  | cons a rest ih =>
    obtain ⟨_, ha, h⟩ := bind_eq_ok.mp h
    intro b hb
    rcases List.mem_cons.mp hb with rfl | hb
    · exact ha
    · exact ih h b hb

lemma forM_ok {f : α → Except ε Unit} {items : List α} (h : ∀ a ∈ items, f a = .ok ()) :
    items.forM f = .ok () := by
  induction items with
  | nil => rfl
  | cons a rest ih =>
    rw [List.forM, h a (by simp), ok_bind]
    exact ih fun b hb => h b (by simp [hb])

/-- A loop whose steps succeed succeeds. -/
lemma exists_foldlM_eq_ok {f : σ → α → Except ε σ} {items : List α}
    (h : ∀ a ∈ items, ∀ s, ∃ t, f s a = .ok t) (s : σ) : ∃ t, items.foldlM f s = .ok t := by
  induction items generalizing s with
  | nil => exact ⟨s, rfl⟩
  | cons a rest ih =>
    obtain ⟨t, ht⟩ := h a (by simp) s
    rw [List.foldlM_cons, ht, ok_bind]
    exact ih (fun b hb => h b (by simp [hb])) t

/-- In a loop that succeeds every item has had its turn. -/
lemma exists_turn {f : σ → α → Except ε σ} {items : List α} {s t : σ}
    (h : items.foldlM f s = .ok t) {a : α} (ha : a ∈ items) : ∃ u v, f u a = .ok v := by
  obtain ⟨before, after, rfl⟩ := List.append_of_mem ha
  rw [List.foldlM_append, bind_eq_ok] at h
  obtain ⟨u, -, h⟩ := h
  rw [List.foldlM_cons, bind_eq_ok] at h
  obtain ⟨v, hv, -⟩ := h
  exact ⟨u, v, hv⟩

lemma exists_mapM_eq_ok {f : α → Except ε β} {items : List α}
    (h : ∀ a ∈ items, ∃ b, f a = .ok b) : ∃ bs, items.mapM f = .ok bs := by
  induction items with
  | nil => exact ⟨[], rfl⟩
  | cons a rest ih =>
    obtain ⟨b, hb⟩ := h a (by simp)
    obtain ⟨bs, hbs⟩ := ih fun c hc => h c (by simp [hc])
    rw [List.mapM_cons, hb, ok_bind, hbs]
    exact ⟨b :: bs, rfl⟩

/-- A loop that fails does so in one of its steps. -/
lemma foldlM_eq_error {f : σ → α → Except ε σ} {items : List α} {s : σ} {e : ε}
    (h : items.foldlM f s = .error e) : ∃ a ∈ items, ∃ t, f t a = .error e := by
  induction items generalizing s with
  | nil => cases h
  | cons a rest ih =>
    rw [List.foldlM_cons, bind_eq_error] at h
    rcases h with h | ⟨t, -, h⟩
    · exact ⟨a, by simp, s, h⟩
    · obtain ⟨b, hb, hstep⟩ := ih h
      exact ⟨b, by simp [hb], hstep⟩

/-- Computations whose results look alike go on alike. -/
lemma bind_eq_of_map_eq {γ : Type} {x y : Except ε α} {view : α → β} {f g : α → Except ε γ}
    (h : view <$> x = view <$> y) (hf : ∀ a b, view a = view b → f a = g b) :
    x >>= f = y >>= g := by
  cases x with
  | error e =>
    cases y with
    | error e' => exact congrArg Except.error (Except.error.inj h)
    | ok b => cases h
  | ok a =>
    cases y with
    | error e' => cases h
    | ok b => exact hf a b (Except.ok.inj h)

lemma foldlM_eq_of_forall₂ {R : α → β → Prop} {as : List α} {bs : List β}
    (h : List.Forall₂ R as bs) {f : σ → α → Except ε σ} {g : σ → β → Except ε σ}
    (hfg : ∀ s a b, R a b → f s a = g s b) (s : σ) :
    as.foldlM f s = bs.foldlM g s := by
  induction h generalizing s with
  | nil => rfl
  | cons hab _ ih =>
    rw [List.foldlM_cons, List.foldlM_cons, hfg s _ _ hab]
    exact bind_congr ih

lemma mapM_eq_of_forall₂ {γ : Type} {R : α → β → Prop} {as : List α} {bs : List β}
    (h : List.Forall₂ R as bs) {f : α → Except ε γ} {g : β → Except ε γ}
    (hfg : ∀ a b, R a b → f a = g b) : as.mapM f = bs.mapM g := by
  induction h with
  | nil => rfl
  | cons hab _ ih => rw [List.mapM_cons, List.mapM_cons, hfg _ _ hab, ih]

/-- An item that leaves nothing to be done can be repeated at the end of a loop. -/
lemma foldlM_zipIdx_replicate {v : α} {s : σ} {step : σ → α × ℕ → Except ε σ}
    (hstep : ∀ {s t : σ} {i : ℕ} (j : ℕ), step s (v, i) = .ok t → step t (v, j) = .ok t)
    (items : List α) (n k : ℕ) :
    ((items ++ v :: List.replicate n v).zipIdx k).foldlM step s =
      ((items ++ [v]).zipIdx k).foldlM step s := by
  induction items generalizing k s with
  | cons a rest ih =>
    simp only [List.cons_append, List.zipIdx_cons, List.foldlM_cons, ih]
  | nil =>
    have hrest : ∀ {t : σ}, (∀ j, step t (v, j) = .ok t) → ∀ n k,
        ((List.replicate n v).zipIdx k).foldlM step t = .ok t := by
      intro t ht n
      induction n with
      | zero => exact fun k => rfl
      | succ n ih =>
        intro k
        rw [List.replicate_succ, List.zipIdx_cons, List.foldlM_cons, ht, ok_bind, ih]
    simp only [List.nil_append, List.zipIdx_cons, List.zipIdx_nil, List.foldlM_cons,
      List.foldlM_nil]
    cases hs : step s (v, k) with
    | error e => rfl
    | ok t => exact hrest (fun j => hstep j hs) n (k + 1)

lemma foldlM_replicate {v : α} {s : σ} {step : σ → α → Except ε σ}
    (hstep : ∀ {s t : σ}, step s v = .ok t → step t v = .ok t) (items : List α) (n : ℕ) :
    (items ++ v :: List.replicate n v).foldlM step s = (items ++ [v]).foldlM step s := by
  have hindex : ∀ items : List α,
      items.foldlM step s = items.zipIdx.foldlM (fun s t => step s t.1) s := by
    intro items
    conv_lhs => rw [← List.zipIdx_map_fst 0 items, List.foldlM_map]
  rw [hindex, hindex]
  exact foldlM_zipIdx_replicate (fun _ h => hstep h) items n 0

/-- Items that are read back one by one are read back together. -/
lemma mapM_map_ok {γ : Type} {f : β → Except ε γ} {g : α → β} {k : α → γ}
    {items : List α} (h : ∀ a ∈ items, f (g a) = .ok (k a)) :
    (items.map g).mapM f = .ok (items.map k) := by
  induction items with
  | nil => rfl
  | cons a rest ih =>
    have hrest := ih fun b hb => h b (List.mem_cons_of_mem a hb)
    rw [List.map_cons, List.mapM_cons, h a List.mem_cons_self, ok_bind, hrest, ok_bind]
    rfl

lemma filterMapM_eq_ok {f : α → Except ε (Option β)} {items : List α} {out : List β}
    (h : items.filterMapM f = .ok out) {b : β} (hb : b ∈ out) :
    ∃ a ∈ items, f a = .ok (some b) := by
  have hfrom : ∀ (items : List α) (done out : List β), List.filterMapM.loop f items done = .ok out →
      ∀ b ∈ out, b ∈ done ∨ ∃ a ∈ items, f a = .ok (some b) := by
    intro items
    induction items with
    | nil =>
      intro done out h b hb
      rw [List.filterMapM.loop, pure_eq_ok] at h
      exact .inl (by simpa [← h] using hb)
    | cons a rest ih =>
      intro done out h b hb
      rw [List.filterMapM.loop, bind_eq_ok] at h
      obtain ⟨found, ha, h⟩ := h
      cases found with
      | none =>
        refine (ih done out h b hb).imp_right fun ⟨c, hc, hfc⟩ => ?_
        exact ⟨c, List.mem_cons_of_mem _ hc, hfc⟩
      | some d =>
        rcases ih (d :: done) out h b hb with hdone | ⟨c, hc, hfc⟩
        · rcases List.mem_cons.mp hdone with rfl | hdone
          · exact .inr ⟨a, List.mem_cons_self, ha⟩
          · exact .inl hdone
        · exact .inr ⟨c, List.mem_cons_of_mem _ hc, hfc⟩
  exact (hfrom items [] out h b hb).resolve_left (by simp)

end NovelGraph.Outcome
