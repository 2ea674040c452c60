import Mathlib.Data.List.Basic

/-! What holds when work on a state has ended, well or with a failure. -/
namespace NovelGraph

variable {ε σ α β : Type}

/-- Where the work leaves the state, if it fails as well. -/
def leaves (work : EStateM ε σ α) (s : σ) : σ :=
  match work s with
  | .ok _ t => t
  | .error _ t => t

/-- Whether the work does what it should. -/
def succeeds (work : EStateM ε σ α) (s : σ) : Bool :=
  match work s with
  | .ok _ _ => true
  | .error _ _ => false

/-- The work ends as one wants, or fails in a state that one accepts. -/
def Ends (work : EStateM ε σ α) (s : σ) (post : α → σ → Prop) (fail : σ → Prop) : Prop :=
  match work s with
  | .ok a t => post a t
  | .error _ t => fail t

section Rules

variable {work : EStateM ε σ α} {s t : σ} {post : α → σ → Prop} {fail : σ → Prop}

lemma Ends.leaves {P : σ → Prop} (h : Ends work s (fun _ t => P t) P) : P (leaves work s) := by
  unfold Ends at h
  unfold NovelGraph.leaves
  cases hrun : work s <;> rw [hrun] at h <;> exact h

lemma Ends.of_succeeds {P : σ → Prop} (h : Ends work s (fun _ t => P t) fail)
    (hs : succeeds work s = true) : P (NovelGraph.leaves work s) := by
  unfold Ends at h
  unfold succeeds at hs
  unfold NovelGraph.leaves
  cases hrun : work s with
  | ok a t =>
    rw [hrun] at h
    exact h
  | error e t =>
    rw [hrun] at hs
    cases hs

lemma Ends.mono {post' : α → σ → Prop} {fail' : σ → Prop} (h : Ends work s post fail)
    (hpost : ∀ a t, post a t → post' a t) (hfail : ∀ t, fail t → fail' t) :
    Ends work s post' fail' := by
  unfold Ends at h ⊢
  cases hrun : work s with
  | ok a t =>
    rw [hrun] at h
    exact hpost a t h
  | error e t =>
    rw [hrun] at h
    exact hfail t h

lemma Ends.imp {post' : α → σ → Prop} (h : Ends work s post fail)
    (hpost : ∀ a t, post a t → post' a t) : Ends work s post' fail :=
  h.mono hpost fun _ ht => ht

/-- What holds in any case implies something else in any case. -/
lemma Ends.both {P Q : σ → Prop} (h : Ends work s (fun _ t => P t) P) (himp : ∀ t, P t → Q t) :
    Ends work s (fun _ t => Q t) Q :=
  h.mono (fun _ => himp) himp

@[simp] lemma ends_bind {next : α → EStateM ε σ β} {post : β → σ → Prop} :
    Ends (work >>= next) s post fail ↔ Ends work s (fun a t => Ends (next a) t post fail) fail := by
  simp only [Ends, bind, EStateM.bind]
  cases work s <;> rfl

@[simp] lemma ends_get {post : σ → σ → Prop} :
    Ends (get : EStateM ε σ σ) s post fail ↔ post s s := Iff.rfl

@[simp] lemma ends_set {post : PUnit → σ → Prop} :
    Ends (set t : EStateM ε σ PUnit) s post fail ↔ post ⟨⟩ t := Iff.rfl

@[simp] lemma ends_modify {f : σ → σ} {post : PUnit → σ → Prop} :
    Ends (modify f : EStateM ε σ PUnit) s post fail ↔ post ⟨⟩ (f s) := Iff.rfl

@[simp] lemma ends_discard {post : PUnit → σ → Prop} :
    Ends (discard work) s post fail ↔ Ends work s (fun _ t => post ⟨⟩ t) fail := by
  simp only [Ends, Functor.discard, Functor.mapConst, Function.comp_apply, EStateM.map]
  cases work s <;> rfl

/-- What holds where a failure is caught holds as well where there is none. -/
lemma ends_tryCatch {handle : ε → EStateM ε σ α} {middle : σ → Prop} (h : Ends work s post middle)
    (hcaught : ∀ f t, middle t → Ends (handle f) t post fail) :
    Ends (tryCatch work handle) s post fail := by
  unfold Ends at h ⊢
  simp only [tryCatch, tryCatchThe, MonadExceptOf.tryCatch, EStateM.tryCatch]
  cases hrun : work s with
  | ok a t =>
    rw [hrun] at h
    exact h
  | error f t =>
    rw [hrun] at h
    exact hcaught f t h

lemma ends_forM_cons {round : α → EStateM ε σ PUnit} {a : α} {rest : List α}
    {post : PUnit → σ → Prop} : Ends ((a :: rest).forM round) s post fail ↔
      Ends (round a) s (fun _ t => Ends (rest.forM round) t post fail) fail :=
  ends_bind

/-- What every round keeps, the whole loop keeps. -/
theorem ends_forM {I F : σ → Prop} {round : α → EStateM ε σ PUnit} {items : List α}
    (h : ∀ a ∈ items, ∀ s, I s → Ends (round a) s (fun _ t => I t) F) (hs : I s) :
    Ends (items.forM round) s (fun _ t => I t) F := by
  induction items generalizing s with
  | nil => exact hs
  | cons a rest ih =>
    rw [ends_forM_cons]
    refine (h a List.mem_cons_self s hs).imp fun _ t ht => ?_
    exact ih (fun b hb => h b (List.mem_cons_of_mem a hb)) ht

end Rules
end NovelGraph
