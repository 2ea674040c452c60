import NovelGraph.Proofs.Identity
import NovelGraph.Proofs.Outcome
import NovelGraph.Script.Chain

/-! One step of a chain, case by case. -/
namespace NovelGraph.Flow

open Outcome Script

/-- Whether a chain enters a block: it was not seen before, and all of its inputs were. -/
def enters (f : Flow) (seen : List Value) (id : Value) : Bool :=
  !id.memberOf seen && f.inputs.allSeen seen id

/-- The suite that a control block takes from its successor of a given number. -/
def branchFrom (f : Flow) (fuel : ℕ) (seen : List Value) (indent : String) (b : Block) (n : ℕ) :
    Except Fault String :=
  match (f.links.nextIds b.id)[n]? with
  | none => .ok ""
  | some next => do pure (← f.chainFrom fuel seen (indent ++ indentation) true next).1

/-- One more successor at the end of a chain. -/
def extend (f : Flow) (fuel : ℕ) (indent : String) (done : String × List Value) (next : Value) :
    Except Fault (String × List Value) := do
  let (more, seen) ← f.chainFrom fuel done.2 indent true next
  pure (done.1 ++ more, seen)

/-- What a block that is no control block writes itself. -/
def ownText (f : Flow) (indent : String) (b : Block) : Except Fault String :=
  if b.kind.isDefinition then pure "" else b.render indent f.around

variable {f : Flow} {fuel : ℕ} {seen seen' : List Value} {indent text : String} {follow : Bool}
  {id : Value} {b : Block}

lemma chainFrom_of_not_enters (h : f.enters seen id = false) :
    f.chainFrom (fuel + 1) seen indent follow id = .ok ("", seen) := by
  have hc : (id.memberOf seen || !f.inputs.allSeen seen id) = true := by
    rw [enters] at h
    cases hm : id.memberOf seen <;> simp_all
  rw [chainFrom, if_pos hc]

lemma not_skipped_of_enters (h : f.enters seen id = true) :
    ¬(id.memberOf seen || !f.inputs.allSeen seen id) = true := by
  simpa [enters] using h

lemma chainFrom_of_missing (h : f.enters seen id = true) (hb : f.scene.findBlock id = none) :
    f.chainFrom (fuel + 1) seen indent follow id = .ok ("", seen ++ [id]) := by
  rw [chainFrom, if_neg (not_skipped_of_enters h)]
  simp only [hb]

lemma chainFrom_ifElse (h : f.enters seen id = true) (hb : f.scene.findBlock id = some b)
    (hk : b.kind = .ifElse) :
    f.chainFrom (fuel + 1) seen indent follow id =
      (do
        let ps ← b.paramList
        if (param ps "condition").isEmpty then pure ("", seen ++ [id])
        else
          let yes ← f.branchFrom fuel (seen ++ [id]) indent b 0
          let no ← f.branchFrom fuel (seen ++ [id]) indent b 1
          pure (conditional indent ps yes no, seen ++ [id])) := by
  rw [chainFrom, if_neg (not_skipped_of_enters h)]
  simp only [hb, hk]
  rfl

lemma chainFrom_whileLoop (h : f.enters seen id = true) (hb : f.scene.findBlock id = some b)
    (hk : b.kind = .whileLoop) :
    f.chainFrom (fuel + 1) seen indent follow id =
      (do
        let ps ← b.paramList
        if (param ps "condition").isEmpty then pure ("", seen ++ [id])
        else
          let text ← f.branchFrom fuel (seen ++ [id]) indent b 0
          pure (whileLoop indent ps text, seen ++ [id])) := by
  rw [chainFrom, if_neg (not_skipped_of_enters h)]
  simp only [hb, hk]
  rfl

lemma chainFrom_forLoop (h : f.enters seen id = true) (hb : f.scene.findBlock id = some b)
    (hk : b.kind = .forLoop) :
    f.chainFrom (fuel + 1) seen indent follow id =
      (do
        let ps ← b.paramList
        if (param ps "variable").isEmpty || (param ps "iterable").isEmpty then
          pure ("", seen ++ [id])
        else
          let text ← f.branchFrom fuel (seen ++ [id]) indent b 0
          pure (forLoop indent ps text, seen ++ [id])) := by
  rw [chainFrom, if_neg (not_skipped_of_enters h)]
  simp only [hb, hk]
  rfl

lemma chainFrom_plain (h : f.enters seen id = true) (hb : f.scene.findBlock id = some b)
    (hk : b.kind.isControl = false) :
    f.chainFrom (fuel + 1) seen indent follow id =
      (do
        let own ← f.ownText indent b
        if follow then
          let next ← f.scene.sortByPlace (f.links.next b.id)
          next.foldlM (f.extend fuel indent) (own, seen ++ [id])
        else pure (own, seen ++ [id])) := by
  rw [chainFrom, if_neg (not_skipped_of_enters h)]
  simp only [hb]
  split
  · rename_i hkind
    simp [hkind, BlockKind.isControl] at hk
  · rename_i hkind
    simp [hkind, BlockKind.isControl] at hk
  · rename_i hkind
    simp [hkind, BlockKind.isControl] at hk
  · unfold ownText
    cases b.kind.isDefinition <;> cases follow <;> rfl

/-- The successors of a block, one after the other, at the end of a chain. -/
def followOn (f : Flow) (fuel : ℕ) (indent : String) (b : Block) (done : String × List Value) :
    Except Fault (String × List Value) := do
  let next ← f.scene.sortByPlace (f.links.next b.id)
  next.foldlM (f.extend fuel indent) done

/-- Two chains do the same at a block that both enter if it says the same to both, and the chains
behind it do. -/
lemma chainFrom_congr {g : Flow} {m n : ℕ} {c : Block} (he : f.enters seen id = true)
    (he' : g.enters seen id = true) (hb : f.scene.findBlock id = some b)
    (hc : g.scene.findBlock id = some c) (hkind : b.kind = c.kind)
    (hparams : b.paramList = c.paramList) (hown : f.ownText indent b = g.ownText indent c)
    (hfirst : b.kind.isControl = true →
      f.branchFrom m (seen ++ [id]) indent b 0 = g.branchFrom n (seen ++ [id]) indent c 0)
    (hsecond : b.kind = .ifElse →
      f.branchFrom m (seen ++ [id]) indent b 1 = g.branchFrom n (seen ++ [id]) indent c 1)
    (hfollow : b.kind.isControl = false → ∀ own,
      f.followOn m indent b (own, seen ++ [id]) = g.followOn n indent c (own, seen ++ [id])) :
    f.chainFrom (m + 1) seen indent follow id = g.chainFrom (n + 1) seen indent follow id := by
  cases hk : b.kind.isControl with
  | false =>
    rw [chainFrom_plain he hb hk, chainFrom_plain he' hc (hkind ▸ hk), hown]
    refine bind_congr fun own => ?_
    cases follow with
    | false => rfl
    | true => exact hfollow hk own
  | true =>
    have hfirst := hfirst hk
    cases hk' : b.kind <;> simp only [hk', BlockKind.isControl, Bool.false_eq_true] at hk
    case ifElse =>
      rw [chainFrom_ifElse he hb hk', chainFrom_ifElse he' hc (hkind ▸ hk'), hparams, hfirst,
        hsecond hk']
    case whileLoop =>
      rw [chainFrom_whileLoop he hb hk', chainFrom_whileLoop he' hc (hkind ▸ hk'), hparams, hfirst]
    case forLoop =>
      rw [chainFrom_forLoop he hb hk', chainFrom_forLoop he' hc (hkind ▸ hk'), hparams, hfirst]

/-- The text of a control block that is entered with the given ids seen. -/
inductive ControlText (f : Flow) (fuel : ℕ) (seen : List Value) (indent : String) (b : Block) :
    String → Prop
  | silent : ControlText f fuel seen indent b ""
  | ifElse {ps yes no} (kind : b.kind = .ifElse) (params : b.paramList = .ok ps)
      (first : f.branchFrom fuel seen indent b 0 = .ok yes)
      (second : f.branchFrom fuel seen indent b 1 = .ok no) :
      ControlText f fuel seen indent b (conditional indent ps yes no)
  | whileLoop {ps body} (kind : b.kind = .whileLoop) (params : b.paramList = .ok ps)
      (first : f.branchFrom fuel seen indent b 0 = .ok body) :
      ControlText f fuel seen indent b (whileLoop indent ps body)
  | forLoop {ps body} (kind : b.kind = .forLoop) (params : b.paramList = .ok ps)
      (first : f.branchFrom fuel seen indent b 0 = .ok body) :
      ControlText f fuel seen indent b (forLoop indent ps body)

lemma chainFrom_control (he : f.enters seen id = true) (hb : f.scene.findBlock id = some b)
    (hk : b.kind.isControl = true)
    (h : f.chainFrom (fuel + 1) seen indent follow id = .ok (text, seen')) :
    seen' = seen ++ [id] ∧ f.ControlText fuel (seen ++ [id]) indent b text := by
  cases hkind : b.kind <;> simp only [hkind, BlockKind.isControl, Bool.false_eq_true] at hk
  case ifElse =>
    rw [chainFrom_ifElse he hb hkind, bind_eq_ok] at h
    obtain ⟨ps, hps, h⟩ := h
    split at h
    · cases h
      exact ⟨rfl, .silent⟩
    · obtain ⟨yes, hy, h⟩ := bind_eq_ok.mp h
      obtain ⟨no, hn, h⟩ := bind_eq_ok.mp h
      cases h
      exact ⟨rfl, .ifElse hkind hps hy hn⟩
  case whileLoop =>
    rw [chainFrom_whileLoop he hb hkind, bind_eq_ok] at h
    obtain ⟨ps, hps, h⟩ := h
    split at h
    · cases h
      exact ⟨rfl, .silent⟩
    · obtain ⟨body, hbody, h⟩ := bind_eq_ok.mp h
      cases h
      exact ⟨rfl, .whileLoop hkind hps hbody⟩
  case forLoop =>
    rw [chainFrom_forLoop he hb hkind, bind_eq_ok] at h
    obtain ⟨ps, hps, h⟩ := h
    split at h
    · cases h
      exact ⟨rfl, .silent⟩
    · obtain ⟨body, hbody, h⟩ := bind_eq_ok.mp h
      cases h
      exact ⟨rfl, .forLoop hkind hps hbody⟩

/-- All that a chain can do at its first block. -/
inductive ChainStep (f : Flow) (fuel : ℕ) (seen : List Value) (indent : String) (id : Value) :
    Bool → String → List Value → Prop
  | skipped {follow : Bool} (enters : f.enters seen id = false) :
      ChainStep f fuel seen indent id follow "" seen
  | missing {follow : Bool} (enters : f.enters seen id = true)
      (found : f.scene.findBlock id = none) :
      ChainStep f fuel seen indent id follow "" (seen ++ [id])
  | control {follow : Bool} {b : Block} {text : String} (enters : f.enters seen id = true)
      (found : f.scene.findBlock id = some b)
      (written : f.ControlText fuel (seen ++ [id]) indent b text) :
      ChainStep f fuel seen indent id follow text (seen ++ [id])
  | single {b : Block} {own : String} (enters : f.enters seen id = true)
      (found : f.scene.findBlock id = some b) (written : f.ownText indent b = .ok own) :
      ChainStep f fuel seen indent id false own (seen ++ [id])
  | followed {b : Block} {own text : String} {next seen' : List Value}
      (enters : f.enters seen id = true) (found : f.scene.findBlock id = some b)
      (written : f.ownText indent b = .ok own)
      (order : f.scene.sortByPlace (f.links.next b.id) = .ok next)
      (rest : next.foldlM (f.extend fuel indent) (own, seen ++ [id]) = .ok (text, seen')) :
      ChainStep f fuel seen indent id true text seen'

lemma chainFrom_step (h : f.chainFrom (fuel + 1) seen indent follow id = .ok (text, seen')) :
    f.ChainStep fuel seen indent id follow text seen' := by
  cases he : f.enters seen id with
  | false =>
    rw [chainFrom_of_not_enters he] at h
    cases h
    exact .skipped he
  | true =>
    cases hb : f.scene.findBlock id with
    | none =>
      rw [chainFrom_of_missing he hb] at h
      cases h
      exact .missing he hb
    | some b =>
      cases hk : b.kind.isControl with
      | true =>
        obtain ⟨rfl, hc⟩ := chainFrom_control he hb hk h
        exact .control he hb hc
      | false =>
        rw [chainFrom_plain he hb hk, bind_eq_ok] at h
        obtain ⟨own, hown, h⟩ := h
        cases follow with
        | false =>
          cases h
          exact .single he hb hown
        | true =>
          obtain ⟨next, hn, h⟩ := bind_eq_ok.mp h
          exact .followed he hb hown hn h

lemma branchFrom_eq_ok {n : ℕ} (h : f.branchFrom fuel seen indent b n = .ok text) :
    text = "" ∨ ∃ next after, (f.links.nextIds b.id)[n]? = some next ∧
      f.chainFrom fuel seen (indent ++ indentation) true next = .ok (text, after) := by
  unfold branchFrom at h
  split at h
  · cases h
    exact .inl rfl
  · rename_i next hn
    obtain ⟨⟨t, after⟩, ht, h⟩ := bind_eq_ok.mp h
    cases h
    exact .inr ⟨next, after, hn, ht⟩

lemma extend_eq_ok {done done' : String × List Value} {next : Value}
    (h : f.extend fuel indent done next = .ok done') :
    ∃ more, f.chainFrom fuel done.2 indent true next = .ok (more, done'.2) ∧
      done'.1 = done.1 ++ more := by
  obtain ⟨⟨more, after⟩, hmore, h⟩ := bind_eq_ok.mp h
  cases h
  exact ⟨more, hmore, rfl⟩

/-- Chains only add to what was seen. -/
theorem chainFrom_seen_grows (h : f.chainFrom fuel seen indent follow id = .ok (text, seen')) :
    seen <+: seen' := by
  induction fuel generalizing seen indent follow id text seen' with
  | zero =>
    cases h
    exact List.prefix_rfl
  | succ fuel ih =>
    cases chainFrom_step h with
    | skipped => exact List.prefix_rfl
    | missing => exact List.prefix_append _ _
    | control => exact List.prefix_append _ _
    | single => exact List.prefix_append _ _
    | followed _ _ _ _ rest =>
      refine foldlM_invariant (fun done => seen <+: done.2) ?_ (List.prefix_append _ _) rest
      intro t _ done done' hdone hstep
      obtain ⟨more, hmore, -⟩ := extend_eq_ok hstep
      exact hdone.trans (ih hmore)

end NovelGraph.Flow
