import Mathlib.Data.List.Chain
import Mathlib.Logic.Relation
import NovelGraph.Proofs.Branches

/-! The calls of a chain. A chain calls itself at what follows its block: for the suites of a
control block each time with the ids seen so far, behind other blocks in turn, with what the calls
before have added. The answer to a call is what its block makes of the answers to these calls, and
on every graph, with circles, doubled wires or ids of no block, they come to an end: each nested
call that enters its block leaves less ahead. So no id is entered twice on a way down, and what is
added can be reached. -/
namespace NovelGraph

open Outcome Relation Script

namespace Links

/-- An id leads to itself, and to what follows an id that it leads to. -/
def Leads (l : Links) : Value → Value → Prop := ReflTransGen fun u v => v ∈ l.nextIds u

lemma nextIds_congr (l : Links) {u v : Value} (h : u.same v = true) :
    l.nextIds u = l.nextIds v := by
  rw [nextIds, nextIds, next, next, Dict.get?_congr l h]

/-- Ids are added, all of which can be reached from one. -/
def Adds (l : Links) (id : Value) (seen seen' : List Value) : Prop :=
  ∃ new, seen' = seen ++ new ∧ ∀ v ∈ new, l.Leads id v

namespace Adds

variable {l : Links} {id next : Value} {seen seen' seen'' : List Value}

lemma refl (l : Links) (id : Value) (seen : List Value) : l.Adds id seen seen :=
  ⟨[], by simp, by simp⟩

lemma enter (l : Links) (id : Value) (seen : List Value) : l.Adds id seen (seen ++ [id]) := by
  refine ⟨[id], rfl, fun v hv => ?_⟩
  rw [List.mem_singleton.mp hv]
  exact ReflTransGen.refl

lemma trans (h : l.Adds id seen seen') (h' : l.Adds id seen' seen'') : l.Adds id seen seen'' := by
  obtain ⟨new, rfl, hnew⟩ := h
  obtain ⟨new', rfl, hnew'⟩ := h'
  refine ⟨new ++ new', List.append_assoc _ _ _, fun v hv => ?_⟩
  exact (List.mem_append.mp hv).elim (hnew v) (hnew' v)

lemma behind (hnext : l.Leads id next) (h : l.Adds next seen seen') : l.Adds id seen seen' := by
  obtain ⟨new, rfl, hnew⟩ := h
  exact ⟨new, rfl, fun v hv => hnext.trans (hnew v hv)⟩

lemma isPrefix (h : l.Adds id seen seen') : seen <+: seen' := by
  obtain ⟨new, rfl, -⟩ := h
  exact List.prefix_append _ _

end Adds
end Links

namespace Flow

/-- A call of a chain: what was seen before it, the indent of its text, whether it goes on behind
its block, and the id at which it starts. -/
structure Call where
  seen : List Value
  indent : String
  follow : Bool
  id : Value
deriving DecidableEq

namespace Call

/-- What is seen once the call has entered its block. -/
def entered (c : Call) : List Value := c.seen ++ [c.id]

/-- The call for a suite of the block. -/
def suite (c : Call) (next : Value) : Call := ⟨c.entered, c.indent ++ indentation, true, next⟩

/-- The call for what follows the block, when the given ids were seen. -/
def successor (c : Call) (seen : List Value) (next : Value) : Call := ⟨seen, c.indent, true, next⟩

end Call

/-- What a call answers: its text and the ids seen after it. -/
abbrev Answer := Except Fault (String × List Value)

section Answers

variable (f : Flow) (answer : Call → Answer) (c : Call)

def suiteBy (b : Block) (n : ℕ) : Except Fault String :=
  match (f.links.nextIds b.id)[n]? with
  | none => .ok ""
  | some next => do pure (← answer (c.suite next)).1

def turnBy (done : String × List Value) (next : Value) : Answer := do
  let (more, seen) ← answer (c.successor done.2 next)
  pure (done.1 ++ more, seen)

/-- What a block that is entered answers. -/
def blockBy (b : Block) : Answer :=
  match b.kind with
  | .ifElse => do
    let ps ← b.paramList
    if (param ps "condition").isEmpty then pure ("", c.entered)
    else
      let yes ← f.suiteBy answer c b 0
      let no ← f.suiteBy answer c b 1
      pure (conditional c.indent ps yes no, c.entered)
  | .whileLoop => do
    let ps ← b.paramList
    if (param ps "condition").isEmpty then pure ("", c.entered)
    else pure (whileLoop c.indent ps (← f.suiteBy answer c b 0), c.entered)
  | .forLoop => do
    let ps ← b.paramList
    if (param ps "variable").isEmpty || (param ps "iterable").isEmpty then pure ("", c.entered)
    else pure (forLoop c.indent ps (← f.suiteBy answer c b 0), c.entered)
  | _ => do
    let own ← f.ownText c.indent b
    if c.follow then
      let next ← f.scene.sortByPlace (f.links.next b.id)
      next.foldlM (turnBy answer c) (own, c.entered)
    else pure (own, c.entered)

/-- The answer to a call when further calls are answered in the given way. -/
def answerBy : Answer :=
  if f.enters c.seen c.id then
    (f.scene.findBlock c.id).elim (.ok ("", c.entered)) (f.blockBy answer c)
  else .ok ("", c.seen)

end Answers

/-- The answer to a call. -/
def answer (f : Flow) (c : Call) : Answer := f.chainFrom f.depth c.seen c.indent c.follow c.id

/-- The calls for what follows a block, each with the ids seen after the one before, until one
fails. -/
def inTurn (f : Flow) (c : Call) : List Value → List Value → List Call
  | _, [] => []
  | seen, next :: rest =>
    c.successor seen next ::
      (f.answer (c.successor seen next)).toOption.elim [] fun done => inTurn f c done.2 rest

/-- The calls that a block makes at most when it is entered. -/
def madeAt (f : Flow) (c : Call) (b : Block) : List Call :=
  if b.kind.isControl then ((f.links.nextIds b.id).take 2).map c.suite
  else if c.follow then
    (f.scene.sortByPlace (f.links.next b.id)).toOption.elim [] (f.inTurn c c.entered)
  else []

/-- The calls that a call makes at most. -/
def made (f : Flow) (c : Call) : List Call :=
  if f.enters c.seen c.id then (f.scene.findBlock c.id).elim [] (f.madeAt c) else []

variable {f : Flow} {fuel : ℕ} {c d : Call} {b : Block} {seen seen' : List Value}
  {indent text : String} {follow : Bool} {id : Value}

section Body

lemma isControl_of_not (hif : ¬b.kind = .ifElse) (hwhile : ¬b.kind = .whileLoop)
    (hfor : ¬b.kind = .forLoop) : b.kind.isControl = false := by
  cases hk : b.kind <;> simp_all [BlockKind.isControl]

lemma chainFrom_succ_eq_answerBy (f : Flow) (fuel : ℕ) (c : Call) :
    f.chainFrom (fuel + 1) c.seen c.indent c.follow c.id =
      f.answerBy (fun d => f.chainFrom fuel d.seen d.indent d.follow d.id) c := by
  unfold answerBy
  cases he : f.enters c.seen c.id with
  | false => rw [chainFrom_of_not_enters he, if_neg Bool.false_ne_true]
  | true =>
    rw [if_pos rfl]
    cases hb : f.scene.findBlock c.id with
    | none => exact chainFrom_of_missing he hb
    | some b =>
      rw [Option.elim_some]
      unfold blockBy
      split
      · rename_i hk
        exact chainFrom_ifElse he hb hk
      · rename_i hk
        exact chainFrom_whileLoop he hb hk
      · rename_i hk
        exact chainFrom_forLoop he hb hk
      · rename_i hif hwhile hfor
        exact chainFrom_plain he hb (isControl_of_not hif hwhile hfor)

/-- A call is answered out of the answers to other calls. -/
lemma answer_eq_answerBy (f : Flow) (c : Call) : f.answer c = f.answerBy f.answer c := by
  rw [answer, ← chainFrom_depth_succ, chainFrom_succ_eq_answerBy]
  rfl

/-- A suite asks for nothing but one of the first two calls. -/
lemma suiteBy_congr {answer other : Call → Answer} {n : ℕ} (hn : n < 2)
    (h : ∀ d ∈ ((f.links.nextIds b.id).take 2).map c.suite, answer d = other d) :
    f.suiteBy answer c b n = f.suiteBy other c b n := by
  unfold suiteBy
  cases hnext : (f.links.nextIds b.id)[n]? with
  | none => rfl
  | some next =>
    have hmem : next ∈ (f.links.nextIds b.id).take 2 := by
      rw [← List.getElem?_take_of_lt hn] at hnext
      exact List.mem_of_getElem? hnext
    simp only [h _ (List.mem_map_of_mem hmem)]

/-- What follows a block asks for nothing but the calls in turn. -/
lemma foldlM_turnBy_congr {answer : Call → Answer} {next : List Value}
    (h : ∀ d ∈ f.inTurn c seen next, answer d = f.answer d) (text : String) :
    next.foldlM (turnBy answer c) (text, seen) = next.foldlM (turnBy f.answer c) (text, seen) := by
  induction next generalizing seen text with
  | nil => rfl
  | cons t rest ih =>
    rw [inTurn] at h
    have hfirst := h _ List.mem_cons_self
    rw [List.foldlM_cons, List.foldlM_cons, turnBy, turnBy, hfirst]
    cases hanswer : f.answer (c.successor seen t) with
    | error fault => rfl
    | ok done =>
      refine ih (fun d hd => h d (List.mem_cons_of_mem _ ?_)) _
      rw [hanswer]
      exact hd

lemma blockBy_congr {answer : Call → Answer} (h : ∀ d ∈ f.madeAt c b, answer d = f.answer d) :
    f.blockBy answer c b = f.blockBy f.answer c b := by
  have hsuite : b.kind.isControl = true → ∀ n < 2,
      f.suiteBy answer c b n = f.suiteBy f.answer c b n := by
    intro hk n hn
    rw [madeAt, if_pos hk] at h
    exact suiteBy_congr hn h
  unfold blockBy
  split
  · rename_i hk
    have hcontrol : b.kind.isControl = true := by rw [hk]; rfl
    rw [hsuite hcontrol 0 Nat.zero_lt_two, hsuite hcontrol 1 Nat.one_lt_two]
  · rename_i hk
    rw [hsuite (by rw [hk]; rfl) 0 Nat.zero_lt_two]
  · rename_i hk
    rw [hsuite (by rw [hk]; rfl) 0 Nat.zero_lt_two]
  · rename_i hif hwhile hfor
    refine bind_congr fun own => ?_
    cases hfollow : c.follow with
    | false => rfl
    | true =>
      cases hs : f.scene.sortByPlace (f.links.next b.id) with
      | error fault => rfl
      | ok next =>
        rw [madeAt, isControl_of_not hif hwhile hfor, hfollow, hs] at h
        exact foldlM_turnBy_congr h own

/-- Only the answers to the calls that are made matter to the answer to a call. -/
lemma answerBy_eq_answer {answer : Call → Answer} (h : ∀ d ∈ f.made c, answer d = f.answer d) :
    f.answerBy answer c = f.answer c := by
  rw [answer_eq_answerBy]
  unfold answerBy
  unfold made at h
  cases he : f.enters c.seen c.id with
  | false => rfl
  | true =>
    cases hb : f.scene.findBlock c.id with
    | none => rfl
    | some b =>
      rw [he, hb] at h
      exact blockBy_congr h

end Body

section Nesting

/-- A chain adds ids that can be reached. -/
theorem chainFrom_adds (h : f.chainFrom fuel seen indent follow id = .ok (text, seen')) :
    f.links.Adds id seen seen' := by
  induction fuel generalizing seen indent follow id text seen' with
  | zero =>
    cases h
    exact .refl _ _ _
  | succ fuel ih =>
    cases chainFrom_step h with
    | skipped => exact .refl _ _ _
    | missing => exact .enter _ _ _
    | control => exact .enter _ _ _
    | single => exact .enter _ _ _
    | @followed b _ _ _ _ _ found _ order rest =>
      refine foldlM_invariant (fun done => f.links.Adds id seen done.2) ?_ (.enter _ _ _) rest
      intro t ht done done' hdone hstep
      obtain ⟨more, hmore, -⟩ := extend_eq_ok hstep
      have hnext : t ∈ f.links.nextIds id := by
        rw [← f.links.nextIds_congr (Value.same_of_equals (Scene.findBlock_equals found))]
        exact (Scene.sortByPlace_perm order).mem_iff.mp ht
      exact hdone.trans ((ih hmore).behind (.single hnext))

/-- What a call passes on to a call below it: a start that it leads to, and what it has seen with
the ids that were added until then. -/
structure Below (f : Flow) (c d : Call) : Prop where
  leads : f.links.Leads c.id d.id
  adds : f.links.Adds c.id c.entered d.seen

lemma Below.trans {e : Call} (h : f.Below c d) (h' : f.Below d e) : f.Below c e := by
  refine ⟨h.leads.trans h'.leads, h.adds.trans ?_⟩
  exact ((Links.Adds.enter _ _ _).trans h'.adds).behind h.leads

/-- The calls in turn start at what follows, with what the ones before have added. -/
lemma mem_inTurn {next : List Value} (hnext : ∀ t ∈ next, t ∈ f.links.nextIds c.id)
    (h : d ∈ f.inTurn c seen next) :
    d.id ∈ f.links.nextIds c.id ∧ f.links.Adds c.id seen d.seen := by
  induction next generalizing seen with
  | nil => cases h
  | cons t rest ih =>
    obtain ⟨ht, hrest⟩ := List.forall_mem_cons.mp hnext
    rw [inTurn] at h
    rcases List.mem_cons.mp h with rfl | h
    · exact ⟨ht, .refl _ _ _⟩
    · cases hanswer : f.answer (c.successor seen t) with
      | error fault =>
        rw [hanswer] at h
        cases h
      | ok done =>
        rw [hanswer] at h
        obtain ⟨hid, hadds⟩ := ih hrest h
        have hfirst : f.links.Adds t seen done.2 := chainFrom_adds hanswer
        exact ⟨hid, (hfirst.behind (.single ht)).trans hadds⟩

/-- A call that makes a call has entered its block. -/
lemma mem_made (h : d ∈ f.made c) :
    f.enters c.seen c.id = true ∧ d.id ∈ f.links.nextIds c.id ∧
      f.links.Adds c.id c.entered d.seen := by
  unfold made at h
  cases he : f.enters c.seen c.id with
  | false =>
    rw [he] at h
    cases h
  | true =>
    refine ⟨rfl, ?_⟩
    rw [he, if_pos rfl] at h
    cases hb : f.scene.findBlock c.id with
    | none =>
      rw [hb] at h
      cases h
    | some b =>
      rw [hb, Option.elim_some, madeAt] at h
      have hnext : f.links.nextIds b.id = f.links.nextIds c.id :=
        f.links.nextIds_congr (Value.same_of_equals (Scene.findBlock_equals hb))
      split_ifs at h
      · obtain ⟨t, ht, rfl⟩ := List.mem_map.mp h
        exact ⟨hnext ▸ List.mem_of_mem_take ht, .refl _ _ _⟩
      · cases hs : f.scene.sortByPlace (f.links.next b.id) with
        | error fault =>
          rw [hs] at h
          cases h
        | ok next =>
          rw [hs] at h
          refine mem_inTurn (fun t ht => ?_) h
          rw [← hnext]
          exact (Scene.sortByPlace_perm hs).mem_iff.mp ht
      · cases h

lemma below_of_mem_made (h : d ∈ f.made c) : f.Below c d :=
  ⟨.single (mem_made h).2.1, (mem_made h).2.2⟩

/-- How many calls can at most be nested in a call. -/
def rank (f : Flow) (c : Call) : ℕ := if f.enters c.seen c.id then f.ahead c.entered + 1 else 0

/-- The calls that a call makes have less ahead of them. -/
lemma rank_lt_of_mem_made (h : d ∈ f.made c) : f.rank d < f.rank c := by
  obtain ⟨he, hid, hadds⟩ := mem_made h
  have hrest : f.ahead d.seen ≤ f.ahead c.entered := ahead_le hadds.isPrefix
  rw [rank, rank, if_pos he]
  split_ifs with hd
  · have hless : f.ahead d.entered < f.ahead d.seen :=
      ahead_lt (Links.mem_targets_of_mem_nextIds hid) hd
    omega
  · omega

/-- No call is nested in a call without end. -/
theorem made_wellFounded (f : Flow) : WellFounded fun d c => d ∈ f.made c :=
  Subrelation.wf (fun h => rank_lt_of_mem_made h) (measure f.rank).wf

/-- Calls that are nested in one another. -/
abbrev Nested (f : Flow) (path : List Call) : Prop := path.IsChain fun c d => d ∈ f.made c

lemma Nested.length_le {path : List Call} (h : f.Nested (c :: path)) : path.length ≤ f.rank c := by
  induction path generalizing c with
  | nil => exact Nat.zero_le _
  | cons d rest ih =>
    rw [Nested, List.isChain_cons_cons] at h
    have hrest := ih h.2
    have hless := rank_lt_of_mem_made h.1
    rw [List.length_cons]
    omega

/-- The calls on a way down are no more than the depth of the flow. -/
lemma Nested.length_le_depth {path : List Call} (h : f.Nested path) : path.length ≤ f.depth := by
  cases path with
  | nil => exact Nat.zero_le _
  | cons c rest =>
    have hlength := h.length_le
    have hahead : f.ahead c.entered ≤ f.links.targets.length := List.countP_le_length
    have hrank : f.rank c ≤ f.links.targets.length + 1 := by
      rw [rank]
      split_ifs
      · omega
      · omega
    rw [List.length_cons, depth]
    omega

lemma Nested.pairwise_below {path : List Call} (h : f.Nested path) : path.Pairwise f.Below := by
  have htrans : Trans f.Below f.Below f.Below := ⟨Below.trans⟩
  exact (h.imp fun _ _ => below_of_mem_made).pairwise

/-- What is entered below a call is not where the call started. -/
lemma Below.not_same (h : f.Below c d) (hd : f.enters d.seen d.id = true) :
    c.id.same d.id = false := by
  rw [enters, Bool.and_eq_true, Bool.not_eq_true'] at hd
  rw [← Bool.not_eq_true]
  intro hsame
  have hmem : c.id ∈ d.seen := h.adds.isPrefix.subset (by simp [Call.entered])
  rw [Value.memberOf_of_mem hmem (Value.same_symm hsame)] at hd
  cases hd.1

end Nesting

/-- Chains come to an end on every graph. Nothing but the answers to the calls that it makes has a
part in the answer to a call, and no calls are nested without end: there are never more of them on a
way down than the depth of the flow, each has what was seen above it and further ids that can be
reached from there, and enters no id that was entered above it. In the end a chain has added ids
that can be reached from its first. -/
theorem chain_comes_to_end (f : Flow) :
    (WellFounded fun d c => d ∈ f.made c) ∧
      (∀ c answer, (∀ d ∈ f.made c, answer d = f.answer d) → f.answerBy answer c = f.answer c) ∧
      (∀ path, f.Nested path → path.length ≤ f.depth ∧
        path.Pairwise fun c d => f.links.Adds c.id c.seen d.seen ∧
          (f.enters d.seen d.id = true → c.id.same d.id = false)) ∧
      ∀ seen indent follow id,
        (id.isKey = true →
          f.chain seen indent follow id = f.answer ⟨seen, indent, follow, id⟩) ∧
        ∀ text seen', f.chain seen indent follow id = .ok (text, seen') →
          f.links.Adds id seen seen' := by
  refine ⟨made_wellFounded f, fun c answer h => answerBy_eq_answer h, fun path h => ?_, ?_⟩
  · refine ⟨h.length_le_depth, h.pairwise_below.imp fun hbelow => ⟨?_, hbelow.not_same⟩⟩
    exact (Links.Adds.enter _ _ _).trans hbelow.adds
  · intro seen indent follow id
    refine ⟨fun hkey => ?_, fun text seen' h => ?_⟩
    · rw [chain, Value.requireKey, if_pos hkey]
      rfl
    · obtain ⟨-, -, h⟩ := bind_eq_ok.mp h
      exact chainFrom_adds h

/-- A block that leads to itself, twice to a conditional, and to an id of no block; the conditional
leads back, and so does what stands in its suite. -/
def tangledFlow : Flow where
  scene :=
    { id := .text "s", name := .text "Scene", label := .text "start",
      blocks :=
        [{ id := .text "tell", kind := .narration, params := .object [("text", .text "tell")],
            x := .int 0, y := .int 0 },
          { id := .text "ask", kind := .ifElse, params := .object [("condition", .text "asked")],
            x := .int 0, y := .int 1 },
          { id := .text "say", kind := .narration, params := .object [("text", .text "say")],
            x := .int 0, y := .int 2 }] }
  links :=
    [(.text "tell", [(.text "ask", .zero), (.text "ask", .zero), (.text "tell", .zero),
        (.text "nowhere", .zero)]),
      (.text "ask", [(.text "say", .zero), (.text "tell", .zero)]),
      (.text "say", [(.text "ask", .zero)])]
  inputs := []
  around := { cast := none, labels := none }

/-- The way down to the suite, which would go back, goes no further. -/
theorem tangledFlow_comes_to_end :
    ∃ path, tangledFlow.Nested path ∧
      path.map Call.id = [.text "tell", .text "ask", .text "say", .text "ask"] ∧
      path.length ≤ tangledFlow.depth ∧
      (path.Pairwise fun c d => tangledFlow.links.Adds c.id c.seen d.seen ∧
        (tangledFlow.enters d.seen d.id = true → c.id.same d.id = false)) ∧
      (∀ c ∈ path, tangledFlow.answerBy tangledFlow.answer c = tangledFlow.answer c) ∧
      tangledFlow.chain [] "" true (.text "tell") =
        .ok ("\"tell\"\nif asked:\n        \"say\"\n\n",
          [.text "tell", .text "nowhere", .text "ask"]) ∧
      tangledFlow.links.Adds (.text "tell") [] [.text "tell", .text "nowhere", .text "ask"] := by
  obtain ⟨-, hbody, hpath, hchain⟩ := chain_comes_to_end tangledFlow
  let first : Call := ⟨[], "", true, .text "tell"⟩
  let ask := first.successor [.text "tell", .text "nowhere"] (.text "ask")
  let say := ask.suite (.text "say")
  have hnested : tangledFlow.Nested [first, ask, say, say.successor say.entered (.text "ask")] := by
    decide +kernel
  have hrun : tangledFlow.chain [] "" true (.text "tell") =
      .ok ("\"tell\"\nif asked:\n        \"say\"\n\n",
        [.text "tell", .text "nowhere", .text "ask"]) := rfl
  obtain ⟨hlength, hpairs⟩ := hpath _ hnested
  exact ⟨_, hnested, rfl, hlength, hpairs, fun c _ => hbody c _ fun _ _ => rfl, hrun,
    (hchain _ _ _ _).2 _ _ hrun⟩

end Flow
end NovelGraph
