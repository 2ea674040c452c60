import Mathlib.Data.Finset.Card
import Mathlib.Data.Nat.Find
import NovelGraph.Export.Relabel
import NovelGraph.Proofs.SceneIntegrity

/-! Labels that scenes get where their own are taken. The search for a free label counts upwards
without a bound; it ends because its labels are all different and only finitely many are taken. One
scene after the other keeps its label or gets a free one, which is taken from then on. -/
namespace NovelGraph

open Outcome

namespace Relabel

/-- The labels that are tried in turn: the name itself, then the name with a number. -/
def attempt (base : String) : ℕ → String
  | 0 => base
  | n + 1 => s!"{base}_{n + 1}"

/-- Where a search stands: the label at hand, and the number of the next one. -/
structure Search where
  label : String
  counter : ℕ

namespace Search

/-- One turn of the search, which stops at a label that is free. -/
def turn (taken : List String) (base : String) (s : Search) : Option Search :=
  if s.label ∈ taken then some ⟨s!"{base}_{s.counter}", s.counter + 1⟩ else none

/-- So many turns lead from one state of the search to another. -/
inductive Turns (taken : List String) (base : String) : ℕ → Search → Search → Prop
  | stay (s : Search) : Turns taken base 0 s s
  | next {n : ℕ} {s t u : Search} (first : s.turn taken base = some t)
      (rest : Turns taken base n t u) : Turns taken base (n + 1) s u

end Search

variable {taken : List String} {base : String}

lemma attempt_succ (base : String) (n : ℕ) :
    attempt base (n + 1) = base ++ "_" ++ String.ofList (Nat.toDigits 10 (n + 1)) :=
  rfl

lemma attempt_injective (base : String) : Function.Injective (attempt base) := by
  have hlonger : ∀ n, base ≠ attempt base (n + 1) := by
    intro n h
    have hlength := congrArg String.length h
    rw [attempt_succ, String.length_append, String.length_append] at hlength
    have hmark : "_".length = 1 := rfl
    omega
  intro m n h
  cases m with
  | zero =>
    cases n with
    | zero => rfl
    | succ n => exact absurd h (hlonger n)
  | succ m =>
    cases n with
    | zero => exact absurd h.symm (hlonger m)
    | succ n =>
      rw [attempt_succ, attempt_succ, String.append_right_inj, String.ofList_inj] at h
      simpa using congrArg (Nat.ofDigitChars 10 · 0) h

/-- Among the labels that are tried first, one more than are taken, there is a free one. -/
lemma exists_attempt_notMem (taken : List String) (base : String) :
    ∃ n ≤ taken.toFinset.card, attempt base n ∉ taken := by
  by_contra hall
  push Not at hall
  have hle : (Finset.range (taken.toFinset.card + 1)).card ≤ taken.toFinset.card := by
    refine Finset.card_le_card_of_injOn (attempt base) (fun n hn => ?_)
      (attempt_injective base).injOn
    rw [Finset.mem_coe, Finset.mem_range] at hn
    rw [Finset.mem_coe, List.mem_toFinset]
    exact hall n (by omega)
  rw [Finset.card_range] at hle
  omega

/-- The bounded search finds the first free label within its bound. -/
lemma numbered_eq (fuel first : ℕ) {d : ℕ} (hd : d ≤ fuel)
    (hbefore : ∀ j < d, attempt base (first + 1 + j) ∈ taken)
    (hfree : attempt base (first + 1 + d) ∉ taken) :
    numbered taken base fuel (first + 1) = attempt base (first + 1 + d) := by
  induction fuel generalizing first d with
  | zero =>
    obtain rfl : d = 0 := by omega
    rfl
  | succ fuel ih =>
    cases d with
    | zero => exact if_neg hfree
    | succ d =>
      have hshift : ∀ j, first + 1 + (j + 1) = first + 1 + 1 + j := by omega
      rw [hshift] at hfree ⊢
      have hnext := ih (first + 1) (Nat.le_of_succ_le_succ hd) (fun j hj => ?_) hfree
      · exact (if_pos (hbefore 0 (Nat.succ_pos d))).trans hnext
      · rw [← hshift]
        exact hbefore (j + 1) (by omega)

lemma free_eq {n : ℕ} (hn : n ≤ taken.length) (hbefore : ∀ j < n, attempt base j ∈ taken)
    (hfree : attempt base n ∉ taken) : free taken base = attempt base n := by
  cases n with
  | zero => exact if_neg hfree
  | succ n =>
    have hshift : ∀ j, 0 + 1 + j = j + 1 := by omega
    rw [← hshift] at hfree ⊢
    have hnumbered := numbered_eq taken.length 0 (by omega) (fun j hj => ?_) hfree
    · exact (if_pos (hbefore 0 (Nat.succ_pos n))).trans hnumbered
    · rw [hshift]
      exact hbefore (j + 1) (by omega)

/-- As long as labels are taken the search goes from one to the next. -/
lemma turns_attempt (first : ℕ) {n : ℕ} (hbefore : ∀ j < n, attempt base (first + j) ∈ taken) :
    Search.Turns taken base n ⟨attempt base first, first + 1⟩
      ⟨attempt base (first + n), first + n + 1⟩ := by
  induction n generalizing first with
  | zero => exact .stay _
  | succ n ih =>
    have hturn : Search.turn taken base ⟨attempt base first, first + 1⟩ =
        some ⟨attempt base (first + 1), first + 1 + 1⟩ := if_pos (hbefore 0 (Nat.succ_pos n))
    have hshift : ∀ j, first + 1 + j = first + (j + 1) := by omega
    have hrest := ih (first + 1) fun j hj => by
      rw [hshift]
      exact hbefore (j + 1) (by omega)
    rw [hshift n] at hrest
    exact .next hturn hrest

/-- The free label is the first of the labels that are tried, and not many come before it. -/
lemma exists_free_eq (taken : List String) (base : String) :
    ∃ n ≤ taken.toFinset.card, free taken base = attempt base n ∧
      (∀ j < n, attempt base j ∈ taken) ∧ attempt base n ∉ taken := by
  obtain ⟨m, hm, hfree⟩ := exists_attempt_notMem taken base
  have hexists : ∃ n, attempt base n ∉ taken := ⟨m, hfree⟩
  have hle : Nat.find hexists ≤ taken.toFinset.card := (Nat.find_le hfree).trans hm
  have hbefore : ∀ j < Nat.find hexists, attempt base j ∈ taken := fun j hj =>
    not_not.mp (Nat.find_min hexists hj)
  exact ⟨Nat.find hexists, hle, free_eq (hle.trans (List.toFinset_card_le taken)) hbefore
    (Nat.find_spec hexists), hbefore, Nat.find_spec hexists⟩

lemma free_notMem (taken : List String) (base : String) : free taken base ∉ taken := by
  obtain ⟨n, -, heq, -, hfree⟩ := exists_free_eq taken base
  rwa [heq]

/-- The search ends after at most as many turns as labels are taken, at a free label. -/
theorem search_ends (taken : List String) (base : String) :
    ∃ n ≤ taken.toFinset.card,
      Search.Turns taken base n ⟨base, 1⟩ ⟨free taken base, n + 1⟩ ∧
      Search.turn taken base ⟨free taken base, n + 1⟩ = none := by
  obtain ⟨n, hn, heq, hbefore, hfree⟩ := exists_free_eq taken base
  refine ⟨n, hn, ?_, if_neg (free_notMem taken base)⟩
  have hturns := turns_attempt 0 fun j hj => by
    rw [Nat.zero_add]
    exact hbefore j hj
  rw [Nat.zero_add n] at hturns
  rw [heq]
  exact hturns

/-- A name with its blanks and dashes as underscores. -/
def word (name : String) : String := Text.replaceChar '-' ['_'] (Text.replaceChar ' ' ['_'] name)

/-- The label that a scene is given if it is free. -/
def wanted (project name : String) : String := word project ++ "_" ++ word name

lemma underscore_mem_free (taken : List String) (project name : String) :
    '_' ∈ (free taken (wanted project name)).toList := by
  obtain ⟨n, -, heq, -, -⟩ := exists_free_eq taken (wanted project name)
  rw [heq]
  cases n with
  | zero => simp [attempt, wanted]
  | succ n => simp [attempt_succ]

/-- The label is a text and one of those taken. -/
def IsTaken (taken : List String) (label : Value) : Prop := ∃ l ∈ taken, label = .text l

instance (taken : List String) (label : Value) : Decidable (IsTaken taken label) :=
  inferInstanceAs (Decidable (∃ l ∈ taken, label = .text l))

lemma isTaken_text {l : String} : IsTaken taken (.text l) ↔ l ∈ taken := by
  simp [IsTaken]

section Step

variable {project name : String} {hasStart : Bool} {s : Scene}

lemma scene_of_not_key (hkey : s.label.isKey = false) :
    scene (.text project) hasStart taken s = .error (.notAKey s.label) := by
  have hstart : s.label.equals (.text "start") = false := by
    by_contra h
    rw [Bool.not_eq_false, Value.equals_text_right] at h
    rw [h] at hkey
    cases hkey
  rw [scene, hstart, if_neg Bool.false_ne_true, Value.requireKey, hkey]
  rfl

/-- What becomes of a scene depends on whether its label is taken. -/
lemma scene_eq_ite (hstart : hasStart = decide ("start" ∈ taken)) (hkey : s.label.isKey = true) :
    scene (.text project) hasStart taken s =
      if IsTaken taken s.label then do
        let label := free taken (word project ++ "_" ++ (← plainName s.name))
        pure ({ s with label := .text label }, taken ++ [label])
      else .ok (s, taken) := by
  by_cases hlabel : s.label = .text "start"
  · have htaken : IsTaken taken s.label ↔ "start" ∈ taken := by rw [hlabel, isTaken_text]
    rw [scene, (Value.equals_text_right _ _).mpr hlabel, if_pos rfl, hstart]
    by_cases h : "start" ∈ taken
    · rw [if_pos (htaken.mpr h), decide_eq_true h]
      rfl
    · rw [if_neg (htaken.not.mpr h), decide_eq_false h]
      rfl
  · have hequals : s.label.equals (.text "start") = false := by
      simpa using (Value.equals_text_right s.label "start").not.mpr hlabel
    rw [scene, hequals, if_neg Bool.false_ne_true, Value.requireKey, hkey, if_pos rfl]
    cases hl : s.label with
    | text l =>
      by_cases h : l ∈ taken
      · rw [if_pos (isTaken_text.mpr h)]
        simp only [decide_eq_true h]
        rfl
      · rw [if_neg (isTaken_text.not.mpr h)]
        simp only [decide_eq_false h]
        rfl
    | _ =>
      rw [if_neg (by simp [IsTaken])]
      rfl

/-- A scene keeps a label that is free. -/
lemma scene_of_free (hstart : hasStart = decide ("start" ∈ taken)) (hkey : s.label.isKey = true)
    (h : ¬IsTaken taken s.label) : scene (.text project) hasStart taken s = .ok (s, taken) := by
  rw [scene_eq_ite hstart hkey, if_neg h]

/-- A scene gives up a label that is taken. -/
lemma scene_of_taken (hstart : hasStart = decide ("start" ∈ taken)) (hname : s.name = .text name)
    (h : IsTaken taken s.label) :
    scene (.text project) hasStart taken s =
      .ok ({ s with label := .text (free taken (wanted project name)) },
        taken ++ [free taken (wanted project name)]) := by
  have hkey : s.label.isKey = true := by
    obtain ⟨l, -, hlabel⟩ := h
    rw [hlabel]
    rfl
  rw [scene_eq_ite hstart hkey, if_pos h, hname]
  rfl

end Step

/-- Scenes and what becomes of them, one after the other. A free label stays. A taken one makes way
for a free one, which is taken from then on. -/
inductive Pass (project : String) : List String → List Scene → List Scene → Prop
  | done {taken : List String} : Pass project taken [] []
  | keep {taken : List String} {s : Scene} {ss ts : List Scene} (free : ¬IsTaken taken s.label)
      (rest : Pass project taken ss ts) : Pass project taken (s :: ss) (s :: ts)
  | give {taken : List String} {s : Scene} {ss ts : List Scene} {name : String}
      (named : s.name = .text name) (clash : IsTaken taken s.label)
      (rest : Pass project (taken ++ [free taken (wanted project name)]) ss ts) :
      Pass project taken (s :: ss)
        ({ s with label := .text (free taken (wanted project name)) } :: ts)

/-- The label that a scene was given in place of its own. -/
def given? (s t : Scene) : Option String :=
  if t.label = s.label then none
  else match t.label with
    | .text l => some l
    | _ => none

/-- All labels that scenes were given. -/
def given (ss ts : List Scene) : List String := (ss.zip ts).filterMap fun e => given? e.1 e.2

/-- The labels that are taken when the turn of a scene comes. -/
def known (taken : List String) (ss ts : List Scene) (i : ℕ) : List String :=
  taken ++ given (ss.take i) (ts.take i)

lemma isTaken_known {ss ts : List Scene} {i : ℕ} {label : Value} :
    IsTaken (known taken ss ts i) label ↔
      IsTaken taken label ∨ IsTaken (given (ss.take i) (ts.take i)) label := by
  simp only [IsTaken, known, List.mem_append, or_and_right, exists_or]

lemma not_isTaken_iff {label : Value} : ¬IsTaken taken label ↔ ∀ l ∈ taken, label ≠ .text l := by
  simp [IsTaken]

lemma given_keep (s : Scene) (ss ts : List Scene) : given (s :: ss) (s :: ts) = given ss ts := by
  simp [given, given?]

lemma given_give {s : Scene} {l : String} (h : s.label ≠ .text l) (ss ts : List Scene) :
    given (s :: ss) ({ s with label := .text l } :: ts) = l :: given ss ts := by
  simp [given, given?, Ne.symm h]

lemma ne_free_of_isTaken {label : Value} (h : IsTaken taken label) (base : String) :
    label ≠ .text (free taken base) := by
  rintro rfl
  exact free_notMem taken base (isTaken_text.mp h)

section Run

variable {project : String} {ss ts : List Scene}

/-- The start label of a game is never given to a scene. -/
lemma start_mem_append_free (project name : String) :
    "start" ∈ taken ++ [free taken (wanted project name)] ↔ "start" ∈ taken := by
  have hne : "start" ≠ free taken (wanted project name) := by
    intro h
    have hmem := underscore_mem_free taken project name
    rw [← h] at hmem
    exact absurd hmem (by decide)
  simp [hne]

lemma scenes_cons {hasStart : Bool} {s t : Scene} {later : List String}
    (hs : scene (.text project) hasStart taken s = .ok (t, later))
    (hrest : scenes (.text project) hasStart later ss = .ok ts) :
    scenes (.text project) hasStart taken (s :: ss) = .ok (t :: ts) := by
  rw [scenes, hs, ok_bind]
  change (scenes (.text project) hasStart later ss >>= fun rest => pure (t :: rest)) = _
  rw [hrest, ok_bind]
  rfl

lemma exists_pass (project : String) {hasStart : Bool}
    (hstart : hasStart = decide ("start" ∈ taken))
    (hnames : ∀ s ∈ ss, ∃ name, s.name = .text name) (hkeys : ∀ s ∈ ss, s.label.isKey = true) :
    ∃ ts, scenes (.text project) hasStart taken ss = .ok ts ∧ Pass project taken ss ts := by
  induction ss generalizing taken with
  | nil => exact ⟨[], rfl, .done⟩
  | cons s rest ih =>
    rw [List.forall_mem_cons] at hnames hkeys
    obtain ⟨⟨name, hname⟩, hnames⟩ := hnames
    obtain ⟨hkey, hkeys⟩ := hkeys
    by_cases h : IsTaken taken s.label
    · have hlater : hasStart = decide ("start" ∈ taken ++ [free taken (wanted project name)]) := by
        rw [hstart, decide_eq_decide, start_mem_append_free]
      obtain ⟨ts, hts, hpass⟩ := ih hlater hnames hkeys
      exact ⟨_, scenes_cons (scene_of_taken hstart hname h) hts, .give hname h hpass⟩
    · obtain ⟨ts, hts, hpass⟩ := ih hstart hnames hkeys
      exact ⟨_, scenes_cons (scene_of_free hstart hkey h) hts, .keep h hpass⟩

lemma isKey_of_scenes_eq_ok {hasStart : Bool}
    (h : scenes (.text project) hasStart taken ss = .ok ts) : ∀ s ∈ ss, s.label.isKey = true := by
  induction ss generalizing taken ts with
  | nil => simp
  | cons s rest ih =>
    rw [scenes, bind_eq_ok] at h
    obtain ⟨⟨s', taken'⟩, hs, h⟩ := h
    obtain ⟨rest', hrest, -⟩ := bind_eq_ok.mp h
    refine List.forall_mem_cons.mpr ⟨?_, ih hrest⟩
    by_contra hkey
    rw [scene_of_not_key (Bool.not_eq_true _ ▸ hkey)] at hs
    cases hs

lemma pass_of_scenes_eq_ok (hnames : ∀ s ∈ ss, ∃ name, s.name = .text name)
    (h : scenes (.text project) (decide ("start" ∈ taken)) taken ss = .ok ts) :
    Pass project taken ss ts := by
  obtain ⟨us, hus, hpass⟩ := exists_pass project rfl hnames (isKey_of_scenes_eq_ok h)
  rwa [Except.ok.inj (h.symm.trans hus)]

namespace Pass

lemma length_eq (h : Pass project taken ss ts) : ss.length = ts.length := by
  induction h with
  | done => rfl
  | keep _ _ ih => simp [ih]
  | give _ _ _ ih => simp [ih]

/-- No scene is left with a label that was taken before. -/
lemma not_isTaken (h : Pass project taken ss ts) : ∀ t ∈ ts, ¬IsTaken taken t.label := by
  induction h with
  | done => simp
  | keep free _ ih => exact List.forall_mem_cons.mpr ⟨free, ih⟩
  | give _ _ _ ih =>
    refine List.forall_mem_cons.mpr ⟨?_, fun t ht htaken => ih t ht ?_⟩
    · rw [isTaken_text]
      exact free_notMem _ _
    · obtain ⟨l, hl, hlabel⟩ := htaken
      exact ⟨l, List.mem_append_left _ hl, hlabel⟩

/-- Labels are given once, and only free ones. -/
lemma given_nodup (h : Pass project taken ss ts) :
    (given ss ts).Nodup ∧ ∀ l ∈ given ss ts, l ∉ taken := by
  induction h with
  | done => simp [given]
  | keep _ _ ih =>
    rw [given_keep]
    exact ih
  | @give taken _ _ _ name _ clash _ ih =>
    obtain ⟨hnodup, hnew⟩ := ih
    rw [given_give (ne_free_of_isTaken clash _), List.nodup_cons, List.forall_mem_cons]
    refine ⟨⟨fun hmem => hnew _ hmem (by simp), hnodup⟩, free_notMem _ _, fun l hl hmem => ?_⟩
    exact hnew l hl (List.mem_append_left _ hmem)

/-- What becomes of one scene, by the labels that are taken when its turn comes. -/
lemma get (h : Pass project taken ss ts) {i : ℕ} {s t : Scene} (hs : ss[i]? = some s)
    (ht : ts[i]? = some t) :
    (¬IsTaken (known taken ss ts i) s.label ∧ t = s) ∨
      IsTaken (known taken ss ts i) s.label ∧ ∃ name, s.name = .text name ∧
        t = { s with label := .text (free (known taken ss ts i) (wanted project name)) } := by
  induction h generalizing i with
  | done => simp at hs
  | @keep taken first ss ts free _ ih =>
    cases i with
    | zero =>
      obtain rfl := Option.some.inj hs
      obtain rfl := Option.some.inj ht
      exact .inl ⟨by simpa [known, given] using free, rfl⟩
    | succ i =>
      have hknown : known taken (first :: ss) (first :: ts) (i + 1) = known taken ss ts i := by
        rw [known, List.take_succ_cons, List.take_succ_cons, given_keep, known]
      rw [hknown]
      exact ih hs ht
  | @give taken first ss ts name named clash _ ih =>
    cases i with
    | zero =>
      obtain rfl := Option.some.inj hs
      obtain rfl := Option.some.inj ht
      exact .inr ⟨by simpa [known, given] using clash, name, named, by simp [known, given]⟩
    | succ i =>
      have hknown : known taken (first :: ss)
          ({ first with label := .text (free taken (wanted project name)) } :: ts) (i + 1) =
            known (taken ++ [free taken (wanted project name)]) ss ts i := by
        rw [known, List.take_succ_cons, List.take_succ_cons,
          given_give (ne_free_of_isTaken clash _), known, List.append_assoc, List.singleton_append]
      rw [hknown]
      exact ih hs ht

end Pass
end Run
end Relabel

namespace Project

open Relabel

variable {p : Project} {project : String}

lemma relabel_eq_ok_iff {taken : List String} {q : Project} :
    p.relabel taken = .ok q ↔ ∃ ts, q = { p with scenes := ts } ∧
      Relabel.scenes p.name (decide ("start" ∈ taken)) taken p.scenes = .ok ts := by
  rw [relabel, bind_eq_ok]
  constructor
  · rintro ⟨ts, hts, h⟩
    exact ⟨ts, (pure_eq_ok.mp h).symm, hts⟩
  · rintro ⟨ts, rfl, hts⟩
    exact ⟨ts, hts, rfl⟩

/-- Where the project and its scenes have texts for names, new labels are found for all scenes
unless a label is a list or an object. Then no scene has a label that was taken, and the given
labels are all different. A scene keeps its label exactly if this is neither taken in the game nor
given to an earlier scene; otherwise the search for its new label ends, after at most as many turns
as labels are known by then. -/
theorem relabel_conflict_free (hname : p.name = .text project)
    (hnames : ∀ s ∈ p.scenes, ∃ name, s.name = .text name) (taken : List String) :
    ((∃ q, p.relabel taken = .ok q) ↔ ∀ s ∈ p.scenes, s.label.isKey = true) ∧
    ∀ q, p.relabel taken = .ok q →
      (∀ t ∈ q.scenes, ∀ l ∈ taken, t.label ≠ .text l) ∧
      (given p.scenes q.scenes).Nodup ∧
      p.scenes.length = q.scenes.length ∧
      ∀ i s t, p.scenes[i]? = some s → q.scenes[i]? = some t →
        t = { s with label := t.label } ∧
        (t.label = s.label ↔ (∀ l ∈ taken, s.label ≠ .text l) ∧
          ∀ l ∈ given (p.scenes.take i) (q.scenes.take i), s.label ≠ .text l) ∧
        (t.label ≠ s.label → ∃ name label n, s.name = .text name ∧ t.label = .text label ∧
          n ≤ (known taken p.scenes q.scenes i).toFinset.card ∧
          Search.Turns (known taken p.scenes q.scenes i) (wanted project name) n
            ⟨wanted project name, 1⟩ ⟨label, n + 1⟩ ∧
          Search.turn (known taken p.scenes q.scenes i) (wanted project name)
            ⟨label, n + 1⟩ = none) := by
  have hrelabel : ∀ {q}, p.relabel taken = .ok q ↔ ∃ ts, q = { p with scenes := ts } ∧
      Relabel.scenes (.text project) (decide ("start" ∈ taken)) taken p.scenes = .ok ts := by
    intro q
    rw [relabel_eq_ok_iff, hname]
  refine ⟨⟨?_, fun hkeys => ?_⟩, fun q hq => ?_⟩
  · rintro ⟨q, hq⟩
    obtain ⟨ts, -, hts⟩ := hrelabel.mp hq
    exact isKey_of_scenes_eq_ok hts
  · obtain ⟨ts, hts, -⟩ := exists_pass project rfl hnames hkeys
    exact ⟨{ p with scenes := ts }, hrelabel.mpr ⟨ts, rfl, hts⟩⟩
  · obtain ⟨ts, rfl, hts⟩ := hrelabel.mp hq
    have hpass := pass_of_scenes_eq_ok hnames hts
    refine ⟨fun t ht => not_isTaken_iff.mp (hpass.not_isTaken t ht), hpass.given_nodup.1,
      hpass.length_eq, fun i s t hs ht => ?_⟩
    rw [← not_isTaken_iff, ← not_isTaken_iff, ← not_or, ← isTaken_known]
    rcases hpass.get hs ht with ⟨hfree, rfl⟩ | ⟨htaken, name, hsname, rfl⟩
    · exact ⟨rfl, iff_of_true rfl hfree, fun h => absurd rfl h⟩
    · have hne := ne_free_of_isTaken htaken (wanted project name)
      obtain ⟨n, hn, hturns, hend⟩ :=
        search_ends (known taken p.scenes ts i) (wanted project name)
      exact ⟨rfl, iff_of_false (Ne.symm hne) (not_not.mpr htaken), fun _ =>
        ⟨name, _, n, hsname, rfl, hn, hturns, hend⟩⟩

/-- A story of scenes with a name and a label each. -/
def ofScenes (name : String) (scenes : List (String × String)) : Project where
  name := .text name
  scenes := scenes.map fun e => { id := .text e.1, name := .text e.1, label := .text e.2 }

/-- Two scenes with the label of the game, and one whose label has just been given away. -/
def ensemble : Project :=
  ofScenes "My Story"
    [("One", "start"), ("Two", "My_Story_One_1"), ("Two", "start"), ("Four", "own")]

theorem ensemble_conflict_free :
    ∃ q, ensemble.relabel ["start", "My_Story_One"] = .ok q ∧
      q.scenes.map (·.label) =
        [.text "My_Story_One_1", .text "My_Story_Two", .text "My_Story_Two_1", .text "own"] ∧
      (∀ t ∈ q.scenes, ∀ l ∈ ["start", "My_Story_One"], t.label ≠ .text l) ∧
      (given ensemble.scenes q.scenes).Nodup := by
  have hnames : ∀ s ∈ ensemble.scenes, ∃ name, s.name = .text name := by
    simp [ensemble, ofScenes]
  have hkeys : ∀ s ∈ ensemble.scenes, s.label.isKey = true := by
    simp [ensemble, ofScenes, Value.isKey]
  obtain ⟨hok, hall⟩ := relabel_conflict_free rfl hnames ["start", "My_Story_One"]
  obtain ⟨q, hq⟩ := hok.mpr hkeys
  obtain ⟨hfree, hnodup, -, -⟩ := hall q hq
  have hlabels : (ensemble.relabel ["start", "My_Story_One"]).map (·.scenes.map (·.label)) =
      .ok [.text "My_Story_One_1", .text "My_Story_Two", .text "My_Story_Two_1", .text "own"] := rfl
  rw [hq] at hlabels
  exact ⟨q, hq, Except.ok.inj hlabels, hfree, hnodup⟩

end Project
end NovelGraph
