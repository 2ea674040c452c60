import Mathlib.Data.List.DropRight
import NovelGraph.Script.Name

/-! Which names share a variable. A variable is spelled by the words of a name, the runs of letters
and digits in it, joined by underscores; what stands between the words leaves no trace. Two names
share a variable exactly if they are spelled by the same words. -/
namespace NovelGraph.Script

open Text

/-- The runs between underscores that are not empty. -/
def runs (cs : List Char) : List (List Char) := (cs.splitOn '_').filter (!·.isEmpty)

/-- A character that ends a word. -/
def endsWord (c : Char) : Bool := !isWord c || c == '_'

/-- The words of a name. -/
def words (cs : List Char) : List (List Char) := (cs.splitOnP endsWord).filter (!·.isEmpty)

/-- The words that spell a variable: those of the name, behind another one if the first begins with
a digit. -/
def spelling : List (List Char) → List (List Char)
  | [] => [['v', 'a', 'r']]
  | w :: rest => if startsWithDigit w then ['c', 'h', 'a', 'r'] :: w :: rest else w :: rest

def variableWords (name : String) : List (List Char) := spelling (words name.toList)

section Runs

variable {w cs : List Char}

@[simp] lemma runs_nil : runs [] = [] := by simp [runs]

@[simp] lemma runs_underscore (cs : List Char) : runs ('_' :: cs) = runs cs := by
  rw [runs, runs, List.splitOn_cons_eq_if_modifyHead, if_pos (beq_self_eq_true _)]
  rfl

lemma runs_of_notMem (hne : w ≠ []) (hw : '_' ∉ w) : runs w = [w] := by
  rw [runs, List.splitOn_eq_singleton hw]
  simp [hne]

lemma runs_append (hne : w ≠ []) (hw : '_' ∉ w) (cs : List Char) :
    runs (w ++ '_' :: cs) = w :: runs cs := by
  rw [runs, List.splitOn_append_cons_self_of_not_mem hw]
  simp [hne, runs]

/-- Every list of characters is made of runs and underscores. -/
theorem induction_on_runs {P : List Char → Prop} (nil : P [])
    (underscore : ∀ cs, P cs → P ('_' :: cs))
    (single : ∀ w, w ≠ [] → '_' ∉ w → P w)
    (next : ∀ w cs, w ≠ [] → '_' ∉ w → P cs → P (w ++ '_' :: cs)) (cs : List Char) : P cs := by
  -- `w` is the run that has been read last
  have hread : ∀ w, '_' ∉ w → (P cs ∧ (w ≠ [] → P (w ++ cs))) := by
    induction cs with
    | nil => exact fun w hw => ⟨nil, fun hne => by simpa using single w hne hw⟩
    | cons c rest ih =>
      intro w hw
      by_cases hc : c = '_'
      · subst hc
        exact ⟨underscore rest (ih [] (by simp)).1, fun hne => next w rest hne hw (ih [] (by simp)).1⟩
      · have hlonger : ∀ w : List Char, '_' ∉ w → P (w ++ c :: rest) := by
          intro w hw
          have hone := (ih (w ++ [c]) (by simp [hw, Ne.symm hc])).2 (by simp)
          rwa [List.append_assoc, List.singleton_append] at hone
        exact ⟨hlonger [] (by simp), fun _ => hlonger w hw⟩
  exact (hread [] (by simp)).1

lemma mem_runs (h : w ∈ runs cs) : w ≠ [] ∧ '_' ∉ w := by
  induction cs using induction_on_runs with
  | nil => simp at h
  | underscore cs ih => exact ih (by simpa using h)
  | single v hne hv =>
    rw [runs_of_notMem hne hv, List.mem_singleton] at h
    exact h ▸ ⟨hne, hv⟩
  | next v cs hne hv ih =>
    rw [runs_append hne hv, List.mem_cons] at h
    exact h.elim (fun h => h ▸ ⟨hne, hv⟩) ih

lemma collapse_cons {c : Char} (hc : c ≠ '_') (cs : List Char) :
    collapse (c :: cs) = c :: collapse cs := by
  rw [collapse]
  exact fun _ h _ => hc h

lemma collapse_append (hw : '_' ∉ w) (cs : List Char) : collapse (w ++ cs) = w ++ collapse cs := by
  induction w with
  | nil => rfl
  | cons c rest ih =>
    obtain ⟨hc, hrest⟩ := not_or.mp (List.mem_cons.not.mp hw)
    rw [List.cons_append, collapse_cons (Ne.symm hc), ih hrest, List.cons_append]

lemma collapse_underscore (cs : List Char) :
    collapse ('_' :: cs) = '_' :: (collapse cs).dropWhile (· == '_') := by
  induction cs with
  | nil => rfl
  | cons c rest ih =>
    by_cases hc : c = '_'
    · subst hc
      rw [collapse, ih, List.dropWhile_cons_of_pos (by rfl), List.dropWhile_idempotent]
    · rw [collapse_cons hc, List.dropWhile_cons_of_neg (by simpa using hc), ← collapse_cons hc]
      rw [collapse]
      exact fun _ _ h => hc (List.cons.inj h).1

/-- What remains of a text without doubled and leading underscores: its runs, and perhaps one
underscore behind them. -/
lemma dropWhile_collapse (cs : List Char) :
    ∃ last, (∀ c ∈ last, c = '_') ∧ (runs cs = [] → last = []) ∧
      (collapse cs).dropWhile (· == '_') = ['_'].intercalate (runs cs) ++ last := by
  have hrun : ∀ {w : List Char}, w ≠ [] → '_' ∉ w → ∀ rest, (w ++ rest).dropWhile (· == '_') =
      w ++ rest := by
    intro w hne hw rest
    obtain ⟨c, v, rfl⟩ := List.exists_cons_of_ne_nil hne
    exact List.dropWhile_cons_of_neg (by simpa using fun h : c = '_' => hw (by simp [h]))
  induction cs using induction_on_runs with
  | nil => exact ⟨[], by simp, by simp, rfl⟩
  | underscore cs ih =>
    rwa [collapse_underscore, List.dropWhile_cons_of_pos (by rfl), List.dropWhile_idempotent,
      runs_underscore]
  | single w hne hw =>
    have hcollapse : collapse w = w := by simpa [collapse] using collapse_append hw []
    refine ⟨[], by simp, by simp, ?_⟩
    rw [hcollapse, runs_of_notMem hne hw]
    simpa using hrun hne hw []
  | next w cs hne hw ih =>
    obtain ⟨last, hlast, hempty, heq⟩ := ih
    rw [collapse_append hw, collapse_underscore, hrun hne hw, heq, runs_append hne hw]
    cases hruns : runs cs with
    | nil =>
      refine ⟨['_'], by simp, by simp, ?_⟩
      simp [hempty hruns]
    | cons v rest =>
      refine ⟨last, hlast, by simp, ?_⟩
      simp [List.intercalate_cons_cons]

/-- Words that are joined end in a word. -/
lemma intercalate_eq_concat {ws : List (List Char)} (hne : ws ≠ [])
    (h : ∀ w ∈ ws, w ≠ [] ∧ '_' ∉ w) :
    ∃ start c, c ≠ '_' ∧ ['_'].intercalate ws = start ++ [c] := by
  induction ws with
  | nil => exact absurd rfl hne
  | cons w rest ih =>
    obtain ⟨⟨hw, hfree⟩, hrest⟩ := List.forall_mem_cons.mp h
    cases rest with
    | nil =>
      obtain ⟨start, c, rfl⟩ := (List.eq_nil_or_concat' w).resolve_left hw
      refine ⟨start, c, ?_, List.intercalate_singleton⟩
      rintro rfl
      exact hfree (by simp)
    | cons v rest =>
      obtain ⟨start, c, hc, heq⟩ := ih (by simp) hrest
      refine ⟨w ++ ['_'] ++ start, c, hc, ?_⟩
      rw [List.intercalate_cons_cons, heq, List.append_assoc, List.append_assoc, List.append_assoc]

theorem trim_collapse (cs : List Char) :
    trimList (· == '_') (collapse cs) = ['_'].intercalate (runs cs) := by
  obtain ⟨last, hlast, -, heq⟩ := dropWhile_collapse cs
  rw [trimList, heq, List.reverse_append, List.dropWhile_append_of_pos (by simpa using hlast)]
  by_cases hruns : runs cs = []
  · rw [hruns]
    rfl
  · obtain ⟨start, c, hc, hend⟩ := intercalate_eq_concat hruns fun _ => mem_runs
    rw [hend, List.reverse_append, List.reverse_singleton, List.singleton_append,
      List.dropWhile_cons_of_neg (by simpa using hc), List.reverse_cons, List.reverse_reverse]

end Runs

lemma runs_marked (cs : List Char) :
    runs (cs.map fun c => if isWord c then c else '_') = words cs := by
  have hsplit : (cs.map fun c => if isWord c then c else '_').splitOn '_' = cs.splitOnP endsWord := by
    induction cs with
    | nil => simp
    | cons c rest ih =>
      rw [List.map_cons, List.splitOn_cons_eq_if_modifyHead, List.splitOnP_cons_eq_if_modifyHead, ih]
      cases hc : isWord c <;> simp [endsWord, hc]
  rw [runs, hsplit, words]

lemma words_of_mem {cs w : List Char} (h : w ∈ words cs) : w ≠ [] ∧ '_' ∉ w := by
  rw [← runs_marked] at h
  exact mem_runs h

lemma startsWithDigit_intercalate (w : List Char) (rest : List (List Char)) (hw : w ≠ []) :
    startsWithDigit (['_'].intercalate (w :: rest)) = startsWithDigit w := by
  obtain ⟨c, v, rfl⟩ := List.exists_cons_of_ne_nil hw
  cases rest with
  | nil => rw [List.intercalate_singleton]
  | cons u rest => rw [List.intercalate_cons_cons]; rfl

/-- A text that begins with a digit has a first word that does. -/
lemma words_of_startsWithDigit {cs : List Char}
    (h : startsWithDigit (cs.map fun c => if isWord c then c else '_') = true) :
    ∃ w rest, words cs = w :: rest ∧ startsWithDigit w = true := by
  have hunderscore : isDigit '_' = false := by decide +kernel
  cases cs with
  | nil => cases h
  | cons c cs =>
    rw [List.map_cons, startsWithDigit] at h
    have hword : isWord c = true := by
      by_contra hc
      rw [if_neg hc, hunderscore] at h
      cases h
    rw [if_pos hword] at h
    have hc : endsWord c = false := by
      rw [endsWord, hword, Bool.not_true, Bool.false_or, beq_eq_false_iff_ne]
      rintro rfl
      rw [hunderscore] at h
      cases h
    obtain ⟨v, vs, hsplit⟩ := List.exists_cons_of_ne_nil (List.splitOnP_ne_nil endsWord cs)
    refine ⟨c :: v, vs.filter (!·.isEmpty), ?_, h⟩
    rw [words, List.splitOnP_cons_eq_if_modifyHead, if_neg (by simp [hc]), hsplit]
    rfl

lemma normalizeList_eq (cs : List Char) :
    normalizeList cs = ['_'].intercalate (spelling (words cs)) := by
  have hne : ∀ (w : List Char) (rest : List (List Char)), w ≠ [] →
      ¬(['_'].intercalate (w :: rest)).isEmpty = true := by
    intro w rest hw
    cases rest <;> simp [List.intercalate_cons_cons, hw]
  simp only [normalizeList, trim_collapse]
  by_cases hdigit : startsWithDigit (cs.map fun c => if isWord c then c else '_') = true
  · obtain ⟨w, rest, hwords, hw⟩ := words_of_startsWithDigit hdigit
    have hruns : runs (charPrefixed (cs.map fun c => if isWord c then c else '_')) =
        ['c', 'h', 'a', 'r'] :: w :: rest := by
      rw [charPrefixed, if_pos hdigit, ← hwords, ← runs_marked]
      exact runs_append (List.cons_ne_nil 'c' ['h', 'a', 'r']) (by decide) _
    rw [hruns, if_neg (hne _ _ (by simp)), hwords, spelling, if_pos hw, charPrefixed,
      startsWithDigit_intercalate _ _ (by simp)]
    rfl
  · rw [charPrefixed, if_neg hdigit, runs_marked]
    cases hwords : words cs with
    | nil => rfl
    | cons w rest =>
      have hw := (words_of_mem (hwords ▸ List.mem_cons_self)).1
      rw [if_neg (hne _ _ hw), charPrefixed, startsWithDigit_intercalate _ _ hw, spelling]
      split_ifs
      · rw [List.intercalate_cons_cons]
        rfl
      · rfl

lemma underscore_notMem_spelling {cs w : List Char} (h : w ∈ spelling (words cs)) : '_' ∉ w := by
  cases hwords : words cs with
  | nil =>
    rw [hwords, spelling, List.mem_singleton] at h
    exact h ▸ by decide
  | cons v rest =>
    have hin : w = ['c', 'h', 'a', 'r'] ∨ w ∈ words cs := by
      rw [hwords]
      rw [hwords, spelling] at h
      split_ifs at h
      · exact List.mem_cons.mp h
      · exact .inr h
    rcases hin with rfl | hin
    · decide
    · exact (words_of_mem hin).2

lemma spelling_ne_nil (ws : List (List Char)) : spelling ws ≠ [] := by
  cases ws with
  | nil => simp [spelling]
  | cons w rest =>
    rw [spelling]
    split_ifs <;> simp

/-- The variable of a name is spelled by its words. -/
theorem normalize_eq (name : String) :
    normalize name = String.ofList (['_'].intercalate (variableWords name)) :=
  congrArg String.ofList (normalizeList_eq _)

/-- Two names share a variable exactly if they are spelled by the same words. -/
theorem normalize_eq_iff {name other : String} :
    normalize name = normalize other ↔ variableWords name = variableWords other := by
  have hread : ∀ name, (normalize name).toList.splitOn '_' = variableWords name := by
    intro name
    rw [normalize_eq, String.toList_ofList]
    exact List.splitOn_intercalate '_' (fun _ => underscore_notMem_spelling) (spelling_ne_nil _)
  constructor
  · intro h
    rw [← hread name, ← hread other, h]
  · intro h
    rw [normalize_eq, normalize_eq, h]

end NovelGraph.Script
