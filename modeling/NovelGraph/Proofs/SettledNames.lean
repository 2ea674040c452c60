import Mathlib.Data.List.Chain
import NovelGraph.Proofs.Preamble
import NovelGraph.Proofs.ScannedLabels

/-! Names of variables that need no change. Making a name of a text takes several steps, and each
could undo what one before has done: without its underscores in front a text may begin with a digit,
and a word in front of a digit brings an underscore with it. In the end none does, the names that
come out are those that stay as they are. -/
namespace NovelGraph.Script

open Text

/-- No two underscores stand side by side. -/
def Single (cs : List Char) : Prop := cs.IsChain fun a b => ¬(a = '_' ∧ b = '_')

/-- A name that needs no change: it has characters of words only, no digit in front, and no
underscore in front, at the end or beside another. -/
structure Settled (cs : List Char) : Prop where
  nonempty : cs ≠ []
  word : ∀ c ∈ cs, isWord c = true
  digit : ∀ c ∈ cs.head?, isDigit c = false
  first : ∀ c ∈ cs.head?, c ≠ '_'
  last : ∀ c ∈ cs.getLast?, c ≠ '_'
  single : Single cs

variable {cs : List Char}

section Steps

lemma head?_collapse (cs : List Char) : (collapse cs).head? = cs.head? := by
  fun_induction collapse cs with
  | case1 rest ih => exact ih
  | case2 c rest _ _ => rfl
  | case3 => rfl

lemma single_collapse (cs : List Char) : Single (collapse cs) := by
  fun_induction collapse cs with
  | case1 rest ih => exact ih
  | case2 c rest hnext ih =>
    refine List.isChain_cons.mpr ⟨?_, ih⟩
    rintro d hd ⟨rfl, rfl⟩
    rw [head?_collapse] at hd
    obtain ⟨others, rfl⟩ := List.head?_eq_some_iff.mp hd
    exact hnext others rfl rfl
  | case3 => exact .nil

lemma collapse_of_single (h : Single cs) : collapse cs = cs := by
  fun_induction collapse cs with
  | case1 rest _ => exact absurd ⟨rfl, rfl⟩ (List.isChain_cons_cons.mp h).1
  | case2 c rest _ ih => rw [ih (List.isChain_cons.mp h).2]
  | case3 => rfl

lemma Single.trimList (h : Single cs) (drop : Char → Bool) : Single (trimList drop cs) :=
  List.IsChain.infix h
    ((trimList_isPrefix drop cs).isInfix.trans (List.dropWhile_suffix drop).isInfix)

lemma Single.charPrefixed (h : Single cs) (hfirst : ∀ c ∈ cs.head?, c ≠ '_') :
    Single (charPrefixed cs) := by
  rw [Script.charPrefixed]
  split_ifs
  · have hchar : Single ['c', 'h', 'a', 'r', '_'] := by simp [Single]
    refine List.isChain_append.mpr ⟨hchar, h, ?_⟩
    rintro a - b hb ⟨-, rfl⟩
    exact hfirst _ hb rfl
  · exact h

lemma head?_charPrefixed {c : Char} (h : c ∈ (charPrefixed cs).head?) :
    c = 'c' ∨ (c ∈ cs.head? ∧ isDigit c = false) := by
  rw [charPrefixed] at h
  split_ifs at h with hdigit
  · exact .inl (Option.some.inj h).symm
  · cases cs with
    | nil => cases h
    | cons d rest =>
      obtain rfl := Option.some.inj h
      exact .inr ⟨rfl, Bool.not_eq_true _ ▸ hdigit⟩

lemma getLast?_charPrefixed (h : cs ≠ []) : (charPrefixed cs).getLast? = cs.getLast? := by
  rw [charPrefixed]
  split_ifs
  · rw [List.getLast?_append_of_ne_nil _ h]
  · rfl

lemma charPrefixed_of_head (h : ∀ c ∈ cs.head?, isDigit c = false) : charPrefixed cs = cs := by
  rw [charPrefixed, if_neg]
  cases cs with
  | nil => exact Bool.false_ne_true
  | cons c rest => simp [startsWithDigit, h c rfl]

end Steps

/-- A name that needs no change gets none in any step. -/
lemma Settled.normalizeList_eq (h : Settled cs) : normalizeList cs = cs := by
  have hmarked : (cs.map fun c => if isWord c then c else '_') = cs := by
    rw [List.map_congr_left fun c hc => if_pos (h.word c hc), List.map_id']
  have htrimmed : trimList (· == '_') cs = cs :=
    trimList_of_ends (fun c hc => by simpa using h.first c hc) fun c hc => by
      simpa using h.last c hc
  simp only [normalizeList]
  rw [hmarked, charPrefixed_of_head h.digit, collapse_of_single h.single, htrimmed,
    charPrefixed_of_head h.digit, if_neg (by simpa using h.nonempty)]

/-- A word in front of a digit leaves nothing more to change. -/
lemma settled_charPrefixed (hne : cs ≠ []) (hword : ∀ c ∈ charPrefixed cs, isWord c = true)
    (hfirst : ∀ c ∈ cs.head?, c ≠ '_') (hlast : ∀ c ∈ cs.getLast?, c ≠ '_') (hsingle : Single cs) :
    Settled (charPrefixed cs) where
  nonempty hnil := by
    have hend := getLast?_charPrefixed hne
    rw [hnil, List.getLast?_nil, eq_comm, List.getLast?_eq_none_iff] at hend
    exact hne hend
  word := hword
  digit c hc := by
    rcases head?_charPrefixed hc with rfl | ⟨-, hdigit⟩
    · decide +kernel
    · exact hdigit
  first c hc := by
    rcases head?_charPrefixed hc with rfl | ⟨hc, -⟩
    · decide
    · exact hfirst c hc
  last c hc := hlast c (getLast?_charPrefixed hne ▸ hc)
  single := hsingle.charPrefixed hfirst

/-- What is made of a text needs no change. -/
lemma settled_normalize (name : String) : Settled (normalize name).toList := by
  have hword := isWord_of_mem_normalize name
  rw [normalize, String.toList_ofList] at hword ⊢
  simp only [normalizeList] at hword ⊢
  split_ifs at hword ⊢ with hempty
  · have hdigit : ∀ c ∈ ['v', 'a', 'r'].head?, isDigit c = false := by
      rintro c ⟨rfl⟩
      decide +kernel
    exact ⟨by simp, hword, hdigit, by simp, by simp, by simp [Single]⟩
  · refine settled_charPrefixed (by simpa using hempty) hword (fun c hc => ?_) (fun c hc => ?_)
      ((single_collapse _).trimList _)
    · simpa using trimList_head hc
    · simpa using trimList_getLast hc

/-- Names of variables need no change: whatever text it is made of, a name is not empty, has
characters of words only, no digit in front, and no underscore in front, at the end or beside
another. So the name of a name is that name, and just the texts of this form are their own names. -/
theorem normalize_settles (name : String) :
    Settled (normalize name).toList ∧ normalize (normalize name) = normalize name ∧
      ∀ other, normalize other = other ↔ Settled other.toList := by
  have hsettled : ∀ other, Settled other.toList → normalize other = other := by
    intro other h
    rw [normalize, h.normalizeList_eq, String.ofList_toList]
  refine ⟨settled_normalize name, hsettled _ (settled_normalize name), fun other => ?_⟩
  exact ⟨fun h => h ▸ settled_normalize other, hsettled other⟩

example : normalize "__7 days--" = "char_7_days" := by decide +kernel

end NovelGraph.Script
