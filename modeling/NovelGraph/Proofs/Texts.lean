import Mathlib.Data.List.Infix
import Mathlib.Data.Nat.Find
import Mathlib.Tactic.SplitIfs
import NovelGraph.Text.Blank
import NovelGraph.Text.Lines

/-! Texts that are searched, changed letter by letter, and freed of white space at their ends. -/
namespace NovelGraph.Text

section Search

variable {cs word : List Char} {n : ℕ}

lemma find?_eq_some (h : word <+: cs.drop n) (hfirst : ∀ k < n, ¬ word <+: cs.drop k) :
    find? word cs = some n := by
  induction cs generalizing n with
  | nil =>
    obtain rfl : word = [] := by simpa using h
    obtain rfl : n = 0 := by
      by_contra hn
      exact hfirst 0 (Nat.pos_of_ne_zero hn) List.nil_prefix
    rfl
  | cons c rest ih =>
    rw [find?]
    cases n with
    | zero => exact if_pos (List.isPrefixOf_iff_prefix.mpr h)
    | succ n =>
      have hnot : ¬ word.isPrefixOf (c :: rest) = true := fun hc =>
        hfirst 0 (Nat.succ_pos n) (List.isPrefixOf_iff_prefix.mp hc)
      rw [if_neg hnot, ih h fun k hk => hfirst (k + 1) (Nat.succ_lt_succ hk)]
      rfl

lemma find?_eq_none (h : ¬ word <:+: cs) : find? word cs = none := by
  induction cs with
  | nil =>
    have hword : word ≠ [] := by
      rintro rfl
      exact h List.nil_infix
    simp [find?, hword]
  | cons c rest ih =>
    rw [List.infix_cons_iff, not_or] at h
    rw [find?, if_neg (fun hc => h.1 (List.isPrefixOf_iff_prefix.mp hc)), ih h.2]
    rfl

lemma exists_first_place (h : word <:+: cs) :
    ∃ n, word <+: cs.drop n ∧ ∀ k < n, ¬ word <+: cs.drop k := by
  classical
  have hsome : ∃ n, word <+: cs.drop n := by
    obtain ⟨front, back, rfl⟩ := h
    exact ⟨front.length, by simp⟩
  exact ⟨Nat.find hsome, Nat.find_spec hsome, fun k hk => Nat.find_min hsome hk⟩

lemma isSome_find?_iff : (find? word cs).isSome = true ↔ word <:+: cs := by
  refine ⟨fun h => ?_, fun h => ?_⟩
  · by_contra hnot
    simp [find?_eq_none hnot] at h
  · obtain ⟨n, hn, hfirst⟩ := exists_first_place h
    rw [find?_eq_some hn hfirst, Option.isSome_some]

lemma contains_of_mem {s : String} {c : Char} (h : c ∈ s.toList) :
    contains s (String.singleton c) = true := by
  have hfind : ∀ cs : List Char, c ∈ cs → (find? [c] cs).isSome = true := by
    intro cs
    induction cs with
    | nil => simp
    | cons d rest ih =>
      intro hc
      rw [find?]
      split_ifs with hd
      · rfl
      · have hne : c ≠ d := by simpa using hd
        simpa using ih ((List.mem_cons.mp hc).resolve_left hne)
  rw [contains, String.toList_singleton]
  exact hfind _ h

end Search

lemma toList_replaceChar (old new : Char) (s : String) :
    (replaceChar old [new] s).toList = s.toList.map fun c => if c = old then new else c := by
  rw [replaceChar, String.toList_ofList]
  induction s.toList with
  | nil => rfl
  | cons c rest ih =>
    rw [List.flatMap_cons, List.map_cons, ih]
    split <;> rfl

@[simp] lemma isBlankLine_append (s t : String) :
    isBlankLine (s ++ t) = (isBlankLine s && isBlankLine t) := by
  simp [isBlankLine]

section Trimming

variable {drop : Char → Bool} {cs : List Char} {s : String}

lemma dropWhile_of_head (h : ∀ c ∈ cs.head?, drop c = false) : cs.dropWhile drop = cs := by
  cases cs with
  | nil => rfl
  | cons c rest => simp [h c rfl]

lemma trimList_of_ends (hfirst : ∀ c ∈ cs.head?, drop c = false)
    (hlast : ∀ c ∈ cs.getLast?, drop c = false) : trimList drop cs = cs := by
  rw [trimList, dropWhile_of_head hfirst, dropWhile_of_head, List.reverse_reverse]
  intro c hc
  rw [List.head?_reverse] at hc
  exact hlast c hc

lemma head?_dropWhile {c : Char} (h : c ∈ (cs.dropWhile drop).head?) : drop c = false := by
  have hnot := List.head?_dropWhile_not drop cs
  rw [Option.mem_def.mp h] at hnot
  exact hnot

/-- What is left is the beginning of the list without the characters in front. -/
lemma trimList_isPrefix (drop : Char → Bool) (cs : List Char) :
    trimList drop cs <+: cs.dropWhile drop := by
  rw [trimList, ← List.reverse_suffix, List.reverse_reverse]
  exact List.dropWhile_suffix _

lemma trimList_head {c : Char} (h : c ∈ (trimList drop cs).head?) : drop c = false := by
  obtain ⟨rest, hrest⟩ := trimList_isPrefix drop cs
  have hhead : c ∈ (cs.dropWhile drop).head? := by
    rw [← hrest, List.head?_append, Option.mem_def.mp h]
    rfl
  exact head?_dropWhile hhead

lemma trimList_getLast {c : Char} (h : c ∈ (trimList drop cs).getLast?) : drop c = false := by
  rw [trimList, List.getLast?_reverse] at h
  exact head?_dropWhile h

/-- A text without white space at its ends. -/
def Trimmed (s : String) : Prop :=
  (∀ c ∈ s.toList.head?, isBlank c = false) ∧ ∀ c ∈ s.toList.getLast?, isBlank c = false

lemma trimmed_strip (s : String) : Trimmed (strip s) := by
  rw [Trimmed, strip, String.toList_ofList]
  exact ⟨fun _ h => trimList_head h, fun _ h => trimList_getLast h⟩

lemma Trimmed.strip_eq (h : Trimmed s) : strip s = s := by
  rw [strip, trimList_of_ends h.1 h.2, String.ofList_toList]

lemma Trimmed.strip_line (h : Trimmed s) (hne : s ≠ "") : strip (s ++ "\n") = s := by
  have hcs : s.toList ≠ [] := by simpa using hne
  have hfront : (s.toList ++ ['\n']).dropWhile isBlank = s.toList ++ ['\n'] := by
    apply dropWhile_of_head
    rw [List.head?_append_of_ne_nil _ hcs]
    exact h.1
  have hback : s.toList.reverse.dropWhile isBlank = s.toList.reverse := by
    apply dropWhile_of_head
    rw [List.head?_reverse]
    exact h.2
  have hblank : isBlank '\n' = true := by decide
  rw [strip, trimList, String.toList_append, show "\n".toList = ['\n'] from rfl, hfront,
    List.reverse_append, List.reverse_singleton, List.singleton_append, List.dropWhile_cons, hblank,
    if_pos rfl, hback, List.reverse_reverse, String.ofList_toList]

lemma mem_of_mem_trimList {c : Char} (h : c ∈ trimList drop cs) : c ∈ cs := by
  rw [trimList, List.mem_reverse] at h
  have hleft := (List.dropWhile_suffix _).subset h
  rw [List.mem_reverse] at hleft
  exact (List.dropWhile_suffix _).subset hleft

lemma mem_of_mem_strip {c : Char} (h : c ∈ (strip s).toList) : c ∈ s.toList := by
  rw [strip, String.toList_ofList] at h
  exact mem_of_mem_trimList h

end Trimming
end NovelGraph.Text
