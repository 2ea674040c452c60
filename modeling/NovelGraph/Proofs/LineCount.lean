import Mathlib.Algebra.GroupWithZero.Nat
import Mathlib.Data.List.TakeWhile
import NovelGraph.Proofs.LineEnds

/-! How many lines of a text read in a certain way, whatever their indentation. Behind a line that
has ended the count goes on, and a suite has the lines of its text. -/
namespace NovelGraph

namespace Text

/-- A line without its indentation. -/
def unindented (line : String) : String := String.ofList (line.toList.dropWhile isBlank)

/-- How many lines satisfy a condition when their indentation is taken away. -/
def countLines (p : String → Bool) (text : String) : ℕ :=
  (lines text).countP fun line => p (unindented line)

/-- Indentation is made of spaces. -/
def Spaces (s : String) : Prop := ∀ c ∈ s.toList, c = ' '

@[simp] lemma spaces_empty : Spaces "" := by simp [Spaces]

lemma Spaces.append {s t : String} (hs : Spaces s) (ht : Spaces t) : Spaces (s ++ t) := by
  intro c hc
  rw [String.toList_append, List.mem_append] at hc
  exact hc.elim (hs c) (ht c)

section Split

variable {separator : Char} {cs piece : List Char}

lemma splitList_append_cons (xs ys : List Char) :
    splitList separator (xs ++ separator :: ys) =
      splitList separator xs ++ splitList separator ys := by
  induction xs with
  | nil => simp [splitList]
  | cons c xs ih =>
    by_cases hc : c = separator
    · simp [splitList, hc, ih]
    · obtain ⟨first, others, hcut⟩ := List.exists_cons_of_ne_nil (splitList_ne_nil separator xs)
      simp [splitList, hc, ih, hcut]

/-- What stands before a newline is cut into lines, and what stands behind it into further ones. -/
lemma keepLines_append (xs ys : List Char) :
    keepLines (xs ++ '\n' :: ys) =
      (splitList '\n' xs).map (fun line => String.ofList (line ++ ['\n'])) ++ keepLines ys := by
  have hgo : ∀ (rest : List (List Char)) (first next : List Char) (others : List (List Char)),
      keepLines.go first (rest ++ next :: others) =
        (first :: rest).map (fun line => String.ofList (line ++ ['\n'])) ++
          keepLines.go next others := by
    intro rest
    induction rest with
    | nil => exact fun first next others => rfl
    | cons line rest ih =>
      intro first next others
      rw [List.cons_append, keepLines.go, ih]
      rfl
  rw [keepLines, splitList_append_cons, keepLines]
  cases hx : splitList '\n' xs with
  | nil => exact absurd hx (splitList_ne_nil _ _)
  | cons first rest =>
    cases hy : splitList '\n' ys with
    | nil => exact absurd hy (splitList_ne_nil _ _)
    | cons next others => exact hgo rest first next others

lemma splitList_append_of_notMem {xs ys first : List Char} {others : List (List Char)}
    (hxs : separator ∉ xs) (hys : splitList separator ys = first :: others) :
    splitList separator (xs ++ ys) = (xs ++ first) :: others := by
  induction xs with
  | nil => exact hys
  | cons c xs ih =>
    rw [List.mem_cons, not_or] at hxs
    simp [splitList, Ne.symm hxs.1, ih hxs.2]

lemma splitList_of_notMem (h : separator ∉ cs) : splitList separator cs = [cs] := by
  have hlast : splitList separator [] = [[]] := rfl
  have hsplit := splitList_append_of_notMem h hlast
  rwa [List.append_nil] at hsplit

lemma notMem_of_mem_splitList (h : piece ∈ splitList separator cs) : separator ∉ piece := by
  induction cs generalizing piece with
  | nil =>
    rw [splitList, List.mem_singleton] at h
    simp [h]
  | cons c cs ih =>
    obtain ⟨first, others, hcut⟩ := List.exists_cons_of_ne_nil (splitList_ne_nil separator cs)
    by_cases hc : c = separator
    · rw [splitList, if_pos hc, List.mem_cons] at h
      rcases h with rfl | h
      · simp
      · exact ih h
    · simp only [splitList, if_neg hc, hcut, List.mem_cons] at h
      rcases h with rfl | h
      · rw [List.mem_cons, not_or]
        exact ⟨Ne.symm hc, ih (by simp [hcut])⟩
      · exact ih (by simp [hcut, h])

end Split

lemma newline_notMem_of_mem_lines {text line : String} (h : line ∈ lines text) :
    '\n' ∉ line.toList := by
  obtain ⟨piece, hpiece, rfl⟩ := List.mem_map.mp h
  rw [String.toList_ofList]
  exact notMem_of_mem_splitList hpiece

lemma Spaces.newline_notMem {s : String} (h : Spaces s) : '\n' ∉ s.toList :=
  fun hmem => absurd (h '\n' hmem) (by decide)

lemma unindented_append {indent : String} (h : Spaces indent) (line : String) :
    unindented (indent ++ line) = unindented line := by
  have hblank : ∀ c ∈ indent.toList, isBlank c = true := by
    intro c hc
    rw [h c hc]
    rfl
  rw [unindented, String.toList_append, List.dropWhile_append_of_pos hblank, unindented]

lemma unindented_of_head {line : String} {c : Char} {cs : List Char} (hc : isBlank c = false)
    (h : line.toList = c :: cs) : unindented line = line := by
  rw [unindented, h, List.dropWhile_cons_of_neg (by simp [hc]), ← h, String.ofList_toList]

lemma unindented_of_isBlankLine {line : String} (h : isBlankLine line = true) :
    unindented line = "" := by
  have hall : line.toList.dropWhile isBlank = [] :=
    List.dropWhile_eq_nil_iff.mpr (List.all_eq_true.mp h)
  rw [unindented, hall, String.ofList_nil]

variable {p : String → Bool}

lemma countLines_eq (text : String) :
    countLines p text =
      (splitList '\n' text.toList).countP fun cs => p (unindented (String.ofList cs)) := by
  rw [countLines, lines, split, List.countP_map]
  rfl

lemma countLines_of_newline_notMem {line : String} (h : '\n' ∉ line.toList) :
    countLines p line = if p (unindented line) then 1 else 0 := by
  rw [countLines_eq, splitList_of_notMem h, List.countP_singleton, String.ofList_toList]

lemma countLines_indent {indent : String} (hi : Spaces indent) (text : String) :
    countLines p (indent ++ text) = countLines p text := by
  obtain ⟨first, others, hcut⟩ :=
    List.exists_cons_of_ne_nil (splitList_ne_nil '\n' text.toList)
  have hfirst : unindented (String.ofList (indent.toList ++ first)) =
      unindented (String.ofList first) := by
    rw [String.ofList_append, String.ofList_toList, unindented_append hi]
  rw [countLines_eq, countLines_eq, String.toList_append,
    splitList_append_of_notMem hi.newline_notMem hcut, hcut, List.countP_cons, List.countP_cons,
    hfirst]

lemma countLines_newline_append (s t : String) :
    countLines p (s ++ "\n" ++ t) = countLines p s + countLines p t := by
  have hchars : (s ++ "\n" ++ t).toList = s.toList ++ '\n' :: t.toList := by
    rw [String.toList_append, String.toList_append, List.append_assoc]
    rfl
  rw [countLines_eq, countLines_eq, countLines_eq, hchars, splitList_append_cons,
    List.countP_append]

section Append

variable (hp : p "" = false)

include hp

lemma countLines_empty : countLines p "" = 0 := by
  rw [countLines_of_newline_notMem (by simp), if_neg]
  rw [unindented_of_isBlankLine rfl, hp]
  exact Bool.false_ne_true

lemma countLines_newline (s : String) : countLines p (s ++ "\n") = countLines p s := by
  have hlast := countLines_newline_append (p := p) s ""
  rwa [String.append_empty, countLines_empty hp, Nat.add_zero] at hlast

/-- Behind a text that ends where a line ends the count goes on. -/
theorem countLines_append {s : String} (hs : EndsLine s) (t : String) :
    countLines p (s ++ t) = countLines p s + countLines p t := by
  cases hlast : s.toList.getLast? with
  | none =>
    obtain rfl : s = "" := by simpa using hlast
    rw [String.empty_append, countLines_empty hp, Nat.zero_add]
  | some c =>
    obtain rfl := hs c hlast
    obtain ⟨front, hfront⟩ := List.getLast?_eq_some_iff.mp hlast
    have hsplit : s = String.ofList front ++ "\n" := by
      rw [← String.toList_inj, hfront, String.toList_append, String.toList_ofList]
      rfl
    rw [hsplit, countLines_newline_append, countLines_newline hp]

/-- A line that has ended counts once or not at all. -/
lemma countLines_line {indent line : String} (hi : Spaces indent) (hl : '\n' ∉ line.toList) :
    countLines p (indent ++ line ++ "\n") = if p (unindented line) then 1 else 0 := by
  rw [countLines_newline hp, countLines_indent hi, countLines_of_newline_notMem hl]

lemma countLines_word {indent word line : String} (hi : Spaces indent) (hw : word = line ++ "\n")
    (hl : '\n' ∉ line.toList) (hu : unindented line = line) (hline : p line = false) :
    countLines p (indent ++ word) = 0 := by
  rw [hw, ← String.append_assoc, countLines_line hp hi hl, hu, hline, if_neg Bool.false_ne_true]

lemma countLines_concat {parts : List String} (h : ∀ s ∈ parts, EndsLine s) :
    countLines p (concat parts) = (parts.map (countLines p)).sum := by
  induction parts with
  | nil => exact countLines_empty hp
  | cons s rest ih =>
    rw [concat_cons, countLines_append hp (h s (by simp)), List.map_cons, List.sum_cons,
      ih fun t ht => h t (by simp [ht])]

end Append

/-- A condition that only lines with a given first character meet. -/
def Marked (mark : Char) (p : String → Bool) : Prop :=
  ∀ line, p line = true → line.toList.head? = some mark

namespace Marked

variable {mark : Char} {line : String} (hp : Marked mark p)

include hp

lemma eq_false (h : line.toList.head? ≠ some mark) : p line = false := by
  rw [Bool.eq_false_iff]
  exact fun hline => h (hp line hline)

lemma countLines_line_eq_zero {indent : String} (hi : Spaces indent) {c : Char}
    (hc : line.toList.head? = some c) (hblank : isBlank c = false) (hne : c ≠ mark)
    (hl : '\n' ∉ line.toList) : countLines p (indent ++ line ++ "\n") = 0 := by
  obtain ⟨cs, hcs⟩ := List.head?_eq_some_iff.mp hc
  have hline : p line = false := hp.eq_false (by simpa [hc] using hne)
  rw [countLines_line (hp.eq_false (by simp)) hi hl, unindented_of_head hblank hcs, hline,
    if_neg Bool.false_ne_true]

end Marked
end Text

namespace Script

open Text

lemma spaces_indentation : Spaces indentation := by
  intro c hc
  simpa [indentation] using hc

variable {p : String → Bool} {indent : String}

/-- A suite has the lines of its text. -/
theorem countLines_suite (hp : p "" = false) (hi : Spaces indent) (text : String) :
    countLines p (suite indent text) = countLines p text := by
  have hlevel := hi.append spaces_indentation
  -- a line of the suite is the old one with more indentation, or empty if the old one was blank
  have hline : ∀ line, '\n' ∉ line.toList → countLines p (suiteLine (indent ++ indentation) line) =
      if p (unindented line) then 1 else 0 := by
    intro line hl
    unfold suiteLine
    split_ifs with hblank hmark hmark
    · rw [unindented_of_isBlankLine hblank, hp] at hmark
      exact Bool.noConfusion hmark
    · exact (countLines_newline hp "").trans (countLines_empty hp)
    · rw [countLines_line hp hlevel hl, if_pos hmark]
    · rw [countLines_line hp hlevel hl, if_neg hmark]
  rw [suite, countLines_concat hp, countLines]
  · have hlines : ∀ line ∈ lines text, '\n' ∉ line.toList := fun _ => newline_notMem_of_mem_lines
    generalize lines text = rest at hlines
    induction rest with
    | nil => rfl
    | cons line rest ih =>
      rw [List.map_cons, List.map_cons, List.sum_cons, List.countP_cons,
        hline line (hlines line (by simp)), ih fun l hl => hlines l (by simp [hl]), Nat.add_comm]
  · intro part hpart
    obtain ⟨line, -, rfl⟩ := List.mem_map.mp hpart
    unfold suiteLine
    split_ifs
    · exact endsLine_newline
    · exact endsLine_line _

lemma countLines_body (hp : p "" = false) (hpass : p "pass" = false) (hi : Spaces indent)
    (text : String) : countLines p (body indent text) = countLines p text := by
  unfold body
  split_ifs with he
  · obtain rfl := String.isEmpty_iff.mp he
    have hword : "pass\n" = "pass" ++ "\n" := rfl
    rw [countLines_empty hp]
    exact countLines_word hp (hi.append spaces_indentation) hword (by decide) rfl hpass
  · exact countLines_suite hp hi text

end Script
end NovelGraph
