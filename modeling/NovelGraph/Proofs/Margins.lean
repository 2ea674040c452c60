import NovelGraph.Proofs.LineCount

/-! The lines of a text one by one: texts that are given by their lines, how deep a line stands, and
what a text that is not blank holds. -/
namespace NovelGraph.Text

/-- How many blanks stand in front of a line. -/
def depth (line : String) : ℕ := (line.toList.takeWhile isBlank).length

lemma depth_append {indent line : String} {c : Char} (hi : Spaces indent)
    (hline : line.toList.head? = some c) (hc : isBlank c = false) :
    depth (indent ++ line) = indent.length := by
  obtain ⟨cs, hcs⟩ := List.head?_eq_some_iff.mp hline
  have hblank : ∀ d ∈ indent.toList, isBlank d = true := by
    intro d hd
    rw [hi d hd]
    rfl
  rw [depth, String.toList_append, List.takeWhile_append_of_pos hblank, hcs,
    List.takeWhile_cons_of_neg (by simp [hc]), List.append_nil, String.length_toList]

lemma unindented_append_of_head {indent line : String} {c : Char} (hi : Spaces indent)
    (hline : line.toList.head? = some c) (hc : isBlank c = false) :
    unindented (indent ++ line) = line := by
  obtain ⟨cs, hcs⟩ := List.head?_eq_some_iff.mp hline
  rw [unindented_append hi, unindented_of_head hc hcs]

/-- The given lines, each with its end. -/
def stacked (ls : List String) : String := concat (ls.map (· ++ "\n"))

@[simp] lemma stacked_nil : stacked [] = "" := rfl

@[simp] lemma stacked_cons (line : String) (ls : List String) :
    stacked (line :: ls) = line ++ "\n" ++ stacked ls := rfl

@[simp] lemma stacked_append (ls ms : List String) :
    stacked (ls ++ ms) = stacked ls ++ stacked ms := by
  rw [stacked, List.map_append, concat_append]
  rfl

lemma stacked_flatMap {α : Type*} (f : α → List String) (xs : List α) :
    stacked (xs.flatMap f) = concat (xs.map fun x => stacked (f x)) := by
  induction xs with
  | nil => rfl
  | cons x xs ih => rw [List.flatMap_cons, stacked_append, ih, List.map_cons, concat_cons]

lemma lines_line_append {line : String} (h : '\n' ∉ line.toList) (rest : String) :
    lines (line ++ "\n" ++ rest) = line :: lines rest := by
  have hchars : (line ++ "\n" ++ rest).toList = line.toList ++ '\n' :: rest.toList := by
    rw [String.toList_append, String.toList_append, List.append_assoc]
    rfl
  rw [lines, split, hchars, splitList_append_cons, splitList_of_notMem h, List.singleton_append,
    List.map_cons, String.ofList_toList]
  rfl

/-- Lines are read back as they were given; behind the last one there is an empty one. -/
lemma lines_stacked {ls : List String} (h : ∀ line ∈ ls, '\n' ∉ line.toList) :
    lines (stacked ls) = ls ++ [""] := by
  induction ls with
  | nil => rfl
  | cons line ls ih =>
    rw [List.forall_mem_cons] at h
    rw [stacked_cons, lines_line_append h.1, ih h.2, List.cons_append]

lemma exists_mem_splitList {separator c : Char} {cs : List Char} (hc : c ∈ cs)
    (hne : c ≠ separator) : ∃ piece ∈ splitList separator cs, c ∈ piece := by
  induction cs with
  | nil => cases hc
  | cons d cs ih =>
    obtain ⟨first, others, hcut⟩ := List.exists_cons_of_ne_nil (splitList_ne_nil separator cs)
    by_cases hd : d = separator
    · have hmem : c ∈ cs := (List.mem_cons.mp hc).resolve_left fun h => hne (h.trans hd)
      obtain ⟨piece, hpiece, hc⟩ := ih hmem
      exact ⟨piece, by simp [splitList, hd, hpiece], hc⟩
    · have hsplit : splitList separator (d :: cs) = (d :: first) :: others := by
        simp [splitList, hd, hcut]
      rw [hsplit]
      rcases List.mem_cons.mp hc with rfl | hmem
      · exact ⟨c :: first, by simp, by simp⟩
      · obtain ⟨piece, hpiece, hc⟩ := ih hmem
        rw [hcut, List.mem_cons] at hpiece
        rcases hpiece with rfl | hpiece
        · exact ⟨d :: piece, by simp, by simp [hc]⟩
        · exact ⟨piece, by simp [hpiece], hc⟩

/-- A text that is not all white space has a line that is not. -/
lemma exists_line_of_not_isBlankLine {text : String} (h : isBlankLine text = false) :
    ∃ line ∈ lines text, isBlankLine line = false := by
  obtain ⟨c, hc, hblank⟩ := List.all_eq_false.mp h
  have hne : c ≠ '\n' := by
    rintro rfl
    exact hblank rfl
  obtain ⟨piece, hpiece, hmem⟩ := exists_mem_splitList hc hne
  refine ⟨String.ofList piece, List.mem_map_of_mem hpiece, List.all_eq_false.mpr ⟨c, ?_, hblank⟩⟩
  rwa [String.toList_ofList]

end NovelGraph.Text
