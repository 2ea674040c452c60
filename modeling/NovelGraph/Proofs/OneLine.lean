import NovelGraph.Proofs.Repetition

/-! Blocks whose parameters stand on one line each, and so do the statements made of them. -/
namespace NovelGraph

open Outcome Script Text

namespace Text

/-- A single line, with its end, that begins with a given character. -/
def IsLine (c : Char) (text : String) : Prop :=
  ∃ line, text = line ++ "\n" ∧ '\n' ∉ line.toList ∧ line.toList.head? = some c

lemma append_colon_line (s : String) : s ++ ":\n" = s ++ ":" ++ "\n" := by
  rw [String.append_assoc]
  rfl

lemma IsLine.countLines_eq_zero {c mark : Char} {p : String → Bool} {indent text : String}
    (h : IsLine c text) (hp : Marked mark p) (hi : Spaces indent) (hblank : isBlank c = false)
    (hne : c ≠ mark) : countLines p (indent ++ text) = 0 := by
  obtain ⟨line, rfl, hl, hhead⟩ := h
  rw [← String.append_assoc]
  exact hp.countLines_line_eq_zero hi hhead hblank hne hl

end Text

namespace Script

variable {p : String → Bool} {mark : Char} {ps : Params} {line : String}

lemma newline_notMem_param (h : ∀ m ∈ ps, '\n' ∉ m.2.display.toList) (key : String) :
    '\n' ∉ (param ps key).toList := by
  intro hmem
  rw [param, paramOr] at hmem
  split at hmem
  · simp [strip, trimList] at hmem
  · simp at hmem
  · rename_i v _ hv
    obtain ⟨m, hm, rfl⟩ := Option.map_eq_some_iff.mp hv
    exact h m (List.mem_of_find?_eq_some hm) (mem_of_mem_strip hmem)

lemma ofBlocks_of_marked (hp : Marked mark p) (hpass : 'p' ≠ mark) (helse : 'e' ≠ mark) :
    OfBlocks p where
  empty := hp.eq_false (by simp)
  pass := hp.eq_false (by simpa using hpass)
  otherwise := hp.eq_false (by simpa using helse)

lemma labelLine_isLine {label : String} (h : '\n' ∉ label.toList) (indent : String) :
    ∃ text, labelLine indent label = indent ++ text ∧ IsLine 'l' text := by
  refine ⟨"label " ++ label ++ ":\n", by simp [labelLine, String.append_assoc], _,
    append_colon_line _, ?_, ?_⟩
  · simp [h]
  · simp

lemma newline_notMem_replaceChar {c : Char} {cs : List Char} {s : String} (hcs : '\n' ∉ cs)
    (h : '\n' ∉ s.toList) : '\n' ∉ (replaceChar c cs s).toList := by
  rw [replaceChar, String.toList_ofList, List.mem_flatMap]
  rintro ⟨d, hd, hmem⟩
  split_ifs at hmem
  · exact hcs hmem
  · rw [List.mem_singleton] at hmem
    exact h (hmem ▸ hd)

lemma spoken_isLine {text rest : String} (h : '\n' ∉ text.toList) (hrest : '\n' ∉ rest.toList) :
    IsLine '"' (spoken text ++ rest ++ "\n") := by
  refine ⟨spoken text ++ rest, rfl, ?_, by simp [spoken]⟩
  have hescape : '\n' ∉ (escapeQuotes text).toList := newline_notMem_replaceChar (by decide) h
  simp [spoken, hescape, hrest]

lemma transfer_isLine {word target : String} {c : Char} (hword : '\n' ∉ word.toList)
    (hc : word.toList.head? = some c) (h : '\n' ∉ target.toList) (known : Option (List String))
    (indent : String) : transfer word target known indent = "" ∨
      ∃ own, transfer word target known indent = indent ++ own ∧ IsLine c own := by
  simp only [transfer]
  split_ifs
  · exact .inl rfl
  · refine .inr ⟨word ++ " " ++ target ++ "\n", by simp only [String.append_assoc], _, rfl, ?_, ?_⟩
    · simp [hword, h]
    · simp [List.head?_append, hc]

section Header

variable (hp : Marked mark p) (hone : ∀ key, '\n' ∉ (param ps key).toList)

include hone

lemma header?_isLine {kind : BlockKind} (h : header? kind ps = some line) :
    ∃ c ∈ ['i', 'w', 'f'], IsLine c line := by
  have hk := isControl_of_header? h
  cases kind <;> simp only [BlockKind.isControl, Bool.false_eq_true] at hk
  · rw [(header?_ifElse h).2]
    exact ⟨'i', by simp, _, append_colon_line _, by simp [hone], by simp⟩
  · rw [(header?_whileLoop h).2]
    exact ⟨'w', by simp, _, append_colon_line _, by simp [hone], by simp⟩
  · rw [(header?_forLoop h).2]
    exact ⟨'f', by simp, _, append_colon_line _, by simp [hone], by simp⟩

include hp

lemma countLines_header_eq_zero (hmark : mark ∉ ['i', 'w', 'f']) {kind : BlockKind}
    (h : header? kind ps = some line) : countLines p line = 0 := by
  obtain ⟨c, hc, hline⟩ := header?_isLine hone h
  have hblank : isBlank c = false := by
    simp only [List.mem_cons, List.not_mem_nil, or_false] at hc
    rcases hc with rfl | rfl | rfl <;> rfl
  have hcount := hline.countLines_eq_zero hp spaces_empty hblank fun heq => hmark (heq ▸ hc)
  rwa [String.empty_append] at hcount

end Header
end Script

namespace Block

/-- No parameter of the block goes over several lines. -/
def OneLine (b : Block) : Prop :=
  ∀ ⦃ps⦄, b.paramList = .ok ps → ∀ key, '\n' ∉ (param ps key).toList

/-- The block writes nothing, or one line that begins with a given character. -/
def WritesLine (b : Block) (around : Surroundings) (c : Char) : Prop :=
  ∀ ⦃indent text⦄, Spaces indent → b.render indent around = .ok text →
    text = "" ∨ ∃ margin own, Spaces margin ∧ text = margin ++ own ∧ IsLine c own

variable {b : Block} {around : Surroundings} {p : String → Bool} {mark c : Char}

lemma oneLine_of_forall
    (h : ∀ ps ∈ b.paramList.toOption, ∀ m ∈ ps, '\n' ∉ m.2.display.toList) : b.OneLine :=
  fun ps hps => newline_notMem_param (h ps (by simp [hps, Except.toOption]))

/-- Blocks with a label open it; without one they write nothing. -/
lemma render_opening {indent text : String} (hi : Spaces indent)
    (hk : b.kind = .start ∨ b.kind = .label) (h : b.render indent around = .ok text) :
    (Project.labelOf? b = .ok none ∧ text = "") ∨
      ∃ label margin, Project.labelOf? b = .ok (some label) ∧ Spaces margin ∧
        text = labelLine margin label := by
  obtain ⟨label, margin, hlabel, hm, rfl⟩ : ∃ label margin, Project.labelOf? b =
      .ok (nonEmpty? label) ∧ Spaces margin ∧
        text = if label.isEmpty then "" else labelLine margin label := by
    rcases hk with hk | hk
    · simp only [render, hk, startLine] at h
      obtain ⟨label, hlabel, h⟩ := bind_eq_ok.mp h
      refine ⟨label, indent, ?_, hi, (Except.ok.inj h).symm⟩
      simp only [Project.labelOf?, hk, hlabel]
      rfl
    · simp only [render, hk] at h
      obtain ⟨ps, hps, h⟩ := bind_eq_ok.mp h
      refine ⟨param ps "label", "", ?_, spaces_empty, (Except.ok.inj h).symm⟩
      simp only [Project.labelOf?, hk, hps]
      rfl
  cases he : label.isEmpty with
  | true =>
    rw [nonEmpty?, he, if_pos rfl] at hlabel
    exact .inl ⟨hlabel, rfl⟩
  | false =>
    rw [nonEmpty?, he, if_neg Bool.false_ne_true] at hlabel
    exact .inr ⟨label, margin, hlabel, hm, rfl⟩

lemma newline_notMem_label {label : String} (hone : b.OneLine)
    (h : Project.labelOf? b = .ok (some label)) : '\n' ∉ label.toList := by
  unfold Project.labelOf? at h
  split at h
  · obtain ⟨start, hstart, h⟩ := bind_eq_ok.mp h
    obtain ⟨rfl, -⟩ := nonEmpty?_eq_some (Except.ok.inj h)
    obtain ⟨ps, hps, hstart⟩ := bind_eq_ok.mp hstart
    obtain rfl := Except.ok.inj hstart
    simp only [Script.startLabel]
    split_ifs
    · exact hone hps _
    · exact hone hps _
  · obtain ⟨ps, hps, h⟩ := bind_eq_ok.mp h
    obtain ⟨rfl, -⟩ := nonEmpty?_eq_some (Except.ok.inj h)
    exact hone hps _
  · cases h

lemma writesLine_of_start (hone : b.OneLine) (hk : b.kind = .start) : b.WritesLine around 'l' := by
  intro indent text hi h
  rcases render_opening hi (.inl hk) h with ⟨-, rfl⟩ | ⟨label, margin, hlabel, hm, rfl⟩
  · exact .inl rfl
  · obtain ⟨own, hown, hline⟩ := labelLine_isLine (newline_notMem_label hone hlabel) margin
    exact .inr ⟨margin, own, hm, hown, hline⟩

lemma render_narration {indent text : String} (hk : b.kind = .narration)
    (h : b.render indent around = .ok text) :
    ∃ ps, b.paramList = .ok ps ∧ text = narration indent ps := by
  simp only [render, hk, statement?, plainStatement?] at h
  obtain ⟨own, hown, h⟩ := bind_eq_ok.mp h
  obtain ⟨ps, hps, hown⟩ := bind_eq_ok.mp hown
  cases hown
  exact ⟨ps, hps, (Except.ok.inj h).symm⟩

lemma writesLine_of_narration (hone : b.OneLine) (hk : b.kind = .narration) :
    b.WritesLine around '"' := by
  intro indent text hi h
  obtain ⟨ps, hps, rfl⟩ := render_narration hk h
  simp only [narration]
  split_ifs
  · exact .inl rfl
  · have hwith : '\n' ∉ (clause "with" (param ps "with_transition")).toList := by
      simp only [clause]
      split_ifs <;> simp [hone hps]
    exact .inr ⟨indent, _, hi, by simp only [String.append_assoc],
      spoken_isLine (hone hps "text") hwith⟩

/-- Jumps and calls begin with their word. -/
lemma writesLine_of_transfer {word key : String} (hone : b.OneLine) (hword : '\n' ∉ word.toList)
    (hc : word.toList.head? = some c)
    (hrender : ∀ indent, b.render indent around = do
      pure (transfer word (param (← b.paramList) key) around.labels indent)) :
    b.WritesLine around c := by
  intro indent text hi h
  rw [hrender, bind_eq_ok] at h
  obtain ⟨ps, hps, h⟩ := h
  obtain rfl := Except.ok.inj h
  refine (transfer_isLine hword hc (hone hps key) around.labels indent).imp_right ?_
  rintro ⟨own, hown, hline⟩
  exact ⟨indent, own, hi, hown, hline⟩

lemma writesLine_of_jump (hone : b.OneLine) (hk : b.kind = .jump) : b.WritesLine around 'j' := by
  have hrender : ∀ indent, b.render indent around = (do
      pure (transfer "jump" (param (← b.paramList) "target") around.labels indent)) := by
    intro indent
    simp only [render, hk]
  exact writesLine_of_transfer (c := 'j') hone (by decide) rfl hrender

lemma writesLine_of_call (hone : b.OneLine) (hk : b.kind = .call) : b.WritesLine around 'c' := by
  have hrender : ∀ indent, b.render indent around = (do
      pure (transfer "call" (param (← b.paramList) "label") around.labels indent)) := by
    intro indent
    simp only [render, hk]
  exact writesLine_of_transfer (c := 'c') hone (by decide) rfl hrender

lemma writesLine_of_return (hk : b.kind = .returnFrom) : b.WritesLine around 'r' := by
  intro indent text hi h
  simp only [render, hk, statement?] at h
  obtain rfl := Except.ok.inj h
  exact .inr ⟨indent, "return\n", hi, rfl, "return", rfl, by decide, rfl⟩

lemma silent_of_control (hp : Marked mark p) (hmark : mark ∉ ['i', 'w', 'f']) (hone : b.OneLine)
    (hk : b.kind.isControl = true) : b.Silent p around where
  own := by
    intro indent text _ h
    rw [render_of_control hk] at h
    obtain rfl := Except.ok.inj h
    exact countLines_empty (hp.eq_false (by simp))
  header := fun hps h => countLines_header_eq_zero hp (hone hps) hmark h

lemma silent_of_writesLine (hp : Marked mark p) (h : b.WritesLine around c)
    (hblank : isBlank c = false) (hne : c ≠ mark) (hk : b.kind.isControl = false) :
    b.Silent p around where
  own := by
    intro indent text hi hrender
    rcases h hi hrender with rfl | ⟨margin, own, hm, rfl, hline⟩
    · exact countLines_empty (hp.eq_false (by simp))
    · exact hline.countLines_eq_zero hp hm hblank hne
  header := by
    intro ps line _ h
    rw [isControl_of_header? h] at hk
    exact Bool.noConfusion hk

end Block
end NovelGraph
