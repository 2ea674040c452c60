import NovelGraph.Proofs.OneLine

/-! What a script has before its scenes when no block defines anything: the pictures and characters
of the project, one line each, between headings. -/
namespace NovelGraph

open Outcome Script Text

namespace Text

/-- Every line of the text is blank or begins with one of the given characters. -/
def headed (heads : List Char) (text : String) : Bool :=
  (lines text).all fun line => (unindented line).toList.head?.all heads.contains

lemma Marked.countLines_eq_zero {mark : Char} {p : String → Bool} {heads : List Char} {text : String}
    (hp : Marked mark p) (hmark : mark ∉ heads) (h : headed heads text = true) :
    countLines p text = 0 := by
  rw [countLines, List.countP_eq_zero]
  intro line hline hmem
  have hhead := List.all_eq_true.mp h line hline
  rw [hp _ hmem, Option.all_some, List.contains_iff_mem] at hhead
  exact hmark hhead

end Text

namespace Script

lemma mem_of_mem_collapse {c : Char} {cs : List Char} (h : c ∈ collapse cs) : c ∈ cs := by
  fun_induction collapse cs with
  | case1 rest ih =>
    rw [List.mem_cons]
    exact .inr (ih h)
  | case2 d rest _ ih =>
    rw [List.mem_cons] at h ⊢
    exact h.imp_right ih
  | case3 => exact h

lemma isWord_of_mem_charPrefixed {cs : List Char} (h : ∀ c ∈ cs, isWord c = true) :
    ∀ c ∈ charPrefixed cs, isWord c = true := by
  have hchar : ['c', 'h', 'a', 'r', '_'].all isWord = true := by decide +kernel
  intro c hc
  unfold charPrefixed at hc
  split_ifs at hc
  · exact (List.mem_append.mp hc).elim (List.all_eq_true.mp hchar c) (h c)
  · exact h c hc

/-- Names of variables have only characters of words. -/
lemma isWord_of_mem_normalize (name : String) : ∀ c ∈ (normalize name).toList, isWord c = true := by
  have hmarked : ∀ c ∈ name.toList.map fun c => if isWord c then c else '_', isWord c = true := by
    intro c hc
    obtain ⟨d, -, rfl⟩ := List.mem_map.mp hc
    split_ifs with hword
    · exact hword
    · decide +kernel
  rw [normalize, String.toList_ofList]
  simp only [normalizeList]
  have hvar : ['v', 'a', 'r'].all isWord = true := by decide +kernel
  split_ifs
  · exact List.all_eq_true.mp hvar
  · refine isWord_of_mem_charPrefixed fun c hc => ?_
    exact isWord_of_mem_charPrefixed hmarked c (mem_of_mem_collapse (mem_of_mem_trimList hc))

lemma newline_notMem_normalize (name : String) : '\n' ∉ (normalize name).toList := by
  intro hmem
  exact absurd (isWord_of_mem_normalize name _ hmem) (by decide +kernel)

lemma characterLine_isLine (name : String) {displayed : Option String}
    (h : ∀ shown ∈ displayed, '\n' ∉ shown.toList) :
    IsLine 'd' (characterLine "" (normalize name) displayed) := by
  have hname := newline_notMem_normalize name
  have hline : ∀ inner : String, '\n' ∉ inner.toList →
      IsLine 'd' ("" ++ "define " ++ normalize name ++ " = Character(" ++ inner ++ ")\n") := by
    intro inner hinner
    exact ⟨"define " ++ normalize name ++ " = Character(" ++ inner ++ ")",
      by simp [String.append_assoc], by simp [hname, hinner], by simp⟩
  cases displayed with
  | none => exact hline "None" (by decide)
  | some shown =>
    have hescape : '\n' ∉ (escapeApostrophes shown).toList :=
      newline_notMem_replaceChar (by decide) (h shown rfl)
    exact hline ("'" ++ escapeApostrophes shown ++ "'") (by simp [hescape])

end Script

lemma NamedTexts.mem_foldl_setNew {α : Type} {name text : α → String} {items : List α}
    {d : NamedTexts} {m : String × String}
    (h : m ∈ items.foldl (fun d a => NamedTexts.setNew d (name a) (text a)) d) :
    m ∈ d ∨ ∃ a ∈ items, m = (name a, text a) := by
  induction items generalizing d with
  | nil => exact .inl h
  | cons a rest ih =>
    rcases ih h with hm | ⟨b, hb, rfl⟩
    · simp only [setNew] at hm
      split_ifs at hm
      · exact .inl hm
      · rw [List.mem_append, List.mem_singleton] at hm
        exact hm.imp_right fun heq => ⟨a, by simp, heq⟩
    · exact .inr ⟨b, by simp [hb], rfl⟩

namespace Project

/-- The kinds of blocks that only tell the story and lead through it. -/
def signposts : List BlockKind :=
  [.start, .label, .narration, .jump, .call, .returnFrom, .ifElse]

/-- The pictures of the project and the names that characters are shown with have no line ends. -/
structure OneLineTables (p : Project) : Prop where
  images : ∀ ⦃ms⦄, p.images.members "items" = .ok ms →
    ∀ m ∈ ms, '\n' ∉ m.1.toList ∧ '\n' ∉ m.2.display.toList
  characters : ∀ ⦃ms⦄, p.characters.members "items" = .ok ms → ∀ m ∈ ms, ∀ ⦃data⦄,
    m.2.members "get" = .ok data → ∀ shown, Value.lookup data "display_name" = some (.text shown) →
      '\n' ∉ shown.toList

variable {p : Project} {lines : List String} {text : String}

lemma characterEntry_eq_ok {name line : String} {data : Value}
    (h : characterEntry name data = .ok line) :
    ∃ ms displayed, data.members "get" = .ok ms ∧
      line = characterLine "" (normalize name) displayed ∧
      ∀ shown ∈ displayed, Value.lookup ms "display_name" = some (.text shown) := by
  rw [characterEntry, bind_eq_ok] at h
  obtain ⟨ms, hms, h⟩ := h
  refine ⟨ms, ?_⟩
  simp only at h
  split at h
  · rename_i s hs
    refine ⟨nonEmpty? s, hms, (Except.ok.inj h).symm, ?_⟩
    intro shown hshown
    obtain ⟨rfl, hne⟩ := nonEmpty?_eq_some hshown
    cases hlookup : Value.lookup ms "display_name" with
    | none =>
      rw [hlookup, Option.getD_none, Value.text.injEq] at hs
      rw [← hs] at hne
      exact absurd hne (by decide)
    | some v =>
      rw [hlookup, Option.getD_some] at hs
      rw [hs]
  · split_ifs at h
    exact ⟨none, hms, (Except.ok.inj h).symm, by simp⟩

lemma namesCharacter_of_object {ms : List (String × Value)} (h : p.characters = .object ms)
    (name : String) : p.namesCharacter name = .ok (decide (name ∈ ms.map (·.1))) := by
  rw [namesCharacter, h]
  refine congrArg Except.ok ?_
  rw [Bool.eq_iff_iff]
  simp

lemma definitions_eq_ok (h : p.definitions = .ok text) :
    ∃ lines, p.definitionLines = .ok lines ∧ text = concat lines := by
  rw [definitions, bind_eq_ok] at h
  obtain ⟨lines, hlines, h⟩ := h
  exact ⟨lines, hlines, (Except.ok.inj h).symm⟩

section Signposts

variable (hk : ∀ b ∈ p.blocks, b.kind ∈ signposts)

include hk

lemma blocksOf_eq_nil {kind : BlockKind} (hkind : kind ∉ signposts) : p.blocksOf kind = [] := by
  rw [blocksOf, List.filter_eq_nil_iff]
  intro b hb heq
  exact hkind (beq_iff_eq.mp heq ▸ hk b hb)

lemma allImages_mem {images : NamedTexts} (h : p.allImages = .ok images) {m : String × String}
    (hm : m ∈ images) : ∃ ms, p.images.members "items" = .ok ms ∧
      ∃ a ∈ ms, m = (a.1, a.2.display) := by
  have hblocks : p.imageBlocks = .ok [] := by
    rw [imageBlocks, paramsOf, blocksOf_eq_nil hk (by decide)]
    rfl
  have hbackgrounds : p.backgroundImages = .ok [] := by
    rw [backgroundImages, blocksOf_eq_nil hk (by decide)]
    rfl
  obtain ⟨ms, hms, rfl⟩ : ∃ ms, (ms = [] ∨ p.images.members "items" = .ok ms) ∧
      (sortedMembers ms).foldl (fun d m => NamedTexts.setNew d m.1 m.2.display) [] = images := by
    simp only [allImages, hblocks, hbackgrounds, ok_bind] at h
    split_ifs at h
    · obtain ⟨ms, hms, h⟩ := bind_eq_ok.mp h
      exact ⟨ms, .inr hms, Except.ok.inj h⟩
    · exact ⟨[], .inl rfl, Except.ok.inj h⟩
  rcases NamedTexts.mem_foldl_setNew hm with hnil | ⟨a, ha, rfl⟩
  · cases hnil
  · have hin : a ∈ ms := (Order.sortByKey_perm _ _ _).mem_iff.mp ha
    rcases hms with rfl | hms
    · cases hin
    · exact ⟨ms, hms, a, hin, rfl⟩

/-- The definitions are headings, pictures and characters. -/
lemma definitionLines_cases (h : p.definitionLines = .ok lines) {line : String}
    (hline : line ∈ lines) :
    line ∈ ["# Image Definitions\n", "# Character Definitions\n", "\n"] ∨
      (∃ ms, p.images.members "items" = .ok ms ∧
        ∃ m ∈ ms, line = "image " ++ m.1 ++ " = " ++ inQuotes m.2.display ++ "\n") ∨
      ∃ ms, p.characters.members "items" = .ok ms ∧
        ∃ m ∈ ms, characterEntry m.1 m.2 = .ok line := by
  rw [definitionLines, bind_eq_ok] at h
  obtain ⟨images, himages, h⟩ := h
  obtain ⟨characters, hcharacters, h⟩ := bind_eq_ok.mp h
  have hblocks : p.characterBlockSection (images ++ characters) = .ok [] := by
    rw [characterBlockSection, blocksOf_eq_nil hk (by decide)]
    rfl
  have hvariables : p.blocks.filter (fun b => b.kind == .define || b.kind == .defaultVar) = [] := by
    rw [List.filter_eq_nil_iff]
    intro b hb heq
    have hkind := hk b hb
    rcases (Bool.or_eq_true _ _).mp heq with heq | heq
    · rw [beq_iff_eq.mp heq] at hkind
      exact absurd hkind (by decide)
    · rw [beq_iff_eq.mp heq] at hkind
      exact absurd hkind (by decide)
  rw [hblocks, ok_bind, variableSection, hvariables, List.append_nil] at h
  obtain rfl : images ++ characters = lines := Except.ok.inj h
  rcases List.mem_append.mp hline with hline | hline
  · rw [imageSection, bind_eq_ok] at himages
    obtain ⟨all, hall, himages⟩ := himages
    split_ifs at himages
    · obtain rfl := Except.ok.inj himages
      cases hline
    · obtain rfl := Except.ok.inj himages
      simp only [List.mem_append, List.mem_singleton, List.mem_map] at hline
      rcases hline with (rfl | ⟨m, hm, rfl⟩) | rfl
      · exact .inl (by simp)
      · obtain ⟨ms, hms, a, ha, rfl⟩ :=
          allImages_mem hk hall ((Order.sortByKey_perm _ _ _).mem_iff.mp hm)
        exact .inr (.inl ⟨ms, hms, a, ha, rfl⟩)
      · exact .inl (by simp)
  · rw [characterSection] at hcharacters
    split_ifs at hcharacters
    · obtain ⟨ms, hms, hcharacters⟩ := bind_eq_ok.mp hcharacters
      obtain ⟨entries, hentries, hcharacters⟩ := bind_eq_ok.mp hcharacters
      obtain rfl := Except.ok.inj hcharacters
      simp only [List.mem_append, List.mem_singleton] at hline
      rcases hline with (rfl | hentry) | rfl
      · exact .inl (by simp)
      · obtain ⟨m, hm, hentry⟩ := (mem_of_mapM_eq_ok hentries).mp hentry
        exact .inr (.inr ⟨ms, hms, m, (Order.sortByKey_perm _ _ _).mem_iff.mp hm, hentry⟩)
      · exact .inl (by simp)
    · obtain rfl := Except.ok.inj hcharacters
      cases hline

lemma definitionLines_endsLine (h : p.definitionLines = .ok lines) :
    ∀ line ∈ lines, EndsLine line := by
  intro line hline
  rcases definitionLines_cases hk h hline with hhead | ⟨ms, -, m, -, rfl⟩ | ⟨ms, -, m, -, hentry⟩
  · have hall : ∀ line ∈ ["# Image Definitions\n", "# Character Definitions\n", "\n"],
        line.toList.getLast? = some '\n' := by decide
    exact endsLine_of_last (hall line hhead)
  · exact endsLine_line _
  · obtain ⟨_, _, -, rfl, -⟩ := characterEntry_eq_ok hentry
    exact endsLine_append_of_last _ rfl

lemma definitions_endsLine (h : p.definitions = .ok text) : EndsLine text := by
  obtain ⟨lines, hlines, rfl⟩ := definitions_eq_ok h
  exact endsLine_concat (definitionLines_endsLine hk hlines)

/-- Definitions on one line each begin with their words. -/
theorem countLines_definitions_eq_zero (ht : p.OneLineTables) {mark : Char} {q : String → Bool}
    (hq : Marked mark q) (hmark : mark ∉ ['#', 'i', 'd']) (h : p.definitions = .ok text) :
    countLines q text = 0 := by
  obtain ⟨lines, hlines, rfl⟩ := definitions_eq_ok h
  rw [countLines_concat (hq.eq_false (by simp)) (definitionLines_endsLine hk hlines),
    List.sum_eq_zero_iff_forall_eq_nat]
  intro n hn
  obtain ⟨line, hline, rfl⟩ := List.mem_map.mp hn
  have hshort : ∀ c ∈ ['i', 'd'], IsLine c line → countLines q line = 0 := by
    intro c hc hl
    have hblank : isBlank c = false := by
      simp only [List.mem_cons, List.not_mem_nil, or_false] at hc
      rcases hc with rfl | rfl <;> rfl
    have hcount := hl.countLines_eq_zero hq spaces_empty hblank
      fun heq => hmark (List.mem_cons_of_mem '#' (heq ▸ hc))
    rwa [String.empty_append] at hcount
  rcases definitionLines_cases hk hlines hline with hhead | ⟨ms, hms, m, hm, rfl⟩ |
    ⟨ms, hms, m, hm, hentry⟩
  · have hall : ∀ line ∈ ["# Image Definitions\n", "# Character Definitions\n", "\n"],
        headed ['#', 'i', 'd'] line = true := by decide
    exact hq.countLines_eq_zero hmark (hall line hhead)
  · obtain ⟨hname, hpath⟩ := ht.images hms m hm
    exact hshort 'i' (by simp) ⟨_, rfl, by simp [inQuotes, hname, hpath], by simp⟩
  · obtain ⟨data, displayed, hdata, rfl, hshown⟩ := characterEntry_eq_ok hentry
    exact hshort 'd' (by simp) (characterLine_isLine m.1 fun shown hmem =>
      ht.characters hms m hm hdata shown (hshown shown hmem))

/-- Such a story has only the characters of its project. -/
lemma undefinedCharacters_eq_nil {names blockNames : List String}
    (hn : p.characterNames = .ok names) : p.undefinedCharacters names blockNames = .ok [] := by
  rw [characterNames, bind_eq_ok] at hn
  obtain ⟨ms, hms, hn⟩ := hn
  obtain ⟨named, hnamed, hn⟩ := bind_eq_ok.mp hn
  -- no kind of block that is left mentions a character
  have hsame : named = ms.map (·.1) := by
    refine foldlM_invariant (fun names => names = ms.map (·.1)) ?_ rfl hnamed
    rintro b hb names names' rfl hstep
    have hkind := hk b hb
    generalize b.kind = kind at hkind hstep
    simp only [signposts, List.mem_cons, List.not_mem_nil, or_false] at hkind
    rcases hkind with rfl | rfl | rfl | rfl | rfl | rfl | rfl <;> exact (Except.ok.inj hstep).symm
  obtain rfl := Except.ok.inj hn
  refine filterM_eq_nil fun name hname => ?_
  have hin : name ∈ ms.map (·.1) := by
    have hmem := (Order.sortByKey_perm _ _ _).mem_iff.mp hname
    rw [List.mem_eraseDups, hsame, List.drop_of_length_le (by simp)] at hmem
    simpa using hmem
  rw [namesCharacter_of_object (Value.eq_object_of_members hms), decide_eq_true hin, ok_bind]
  rfl

end Signposts

/-- Before the entry of the game only the definitions have lines of such a kind. -/
lemma countLines_front {mark : Char} {q : String → Bool} (hq : Marked mark q)
    (hmark : mark ∉ ['#', 'd']) {definitions : String} (hd : EndsLine definitions)
    {narrator : List String}
    (hn : narrator ∈ [[], ["define narrator = Character('Narrator')\n\n"]]) :
    EndsLine (concat (front definitions [] narrator)) ∧
      countLines q (concat (front definitions [] narrator)) = countLines q definitions := by
  have hempty : q "" = false := hq.eq_false (by simp)
  -- without the definitions there are only fixed texts
  have hfixed : ∀ text ∈ front "" [] narrator, EndsLine text ∧ countLines q text = 0 := by
    have hall : ∀ narrator ∈ [[], ["define narrator = Character('Narrator')\n\n"]],
        ∀ text ∈ front "" [] narrator, (text = "" ∨ text.toList.getLast? = some '\n') ∧
          headed ['#', 'd'] text = true := by decide +kernel
    intro text htext
    obtain ⟨hlast, hheads⟩ := hall narrator hn text htext
    refine ⟨?_, hq.countLines_eq_zero hmark hheads⟩
    rcases hlast with rfl | hlast
    · exact endsLine_empty
    · exact endsLine_of_last hlast
  obtain ⟨first, second, last, hcut⟩ : ∃ first second last, ∀ definitions,
      front definitions [] narrator = first :: second :: definitions :: (narrator ++ [last]) :=
    ⟨_, _, _, fun _ => rfl⟩
  rw [hcut] at hfixed ⊢
  simp only [List.forall_mem_cons] at hfixed
  obtain ⟨hfirst, hsecond, -, hrest⟩ := hfixed
  have hends : ∀ part ∈ first :: second :: definitions :: (narrator ++ [last]), EndsLine part := by
    simp only [List.forall_mem_cons]
    exact ⟨hfirst.1, hsecond.1, hd, fun text htext => (hrest text htext).1⟩
  have hsum : ((narrator ++ [last]).map (countLines q)).sum = 0 := by
    rw [List.sum_eq_zero_iff_forall_eq_nat, List.forall_mem_map]
    exact fun text htext => (hrest text htext).2
  refine ⟨endsLine_concat hends, ?_⟩
  rw [countLines_concat hempty hends, List.map_cons, List.map_cons, List.map_cons, List.sum_cons,
    List.sum_cons, List.sum_cons, hfirst.2, hsecond.2, hsum]
  omega

end Project
end NovelGraph
