import NovelGraph.Proofs.Credits
import NovelGraph.Proofs.Reloading
import NovelGraph.Proofs.VisibleScript

/-! What saving keeps of a script. A document has the scenes of a project, but neither its
characters nor its pictures: saved and loaded again, a project has the script that it would have
without them. -/
namespace NovelGraph

open Outcome Script Text

namespace Text

/-- The texts differ at a place that both of them have. -/
def diverge : List Char → List Char → Bool
  | c :: cs, d :: ds => c != d || diverge cs ds
  | _, _ => false

lemma append_ne_of_diverge {cs ds : List Char} (h : diverge cs ds = true) (us vs : List Char) :
    cs ++ us ≠ ds ++ vs := by
  fun_induction diverge cs ds with
  | case1 c cs d ds ih =>
    rw [List.cons_append, List.cons_append]
    intro heq
    obtain ⟨hcd, hrest⟩ := List.cons.inj heq
    exact ih (by simpa [hcd] using h) hrest
  | case2 => cases h

/-- Texts go apart if their first lines do. -/
lemma concat_ne_of_diverge {line other : String} {rest others : List String}
    (h : diverge line.toList other.toList = true) :
    concat (line :: rest) ≠ concat (other :: others) := by
  intro heq
  rw [concat_cons, concat_cons, ← String.toList_inj, String.toList_append,
    String.toList_append] at heq
  exact append_ne_of_diverge h _ _ heq

end Text

/-- A scene that was saved and loaded looks the same in a script. -/
lemma Scene.reloaded_alike (s : Scene) :
    AlikeBlocks s.reloaded.blocks s.blocks ∧ s.reloaded.links = s.links := by
  have hlisted : ∀ {bs cs : List Block}, List.Forall₂ Block.Extends bs cs → AlikeBlocks cs bs := by
    intro bs cs h
    induction h with
    | nil => rfl
    | cons hext _ ih =>
      rw [AlikeBlocks, List.map_cons, List.map_cons, ih, hext.rest]
      rfl
  have hblocks : AlikeBlocks s.reloaded.blocks s.blocks := by
    refine (hlisted (attachPorts_extends _ _)).trans ?_
    rw [List.map_map]
    rfl
  exact ⟨hblocks, links_alike hblocks rfl rfl⟩

namespace Project

variable {p : Project} {text : String}

/-- The project without what a document leaves out. -/
def bare (p : Project) : Project :=
  { p with characters := .object [], images := .object [], styles := .object [] }

lemma reloaded_alike (p : Project) : p.reloaded.Alike p.bare := by
  refine ⟨?_, rfl, rfl⟩
  rw [reloaded, List.forall₂_map_left_iff]
  exact List.forall₂_same.mpr fun s _ => s.reloaded_alike

/-- Without characters, and with all pictures from blocks, a project has nothing to lose. -/
lemma script_bare (hcharacters : p.characters = .object [])
    (himages : p.allImages = p.bare.allImages) :
    p.script = p.bare.script := by
  have hsection : p.imageSection = p.bare.imageSection := by
    rw [imageSection, imageSection, himages]
  have hlines : p.definitionLines = p.bare.definitionLines := by
    rw [definitionLines, definitionLines, hsection]
    obtain ⟨_, _, _, _, _, _⟩ := p
    obtain rfl := hcharacters
    rfl
  rw [script, script, definitions, definitions, hlines]
  obtain ⟨_, _, _, _, _, _⟩ := p
  obtain rfl := hcharacters
  rfl

section Apart

variable {ms : List (String × Value)} {names blockNames : List String} {c : Credits}

/-- What stands behind the pictures and the characters of the project itself. -/
def laterLines (c : Credits) : List String :=
  Role.lines c.heading c.fromBlocks ++ c.values ++
    Role.lines ["# Characters (auto-detected)\n"] c.found ++ c.narrator ++
    ["\n# Игра начинается здесь:\n"]

/-- The first lines of the pictures and of the characters of the project itself. -/
def ownHeadings : List String := ["# Image Definitions\n", "# Character Definitions\n"]

/-- The later lines that are always the same. -/
def fixedLines : List String :=
  ["# Define Statements\n", "# Default Statements\n", "\n", "# Characters (auto-detected)\n",
    "# Character Definitions (from blocks)\n", "define narrator = Character('Narrator')\n\n",
    "\n# Игра начинается здесь:\n"]

lemma mem_laterLines (hc : p.CreditedBy ms names blockNames c) {line : String}
    (h : line ∈ laterLines c) : line ∈ fixedLines ∨ ∃ rest, line.toList = 'd' :: rest := by
  have hroles : ∀ {title : List String} {roles : List Role}, title ⊆ fixedLines →
      line ∈ Role.lines title roles → line ∈ fixedLines ∨ ∃ rest, line.toList = 'd' :: rest := by
    intro title roles htitle hline
    rw [Role.lines] at hline
    split_ifs at hline
    · cases hline
    · simp only [List.mem_append, List.mem_map, List.mem_singleton] at hline
      rcases hline with (hline | ⟨r, -, rfl⟩) | rfl
      · exact .inl (htitle hline)
      · exact .inr ⟨_, by simp [Role.line, characterLine]; rfl⟩
      · exact .inl (by simp [fixedLines])
  simp only [laterLines, List.mem_append, List.mem_singleton] at h
  rcases h with (((hline | hline) | hline) | hline) | rfl
  · refine hroles ?_ hline
    rcases hc.heading with hh | hh <;> simp [hh, fixedLines]
  · rcases hc.values line hline with hfixed | ⟨word, hword, key, ps, hne, rfl⟩
    · exact .inl (List.mem_append_left _ hfixed)
    · refine .inr ?_
      rw [assignment, if_neg (by simpa using hne)]
      simp only [List.mem_cons, List.not_mem_nil, or_false] at hword
      rcases hword with rfl | rfl <;> exact ⟨_, by simp; rfl⟩
  · exact hroles (by simp [fixedLines]) hline
  · rcases hc.narrator with hn | hn <;> simp [hn, fixedLines] at hline ⊢
    exact .inl (by simp [hline])
  · exact .inl (by simp [fixedLines])

/-- No later line begins like the pictures or the characters of the project. -/
lemma diverge_laterLines (hc : p.CreditedBy ms names blockNames c) {heading line : String}
    (hheading : heading ∈ ownHeadings) (hline : line ∈ laterLines c) :
    diverge heading.toList line.toList = true := by
  have hfixed : (ownHeadings.all fun heading => fixedLines.all fun line =>
      diverge heading.toList line.toList) = true := by decide +kernel
  rcases mem_laterLines hc hline with hline | ⟨rest, hline⟩
  · exact List.all_eq_true.mp (List.all_eq_true.mp hfixed heading hheading) line hline
  · have hhash : ∃ rest, heading.toList = '#' :: rest := by
      simp only [ownHeadings, List.mem_cons, List.not_mem_nil, or_false] at hheading
      rcases hheading with rfl | rfl <;> exact ⟨_, rfl⟩
    obtain ⟨others, hhash⟩ := hhash
    rw [hhash, hline]
    rfl

lemma concat_ne_laterLines (hc : p.CreditedBy ms names blockNames c) {heading : String}
    (hheading : heading ∈ ownHeadings) (others rest : List String) :
    concat (heading :: others) ≠ concat (laterLines c ++ rest) := by
  obtain ⟨line, later, hlater⟩ :=
    List.exists_cons_of_ne_nil (show laterLines c ≠ [] by simp [laterLines])
  rw [hlater, List.cons_append]
  exact concat_ne_of_diverge (diverge_laterLines hc hheading (by simp [hlater]))

lemma creditLines_eq (c : Credits) (rest : List String) :
    c.lines ++ "\n# Игра начинается здесь:\n" :: rest =
      c.images ++ (Role.lines ["# Character Definitions\n"] c.own ++ (laterLines c ++ rest)) := by
  simp [Credits.lines, laterLines]

/-- If a project has the script that it has without characters and pictures of its own, it has no
such characters, and such pictures only if blocks have others. -/
lemma eq_bare_of_script (h : p.script = .ok text) (hbare : p.bare.script = .ok text)
    (himages : p.bare.allImages = .ok [] ∨ p.allImages = p.bare.allImages) :
    p.characters = .object [] ∧ p.allImages = p.bare.allImages := by
  obtain ⟨ms, _, _, c, rest, hms, -, -, hc, rfl⟩ := script_credits h
  obtain ⟨ms', _, _, c', rest', hms', -, -, hc', htext⟩ := script_credits hbare
  obtain rfl : [] = ms' := Value.object.inj hms'
  have hown' : c'.own = [] := List.map_eq_nil_iff.mp hc'.own
  have hnone : Role.lines ["# Character Definitions\n"] c'.own = [] := by
    rw [hown']
    rfl
  rw [List.append_assoc, List.append_assoc, creditLines_eq, creditLines_eq, concat_append opening,
    concat_append opening, String.append_right_inj, hnone, List.nil_append] at htext
  have hequal : p.allImages = p.bare.allImages := by
    refine himages.elim (fun hnil => ?_) id
    have hsection := hc'.images
    rw [imageSection, hnil, ok_bind] at hsection
    obtain ⟨images, hall, hown⟩ := bind_eq_ok.mp hc.images
    split_ifs at hown with hempty
    · rw [hall, hnil, List.isEmpty_iff.mp hempty]
    · rw [← Except.ok.inj hown, ← Except.ok.inj hsection] at htext
      exact absurd htext (concat_ne_laterLines hc' (by simp [ownHeadings]) _ _)
  refine ⟨?_, hequal⟩
  have hsame : c.images = c'.images := by
    have hsection : p.imageSection = p.bare.imageSection := by
      rw [imageSection, imageSection, hequal]
    rw [hc.images, hc'.images] at hsection
    exact Except.ok.inj hsection
  rw [hsame, concat_append c'.images, concat_append c'.images, String.append_right_inj] at htext
  have hown : c.own = [] := by
    by_contra hne
    rw [Role.lines, if_neg (by simpa using hne)] at htext
    exact concat_ne_laterLines hc' (by simp [ownHeadings]) _ _ htext
  have hlength := congrArg List.length hc.own
  rw [hown, List.length_map, List.length_map, sortedMembers, (Order.sortByKey_perm _ _ _).length_eq]
    at hlength
  rw [hms, List.length_eq_zero_iff.mp hlength.symm]

end Apart

/-- Saving and loading gives a project the script that it has without characters and pictures of
its own. Unless both blocks and the project bring pictures, the script is kept exactly if the
project has no characters of its own, and no pictures that blocks do not define. -/
theorem saved_script (hkeys : ∀ s ∈ p.scenes, s.Keyed) :
    ∃ q, ofValue p.toValue = .ok q ∧ q.script = p.bare.script ∧
      ∀ text, p.script = .ok text →
        p.bare.allImages = .ok [] ∨ p.allImages = p.bare.allImages →
        (q.script = .ok text ↔ p.characters = .object [] ∧ p.allImages = p.bare.allImages) := by
  have hscript : p.reloaded.script = p.bare.script := p.reloaded_alike.script_eq
  refine ⟨p.reloaded, ofValue_toValue hkeys, hscript, fun text htext himages => ?_⟩
  rw [hscript]
  constructor
  · intro hbare
    exact eq_bare_of_script htext hbare himages
  · rintro ⟨hcharacters, hequal⟩
    rw [← script_bare hcharacters hequal, htext]

/-- A character that no block defines any more, and its speech. -/
def retired : Project where
  name := .text "story"
  characters := .object [("eve", .object [("display_name", .text "Eve")])]
  scenes :=
    [{ id := .text "s", name := .text "Scene", label := .text "start"
       blocks :=
        [{ id := .text "a", kind := .say, x := .int 400
           params := .object [("who", .text "eve"), ("text", .text "Hi")] }] }]

/-- The script of the speech below some definitions. -/
def retiredText (definitions : String) : String :=
  "# Generated by RenPy Node Editor\n# This file is auto-generated. Do not edit manually.\n\n" ++
    definitions ++ "\n# Игра начинается здесь:\nlabel start:\n    return\n    eve \"Hi\"\n\n"

/-- Saved and loaded again, the character has lost the name it was shown with. -/
theorem retired_script :
    retired.script =
        .ok (retiredText "# Character Definitions\ndefine eve = Character('Eve')\n\n") ∧
      (ofValue retired.toValue >>= script) =
        .ok (retiredText "# Characters (auto-detected)\ndefine eve = Character('eve')\n\n") :=
  ⟨eq_ok_of_toOption (by decide +kernel), eq_ok_of_toOption (by decide +kernel)⟩

theorem retired_saved :
    ∃ text q, retired.script = .ok text ∧ ofValue retired.toValue = .ok q ∧
      q.script = retired.bare.script ∧ q.script ≠ .ok text := by
  have hkeys : ∀ s ∈ retired.scenes, s.Keyed := by
    intro s hs
    obtain rfl := List.mem_singleton.mp hs
    exact ⟨by simp [Value.isKey], by simp⟩
  have htext : retired.script =
      .ok (retiredText "# Character Definitions\ndefine eve = Character('Eve')\n\n") :=
    eq_ok_of_toOption (by decide +kernel)
  obtain ⟨q, hq, hbare, hkept⟩ := saved_script hkeys
  refine ⟨_, q, htext, hq, hbare, fun hsame => ?_⟩
  have hnone := ((hkept _ htext (.inr rfl)).mp hsame).1
  exact absurd (Value.object.inj hnone) (by simp)

end Project
end NovelGraph
