import NovelGraph.Proofs.ExportedLabels
import NovelGraph.Proofs.OneLine

/-! Labels as they are found again in a game. A script is read line by line, whichever way its lines
end, and a line that opens a label at the margin is a line of its own whatever stands around it. So
the labels of a story are found in the script that was written for it. -/
namespace NovelGraph

open Outcome Script

namespace Text

/-- A line from the margin on is one of the lines that are read. -/
lemma mem_keepLines {before line after : String} (hbefore : EndsLine before)
    (hnewline : '\n' ∉ line.toList) (hreturn : '\r' ∉ line.toList) :
    line ++ "\n" ∈
      keepLines (unifyNewlines (before ++ (line ++ "\n") ++ after).toList) := by
  have hread : line ++ "\n" ∈
      keepLines (unifyNewlines (line.toList ++ '\n' :: after.toList)) := by
    rw [unifyNewlines_append hreturn, unifyNewlines_cons (by decide), keepLines_append,
      splitList_of_notMem hnewline]
    simp
  have htext : (before ++ (line ++ "\n") ++ after).toList =
      before.toList ++ (line.toList ++ '\n' :: after.toList) := by simp
  rw [htext]
  rcases List.eq_nil_or_concat before.toList with hnil | ⟨front, c, hfront⟩
  · rwa [hnil, List.nil_append]
  · have hc : c = '\n' := hbefore c (by simp [hfront])
    obtain ⟨zs, hzs⟩ := exists_unifyNewlines front (line.toList ++ '\n' :: after.toList)
    rw [hfront, hc, List.concat_eq_append, List.append_assoc, List.singleton_append, hzs,
      keepLines_append]
    exact List.mem_append_right _ hread

end Text

namespace Script

open Text

variable {label : String}

lemma labelLine_eq (label : String) : labelLine "" label = "label " ++ label ++ ":" ++ "\n" := by
  rw [labelLine, String.empty_append, append_colon_line]

/-- The line that opens a label is read as such. -/
lemma definedLabel?_labelLine (h : Trimmed label) (hne : label ≠ "") (hcolon : ':' ∉ label.toList) :
    definedLabel? (labelLine "" label) = some label := by
  have hcs : label.toList ≠ [] := by simpa using hne
  have hlast : ∀ s : String, ∀ c ∈ (s ++ ":").toList.getLast?, isBlank c = false := by
    intro s c hc
    rw [String.toList_append, List.getLast?_append_of_ne_nil _ (by simp)] at hc
    rw [← Option.some.inj hc]
    decide
  have hline : strip (labelLine "" label) = "label " ++ label ++ ":" := by
    rw [labelLine_eq]
    refine Trimmed.strip_line ⟨?_, hlast _⟩ (by simp)
    have hfirst : ("label " ++ label ++ ":").toList.head? = some 'l' := by simp
    intro c hc
    rw [hfirst] at hc
    rw [← Option.some.inj hc]
    decide
  have hrest : strip (label ++ ":") = label ++ ":" := by
    refine Trimmed.strip_eq ⟨?_, hlast _⟩
    rw [String.toList_append, List.head?_append_of_ne_nil _ hcs]
    exact h.1
  have hdrop : String.ofList (("label " ++ label ++ ":").toList.drop 6) = label ++ ":" := by
    simp
  have hname : String.ofList ((label ++ ":").toList.takeWhile (· != ':')) = label := by
    have hall : ∀ c ∈ label.toList, (c != ':') = true := by
      intro c hc
      rw [bne_iff_ne]
      exact fun heq => hcolon (heq ▸ hc)
    rw [String.toList_append, List.takeWhile_append_of_pos hall]
    simp
  have hcontains : contains (label ++ ":") ":" = true := contains_of_mem (c := ':') (by simp)
  have hhash : startsWith ("label " ++ label ++ ":") "#" = false := by
    simp [startsWith, List.isPrefixOf]
  have hlabel : startsWith ("label " ++ label ++ ":") "label " = true := by simp [startsWith]
  simp only [definedLabel?, hline, hhash, hlabel, hdrop, hrest, hcontains, hname, h.strip_eq,
    Bool.false_eq_true, if_true, if_false]
  rw [if_neg (by simpa using hne)]

lemma trimmed_param (ps : Params) (key : String) : Trimmed (param ps key) := by
  rw [param, paramOr]
  split
  · exact trimmed_strip _
  · simp [Trimmed]
  · exact trimmed_strip _

/-- Labels are without white space at their ends. -/
lemma trimmed_of_labelOf? {b : Block} (h : Project.labelOf? b = .ok (some label)) :
    Trimmed label ∧ label ≠ "" := by
  have hparam : ∀ {s : String}, Trimmed s → nonEmpty? s = some label →
      Trimmed label ∧ label ≠ "" := by
    intro s hs hsome
    obtain ⟨rfl, hne⟩ := nonEmpty?_eq_some hsome
    exact ⟨hs, by simpa using hne⟩
  unfold Project.labelOf? at h
  split at h
  · obtain ⟨s, hs, h⟩ := bind_eq_ok.mp h
    obtain ⟨ps, -, hs⟩ := bind_eq_ok.mp hs
    rw [pure_eq_ok] at hs
    refine hparam ?_ (pure_eq_ok.mp h)
    rw [← hs, Script.startLabel]
    split_ifs
    · exact trimmed_param _ _
    · exact trimmed_param _ _
  · obtain ⟨ps, -, h⟩ := bind_eq_ok.mp h
    exact hparam (trimmed_param _ _) (pure_eq_ok.mp h)
  · cases h

end Script

namespace Tree

variable {t : Tree} {directory : Path} {name text label : String}

/-- A file is listed in its directory. -/
lemma mem_names (hjoin : (directory.join name).parts = directory.parts ++ [name])
    (hname : name ≠ "..") {content : Content}
    (h : t.at? (directory.join name) = some (.file content)) :
    t.isDirectory directory = true ∧ name ∈ t.names directory := by
  rw [at?, locate, hjoin] at h
  cases hwalk : t.walk [] (directory.parts ++ [name]) with
  | error problem => simp [hwalk] at h
  | ok goal =>
    simp only [hwalk] at h
    obtain ⟨last, hlast, hdir, rfl⟩ := walk_snoc hname hwalk
    refine ⟨isDirectory_iff.mpr ⟨last, hlast, hdir⟩, ?_⟩
    rw [get?, if_neg (by simp)] at h
    obtain ⟨e, he, -⟩ := Option.map_eq_some_iff.mp h
    have hplace : e.1 = last ++ [name] := by simpa using List.find?_some he
    rw [names, locate, hlast]
    exact List.mem_filterMap.mpr ⟨e, List.mem_of_find?_eq_some he, by simp [hplace]⟩

/-- A label that a script opens at the margin is found in its directory. -/
lemma mem_labels (hjoin : (directory.join name).parts = directory.parts ++ [name])
    (hname : name ≠ "..") (hending : Text.endsWith name ".rpy" = true)
    (h : t.at? (directory.join name) = some (.file (.text text))) (hlabel : Defines text label)
    (htrimmed : Text.Trimmed label) (hne : label ≠ "") (hcolon : ':' ∉ label.toList)
    (hnewline : '\n' ∉ label.toList) (hreturn : '\r' ∉ label.toList) :
    label ∈ t.labels directory := by
  obtain ⟨hdirectory, hlisted⟩ := mem_names hjoin hname h
  obtain ⟨before, after, htext, hbefore⟩ := hlabel
  rw [labels, List.mem_eraseDups, List.mem_flatMap]
  refine ⟨name, ?_, List.mem_filterMap.mpr ⟨labelLine "" label, ?_,
    definedLabel?_labelLine htrimmed hne hcolon⟩⟩
  · rw [namesEnding, hdirectory, if_pos rfl]
    exact List.mem_filter.mpr ⟨hlisted, hending⟩
  · rw [readLines, h]
    rw [labelLine_eq] at htext ⊢
    rw [htext]
    exact Text.mem_keepLines hbefore (by simpa using hnewline) (by simpa using hreturn)

end Tree

namespace Project

variable {p : Project} {t t' : Tree} {directory file : Path}

lemma writeScript_eq_ok (h : p.writeScript directory t = .ok file t') :
    ∃ script, p.script = .ok script ∧
      t'.at? ((Export.gameDirectory directory).join "script.rpy") =
        some (.file (.text script)) := by
  rw [writeScript, Disk.bind_eq_ok] at h
  obtain ⟨_, made, -, h⟩ := h
  obtain ⟨script, asked, hask, h⟩ := Disk.bind_eq_ok.mp h
  obtain ⟨hscript, rfl⟩ := Disk.ask_eq_ok.mp hask
  obtain ⟨_, written, hwrite, h⟩ := Disk.bind_eq_ok.mp h
  obtain ⟨-, -, hat, -⟩ := Tree.writeText_eq_ok (Disk.change_eq_ok.mp hwrite)
  cases h
  exact ⟨script, hscript, hat⟩

/-- The labels of a story are found again in the game that its script was written to. -/
theorem writeScript_labels (hp : ∀ s ∈ p.scenes, s.DistinctIds)
    (hplain : ∀ b ∈ p.blocks, ∀ label, labelOf? b = .ok (some label) →
      ':' ∉ label.toList ∧ '\n' ∉ label.toList ∧ '\r' ∉ label.toList)
    (h : p.writeScript directory t = .ok file t') :
    "start" ∈ t'.labels (Export.gameDirectory directory) ∧
      ∀ b ∈ p.blocks, ∀ label, labelOf? b = .ok (some label) →
        label ∈ t'.labels (Export.gameDirectory directory) := by
  obtain ⟨script, hscript, hfile⟩ := writeScript_eq_ok h
  have hjoin : ((Export.gameDirectory directory).join "script.rpy").parts =
      (Export.gameDirectory directory).parts ++ ["script.rpy"] := rfl
  constructor
  · obtain ⟨head, entry, cast, labels, scenes, -, -, hhead, -, htext⟩ := script_eq_ok hscript
    have hstart : Defines script "start" :=
      ⟨head, entry ++ Text.concat scenes, by rw [htext, String.append_assoc]; rfl, hhead⟩
    have htrimmed : Text.Trimmed "start" := by
      have h := Text.trimmed_strip "start"
      rwa [show Text.strip "start" = "start" by decide] at h
    exact Tree.mem_labels hjoin (by decide) (by decide) hfile hstart htrimmed (by decide)
      (by decide) (by decide) (by decide)
  · intro b hb label hl
    obtain ⟨hcolon, hnewline, hreturn⟩ := hplain b hb label hl
    obtain ⟨htrimmed, hne⟩ := trimmed_of_labelOf? hl
    exact Tree.mem_labels hjoin (by decide) (by decide) hfile (script_defines hp hscript hb hl)
      htrimmed hne hcolon hnewline hreturn

/-- A story with a label that begins like a comment, behind code whose lines end in another way. -/
def signedStory : Project where
  name := .text "story"
  scenes :=
    [{ id := .text "s", name := .text "Scene", label := .text "scene",
       blocks :=
        [{ id := .text "a", kind := .start, params := .object [("label", .text " intro ")],
           x := .int 0, y := .int 0 },
         { id := .text "b", kind := .code, params := .object [("code", .text "a = 1\rlabel no:")],
           x := .int 0, y := .int 3 },
         { id := .text "c", kind := .label, params := .object [("label", .text "#end")],
           x := .int 0, y := .int 6 }] }]

theorem signedStory_labels :
    (∀ s ∈ signedStory.scenes, s.DistinctIds) ∧ signedStory.labels = .ok ["intro", "#end"] ∧
      ∃ file t', signedStory.writeScript (.ofText "/disk") ⟨[(["disk"], .directory)]⟩ =
          .ok file t' ∧
        ∀ label ∈ ["start", "intro", "#end"],
          label ∈ t'.labels (Export.gameDirectory (.ofText "/disk")) := by
  have hp : ∀ s ∈ signedStory.scenes, s.DistinctIds := by decide
  have hlabels : signedStory.labels = .ok ["intro", "#end"] := rfl
  obtain ⟨file, t', hrun⟩ : ∃ file t', signedStory.writeScript (.ofText "/disk")
      ⟨[(["disk"], .directory)]⟩ = .ok file t' := ⟨_, _, rfl⟩
  obtain ⟨hstart, hfound⟩ := writeScript_labels hp (fun b hb label hl => by
    have hmem := (mem_labels hlabels).mpr ⟨b, hb, hl⟩
    simp only [List.mem_cons, List.not_mem_nil, or_false] at hmem
    rcases hmem with rfl | rfl
    · decide
    · decide) hrun
  refine ⟨hp, hlabels, file, t', hrun, List.forall_mem_cons.mpr ⟨hstart, fun label hl => ?_⟩⟩
  obtain ⟨b, hb, hlabel⟩ := (mem_labels hlabels).mp hl
  exact hfound b hb label hlabel

end Project
end NovelGraph
