import NovelGraph.Disk
import NovelGraph.Proofs.Outcome

/-! Places in a file tree. What is put at a place or erased from it leaves all other places as they
are, and a walk needs nothing but the directories on its way. -/
namespace NovelGraph

open Outcome

section Newlines

lemma unifyNewlines_cons {c : Char} (h : c ≠ '\r') (cs : List Char) :
    unifyNewlines (c :: cs) = c :: unifyNewlines cs := by
  rw [unifyNewlines]
  · simp [h]
  · simp [h]

lemma unifyNewlines_append {xs : List Char} (h : '\r' ∉ xs) (ys : List Char) :
    unifyNewlines (xs ++ ys) = xs ++ unifyNewlines ys := by
  induction xs with
  | nil => rfl
  | cons c rest ih =>
    rw [List.mem_cons, not_or] at h
    rw [List.cons_append, unifyNewlines_cons (Ne.symm h.1), ih h.2, List.cons_append]

lemma unifyNewlines_eq_self {xs : List Char} (h : '\r' ∉ xs) : unifyNewlines xs = xs := by
  simpa [unifyNewlines] using unifyNewlines_append h []

/-- A newline stays one, whatever stands before it. -/
lemma exists_unifyNewlines (xs ys : List Char) :
    ∃ zs, unifyNewlines (xs ++ '\n' :: ys) = zs ++ '\n' :: unifyNewlines ys := by
  induction xs using unifyNewlines.induct with
  | case1 rest ih =>
    obtain ⟨zs, hzs⟩ := ih
    exact ⟨'\n' :: zs, by simp [unifyNewlines, hzs]⟩
  | case2 rest hrest ih =>
    cases rest with
    | nil => exact ⟨[], by simp [unifyNewlines]⟩
    | cons c rest =>
      obtain ⟨zs, hzs⟩ := ih
      refine ⟨'\n' :: zs, ?_⟩
      rw [List.cons_append, unifyNewlines, hzs]
      · rfl
      · intro tail htail
        rw [List.cons_append, List.cons.injEq] at htail
        exact hrest rest (by rw [htail.1])
  | case3 c rest h1 h2 ih =>
    obtain ⟨zs, hzs⟩ := ih
    exact ⟨c :: zs, by rw [List.cons_append, unifyNewlines_cons h2, hzs, List.cons_append]⟩
  | case4 => exact ⟨[], by simp [unifyNewlines]⟩

end Newlines

namespace Tree

variable {t t' : Tree} {place other goal parts : List String} {e : Entry} {p q : Path}
  {s name : String}

section Places

lemma get?_erase_self (hplace : place ≠ []) : (t.erase place).get? place = none := by
  rw [get?, if_neg (by simpa using hplace)]
  simp [erase]

lemma get?_erase_of_ne (h : other ≠ place) : (t.erase place).get? other = t.get? other := by
  have hkept : (t.erase place).entries.find? (·.1 == other) = t.entries.find? (·.1 == other) := by
    rw [erase, List.find?_filter]
    congr 1
    funext x
    by_cases hx : x.1 = other <;> simp [hx, h]
  rw [get?, get?, hkept]

/-- Nothing changes if nothing is there to be erased. -/
lemma erase_eq_self (h : t.get? place = none) : t.erase place = t := by
  have hplace : place ≠ [] := by
    rintro rfl
    cases h
  rw [get?, if_neg (by simpa using hplace), Option.map_eq_none_iff, List.find?_eq_none] at h
  rw [erase, List.filter_eq_self.mpr]
  simpa using h

lemma get?_put_self (hplace : place ≠ []) : (t.put place e).get? place = some e := by
  have hnone : (t.erase place).entries.find? (·.1 == place) = none := by
    simp [erase, List.find?_eq_none]
  rw [get?, if_neg (by simpa using hplace), put, List.find?_append, hnone]
  simp

lemma get?_put_of_ne (h : other ≠ place) : (t.put place e).get? other = t.get? other := by
  have hlast : [(place, e)].find? (·.1 == other) = none := by simp [h.symm]
  calc (t.put place e).get? other
    _ = (t.erase place).get? other := by
      rw [get?, get?, put, List.find?_append, hlast, Option.or_none]
    _ = t.get? other := get?_erase_of_ne h

end Places

section Walks

/-- A walk goes as before if all directories are still there. -/
lemma walk_mono (hkept : ∀ place, t.get? place = some .directory → t'.get? place = some .directory)
    (h : t.walk other parts = .ok goal) : t'.walk other parts = .ok goal := by
  induction parts generalizing other with
  | nil => exact h
  | cons part rest ih =>
    rw [walk] at h ⊢
    cases hget : t.get? other with
    | none => simp [hget] at h
    | some entry =>
      cases entry with
      | file content => simp [hget] at h
      | directory =>
        rw [hget] at h
        rw [hkept other hget]
        exact ih h

lemma ne_nil_of_free (hfree : t.get? place ≠ some .directory) : place ≠ [] := by
  rintro rfl
  exact hfree rfl

/-- A file that is written where no directory was leaves the directories as they are. -/
lemma directory_put (hfree : t.get? place ≠ some .directory) (content : Content)
    (other : List String) :
    (t.put place (.file content)).get? other = some .directory ↔
      t.get? other = some .directory := by
  by_cases h : other = place
  · rw [h, get?_put_self (ne_nil_of_free hfree)]
    simpa using hfree
  · rw [get?_put_of_ne h]

lemma directory_erase (hfree : t.get? place ≠ some .directory) (other : List String) :
    (t.erase place).get? other = some .directory ↔ t.get? other = some .directory := by
  by_cases h : other = place
  · rw [h, get?_erase_self (ne_nil_of_free hfree)]
    simpa using hfree
  · rw [get?_erase_of_ne h]

/-- The last step of a walk starts in a directory. -/
lemma walk_snoc (hname : name ≠ "..") (h : t.walk place (parts ++ [name]) = .ok goal) :
    ∃ last, t.walk place parts = .ok last ∧ t.get? last = some .directory ∧
      goal = last ++ [name] := by
  induction parts generalizing place with
  | nil =>
    rw [List.nil_append, walk] at h
    cases hget : t.get? place with
    | none => simp [hget] at h
    | some entry =>
      cases entry with
      | file content => simp [hget] at h
      | directory =>
        simp only [hget, hname, if_false, walk, Except.ok.injEq] at h
        exact ⟨place, rfl, hget, h.symm⟩
  | cons part rest ih =>
    rw [List.cons_append, walk] at h
    rw [walk]
    cases hget : t.get? place with
    | none => simp [hget] at h
    | some entry =>
      cases entry with
      | file content => simp [hget] at h
      | directory =>
        simp only [hget] at h
        exact ih h

/-- From a directory a walk may go one step on. -/
lemma walk_append_name (hname : name ≠ "..") (h : t.walk place parts = .ok goal)
    (hgoal : t.get? goal = some .directory) :
    t.walk place (parts ++ [name]) = .ok (goal ++ [name]) := by
  induction parts generalizing place with
  | nil =>
    cases h
    simp only [List.nil_append, walk, hgoal, hname, if_false]
  | cons part rest ih =>
    rw [walk] at h
    rw [List.cons_append, walk]
    cases hget : t.get? place with
    | none => simp [hget] at h
    | some entry =>
      cases entry with
      | file content => simp [hget] at h
      | directory =>
        rw [hget] at h
        exact ih h

/-- Nothing has to be made on the way to a directory. -/
lemma makeAlong_eq (h : t.walk other parts = .ok goal) (hgoal : t.get? goal = some .directory) :
    t.makeAlong other parts = .ok t := by
  induction parts generalizing other with
  | nil =>
    obtain rfl := Except.ok.inj h
    rw [makeAlong, hgoal]
  | cons part rest ih =>
    rw [walk] at h
    rw [makeAlong]
    cases hget : t.get? other with
    | none => simp [hget] at h
    | some entry =>
      cases entry with
      | file content => simp [hget] at h
      | directory =>
        rw [hget] at h
        -- The next place is a directory: the walk goes on from it, or ends there.
        have hnext : t.get? (if part = ".." then other.dropLast else other ++ [part]) ≠ none := by
          intro hnone
          cases rest with
          | nil =>
            obtain rfl := Except.ok.inj h
            rw [hnone] at hgoal
            cases hgoal
          | cons part' rest =>
            simp only [walk, hnone] at h
            cases h
        simp only [Option.isNone_iff_eq_none, hnext, if_false]
        exact ih h

/-- A directory that is made where nothing was takes the place of nothing else. -/
lemma get?_ensured (t : Tree) (next : List String) :
    (if (t.get? next).isNone then t.put next .directory else t).get? next ≠ none ∧
      ∀ place entry, t.get? place = some entry →
        (if (t.get? next).isNone then t.put next .directory else t).get? place =
          some entry := by
  split
  · rename_i hnone
    rw [Option.isNone_iff_eq_none] at hnone
    have hne : next ≠ [] := by
      rintro rfl
      cases hnone
    refine ⟨by simp [get?_put_self hne], fun place entry hentry => ?_⟩
    rwa [get?_put_of_ne]
    rintro rfl
    rw [hnone] at hentry
    cases hentry
  · rename_i hsome
    exact ⟨by simpa using hsome, fun _ _ hentry => hentry⟩

/-- The directories that are made lead to a directory, and what was there stays. -/
lemma makeAlong_eq_ok (hother : t.get? other ≠ none) (h : t.makeAlong other parts = .ok t') :
    (∀ place entry, t.get? place = some entry → t'.get? place = some entry) ∧
      ∃ goal, t'.walk other parts = .ok goal ∧ t'.get? goal = some .directory := by
  induction parts generalizing t other with
  | nil =>
    rw [makeAlong] at h
    rcases hget : t.get? other with _ | _ | content
    · exact absurd hget hother
    · simp only [hget, Except.ok.injEq] at h
      subst h
      exact ⟨fun _ _ hkept => hkept, other, rfl, hget⟩
    · simp [hget] at h
  | cons part rest ih =>
    rw [makeAlong] at h
    rcases hget : t.get? other with _ | _ | content
    · exact absurd hget hother
    · simp only [hget] at h
      obtain ⟨hthere, hkept⟩ :=
        t.get?_ensured (if part = ".." then other.dropLast else other ++ [part])
      obtain ⟨hlater, goal, hwalk, hgoal⟩ := ih hthere h
      refine ⟨fun place entry hentry => hlater place entry (hkept place entry hentry), goal, ?_,
        hgoal⟩
      rw [walk, hlater other .directory (hkept other .directory hget)]
      exact hwalk
    · simp [hget] at h

end Walks

lemma isDirectory_iff :
    t.isDirectory p = true ↔ ∃ place, t.locate p = .ok place ∧ t.get? place = some .directory := by
  unfold isDirectory at?
  cases t.locate p with
  | error problem => simp
  | ok place =>
    rcases hget : t.get? place with _ | _ | _ <;> simp [hget]

lemma makeDirectory_eq (h : t.isDirectory p = true) : t.makeDirectory p = .ok t := by
  obtain ⟨place, hplace, hget⟩ := isDirectory_iff.mp h
  rw [makeDirectory, makeAlong_eq hplace hget]

/-- A directory that is made is there, and so is all that was there before. -/
lemma makeDirectory_eq_ok (h : t.makeDirectory p = .ok t') :
    t'.isDirectory p = true ∧
      ∀ place entry, t.get? place = some entry → t'.get? place = some entry := by
  unfold makeDirectory at h
  split at h
  · rename_i made hmade
    cases h
    obtain ⟨hkept, goal, hwalk, hgoal⟩ := makeAlong_eq_ok (by simp [get?]) hmade
    exact ⟨isDirectory_iff.mpr ⟨goal, hwalk, hgoal⟩, hkept⟩
  · cases h

lemma located_eq_ok : t.located p = .ok place ↔ t.locate p = .ok place := by
  unfold located
  cases t.locate p <;> simp

lemma at?_eq (h : t.locate p = .ok place) : t.at? p = t.get? place := by
  rw [at?, h]

/-- A file is written at its place, in a directory that is there. -/
lemma writeText_of_locate (h : t.locate p = .ok place) (hfree : t.get? place ≠ some .directory)
    (hhome : t.get? place.dropLast = some .directory) (s : String) :
    t.writeText p s = .ok (t.put place (.file (.text s))) := by
  rw [writeText, located_eq_ok.mpr h, ok_bind]
  rcases hget : t.get? place with _ | _ | content
  · simp only [hhome]
    rfl
  · exact absurd hget hfree
  · rfl

lemma writeText_of_isDirectory (h : t.isDirectory p = true) (s : String) :
    t.writeText p s = .error (.file .isDirectory p.text) := by
  obtain ⟨place, hplace, hget⟩ := isDirectory_iff.mp h
  rw [writeText, located_eq_ok.mpr hplace, ok_bind, hget]

/-- A file that may be there is not there after its removal. -/
lemma unlink_of_locate (h : t.locate p = .ok place) (hfree : t.get? place ≠ some .directory) :
    (if t.exists? p then t.unlink p else .ok t) = .ok (t.erase place) := by
  rw [exists?, at?_eq h, unlink, located_eq_ok.mpr h, ok_bind]
  rcases hget : t.get? place with _ | _ | content
  · rw [if_neg (by simp), erase_eq_self hget]
  · exact absurd hget hfree
  · rfl

lemma rename_of_locate (hp : t.locate p = .ok place) (hq : t.locate q = .ok goal)
    (he : t.get? place = some e) (hfree : t.get? goal ≠ some .directory) :
    t.rename p q = .ok ((t.erase place).put goal e) := by
  rw [rename, located_eq_ok.mpr hp, ok_bind, located_eq_ok.mpr hq, ok_bind, he]
  rcases hget : t.get? goal with _ | _ | content
  · rfl
  · exact absurd hget hfree
  · rfl

/-- What can be read is a file. -/
lemma isFile_of_readText (h : t.readText p = .ok s) : t.isFile p = true := by
  rw [readText, bind_eq_ok] at h
  obtain ⟨place, hplace, h⟩ := h
  rw [isFile, at?_eq (located_eq_ok.mp hplace)]
  rcases hget : t.get? place with _ | _ | content
  · simp [hget] at h
  · simp [hget] at h
  · rfl

lemma exists?_of_isFile (h : t.isFile p = true) : t.exists? p = true := by
  rw [isFile] at h
  rw [exists?]
  cases hget : t.at? p with
  | none => simp [hget] at h
  | some entry => rfl

lemma readText_of_at? (h : t.at? p = some (.file (.text s))) :
    t.readText p = .ok (String.ofList (unifyNewlines s.toList)) := by
  cases hplace : t.locate p with
  | error problem => simp [at?, hplace] at h
  | ok place =>
    rw [at?_eq hplace] at h
    rw [readText, located_eq_ok.mpr hplace, ok_bind, h]
    rfl

/-- What is written stands in its file, and everything else is as before. -/
lemma writeText_eq_ok (h : t.writeText p s = .ok t') :
    ∃ place, t.locate p = .ok place ∧ t'.at? p = some (.file (.text s)) ∧
      ∀ other, other ≠ place → t'.get? other = t.get? other := by
  rw [writeText, bind_eq_ok] at h
  obtain ⟨place, hplace, h⟩ := h
  have hlocate := located_eq_ok.mp hplace
  have hwritten : t.get? place ≠ some .directory ∧ t' = t.put place (.file (.text s)) := by
    rcases hget : t.get? place with _ | _ | content
    · simp only [hget] at h
      split at h
      · exact ⟨by simp, (pure_eq_ok.mp h).symm⟩
      · cases h
      · cases h
    · simp only [hget] at h
      cases h
    · simp only [hget] at h
      exact ⟨by simp, (pure_eq_ok.mp h).symm⟩
  obtain ⟨hfree, rfl⟩ := hwritten
  refine ⟨place, hlocate, ?_, fun other h => get?_put_of_ne h⟩
  rw [at?, locate, walk_mono (fun other => (directory_put hfree _ other).mpr) hlocate]
  exact get?_put_self (ne_nil_of_free hfree)

end Tree
end NovelGraph
