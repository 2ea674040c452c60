import NovelGraph.Proofs.JsonRoundTrip

/-! Texts that are nested too deep. Under a limit the reader does what it does without one, up to
the first bracket that goes beyond it; a text with no more brackets than the limit is read in the
same way, and one that begins with more is given up. -/
namespace NovelGraph.Json

open Outcome

/-- How many brackets in a text open a list or an object, or would if they stood elsewhere. -/
def openings (cs : List Char) : ℕ := cs.countP fun c => c == '[' || c == '\x7b'

variable {α β : Type} {limit : Option ℕ} {depth fuel start : ℕ} {c d : Cursor}

/-- What the reader makes of a text inside `depth` lists and objects, under a limit and without one:
the same, behind which the text goes on, or the same fault; unless there is a bracket too many. -/
inductive Follows (limit : Option ℕ) (depth : ℕ) (c : Cursor) :
    Except ReadError (α × Cursor) → Except ReadError (α × Cursor) → Prop
  | done {a : α} {next : Cursor} (behind : next.rest <:+ c.rest) :
    Follows limit depth c (.ok (a, next)) (.ok (a, next))
  | failed {e : ReadError} (other : e.isTooDeep = false) :
    Follows limit depth c (.error e) (.error e)
  | deep {what : Container} {most : ℕ} {without : Except ReadError (α × Cursor)}
    (bound : limit = some most) (beyond : most < depth + openings c.rest) :
    Follows limit depth c (.error (.tooDeep what)) without

namespace Follows

variable {r r' : Except ReadError (α × Cursor)} {k k' : α × Cursor → Except ReadError (β × Cursor)}

lemma of_suffix (hd : d.rest <:+ c.rest) (h : Follows limit depth d r r') :
    Follows limit depth c r r' := by
  cases h with
  | done behind => exact .done (behind.trans hd)
  | failed other => exact .failed other
  | deep bound beyond =>
    have hle : openings d.rest ≤ openings c.rest := hd.sublist.countP_le
    exact .deep bound (by omega)

/-- A bracket is behind the cursor when the reader is inside it. -/
lemma of_inside (hd : openings d.rest < openings c.rest) (hsuffix : d.rest <:+ c.rest)
    (h : Follows limit (depth + 1) d r r') : Follows limit depth c r r' := by
  cases h with
  | done behind => exact .done (behind.trans hsuffix)
  | failed other => exact .failed other
  | deep bound beyond => exact .deep bound (by omega)

lemma bind (h : Follows limit depth c r r')
    (hk : ∀ a next, next.rest <:+ c.rest → Follows limit depth c (k (a, next)) (k' (a, next))) :
    Follows limit depth c (r >>= k) (r' >>= k') := by
  cases h with
  | done behind => exact hk _ _ behind
  | failed other => exact .failed other
  | deep bound beyond => exact .deep bound beyond

lemma fail (d : Cursor) (what : Expected) :
    Follows limit depth c (d.fail what : Except ReadError (α × Cursor)) (d.fail what) :=
  .failed rfl

end Follows

section Parts

lemma Cursor.advance_suffix (c : Cursor) (n : ℕ) : (c.advance n).rest <:+ c.rest :=
  List.drop_suffix n c.rest

lemma Cursor.skipSpace_suffix (c : Cursor) : c.skipSpace.rest <:+ c.rest :=
  c.advance_suffix _

lemma follows_readHexEscape (c : Cursor) :
    Follows limit depth c (readHexEscape c) (readHexEscape c) := by
  have hdigits := c.advance_suffix 1
  have hafter := ((c.advance 1).advance_suffix 4).trans hdigits
  unfold readHexEscape
  dsimp only
  split_ifs
  · exact .fail _ _
  · split
    · exact .fail _ _
    · split_ifs
      · split
        · exact .fail _ _
        · split_ifs
          · exact .done ((Cursor.advance_suffix _ 6).trans hafter)
          · exact .done hafter
      · exact .done hafter

lemma follows_readString (start fuel : ℕ) (c : Cursor) (done : List Char) :
    Follows limit depth c (readString start fuel c done) (readString start fuel c done) := by
  induction fuel generalizing c done with
  | zero => exact .failed rfl
  | succ fuel ih =>
    rw [readString]
    split
    · exact .failed rfl
    · exact .done (c.advance_suffix 1)
    · split
      · exact .failed rfl
      · refine ((follows_readHexEscape (c.advance 1)).of_suffix (c.advance_suffix 1)).bind ?_
        exact fun ch next hnext => (ih next _).of_suffix hnext
      · split
        · exact (ih _ _).of_suffix (c.advance_suffix 2)
        · exact .fail _ _
    · split_ifs
      · exact .fail _ _
      · exact (ih _ _).of_suffix (c.advance_suffix 1)

lemma follows_readNumber (c : Cursor) : Follows limit depth c (readNumber c) (readNumber c) := by
  fun_cases readNumber c with
  | case1 => exact .fail _ _
  | case2 => exact .failed rfl
  | case3 => exact .done (c.advance_suffix _)
  | case4 => exact .done (c.advance_suffix _)

/-- A bracket is read if the limit admits it, and what is inside it in the same way. -/
lemma Follows.opened {b : Char} {tail : List Char} {what : Container} {close : String} {empty : α}
    {whole : β → α} {r r' : Except ReadError (β × Cursor)} (hb : b = '[' ∨ b = '\x7b')
    (hopen : c.rest = b :: tail) (h : Follows limit (depth + 1) (c.advance 1).skipSpace r r') :
    Follows limit depth c
      (if isFull limit depth then .error (.tooDeep what)
        else if (c.advance 1).skipSpace.startsWith close then
          .ok (empty, (c.advance 1).skipSpace.advance 1)
        else r >>= fun x => pure (whole x.1, x.2))
      (if isFull none depth then .error (.tooDeep what)
        else if (c.advance 1).skipSpace.startsWith close then
          .ok (empty, (c.advance 1).skipSpace.advance 1)
        else r' >>= fun x => pure (whole x.1, x.2)) := by
  have hinside := (c.advance 1).skipSpace_suffix.trans (c.advance_suffix 1)
  have hcount : openings c.rest = openings tail + 1 := by
    rw [hopen, openings, List.countP_cons_of_pos (by simpa using hb)]
    rfl
  have hless : openings (c.advance 1).skipSpace.rest < openings c.rest := by
    have htail : (c.advance 1).rest = tail := by
      rw [Cursor.advance, hopen]
      rfl
    have hle : openings (c.advance 1).skipSpace.rest ≤ openings tail :=
      htail ▸ (Cursor.skipSpace_suffix _).sublist.countP_le
    omega
  have hnone : isFull none depth = false := rfl
  rw [hnone, if_neg Bool.false_ne_true]
  cases hfull : isFull limit depth with
  | true =>
    obtain ⟨most, hmost, hle⟩ := (Option.any_eq_true _ _).mp hfull
    have hle : most ≤ depth := of_decide_eq_true hle
    exact .deep hmost (by omega)
  | false =>
    rw [if_neg Bool.false_ne_true]
    split
    · exact .done ((Cursor.advance_suffix _ 1).trans hinside)
    · exact (h.of_inside hless hinside).bind fun x next hnext => .done hnext

end Parts

section Values

/-- Reading with so much fuel, in both ways. -/
structure Alike (limit : Option ℕ) (fuel : ℕ) : Prop where
  value : ∀ depth c, Follows limit depth c (readValue limit fuel depth c)
    (readValue none fuel depth c)
  items : ∀ depth c, Follows limit depth c (readItems limit fuel depth c)
    (readItems none fuel depth c)
  members : ∀ depth c done, Follows limit depth c (readMembers limit fuel depth c done)
    (readMembers none fuel depth c done)

lemma alike_zero (limit : Option ℕ) : Alike limit 0 :=
  ⟨fun _ _ => .failed rfl, fun _ _ => .failed rfl, fun _ _ _ => .failed rfl⟩

namespace Alike

variable (h : Alike limit fuel)

include h

lemma value_succ (depth : ℕ) (c : Cursor) :
    Follows limit depth c (readValue limit (fuel + 1) depth c)
      (readValue none (fuel + 1) depth c) := by
  rw [readValue, readValue]
  split
  · refine ((follows_readString _ _ _ _).of_suffix (c.advance_suffix 1)).bind ?_
    exact fun s next hnext => .done hnext
  · rename_i tail hopen
    exact .opened (.inl rfl) hopen (h.items (depth + 1) _)
  · rename_i tail hopen
    exact .opened (.inr rfl) hopen (h.members (depth + 1) _ [])
  · split
    · exact .done (c.advance_suffix _)
    · exact follows_readNumber c

lemma items_succ (depth : ℕ) (c : Cursor) :
    Follows limit depth c (readItems limit (fuel + 1) depth c)
      (readItems none (fuel + 1) depth c) := by
  rw [readItems, readItems]
  refine (h.value depth c).bind fun v next hnext => ?_
  have hspace := next.skipSpace_suffix.trans hnext
  dsimp only
  split
  · exact .done ((Cursor.advance_suffix _ 1).trans hspace)
  · have hmore := (Cursor.skipSpace_suffix _).trans ((Cursor.advance_suffix _ 1).trans hspace)
    refine ((h.items depth _).of_suffix hmore).bind fun vs last hlast => ?_
    exact .done hlast
  · exact .fail _ _

lemma members_succ (depth : ℕ) (c : Cursor) (done : List (String × Value)) :
    Follows limit depth c (readMembers limit (fuel + 1) depth c done)
      (readMembers none (fuel + 1) depth c done) := by
  rw [readMembers, readMembers]
  split
  · refine ((follows_readString _ _ _ _).of_suffix (c.advance_suffix 1)).bind
      fun key next hnext => ?_
    have hcolon := next.skipSpace_suffix.trans hnext
    dsimp only
    split
    · have hvalue := (Cursor.skipSpace_suffix _).trans ((Cursor.advance_suffix _ 1).trans hcolon)
      refine ((h.value depth _).of_suffix hvalue).bind fun v next hnext => ?_
      have hspace := next.skipSpace_suffix.trans hnext
      dsimp only
      split
      · exact .done ((Cursor.advance_suffix _ 1).trans hspace)
      · have hmore := (Cursor.skipSpace_suffix _).trans ((Cursor.advance_suffix _ 1).trans hspace)
        exact (h.members depth _ _).of_suffix hmore
      · exact .fail _ _
    · exact .fail _ _
  · exact .fail _ _

end Alike

/-- By the number of nested and repeated parts. -/
theorem alike (limit : Option ℕ) (fuel : ℕ) : Alike limit fuel := by
  induction fuel with
  | zero => exact alike_zero limit
  | succ fuel ih => exact ⟨ih.value_succ, ih.items_succ, ih.members_succ⟩

/-- Under a limit a text denotes what it denotes without one, unless there are more brackets in it
than the limit and it is given up. Without one no text is given up. -/
theorem readWithin_cases (limit : Option ℕ) (s : String) :
    (readWithin limit s = read s ∧ ∀ e, read s = .error e → e.isTooDeep = false) ∨
      ∃ what most, readWithin limit s = .error (.tooDeep what) ∧ limit = some most ∧
        most < openings s.toList := by
  unfold read readWithin
  dsimp only
  split
  · exact .inl ⟨rfl, by rintro _ ⟨⟩; rfl⟩
  · have hfirst := (alike limit (2 * s.toList.length + 1)).value 0 (Cursor.skipSpace ⟨0, s.toList⟩)
    generalize readValue limit (2 * s.toList.length + 1) 0 (Cursor.skipSpace ⟨0, s.toList⟩) = r
      at hfirst ⊢
    generalize readValue none (2 * s.toList.length + 1) 0 (Cursor.skipSpace ⟨0, s.toList⟩) = r'
      at hfirst ⊢
    cases hfirst with
    | @done v next behind =>
      refine .inl ⟨rfl, fun e he => ?_⟩
      rw [ok_bind] at he
      dsimp only at he
      split at he
      · cases he
      · obtain rfl := Except.error.inj he
        rfl
    | @failed e other =>
      refine .inl ⟨rfl, ?_⟩
      rintro _ ⟨⟩
      exact other
    | @deep what most _ bound beyond =>
      have hle : openings (Cursor.skipSpace ⟨0, s.toList⟩).rest ≤ openings s.toList :=
        (Cursor.skipSpace_suffix _).sublist.countP_le
      exact .inr ⟨what, most, rfl, bound, by omega⟩

lemma readValue_brackets {most : ℕ} (more : ℕ) (rest : List Char) :
    ∀ fuel depth p, depth + more = most → 2 * more < fuel →
      readValue (some most) fuel depth ⟨p, List.replicate (more + 1) '[' ++ rest⟩ =
        .error (.tooDeep .list) := by
  induction more with
  | zero =>
    intro fuel depth p hdepth hfuel
    obtain ⟨fuel, rfl⟩ := Nat.exists_eq_succ_of_ne_zero (show fuel ≠ 0 by omega)
    have hfull : isFull (some most) depth = true := by simp [isFull, ← hdepth]
    rw [readValue]
    exact if_pos hfull
  | succ more ih =>
    intro fuel depth p hdepth hfuel
    obtain ⟨fuel, rfl⟩ : ∃ n, fuel = n + 2 := ⟨fuel - 2, by omega⟩
    have hopen : isFull (some most) depth = false := by simp [isFull, ← hdepth]
    have hinside : (Cursor.advance ⟨p, List.replicate (more + 1 + 1) '[' ++ rest⟩ 1).skipSpace =
        ⟨p + 1, List.replicate (more + 1) '[' ++ rest⟩ := skipSpace_cons rfl
    have hitems : readItems (some most) (fuel + 1) (depth + 1)
        ⟨p + 1, List.replicate (more + 1) '[' ++ rest⟩ = .error (.tooDeep .list) := by
      rw [readItems, ih fuel (depth + 1) (p + 1) (by omega) (by omega)]
      rfl
    rw [readValue]
    simp only [hinside, hitems, hopen]
    rfl

/-- A text that opens more lists than the limit is given up, whatever follows. -/
theorem readWithin_brackets (most : ℕ) (rest : List Char) :
    readWithin (some most) (String.ofList (List.replicate (most + 1) '[' ++ rest)) =
      .error (.tooDeep .list) := by
  have hskip : Cursor.skipSpace ⟨0, List.replicate (most + 1) '[' ++ rest⟩ =
      ⟨0, List.replicate (most + 1) '[' ++ rest⟩ := skipSpace_cons rfl
  have hdeep := readValue_brackets most rest
    (2 * (List.replicate (most + 1) '[' ++ rest).length + 1) 0 0 (Nat.zero_add _) (by simp; omega)
  rw [readWithin, String.toList_ofList]
  dsimp only
  split
  · rename_i h
    cases h
  · rw [hskip, hdeep]
    rfl

end Values

end NovelGraph.Json
