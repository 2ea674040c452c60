import Mathlib.Data.Int.Notation
import NovelGraph.Json.Reader
import NovelGraph.Json.Writer
import NovelGraph.Proofs.Outcome

/-! Values read back from the text that is written for them. The reader meets each part of a value
where the writer has put it; what follows a part is a comma, the end of a line or nothing, so that a
number ends where it was written. Under a limit this takes a value that is not nested deeper. -/
namespace NovelGraph.Json

open Outcome

section Plain

mutual

/-- Values that are read as they are written: integers with no more digits than are read, no other
numbers, and objects that name each member once. -/
def isPlain : Value → Bool
  | .int n => decide ((Nat.toDigits 10 n.natAbs).length ≤ maxDigits)
  | .float _ => false
  | .list items => plainItems items
  | .object members => decide (members.map (·.1)).Nodup && plainMembers members
  | _ => true

def plainItems : List Value → Bool
  | [] => true
  | v :: rest => isPlain v && plainItems rest

def plainMembers : List (String × Value) → Bool
  | [] => true
  | (_, v) :: rest => isPlain v && plainMembers rest

end

end Plain

section Depth

mutual

/-- How deep lists and objects are nested in a value. -/
def nesting : Value → ℕ
  | .list items => nestingItems items + 1
  | .object members => nestingMembers members + 1
  | _ => 0

def nestingItems : List Value → ℕ
  | [] => 0
  | v :: rest => max (nesting v) (nestingItems rest)

def nestingMembers : List (String × Value) → ℕ
  | [] => 0
  | (_, v) :: rest => max (nesting v) (nestingMembers rest)

end

/-- Inside `depth` lists and objects there may be so many more. -/
def HasRoom (limit : Option ℕ) (depth more : ℕ) : Prop := ∀ most ∈ limit, depth + more ≤ most

namespace HasRoom

variable {limit : Option ℕ} {depth m n : ℕ}

lemma mono (h : HasRoom limit depth n) (hle : m ≤ n) : HasRoom limit depth m := by
  intro most hmost
  have hroom := h most hmost
  omega

lemma isFull (h : HasRoom limit depth (n + 1)) : Json.isFull limit depth = false := by
  rw [Json.isFull, Option.any_eq_false]
  intro most hmost
  have hroom := h most hmost
  exact decide_eq_false (by omega)

lemma inside (h : HasRoom limit depth (n + 1)) : HasRoom limit (depth + 1) n := by
  intro most hmost
  have hroom := h most hmost
  omega

end HasRoom

end Depth

section Numbers

variable {p n : ℕ} {c : Char} {rest : List Char}

/-- What may follow a value: a comma, the end of a line, or nothing. -/
def Ends (rest : List Char) : Prop :=
  rest = [] ∨ ∃ tail, rest = ',' :: tail ∨ rest = '\n' :: tail

/-- The sign of a number in its text. -/
def sign (negative : Bool) : List Char := if negative then ['-'] else []

lemma ne_of_isDigit {d x : Char} (hd : d.isDigit = true) (hx : x.isDigit = false) : d ≠ x := by
  rintro rfl
  rw [hd] at hx
  cases hx

lemma digitsValue_toDigits (n : ℕ) : digitsValue (Nat.toDigits 10 n) = n :=
  Nat.ofDigitChars_toDigits (by decide) (by decide)

lemma isDigit_of_mem_toDigits (h : c ∈ Nat.toDigits 10 n) : c.isDigit = true :=
  Nat.isDigit_of_mem_toDigits (by decide) (by decide) h

/-- No number but zero starts with a zero. -/
lemma toDigits_eq_cons (n : ℕ) :
    ∃ c cs, Nat.toDigits 10 n = c :: cs ∧ (c = '0' → cs = []) ∧ c.isDigit = true := by
  induction n using Nat.strongRecOn with
  | _ n ih =>
    by_cases hn : n < 10
    · have hdigit := Nat.toDigits_of_lt_base hn
      refine ⟨_, [], hdigit, fun _ => rfl, isDigit_of_mem_toDigits (n := n) ?_⟩
      simp [hdigit]
    · obtain ⟨c, cs, hcs, hzero, hc⟩ := ih (n / 10) (by omega)
      refine ⟨c, cs ++ [(n % 10).digitChar], ?_, fun h => ?_, hc⟩
      · rw [Nat.toDigits_of_base_le (by decide) (by omega), hcs, List.cons_append]
      · -- then what stands before the last digit is zero
        have hvalue := digitsValue_toDigits (n / 10)
        rw [hcs, hzero h, h] at hvalue
        have : 0 = n / 10 := hvalue
        omega

lemma takeWhile_toDigits (hrest : Ends rest) (n : ℕ) :
    (Nat.toDigits 10 n ++ rest).takeWhile Char.isDigit = Nat.toDigits 10 n := by
  rw [List.takeWhile_append_of_pos fun c hc => isDigit_of_mem_toDigits hc]
  rcases hrest with rfl | ⟨tail, rfl | rfl⟩
  · simp
  · simp
  · simp

lemma exponentPart_of_ends (hrest : Ends rest) : exponentPart rest = none := by
  rcases hrest with rfl | ⟨tail, rfl | rfl⟩ <;> rfl

/-- The digits of a number, with its sign before them. -/
lemma toList_toString (n : ℤ) :
    (toString n).toList = sign (decide (n < 0)) ++ Nat.toDigits 10 n.natAbs := by
  cases n with
  | ofNat m =>
    have hm : toString (Int.ofNat m) = Nat.repr m := rfl
    have hsign : decide (Int.ofNat m < 0) = false := by simp
    rw [hm, hsign]
    simp [Nat.repr, sign]
  | negSucc m =>
    have hm : toString (Int.negSucc m) = "-" ++ Nat.repr (m + 1) := rfl
    have hsign : decide (Int.negSucc m < 0) = true := by simp
    rw [hm, hsign]
    simp [Nat.repr, sign]

lemma wholePart_toDigits (hrest : Ends rest) (n : ℕ) :
    wholePart (Nat.toDigits 10 n ++ rest) = Nat.toDigits 10 n := by
  obtain ⟨d, ds, hds, hzero, -⟩ := toDigits_eq_cons n
  by_cases hd : d = '0'
  · rw [hds, hzero hd, hd]
    rfl
  · rw [hds, List.cons_append, wholePart, ← List.cons_append, ← hds, takeWhile_toDigits hrest]
    exact fun tail h => hd (List.cons.inj h).1

lemma fractionPart_of_ends (hrest : Ends rest) : fractionPart rest = [] := by
  rcases hrest with rfl | ⟨tail, rfl | rfl⟩ <;> rfl

/-- The digits that the reader takes for a number. -/
lemma readNumber_digits (negative : Bool) (hn : (Nat.toDigits 10 n).length ≤ maxDigits)
    (hrest : Ends rest) :
    ∃ q, readNumber ⟨p, sign negative ++ (Nat.toDigits 10 n ++ rest)⟩ =
      .ok (.int (if negative then -n else n), ⟨q, rest⟩) := by
  obtain ⟨d, ds, hds, -, hdigit⟩ := toDigits_eq_cons n
  have hminus : ('-' == d) = false := by simpa using (ne_of_isDigit hdigit rfl).symm
  have hsign : (if (⟨p, sign negative ++ (Nat.toDigits 10 n ++ rest)⟩ : Cursor).startsWith "-"
      then (true, 1) else (false, 0)) = (negative, (sign negative).length) := by
    cases negative <;> simp [sign, Cursor.startsWith, hds, List.isPrefixOf, hminus]
  have hsome : (Nat.toDigits 10 n).isEmpty = false := by
    rw [hds]
    rfl
  rw [readNumber, hsign]
  dsimp only
  rw [List.drop_left, wholePart_toDigits hrest, hsome, List.drop_left, fractionPart_of_ends hrest]
  simp only [List.isEmpty_nil, if_true, List.drop_zero, exponentPart_of_ends hrest]
  rw [if_neg (by simp), if_pos (by rfl), if_neg (by omega), digitsValue_toDigits,
    ← List.append_assoc, ← List.length_append]
  exact ⟨_, by rw [Cursor.advance, List.drop_left]⟩

lemma readNumber_write {n : ℤ} (hn : (Nat.toDigits 10 n.natAbs).length ≤ maxDigits)
    (hrest : Ends rest) :
    ∃ q, readNumber ⟨p, (toString n).toList ++ rest⟩ = .ok (.int n, ⟨q, rest⟩) := by
  obtain ⟨q, hq⟩ := readNumber_digits (p := p) (decide (n < 0)) hn hrest
  have hvalue : (if decide (n < 0) then -(n.natAbs : ℤ) else n.natAbs) = n := by
    simp only [decide_eq_true_eq]
    split <;> omega
  rw [hvalue] at hq
  exact ⟨q, by rw [toList_toString, List.append_assoc, hq]⟩

end Numbers

section Strings

variable {rest : List Char}

lemma hexFour?_hexDigits :
    ∀ n < 32, (Text.hexDigits 4 n).length = 4 ∧ hexFour? (Text.hexDigits 4 n) = some n := by
  decide

lemma readHexEscape_hexDigits {n : ℕ} (hn : n < 32) (hrest : rest ≠ []) (p : ℕ) :
    readHexEscape ⟨p, 'u' :: (Text.hexDigits 4 n ++ rest)⟩ =
      .ok (Char.ofNat n, ⟨p + 1 + 4, rest⟩) := by
  obtain ⟨hlen, hvalue⟩ := hexFour?_hexDigits n hn
  have hpos := List.length_pos_iff.mpr hrest
  have htake : (Text.hexDigits 4 n ++ rest).take 4 = Text.hexDigits 4 n := List.take_left' hlen
  have hdrop : (Text.hexDigits 4 n ++ rest).drop 4 = rest := List.drop_left' hlen
  have hpair : ¬0xd800 ≤ n := by omega
  rw [readHexEscape]
  simp only [Cursor.advance, List.drop_succ_cons, List.drop_zero, htake, hvalue, hdrop,
    List.length_append, hlen, unitChar, hpair, false_and, decide_false, Bool.false_and]
  rw [if_neg (by omega)]
  rfl

/-- How a character stands in a string: as it is, after a backslash, or by its number. -/
lemma escapeChar_cases (c : Char) :
    (escapeChar c = [c] ∧ c ≠ '"' ∧ c ≠ '\\' ∧ ¬c.toNat ≤ 0x1f) ∨
      (∃ e, escapeChar c = ['\\', e] ∧ e ≠ 'u' ∧ escaped? e = some c) ∨
      (escapeChar c = '\\' :: 'u' :: Text.hexDigits 4 c.toNat ∧ c.toNat < 32) := by
  fun_cases escapeChar c
  case case8 hcontrol => exact .inr (.inr ⟨rfl, hcontrol⟩)
  case case9 hquote hback _ _ _ _ _ hcontrol => exact .inl ⟨rfl, hquote, hback, by omega⟩
  all_goals
    subst c
    exact .inr (.inl ⟨_, rfl, by decide, rfl⟩)

/-- What stands for a character in a string is read as the character. -/
lemma readString_escapeChar (hrest : rest ≠ []) (start fuel p : ℕ) (c : Char) (done : List Char) :
    ∃ q, readString start (fuel + 1) ⟨p, escapeChar c ++ rest⟩ done =
      readString start fuel ⟨q, rest⟩ (c :: done) := by
  rcases escapeChar_cases c with ⟨hc, hquote, hback, hvisible⟩ | ⟨e, hc, he, hcode⟩ | ⟨hc, hcode⟩
  · refine ⟨p + 1, ?_⟩
    rw [hc, List.singleton_append, readString]
    split
    · rename_i h
      cases h
    · rename_i h
      exact absurd (List.cons.inj h).1 hquote
    · rename_i h
      exact absurd (List.cons.inj h).1 hback
    · rename_i h
      cases h
      rw [if_neg hvisible]
      rfl
  · refine ⟨p + 2, ?_⟩
    rw [hc, List.cons_append, List.singleton_append, readString]
    simp only [Cursor.advance, List.drop_succ_cons, List.drop_zero, hcode]
  · have hread := readHexEscape_hexDigits hcode hrest (p + 1)
    rw [Char.ofNat_toNat] at hread
    refine ⟨p + 1 + 1 + 4, ?_⟩
    rw [hc, List.cons_append, List.cons_append, readString]
    simp only [Cursor.advance, List.drop_succ_cons, List.drop_zero]
    rw [hread]
    rfl

lemma readString_escaped (cs : List Char) (start fuel p : ℕ) (done : List Char)
    (hfuel : cs.length < fuel) :
    ∃ q, readString start fuel ⟨p, cs.flatMap escapeChar ++ '"' :: rest⟩ done =
      .ok (String.ofList (done.reverse ++ cs), ⟨q, rest⟩) := by
  induction cs generalizing fuel p done with
  | nil =>
    obtain ⟨fuel, rfl⟩ := Nat.exists_eq_add_of_lt hfuel
    exact ⟨p + 1, by simp [readString, Cursor.advance]⟩
  | cons c cs ih =>
    obtain ⟨fuel, rfl⟩ := Nat.exists_eq_add_of_lt hfuel
    have hnext : cs.flatMap escapeChar ++ '"' :: rest ≠ [] := by simp
    obtain ⟨q, hq⟩ := readString_escapeChar hnext start ((c :: cs).length + fuel) p c done
    obtain ⟨q', hq'⟩ := ih ((c :: cs).length + fuel) q (c :: done) (by simp; omega)
    refine ⟨q', ?_⟩
    rw [List.flatMap_cons, List.append_assoc, hq, hq']
    simp

lemma length_le_escaped (cs : List Char) : cs.length ≤ (cs.flatMap escapeChar).length := by
  induction cs with
  | nil => exact Nat.le_refl _
  | cons c cs ih =>
    have hpos : 0 < (escapeChar c).length := by
      rcases escapeChar_cases c with ⟨hc, -⟩ | ⟨e, hc, -⟩ | ⟨hc, -⟩ <;> simp [hc]
    rw [List.flatMap_cons, List.length_append, List.length_cons]
    omega

lemma toList_writeString (s : String) :
    (writeString s).toList = '"' :: (s.toList.flatMap escapeChar ++ ['"']) := by
  simp [writeString]

/-- A string is read up to its closing quote. -/
lemma readString_write (s : String) (start p : ℕ) {whole : ℕ}
    (hwhole : (writeString s).toList.length ≤ whole) :
    ∃ q, readString start (whole + 1) (Cursor.advance ⟨p, (writeString s).toList ++ rest⟩ 1) [] =
      .ok (s, ⟨q, rest⟩) := by
  rw [toList_writeString, List.length_cons, List.length_append] at hwhole
  have hle := length_le_escaped s.toList
  have hfuel : s.toList.length < whole + 1 := by omega
  obtain ⟨q, hq⟩ : ∃ q, readString start (whole + 1)
      ⟨p + 1, s.toList.flatMap escapeChar ++ '"' :: rest⟩ [] = .ok (_, ⟨q, rest⟩) :=
    readString_escaped s.toList start (whole + 1) (p + 1) [] hfuel
  refine ⟨q, ?_⟩
  rw [toList_writeString]
  simpa [Cursor.advance] using hq

end Strings

section Values

variable {limit : Option ℕ} {level l fuel depth p : ℕ} {c : Char} {cs rest after : List Char}
  {k : String} {v : Value} {done : List (String × Value)}

lemma skipSpace_append (blank : List Char) (hblank : ∀ c ∈ blank, Cursor.isSpace c = true)
    (hc : Cursor.isSpace c = false) :
    Cursor.skipSpace ⟨p, blank ++ c :: cs⟩ = ⟨p + blank.length, c :: cs⟩ := by
  have htake : (blank ++ c :: cs).takeWhile Cursor.isSpace = blank := by
    rw [List.takeWhile_append_of_pos hblank, List.takeWhile_cons_of_neg (by simp [hc]),
      List.append_nil]
  rw [Cursor.skipSpace, htake, Cursor.advance, List.drop_left]

lemma skipSpace_cons (hc : Cursor.isSpace c = false) :
    Cursor.skipSpace ⟨p, c :: cs⟩ = ⟨p, c :: cs⟩ :=
  skipSpace_append [] (by simp) hc

lemma toList_newline (level : ℕ) :
    (newline level).toList = '\n' :: List.replicate (2 * level) ' ' := by
  simp [newline]

lemma skipSpace_newline (hc : Cursor.isSpace c = false) :
    Cursor.skipSpace ⟨p, (newline level).toList ++ c :: cs⟩ =
      ⟨p + (newline level).toList.length, c :: cs⟩ := by
  refine skipSpace_append _ (fun d hd => ?_) hc
  rw [toList_newline, List.mem_cons, List.mem_replicate] at hd
  rcases hd with rfl | ⟨-, rfl⟩ <;> rfl

lemma ends_newline (level : ℕ) (cs : List Char) : Ends ((newline level).toList ++ cs) := by
  rw [toList_newline]
  exact .inr ⟨_, .inr rfl⟩

lemma toList_writeList (level : ℕ) (v : Value) (items : List Value) :
    (writeAt level (.list (v :: items))).toList =
      '[' :: ((newline (level + 1)).toList ++ ((writeItems (level + 1) (v :: items)).toList ++
        ((newline level).toList ++ [']']))) := by
  simp [writeAt]

lemma toList_writeObject (level : ℕ) (m : String × Value) (members : List (String × Value)) :
    (writeAt level (.object (m :: members))).toList =
      '\x7b' :: ((newline (level + 1)).toList ++
        ((writeMembers (level + 1) (m :: members)).toList ++
          ((newline level).toList ++ ['\x7d']))) := by
  simp [writeAt]

/-- What is written for a value starts with a character of it. -/
lemma writeAt_eq_cons (level : ℕ) (hv : isPlain v = true) :
    ∃ c cs, (writeAt level v).toList = c :: cs ∧ Cursor.isSpace c = false ∧ c ≠ ']' ∧
      c ≠ '\ufeff' := by
  cases v with
  | null => exact ⟨'n', ['u', 'l', 'l'], by simp [writeAt, scalar], rfl, by decide, by decide⟩
  | bool b =>
    cases b with
    | false =>
      exact ⟨'f', ['a', 'l', 's', 'e'], by simp [writeAt, scalar], rfl, by decide, by decide⟩
    | true => exact ⟨'t', ['r', 'u', 'e'], by simp [writeAt, scalar], rfl, by decide, by decide⟩
  | int n =>
    obtain ⟨d, ds, hds, -, hd⟩ := toDigits_eq_cons n.natAbs
    have hwrite : (writeAt level (.int n)).toList = (toString n).toList := rfl
    rw [hwrite, toList_toString, hds]
    cases decide (n < 0) with
    | false =>
      exact ⟨d, ds, rfl, by simp [Cursor.isSpace, ne_of_isDigit hd], ne_of_isDigit hd rfl,
        ne_of_isDigit hd rfl⟩
    | true => exact ⟨'-', d :: ds, rfl, rfl, by decide, by decide⟩
  | float x => cases hv
  | text s =>
    have hwrite : (writeAt level (.text s)).toList = (writeString s).toList := rfl
    rw [hwrite, toList_writeString]
    exact ⟨'"', _, rfl, rfl, by decide, by decide⟩
  | list items =>
    cases items with
    | nil => exact ⟨'[', [']'], by simp [writeAt, scalar], rfl, by decide, by decide⟩
    | cons v items => exact ⟨'[', _, toList_writeList level v items, rfl, by decide, by decide⟩
  | object members =>
    cases members with
    | nil => exact ⟨'\x7b', ['\x7d'], by simp [writeAt, scalar], rfl, by decide, by decide⟩
    | cons m members =>
      exact ⟨'\x7b', _, toList_writeObject level m members, rfl, by decide, by decide⟩

/-- No word starts like a number. -/
lemma find?_words (negative : Bool) (hc : c.isDigit = true) :
    (words.find? fun w => (⟨p, sign negative ++ c :: cs⟩ : Cursor).startsWith w.1) = none := by
  have hne : ∀ d : Char, d.isDigit = false → (d == c) = false := by
    intro d hd
    simpa using (ne_of_isDigit hc hd).symm
  cases negative
  · simp [sign, words, Cursor.startsWith, List.isPrefixOf, hne]
  · simp [sign, words, Cursor.startsWith, List.isPrefixOf, hne]

/-- What starts with no quote and no bracket is a word or a number. -/
lemma readValue_bare (hquote : c ≠ '"') (hlist : c ≠ '[') (hobject : c ≠ '\x7b') :
    readValue limit (fuel + 1) depth ⟨p, c :: cs⟩ =
      (words.find? fun w => (⟨p, c :: cs⟩ : Cursor).startsWith w.1).elim (readNumber ⟨p, c :: cs⟩)
        fun w => .ok (w.2, Cursor.advance ⟨p, c :: cs⟩ w.1.length) := by
  rw [readValue]
  split
  · rename_i h
    exact absurd (List.cons.inj h).1 hquote
  · rename_i h
    exact absurd (List.cons.inj h).1 hlist
  · rename_i h
    exact absurd (List.cons.inj h).1 hobject
  · cases words.find? fun w => (⟨p, c :: cs⟩ : Cursor).startsWith w.1 <;> rfl

lemma readValue_number (negative : Bool) (hc : c.isDigit = true) :
    readValue limit (fuel + 1) depth ⟨p, sign negative ++ c :: cs⟩ =
      readNumber ⟨p, sign negative ++ c :: cs⟩ := by
  cases negative with
  | false =>
    have hwords : (words.find? fun w => (⟨p, c :: cs⟩ : Cursor).startsWith w.1) = none :=
      find?_words false hc
    have hbare : readValue limit (fuel + 1) depth ⟨p, c :: cs⟩ = _ :=
      readValue_bare (ne_of_isDigit hc rfl) (ne_of_isDigit hc rfl) (ne_of_isDigit hc rfl)
    rwa [hwords] at hbare
  | true =>
    have hwords : (words.find? fun w => (⟨p, '-' :: c :: cs⟩ : Cursor).startsWith w.1) = none :=
      find?_words true hc
    have hbare : readValue limit (fuel + 1) depth ⟨p, '-' :: c :: cs⟩ = _ :=
      readValue_bare (by decide) (by decide) (by decide)
    rwa [hwords] at hbare

/-- A value is read from what is written for it, up to its end. -/
def Reads (v : Value) : Prop :=
  ∀ (limit : Option ℕ) (level fuel depth p : ℕ) (rest : List Char),
    HasRoom limit depth (nesting v) → 2 * (writeAt level v).toList.length ≤ fuel → Ends rest →
    ∃ q, readValue limit fuel depth ⟨p, (writeAt level v).toList ++ rest⟩ = .ok (v, ⟨q, rest⟩)

/-- Items are read from what is written for them, up to the bracket behind them. -/
def ReadsItems (items : List Value) : Prop :=
  ∀ (limit : Option ℕ) (level l fuel depth p : ℕ) (rest : List Char),
    HasRoom limit depth (nestingItems items) →
    2 * (writeItems level items).toList.length + 1 ≤ fuel →
    ∃ q, readItems limit fuel depth
        ⟨p, (writeItems level items).toList ++ ((newline l).toList ++ ']' :: rest)⟩ =
      .ok (items, ⟨q, rest⟩)

/-- Members are read from what is written for them, up to the brace behind them. -/
def ReadsMembers (members : List (String × Value)) : Prop :=
  ∀ (limit : Option ℕ) (level l fuel depth p : ℕ) (rest : List Char)
    (done : List (String × Value)), HasRoom limit depth (nestingMembers members) →
    ((done ++ members).map (·.1)).Nodup →
    2 * (writeMembers level members).toList.length + 1 ≤ fuel →
    ∃ q, readMembers limit fuel depth
        ⟨p, (writeMembers level members).toList ++ ((newline l).toList ++ '\x7d' :: rest)⟩ done =
      .ok (done ++ members, ⟨q, rest⟩)

lemma reads_int {n : ℤ} (hn : (Nat.toDigits 10 n.natAbs).length ≤ maxDigits) : Reads (.int n) := by
  intro limit level fuel depth p rest _ hfuel hrest
  obtain ⟨q, hq⟩ := readNumber_write (p := p) hn hrest
  obtain ⟨d, ds, hds, -, hd⟩ := toDigits_eq_cons n.natAbs
  have hwrite : (writeAt level (.int n)).toList = (toString n).toList := rfl
  rw [hwrite, toList_toString, hds] at hfuel ⊢
  rw [toList_toString, hds] at hq
  rw [List.length_append, List.length_cons] at hfuel
  obtain ⟨fuel, rfl⟩ := Nat.exists_eq_succ_of_ne_zero (show fuel ≠ 0 by omega)
  rw [List.append_assoc, List.cons_append] at hq ⊢
  exact ⟨q, (readValue_number _ hd).trans hq⟩

/-- A value whose text does not depend on what is around it. -/
lemma reads_of_eq (hwrite : ∀ level, (writeAt level v).toList = c :: cs)
    (hread : ∀ limit fuel depth p rest, HasRoom limit depth (nesting v) →
      ∃ q, readValue limit (fuel + 1) depth ⟨p, c :: (cs ++ rest)⟩ = .ok (v, ⟨q, rest⟩)) :
    Reads v := by
  intro limit level fuel depth p rest hroom hfuel _
  rw [hwrite, List.length_cons] at hfuel
  obtain ⟨fuel, rfl⟩ := Nat.exists_eq_succ_of_ne_zero (show fuel ≠ 0 by omega)
  rw [hwrite]
  exact hread limit fuel depth p rest hroom

lemma reads_word {w : String} (hwrite : ∀ level, writeAt level v = w) (hw : w.toList = c :: cs)
    (hquote : c ≠ '"') (hlist : c ≠ '[') (hobject : c ≠ '\x7b')
    (hfind : ∀ p rest, (words.find? fun m => (⟨p, c :: (cs ++ rest)⟩ : Cursor).startsWith m.1) =
      some (w, v)) : Reads v := by
  refine reads_of_eq (fun level => by rw [hwrite, hw]) fun limit fuel depth p rest _ =>
    ⟨p + w.length, ?_⟩
  have hdrop : (c :: (cs ++ rest)).drop w.length = rest := by
    rw [← List.cons_append, ← hw]
    exact List.drop_left' String.length_toList
  rw [readValue_bare hquote hlist hobject, hfind, Option.elim_some, Cursor.advance, hdrop]

lemma reads_null : Reads .null := by
  have hw : "null".toList = ['n', 'u', 'l', 'l'] := by decide
  exact reads_word (fun _ => rfl) hw (by decide) (by decide) (by decide)
    fun p rest => by simp [words, Cursor.startsWith]

lemma reads_bool (b : Bool) : Reads (.bool b) := by
  cases b with
  | false =>
    have hw : "false".toList = ['f', 'a', 'l', 's', 'e'] := by decide
    exact reads_word (fun _ => rfl) hw (by decide) (by decide) (by decide)
      fun p rest => by simp [words, Cursor.startsWith, List.isPrefixOf]
  | true =>
    have hw : "true".toList = ['t', 'r', 'u', 'e'] := by decide
    exact reads_word (fun _ => rfl) hw (by decide) (by decide) (by decide)
      fun p rest => by simp [words, Cursor.startsWith, List.isPrefixOf]

lemma reads_text (s : String) : Reads (.text s) := by
  refine reads_of_eq (fun _ => toList_writeString s) fun limit fuel depth p rest _ => ?_
  have hchars : ∀ rest, (writeString s).toList ++ rest =
      '"' :: ((s.toList.flatMap escapeChar ++ ['"']) ++ rest) := by
    intro rest
    rw [toList_writeString, List.cons_append]
  have hlen : (writeString s).toList.length ≤ ((writeString s).toList ++ rest).length := by simp
  obtain ⟨q, hq⟩ : ∃ q, readString p _ (Cursor.advance ⟨p, (writeString s).toList ++ rest⟩ 1) [] =
    .ok (s, ⟨q, rest⟩) := readString_write s p p hlen
  rw [hchars] at hq
  refine ⟨q, ?_⟩
  rw [readValue]
  simp only [hq, ok_bind]
  rfl

lemma reads_list_nil : Reads (.list []) := by
  have hw : "[]".toList = ['[', ']'] := by decide
  refine reads_of_eq (fun _ => hw) fun limit fuel depth p rest hroom => ⟨p + 1 + 1, ?_⟩
  have hskip : Cursor.skipSpace ⟨p + 1, ']' :: rest⟩ = ⟨p + 1, ']' :: rest⟩ := skipSpace_cons rfl
  have hopen : isFull limit depth = false := hroom.isFull
  rw [readValue]
  simp [Cursor.advance, hskip, Cursor.startsWith, List.isPrefixOf, hopen]

lemma reads_object_nil : Reads (.object []) := by
  have hw : "\x7b\x7d".toList = ['\x7b', '\x7d'] := by decide
  refine reads_of_eq (fun _ => hw) fun limit fuel depth p rest hroom => ⟨p + 1 + 1, ?_⟩
  have hskip : Cursor.skipSpace ⟨p + 1, '\x7d' :: rest⟩ = ⟨p + 1, '\x7d' :: rest⟩ :=
    skipSpace_cons rfl
  have hopen : isFull limit depth = false := hroom.isFull
  rw [readValue]
  simp [Cursor.advance, hskip, Cursor.startsWith, List.isPrefixOf, hopen]

lemma writeItems_eq_cons (level : ℕ) (items : List Value) (hv : isPlain v = true) :
    ∃ c cs, (writeItems level (v :: items)).toList = c :: cs ∧ Cursor.isSpace c = false ∧
      c ≠ ']' := by
  obtain ⟨c, cs, hcs, hspace, hne, -⟩ := writeAt_eq_cons level hv
  cases items with
  | nil => exact ⟨c, cs, by rw [writeItems, hcs], hspace, hne⟩
  | cons w items =>
    refine ⟨c, cs ++ ("," ++ newline level ++ writeItems level (w :: items)).toList, ?_, hspace,
      hne⟩
    simp [writeItems, hcs]

lemma reads_list {items : List Value} (hv : isPlain v = true) (h : ReadsItems (v :: items)) :
    Reads (.list (v :: items)) := by
  intro limit level fuel depth p rest hroom hfuel _
  rw [toList_writeList] at hfuel ⊢
  simp only [List.length_cons, List.length_append] at hfuel
  obtain ⟨fuel, rfl⟩ := Nat.exists_eq_succ_of_ne_zero (show fuel ≠ 0 by omega)
  obtain ⟨c, cs, hcs, hspace, hne⟩ := writeItems_eq_cons (level + 1) items hv
  obtain ⟨q, hq⟩ := h limit (level + 1) level fuel (depth + 1)
    (p + 1 + (newline (level + 1)).toList.length) rest hroom.inside (by omega)
  refine ⟨q, ?_⟩
  simp only [List.cons_append, List.append_assoc, List.nil_append]
  rw [hcs, List.cons_append] at hq ⊢
  have hopen : (Cursor.advance ⟨p, '[' :: ((newline (level + 1)).toList ++
      c :: (cs ++ ((newline level).toList ++ ']' :: rest)))⟩ 1).skipSpace =
      ⟨p + 1 + (newline (level + 1)).toList.length,
        c :: (cs ++ ((newline level).toList ++ ']' :: rest))⟩ := skipSpace_newline hspace
  rw [readValue]
  simp only [hopen, hq, ok_bind, hroom.isFull, Bool.false_eq_true, if_false]
  rw [if_neg (by simp [Cursor.startsWith, List.isPrefixOf, hne.symm])]
  rfl

lemma toList_writeMember (level : ℕ) (k : String) (v : Value) :
    (writeMembers level [(k, v)]).toList =
      (writeString k).toList ++ ':' :: ' ' :: (writeAt level v).toList := by
  simp [writeMembers]

lemma toList_writeMembers (level : ℕ) (k : String) (v : Value) (m : String × Value)
    (members : List (String × Value)) :
    (writeMembers level ((k, v) :: m :: members)).toList =
      (writeString k).toList ++ ':' :: ' ' :: ((writeAt level v).toList ++
        ',' :: ((newline level).toList ++ (writeMembers level (m :: members)).toList)) := by
  simp [writeMembers]

lemma writeMembers_eq_cons (level : ℕ) (m : String × Value) (members : List (String × Value)) :
    ∃ cs, (writeMembers level (m :: members)).toList = '"' :: cs := by
  obtain ⟨k, v⟩ := m
  cases members with
  | nil =>
    rw [toList_writeMember, toList_writeString]
    exact ⟨_, rfl⟩
  | cons w members =>
    rw [toList_writeMembers, toList_writeString]
    exact ⟨_, rfl⟩

lemma reads_object {m : String × Value} {members : List (String × Value)}
    (hnodup : ((m :: members).map (·.1)).Nodup) (h : ReadsMembers (m :: members)) :
    Reads (.object (m :: members)) := by
  intro limit level fuel depth p rest hroom hfuel _
  rw [toList_writeObject] at hfuel ⊢
  simp only [List.length_cons, List.length_append] at hfuel
  obtain ⟨fuel, rfl⟩ := Nat.exists_eq_succ_of_ne_zero (show fuel ≠ 0 by omega)
  obtain ⟨cs, hcs⟩ := writeMembers_eq_cons (level + 1) m members
  obtain ⟨q, hq⟩ := h limit (level + 1) level fuel (depth + 1)
    (p + 1 + (newline (level + 1)).toList.length) rest [] hroom.inside hnodup (by omega)
  refine ⟨q, ?_⟩
  simp only [List.cons_append, List.append_assoc, List.nil_append]
  rw [hcs, List.cons_append] at hq ⊢
  have hopen : (Cursor.advance ⟨p, '\x7b' :: ((newline (level + 1)).toList ++
      '"' :: (cs ++ ((newline level).toList ++ '\x7d' :: rest)))⟩ 1).skipSpace =
      ⟨p + 1 + (newline (level + 1)).toList.length,
        '"' :: (cs ++ ((newline level).toList ++ '\x7d' :: rest))⟩ := skipSpace_newline rfl
  rw [readValue]
  simp only [hopen, hq, ok_bind, hroom.isFull, Bool.false_eq_true, if_false]
  rw [if_neg (by simp [Cursor.startsWith, List.isPrefixOf])]
  rfl

lemma readsItems_single (h : Reads v) : ReadsItems [v] := by
  intro limit level l fuel depth p rest hroom hfuel
  rw [writeItems] at hfuel ⊢
  obtain ⟨fuel, rfl⟩ := Nat.exists_eq_succ_of_ne_zero (show fuel ≠ 0 by omega)
  obtain ⟨q, hq⟩ := h limit level fuel depth p ((newline l).toList ++ ']' :: rest)
    (hroom.mono (Nat.le_max_left _ _)) (by omega) (ends_newline l _)
  have hskip : Cursor.skipSpace ⟨q, (newline l).toList ++ ']' :: rest⟩ =
      ⟨q + (newline l).toList.length, ']' :: rest⟩ := skipSpace_newline rfl
  refine ⟨q + (newline l).toList.length + 1, ?_⟩
  rw [readItems, hq, ok_bind]
  simp only [hskip]
  rfl

lemma readsItems_cons {w : Value} {items : List Value} (hw : isPlain w = true) (hv : Reads v)
    (h : ReadsItems (w :: items)) : ReadsItems (v :: w :: items) := by
  intro limit level l fuel depth p rest hroom hfuel
  have hwrite : (writeItems level (v :: w :: items)).toList = (writeAt level v).toList ++
      ',' :: ((newline level).toList ++ (writeItems level (w :: items)).toList) := by
    simp [writeItems]
  rw [hwrite] at hfuel ⊢
  simp only [List.length_cons, List.length_append] at hfuel
  obtain ⟨fuel, rfl⟩ := Nat.exists_eq_succ_of_ne_zero (show fuel ≠ 0 by omega)
  obtain ⟨c, cs, hcs, hspace, -⟩ := writeItems_eq_cons level items hw
  simp only [List.cons_append, List.append_assoc]
  generalize hnext : (writeItems level (w :: items)).toList ++
    ((newline l).toList ++ ']' :: rest) = next
  obtain ⟨q, hq⟩ := hv limit level fuel depth p (',' :: ((newline level).toList ++ next))
    (hroom.mono (Nat.le_max_left _ _)) (by omega) (.inr ⟨_, .inl rfl⟩)
  have hskip : Cursor.skipSpace ⟨q, ',' :: ((newline level).toList ++ next)⟩ =
      ⟨q, ',' :: ((newline level).toList ++ next)⟩ := skipSpace_cons rfl
  have hopen : (Cursor.advance ⟨q, ',' :: ((newline level).toList ++ next)⟩ 1).skipSpace =
      ⟨q + 1 + (newline level).toList.length, next⟩ := by
    rw [← hnext, hcs]
    exact skipSpace_newline hspace
  obtain ⟨q', hq'⟩ := h limit level l fuel depth (q + 1 + (newline level).toList.length) rest
    (hroom.mono (Nat.le_max_right _ _)) (by omega)
  rw [hnext] at hq'
  refine ⟨q', ?_⟩
  rw [readItems, hq, ok_bind]
  simp only [hskip, hopen, hq', ok_bind]
  rfl

/-- What follows a member of an object: its end, or the next member. -/
def afterMember (limit : Option ℕ) (fuel depth : ℕ) (done : List (String × Value)) (c : Cursor) :
    Except ReadError (List (String × Value) × Cursor) :=
  match c.rest with
  | '\x7d' :: _ => pure (done, c.advance 1)
  | ',' :: _ => readMembers limit fuel depth (c.advance 1).skipSpace done
  | _ => c.fail .comma

/-- A member is read if its value is. -/
lemma readMembers_member (k : String) (fuel p : ℕ) (done : List (String × Value))
    (hv : isPlain v = true)
    (hread : ∀ p, ∃ q, readValue limit fuel depth ⟨p, (writeAt level v).toList ++ after⟩ =
      .ok (v, ⟨q, after⟩)) :
    ∃ q, readMembers limit (fuel + 1) depth
        ⟨p, (writeString k).toList ++ ':' :: ' ' :: ((writeAt level v).toList ++ after)⟩ done =
      afterMember limit fuel depth (Value.assign done k v) (Cursor.skipSpace ⟨q, after⟩) := by
  obtain ⟨c, cs, hcs, hspace, -⟩ := writeAt_eq_cons level hv
  generalize hbehind : ':' :: ' ' :: ((writeAt level v).toList ++ after) = behind
  have hlen : (writeString k).toList.length ≤ ((writeString k).toList ++ behind).length := by simp
  obtain ⟨q, hq⟩ : ∃ q, readString p _ (Cursor.advance ⟨p, (writeString k).toList ++ behind⟩ 1) [] =
    .ok (k, ⟨q, behind⟩) := readString_write k p p hlen
  obtain ⟨q', hq'⟩ := hread (q + 1 + 1)
  have hvalue : (Cursor.advance ⟨q, behind⟩ 1).skipSpace =
      ⟨q + 1 + 1, (writeAt level v).toList ++ after⟩ := by
    rw [← hbehind, hcs]
    exact skipSpace_append [' '] (by simp [Cursor.isSpace]) hspace
  have hcolon : Cursor.skipSpace ⟨q, behind⟩ = ⟨q, behind⟩ := by
    rw [← hbehind]
    exact skipSpace_cons rfl
  refine ⟨q', ?_⟩
  rw [toList_writeString, List.cons_append] at hq ⊢
  subst hbehind
  rw [readMembers]
  simp only [hq, ok_bind, hcolon, hvalue, hq']
  rfl

lemma assign_of_notMem {members : List (String × Value)} (h : k ∉ members.map (·.1)) (v : Value) :
    Value.assign members k v = members ++ [(k, v)] := by
  induction members with
  | nil => rfl
  | cons m members ih =>
    rw [List.map_cons, List.mem_cons, not_or] at h
    rw [Value.assign, if_neg (by simpa using Ne.symm h.1), ih h.2, List.cons_append]

lemma notMem_of_nodup {members : List (String × Value)}
    (h : ((done ++ (k, v) :: members).map (·.1)).Nodup) : k ∉ done.map (·.1) := by
  rw [List.map_append, List.nodup_append] at h
  intro hk
  exact h.2.2 k hk k (by simp) rfl

lemma readsMembers_single (hv : isPlain v = true) (h : Reads v) : ReadsMembers [(k, v)] := by
  intro limit level l fuel depth p rest done hroom hnodup hfuel
  rw [toList_writeMember] at hfuel ⊢
  simp only [List.length_cons, List.length_append] at hfuel
  obtain ⟨fuel, rfl⟩ := Nat.exists_eq_succ_of_ne_zero (show fuel ≠ 0 by omega)
  obtain ⟨q, hq⟩ := readMembers_member k fuel p done hv fun p =>
    h limit level fuel depth p ((newline l).toList ++ '\x7d' :: rest)
      (hroom.mono (Nat.le_max_left _ _)) (by omega) (ends_newline l _)
  have hskip : Cursor.skipSpace ⟨q, (newline l).toList ++ '\x7d' :: rest⟩ =
      ⟨q + (newline l).toList.length, '\x7d' :: rest⟩ := skipSpace_newline rfl
  rw [hskip, assign_of_notMem (notMem_of_nodup hnodup)] at hq
  refine ⟨q + (newline l).toList.length + 1, ?_⟩
  simp only [List.append_assoc, List.cons_append]
  rw [hq]
  rfl

lemma readsMembers_cons {m : String × Value} {members : List (String × Value)}
    (hv : isPlain v = true) (h : Reads v) (hmembers : ReadsMembers (m :: members)) :
    ReadsMembers ((k, v) :: m :: members) := by
  intro limit level l fuel depth p rest done hroom hnodup hfuel
  rw [toList_writeMembers] at hfuel ⊢
  simp only [List.length_cons, List.length_append] at hfuel
  obtain ⟨fuel, rfl⟩ := Nat.exists_eq_succ_of_ne_zero (show fuel ≠ 0 by omega)
  obtain ⟨cs, hcs⟩ := writeMembers_eq_cons level m members
  generalize hnext : (writeMembers level (m :: members)).toList ++
    ((newline l).toList ++ '\x7d' :: rest) = next
  obtain ⟨q, hq⟩ := readMembers_member k fuel p done hv fun p =>
    h limit level fuel depth p (',' :: ((newline level).toList ++ next))
      (hroom.mono (Nat.le_max_left _ _)) (by omega) (.inr ⟨_, .inl rfl⟩)
  have hskip : Cursor.skipSpace ⟨q, ',' :: ((newline level).toList ++ next)⟩ =
      ⟨q, ',' :: ((newline level).toList ++ next)⟩ := skipSpace_cons rfl
  have hopen : (Cursor.advance ⟨q, ',' :: ((newline level).toList ++ next)⟩ 1).skipSpace =
      ⟨q + 1 + (newline level).toList.length, next⟩ := by
    rw [← hnext, hcs]
    exact skipSpace_newline rfl
  obtain ⟨q', hq'⟩ := hmembers limit level l fuel depth (q + 1 + (newline level).toList.length)
    rest (done ++ [(k, v)]) (hroom.mono (Nat.le_max_right _ _)) (by simpa using hnodup) (by omega)
  rw [hnext, List.append_assoc, List.singleton_append] at hq'
  refine ⟨q', ?_⟩
  rw [hskip, assign_of_notMem (notMem_of_nodup hnodup)] at hq
  simp only [List.append_assoc, List.cons_append, hnext]
  rw [hq, ← hq', ← hopen]
  rfl

mutual

/-- A value is read back from what is written for it. -/
theorem reads : ∀ v : Value, isPlain v = true → Reads v
  | .null, _ => reads_null
  | .bool b, _ => reads_bool b
  | .int n, hv => reads_int (by simpa [isPlain] using hv)
  | .float _, hv => by cases hv
  | .text s, _ => reads_text s
  | .list [], _ => reads_list_nil
  | .list (v :: items), hv => by
    rw [isPlain, plainItems, Bool.and_eq_true] at hv
    exact reads_list hv.1 (readsItems (v :: items) (by simp) (by simp [plainItems, hv]))
  | .object [], _ => reads_object_nil
  | .object (m :: members), hv => by
    rw [isPlain, Bool.and_eq_true, decide_eq_true_eq] at hv
    exact reads_object hv.1 (readsMembers (m :: members) (by simp) hv.2)

theorem readsItems : ∀ items : List Value, items ≠ [] → plainItems items = true → ReadsItems items
  | [], hne, _ => absurd rfl hne
  | [v], _, hitems => by
    rw [plainItems, Bool.and_eq_true] at hitems
    exact readsItems_single (reads v hitems.1)
  | v :: w :: items, _, hitems => by
    rw [plainItems, Bool.and_eq_true] at hitems
    have hw : isPlain w = true := by
      rw [plainItems, Bool.and_eq_true] at hitems
      exact hitems.2.1
    exact readsItems_cons hw (reads v hitems.1) (readsItems (w :: items) (by simp) hitems.2)

theorem readsMembers : ∀ members : List (String × Value), members ≠ [] →
    plainMembers members = true → ReadsMembers members
  | [], hne, _ => absurd rfl hne
  | [(k, v)], _, hmembers => by
    rw [plainMembers, Bool.and_eq_true] at hmembers
    exact readsMembers_single hmembers.1 (reads v hmembers.1)
  | (k, v) :: m :: members, _, hmembers => by
    rw [plainMembers, Bool.and_eq_true] at hmembers
    exact readsMembers_cons hmembers.1 (reads v hmembers.1)
      (readsMembers (m :: members) (by simp) hmembers.2)

end

/-- The text of a value denotes that value, unless it is nested too deep. -/
theorem readWithin_write (hv : isPlain v = true) (hroom : HasRoom limit 0 (nesting v)) :
    readWithin limit (write v) = .ok v := by
  obtain ⟨c, cs, hcs, hspace, -, hmark⟩ := writeAt_eq_cons 0 hv
  obtain ⟨q, hq⟩ := reads v hv limit 0 (2 * (c :: cs).length + 1) 0 0 [] hroom
    (by rw [hcs]; omega) (.inl rfl)
  rw [hcs, List.append_nil] at hq
  rw [readWithin, write, hcs]
  split
  · rename_i h
    exact absurd (List.cons.inj h).1 hmark
  · rw [skipSpace_cons hspace, hq]
    rfl

end Values

section Lines

/-! Written text has plain newlines only: within strings they are escaped. -/

lemma notMem_escapeChar (c : Char) : '\r' ∉ escapeChar c := by
  have hhex : ∀ n < 32, '\r' ∉ Text.hexDigits 4 n := by decide
  rcases escapeChar_cases c with ⟨hc, -, -, hvisible⟩ | ⟨e, hc, -, hcode⟩ | ⟨hc, hcode⟩
  · rw [hc, List.mem_singleton]
    rintro rfl
    exact hvisible (by decide)
  · rw [hc]
    intro hmem
    obtain rfl : '\r' = e := by simpa using hmem
    cases hcode
  · rw [hc]
    simpa using hhex c.toNat hcode

lemma notMem_writeString (s : String) : '\r' ∉ (writeString s).toList := by
  rw [toList_writeString]
  simp [notMem_escapeChar]

lemma notMem_newline (level : ℕ) : '\r' ∉ (newline level).toList := by
  simp [toList_newline]

lemma notMem_scalar {v : Value} (hv : isPlain v = true) : '\r' ∉ (scalar v).toList := by
  cases v with
  | int n =>
    have hwrite : (scalar (.int n)).toList = (toString n).toList := rfl
    rw [hwrite, toList_toString, List.mem_append, not_or]
    constructor
    · cases decide (n < 0) <;> simp [sign]
    · intro hmem
      cases isDigit_of_mem_toDigits hmem
  | float x => cases hv
  | text s => exact notMem_writeString s
  | bool b => cases b <;> simp [scalar]
  | _ => simp [scalar]

mutual

lemma notMem_writeAt : ∀ (v : Value) (level : ℕ), isPlain v = true → '\r' ∉ (writeAt level v).toList
  | .list (v :: items), level, hv => by
    rw [isPlain] at hv
    rw [toList_writeList]
    simp [notMem_newline, notMem_writeItems (v :: items) (level + 1) hv]
  | .object (m :: members), level, hv => by
    rw [isPlain, Bool.and_eq_true] at hv
    rw [toList_writeObject]
    simp [notMem_newline, notMem_writeMembers (m :: members) (level + 1) hv.2]
  | .list [], _, hv => notMem_scalar hv
  | .object [], _, hv => notMem_scalar hv
  | .null, _, hv => notMem_scalar hv
  | .bool _, _, hv => notMem_scalar hv
  | .int _, _, hv => notMem_scalar hv
  | .float _, _, hv => notMem_scalar hv
  | .text _, _, hv => notMem_scalar hv

lemma notMem_writeItems : ∀ (items : List Value) (level : ℕ), plainItems items = true →
    '\r' ∉ (writeItems level items).toList
  | [], level, _ => by simp [writeItems]
  | [v], level, hitems => by
    rw [plainItems, Bool.and_eq_true] at hitems
    exact notMem_writeAt v level hitems.1
  | v :: w :: items, level, hitems => by
    rw [plainItems, Bool.and_eq_true] at hitems
    simp [writeItems, notMem_newline, notMem_writeAt v level hitems.1,
      notMem_writeItems (w :: items) level hitems.2]

lemma notMem_writeMembers : ∀ (members : List (String × Value)) (level : ℕ),
    plainMembers members = true → '\r' ∉ (writeMembers level members).toList
  | [], level, _ => by simp [writeMembers]
  | [(k, v)], level, hmembers => by
    rw [plainMembers, Bool.and_eq_true] at hmembers
    simp [writeMembers, notMem_writeString, notMem_writeAt v level hmembers.1]
  | (k, v) :: m :: members, level, hmembers => by
    rw [plainMembers, Bool.and_eq_true] at hmembers
    simp [writeMembers, notMem_newline, notMem_writeString, notMem_writeAt v level hmembers.1,
      notMem_writeMembers (m :: members) level hmembers.2]

end

end Lines
end NovelGraph.Json
