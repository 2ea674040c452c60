import Mathlib.Data.Int.Notation
import Mathlib.Data.List.Nodup
import Mathlib.Tactic.SplitIfs
import NovelGraph.Fault
import NovelGraph.Value.Same

/-! Values by their contents: when two are the same or equal, which of them are members of a list,
and what does not depend on the way in which a number is written. -/
namespace NovelGraph.Value

lemma same_comm (a b : Value) : a.same b = b.same a := by
  rw [Bool.eq_iff_iff, same_iff, same_iff]
  exact eq_comm

lemma same_of_equals {a b : Value} (h : a.equals b = true) : a.same b = true := by
  unfold equals at h
  exact (Bool.and_eq_true_iff.mp h).1

/-- What is compared with is only looked at by content. -/
lemma equals_congr_right (a : Value) {b c : Value} (h : b.same c = true) :
    a.equals b = a.equals c := by
  have hs : a.same b = a.same c := by
    rw [Bool.eq_iff_iff]
    exact ⟨fun g => same_trans g h, fun g => same_trans g (same_symm h)⟩
  unfold equals
  rw [hs]

lemma canon_eq_float {a : Value} {x : Double} (h : a.canon = .float x) : a = .float x := by
  cases a with
  | float y =>
    rw [canon] at h
    split at h
    · simp at h
    · exact h
  | _ => simp [canon] at h

lemma canon_eq_text {v : Value} {s : String} (h : v.canon = .text s) : v = .text s := by
  cases v with
  | text t => simpa using h
  | float x =>
    rw [canon] at h
    split at h <;> cases h
  | _ => simp [canon] at h

lemma canon_float_of_isNan {x : Double} (h : x.isNan = true) :
    (Value.float x).canon = .float x := by
  have hf : x.isFinite = false := by
    rw [Double.isNan, Bool.and_eq_true] at h
    simpa [Double.isFinite] using h.1
  simp [canon, Double.toInt?, hf]

lemma equals_comm (a b : Value) : a.equals b = b.equals a := by
  have himp : ∀ c d : Value, c.equals d = true → d.equals c = true := by
    intro c d h
    have hs := same_symm (same_of_equals h)
    unfold equals
    rw [hs, Bool.true_and]
    cases d with
    | float y =>
      -- a value with the content of a not-a-number is that not-a-number
      cases hy : y.isNan with
      | false => simp [hy]
      | true =>
        rw [same_iff, canon_float_of_isNan hy] at hs
        have hc := canon_eq_float hs.symm
        simp [hc, equals, hy] at h
    | _ => rfl
  rw [Bool.eq_iff_iff]
  exact ⟨himp a b, himp b a⟩

lemma equals_congr_left (b : Value) {a c : Value} (h : a.same c = true) :
    a.equals b = c.equals b := by
  rw [equals_comm a, equals_comm c]
  exact equals_congr_right b h

/-- Only lists and objects have the content of lists and objects. -/
lemma isKey_congr {a b : Value} (h : a.same b = true) : a.isKey = b.isKey := by
  have hcanon : ∀ v : Value, v.canon.isKey = v.isKey := by
    intro v
    cases v with
    | float x =>
      rw [canon]
      split <;> rfl
    | _ => simp [canon, isKey]
  rw [← hcanon a, ← hcanon b, same_iff.mp h]

@[simp] lemma memberOf_nil (v : Value) : v.memberOf [] = false := rfl

@[simp] lemma memberOf_append (v : Value) (vs ws : List Value) :
    v.memberOf (vs ++ ws) = (v.memberOf vs || v.memberOf ws) := List.any_append

@[simp] lemma memberOf_singleton (v w : Value) : v.memberOf [w] = v.same w := by
  simp only [memberOf, List.any_cons, List.any_nil, Bool.or_false]

lemma memberOf_congr {v w : Value} (h : v.same w = true) (vs : List Value) :
    v.memberOf vs = w.memberOf vs := by
  rw [Bool.eq_iff_iff, memberOf_iff, memberOf_iff, same_iff.mp h]

lemma exists_of_memberOf {v : Value} {vs : List Value} (h : v.memberOf vs = true) :
    ∃ w ∈ vs, v.same w = true := List.any_eq_true.mp h

lemma memberOf_of_mem {v w : Value} {vs : List Value} (hw : w ∈ vs) (h : v.same w = true) :
    v.memberOf vs = true := List.any_eq_true.mpr ⟨w, hw, h⟩

lemma memberOf_perm {vs ws : List Value} (h : vs.Perm ws) (v : Value) :
    v.memberOf vs = v.memberOf ws := h.any_eq

lemma distinct_perm {vs ws : List Value} (h : vs.Perm ws) :
    (vs.Pairwise fun u w => u.same w = false) ↔ ws.Pairwise fun u w => u.same w = false :=
  h.pairwise_iff fun {u w} huw => by rwa [same_comm]

lemma memberOf_of_prefix {v : Value} {vs ws : List Value} (h : vs <+: ws)
    (hv : v.memberOf vs = true) : v.memberOf ws = true := by
  obtain ⟨more, rfl⟩ := h
  rw [memberOf_append, hv, Bool.true_or]

/-- Listing values once each leaves nothing in that was not there. -/
lemma mem_of_mem_once {v : Value} {items seen : List Value}
    (h : v ∈ items.foldl (fun seen v => if v.memberOf seen then seen else seen ++ [v]) seen) :
    v ∈ seen ∨ v ∈ items := by
  induction items generalizing seen with
  | nil => exact .inl h
  | cons w rest ih =>
    rw [List.foldl_cons] at h
    rcases ih h with hin | hin
    · split_ifs at hin
      · exact .inl hin
      · rcases List.mem_append.mp hin with hin | hin
        · exact .inl hin
        · exact .inr (by simp [List.mem_singleton.mp hin])
    · exact .inr (List.mem_cons_of_mem _ hin)

lemma equals_text_right (v : Value) (s : String) : v.equals (.text s) = true ↔ v = .text s := by
  constructor
  · intro h
    exact canon_eq_text (same_iff.mp (same_of_equals h))
  · rintro rfl
    exact equals_text.mpr rfl

lemma memberOf_text {s : String} {vs : List Value} :
    (Value.text s).memberOf vs = true ↔ .text s ∈ vs := by
  constructor
  · intro h
    obtain ⟨w, hw, hsame⟩ := exists_of_memberOf h
    have htext : w = .text s := canon_eq_text (same_iff.mp hsame).symm
    exact htext ▸ hw
  · intro h
    exact memberOf_of_mem h (same_refl _)

lemma isEmpty_canonItems (items : List Value) : (canonItems items).isEmpty = items.isEmpty := by
  cases items with
  | nil => rfl
  | cons v rest => rfl

lemma isEmpty_canonMembers (members : List (String × Value)) :
    (canonMembers members).isEmpty = members.isEmpty := by
  cases members with
  | nil => rfl
  | cons m rest =>
    obtain ⟨name, v⟩ := m
    rw [canonMembers]
    cases canonMembers rest with
    | nil => rfl
    | cons n others =>
      rw [insertByName]
      split_ifs
      · rfl
      · rfl

/-- A number without a fractional part is zero only as the integer zero. -/
lemma isTruthy_float_of_toInt? {x : Double} {n : ℤ} (h : x.toInt? = some n) :
    (Value.float x).isTruthy = (n != 0) := by
  unfold Double.toInt? at h
  dsimp only at h
  by_cases hwhole : (x.isFinite && x.significand * Nat.pow 2 x.exponent.toNat %
      Nat.pow 2 (-x.exponent).toNat == 0) = true
  · rw [if_pos hwhole, Option.some.injEq] at h
    rw [Bool.and_eq_true, beq_iff_eq] at hwhole
    obtain ⟨hfinite, hrest⟩ := hwhole
    have hsize : x.significand * Nat.pow 2 x.exponent.toNat / Nat.pow 2 (-x.exponent).toNat = 0 ↔
        x.significand = 0 := by
      have hcancel := Nat.div_mul_cancel (Nat.dvd_of_mod_eq_zero hrest)
      constructor
      · intro hquotient
        rw [hquotient, Nat.zero_mul] at hcancel
        exact (Nat.mul_eq_zero.mp hcancel.symm).resolve_right
          (Nat.ne_of_gt (Nat.pow_pos Nat.zero_lt_two))
      · intro hsignificand
        rw [hsignificand, Nat.zero_mul, Nat.zero_div]
    have hexponent : (x.biasedExponent == 2047) = false := by simpa [Double.isFinite] using hfinite
    have hzero : n = 0 ↔ x.significand = 0 := by
      rw [← hsize, ← h]
      split_ifs
      · omega
      · omega
    simp only [isTruthy, Double.isNan, Double.isInfinite, hexponent, Bool.false_and, Bool.false_or]
    rw [Bool.eq_iff_iff, bne_iff_ne, bne_iff_ne, Ne, Ne, hzero]
  · rw [if_neg hwhole] at h
    cases h

/-- Whether a value is present is a matter of its content. -/
lemma isTruthy_congr {a b : Value} (h : a.same b = true) : a.isTruthy = b.isTruthy := by
  have hcanon : ∀ v : Value, v.canon.isTruthy = v.isTruthy := by
    intro v
    cases v with
    | float x =>
      rw [canon]
      cases hx : x.toInt? with
      | none => rfl
      | some n => exact (isTruthy_float_of_toInt? hx).symm
    | bool b => cases b <;> rfl
    | list items => simp only [canon, isTruthy, isEmpty_canonItems]
    | object members => simp only [canon, isTruthy, isEmpty_canonMembers]
    | _ => rfl
  rw [← hcanon a, ← hcanon b, same_iff.mp h]

/-- A loop that changes the members of the given names, each once. -/
lemma lookup_foldl {step : List (String × Value) → String → List (String × Value)}
    {change : Value → Value}
    (hstep : ∀ ms key name, lookup (step ms key) name =
      if key = name then (lookup ms name).map change else lookup ms name)
    {names : List String} (hnames : names.Nodup) (ms : List (String × Value)) (name : String) :
    lookup (names.foldl step ms) name =
      if name ∈ names then (lookup ms name).map change else lookup ms name := by
  induction names generalizing ms with
  | nil => simp
  | cons key rest ih =>
    obtain ⟨hkey, hrest⟩ := List.nodup_cons.mp hnames
    rw [List.foldl_cons, ih hrest, hstep]
    by_cases hname : key = name
    · subst hname
      simp [hkey]
    · simp [hname, Ne.symm hname]

lemma requireKey_eq_ok {v : Value} : v.requireKey = .ok () ↔ v.isKey = true := by
  rw [requireKey]
  split_ifs with h <;> simp [h]

lemma eq_object_of_members {v : Value} {operation : String} {ms : List (String × Value)}
    (h : v.members operation = .ok ms) : v = .object ms := by
  unfold members at h
  split at h
  · exact congrArg Value.object (Except.ok.inj h)
  · cases h

end NovelGraph.Value
