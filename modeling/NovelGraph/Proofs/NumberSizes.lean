import Mathlib.Order.WithBot
import Mathlib.Tactic.Linarith
import NovelGraph.Proofs.GridPlaces

/-! The sizes of numbers. Integers and binary64 numbers are compared by size, as fractions with an
end on either side, and two of them are the same exactly if they are equally large: a binary64
number is settled by its sign, its significand and its exponent, and these by its size. So places
with numbers for coordinates are ordered, from top to bottom and from left to right. -/
namespace NovelGraph

/-- Fractions, with something below and something above all of them. -/
abbrev Size := WithBot (WithTop ℚ)

namespace Double

variable {x y : Double}

lemma significand_lt (x : Double) : x.significand < 2 ^ 53 := by
  have hfraction : x.fraction < 2 ^ 52 := Nat.mod_lt _ (by decide)
  unfold significand
  rw [Nat.pow_eq]
  split_ifs <;> omega

lemma le_exponent (x : Double) : -1074 ≤ x.exponent := by
  unfold exponent
  omega

/-- Above the least exponent numbers have the highest digit set. -/
lemma le_significand (h : -1074 < x.exponent) : 2 ^ 52 ≤ x.significand := by
  unfold exponent at h
  unfold significand
  have hexponent : x.biasedExponent ≠ 0 := by omega
  rw [if_neg hexponent]
  exact Nat.le_add_left _ _

/-- The parts of a number make up its bits. -/
lemma eq_of_parts (hsign : x.isNegative = y.isNegative)
    (hexponent : x.biasedExponent = y.biasedExponent) (hfraction : x.fraction = y.fraction) :
    x = y := by
  have hx := x.bits.toNat_lt
  have hy := y.bits.toNat_lt
  simp only [isNegative, biasedExponent, fraction, Nat.pow_eq, decide_eq_decide] at *
  have hbits : x.bits.toNat = y.bits.toNat := by omega
  cases x
  cases y
  simpa [UInt64.toNat_inj] using hbits

/-- Equal products have equal exponents: the significands have room for one of them only. -/
lemma exponent_le_of_value_eq
    (h : (x.significand : ℚ) * 2 ^ x.exponent = (y.significand : ℚ) * 2 ^ y.exponent) :
    y.exponent ≤ x.exponent := by
  by_contra hlt
  rw [not_le] at hlt
  obtain ⟨k, hk⟩ : ∃ k : ℕ, y.exponent = x.exponent + (k + 1 : ℕ) :=
    ⟨(y.exponent - x.exponent - 1).toNat, by omega⟩
  have hscale : (x.significand : ℚ) = y.significand * 2 ^ (k + 1) := by
    have hpos : (2 : ℚ) ^ x.exponent ≠ 0 := zpow_ne_zero _ (by norm_num)
    rw [hk, zpow_add₀ (by norm_num), zpow_natCast, mul_comm (2 ^ x.exponent), ← mul_assoc] at h
    exact mul_right_cancel₀ hpos h
  have hnat : x.significand = y.significand * 2 ^ (k + 1) := by exact_mod_cast hscale
  have hlarge : 2 ^ 52 ≤ y.significand := le_significand ((le_exponent x).trans_lt hlt)
  have hsmall := significand_lt x
  have hdouble : 2 * y.significand ≤ y.significand * 2 ^ (k + 1) := by
    rw [pow_succ, ← mul_assoc, mul_comm]
    exact Nat.mul_le_mul_right 2 (Nat.le_mul_of_pos_right _ (by positivity))
  omega

/-- Numbers of one sign are equal if they are equally large. -/
lemma eq_of_value_eq (hsign : x.isNegative = y.isNegative)
    (h : (x.significand : ℚ) * 2 ^ x.exponent = (y.significand : ℚ) * 2 ^ y.exponent) : x = y := by
  have hexponent : x.exponent = y.exponent :=
    le_antisymm (exponent_le_of_value_eq h.symm) (exponent_le_of_value_eq h)
  have hsignificand : x.significand = y.significand := by
    rw [hexponent] at h
    exact_mod_cast mul_right_cancel₀ (zpow_ne_zero _ (by norm_num)) h
  have hx : x.fraction < 2 ^ 52 := Nat.mod_lt _ (by decide)
  have hy : y.fraction < 2 ^ 52 := Nat.mod_lt _ (by decide)
  unfold exponent at hexponent
  unfold significand at hsignificand
  simp only [Nat.pow_eq] at hsignificand
  have hparts : x.biasedExponent = y.biasedExponent ∧ x.fraction = y.fraction := by
    split_ifs at hsignificand <;> omega
  exact eq_of_parts hsign hparts.1 hparts.2

end Double

namespace Magnitude

variable {a b : Magnitude}

/-- How large a number is. What is no number counts as the least. -/
def size : Magnitude → Size
  | .finite m e => (((m : ℚ) * 2 ^ e : ℚ) : WithTop ℚ)
  | .infinite false => ((⊤ : WithTop ℚ) : Size)
  | .infinite true => ⊥
  | .nan => ⊥

def isNumber : Magnitude → Bool
  | .nan => false
  | _ => true

/-- The size of a fraction is that fraction. -/
lemma size_eq_coe {q : ℚ} : a.size = ((q : WithTop ℚ) : Size) ↔ a.Is q := by
  cases a with
  | finite m e => rw [size, Is, WithBot.coe_inj, WithTop.coe_inj]
  | infinite negative => cases negative <;> simp [size, Is]
  | nan => simp [size, Is]

/-- Numbers are compared by their sizes. -/
lemma lt_eq_size (ha : a.isNumber = true) (hb : b.isNumber = true) :
    a.lt b = decide (a.size < b.size) := by
  cases a with
  | nan => cases ha
  | finite m d =>
    cases b with
    | nan => cases hb
    | finite n e =>
      rw [lt, size, size, Bool.eq_iff_iff, finiteLt_iff, decide_eq_true_eq, WithBot.coe_lt_coe,
        WithTop.coe_lt_coe]
    | infinite negative =>
      cases negative with
      | true => exact (decide_eq_false not_lt_bot).symm
      | false => exact (decide_eq_true (WithBot.coe_lt_coe.mpr (WithTop.coe_lt_top _))).symm
  | infinite negative =>
    cases b with
    | nan => cases hb
    | finite n e =>
      cases negative with
      | true => exact (decide_eq_true (WithBot.bot_lt_coe _)).symm
      | false => exact (decide_eq_false (not_lt.mpr (WithBot.coe_le_coe.mpr le_top))).symm
    | infinite other => cases negative <;> cases other <;> simp [lt, size]

lemma ofDouble_of_isFinite {x : Double} (h : x.isFinite = true) :
    ofDouble x = .finite (if x.isNegative then -(x.significand : ℤ) else x.significand)
      x.exponent := if_pos h

/-- A number as large as an integer is that integer. -/
lemma toInt?_of_is {x : Double} {n : ℤ} (h : (ofDouble x).Is n) : x.toInt? = some n := by
  have hfinite : x.isFinite = true := by
    by_contra hinf
    unfold ofDouble at h
    rw [if_neg hinf] at h
    split_ifs at h <;> exact h.elim
  have hwhole : x.significand * Nat.pow 2 x.exponent.toNat % Nat.pow 2 (-x.exponent).toNat = 0 := by
    rcases le_or_gt 0 x.exponent with hle | hlt
    · have hshift : (-x.exponent).toNat = 0 := by omega
      simp [hshift, Nat.mod_one]
    · obtain ⟨k, hk⟩ : ∃ k : ℕ, x.exponent = -(k : ℤ) := ⟨(-x.exponent).toNat, by omega⟩
      have hsize : (x.significand : ℚ) = n.natAbs * 2 ^ k := by
        rw [ofDouble_of_isFinite hfinite, Is, hk, zpow_neg, zpow_natCast,
          mul_inv_eq_iff_eq_mul₀ (by positivity)] at h
        have habs : ((n.natAbs : ℤ) : ℚ) * 2 ^ k = |(n : ℚ) * 2 ^ k| := by
          rw [abs_mul, abs_of_pos (by positivity : (0 : ℚ) < 2 ^ k), Int.natCast_natAbs,
            Int.cast_abs]
        rw [← Int.cast_natCast n.natAbs, habs, ← h]
        cases x.isNegative <;> simp
      have hnat : x.significand = n.natAbs * 2 ^ k := by exact_mod_cast hsize
      simp [hk, hnat]
  have hsome : ∃ m, x.toInt? = some m := by
    unfold Double.toInt?
    simp only [hfinite, hwhole]
    exact ⟨_, rfl⟩
  obtain ⟨m, hm⟩ := hsome
  have hmn : (m : ℚ) = n := by
    have hboth := (size_eq_coe.mpr (ofDouble_is hm)).symm.trans (size_eq_coe.mpr h)
    exact_mod_cast hboth
  rw [hm, Int.cast_injective hmn]

/-- Infinite numbers of one sign are equal. -/
lemma ofDouble_of_not_isFinite {x : Double} (h : x.isFinite = false)
    (hn : (ofDouble x).isNumber = true) :
    ofDouble x = .infinite x.isNegative ∧ x.biasedExponent = 2047 ∧ x.fraction = 0 := by
  have hexponent : x.biasedExponent = 2047 := by simpa [Double.isFinite] using h
  have hnan : x.isNan = false := by
    by_contra hnan
    simp [ofDouble, h, Bool.not_eq_false _ ▸ hnan, isNumber] at hn
  have hfraction : x.fraction = 0 := by simpa [Double.isNan, hexponent] using hnan
  exact ⟨by simp [ofDouble, h, hnan], hexponent, hfraction⟩

/-- Finite numbers that are equally large are equal, unless they are zeros. -/
lemma eq_of_finite_size_eq {x y : Double} (hx : x.isFinite = true) (hy : y.isFinite = true)
    (hzero : x.toInt? ≠ some 0) (h : (ofDouble x).size = (ofDouble y).size) : x = y := by
  rw [ofDouble_of_isFinite hx, ofDouble_of_isFinite hy, size, size, WithBot.coe_inj,
    WithTop.coe_inj] at h
  have hvalue : (x.significand : ℚ) * 2 ^ x.exponent ≠ 0 := by
    refine fun hvalue => hzero (toInt?_of_is ?_)
    rw [ofDouble_of_isFinite hx, Is]
    cases x.isNegative <;> simpa using hvalue
  have hxpos : 0 ≤ (x.significand : ℚ) * 2 ^ x.exponent := by positivity
  have hypos : 0 ≤ (y.significand : ℚ) * 2 ^ y.exponent := by positivity
  have hsign : x.isNegative = y.isNegative := by
    by_contra hne
    refine hvalue ?_
    cases hxs : x.isNegative <;> cases hys : y.isNegative <;>
      simp [hxs, hys] at h hne <;> linarith
  refine Double.eq_of_value_eq hsign ?_
  cases hys : y.isNegative <;> simpa [hsign, hys] using h

/-- Numbers that are no integers are equal if they are equally large. -/
lemma eq_of_size_eq {x y : Double} (hx : x.toInt? = none) (hxn : (ofDouble x).isNumber = true)
    (hyn : (ofDouble y).isNumber = true) (h : (ofDouble x).size = (ofDouble y).size) : x = y := by
  cases hxf : x.isFinite with
  | false =>
    obtain ⟨hxo, hxe, hxm⟩ := ofDouble_of_not_isFinite hxf hxn
    cases hyf : y.isFinite with
    | false =>
      obtain ⟨hyo, hye, hym⟩ := ofDouble_of_not_isFinite hyf hyn
      refine Double.eq_of_parts ?_ (hxe.trans hye.symm) (hxm.trans hym.symm)
      rw [hxo, hyo] at h
      cases hxs : x.isNegative <;> cases hys : y.isNegative <;> simp [hxs, hys, size] at h ⊢
    | true =>
      rw [hxo, ofDouble_of_isFinite hyf] at h
      cases hxs : x.isNegative <;> simp [hxs, size] at h
  | true =>
    cases hyf : y.isFinite with
    | false =>
      obtain ⟨hyo, -, -⟩ := ofDouble_of_not_isFinite hyf hyn
      rw [hyo, ofDouble_of_isFinite hxf] at h
      cases hys : y.isNegative <;> simp [hys, size] at h
    | true => exact eq_of_finite_size_eq hxf hyf (by simp [hx]) h

end Magnitude

namespace Value

variable {v w : Value}

/-- Whether a value is a number and not a not-a-number. -/
def isReal (v : Value) : Bool := v.number?.any (·.magnitude.isNumber)

/-- How large a number is. -/
def numberSize (v : Value) : Size :=
  match v.number? with
  | some n => n.magnitude.size
  | none => ⊥

lemma exists_number (h : v.isReal = true) :
    ∃ n, v.number? = some n ∧ n.magnitude.isNumber = true ∧ v.numberSize = n.magnitude.size := by
  unfold isReal at h
  unfold numberSize
  cases hn : v.number? with
  | none => simp [hn] at h
  | some n => exact ⟨n, rfl, by simpa [hn] using h, rfl⟩

lemma lessThan_eq_size (hv : v.isReal = true) (hw : w.isReal = true) :
    v.lessThan w = .ok (decide (v.numberSize < w.numberSize)) := by
  obtain ⟨m, hm, hmn, hvm⟩ := exists_number hv
  obtain ⟨n, hn, hnn, hwn⟩ := exists_number hw
  rw [hvm, hwn, ← Magnitude.lt_eq_size hmn hnn]
  cases v <;> simp_all [number?, Value.lessThan]

lemma IsWhole.numberSize (h : v.IsWhole) :
    v.numberSize = (((v.whole : ℚ) : WithTop ℚ) : Size) := by
  obtain ⟨n, hn, his⟩ := h.number
  rw [Value.numberSize, hn]
  exact Magnitude.size_eq_coe.mpr his

/-- An integer is no number that is none, and not as large. -/
lemma IsWhole.ne_float (hv : v.IsWhole) {x : Double} (hx : x.toInt? = none) :
    v.canon ≠ (Value.float x).canon ∧ v.numberSize ≠ (Value.float x).numberSize := by
  constructor
  · rw [hv]
    simp [canon, hx]
  · intro hsize
    rw [hv.numberSize] at hsize
    rw [Magnitude.toInt?_of_is (Magnitude.size_eq_coe.mp hsize.symm)] at hx
    cases hx

/-- A number is an integer, or a binary64 number that is none. -/
lemma isWhole_or_float (h : v.isReal = true) :
    v.IsWhole ∨ ∃ x : Double, v = .float x ∧ x.toInt? = none := by
  cases v with
  | bool b => exact .inl (by simp [IsWhole, whole, canon])
  | int n => exact .inl (isWhole_int n).1
  | float x =>
    cases hx : x.toInt? with
    | some n => exact .inl (by simp [IsWhole, whole, canon, hx])
    | none => exact .inr ⟨x, rfl, hx⟩
  | _ => cases h

/-- Numbers are the same exactly if they are equally large. -/
lemma same_eq_size (hv : v.isReal = true) (hw : w.isReal = true) :
    v.same w = decide (v.numberSize = w.numberSize) := by
  rw [Bool.eq_iff_iff, same_iff, decide_eq_true_eq]
  rcases isWhole_or_float hv with hvw | ⟨x, rfl, hx⟩
  · rcases isWhole_or_float hw with hww | ⟨y, rfl, hy⟩
    · rw [hvw.numberSize, hww.numberSize, hvw, hww]
      simp
    · exact iff_of_false (hvw.ne_float hy).1 (hvw.ne_float hy).2
  · rcases isWhole_or_float hw with hww | ⟨y, rfl, hy⟩
    · exact iff_of_false (hww.ne_float hx).1.symm (hww.ne_float hx).2.symm
    · simp only [canon, hx, hy, Value.float.injEq]
      exact ⟨fun h => by rw [h], Magnitude.eq_of_size_eq hx hv hw⟩

end Value

namespace Order

/-- A place with numbers for coordinates. -/
def place (p : Value × Value) : Size ×ₗ Size := toLex (p.1.numberSize, p.2.numberSize)

/-- Places are compared from top to bottom and from left to right. -/
lemma pairLess_eq_place {p q : Value × Value} (hp : p.1.isReal = true ∧ p.2.isReal = true)
    (hq : q.1.isReal = true ∧ q.2.isReal = true) :
    pairLess p q = .ok (decide (place p < place q)) := by
  rw [pairLess, Value.same_eq_size hp.1 hq.1, Value.same_eq_size hp.2 hq.2,
    Value.lessThan_eq_size hp.1 hq.1, Value.lessThan_eq_size hp.2 hq.2]
  simp only [place, Prod.Lex.toLex_lt_toLex, decide_eq_true_eq]
  by_cases hfirst : p.1.numberSize = q.1.numberSize
  · by_cases hsecond : p.2.numberSize = q.2.numberSize
    · simp [hfirst, hsecond]
    · simp [hfirst, hsecond]
  · simp [hfirst]

/-- Items at places with numbers for coordinates can be sorted. -/
lemma sortOn_place {α : Type} {spot : α → Value × Value} {items : List α}
    (h : ∀ a ∈ items, (spot a).1.isReal = true ∧ (spot a).2.isReal = true) :
    sortOn spot pairLess items = .ok (byKey (fun a => place (spot a)) items) :=
  sort_eq_byKey fun a ha b hb => pairLess_eq_place (h a ha) (h b hb)

end Order
end NovelGraph
