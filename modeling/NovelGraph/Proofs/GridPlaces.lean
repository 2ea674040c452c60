import Mathlib.Algebra.Field.Rat
import Mathlib.Algebra.Order.Field.Power
import Mathlib.Algebra.Order.Ring.Rat
import Mathlib.Data.Nat.Cast.Field
import Mathlib.Data.Prod.Lex
import Mathlib.Tactic.NormNum
import NovelGraph.Proofs.Measured
import NovelGraph.Proofs.SortingByKey

/-! Places on the grid of the integers. Binary64 numbers are compared as the fractions that they
are, so coordinates without a fractional part compare as integers, whichever way they are written,
and sorting by place then puts the least place first. -/
namespace NovelGraph

open Outcome

namespace Magnitude

/-- Finite numbers are compared exactly. -/
lemma finiteLt_iff (a d b e : ℤ) :
    finiteLt a d b e = true ↔ (a : ℚ) * 2 ^ d < (b : ℚ) * 2 ^ e := by
  have hscale : ∀ m k : ℤ, min d e ≤ k →
      (m : ℚ) * 2 ^ k = ((m * Int.pow 2 (k - min d e).toNat : ℤ) : ℚ) * 2 ^ min d e := by
    intro m k hk
    have hcast : ((Int.pow 2 (k - min d e).toNat : ℤ) : ℚ) = 2 ^ (k - min d e) := by
      rw [Int.pow_eq, Int.cast_pow, Int.cast_ofNat, ← zpow_natCast, Int.toNat_of_nonneg (by omega)]
    rw [Int.cast_mul, hcast, mul_assoc, ← zpow_add₀ (by norm_num), sub_add_cancel]
  have hpos : (0 : ℚ) < 2 ^ min d e := zpow_pos (by norm_num) _
  rw [finiteLt, decide_eq_true_eq, hscale a d (min_le_left _ _), hscale b e (min_le_right _ _),
    mul_lt_mul_iff_left₀ hpos, Int.cast_lt]

/-- A quotient of powers that is exact is a power. -/
lemma cast_div_pow {m : ℕ} (e : ℤ) (h : m * Nat.pow 2 e.toNat % Nat.pow 2 (-e).toNat = 0) :
    (((m * Nat.pow 2 e.toNat / Nat.pow 2 (-e).toNat : ℕ) : ℤ) : ℚ) = (m : ℚ) * 2 ^ e := by
  rw [Int.cast_natCast, Nat.cast_div (Nat.dvd_of_mod_eq_zero h) (by simp)]
  simp only [Nat.pow_eq, Nat.cast_mul, Nat.cast_pow, Nat.cast_ofNat]
  rw [← zpow_natCast, ← zpow_natCast, mul_div_assoc, ← zpow_sub₀ (by norm_num)]
  congr 2
  omega

/-- The magnitude of a fraction. -/
def Is (q : ℚ) : Magnitude → Prop
  | .finite m e => (m : ℚ) * 2 ^ e = q
  | _ => False

lemma lt_of_is {p q : ℚ} {a b : Magnitude} (ha : a.Is p) (hb : b.Is q) :
    a.lt b = decide (p < q) := by
  cases a with
  | finite m d =>
    cases b with
    | finite n e =>
      rw [Is] at ha hb
      rw [lt, Bool.eq_iff_iff, finiteLt_iff, decide_eq_true_eq, ha, hb]
    | infinite => exact hb.elim
    | nan => exact hb.elim
  | infinite => exact ha.elim
  | nan => exact ha.elim

/-- A number without a fractional part has the magnitude of an integer. -/
lemma ofDouble_is {x : Double} {n : ℤ} (h : x.toInt? = some n) : (ofDouble x).Is n := by
  unfold Double.toInt? at h
  dsimp only at h
  by_cases hwhole : (x.isFinite && x.significand * Nat.pow 2 x.exponent.toNat %
      Nat.pow 2 (-x.exponent).toNat == 0) = true
  · rw [if_pos hwhole, Option.some.injEq] at h
    rw [Bool.and_eq_true, beq_iff_eq] at hwhole
    have hdiv := cast_div_pow x.exponent hwhole.2
    rw [ofDouble, if_pos hwhole.1, Is, ← h]
    cases x.isNegative with
    | true => simpa using hdiv.symm
    | false => simpa using hdiv.symm
  · rw [if_neg hwhole] at h
    cases h

end Magnitude

namespace Value

/-- The integer that a number without a fractional part is. -/
def whole (v : Value) : ℤ :=
  match v.canon with
  | .int n => n
  | _ => 0

/-- A number without a fractional part. -/
def IsWhole (v : Value) : Prop := v.canon = .int v.whole

instance (v : Value) : Decidable v.IsWhole := inferInstanceAs (Decidable (_ = _))

lemma isWhole_int (n : ℤ) : (Value.int n).IsWhole ∧ (Value.int n).whole = n := by
  simp [IsWhole, whole, canon]

lemma IsWhole.number {v : Value} (h : v.IsWhole) :
    ∃ n, v.number? = some n ∧ n.magnitude.Is v.whole := by
  rw [IsWhole] at h
  cases v with
  | bool b =>
    refine ⟨_, rfl, ?_⟩
    simp [Number.magnitude, Magnitude.ofInt, Magnitude.Is, whole, canon]
  | int n =>
    refine ⟨_, rfl, ?_⟩
    simp [Number.magnitude, Magnitude.ofInt, Magnitude.Is, whole, canon]
  | float x =>
    refine ⟨_, rfl, Magnitude.ofDouble_is ?_⟩
    rw [canon] at h
    split at h
    · rename_i n hn
      rw [hn, Value.int.inj h]
    · cases h
  | _ => simp [canon] at h

lemma IsWhole.lessThan {a b : Value} (ha : a.IsWhole) (hb : b.IsWhole) :
    a.lessThan b = .ok (decide (a.whole < b.whole)) := by
  obtain ⟨m, hm, hma⟩ := ha.number
  obtain ⟨n, hn, hnb⟩ := hb.number
  have hlt : m.magnitude.lt n.magnitude = decide (a.whole < b.whole) := by
    rw [Magnitude.lt_of_is hma hnb]
    simp only [Int.cast_lt]
  rw [← hlt]
  cases a <;> simp_all [number?, Value.lessThan]

lemma IsWhole.same {a b : Value} (ha : a.IsWhole) (hb : b.IsWhole) :
    a.same b = decide (a.whole = b.whole) := by
  rw [Value.same, ha, hb]
  simp only [Value.int.injEq]

end Value

namespace Order

/-- The place of a pair of whole numbers. -/
def grid (p : Value × Value) : ℤ ×ₗ ℤ := toLex (p.1.whole, p.2.whole)

lemma pairLess_eq_grid {p q : Value × Value} (hp : p.1.IsWhole ∧ p.2.IsWhole)
    (hq : q.1.IsWhole ∧ q.2.IsWhole) : pairLess p q = .ok (decide (grid p < grid q)) := by
  rw [pairLess, hp.1.same hq.1, hp.2.same hq.2, hp.1.lessThan hq.1, hp.2.lessThan hq.2]
  simp only [grid, Prod.Lex.toLex_lt_toLex, decide_eq_true_eq]
  by_cases hfirst : p.1.whole = q.1.whole
  · by_cases hsecond : p.2.whole = q.2.whole
    · simp [hfirst, hsecond]
    · simp [hfirst, hsecond]
  · simp [hfirst]

/-- Items at places with whole coordinates are sorted from the least place up. -/
lemma sortOn_grid {α : Type} {key : α → Value × Value}
    (hkey : ∀ a, (key a).1.IsWhole ∧ (key a).2.IsWhole) {items out : List α}
    (h : sortOn key pairLess items = .ok out) :
    out.Pairwise fun a b => grid (key a) ≤ grid (key b) := by
  have hsort : sortOn key pairLess items = .ok (byKey (fun a => grid (key a)) items) :=
    sort_eq_byKey fun a _ b _ => pairLess_eq_grid (hkey a) (hkey b)
  cases hsort.symm.trans h
  exact byKey_sorted _ _

end Order
end NovelGraph
