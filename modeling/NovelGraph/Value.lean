import NovelGraph.Decimal.Double

/-! Free-form project data: every field of a project file may hold any of these values. -/
namespace NovelGraph

/-- A JSON value. Integers are unbounded and differ from numbers with a point; the members of an
object keep the order in which they arrived. -/
inductive Value where
  | null
  | bool (b : Bool)
  | int (n : Int)
  | float (x : Double)
  | text (s : String)
  | list (items : List Value)
  | object (members : List (String × Value))
deriving Repr, Inhabited

namespace Value

mutual

/-- Identity of data: kind by kind, members in order. -/
def beq : Value → Value → Bool
  | .null, .null => true
  | .bool a, .bool b => a == b
  | .int a, .int b => a == b
  | .float a, .float b => decide (a = b)
  | .text a, .text b => a == b
  | .list a, .list b => beqItems a b
  | .object a, .object b => beqMembers a b
  | _, _ => false

def beqItems : List Value → List Value → Bool
  | [], [] => true
  | a :: as, b :: bs => a.beq b && beqItems as bs
  | _, _ => false

def beqMembers : List (String × Value) → List (String × Value) → Bool
  | [], [] => true
  | (k, a) :: as, (l, b) :: bs => k == l && a.beq b && beqMembers as bs
  | _, _ => false

end

mutual

theorem eq_of_beq : ∀ {a b : Value}, a.beq b = true → a = b
  | .null, b, h => by cases b <;> simp_all [beq]
  | .bool _, b, h => by cases b <;> simp_all [beq]
  | .int _, b, h => by cases b <;> simp_all [beq]
  | .float _, b, h => by cases b <;> simp_all [beq]
  | .text _, b, h => by cases b <;> simp_all [beq]
  | .list as, b, h => by
    cases b with
    | list bs => rw [beq] at h; rw [eq_of_beqItems h]
    | _ => simp [beq] at h
  | .object as, b, h => by
    cases b with
    | object bs => rw [beq] at h; rw [eq_of_beqMembers h]
    | _ => simp [beq] at h

theorem eq_of_beqItems : ∀ {as bs : List Value}, beqItems as bs = true → as = bs
  | [], [], _ => rfl
  | [], _ :: _, h => by simp [beqItems] at h
  | _ :: _, [], h => by simp [beqItems] at h
  | a :: as, b :: bs, h => by
    rw [beqItems, Bool.and_eq_true] at h
    rw [eq_of_beq h.1, eq_of_beqItems h.2]

theorem eq_of_beqMembers : ∀ {as bs : List (String × Value)}, beqMembers as bs = true → as = bs
  | [], [], _ => rfl
  | [], _ :: _, h => by simp [beqMembers] at h
  | _ :: _, [], h => by simp [beqMembers] at h
  | (k, a) :: as, (l, b) :: bs, h => by
    rw [beqMembers, Bool.and_eq_true, Bool.and_eq_true] at h
    rw [eq_of_beq h.1.2, eq_of_beqMembers h.2, beq_iff_eq.1 h.1.1]

end

mutual

theorem beq_rfl : ∀ a : Value, a.beq a = true
  | .null => rfl
  | .bool _ => by simp [beq]
  | .int _ => by simp [beq]
  | .float _ => by simp [beq]
  | .text _ => by simp [beq]
  | .list as => by rw [beq]; exact beqItems_rfl as
  | .object as => by rw [beq]; exact beqMembers_rfl as

theorem beqItems_rfl : ∀ as : List Value, beqItems as as = true
  | [] => rfl
  | a :: as => by rw [beqItems, beq_rfl a, beqItems_rfl as]; rfl

theorem beqMembers_rfl : ∀ as : List (String × Value), beqMembers as as = true
  | [] => rfl
  | (k, a) :: as => by rw [beqMembers, beq_rfl a, beqMembers_rfl as]; simp

end

instance : DecidableEq Value := fun a b =>
  if h : a.beq b = true then isTrue (eq_of_beq h)
  else isFalse fun e => h (e ▸ beq_rfl a)

/-- The member of a given name, where names occur once. -/
def lookup (members : List (String × Value)) (key : String) : Option Value :=
  (members.find? (·.1 == key)).map (·.2)

/-- Puts a member in the place of the one with its name, or after all others. -/
def assign : List (String × Value) → String → Value → List (String × Value)
  | [], key, v => [(key, v)]
  | m :: rest, key, v => if m.1 == key then (m.1, v) :: rest else m :: assign rest key v

theorem lookup_nil (key : String) : lookup [] key = none := rfl

theorem lookup_cons (m : String × Value) (rest : List (String × Value)) (key : String) :
    lookup (m :: rest) key = if m.1 = key then some m.2 else lookup rest key := by
  by_cases h : m.1 = key <;> simp [lookup, h]

theorem lookup_assign (members : List (String × Value)) (key name : String) (v : Value) :
    lookup (assign members key v) name =
      if key = name then some v else lookup members name := by
  induction members with
  | nil => simp [assign, lookup_cons, lookup_nil]
  | cons m rest ih =>
    simp only [assign, beq_iff_eq]
    by_cases hm : m.1 = key
    · subst hm
      by_cases hn : m.1 = name <;> simp [lookup_cons, hn]
    · by_cases hn : m.1 = name
      · subst hn
        simp [lookup_cons, hm, Ne.symm hm]
      · simp [lookup_cons, hm, hn, ih]

/-- Whether a value counts as present: all but null, false, zero and what is empty. -/
def isTruthy : Value → Bool
  | .null => false
  | .bool b => b
  | .int n => n != 0
  | .float x => x.isNan || x.isInfinite || x.significand != 0
  | .text s => !s.isEmpty
  | .list items => !items.isEmpty
  | .object members => !members.isEmpty

/-- Whether a value can serve as a key: lists and objects cannot. -/
def isKey : Value → Bool
  | .list _ => false
  | .object _ => false
  | _ => true

/-- Integer or binary64 content of a number; true and false count as one and zero. -/
inductive Number where
  | int (n : Int)
  | double (x : Double)

def number? : Value → Option Number
  | .bool b => some (.int (if b then 1 else 0))
  | .int n => some (.int n)
  | .float x => some (.double x)
  | _ => none

def Number.magnitude : Number → Magnitude
  | .int n => .ofInt n
  | .double x => .ofDouble x

end Value
end NovelGraph
