import NovelGraph.Value

/-! Equality of values by content: numbers by size, objects without regard to member order. -/
namespace NovelGraph.Value

/-- Inserts a member before the first one with a larger name. -/
def insertByName (m : String × Value) : List (String × Value) → List (String × Value)
  | [] => [m]
  | n :: rest => if m.1 < n.1 then m :: n :: rest else n :: insertByName m rest

mutual

/-- The representative of a value: whole numbers as integers, members sorted by name. -/
def canon : Value → Value
  | .bool b => .int (if b then 1 else 0)
  | .float x =>
    match x.toInt? with
    | some n => .int n
    | none => .float x
  | .list items => .list (canonItems items)
  | .object members => .object (canonMembers members)
  | v => v

def canonItems : List Value → List Value
  | [] => []
  | v :: rest => v.canon :: canonItems rest

def canonMembers : List (String × Value) → List (String × Value)
  | [] => []
  | (k, v) :: rest => insertByName (k, v.canon) (canonMembers rest)

end

/-- Equal by content; a not-a-number is the same as itself. -/
def same (a b : Value) : Bool := decide (a.canon = b.canon)

@[simp] theorem same_iff {a b : Value} : a.same b = true ↔ a.canon = b.canon := by simp [same]

theorem same_refl (a : Value) : a.same a = true := by simp

theorem same_symm {a b : Value} (h : a.same b = true) : b.same a = true := by
  rw [same_iff] at *
  exact h.symm

theorem same_trans {a b c : Value} (h : a.same b = true) (g : b.same c = true) :
    a.same c = true := by
  rw [same_iff] at *
  exact h.trans g

@[simp] theorem canon_text (s : String) : (Value.text s).canon = .text s := by
  simp [canon]

theorem same_text {s t : String} : (Value.text s).same (.text t) = true ↔ s = t := by simp

/-- Equal as numbers and texts are: like `same`, but no not-a-number is equal to anything. -/
def equals (a b : Value) : Bool :=
  a.same b && match a with
    | .float x => !x.isNan
    | _ => true

theorem equals_text {s t : String} : (Value.text s).equals (.text t) = true ↔ s = t := by
  simp [equals]

/-- Whether a list holds a value. -/
def memberOf (v : Value) (vs : List Value) : Bool := vs.any (v.same ·)

theorem memberOf_iff {v : Value} {vs : List Value} :
    v.memberOf vs = true ↔ v.canon ∈ vs.map canon := by
  rw [memberOf, List.any_eq_true, List.mem_map]
  exact ⟨fun ⟨w, hw, h⟩ => ⟨w, hw, (same_iff.1 h).symm⟩, fun ⟨w, hw, h⟩ => ⟨w, hw, same_iff.2 h.symm⟩⟩

end NovelGraph.Value
