import NovelGraph.Value.Same

/-! Look-up tables whose keys are compared by content and stay in the order of their first entry. -/
namespace NovelGraph

abbrev Dict (α : Type) := List (Value × α)

namespace Dict

variable {α : Type}

def get? (d : Dict α) (key : Value) : Option α := (d.find? (key.same ·.1)).map (·.2)

def contains (d : Dict α) (key : Value) : Bool := d.any (key.same ·.1)

/-- Puts an entry in the place of the one with its key, or after all others. -/
def set : Dict α → Value → α → Dict α
  | [], key, a => [(key, a)]
  | e :: rest, key, a => if key.same e.1 then (e.1, a) :: rest else e :: set rest key a

/-- Changes the entry of a key, which is `empty` before the first change. -/
def update (d : Dict α) (key : Value) (empty : α) (f : α → α) : Dict α :=
  d.set key (f ((d.get? key).getD empty))

/-- A table of items by a key of theirs; of two items with one key the later stays. -/
def ofItems {β : Type} (key : β → Value) (items : List β) : Dict β :=
  items.foldl (fun d i => d.set (key i) i) []

theorem get?_nil (key : Value) : get? ([] : Dict α) key = none := rfl

theorem get?_cons (e : Value × α) (rest : Dict α) (key : Value) :
    get? (e :: rest) key = if key.same e.1 = true then some e.2 else get? rest key := by
  cases h : key.same e.1 <;> simp [get?, h]

theorem get?_set (d : Dict α) (key other : Value) (a : α) :
    get? (set d key a) other = if other.same key = true then some a else get? d other := by
  induction d with
  | nil => simp [set, get?_cons, get?_nil]
  | cons e rest ih =>
    simp only [set]
    by_cases h : key.same e.1 = true
    · rw [if_pos h, get?_cons, get?_cons]
      by_cases g : other.same key = true
      · rw [if_pos g, if_pos (Value.same_trans g h)]
      · rw [if_neg g, if_neg (fun c => g (Value.same_trans c (Value.same_symm h))),
          if_neg (fun c => g (Value.same_trans c (Value.same_symm h)))]
    · rw [if_neg h, get?_cons, get?_cons, ih]
      by_cases g : other.same e.1 = true
      · rw [if_pos g, if_pos g, if_neg (fun c => h (Value.same_trans (Value.same_symm c) g))]
      · rw [if_neg g, if_neg g]

end Dict
end NovelGraph
