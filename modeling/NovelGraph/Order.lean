import NovelGraph.Fault
import NovelGraph.Value.Same

/-! Stable sorting by a comparison that may fail. -/
namespace NovelGraph.Order

variable {α : Type}

/-- Where an item belongs in a sorted list: behind everything it is not less than. The interval
`[low, high)` of candidates is halved until nothing is left of it. -/
def insertionPoint (lt : α → α → Except Fault Bool) (item : α) (sorted : List α) :
    Nat → Nat → Nat → Except Fault Nat
  | 0, low, _ => .ok low
  | fuel + 1, low, high =>
    if high ≤ low then .ok low else
      let middle := low + (high - low) / 2
      match sorted[middle]? with
      | none => .ok low
      | some other => do
        if ← lt item other then insertionPoint lt item sorted fuel low middle
        else insertionPoint lt item sorted fuel (middle + 1) high

def insert (lt : α → α → Except Fault Bool) (sorted : List α) (item : α) :
    Except Fault (List α) := do
  let n ← insertionPoint lt item sorted sorted.length 0 sorted.length
  pure (sorted.take n ++ item :: sorted.drop n)

/-- The rest of an ascending run that ends in `last`, and what follows it. -/
def ascendingRun (lt : α → α → Except Fault Bool) (last : α) :
    List α → Except Fault (List α × List α)
  | [] => .ok ([], [])
  | a :: rest => do
    if ← lt a last then pure ([], a :: rest)
    else
      let (run, others) ← ascendingRun lt a rest
      pure (a :: run, others)

/-- The rest of a strictly descending run that ends in `last`, and what follows it. -/
def descendingRun (lt : α → α → Except Fault Bool) (last : α) :
    List α → Except Fault (List α × List α)
  | [] => .ok ([], [])
  | a :: rest => do
    if ← lt a last then
      let (run, others) ← descendingRun lt a rest
      pure (a :: run, others)
    else pure ([], a :: rest)

/-- The list in ascending order, equal items in their old order. The run at its head is kept, or
turned round if it descends, and the remaining items are inserted one by one. -/
def sort (lt : α → α → Except Fault Bool) : List α → Except Fault (List α)
  | [] => .ok []
  | [a] => .ok [a]
  | a :: b :: rest => do
    if ← lt b a then
      let (run, others) ← descendingRun lt b rest
      others.foldlM (insert lt) (a :: b :: run).reverse
    else
      let (run, others) ← ascendingRun lt b rest
      others.foldlM (insert lt) (a :: b :: run)

/-- The list in ascending order of a key. -/
def sortOn {κ : Type} (key : α → κ) (lt : κ → κ → Except Fault Bool) (items : List α) :
    Except Fault (List α) :=
  sort (fun a b => lt (key a) (key b)) items

/-- The list in ascending order of a key, for an order that never fails. -/
def sortByKey {κ : Type} (key : α → κ) (lt : κ → κ → Bool) (items : List α) : List α :=
  match sortOn key (fun a b => .ok (lt a b)) items with
  | .ok sorted => sorted
  | .error _ => items

/-- Texts in the order of their code points. -/
def sortTexts (texts : List String) : List String := sortByKey id (fun a b => decide (a < b)) texts

/-- Values in ascending order. -/
def sortValues (values : List Value) : Except Fault (List Value) := sort Value.lessThan values

/-- Pairs in the order of their first components, equal ones by the second. -/
def pairLess (a b : Value × Value) : Except Fault Bool :=
  if a.1.same b.1 then
    if a.2.same b.2 then .ok false else a.2.lessThan b.2
  else a.1.lessThan b.1

end NovelGraph.Order
