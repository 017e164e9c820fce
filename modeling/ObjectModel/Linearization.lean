/-! The C3 merge of several orders into one: take the first head that stands behind no other
name, and go on without it. -/
namespace ObjectModel.Linearization

variable {α : Type} [DecidableEq α]

/-- The first names of the orders that have one, in the order of the orders. -/
def heads (orders : List (List α)) : List α := orders.filterMap List.head?

/-- Whether a name stands behind another one in some order. -/
def blocked (orders : List (List α)) (name : α) : Bool :=
  orders.any fun order => order.tail.contains name

def strip (name : α) : List α → List α
  | [] => []
  | head :: rest => if head = name then rest else head :: rest

/-- Merges with at most the given number of names to take; the heads left when each of them is
blocked are the error. -/
def mergeUpTo : Nat → List (List α) → Except (List α) (List α)
  | 0, _ => .ok []
  | count + 1, orders =>
    match heads orders with
    | [] => .ok []
    | first :: rest =>
      match (first :: rest).find? fun name => !blocked orders name with
      | none => .error (first :: rest)
      | some name =>
        match mergeUpTo count (orders.map (strip name)) with
        | .error stuck => .error stuck
        | .ok merged => .ok (name :: merged)

def size : List (List α) → Nat
  | [] => 0
  | order :: rest => order.length + size rest

/-- The C3 merge. Every step shortens some order, so there are at most as many steps as names. -/
def merge (orders : List (List α)) : Except (List α) (List α) :=
  mergeUpTo (size orders) orders

end ObjectModel.Linearization
