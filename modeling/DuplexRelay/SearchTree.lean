/-!
# Search trees

An unbalanced binary search tree whose nodes carry a key and the number of the slot that holds
the rest of the entry. Keys are compared with a given three-way comparison, and keys that compare
as equal are the same key. Descents follow the comparison; the in-order list `toList` is the view
that the operations are described by.
-/

namespace DuplexRelay

/-- A binary tree of keys with slot numbers. -/
inductive SearchTree (K : Type) where
  | leaf
  | node (left : SearchTree K) (key : K) (slot : Nat) (right : SearchTree K)

namespace SearchTree

variable {K : Type}

def toList : SearchTree K → List (K × Nat)
  | leaf => []
  | node left key slot right => left.toList ++ (key, slot) :: right.toList

def find? (cmp : K → K → Ordering) (key : K) : SearchTree K → Option Nat
  | leaf => none
  | node left k slot right =>
    match cmp key k with
    | .lt => left.find? cmp key
    | .gt => right.find? cmp key
    | .eq => some slot

/-- Adds a node below the leaf that the descent for `key` ends in. A key that is present already
is left alone. -/
def insert (cmp : K → K → Ordering) (key : K) (slot : Nat) : SearchTree K → SearchTree K
  | leaf => node leaf key slot leaf
  | node left k s right =>
    match cmp key k with
    | .lt => node (left.insert cmp key slot) k s right
    | .gt => node left k s (right.insert cmp key slot)
    | .eq => node left k s right

def first? : SearchTree K → Option Nat
  | leaf => none
  | node leaf _ slot _ => some slot
  | node left _ _ _ => left.first?

/-- The slot of the smallest key above `key`. -/
def above? (cmp : K → K → Ordering) (key : K) : SearchTree K → Option Nat
  | leaf => none
  | node left k slot right =>
    match cmp key k with
    | .lt => (left.above? cmp key).or (some slot)
    | _ => right.above? cmp key

/-- Hangs a tree below the rightmost node of another. -/
def hang (under : SearchTree K) : SearchTree K → SearchTree K
  | leaf => under
  | node left k s right => node left k s (hang under right)

/-- Removes the node of a key. Its left subtree takes its place, with the right subtree hung below
that one's rightmost node. -/
def erase (cmp : K → K → Ordering) (key : K) : SearchTree K → SearchTree K
  | leaf => leaf
  | node left k s right =>
    match cmp key k with
    | .lt => node (left.erase cmp key) k s right
    | .gt => node left k s (right.erase cmp key)
    | .eq => hang right left

@[simp] theorem toList_leaf : (leaf : SearchTree K).toList = [] := rfl

@[simp] theorem toList_node (left right : SearchTree K) (key : K) (slot : Nat) :
    (node left key slot right).toList = left.toList ++ (key, slot) :: right.toList := rfl

theorem toList_hang (under tree : SearchTree K) :
    (hang under tree).toList = tree.toList ++ under.toList := by
  induction tree with
  | leaf => rfl
  | node left k s right _ ih => simp [hang, ih]

end SearchTree

end DuplexRelay
