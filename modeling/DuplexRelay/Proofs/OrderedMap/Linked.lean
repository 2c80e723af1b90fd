import DuplexRelay.Proofs.OrderedMap.Queries
import DuplexRelay.Proofs.SearchTree.Place

/-! Ordered maps whose tree is nothing but links. Each node keeps the slots of its parent and of its
children, and an operation follows and changes these links one at a time. It ends in a fault where a
link leads nowhere, and where it goes on for more steps than there are slots. -/

namespace DuplexRelay

open SearchTree (Branch)

/-- The neighbours of a node. -/
structure Links where
  parent : Option Nat := none
  left : Option Nat := none
  right : Option Nat := none

namespace Links

def child (b : Branch) (x : Links) : Option Nat :=
  match b with
  | .left => x.left
  | .right => x.right

def setChild (b : Branch) (c : Option Nat) (x : Links) : Links :=
  match b with
  | .left => { x with left := c }
  | .right => { x with right := c }

end Links

structure LinkedNode (K V : Type) extends Links where
  key : K
  value : V

structure LinkedSlot (K V : Type) where
  generation : UInt32 := 0
  node : Option (LinkedNode K V)

structure LinkedMap (K V : Type) (cmp : K → K → Ordering) where
  slots : Array (LinkedSlot K V) := #[]
  free : List Nat := []
  root : Option Nat := none
  size : Nat := 0

namespace LinkedMap

/-- What must not happen. -/
inductive Fault where
  /-- a link leads to a slot that is empty or does not exist -/
  | dangling
  /-- the search for the key of an entry ends elsewhere -/
  | misplaced
  /-- a search took as many steps as there are slots, and did not end -/
  | endless

/-- Where a search ends: at a slot, or below one. -/
inductive Landing where
  | found (index : Nat)
  | vacant (above : Option (Nat × Branch))
  deriving DecidableEq

variable {K V : Type} {cmp : K → K → Ordering}

def empty : LinkedMap K V cmp := {}

section Slots

def node? (a : LinkedMap K V cmp) (index : Nat) : Option (LinkedNode K V) :=
  a.slots[index]?.bind (·.node)

def node (index : Nat) (a : LinkedMap K V cmp) : Except Fault (LinkedNode K V) :=
  match a.node? index with
  | some n => .ok n
  | none => .error .dangling

def setNode (index : Nat) (n : LinkedNode K V) (a : LinkedMap K V cmp) : LinkedMap K V cmp :=
  { a with slots := a.slots.modify index ({ · with node := some n }) }

def relink (index : Nat) (f : Links → Links) (a : LinkedMap K V cmp) :
    Except Fault (LinkedMap K V cmp) := do
  let n ← a.node index
  .ok (a.setNode index { n with toLinks := f n.toLinks })

def handleAt (a : LinkedMap K V cmp) (index : Nat) : Handle :=
  ⟨index, (a.slots[index]?.map (·.generation)).getD 0⟩

def resolve (id : Handle) (a : LinkedMap K V cmp) : Option Nat :=
  match a.slots[id.index]? with
  | some slot => if slot.generation = id.generation ∧ slot.node.isSome then some id.index else none
  | none => none

/-- Puts a node into the slot that was freed last, or into a new one. -/
def allot (n : LinkedNode K V) (a : LinkedMap K V cmp) : Except Fault (Nat × LinkedMap K V cmp) :=
  match a.free with
  | index :: free =>
    if index < a.slots.size then .ok (index, { a.setNode index n with free })
    else .error .dangling
  | [] => .ok (a.slots.size, { a with slots := a.slots.push { node := some n } })

/-- Empties a slot. -/
def vacate (index : Nat) (a : LinkedMap K V cmp) : LinkedMap K V cmp :=
  { a with
    slots := a.slots.modify index fun slot => { generation := slot.generation + 1, node := none }
    free := index :: a.free
    size := a.size - 1 }

end Slots

section Searches

def seek (key : K) (a : LinkedMap K V cmp) :
    Nat → Option (Nat × Branch) → Option Nat → Except Fault Landing
  | _, above, none => .ok (.vacant above)
  | 0, _, some _ => .error .endless
  | fuel + 1, _, some index => do
    let n ← a.node index
    match cmp key n.key with
    | .lt => a.seek key fuel (some (index, .left)) n.left
    | .gt => a.seek key fuel (some (index, .right)) n.right
    | .eq => .ok (.found index)

/-- Where the search for a key ends that starts at the root. -/
def locate (key : K) (a : LinkedMap K V cmp) : Except Fault Landing :=
  a.seek key a.slots.size none a.root

/-- The last slot that the children in one branch lead to. -/
def outermost (b : Branch) (a : LinkedMap K V cmp) : Nat → Nat → Except Fault Nat
  | 0, _ => .error .endless
  | fuel + 1, index => do
    let n ← a.node index
    match n.child b with
    | some c => a.outermost b fuel c
    | none => .ok index

/-- The first slot up the parents that is not left by its right branch. -/
def climb (a : LinkedMap K V cmp) : Nat → Nat → Option Nat → Except Fault (Option Nat)
  | _, _, none => .ok none
  | 0, _, some _ => .error .endless
  | fuel + 1, child, some parent => do
    let n ← a.node parent
    if n.left = some child then .ok (some parent) else a.climb fuel parent n.parent

def successor (index : Nat) (a : LinkedMap K V cmp) : Except Fault (Option Nat) := do
  let n ← a.node index
  match n.right with
  | some right =>
    let first ← a.outermost .left a.slots.size right
    .ok (some first)
  | none => a.climb a.slots.size index n.parent

end Searches

section Operations

/-- Puts a slot, or nothing, in place of another one below the parent of that one. -/
def replaceChild (parent : Option Nat) (index : Nat) (replacement : Option Nat)
    (a : LinkedMap K V cmp) : Except Fault (LinkedMap K V cmp) :=
  match parent with
  | none => .ok { a with root := replacement }
  | some p => a.relink p fun x =>
      if x.left = some index then { x with left := replacement }
      else { x with right := replacement }

def replaceInParent (index : Nat) (replacement : Option Nat) (a : LinkedMap K V cmp) :
    Except Fault (LinkedMap K V cmp) := do
  let n ← a.node index
  let a ← a.replaceChild n.parent index replacement
  match replacement with
  | none => .ok a
  | some c => a.relink c ({ · with parent := n.parent })

/-- Puts a slot where a search ended that found nothing. -/
def attach (above : Option (Nat × Branch)) (index : Nat) (a : LinkedMap K V cmp) :
    Except Fault (LinkedMap K V cmp) :=
  match above with
  | none => .ok { a with root := some index }
  | some (p, b) => a.relink p (·.setChild b (some index))

def insert (key : K) (value : V) (a : LinkedMap K V cmp) :
    Except Fault (OrderedMap.Inserted × LinkedMap K V cmp) := do
  match ← a.locate key with
  | .found index => .ok (.existing (a.handleAt index), a)
  | .vacant above =>
    let (index, a) ← a.allot { parent := above.map (·.1), key, value }
    let a ← a.attach above index
    .ok (.added (a.handleAt index), { a with size := a.size + 1 })

def find? (key : K) (a : LinkedMap K V cmp) : Except Fault (Option Handle) := do
  match ← a.locate key with
  | .found index => .ok (some (a.handleAt index))
  | .vacant _ => .ok none

/-- The node that a handle names, if it still exists. -/
def resolved (id : Handle) (a : LinkedMap K V cmp) : Except Fault (Option (LinkedNode K V)) :=
  match a.resolve id with
  | none => .ok none
  | some index => do
    let n ← a.node index
    .ok (some n)

def modify (id : Handle) (f : V → V) (a : LinkedMap K V cmp) :
    Except Fault (LinkedMap K V cmp) := do
  match ← a.resolved id with
  | none => .ok a
  | some n => .ok (a.setNode id.index { n with value := f n.value })

/-- Takes a node out of the tree. If it has two children the right one is hung below the last node
of the left one's right edge, and the left one takes the node's place. -/
def unlink (index : Nat) (n : LinkedNode K V) (a : LinkedMap K V cmp) :
    Except Fault (LinkedMap K V cmp) :=
  match n.left, n.right with
  | none, none => a.replaceInParent index none
  | some c, none | none, some c => a.replaceInParent index (some c)
  | some l, some r => do
    let p ← a.outermost .right a.slots.size l
    let a ← a.relink p ({ · with right := some r })
    let a ← a.relink r ({ · with parent := some p })
    a.replaceInParent index (some l)

def erase (id : Handle) (a : LinkedMap K V cmp) :
    Except Fault (Option (K × V) × LinkedMap K V cmp) := do
  match ← a.resolved id with
  | none => .ok (none, a)
  | some n =>
    let landing ← a.locate n.key
    if landing = .found id.index then
      let a ← a.unlink id.index n
      .ok (some (n.key, n.value), a.vacate id.index)
    else .error .misplaced

def first? (a : LinkedMap K V cmp) : Except Fault (Option Handle) :=
  match a.root with
  | none => .ok none
  | some root => do
    let first ← a.outermost .left a.slots.size root
    .ok (some (a.handleAt first))

def next? (id : Handle) (a : LinkedMap K V cmp) : Except Fault (Option Handle) :=
  match a.resolve id with
  | none => .ok none
  | some index => do
    let next ← a.successor index
    .ok (next.map a.handleAt)

/-- The handles from one on, each followed by the next. -/
def follow (a : LinkedMap K V cmp) : Nat → Option Handle → Except Fault (List Handle)
  | _, none => .ok []
  | 0, some _ => .error .endless
  | fuel + 1, some id => do
    let next ← a.next? id
    let others ← a.follow fuel next
    .ok (id :: others)

def handles (a : LinkedMap K V cmp) : Except Fault (List Handle) := do
  let first ← a.first?
  a.follow a.slots.size first

def toList (a : LinkedMap K V cmp) : Except Fault (List (K × V)) := do
  let ids ← a.handles
  ids.mapM fun id => do
    let n ← a.node id.index
    .ok (n.key, n.value)

/-- Removes entries, the last first, and gives their values in order. -/
def eraseAll (a : LinkedMap K V cmp) : List Handle → Except Fault (List V × LinkedMap K V cmp)
  | [] => .ok ([], a)
  | id :: ids => do
    let (values, a) ← a.eraseAll ids
    match ← a.erase id with
    | (some (_, value), a) => .ok (value :: values, a)
    | (none, a) => .ok (values, a)

def drain (a : LinkedMap K V cmp) : Except Fault (List V × LinkedMap K V cmp) := do
  let ids ← a.handles
  a.eraseAll ids

open OrderedMap (Query Answer)

def answer (a : LinkedMap K V cmp) : Query K V → Except Fault (Answer K V × LinkedMap K V cmp)
  | .insert key value => do
    let (result, a) ← a.insert key value
    .ok (.inserted result, a)
  | .find key => do
    let id ← a.find? key
    .ok (.handle id, a)
  | .get id => do
    let n ← a.resolved id
    .ok (.value (n.map (·.value)), a)
  | .key id => do
    let n ← a.resolved id
    .ok (.key (n.map (·.key)), a)
  | .update id f => do
    let n ← a.resolved id
    let a ← a.modify id f
    .ok (.value (n.map (·.value)), a)
  | .erase id => do
    let (entry, a) ← a.erase id
    .ok (.entry entry, a)
  | .first => do
    let id ← a.first?
    .ok (.handle id, a)
  | .next id => do
    let id ← a.next? id
    .ok (.handle id, a)
  | .list => do
    let entries ← a.toList
    .ok (.entries entries, a)
  | .drain => do
    let (values, a) ← a.drain
    .ok (.values values, a)

def answerAll (a : LinkedMap K V cmp) :
    List (Query K V) → Except Fault (List (Answer K V) × LinkedMap K V cmp)
  | [] => .ok ([], a)
  | query :: queries => do
    let (first, a) ← a.answer query
    let (others, a) ← a.answerAll queries
    .ok (first :: others, a)

end Operations

end LinkedMap

end DuplexRelay
