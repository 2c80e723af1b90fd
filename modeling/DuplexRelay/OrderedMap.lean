import DuplexRelay.SearchTree

/-!
# Ordered maps with stable handles

Entries live in numbered slots. A handle names a slot together with the slot's generation, which
grows with each removal, so that a handle never resolves to an entry that came into its slot
later. The order is kept by a search tree over the slots.

A freed slot is used again before a new one is made, the last freed first.
-/

namespace DuplexRelay

/-- The name of an entry for as long as the entry exists. -/
structure Handle where
  index : Nat
  generation : UInt32
  deriving DecidableEq

/-- A place for one entry. -/
structure Slot (K V : Type) where
  generation : UInt32 := 0
  entry : Option (K × V)

/-- A map in the order of a three-way comparison. -/
structure OrderedMap (K V : Type) (cmp : K → K → Ordering) where
  slots : Array (Slot K V) := #[]
  free : List Nat := []
  tree : SearchTree K := .leaf
  size : Nat := 0

namespace OrderedMap

variable {K V : Type} {cmp : K → K → Ordering}

def empty : OrderedMap K V cmp := {}

def isEmpty (m : OrderedMap K V cmp) : Bool := m.size == 0

/-- The present handle of a slot. -/
def handleAt (m : OrderedMap K V cmp) (index : Nat) : Handle :=
  ⟨index, (m.slots[index]?.map (·.generation)).getD 0⟩

/-- The entry that a handle names, if it still exists. -/
def entry? (m : OrderedMap K V cmp) (id : Handle) : Option (K × V) :=
  match m.slots[id.index]? with
  | some slot => if slot.generation = id.generation then slot.entry else none
  | none => none

def key? (m : OrderedMap K V cmp) (id : Handle) : Option K := (m.entry? id).map (·.1)

def get? (m : OrderedMap K V cmp) (id : Handle) : Option V := (m.entry? id).map (·.2)

/-- The handle of the entry with an equal key. -/
def find? (m : OrderedMap K V cmp) (key : K) : Option Handle :=
  (m.tree.find? cmp key).map m.handleAt

/-- The result of an insertion: the handle of the new entry, or of the entry that has an equal
key already. -/
inductive Inserted where
  | added (id : Handle)
  | existing (id : Handle)
  deriving DecidableEq

/-- The handle in question, whether or not the entry is new. -/
def Inserted.handle : Inserted → Handle
  | added id => id
  | existing id => id

/-- Puts an entry into a free slot, or into a new one if none is free. -/
def place (entry : K × V) (m : OrderedMap K V cmp) : Nat × OrderedMap K V cmp :=
  match m.free with
  | index :: free =>
    (index, { m with slots := m.slots.modify index ({ · with entry := some entry }), free })
  | [] => (m.slots.size, { m with slots := m.slots.push { entry := some entry } })

/-- Adds an entry, unless there is one with an equal key. -/
def insert (key : K) (value : V) (m : OrderedMap K V cmp) : Inserted × OrderedMap K V cmp :=
  match m.find? key with
  | some id => (.existing id, m)
  | none =>
    let (index, m) := m.place (key, value)
    (.added (m.handleAt index),
      { m with tree := m.tree.insert cmp key index, size := m.size + 1 })

/-- Changes the value of an entry. A stale handle changes nothing. -/
def modify (id : Handle) (f : V → V) (m : OrderedMap K V cmp) : OrderedMap K V cmp :=
  match m.entry? id with
  | some (key, value) =>
    { m with slots := m.slots.modify id.index ({ · with entry := some (key, f value) }) }
  | none => m

def mapValues (f : K → V → V) (m : OrderedMap K V cmp) : OrderedMap K V cmp :=
  { m with slots := m.slots.map fun slot =>
      { slot with entry := slot.entry.map fun (key, value) => (key, f key value) } }

/-- Removes an entry and gives it back. A stale handle removes nothing. -/
def erase (id : Handle) (m : OrderedMap K V cmp) : Option (K × V) × OrderedMap K V cmp :=
  match m.entry? id with
  | some (key, value) =>
    (some (key, value),
      { slots := m.slots.modify id.index fun slot =>
          { generation := slot.generation + 1, entry := none }
        free := id.index :: m.free
        tree := m.tree.erase cmp key
        size := m.size - 1 })
  | none => (none, m)

def first? (m : OrderedMap K V cmp) : Option Handle := m.tree.first?.map m.handleAt

/-- The handle of the smallest entry above that of `id`. There is none if `id` is stale. -/
def next? (m : OrderedMap K V cmp) (id : Handle) : Option Handle :=
  match m.key? id with
  | some key => (m.tree.above? cmp key).map m.handleAt
  | none => none

def handles (m : OrderedMap K V cmp) : List Handle :=
  m.tree.toList.map fun (_, index) => m.handleAt index

def toList (m : OrderedMap K V cmp) : List (K × V) := m.handles.filterMap m.entry?

/-- Removes all entries, the largest first, and gives their values in order. -/
def drain (m : OrderedMap K V cmp) : List V × OrderedMap K V cmp :=
  m.handles.foldr
    (fun id (values, m) =>
      match m.erase id with
      | (some (_, value), m) => (value :: values, m)
      | (none, m) => (values, m))
    ([], m)

end OrderedMap

end DuplexRelay
