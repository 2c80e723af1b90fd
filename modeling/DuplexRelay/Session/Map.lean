import DuplexRelay.OrderedMap
import DuplexRelay.Text.Quoted

/-!
# Sessions with an ordered map

The keys are integers, the values are texts, and the order is one of several. Handles may be kept
under a name for later steps.
-/

namespace DuplexRelay.Session.Map

/-- The orders of a session. -/
inductive Order where
  | ascending
  | descending
  /-- by the remainder modulo ten, from zero to nine -/
  | lastDigit
  | magnitude
  /-- even keys before odd ones, each in ascending order -/
  | evenFirst
  /-- all keys are the same -/
  | allEqual

def Order.compare : Order → Int → Int → Ordering
  | ascending => Ord.compare
  | descending => fun a b => Ord.compare b a
  | lastDigit => fun a b => Ord.compare (a.emod 10) (b.emod 10)
  | magnitude => fun a b => Ord.compare a.natAbs b.natAbs
  | evenFirst => fun a b => (Ord.compare (a.emod 2) (b.emod 2)).then (Ord.compare a b)
  | allEqual => fun _ _ => .eq

inductive Step where
  | add (key : Int) (value : String) (keep : Option String)
  | addMany (keys : List Int)
  | find (key : Int) (keep : Option String)
  | first (keep : Option String)
  | next (after : String) (keep : Option String)
  | get (name : String)
  | key (name : String)
  | set (name : String) (value : String)
  | del (name : String)
  | delKey (key : Int)
  | delMany (keys : List Int)
  | entries
  | ids
  | text
  | drain

inductive Answer where
  | inserted (result : OrderedMap.Inserted)
  | count (n : Nat)
  | handle (id : Option Handle)
  | value (v : Option String)
  | key (k : Option Int)
  | truth (b : Bool)
  | removed (entry : Option (Int × String))
  | keys (keys : List Int)
  | entries (entries : List (Int × String))
  | handles (ids : List Handle)
  | text (text : String)
  | values (values : List String)

/-- A map with the handles kept so far, the last kept first. -/
structure State (cmp : Int → Int → Ordering) where
  map : OrderedMap Int String cmp := .empty
  kept : List (String × Handle) := []

variable {cmp : Int → Int → Ordering}

def State.kept? (s : State cmp) (name : String) : Option Handle := s.kept.lookup name

/-- Keeps a handle, if there is one and a name for it. -/
def State.keep (s : State cmp) (name : Option String) (id : Option Handle) : State cmp :=
  match name, id with
  | some name, some id => { s with kept := (name, id) :: s.kept }
  | _, _ => s

def render (m : OrderedMap Int String cmp) : String :=
  "\x7b" ++ ", ".intercalate (m.toList.map fun (k, v) => s!"{k}: " ++ Text.quoted v) ++ "\x7d"

def eraseKey (m : OrderedMap Int String cmp) (key : Int) :
    Option (Int × String) × OrderedMap Int String cmp :=
  match m.find? key with
  | some id => m.erase id
  | none => (none, m)

def run (s : State cmp) : Step → Answer × State cmp
  | .add key value keep =>
    let (result, map) := s.map.insert key value
    (.inserted result, { s with map }.keep keep (some result.handle))
  | .addMany keys =>
    let map := keys.foldl (fun m key => (m.insert key s!"v{key}").2) s.map
    (.count (map.size - s.map.size), { s with map })
  | .find key keep => let id := s.map.find? key; (.handle id, s.keep keep id)
  | .first keep => let id := s.map.first?; (.handle id, s.keep keep id)
  | .next after keep =>
    let id := (s.kept? after).bind s.map.next?
    (.handle id, s.keep keep id)
  | .get name => (.value ((s.kept? name).bind s.map.get?), s)
  | .key name => (.key ((s.kept? name).bind s.map.key?), s)
  | .set name value =>
    match s.kept? name with
    | some id =>
      (.truth (s.map.get? id).isSome, { s with map := s.map.modify id fun _ => value })
    | none => (.truth false, s)
  | .del name =>
    match s.kept? name with
    | some id => let (entry, map) := s.map.erase id; (.removed entry, { s with map })
    | none => (.removed none, s)
  | .delKey key => let (entry, map) := eraseKey s.map key; (.removed entry, { s with map })
  | .delMany keys =>
    let (removed, map) := keys.foldl
      (fun (removed, m) key =>
        match eraseKey m key with
        | (some (stored, _), m) => (stored :: removed, m)
        | (none, m) => (removed, m))
      ([], s.map)
    (.keys removed.reverse, { s with map })
  | .entries => (.entries s.map.toList, s)
  | .ids => (.handles s.map.handles, s)
  | .text => (.text (render s.map), s)
  | .drain => let (values, map) := s.map.drain; (.values values, { s with map })

end DuplexRelay.Session.Map
