import Std.Data.TreeMap
import Z80Atlas.Symbol.Label

namespace Z80Atlas

-- Every label ever made stays known by its number; at most one label at each address is live.
structure LabelStore where
  arena : Array Label := #[]
  index : Std.TreeMap Address LabelId compare := ∅

namespace LabelStore

def empty : LabelStore := {}

def size (store : LabelStore) : Nat := store.index.size

def idAt? (store : LabelStore) (address : Address) : Option LabelId := store.index[address]?

def get? (store : LabelStore) (id : LabelId) : Option Label := store.arena[id]?

def at? (store : LabelStore) (address : Address) : Option Label :=
  (store.idAt? address).bind store.get?

def kindAt? (store : LabelStore) (address : Address) : Option Kind :=
  (store.at? address).map (·.kind)

def hasLabel (store : LabelStore) (address : Address) : Bool := (store.at? address).isSome

def kindIs (store : LabelStore) (address : Address) (property : Kind → Bool) : Bool :=
  (store.kindAt? address).any property

def nextId (store : LabelStore) : LabelId := store.arena.size

-- A new label replaces a live label at the same address.
def insert (store : LabelStore) (address : Address) (kind : Kind) : LabelStore where
  arena := store.arena.push { id := store.nextId, address, kind }
  index := store.index.insert address store.nextId

-- Take the label at an address out of the live ones. Its number stays known.
def erase (store : LabelStore) (address : Address) : LabelStore :=
  { store with index := store.index.erase address }

def modify (store : LabelStore) (id : LabelId) (change : Label → Label) : LabelStore :=
  { store with arena := store.arena.modify id change }

def modifyAt (store : LabelStore) (address : Address) (change : Label → Label) : LabelStore :=
  match store.idAt? address with
  | some id => store.modify id change
  | none => store

def ids (store : LabelStore) : List LabelId := store.index.values

def live (store : LabelStore) : List Label := store.ids.filterMap store.get?

end LabelStore

end Z80Atlas
