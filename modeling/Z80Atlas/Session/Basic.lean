import Std.Data.HashMap
import Std.Data.TreeMap
import Z80Atlas.Address.Queue
import Z80Atlas.Comment.File
import Z80Atlas.Config
import Z80Atlas.Diagnostic.Warning
import Z80Atlas.Machine.Z80.Decoder
import Z80Atlas.Symbol.Store

namespace Z80Atlas

structure Statistics where
  size : Nat := 0
  instructions : Nat := 0
  complexity : Nat := 0
  deriving DecidableEq, Repr, Inhabited

namespace Statistics

-- Where the search for the least values starts: the largest numbers of 64 bits.
def top : Statistics := ⟨0xFFFFFFFFFFFFFFFF, 0xFFFFFFFFFFFFFFFF, 0xFFFFFFFFFFFFFFFF⟩

def min (a b : Statistics) : Statistics :=
  ⟨Nat.min a.size b.size, Nat.min a.instructions b.instructions, Nat.min a.complexity b.complexity⟩

def max (a b : Statistics) : Statistics :=
  ⟨Nat.max a.size b.size, Nat.max a.instructions b.instructions, Nat.max a.complexity b.complexity⟩

end Statistics

inductive Target where
  | address (address : Address)
  | name (name : String)
  deriving DecidableEq, Repr, Hashable

structure Session where
  memory : Memory := .empty
  decoder : Decoder := Z80.decode
  config : Config := {}
  labels : LabelStore := {}
  queue : AddressQueue := {}
  -- How far the label of an address lies away, for addresses that are shown by another label.
  offsets : Std.TreeMap Address Int compare := ∅
  owners : AddressTable (Option LabelId) := .replicate none
  comments : Std.TreeMap Address Comment compare := ∅
  statistics : Std.TreeMap LabelId Statistics compare := ∅
  leastStatistics : Statistics := .top
  greatestStatistics : Statistics := {}
  highlights : Std.HashMap Target String := ∅
  -- The addresses of names, as of the last listing.
  addressOfName : Std.HashMap String Address := ∅
  snapshotStart : Option Address := none
  nameOf : Option (Address → String) := none
  journal : Array Event := #[]
  listing : Option (List String) := none

namespace Session

def instructionAt (session : Session) (address : Address) : Instruction :=
  session.decoder session.memory address

def note (session : Session) (text : String) : Session :=
  { session with journal := session.journal.push (.note text) }

def warn (session : Session) (kind : WarningKind) (address : Option Address) (message : String) :
    Session :=
  { session with journal := session.journal.push (.warning ⟨kind, address, message⟩) }

def warnings (session : Session) : List Warning :=
  session.journal.toList.filterMap fun
    | .warning warning => some warning
    | .note _ => none

def load (session : Session) (origin : Address) (bytes : List UInt8) : Session :=
  { session with memory := session.memory.load origin bytes }

def enqueue (session : Session) (address : Address) : Session :=
  { session with queue := session.queue.push address }

def modifyLabel (session : Session) (id : LabelId) (change : Label → Label) : Session :=
  { session with labels := session.labels.modify id change }

def highlight (session : Session) (target : Target) (color : String) : Session :=
  { session with highlights := session.highlights.insert target color }

def setComment (session : Session) (address : Address) (comment : Comment) : Session :=
  { session with comments := session.comments.insert address comment }

-- Name a label. A live label only gets the name, unless it is fixed and has one. A new label inside
-- the loaded memory is decoded from if it stands for code, and one outside becomes a constant.
def setLabel (session : Session) (address : Address) (name : Option String) (kind : Kind) :
    Session :=
  match session.labels.idAt? address with
  | some id =>
    session.modifyLabel id fun label =>
      if label.name.isNone || !label.isFixed then { label with name } else label
  | none =>
    let assigned := session.memory.isAssigned address
    let id := session.labels.nextId
    let session := { session with labels := session.labels.insert address kind }
    let session := session.modifyLabel id ({ · with name, isEqu := !assigned })
    if assigned && kind.isCode then session.enqueue address else session

-- Set a code label that keeps its kind, and decode from it.
def fixLabel (session : Session) (address : Address) (name : Option String) : Session :=
  let assigned := session.memory.isAssigned address
  let session :=
    match session.labels.idAt? address with
    | some _ => session
    | none => { session with labels := session.labels.insert address .label }
  let session := { session with
    labels := session.labels.modifyAt address fun label =>
      { label with
        name := name.or label.name
        isEqu := label.isEqu || !assigned
        isFixed := true } }
  if assigned then session.enqueue address else session

-- Fix code labels at the `count` addresses that a table at `address` holds.
def fixTable (session : Session) (address : Address) : Nat → Session
  | 0 => session
  | count + 1 =>
    (session.fixLabel (session.memory.word address) none).fixTable (address + 2) count

-- Set where a snapshot starts. Snapshots lack part of the memory, which is then not worth a
-- warning.
def setSnapshotStart (session : Session) (address : Address) : Session :=
  { session with
    snapshotStart := some address
    config := { session.config with allowUnassigned := true } }

def useEntry (session : Session) (entry : CommentEntry) : Session :=
  let session := session.setComment entry.address entry.comment
  match entry.label with
  | some name => session.setLabel entry.address (some name) .data
  | none => session

def useEntries (session : Session) (entries : List CommentEntry) : Session :=
  entries.foldl useEntry session

def clearLabels (session : Session) : Session :=
  { session with labels := {}, offsets := ∅, queue := {}, owners := .replicate none }

-- Remember the addresses of names; of two labels with a name the higher address counts.
def indexNames (session : Session) : Session :=
  { session with
    addressOfName :=
      session.labels.live.foldl (fun map label => map.insert label.text label.address) ∅ }

end Session

end Z80Atlas
