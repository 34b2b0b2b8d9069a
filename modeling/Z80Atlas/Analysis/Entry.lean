import Z80Atlas.Session.Basic

namespace Z80Atlas

-- What a scan through memory in ascending order knows of the addresses before the current one.
structure EntryScan where
  previous : Marks := {}
  -- The last beginning of an instruction, unless an address without code lies behind it.
  lastFirst : Option Address := none
  found : List Address := []

namespace Session

-- Can code at `address` be entered from outside only? Nothing refers to it, and the code before it,
-- if there is any, does not fall through.
def isInterruptEntry (session : Session) (scan : EntryScan) (address : Address) : Bool :=
  let marks := session.memory.marks address
  session.snapshotStart != some address && marks.first && marks.assigned &&
    !session.labels.hasLabel address &&
    (!scan.previous.assigned || !scan.previous.code ||
      scan.lastFirst.any fun first => (session.instructionAt first).flow.stop)

def scanEntry (session : Session) (scan : EntryScan) (address : Address) : EntryScan :=
  let marks := session.memory.marks address
  { previous := marks
    lastFirst :=
      if marks.first then some address else if marks.code then scan.lastFirst else none
    found := if session.isInterruptEntry scan address then address :: scan.found else scan.found }

def interruptEntries (session : Session) : List Address :=
  (Address.all.foldl session.scanEntry {}).found.reverse

-- Fix a label at each entry of an interrupt. Several of them are numbered.
def labelInterrupts (session : Session) : Session :=
  let entries := session.interruptEntries
  let stem := session.config.stems.interrupt
  let name (index : Nat) : String :=
    if entries.length > 1 then stem ++ Text.decimal (index + 1) else stem
  let session := entries.zipIdx.foldl
    (fun session (address, index) => session.fixLabel address (some (name index))) session
  session.note ("Found " ++ Text.decimal entries.length ++ " interrupt entries")

def areaStarts (session : Session) : List Address :=
  Address.all.filter fun address =>
    session.memory.isAssigned address && (address == 0 || !session.memory.isAssigned (address - 1))

def labelStarts (session : Session) : Session :=
  let session :=
    match session.snapshotStart with
    | some start =>
      if session.config.automaticAddresses && !session.labels.hasLabel start then
        session.setLabel start
          (some ("SNA_LBL_MAIN_START_" ++ Text.hex start.toNat 1)) .label
      else session
    | none => session
  let starts := session.areaStarts.filter fun address => !session.labels.hasLabel address
  starts.foldl
    (fun session address =>
      session.setLabel address (some ("BIN_START_" ++ Text.hex4 address)) .data)
    session

end Session

end Z80Atlas
