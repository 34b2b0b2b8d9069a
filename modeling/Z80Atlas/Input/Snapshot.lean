import Z80Atlas.Diagnostic.Fault
import Z80Atlas.Session.Basic

namespace Z80Atlas

namespace Snapshot

def headerSize : Nat := 27

def stackPointer (bytes : List UInt8) : Address :=
  (bytes.getD 23 0).toUInt16 + (bytes.getD 24 0).toUInt16 * 256

-- A header of registers, then the memory from 4000h on. The program counter lies on top of the
-- stack.
def load (session : Session) (bytes : List UInt8) : Except Fault (Session × Address) :=
  if bytes.length < headerSize then
    .error
      { code := .snapshotTooShort
        message := "Snapshot has " ++ Text.decimal bytes.length ++
          " bytes but the header alone needs " ++ Text.decimal headerSize }
  else
    let pointer := stackPointer bytes
    let session := session.load 0x4000 (bytes.drop headerSize)
    let start := session.memory.word pointer
    let session := (session.setSnapshotStart start).note
      ("Snapshot SP=" ++ Text.hex4 pointer ++ "h, start=" ++ Text.hex4 start ++ "h")
    .ok (session, start)

end Snapshot

end Z80Atlas
