import Z80Atlas.Address.Set
import Z80Atlas.Text.Numeral

namespace Z80Atlas

structure Marks where
  assigned : Bool := false
  code : Bool := false
  first : Bool := false
  data : Bool := false
  deriving DecidableEq, Repr, Inhabited

def Marks.isEmpty (marks : Marks) : Bool :=
  !(marks.assigned || marks.code || marks.first || marks.data)

-- Beside the bytes, sets of addresses record what is known of them: which were loaded, which belong
-- to an instruction, which of these begin one, and which were written out as data.
structure Memory where
  bytes : ByteTable
  assigned : AddressSet
  code : AddressSet
  first : AddressSet
  data : AddressSet

namespace Memory

def empty : Memory := ⟨ByteTable.replicate 0, ∅, ∅, ∅, ∅⟩

def byte (memory : Memory) (address : Address) : UInt8 := memory.bytes.get address

def word (memory : Memory) (address : Address) : UInt16 :=
  (memory.byte address).toUInt16 + (memory.byte (address + 1)).toUInt16 * 256

def bigEndianWord (memory : Memory) (address : Address) : UInt16 :=
  (memory.byte (address + 1)).toUInt16 + (memory.byte address).toUInt16 * 256

def marks (memory : Memory) (address : Address) : Marks where
  assigned := memory.assigned.contains address
  code := memory.code.contains address
  first := memory.first.contains address
  data := memory.data.contains address

def isAssigned (memory : Memory) (address : Address) : Bool := memory.assigned.contains address

def isCode (memory : Memory) (address : Address) : Bool := memory.code.contains address

def isFirst (memory : Memory) (address : Address) : Bool := memory.first.contains address

def store (memory : Memory) (address : Address) (byte : UInt8) : Memory :=
  { memory with
    bytes := memory.bytes.set address byte
    assigned := memory.assigned.insert address }

def storeAll (memory : Memory) (origin : Address) : List UInt8 → Memory
  | [] => memory
  | byte :: rest => (memory.store origin byte).storeAll (origin + 1) rest

-- Load bytes from `origin` on; what exceeds the size of the address space is dropped.
def load (memory : Memory) (origin : Address) (bytes : List UInt8) : Memory :=
  memory.storeAll origin (bytes.take addressCount)

def addMarks (memory : Memory) (address : Address) (count : Nat) (marks : Marks) : Memory :=
  let count := min count addressCount
  let add (wanted : Bool) (set : AddressSet) : AddressSet :=
    if wanted then set.insertRange address count else set
  { memory with
    assigned := add marks.assigned memory.assigned
    code := add marks.code memory.code
    first := add marks.first memory.first
    data := add marks.data memory.data }

def setMarks (memory : Memory) (address : Address) (count : Nat) (marks : Marks) : Memory :=
  let count := min count addressCount
  let put (wanted : Bool) (set : AddressSet) : AddressSet :=
    if wanted then set.insertRange address count else set.eraseRange address count
  { memory with
    assigned := put marks.assigned memory.assigned
    code := put marks.code memory.code
    first := put marks.first memory.first
    data := put marks.data memory.data }

-- Forget how an address was classified: one with any mark is merely loaded.
def unclassify (memory : Memory) (address : Address) : Memory :=
  if (memory.marks address).isEmpty then memory
  else
    { memory with
      assigned := memory.assigned.insert address
      code := memory.code.erase address
      first := memory.first.erase address
      data := memory.data.erase address }

def unclassifyFrom (memory : Memory) (address : Address) : Nat → Memory
  | 0 => memory
  | count + 1 => (memory.unclassify address).unclassifyFrom (address + 1) count

def unclassifyRange (memory : Memory) (address : Address) (count : Nat) : Memory :=
  memory.unclassifyFrom address (min count addressCount)

def markInstruction (memory : Memory) (address : Address) (size : Nat) : Memory :=
  { memory with
    first := memory.first.insert address
    code := memory.code.insertRange address size }

def uncoded (memory : Memory) : Nat := memory.code.absent

def summary (memory : Memory) : String :=
  "Memory \x7b assigned_bytes: " ++ Text.decimal memory.assigned.toList.length ++ " \x7d"

end Memory

end Z80Atlas
