namespace Z80Atlas

-- Sums of addresses wrap. The one place where that is refused is `Address.next?`.
abbrev Address := UInt16

abbrev addressCount : Nat := 65536

namespace Address

def all : List Address := (List.range addressCount).map UInt16.ofNat

def plus (address : Address) (distance : Nat) : Address := address + UInt16.ofNat distance

def range (address : Address) : Nat → List Address
  | 0 => []
  | count + 1 => address :: range (address + 1) count

-- The address behind `size` bytes at `address`, unless it lies past the end of the space.
def next? (address : Address) (size : Nat) : Option Address :=
  if address.toNat + size < addressCount then some (UInt16.ofNat (address.toNat + size)) else none

theorem toNat_lt (address : Address) : address.toNat < addressCount := UInt16.toNat_lt address

theorem mem_all (address : Address) : address ∈ all := by
  refine List.mem_map.mpr ⟨address.toNat, List.mem_range.mpr address.toNat_lt, ?_⟩
  simp

end Address

end Z80Atlas
