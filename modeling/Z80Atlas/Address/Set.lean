import Z80Atlas.Address.Table

namespace Z80Atlas

-- A set of addresses: one byte for each, 1 if it belongs to the set and 0 if not.
structure AddressSet where
  table : ByteTable
  zero_or_one : ∀ address, table.get address = 0 ∨ table.get address = 1

namespace AddressSet

def contains (set : AddressSet) (address : Address) : Bool := set.table.get address != 0

instance : Membership Address AddressSet := ⟨fun set address => set.contains address = true⟩

instance (address : Address) (set : AddressSet) : Decidable (address ∈ set) :=
  inferInstanceAs (Decidable (set.contains address = true))

def empty : AddressSet := ⟨ByteTable.replicate 0, fun _ => by simp⟩

instance : EmptyCollection AddressSet := ⟨empty⟩

def insert (set : AddressSet) (address : Address) : AddressSet where
  table := set.table.set address 1
  zero_or_one b := by
    rw [ByteTable.get_set]; split
    · exact .inr rfl
    · exact set.zero_or_one b

def erase (set : AddressSet) (address : Address) : AddressSet where
  table := set.table.set address 0
  zero_or_one b := by
    rw [ByteTable.get_set]; split
    · exact .inl rfl
    · exact set.zero_or_one b

-- The set with the `count` addresses from `address` on added, wrapping at the end.
def insertRange (set : AddressSet) (address : Address) : Nat → AddressSet
  | 0 => set
  | count + 1 => (set.insert address).insertRange (address + 1) count

def eraseRange (set : AddressSet) (address : Address) : Nat → AddressSet
  | 0 => set
  | count + 1 => (set.erase address).eraseRange (address + 1) count

def toList (set : AddressSet) : List Address := Address.all.filter set.contains

-- Every insertion of a new address lowers it, which bounds all searches of the address space.
def absent (set : AddressSet) : Nat := set.table.cells.data.countP (· == 0)

theorem mem_iff {set : AddressSet} {address : Address} :
    address ∈ set ↔ set.contains address = true := Iff.rfl

@[simp]
theorem contains_empty (address : Address) : (∅ : AddressSet).contains address = false := by
  show ((ByteTable.replicate 0).get address != 0) = false
  simp

@[simp]
theorem contains_insert (set : AddressSet) (a b : Address) :
    (set.insert a).contains b = (b == a || set.contains b) := by
  by_cases h : a = b <;> simp [contains, insert, ByteTable.get_set, h, Ne.symm]

@[simp]
theorem contains_erase (set : AddressSet) (a b : Address) :
    (set.erase a).contains b = (b != a && set.contains b) := by
  by_cases h : a = b <;> simp [contains, erase, ByteTable.get_set, h, Ne.symm]

theorem contains_insertRange (set : AddressSet) (a b : Address) (count : Nat) :
    (set.insertRange a count).contains b = ((a.range count).contains b || set.contains b) := by
  induction count generalizing set a with
  | zero => simp [insertRange, Address.range]
  | succ count ih =>
    rw [insertRange, ih, Address.range, List.contains_cons, contains_insert]
    cases ((a + 1).range count).contains b <;> cases b == a <;> simp

theorem contains_eraseRange (set : AddressSet) (a b : Address) (count : Nat) :
    (set.eraseRange a count).contains b = (!(a.range count).contains b && set.contains b) := by
  induction count generalizing set a with
  | zero => simp [eraseRange, Address.range]
  | succ count ih =>
    rw [eraseRange, ih, Address.range, List.contains_cons, contains_erase]
    cases ((a + 1).range count).contains b <;> simp [bne]

theorem ext {s t : AddressSet} (h : ∀ address, s.contains address = t.contains address) :
    s = t := by
  have htable : s.table = t.table := ByteTable.ext fun address => by
    have hs := s.zero_or_one address
    have ht := t.zero_or_one address
    have hc := h address
    simp only [contains] at hc
    rcases hs with hs | hs <;> rcases ht with ht | ht <;> simp_all
  cases s; cases t; simp_all

-- Inserting what a set lacks leaves one address fewer outside.
theorem absent_insert_lt {set : AddressSet} {address : Address}
    (h : set.contains address = false) : (set.insert address).absent < set.absent := by
  have hsize : address.toNat < set.table.cells.data.size := set.table.toNat_lt_size address
  have hzero : set.table.get address = 0 := by simpa [contains] using h
  have hdata : (set.insert address).table.cells.data =
      set.table.cells.data.set address.toNat 1 hsize := rfl
  have hcell : set.table.cells.data[address.toNat] = 0 := hzero
  have hpos : 0 < set.table.cells.data.countP (· == 0) :=
    Array.countP_pos_iff.mpr ⟨0, hcell ▸ Array.getElem_mem hsize, rfl⟩
  rw [absent, absent, hdata, Array.countP_set, hcell]
  simp only [beq_self_eq_true, if_true]
  exact Nat.sub_lt hpos Nat.one_pos

theorem insert_eq_self {set : AddressSet} {address : Address}
    (h : set.contains address = true) : set.insert address = set :=
  ext fun b => by
    rw [contains_insert]
    by_cases hb : b = address
    · simp [hb, h]
    · simp [hb]

theorem absent_insert_le (set : AddressSet) (address : Address) :
    (set.insert address).absent ≤ set.absent := by
  cases h : set.contains address with
  | true => exact Nat.le_of_eq (by rw [insert_eq_self h])
  | false => exact Nat.le_of_lt (absent_insert_lt h)

theorem absent_insertRange_le (set : AddressSet) (address : Address) (count : Nat) :
    (set.insertRange address count).absent ≤ set.absent := by
  induction count generalizing set address with
  | zero => exact Nat.le_refl _
  | succ count ih => exact Nat.le_trans (ih _ _) (set.absent_insert_le address)

-- A range whose first address is new leaves fewer addresses outside.
theorem absent_insertRange_lt {set : AddressSet} {address : Address} {count : Nat}
    (hcount : 0 < count) (h : set.contains address = false) :
    (set.insertRange address count).absent < set.absent := by
  cases count with
  | zero => cases hcount
  | succ count =>
    exact Nat.lt_of_le_of_lt (absent_insertRange_le (set.insert address) (address + 1) count)
      (absent_insert_lt h)

end AddressSet

end Z80Atlas
