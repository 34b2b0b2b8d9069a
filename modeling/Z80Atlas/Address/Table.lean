import Z80Atlas.Address.Basic

namespace Z80Atlas

private theorem byteArray_size_set (cells : ByteArray) (i : Nat) (byte : UInt8)
    (h : i < cells.size) : (cells.set i byte h).size = cells.size := by
  cases cells; simp [ByteArray.set, ByteArray.size]

private theorem byteArray_get_set (cells : ByteArray) (i j : Nat) (byte : UInt8)
    (hi : i < cells.size) (hj : j < cells.size) :
    (cells.set i byte hi).get j (by rw [byteArray_size_set]; exact hj) =
      if i = j then byte else cells.get j hj := by
  obtain ⟨cells⟩ := cells
  exact Array.getElem_set hi _

-- Known by `get` alone: two tables with the same bytes are equal.
structure ByteTable where
  cells : ByteArray
  size_cells : cells.size = addressCount

namespace ByteTable

theorem toNat_lt_size (table : ByteTable) (address : Address) :
    address.toNat < table.cells.size := by
  rw [table.size_cells]; exact address.toNat_lt

def get (table : ByteTable) (address : Address) : UInt8 :=
  table.cells.get address.toNat (table.toNat_lt_size address)

def set (table : ByteTable) (address : Address) (byte : UInt8) : ByteTable where
  cells := table.cells.set address.toNat byte (table.toNat_lt_size address)
  size_cells := by rw [byteArray_size_set, table.size_cells]

def replicate (byte : UInt8) : ByteTable where
  cells := ⟨Array.replicate addressCount byte⟩
  size_cells := Array.size_replicate

theorem get_set (table : ByteTable) (a b : Address) (byte : UInt8) :
    (table.set a byte).get b = if a = b then byte else table.get b := by
  refine (byteArray_get_set _ _ _ _ _ (table.toNat_lt_size b)).trans ?_
  by_cases h : a = b
  · rw [if_pos h, if_pos (congrArg _ h)]
  · rw [if_neg h, if_neg (h ∘ UInt16.toNat_inj.mp), get]

@[simp]
theorem get_set_self (table : ByteTable) (a : Address) (byte : UInt8) :
    (table.set a byte).get a = byte := by
  simp [get_set]

theorem get_set_of_ne (table : ByteTable) {a b : Address} (byte : UInt8) (h : a ≠ b) :
    (table.set a byte).get b = table.get b := by
  simp [get_set, h]

@[simp]
theorem get_replicate (byte : UInt8) (address : Address) :
    (replicate byte).get address = byte :=
  Array.getElem_replicate _

theorem ext {s t : ByteTable} (h : ∀ address, s.get address = t.get address) : s = t := by
  obtain ⟨⟨s⟩, hs⟩ := s
  obtain ⟨⟨t⟩, ht⟩ := t
  simp only [ByteArray.size] at hs ht
  congr 2
  apply Array.ext
  · rw [hs, ht]
  · intro i hi hi'
    have hn : (UInt16.ofNat i).toNat = i := UInt16.toNat_ofNat_of_lt (hs ▸ hi : i < addressCount)
    have hs' : (UInt16.ofNat i).toNat < s.size := hn.symm ▸ hi
    have ht' : (UInt16.ofNat i).toNat < t.size := hn.symm ▸ hi'
    have hget : s[(UInt16.ofNat i).toNat] = t[(UInt16.ofNat i).toNat] := h (UInt16.ofNat i)
    simpa only [hn] using hget

end ByteTable

structure AddressTable (α : Type) where
  cells : Array α
  size_cells : cells.size = addressCount

namespace AddressTable

variable {α : Type}

theorem toNat_lt_size (table : AddressTable α) (address : Address) :
    address.toNat < table.cells.size := by
  rw [table.size_cells]; exact address.toNat_lt

def get (table : AddressTable α) (address : Address) : α :=
  have := table.toNat_lt_size address
  table.cells[address.toNat]

def set (table : AddressTable α) (address : Address) (value : α) : AddressTable α where
  cells := table.cells.set address.toNat value (table.toNat_lt_size address)
  size_cells := by rw [Array.size_set, table.size_cells]

def replicate (value : α) : AddressTable α where
  cells := Array.replicate addressCount value
  size_cells := Array.size_replicate

theorem get_set (table : AddressTable α) (a b : Address) (value : α) :
    (table.set a value).get b = if a = b then value else table.get b := by
  simp only [get, set, Array.getElem_set, UInt16.toNat_inj]

@[simp]
theorem get_set_self (table : AddressTable α) (a : Address) (value : α) :
    (table.set a value).get a = value := by
  simp [get_set]

theorem get_set_of_ne (table : AddressTable α) {a b : Address} (value : α) (h : a ≠ b) :
    (table.set a value).get b = table.get b := by
  simp [get_set, h]

@[simp]
theorem get_replicate (value : α) (address : Address) :
    (replicate value).get address = value :=
  Array.getElem_replicate _

theorem ext {s t : AddressTable α} (h : ∀ address, s.get address = t.get address) : s = t := by
  obtain ⟨s, hs⟩ := s
  obtain ⟨t, ht⟩ := t
  congr 1
  apply Array.ext
  · rw [hs, ht]
  · intro i hi _
    have := h (UInt16.ofNat i)
    have hn : (UInt16.ofNat i).toNat = i := UInt16.toNat_ofNat_of_lt (hs ▸ hi : i < addressCount)
    simpa only [get, hn] using this

end AddressTable

end Z80Atlas
