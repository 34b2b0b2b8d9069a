import Mathlib.Data.Set.Lattice
import Z80Atlas.Session.Basic

namespace Z80Atlas

namespace Address

theorem plus_zero (address : Address) : address.plus 0 = address := by
  simp [plus]

theorem plus_succ (address : Address) (distance : Nat) :
    (address + 1).plus distance = address.plus (distance + 1) := by
  have hsum : UInt16.ofNat (distance + 1) = UInt16.ofNat distance + 1 := by simp
  rw [plus, plus, hsum, UInt16.add_assoc, UInt16.add_comm 1]

theorem mem_range (a b : Address) (count : Nat) :
    b ∈ a.range count ↔ ∃ i < count, b = a.plus i := by
  induction count generalizing a with
  | zero => simp [range]
  | succ count ih =>
      rw [range, List.mem_cons, ih]
      constructor
      · rintro (rfl | ⟨i, hi, rfl⟩)
        · exact ⟨0, Nat.succ_pos _, (plus_zero _).symm⟩
        · exact ⟨i + 1, Nat.succ_lt_succ hi, plus_succ _ _⟩
      · rintro ⟨i, hi, rfl⟩
        cases i with
        | zero => exact .inl (plus_zero _)
        | succ i => exact .inr ⟨i, Nat.lt_of_succ_lt_succ hi, (plus_succ _ _).symm⟩

theorem mem_range_tail (a b : Address) (count : Nat) :
    b ∈ (a + 1).range (count - 1) ↔ ∃ i, 0 < i ∧ i < count ∧ b = a.plus i := by
  rw [mem_range]
  constructor
  · rintro ⟨i, hi, rfl⟩
    exact ⟨i + 1, Nat.succ_pos i, by omega, plus_succ a i⟩
  · rintro ⟨i, hpos, hi, rfl⟩
    obtain ⟨j, rfl⟩ : ∃ j, i = j + 1 := ⟨i - 1, by omega⟩
    exact ⟨j, by omega, (plus_succ a j).symm⟩

end Address

namespace Memory

def Unclassified (memory : Memory) : Prop :=
  ∀ address, ¬memory.isCode address ∧ ¬memory.isFirst address

theorem isFirst_markInstruction (memory : Memory) (a b : Address) (size : Nat) :
    (memory.markInstruction a size).isFirst b ↔ b = a ∨ memory.isFirst b := by
  simp [isFirst, markInstruction]

theorem isCode_markInstruction (memory : Memory) (a b : Address) (size : Nat) :
    (memory.markInstruction a size).isCode b ↔ (∃ i < size, b = a.plus i) ∨ memory.isCode b := by
  simp only [isCode, markInstruction, AddressSet.contains_insertRange, Bool.or_eq_true,
    List.contains_iff_mem, Address.mem_range]

theorem isAssigned_markInstruction (memory : Memory) (a b : Address) (size : Nat) :
    (memory.markInstruction a size).isAssigned b = memory.isAssigned b := rfl

theorem byte_markInstruction (memory : Memory) (a b : Address) (size : Nat) :
    (memory.markInstruction a size).byte b = memory.byte b := rfl

theorem byte_store (memory : Memory) (a b : Address) (byte : UInt8) :
    (memory.store a byte).byte b = if a = b then byte else memory.byte b :=
  ByteTable.get_set memory.bytes a b byte

theorem code_storeAll (memory : Memory) (origin : Address) (bytes : List UInt8) :
    (memory.storeAll origin bytes).code = memory.code := by
  induction bytes generalizing memory origin with
  | nil => rfl
  | cons byte rest ih => exact ih (memory.store origin byte) (origin + 1)

theorem first_storeAll (memory : Memory) (origin : Address) (bytes : List UInt8) :
    (memory.storeAll origin bytes).first = memory.first := by
  induction bytes generalizing memory origin with
  | nil => rfl
  | cons byte rest ih => exact ih (memory.store origin byte) (origin + 1)

theorem isAssigned_storeAll (memory : Memory) (origin x : Address) (bytes : List UInt8)
    (h : memory.isAssigned x) : (memory.storeAll origin bytes).isAssigned x := by
  induction bytes generalizing memory origin with
  | nil => exact h
  | cons byte rest ih =>
      apply ih
      rw [isAssigned] at h
      simp [isAssigned, store, h]

-- What is loaded is assigned, as long as it does not exceed the address space.
theorem isAssigned_load (memory : Memory) (origin : Address) (bytes : List UInt8)
    (hfits : bytes.length ≤ addressCount) {i : Nat} (hi : i < bytes.length) :
    (memory.load origin bytes).isAssigned (origin.plus i) := by
  rw [load, List.take_of_length_le hfits]
  clear hfits
  induction bytes generalizing memory origin i with
  | nil => cases hi
  | cons byte rest ih =>
      cases i with
      | zero =>
          refine isAssigned_storeAll _ _ _ rest ?_
          simp [isAssigned, store, Address.plus_zero]
      | succ i =>
          rw [← Address.plus_succ]
          exact ih _ _ (Nat.lt_of_succ_lt_succ hi)

theorem unclassified_empty : Memory.empty.Unclassified := by
  intro address
  have hempty := Bool.eq_false_iff.mp (AddressSet.contains_empty address)
  exact ⟨hempty, hempty⟩

theorem unclassified_load (memory : Memory) (h : memory.Unclassified) (origin : Address)
    (bytes : List UInt8) : (memory.load origin bytes).Unclassified := by
  intro address
  rw [isCode, isFirst, load, code_storeAll, first_storeAll]
  exact h address

end Memory

-- The decoder looks at the bytes of a memory and at nothing else that is known of it.
def Decoder.ReadsBytes (decoder : Decoder) : Prop :=
  ∀ memory other : Memory, (∀ address, memory.byte address = other.byte address) →
    ∀ address, decoder memory address = decoder other address

theorem Z80.readsBytes_decode : Decoder.ReadsBytes Z80.decode := by
  intro memory other hbyte address
  have hword : ∀ a, memory.word a = other.word a := fun a => by simp only [Memory.word, hbyte]
  have hvalue : ∀ a code offset operand, Operand.value memory a code offset operand =
      Operand.value other a code offset operand := by
    intro a code offset operand
    cases operand <;> simp only [Operand.value, hbyte, hword]
  have hinstruction : ∀ (opcode : Opcode) a code offset,
      opcode.instruction memory a code offset = opcode.instruction other a code offset := by
    intro opcode a code offset
    simp only [Opcode.instruction, hbyte, hvalue]
  have hindexed : ∀ register a,
      decodeIndexed register memory a = decodeIndexed register other a := by
    intro register a
    simp only [decodeIndexed, hbyte, hinstruction]
  simp only [decode, hbyte, hinstruction, hindexed]

namespace Session

-- An opcode without a prefix.
theorem instructionAt_eq_mainPage {session : Session} (hdecoder : session.decoder = Z80.decode)
    {address : Address} {code : UInt8} (hbyte : session.memory.byte address = code)
    (hmain : code ∉ [0xCB, 0xED, 0xDD, 0xFD]) :
    session.instructionAt address =
      (Z80.mainPage code).instruction session.memory address code 1 := by
  simp only [List.mem_cons, List.not_mem_nil, or_false, not_or] at hmain
  simp [instructionAt, hdecoder, Z80.decode, hbyte, hmain]

-- The addresses of the bytes of the instruction at an address, wrapping at the end of the space.
def extent (session : Session) (address : Address) : Set Address :=
  {b | ∃ i < (session.instructionAt address).size, b = address.plus i}

theorem mem_extent_self (session : Session) (address : Address) :
    address ∈ session.extent address :=
  ⟨0, Instruction.size_pos _, (Address.plus_zero address).symm⟩

theorem mem_extent_iff_mem_range (session : Session) (a b : Address) :
    b ∈ session.extent a ↔ b ∈ a.range (session.instructionAt a).size :=
  (Address.mem_range a b _).symm

theorem mem_extent_iff (session : Session) (a b : Address) :
    b ∈ session.extent a ↔
      b = a ∨ ∃ i, 0 < i ∧ i < (session.instructionAt a).size ∧ b = a.plus i := by
  constructor
  · rintro ⟨i, hi, rfl⟩
    cases i with
    | zero => exact .inl (Address.plus_zero a)
    | succ i => exact .inr ⟨i + 1, Nat.succ_pos i, hi, rfl⟩
  · rintro (rfl | ⟨i, -, hi, rfl⟩)
    · exact mem_extent_self session _
    · exact ⟨i, hi, rfl⟩

structure SameProgram (session other : Session) : Prop where
  decoder : other.decoder = session.decoder
  config : other.config = session.config
  bytes : other.memory.bytes = session.memory.bytes
  assigned : other.memory.assigned = session.memory.assigned

namespace SameProgram

variable {session other third : Session}

theorem refl (session : Session) : session.SameProgram session := ⟨rfl, rfl, rfl, rfl⟩

theorem trans (h : session.SameProgram other) (h' : other.SameProgram third) :
    session.SameProgram third :=
  ⟨h'.decoder.trans h.decoder, h'.config.trans h.config, h'.bytes.trans h.bytes,
    h'.assigned.trans h.assigned⟩

theorem readsBytes (h : session.SameProgram other) (hbytes : session.decoder.ReadsBytes) :
    other.decoder.ReadsBytes := by
  rw [h.decoder]
  exact hbytes

theorem isAssigned_eq (h : session.SameProgram other) (address : Address) :
    other.memory.isAssigned address = session.memory.isAssigned address := by
  rw [Memory.isAssigned, h.assigned, Memory.isAssigned]

theorem instructionAt_eq (h : session.SameProgram other) (hbytes : session.decoder.ReadsBytes)
    (address : Address) : other.instructionAt address = session.instructionAt address := by
  rw [instructionAt, h.decoder]
  exact hbytes _ _ (fun a => by rw [Memory.byte, h.bytes, Memory.byte]) address

theorem extent_eq (h : session.SameProgram other) (hbytes : session.decoder.ReadsBytes)
    (address : Address) : other.extent address = session.extent address := by
  rw [extent, h.instructionAt_eq hbytes, extent]

end SameProgram

end Session

end Z80Atlas
