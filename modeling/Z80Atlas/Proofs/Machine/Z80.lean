import Z80Atlas.Machine.Z80.Decoder

namespace Z80Atlas

-- An instruction of the usual form: it has at most four bytes, and an operand that control branches
-- to stands for code.
structure Instruction.Regular (instruction : Instruction) : Prop where
  size_le : instruction.size ≤ 4
  kind_isCode : ∀ target, instruction.target? = some target → instruction.kind.isCode

def Decoder.Regular (decoder : Decoder) : Prop :=
  ∀ memory address, (decoder memory address).Regular

namespace Z80

def Opcode.isRegular (opcode : Opcode) (offset : Nat) : Bool :=
  match opcode.immediate? with
  | some operand =>
    offset + operand.width ≤ 4 &&
      (!opcode.flow.branch || (opcode.immediateKind operand).isCode)
  | none => offset ≤ 4 && !opcode.flow.branch

theorem size_le_of_length {instruction : Instruction} {length : Nat} (h : length ≤ 4)
    (hlength : instruction.length = UInt8.ofNat length) : instruction.size ≤ 4 := by
  rw [Instruction.size, hlength, UInt8.toNat_ofNat']
  omega

theorem Opcode.regular_instruction {opcode : Opcode} {offset : Nat} (h : opcode.isRegular offset)
    (memory : Memory) (address : Address) (code : UInt8) :
    (opcode.instruction memory address code offset).Regular := by
  unfold isRegular at h
  unfold instruction
  revert h
  cases opcode.immediate? with
  | some operand =>
      intro h
      simp only [Bool.and_eq_true, Bool.or_eq_true, Bool.not_eq_true', decide_eq_true_eq] at h
      refine ⟨size_le_of_length h.1 rfl, ?_⟩
      intro target htarget
      rcases h.2 with hbranch | hcode
      · simp [Instruction.target?, hbranch] at htarget
      · exact hcode
  | none =>
      intro h
      simp only [Bool.and_eq_true, Bool.not_eq_true', decide_eq_true_eq] at h
      refine ⟨size_le_of_length h.1 rfl, ?_⟩
      intro target htarget
      simp [Instruction.target?, h.2] at htarget

def Opcode.width (opcode : Opcode) : Nat := opcode.immediate?.elim 0 Operand.width

theorem Opcode.length_instruction {opcode : Opcode} {offset : Nat} (h : opcode.isRegular offset)
    (memory : Memory) (address : Address) (code : UInt8) :
    (opcode.instruction memory address code offset).length.toNat = offset + opcode.width ∧
      offset + opcode.width ≤ 4 := by
  unfold isRegular at h
  unfold instruction width
  cases himmediate : opcode.immediate? with
  | some operand =>
      simp only [himmediate, Bool.and_eq_true, decide_eq_true_eq] at h
      simp only [Option.elim_some, UInt8.toNat_ofNat']
      omega
  | none =>
      simp only [himmediate, Bool.and_eq_true, decide_eq_true_eq] at h
      simp only [Option.elim_none, UInt8.toNat_ofNat']
      omega

-- A property of all bytes can be checked one by one.
theorem forall_byte {P : UInt8 → Prop} (h : ∀ n < 256, P (UInt8.ofNat n)) (byte : UInt8) :
    P byte := by
  have hbyte := h byte.toNat byte.toNat_lt
  rwa [UInt8.ofNat_toNat] at hbyte

theorem isRegular_mainPage (code : UInt8) : (mainPage code).isRegular 1 :=
  forall_byte (P := fun code => (mainPage code).isRegular 1) (by decide +kernel) code

theorem isRegular_bitPage (code : UInt8) : (bitPage code).isRegular 2 :=
  forall_byte (P := fun code => (bitPage code).isRegular 2) (by decide +kernel) code

theorem isRegular_extendedPage {code : UInt8} {opcode : Opcode}
    (h : extendedPage? code = some opcode) : opcode.isRegular 2 := by
  have hall := forall_byte (P := fun code => (extendedPage? code).all (·.isRegular 2))
    (by decide +kernel) code
  rwa [h] at hall

theorem isRegular_withIndex (code : UInt8) (register : Index) :
    ((mainPage code).withIndex register).isRegular
      (if ((mainPage code).withIndex register).isDisplaced then 3 else 2) := by
  cases register with
  | ix =>
      exact forall_byte (P := fun code => ((mainPage code).withIndex .ix).isRegular
        (if ((mainPage code).withIndex .ix).isDisplaced then 3 else 2)) (by decide +kernel) code
  | iy =>
      exact forall_byte (P := fun code => ((mainPage code).withIndex .iy).isRegular
        (if ((mainPage code).withIndex .iy).isDisplaced then 3 else 2)) (by decide +kernel) code

theorem isRegular_withIndexBit (code : UInt8) (register : Index) :
    ((bitPage code).withIndexBit register).isRegular 4 := by
  cases register with
  | ix =>
      exact forall_byte (P := fun code => ((bitPage code).withIndexBit .ix).isRegular 4)
        (by decide +kernel) code
  | iy =>
      exact forall_byte (P := fun code => ((bitPage code).withIndexBit .iy).isRegular 4)
        (by decide +kernel) code

inductive Opcode.Listed : Opcode → Prop
  | main (code : UInt8) : Listed (mainPage code)
  | bit (code : UInt8) : Listed (bitPage code)
  | extended (code : UInt8) (opcode : Opcode) (h : extendedPage? code = some opcode) : Listed opcode
  | index (code : UInt8) (register : Index) : Listed ((mainPage code).withIndex register)
  | indexBit (code : UInt8) (register : Index) : Listed ((bitPage code).withIndexBit register)

def passesAt (check : Opcode → Bool) (code : UInt8) : Bool :=
  check (mainPage code) && check (bitPage code) && (extendedPage? code).all check &&
    [Index.ix, .iy].all fun register =>
      check ((mainPage code).withIndex register) && check ((bitPage code).withIndexBit register)

theorem Opcode.Listed.passes {opcode : Opcode} (h : Opcode.Listed opcode) {check : Opcode → Bool}
    (hall : ∀ code, passesAt check code) : check opcode := by
  simp only [passesAt, Bool.and_eq_true, List.all_cons, List.all_nil] at hall
  cases h with
  | main code => exact (hall code).1.1.1
  | bit code => exact (hall code).1.1.2
  | extended code opcode hopcode => simpa [hopcode] using (hall code).1.2
  | index code register =>
      cases register with
      | ix => exact (hall code).2.1.1
      | iy => exact (hall code).2.2.1.1
  | indexBit code register =>
      cases register with
      | ix => exact (hall code).2.1.2
      | iy => exact (hall code).2.2.1.2

def Index.opening : Index → UInt8
  | .ix => 0xDD
  | .iy => 0xFD

-- The bytes at an address lead to an operation: `code` is its number on the page, and `offset` bytes
-- stand in front of its operand.
inductive Selects (memory : Memory) (address : Address) : Opcode → UInt8 → Nat → Prop
  | main (hcode : memory.byte address ∉ [0xCB, 0xDD, 0xED, 0xFD]) :
      Selects memory address (mainPage (memory.byte address)) (memory.byte address) 1
  | bit (hcode : memory.byte address = 0xCB) :
      Selects memory address (bitPage (memory.byte (address.plus 1)))
        (memory.byte (address.plus 1)) 2
  | extended (opcode : Opcode) (hcode : memory.byte address = 0xED)
      (hopcode : extendedPage? (memory.byte (address.plus 1)) = some opcode) :
      Selects memory address opcode (memory.byte (address.plus 1)) 2
  | index (register : Index) (hcode : memory.byte address = register.opening)
      (hnext : memory.byte (address.plus 1) ∉ [0xCB, 0xDD, 0xED, 0xFD]) :
      Selects memory address ((mainPage (memory.byte (address.plus 1))).withIndex register)
        (memory.byte (address.plus 1))
        (if ((mainPage (memory.byte (address.plus 1))).withIndex register).isDisplaced then 3 else 2)
  | indexBit (register : Index) (hcode : memory.byte address = register.opening)
      (hnext : memory.byte (address.plus 1) = 0xCB) :
      Selects memory address ((bitPage (memory.byte (address.plus 3))).withIndexBit register)
        (memory.byte (address.plus 3)) 4

def Overrides (memory : Memory) (address : Address) : Prop :=
  memory.byte address ∈ [0xDD, 0xFD] ∧ memory.byte (address.plus 1) ∈ [0xDD, 0xED, 0xFD]

def Meaningless (memory : Memory) (address : Address) : Prop :=
  memory.byte address = 0xED ∧ extendedPage? (memory.byte (address.plus 1)) = none

section Selection

variable {memory : Memory} {address : Address} {opcode : Opcode} {code : UInt8} {offset : Nat}

theorem Selects.listed (h : Selects memory address opcode code offset) : opcode.Listed := by
  cases h with
  | main => exact .main _
  | bit => exact .bit _
  | extended _ _ hopcode => exact .extended _ _ hopcode
  | index register => exact .index _ register
  | indexBit register => exact .indexBit _ register

theorem Selects.isRegular (h : Selects memory address opcode code offset) :
    opcode.isRegular offset := by
  cases h with
  | main => exact isRegular_mainPage _
  | bit => exact isRegular_bitPage _
  | extended _ _ hopcode => exact isRegular_extendedPage hopcode
  | index register => exact isRegular_withIndex _ register
  | indexBit register => exact isRegular_withIndexBit _ register

theorem decode_of_opening {register : Index} (h : memory.byte address = register.opening) :
    decode memory address = decodeIndexed register memory address := by
  cases register <;> simp [decode, h, Index.opening]

theorem Selects.decode_eq (h : Selects memory address opcode code offset) :
    decode memory address = opcode.instruction memory address code offset := by
  cases h with
  | main hcode =>
      simp only [List.mem_cons, List.not_mem_nil, or_false, not_or] at hcode
      simp [decode, hcode]
  | bit hcode => simp [decode, hcode]
  | extended _ hcode hopcode => simp [decode, hcode, hopcode]
  | index register hcode hnext =>
      simp only [List.mem_cons, List.not_mem_nil, or_false, not_or] at hnext
      simp [decode_of_opening hcode, decodeIndexed, hnext]
  | indexBit register hcode hnext => simp [decode_of_opening hcode, decodeIndexed, hnext]

theorem Overrides.decode_eq (h : Overrides memory address) :
    decode memory address = overridden (memory.byte (address.plus 1)) := by
  obtain ⟨hcode, hnext⟩ := h
  have hindexed : ∀ register, decodeIndexed register memory address =
      overridden (memory.byte (address.plus 1)) := by
    intro register
    simp only [List.mem_cons, List.not_mem_nil, or_false] at hnext
    rcases hnext with hnext | hnext | hnext <;> simp [decodeIndexed, hnext]
  simp only [List.mem_cons, List.not_mem_nil, or_false] at hcode
  rcases hcode with hcode | hcode <;> simp [decode, hcode, hindexed]

theorem Meaningless.decode_eq (h : Meaningless memory address) : decode memory address = invalid := by
  simp [decode, h.1, h.2]

-- There is always an operation, unless the bytes mean nothing or a prefix overrides another.
theorem selects_or (memory : Memory) (address : Address) :
    (∃ opcode code offset, Selects memory address opcode code offset) ∨
      Overrides memory address ∨ Meaningless memory address := by
  by_cases hmain : memory.byte address ∉ [0xCB, 0xDD, 0xED, 0xFD]
  · exact .inl ⟨_, _, _, .main hmain⟩
  have hindexed : ∀ register : Index, memory.byte address = register.opening →
      (∃ opcode code offset, Selects memory address opcode code offset) ∨
        Overrides memory address := by
    intro register hcode
    by_cases hnext : memory.byte (address.plus 1) ∉ [0xCB, 0xDD, 0xED, 0xFD]
    · exact .inl ⟨_, _, _, .index register hcode hnext⟩
    by_cases hbit : memory.byte (address.plus 1) = 0xCB
    · exact .inl ⟨_, _, _, .indexBit register hcode hbit⟩
    · refine .inr ⟨?_, ?_⟩
      · cases register <;> simp [hcode, Index.opening]
      · simpa only [List.mem_cons, hbit, false_or, Decidable.not_not] using hnext
  simp only [List.mem_cons, List.not_mem_nil, or_false, Decidable.not_not] at hmain
  rcases hmain with hcode | hcode | hcode | hcode
  · exact .inl ⟨_, _, _, .bit hcode⟩
  · exact (hindexed .ix hcode).imp_right .inl
  · cases hopcode : extendedPage? (memory.byte (address.plus 1)) with
    | some opcode => exact .inl ⟨_, _, _, .extended opcode hcode hopcode⟩
    | none => exact .inr (.inr ⟨hcode, hopcode⟩)
  · exact (hindexed .iy hcode).imp_right .inl

end Selection

-- Every instruction is that of an operation, or one of two that do nothing.
theorem decode_cases (memory : Memory) (address : Address) :
    (∃ opcode code offset, Selects memory address opcode code offset ∧
      decode memory address = opcode.instruction memory address code offset) ∨
    (∃ next, decode memory address = overridden next) ∨ decode memory address = invalid := by
  rcases selects_or memory address with ⟨opcode, code, offset, h⟩ | h | h
  · exact .inl ⟨opcode, code, offset, h, h.decode_eq⟩
  · exact .inr (.inl ⟨_, h.decode_eq⟩)
  · exact .inr (.inr h.decode_eq)

theorem regular_decode : Decoder.Regular decode := by
  intro memory address
  rcases decode_cases memory address with ⟨opcode, code, offset, h, heq⟩ | ⟨next, heq⟩ | heq
  · rw [heq]
    exact Opcode.regular_instruction h.isRegular memory address code
  · rw [heq]
    refine ⟨size_le_of_length (by decide : 1 ≤ 4) rfl, ?_⟩
    simp [overridden, Instruction.target?]
  · rw [heq]
    refine ⟨size_le_of_length (by decide : 2 ≤ 4) rfl, ?_⟩
    simp [invalid, Instruction.target?]

-- A restart leads to one of the lowest addresses.
theorem restart_le {memory : Memory} {address target : Address}
    (hkind : (decode memory address).kind = .restart)
    (htarget : (decode memory address).target? = some target) : target.toNat ≤ 0x38 := by
  have hbound : ∀ code : UInt8, (code &&& 0x38).toUInt16.toNat ≤ 0x38 :=
    forall_byte (P := fun code => (code &&& 0x38).toUInt16.toNat ≤ 0x38) (by decide +kernel)
  rcases decode_cases memory address with ⟨opcode, code, offset, -, heq⟩ | ⟨next, heq⟩ | heq
  · rw [heq] at hkind htarget
    unfold Opcode.instruction at hkind htarget
    cases himmediate : opcode.immediate? with
    | none =>
        simp only [himmediate] at hkind
        split at hkind <;> cases hkind
    | some operand =>
        simp only [himmediate, Instruction.target?] at hkind htarget
        have hoperand : operand = .restart := by
          cases operand <;> simp only [Opcode.immediateKind] at hkind <;> grind
        subst hoperand
        split at htarget
        · cases htarget
          exact hbound code
        · cases htarget
  · rw [heq] at hkind
    cases hkind
  · rw [heq] at hkind
    cases hkind

def Opcode.isAimed (opcode : Opcode) : Bool := !opcode.flow.call || opcode.immediate?.isSome

theorem Opcode.Listed.isAimed {opcode : Opcode} (h : Opcode.Listed opcode) : opcode.isAimed :=
  h.passes (forall_byte (by decide +kernel))

theorem Opcode.branch_of_call {opcode : Opcode} (h : opcode.flow.call) : opcode.flow.branch := by
  unfold flow at h ⊢
  dsimp only at h ⊢
  grind

theorem exists_target_of_call {memory : Memory} {address : Address}
    (h : (decode memory address).flow.call) :
    ∃ target, (decode memory address).target? = some target := by
  rcases decode_cases memory address with ⟨opcode, code, offset, hselects, heq⟩ | ⟨next, heq⟩ | heq
  · rw [heq] at h ⊢
    have haimed := hselects.listed.isAimed
    unfold Opcode.instruction at h ⊢
    cases himmediate : opcode.immediate? with
    | none =>
        simp only [himmediate] at h
        simp [Opcode.isAimed, h, himmediate] at haimed
    | some operand =>
        simp only [himmediate] at h ⊢
        simp [Instruction.target?, Opcode.branch_of_call h]
  · rw [heq] at h
    cases h
  · rw [heq] at h
    cases h

end Z80

end Z80Atlas
