import Z80Atlas.Proofs.Machine.Coherence
import Z80Atlas.Proofs.Machine.Extent

namespace Z80Atlas

theorem Address.plus_add_one (address : Address) (distance : Nat) :
    address.plus distance + 1 = address.plus (distance + 1) := by
  have hsum : UInt16.ofNat (distance + 1) = UInt16.ofNat distance + 1 := by simp
  rw [plus, plus, hsum, UInt16.add_assoc]

namespace Memory

def AgreesFrom (memory other : Memory) (address : Address) (count : Nat) : Prop :=
  ∀ i < count, other.byte (address.plus i) = memory.byte (address.plus i)

theorem AgreesFrom.mono {memory other : Memory} {address : Address} {count fewer : Nat}
    (h : memory.AgreesFrom other address count) (hle : fewer ≤ count) :
    memory.AgreesFrom other address fewer :=
  fun i hi => h i (by omega)

def loadBlocks (memory : Memory) (blocks : List (Address × List UInt8)) : Memory :=
  blocks.foldl (fun memory block => memory.load block.1 block.2) memory

theorem byte_storeAll (memory : Memory) (origin x : Address) (bytes : List UInt8)
    (h : ∀ j < bytes.length, origin.plus j ≠ x) :
    (memory.storeAll origin bytes).byte x = memory.byte x := by
  induction bytes generalizing memory origin with
  | nil => rfl
  | cons byte rest ih =>
      have hfirst : origin ≠ x := by
        simpa [Address.plus_zero] using h 0 (by simp)
      rw [storeAll, ih, byte_store, if_neg hfirst]
      intro j hj
      rw [Address.plus_succ]
      exact h (j + 1) (by simpa using hj)

-- What is loaded elsewhere leaves a byte as it is, and loaded addresses stay so.
theorem byte_loadBlocks (memory : Memory) (blocks : List (Address × List UInt8)) (x : Address)
    (h : ∀ block ∈ blocks, ∀ j < block.2.length, block.1.plus j ≠ x) :
    (memory.loadBlocks blocks).byte x = memory.byte x := by
  refine List.foldlRecOn (motive := fun current : Memory => current.byte x = memory.byte x) blocks
    (fun memory block => memory.load block.1 block.2) rfl ?_
  intro current hcurrent block hblock
  rw [load, byte_storeAll, hcurrent]
  intro j hj
  apply h block hblock j
  simp only [List.length_take] at hj
  omega

theorem isAssigned_loadBlocks (memory : Memory) (blocks : List (Address × List UInt8)) (x : Address)
    (h : memory.isAssigned x) : (memory.loadBlocks blocks).isAssigned x := by
  refine List.foldlRecOn (motive := fun current : Memory => current.isAssigned x) blocks
    (fun memory block => memory.load block.1 block.2) h ?_
  intro current hcurrent block _
  exact isAssigned_storeAll current _ x _ hcurrent

end Memory

namespace Z80

section Footprint

variable {memory other : Memory} {address : Address} {opcode : Opcode} {code : UInt8} {offset : Nat}

-- An operand is read from the bytes behind the opcode, as many as it is wide.
theorem Operand.value_congr {operand : Operand} (h : operand.isImmediate)
    (hagree : memory.AgreesFrom other address (offset + operand.width)) :
    operand.value other address code offset = operand.value memory address code offset := by
  have hbyte : 0 < operand.width →
      other.byte (address.plus offset) = memory.byte (address.plus offset) :=
    fun hwidth => hagree offset (by omega)
  have hword : operand.width = 2 → other.word (address.plus offset) = memory.word (address.plus offset) := by
    intro hwidth
    rw [Memory.word, Memory.word, Address.plus_add_one, hbyte (by omega),
      hagree (offset + 1) (by omega)]
  cases operand with
  | word => exact hword rfl
  | memory => exact hword rfl
  | byte => simp only [value, hbyte Nat.one_pos]
  | port => simp only [value, hbyte Nat.one_pos]
  | distance => simp only [value, hbyte Nat.one_pos]
  | restart => rfl
  | _ => cases h

theorem Opcode.text_eq_of_not_displaced (h : opcode.isDisplaced = false) (d e : String) :
    opcode.text d = opcode.text e := by
  have hoperands : opcode.operands.map (·.text d) = opcode.operands.map (·.text e) := by
    apply List.map_congr_left
    intro operand hmem
    apply Operand.text_eq_of_not_displaced
    simpa using List.any_eq_false.mp h operand hmem
  unfold Opcode.text
  split
  · rfl
  · rw [hoperands]

-- A displacement is the third byte.
theorem Opcode.instruction_congr (hdisplaced : opcode.isDisplaced → 2 < offset)
    (hagree : memory.AgreesFrom other address (offset + opcode.width)) :
    opcode.instruction other address code offset =
      opcode.instruction memory address code offset := by
  have htext : opcode.text (Text.displacement (other.byte (address.plus 2)).toInt8.toInt) =
      opcode.text (Text.displacement (memory.byte (address.plus 2)).toInt8.toInt) := by
    by_cases h : opcode.isDisplaced
    · rw [hagree 2 (by have := hdisplaced h; omega)]
    · exact text_eq_of_not_displaced (by simpa using h) _ _
  unfold instruction
  cases himmediate : opcode.immediate? with
  | some operand =>
      have hvalue : operand.value other address code offset = operand.value memory address code offset :=
        Operand.value_congr (isImmediate_of_immediate? himmediate).2
          (by simpa [width, himmediate] using hagree)
      simp only [htext, hvalue]
  | none =>
      by_cases h : opcode.isDisplaced
      · rw [hagree 2 (by have := hdisplaced h; omega)]
      · simp only [h, if_false, Bool.false_eq_true]

theorem Selects.two_lt_of_displaced (h : Selects memory address opcode code offset)
    (hdisplaced : opcode.isDisplaced) : 2 < offset := by
  have hpages : ∀ code, (mainPage code).isDisplaced = false ∧ (bitPage code).isDisplaced = false ∧
      (extendedPage? code).all (!·.isDisplaced) := forall_byte (by decide +kernel)
  cases h with
  | main => simp [hpages] at hdisplaced
  | bit => simp [hpages] at hdisplaced
  | extended _ _ hopcode =>
      have hpage := (hpages (memory.byte (address.plus 1))).2.2
      simp [hopcode, hdisplaced] at hpage
  | index register => simp [hdisplaced]
  | indexBit register => omega

-- The bytes in front of the operand tell the operation.
theorem Selects.congr (h : Selects memory address opcode code offset)
    (hagree : memory.AgreesFrom other address offset) :
    Selects other address opcode code offset := by
  have hfirst : other.byte address = memory.byte address := by
    simpa [Address.plus_zero] using hagree 0 h.offset_pos
  cases h with
  | main hcode =>
      rw [← hfirst] at hcode ⊢
      exact .main hcode
  | bit hcode =>
      rw [← hagree 1 (by omega)]
      exact .bit (hfirst.trans hcode)
  | extended _ hcode hopcode =>
      rw [← hagree 1 (by omega)] at hopcode ⊢
      exact .extended opcode (hfirst.trans hcode) hopcode
  | index register hcode hnext =>
      rw [← hagree 1 (by split <;> omega)] at hnext ⊢
      exact .index register (hfirst.trans hcode) hnext
  | indexBit register hcode hnext =>
      rw [← hagree 3 (by omega)]
      exact .indexBit register (hfirst.trans hcode) ((hagree 1 (by omega)).trans hnext)

instance (memory : Memory) (address : Address) : Decidable (Overrides memory address) :=
  inferInstanceAs (Decidable (_ ∧ _))

-- The number of bytes that decide what stands at an address: those of the instruction, and the next
-- one if that is a prefix which overrides the one before.
def footprint (memory : Memory) (address : Address) : Nat :=
  if Overrides memory address then 2 else (decode memory address).length.toNat

theorem length_le_footprint (memory : Memory) (address : Address) :
    (decode memory address).length.toNat ≤ footprint memory address := by
  unfold footprint
  split
  · next h =>
    rw [h.decode_eq]
    show (1 : UInt8).toNat ≤ 2
    decide
  · exact Nat.le_refl _

theorem decode_congr (hagree : memory.AgreesFrom other address (footprint memory address)) :
    decode other address = decode memory address := by
  have hlength := length_le_footprint memory address
  rcases selects_or memory address with ⟨opcode, code, offset, h⟩ | h | h
  · obtain ⟨hsum, -⟩ := Opcode.length_instruction h.isRegular memory address code
    rw [h.decode_eq, hsum] at hlength
    rw [(h.congr (hagree.mono (by omega))).decode_eq, h.decode_eq]
    exact Opcode.instruction_congr h.two_lt_of_displaced (hagree.mono hlength)
  · have htwo : footprint memory address = 2 := if_pos h
    rw [htwo] at hagree
    have hfirst := hagree 0 (by omega)
    have hnext := hagree 1 (by omega)
    rw [Address.plus_zero] at hfirst
    have hother : Overrides other address := by rwa [Overrides, hfirst, hnext]
    rw [hother.decode_eq, h.decode_eq, hnext]
  · rw [h.decode_eq] at hlength ⊢
    have hagree := hagree.mono hlength
    have hfirst := hagree 0 (by decide)
    have hnext := hagree 1 (by decide)
    rw [Address.plus_zero] at hfirst
    apply Meaningless.decode_eq
    rwa [Meaningless, hfirst, hnext]

end Footprint

-- What stands at an address depends on nothing but the bytes of its footprint. So an instruction that
-- is loaded stays what it is, whatever is loaded afterwards outside of that.
theorem decode_depends_on_footprint :
    (∀ (memory other : Memory) (address : Address),
      (∀ i < footprint memory address,
        other.byte (address.plus i) = memory.byte (address.plus i)) →
      decode other address = decode memory address) ∧
    ∀ (blocks later : List (Address × List UInt8)) (address : Address),
      let memory := Memory.empty.loadBlocks blocks
      (∀ i < (decode memory address).length.toNat, memory.isAssigned (address.plus i)) →
      (∀ block ∈ later, ∀ j < block.2.length, ∀ i < footprint memory address,
        block.1.plus j ≠ address.plus i) →
      decode (memory.loadBlocks later) address = decode memory address ∧
        ∀ i < (decode memory address).length.toNat,
          (memory.loadBlocks later).isAssigned (address.plus i) := by
  refine ⟨fun memory other address => decode_congr, ?_⟩
  intro blocks later address memory hassigned houtside
  refine ⟨decode_congr fun i hi => ?_, fun i hi => ?_⟩
  · exact memory.byte_loadBlocks later _ fun block hblock j hj => houtside block hblock j hj i hi
  · exact memory.isAssigned_loadBlocks later _ (hassigned i hi)

-- A prefix at the end of the address space, and another one at its beginning that overrides it.
theorem decode_depends_on_footprint_across_end :
    let memory := Memory.empty.loadBlocks [(0xFFFF, [0xDD, 0xFD])]
    (decode memory 0xFFFF).template = "[NOP]" ∧ footprint memory 0xFFFF = 2 ∧
      memory.isAssigned 0xFFFF ∧
      decode (memory.store 0x0001 0x21) 0xFFFF = decode memory 0xFFFF ∧
      decode (memory.loadBlocks [(0x0001, [0x21])]) 0xFFFF = decode memory 0xFFFF := by
  intro memory
  obtain ⟨hlocal, hloaded⟩ := decode_depends_on_footprint
  have hfirst : memory.byte 0xFFFF = 0xDD := by
    simp [memory, Memory.loadBlocks, Memory.load, Memory.storeAll, Memory.byte_store]
  have hnext : memory.byte 0x0000 = 0xFD := by
    simp [memory, Memory.loadBlocks, Memory.load, Memory.storeAll, Memory.byte_store]
  have hassigned : memory.isAssigned 0xFFFF := by
    simp [memory, Memory.loadBlocks, Memory.load, Memory.storeAll, Memory.store, Memory.isAssigned]
  have hover : Overrides memory 0xFFFF := by
    constructor
    · simp [hfirst]
    · simp [show (0xFFFF : Address).plus 1 = 0x0000 from rfl, hnext]
  have hdecode := hover.decode_eq
  have htwo : footprint memory 0xFFFF = 2 := if_pos hover
  have hlength : (decode memory 0xFFFF).length.toNat = 1 := by
    rw [hdecode]
    rfl
  refine ⟨by rw [hdecode]; rfl, htwo, hassigned, ?_, ?_⟩
  · apply hlocal
    rw [htwo]
    intro i hi
    rw [Memory.byte_store, if_neg]
    revert i
    decide
  · refine (hloaded [(0xFFFF, [0xDD, 0xFD])] [(0x0001, [0x21])] 0xFFFF ?_ ?_).1
    · rw [hlength]
      intro i hi
      obtain rfl : i = 0 := by omega
      exact hassigned
    · rw [htwo]
      decide

end Z80

end Z80Atlas
