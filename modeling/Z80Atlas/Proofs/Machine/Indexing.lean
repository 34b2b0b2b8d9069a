import Z80Atlas.Proofs.Machine.Footprint

namespace Z80Atlas

theorem Text.replaceFirst_append {c : Char} {front : List Char} (h : c ∉ front)
    (part rest : List Char) :
    replaceFirst c part (front ++ c :: rest) = front ++ (part ++ rest) := by
  induction front with
  | nil => simp [replaceFirst]
  | cons d front ih =>
      simp only [List.mem_cons, not_or] at h
      simp [replaceFirst, Ne.symm h.1, ih h.2]

-- The operand takes the place of the first mark in the template.
theorem Instruction.mnemonic_eq {instruction : Instruction} {front rest : String}
    (htemplate : instruction.template = front ++ "#" ++ rest) (hfront : '#' ∉ front.toList) :
    instruction.mnemonic = front ++ instruction.operandText ++ rest := by
  rw [← String.toList_inj, mnemonic, render, String.toList_ofList]
  simp only [Bool.false_eq_true, if_false, htemplate, String.toList_append, List.append_assoc]
  exact Text.replaceFirst_append hfront _ _

namespace Z80

section Operands

variable {register : Index} {throughPair : Bool}

theorem Operand.isImmediate_withIndex (operand : Operand) :
    (operand.withIndex register throughPair).isImmediate = operand.isImmediate := by
  cases operand <;> cases throughPair <;> rfl

theorem Operand.isCondition_withIndex (operand : Operand) :
    (operand.withIndex register throughPair).isCondition = operand.isCondition := by
  cases operand <;> cases throughPair <;> rfl

theorem Operand.withIndex_of_isImmediate {operand : Operand} (h : operand.isImmediate) :
    operand.withIndex register throughPair = operand := by
  cases operand with
  | byte | word | port | memory | distance | restart => rfl
  | _ => cases h

theorem Operand.withIndex_eq_sp_iff (operand : Operand) :
    operand.withIndex register throughPair = .sp ↔ operand = .sp := by
  cases operand <;> cases throughPair <;> simp [withIndex]

theorem Operand.withIndex_eq_word_iff (operand : Operand) :
    operand.withIndex register throughPair = .word ↔ operand = .word := by
  cases operand <;> cases throughPair <;> simp [withIndex]

-- An operand is found where it stands: a byte further in, or an address on. The target of a relative
-- jump is the same, since distances count from the end of the instruction.
theorem Operand.value_plus_one (memory : Memory) (address : Address) (code : UInt8) (offset : Nat)
    (operand : Operand) :
    operand.value memory (address.plus 1) code offset =
      operand.value memory address code (offset + 1) := by
  have hplus : ∀ distance, (address.plus 1).plus distance = address.plus (distance + 1) :=
    address.plus_succ
  cases operand <;> simp only [value, hplus]

end Operands

section Opcodes

variable (opcode : Opcode) (register : Index)

-- What an index register replaces is no operand that is read with the opcode.
theorem Opcode.immediate?_withIndex : (opcode.withIndex register).immediate? = opcode.immediate? := by
  unfold withIndex
  split
  · rfl
  · next hmnemonic hoperands => simp [immediate?, hoperands, Operand.isImmediate]
  · have hsame : ((·.isImmediate) ∘ fun operand : Operand =>
        operand.withIndex register opcode.readsPair) = (·.isImmediate) := by
      funext operand
      exact operand.isImmediate_withIndex
    simp only [immediate?, List.find?_map, hsame]
    cases hfind : opcode.operands.find? (·.isImmediate) with
    | none => rfl
    | some operand =>
        rw [Option.map_some, Operand.withIndex_of_isImmediate (List.find?_some hfind)]

theorem Opcode.isConditional_withIndex :
    (opcode.withIndex register).isConditional = opcode.isConditional := by
  unfold withIndex
  split
  · rfl
  · next hmnemonic hoperands => simp [isConditional, hoperands, Operand.isCondition]
  · simp only [isConditional, List.any_map, Function.comp_def, Operand.isCondition_withIndex]

theorem Opcode.mnemonic_withIndex : (opcode.withIndex register).mnemonic = opcode.mnemonic := by
  unfold withIndex
  split
  · rfl
  · next hmnemonic _ => exact hmnemonic.symm
  · rfl

theorem Opcode.operands_withIndex_eq_iff :
    (opcode.withIndex register).operands = [.sp, .word] ↔ opcode.operands = [.sp, .word] := by
  unfold withIndex
  split
  · rfl
  · next hmnemonic hoperands => simp [hoperands]
  · simp only [List.map_eq_cons_iff, List.map_eq_nil_iff, Operand.withIndex_eq_sp_iff,
      Operand.withIndex_eq_word_iff]
    grind

theorem Opcode.flow_withIndex : (opcode.withIndex register).flow = opcode.flow := by
  have hload : ((opcode.withIndex register).operands == [.sp, .word]) =
      (opcode.operands == [.sp, .word]) := by
    rw [Bool.eq_iff_iff, beq_iff_eq, beq_iff_eq]
    exact opcode.operands_withIndex_eq_iff register
  unfold flow
  rw [opcode.mnemonic_withIndex, opcode.isConditional_withIndex, opcode.immediate?_withIndex, hload]

theorem Opcode.immediateKind_withIndex (operand : Operand) :
    (opcode.withIndex register).immediateKind operand = opcode.immediateKind operand := by
  unfold immediateKind
  rw [opcode.mnemonic_withIndex, opcode.flow_withIndex]

end Opcodes

-- Only an operation that reads memory through HL takes a displacement.
theorem isDisplaced_withIndex_mainPage (code : UInt8) (register : Index) :
    ((mainPage code).withIndex register).isDisplaced = (mainPage code).readsPair := by
  cases register with
  | ix =>
      exact forall_byte (P := fun code => ((mainPage code).withIndex .ix).isDisplaced =
        (mainPage code).readsPair) (by decide +kernel) code
  | iy =>
      exact forall_byte (P := fun code => ((mainPage code).withIndex .iy).isDisplaced =
        (mainPage code).readsPair) (by decide +kernel) code

theorem isDisplaced_mainPage (code : UInt8) : (mainPage code).isDisplaced = false :=
  forall_byte (P := fun code => (mainPage code).isDisplaced = false) (by decide +kernel) code

-- The one operation that works on memory through HL and has another operand.
theorem immediate?_of_readsPair {code : UInt8} (h : (mainPage code).readsPair) (hcode : code ≠ 0x36) :
    (mainPage code).immediate? = none := by
  revert hcode h
  exact forall_byte (P := fun code => (mainPage code).readsPair → code ≠ 0x36 →
    (mainPage code).immediate? = none) (by decide +kernel) code

-- The text shows memory that HL points at. A jump to the address in HL reads no memory.
def ShowsPair (text : String) : Prop := "(HL)".toList <:+: text.toList ∧ text ≠ "JP (HL)"

instance (text : String) : Decidable (ShowsPair text) := inferInstanceAs (Decidable (_ ∧ _))

theorem showsPair_mainPage_iff (code : UInt8) (d : String) :
    ShowsPair ((mainPage code).text d) ↔ (mainPage code).readsPair := by
  rw [Opcode.text_eq_of_not_displaced (isDisplaced_mainPage code) d "#"]
  exact forall_byte (P := fun code => ShowsPair ((mainPage code).text "#") ↔
    (mainPage code).readsPair) (by decide +kernel) code

section Instructions

variable {opcode : Opcode} {register : Index} (memory : Memory) (address : Address) (code : UInt8)
  (offset : Nat)

theorem Opcode.width_withIndex (opcode : Opcode) (register : Index) :
    (opcode.withIndex register).width = opcode.width := by
  rw [width, width, immediate?_withIndex]

-- Without a displacement, an index prefix adds its own byte and changes the text, nothing else.
theorem Opcode.instruction_withIndex (hplain : opcode.isDisplaced = false)
    (hindexed : (opcode.withIndex register).isDisplaced = false) :
    (opcode.withIndex register).instruction memory address code (offset + 1) =
      { opcode.instruction memory (address.plus 1) code offset with
        length := UInt8.ofNat (offset + 1 + opcode.width)
        template := (opcode.withIndex register).text "#" } := by
  unfold instruction
  rw [immediate?_withIndex, flow_withIndex]
  cases himmediate : opcode.immediate? with
  | some operand =>
      simp only [width, himmediate, Option.elim_some, Operand.value_plus_one,
        immediateKind_withIndex, text_eq_of_not_displaced hindexed _ "#"]
  | none =>
      simp [width, himmediate, hplain, hindexed]

theorem Opcode.template_instruction (h : opcode.isDisplaced = false) :
    (opcode.instruction memory address code offset).template = opcode.text "#" := by
  unfold instruction
  cases opcode.immediate? with
  | some operand => exact text_eq_of_not_displaced h _ _
  | none => rfl

-- A displacement that is the only operand is the value of the instruction.
theorem Opcode.instruction_of_displaced (himmediate : opcode.immediate? = none)
    (hdisplaced : opcode.isDisplaced) :
    (opcode.instruction memory address code offset).value =
        some (signExtend (memory.byte (address.plus 2))) ∧
      (opcode.instruction memory address code offset).kind = .displacement := by
  simp [instruction, himmediate, hdisplaced]

-- The load of a byte into displaced memory: the byte is the operand, the displacement stands in the
-- text.
theorem instruction_loadDisplaced (register : Index) :
    let instruction := Opcode.instruction ⟨.ld, [.displaced register, .byte]⟩ memory address code 3
    instruction.value = some (memory.byte (address.plus 3)).toUInt16 ∧ instruction.kind = .byte ∧
      instruction.mnemonic = "LD (" ++ register.text ++
        Text.displacement (memory.byte (address.plus 2)).toInt8.toInt ++ ")," ++
        Text.hex2 (memory.byte (address.plus 3)) ++ "h" := by
  intro instruction
  have hvalue : instruction.value = some (memory.byte (address.plus 3)).toUInt16 := rfl
  have hkind : instruction.kind = .byte := rfl
  refine ⟨hvalue, hkind, ?_⟩
  have htemplate : instruction.template = "LD (" ++ register.text ++
      Text.displacement (memory.byte (address.plus 2)).toInt8.toInt ++ ")," ++ "#" ++ "" := by
    rw [← String.toList_inj]
    simp [instruction, Opcode.instruction, Opcode.immediate?, Operand.isImmediate, Opcode.text,
      Operand.text, Mnemonic.text]
  have hoperand : instruction.operandText = Text.hex2 (memory.byte (address.plus 3)) ++ "h" := by
    simp [Instruction.operandText, hvalue, hkind]
  have hfront : '#' ∉ ("LD (" ++ register.text ++
      Text.displacement (memory.byte (address.plus 2)).toInt8.toInt ++ "),").toList := by
    rw [← List.count_eq_zero]
    have hdisplacement := count_displacement (c := '#') rfl (memory.byte (address.plus 2)).toInt8.toInt
    have hregister : register.text.toList.count '#' = 0 := by cases register <;> decide
    simp only [String.toList_append, List.count_append, hdisplacement, hregister]
    decide
  rw [Instruction.mnemonic_eq htemplate hfront, hoperand]
  simp only [String.append_empty, String.append_assoc]

end Instructions

section Prefixes

variable {memory : Memory} {address : Address} {register : Index} {code : UInt8}
  (hcode : memory.byte address = register.opening) (hb : memory.byte (address.plus 1) = code)
  (hnext : code ∉ [0xCB, 0xDD, 0xED, 0xFD])

include hb hnext

theorem selects_plain : Selects memory (address.plus 1) (mainPage code) code 1 := by
  subst hb
  exact .main hnext

theorem showsPair_plain_iff :
    ShowsPair (decode memory (address.plus 1)).template ↔ (mainPage code).readsPair := by
  rw [(selects_plain hb hnext).decode_eq,
    Opcode.template_instruction _ _ _ _ (isDisplaced_mainPage code)]
  exact showsPair_mainPage_iff code "#"

include hcode

theorem selects_indexed :
    Selects memory address ((mainPage code).withIndex register) code
      (if (mainPage code).readsPair then 3 else 2) := by
  subst hb
  rw [← isDisplaced_withIndex_mainPage _ register]
  exact .index register hcode hnext

theorem length_indexed :
    (decode memory address).length.toNat = (decode memory (address.plus 1)).length.toNat +
      if (mainPage code).readsPair then 2 else 1 := by
  have hindexed := selects_indexed hcode hb hnext
  have hplain := selects_plain hb hnext
  have hlonger := (Opcode.length_instruction hindexed.isRegular memory address code).1
  have hlength := (Opcode.length_instruction hplain.isRegular memory (address.plus 1) code).1
  rw [← hindexed.decode_eq, Opcode.width_withIndex] at hlonger
  rw [← hplain.decode_eq] at hlength
  by_cases hpair : (mainPage code).readsPair
  · rw [if_pos hpair] at hlonger ⊢
    omega
  · rw [if_neg hpair] at hlonger ⊢
    omega

theorem flow_indexed : (decode memory address).flow = (decode memory (address.plus 1)).flow := by
  rw [(selects_indexed hcode hb hnext).decode_eq, (selects_plain hb hnext).decode_eq,
    Opcode.flow_instruction, Opcode.flow_instruction, Opcode.flow_withIndex]

theorem operand_indexed (hpair : ¬(mainPage code).readsPair) :
    (decode memory address).value = (decode memory (address.plus 1)).value ∧
      (decode memory address).kind = (decode memory (address.plus 1)).kind ∧
      (decode memory address).comment = (decode memory (address.plus 1)).comment := by
  have hsingle : ((mainPage code).withIndex register).isDisplaced = false := by
    simpa [isDisplaced_withIndex_mainPage] using hpair
  have hindexed := (selects_indexed hcode hb hnext).decode_eq
  rw [if_neg hpair] at hindexed
  rw [hindexed, (selects_plain hb hnext).decode_eq,
    Opcode.instruction_withIndex memory address code 1 (isDisplaced_mainPage code) hsingle]
  exact ⟨rfl, rfl, rfl⟩

end Prefixes

-- An instruction behind an index prefix against the one that its bytes without the prefix make up.
-- If that one works on memory through HL, its displacement takes a further byte and becomes the
-- operand, unless a byte is loaded; otherwise the prefix only adds its own byte and changes the text.
theorem decode_agrees_behind_index (memory : Memory) (address : Address) (register : Index)
    (hcode : memory.byte address = register.opening)
    (hnext : memory.byte (address.plus 1) ∉ [0xCB, 0xDD, 0xED, 0xFD]) :
    let indexed := decode memory address
    let plain := decode memory (address.plus 1)
    (¬ShowsPair plain.template →
      indexed.length.toNat = plain.length.toNat + 1 ∧ indexed.value = plain.value ∧
        indexed.kind = plain.kind ∧ indexed.flow = plain.flow ∧ indexed.comment = plain.comment) ∧
    (ShowsPair plain.template →
      indexed.length.toNat = plain.length.toNat + 2 ∧ indexed.flow = plain.flow ∧
        (memory.byte (address.plus 1) ≠ 0x36 →
          indexed.value = some (signExtend (memory.byte (address.plus 2))) ∧
            indexed.kind = .displacement) ∧
        (memory.byte (address.plus 1) = 0x36 →
          indexed.value = some (memory.byte (address.plus 3)).toUInt16 ∧ indexed.kind = .byte ∧
            indexed.mnemonic = "LD (" ++ register.text ++
              Text.displacement (memory.byte (address.plus 2)).toInt8.toInt ++ ")," ++
              Text.hex2 (memory.byte (address.plus 3)) ++ "h")) := by
  intro indexed plain
  generalize hb : memory.byte (address.plus 1) = code at hnext
  have hshows : ShowsPair plain.template ↔ (mainPage code).readsPair := showsPair_plain_iff hb hnext
  have hlength := length_indexed hcode hb hnext
  have hflow := flow_indexed hcode hb hnext
  constructor
  · intro hnot
    have hpair : ¬(mainPage code).readsPair := fun h => hnot (hshows.mpr h)
    obtain ⟨hvalue, hkind, hcomment⟩ := operand_indexed hcode hb hnext hpair
    rw [if_neg hpair] at hlength
    exact ⟨hlength, hvalue, hkind, hflow, hcomment⟩
  · intro hshown
    have hpair := hshows.mp hshown
    have hindexed := (selects_indexed hcode hb hnext).decode_eq
    rw [if_pos hpair] at hlength hindexed
    refine ⟨hlength, hflow, ?_, ?_⟩
    · intro hother
      have himmediate := (Opcode.immediate?_withIndex _ register).trans
        (immediate?_of_readsPair hpair hother)
      have hdisplaced := (isDisplaced_withIndex_mainPage code register).trans hpair
      have hvalue := Opcode.instruction_of_displaced memory address code 3 himmediate hdisplaced
      rwa [← hindexed] at hvalue
    · rintro rfl
      have hload := instruction_loadDisplaced memory address 0x36 register
      rwa [← show (mainPage 0x36).withIndex register = ⟨.ld, [.displaced register, .byte]⟩ from rfl,
        ← hindexed] at hload

-- A load into displaced memory and a relative jump to itself, both across the end of the address space.
theorem decode_agrees_behind_index_across_end :
    let load := Memory.empty.loadBlocks [(0xFFFE, [0xFD, 0x36, 0xFE, 0x21])]
    let jump := Memory.empty.loadBlocks [(0xFFFE, [0xDD, 0x18, 0xFE])]
    (decode load 0xFFFE).length.toNat = (decode load 0xFFFF).length.toNat + 2 ∧
      (decode load 0xFFFE).mnemonic = "LD (IY-2),21h" ∧
      (decode jump 0xFFFE).length.toNat = (decode jump 0xFFFF).length.toNat + 1 ∧
      (decode jump 0xFFFE).value = some 0xFFFF := by
  intro load jump
  have hload : load.byte 0xFFFE = 0xFD ∧ load.byte 0xFFFF = 0x36 ∧ load.byte 0x0000 = 0xFE ∧
      load.byte 0x0001 = 0x21 := by
    simp [load, Memory.loadBlocks, Memory.load, Memory.storeAll, Memory.byte_store]
  have hjump : jump.byte 0xFFFE = 0xDD ∧ jump.byte 0xFFFF = 0x18 ∧ jump.byte 0x0000 = 0xFE := by
    simp [jump, Memory.loadBlocks, Memory.load, Memory.storeAll, Memory.byte_store]
  have hcode : load.byte ((0xFFFE : Address).plus 1) = 0x36 := hload.2.1
  have hcode' : jump.byte ((0xFFFE : Address).plus 1) = 0x18 := hjump.2.1
  have hshows : ShowsPair (decode load ((0xFFFE : Address).plus 1)).template :=
    (showsPair_plain_iff hcode (by decide)).mpr (by decide)
  have hnot : ¬ShowsPair (decode jump ((0xFFFE : Address).plus 1)).template := fun h =>
    absurd ((showsPair_plain_iff hcode' (by decide)).mp h) (by decide)
  obtain ⟨hlength, -, -, hlast⟩ :=
    (decode_agrees_behind_index load 0xFFFE .iy hload.1 (by rw [hcode]; decide)).2 hshows
  obtain ⟨hlength', hvalue, -⟩ :=
    (decode_agrees_behind_index jump 0xFFFE .ix hjump.1 (by rw [hcode']; decide)).1 hnot
  refine ⟨hlength, ?_, hlength', ?_⟩
  · rw [(hlast hcode).2.2, show (0xFFFE : Address).plus 2 = 0x0000 from rfl,
      show (0xFFFE : Address).plus 3 = 0x0001 from rfl, hload.2.2.1, hload.2.2.2]
    decide
  · rw [hvalue, (selects_plain hcode' (by decide)).decode_eq]
    show some (_ + signExtend (jump.byte 0x0000)) = _
    rw [hjump.2.2]
    decide

end Z80

end Z80Atlas
