import Z80Atlas.Proofs.Machine.Z80
import Z80Atlas.Proofs.Text.Spelling

namespace Z80Atlas

-- What the analyses take for granted of an instruction: its length, its operand, its text and its
-- effect on the flow of control fit together.
structure Instruction.Coherent (instruction : Instruction) : Prop where
  length_pos : 1 ≤ instruction.length.toNat
  length_le : instruction.length.toNat ≤ 4
  value_iff : instruction.value.isSome ↔ instruction.kind ≠ .none
  template_iff : instruction.kind ≠ .none ↔ instruction.template.toList.count '#' = 1
  template_of_none : instruction.kind = .none → instruction.template.toList.count '#' = 0
  template_filled : '@' ∉ instruction.template.toList
  branch_iff : instruction.flow.branch ↔ instruction.kind.isCode
  call : instruction.flow.call →
    instruction.flow.branch ∧ (instruction.kind = .subroutine ∨ instruction.kind = .restart) ∧
      ¬instruction.flow.stop
  conditional_or_stop : ¬(instruction.flow.conditional ∧ instruction.flow.stop)
  conditional : instruction.flow.conditional → instruction.flow.branch ∨ instruction.flow.ret
  ret : instruction.flow.ret →
    (instruction.flow.stop ↔ ¬instruction.flow.conditional) ∧ ¬instruction.flow.branch
  loadsStack : instruction.flow.loadsStack → instruction.kind = .data ∧ ¬instruction.flow.branch

theorem Text.mem_displacement {n : Int} {c : Char} (h : c ∈ (displacement n).toList) :
    c = '+' ∨ c = '-' ∨ c.isDigit := by
  unfold displacement signedDecimal at h
  by_cases hn : n < 0
  · simp only [if_pos hn, String.toList_append, List.mem_append] at h
    rcases h with hsign | hdigit
    · exact .inr (.inl (by simpa using hsign))
    · exact .inr (.inr (isDigit_of_mem_decimal hdigit))
  · simp only [if_neg hn, String.toList_append, List.mem_append] at h
    rcases h with hsign | hdigit
    · exact .inl (by simpa using hsign)
    · exact .inr (.inr (isDigit_of_mem_decimal hdigit))

namespace Z80

def isMark (c : Char) : Bool := c == '#' || c == '@'

theorem isMark_iff (c : Char) : isMark c ↔ c = '#' ∨ c = '@' := by
  simp [isMark]

section Marks

variable {c : Char}

theorem not_isMark_of_isDigit (h : c.isDigit) : !isMark c := by
  have hbounds := Text.digit_bounds h
  rw [Bool.not_eq_true', Bool.eq_false_iff, ne_eq, isMark_iff]
  rintro (rfl | rfl) <;> revert hbounds <;> decide

theorem count_of_unmarked (hc : isMark c) {text : String} (h : text.toList.all (!isMark ·)) :
    text.toList.count c = 0 := by
  rw [List.count_eq_zero]
  intro hmem
  simpa [hc] using List.all_eq_true.mp h c hmem

theorem count_displacement (hc : isMark c) (n : Int) : (Text.displacement n).toList.count c = 0 := by
  apply count_of_unmarked hc
  rw [List.all_eq_true]
  intro d hd
  rcases Text.mem_displacement hd with rfl | rfl | hdigit
  · decide
  · decide
  · exact not_isMark_of_isDigit hdigit

theorem Mnemonic.count_text (hc : isMark c) (mnemonic : Mnemonic) :
    mnemonic.text.toList.count c = 0 := by
  apply count_of_unmarked hc
  cases mnemonic <;> decide

theorem Operand.text_eq_of_not_displaced {operand : Operand} (h : operand.isDisplaced = false)
    (d e : String) : operand.text d = operand.text e := by
  cases operand with
  | displaced register => cases h
  | _ => rfl

theorem Operand.text_of_immediate {operand : Operand} (h : operand.isImmediate) (d : String) :
    operand.isDisplaced = false ∧ (operand.text d = "#" ∨ operand.text d = "(#)") := by
  cases operand <;> simp_all [isImmediate, isDisplaced, text]

theorem Operand.unmarked_text {operand : Operand} (h : operand.isImmediate = false)
    (h' : operand.isDisplaced = false) (d : String) :
    (operand.text d).toList.all (!isMark ·) := by
  rw [text_eq_of_not_displaced h' d ""]
  cases operand with
  | digit n =>
      rw [text, String.toList_ofList, List.all_eq_true]
      intro c hc
      exact not_isMark_of_isDigit (Nat.isDigit_of_mem_toDigits (by decide) (by decide) hc)
  | condition which => cases which <;> decide
  | index register => cases register <;> decide
  | indexHigh register => cases register <;> decide
  | indexLow register => cases register <;> decide
  | atIndex register => cases register <;> decide
  | displaced register => cases h'
  | _ => revert h; decide

-- An operand shows one `#` if it is read with the opcode, and the marks of its displacement.
theorem Operand.count_text (hc : isMark c) (d : String) (operand : Operand) :
    (operand.text d).toList.count c =
      (if operand.isImmediate ∧ c = '#' then 1 else 0) +
        if operand.isDisplaced then d.toList.count c else 0 := by
  by_cases himmediate : operand.isImmediate
  · obtain ⟨hdisplaced, htext⟩ := text_of_immediate himmediate d
    have hmark : ∀ text : String, text = "#" ∨ text = "(#)" →
        text.toList.count c = if c = '#' then 1 else 0 := by
      rcases (isMark_iff c).mp hc with rfl | rfl <;> rintro _ (rfl | rfl) <;> decide
    simp [hmark _ htext, himmediate, hdisplaced]
  by_cases hdisplaced : operand.isDisplaced
  · cases operand with
    | displaced register =>
        have hregister : register.text.toList.count c = 0 := by
          apply count_of_unmarked hc
          cases register <;> decide
        have hopen : "(".toList.count c = 0 := count_of_unmarked hc (by decide)
        have hclose : ")".toList.count c = 0 := count_of_unmarked hc (by decide)
        simp only [text, String.toList_append, List.count_append, hregister, hopen, hclose]
        simp [isImmediate, isDisplaced]
    | _ => cases hdisplaced
  · rw [count_of_unmarked hc (unmarked_text (by simpa using himmediate) (by simpa using hdisplaced) d)]
    simp [himmediate, hdisplaced]

theorem count_operands (hc : isMark c) (d : String) (operands : List Operand) :
    (",".intercalate (operands.map (·.text d))).toList.count c =
      (if c = '#' then operands.countP (·.isImmediate) else 0) +
        operands.countP (·.isDisplaced) * d.toList.count c := by
  induction operands with
  | nil => simp
  | cons operand rest ih =>
      have hcomma : ",".toList.count c = 0 := count_of_unmarked hc (by decide)
      have hhead := operand.count_text hc d
      have hcons : (",".intercalate ((operand :: rest).map (·.text d))).toList.count c =
          (operand.text d).toList.count c +
            (",".intercalate (rest.map (·.text d))).toList.count c := by
        cases rest with
        | nil => simp
        | cons next rest =>
            simp only [List.map_cons, String.intercalate_cons_cons, String.toList_append,
              List.count_append, hcomma, Nat.add_zero]
      rw [hcons, ih, hhead, List.countP_cons, List.countP_cons]
      grind

-- The marks in the text of an operation are those of its operands.
theorem Opcode.count_text (hc : isMark c) (opcode : Opcode) (d : String) :
    (opcode.text d).toList.count c =
      (if c = '#' then opcode.operands.countP (·.isImmediate) else 0) +
        opcode.operands.countP (·.isDisplaced) * d.toList.count c := by
  have hblank : " ".toList.count c = 0 := count_of_unmarked hc (by decide)
  have hmnemonic := opcode.mnemonic.count_text hc
  unfold Opcode.text
  split
  · next hnone => simp [hnone, hmnemonic]
  · simp only [String.toList_append, List.count_append, hmnemonic, hblank, Nat.zero_add,
      count_operands hc]

end Marks

section Opcodes

variable {opcode : Opcode}

-- Whatever its operands are, an operation does not both stop and depend on a condition.
theorem Opcode.flow_consistent (opcode : Opcode) :
    (opcode.flow.call → opcode.flow.branch ∧ ¬opcode.flow.stop) ∧
    ¬(opcode.flow.conditional ∧ opcode.flow.stop) ∧
    (opcode.flow.conditional → opcode.flow.branch ∨ opcode.flow.ret) ∧
    (opcode.flow.ret →
      (opcode.flow.stop ↔ ¬opcode.flow.conditional) ∧ ¬opcode.flow.branch) ∧
    (opcode.flow.loadsStack → ¬opcode.flow.branch) := by
  unfold flow
  dsimp only
  cases opcode.isConditional <;> cases opcode.immediate?.isSome <;> split <;> simp

def Opcode.kind (opcode : Opcode) : Kind :=
  match opcode.immediate? with
  | some operand => opcode.immediateKind operand
  | none => if opcode.isDisplaced then .displacement else .none

-- An operation has one operand to show, and it stands for code just if control branches to it.
def Opcode.isCoherent (opcode : Opcode) : Bool :=
  opcode.operands.countP (·.isImmediate) ≤ 1 && opcode.operands.countP (·.isDisplaced) ≤ 1 &&
    opcode.flow.branch == opcode.kind.isCode && (!opcode.flow.call || opcode.kind.isSubroutine)

theorem Opcode.Listed.isCoherent (h : opcode.Listed) : opcode.isCoherent :=
  h.passes (forall_byte (by decide +kernel))

theorem Opcode.isImmediate_of_immediate? {operand : Operand} (h : opcode.immediate? = some operand) :
    operand ∈ opcode.operands ∧ operand.isImmediate :=
  ⟨List.mem_of_find?_eq_some h, List.find?_some h⟩

theorem Opcode.immediateKind_ne_none {operand : Operand} (h : operand.isImmediate) :
    opcode.immediateKind operand ≠ .none := by
  cases operand with
  | word =>
      unfold immediateKind
      dsimp only
      split
      · simp
      · simp
      · split <;> simp
  | _ => revert h; simp [immediateKind, Operand.isImmediate]

-- The stack pointer is loaded with the address of data.
theorem Opcode.kind_of_loadsStack (h : opcode.flow.loadsStack) : opcode.kind = .data := by
  have hload : opcode.mnemonic = .ld ∧ opcode.operands = [.sp, .word] := by
    unfold flow at h
    dsimp only at h
    grind
  have himmediate : opcode.immediate? = some .word := by
    rw [immediate?, hload.2]
    rfl
  simp [kind, himmediate, immediateKind, hload.1, h]

end Opcodes

section Instructions

variable {opcode : Opcode} {offset : Nat} (memory : Memory) (address : Address) (code : UInt8)

theorem Opcode.flow_instruction (opcode : Opcode) (offset : Nat) :
    (opcode.instruction memory address code offset).flow = opcode.flow := by
  unfold instruction
  cases opcode.immediate? <;> rfl

theorem Opcode.kind_instruction (opcode : Opcode) (offset : Nat) :
    (opcode.instruction memory address code offset).kind = opcode.kind := by
  unfold instruction kind
  cases opcode.immediate? <;> rfl

theorem Opcode.isSome_value_instruction (opcode : Opcode) (offset : Nat) :
    (opcode.instruction memory address code offset).value.isSome ↔ opcode.kind ≠ .none := by
  unfold instruction kind
  cases himmediate : opcode.immediate? with
  | some operand => simp [immediateKind_ne_none (isImmediate_of_immediate? himmediate).2]
  | none => by_cases hdisplaced : opcode.isDisplaced <;> simp [hdisplaced]

-- The operand is shown once, if there is one.
theorem Opcode.count_template (h : opcode.isCoherent) (offset : Nat) :
    (opcode.instruction memory address code offset).template.toList.count '#' =
      if opcode.kind = .none then 0 else 1 := by
  simp only [isCoherent, Bool.and_eq_true, decide_eq_true_eq] at h
  obtain ⟨⟨⟨himmediates, hdisplaced⟩, -⟩, -⟩ := h
  unfold instruction kind
  cases himmediate : opcode.immediate? with
  | some operand =>
      obtain ⟨hmem, hoperand⟩ := isImmediate_of_immediate? himmediate
      have hpos : 0 < opcode.operands.countP (·.isImmediate) :=
        List.countP_pos_iff.mpr ⟨operand, hmem, hoperand⟩
      simp only [count_text (c := '#') rfl, count_displacement (c := '#') rfl, if_true,
        immediateKind_ne_none hoperand, if_false]
      omega
  | none =>
      have hnone : opcode.operands.countP (·.isImmediate) = 0 :=
        List.countP_eq_zero.mpr fun operand hmem => by
          simpa using List.find?_eq_none.mp himmediate operand hmem
      have hself : "#".toList.count '#' = 1 := by decide
      simp only [count_text (c := '#') rfl, hnone, hself, if_true]
      by_cases hany : opcode.isDisplaced
      · have hpos : 0 < opcode.operands.countP (·.isDisplaced) :=
          List.countP_pos_iff.mpr (List.any_eq_true.mp hany)
        simp only [hany, if_true, reduceCtorEq, if_false]
        omega
      · have hzero : opcode.operands.countP (·.isDisplaced) = 0 := by
          simpa [isDisplaced, List.countP_eq_zero] using hany
        simp [hany, hzero]

theorem Opcode.not_mem_template (opcode : Opcode) (offset : Nat) :
    '@' ∉ (opcode.instruction memory address code offset).template.toList := by
  rw [← List.count_eq_zero]
  unfold instruction
  cases opcode.immediate? with
  | some operand => simp [count_text (c := '@') rfl, count_displacement (c := '@') rfl]
  | none => simp [count_text (c := '@') rfl]

theorem Opcode.coherent_instruction (hcoherent : opcode.isCoherent)
    (hregular : opcode.isRegular offset) (hoffset : 0 < offset) :
    (opcode.instruction memory address code offset).Coherent := by
  obtain ⟨hlength, hbound⟩ := length_instruction hregular memory address code
  obtain ⟨hcall, hboth, hconditional, hret, hstack⟩ := opcode.flow_consistent
  have hflow := opcode.flow_instruction memory address code offset
  have hkind := opcode.kind_instruction memory address code offset
  have hcount := count_template memory address code hcoherent offset
  simp only [isCoherent, Bool.and_eq_true, Bool.or_eq_true, Bool.not_eq_true', beq_iff_eq] at hcoherent
  obtain ⟨⟨-, hbranch⟩, hcalled⟩ := hcoherent
  constructor
  · omega
  · omega
  · rw [hkind]
    exact opcode.isSome_value_instruction memory address code offset
  · rw [hkind, hcount]
    by_cases hnone : opcode.kind = .none <;> simp [hnone]
  · intro hnone
    rw [hkind] at hnone
    rw [hcount, if_pos hnone]
  · exact opcode.not_mem_template memory address code offset
  · rw [hflow, hkind, hbranch]
  · rw [hflow, hkind]
    intro h
    have hsubroutine : opcode.kind.isSubroutine := by simpa [h] using hcalled
    refine ⟨(hcall h).1, ?_, (hcall h).2⟩
    revert hsubroutine
    cases opcode.kind <;> simp [Kind.isSubroutine]
  · rw [hflow]
    exact hboth
  · rw [hflow]
    exact hconditional
  · rw [hflow]
    exact hret
  · rw [hflow, hkind]
    exact fun h => ⟨kind_of_loadsStack h, hstack h⟩

end Instructions

-- Instructions without an operand let control go on.
theorem coherent_of_plain {length : UInt8} {template : String} (comment : Option String)
    (hpos : 1 ≤ length.toNat) (hle : length.toNat ≤ 4) (h : template.toList.all (!isMark ·)) :
    ({ length, template, comment } : Instruction).Coherent := by
  have hcount : template.toList.count '#' = 0 := count_of_unmarked rfl h
  have hfilled : '@' ∉ template.toList := List.count_eq_zero.mp (count_of_unmarked rfl h)
  constructor <;> simp_all [Kind.isCode]

theorem Selects.offset_pos {memory : Memory} {address : Address} {opcode : Opcode} {code : UInt8}
    {offset : Nat} (h : Selects memory address opcode code offset) : 0 < offset := by
  cases h with
  | index register => split <;> omega
  | _ => omega

-- Every instruction is coherent, whatever the bytes are that it is decoded from.
theorem decode_is_coherent (memory : Memory) (address : Address) :
    (decode memory address).Coherent := by
  rcases decode_cases memory address with ⟨opcode, code, offset, h, heq⟩ | ⟨next, heq⟩ | heq
  · rw [heq]
    exact Opcode.coherent_instruction memory address code h.listed.isCoherent h.isRegular h.offset_pos
  · rw [heq]
    exact coherent_of_plain _ (by decide) (by decide) (by decide)
  · rw [heq]
    exact coherent_of_plain _ (by decide) (by decide) (by decide)

end Z80

end Z80Atlas
