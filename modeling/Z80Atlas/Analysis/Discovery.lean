import Z80Atlas.Session.Basic

namespace Z80Atlas

-- The role in which a branch at `address` meets its target: a relative jump backwards makes a loop,
-- and a jump out of the loaded memory counts as a call.
def branchRole (memory : Memory) (address target : Address) (kind : Kind) : Kind :=
  match kind with
  | .localLabel => if target ≤ address then .localLoop else .localLabel
  | .label => if memory.isAssigned target then .label else .subroutine
  | kind => kind

inductive Finding where
  | known
  -- The byte at `missing`, the first or a later one, is not loaded.
  | unassigned (missing : Address)
  | overlap (instruction : Instruction) (other : Address)
  | fresh (instruction : Instruction)

namespace Session

def meet (session : Session) (address : Address) (references : List Address) (kind : Kind) :
    Session :=
  match session.labels.idAt? address with
  | some id => session.modifyLabel id fun label => (label.promote kind).addReferences references
  | none =>
    let isEqu := !session.memory.isAssigned address
    let id := session.labels.nextId
    let session := { session with labels := session.labels.insert address kind }
    session.modifyLabel id fun label => ({ label with isEqu }).addReferences references

def follows (session : Session) (target : Address) (kind : Kind) : Bool :=
  !session.memory.isCode target && session.memory.isAssigned target &&
    !(kind == .restart && session.config.deniedRestarts.contains target)

def remarkStack (session : Session) (address : Address) : Session :=
  if session.comments.contains address then session
  else session.setComment address { before := ["; Last element of stack:"] }

-- Label what the operand of an instruction designates. A value for the stack pointer designates the
-- element below it, which is the last one on the stack.
def linkOperand (session : Session) (address : Address) (instruction : Instruction) : Session :=
  match instruction.target? with
  | some target =>
    let kind := branchRole session.memory address target instruction.kind
    let follow := session.follows target kind
    let session := session.meet target [address] kind
    if follow then session.enqueue target else session
  | none =>
    if instruction.kind = .data then
      match instruction.value with
      | none => session
      | some value =>
        if instruction.flow.loadsStack then
          let session := { session with offsets := session.offsets.insert value (-2) }
          (session.remarkStack (value - 2)).meet (value - 2) [address] .data
        else session.meet value [address] .data
    else session

def inspect (session : Session) (address : Address) : Finding :=
  if session.memory.isCode address then .known
  else if !session.memory.isAssigned address then .unassigned address
  else
    let instruction := session.instructionAt address
    let later := (address + 1).range (instruction.size - 1)
    match later.find? fun b => !session.memory.isAssigned b with
    | some missing => .unassigned missing
    | none =>
      match later.find? session.memory.isCode with
      | some other => .overlap instruction other
      | none => .fresh instruction

def warnUnassigned (session : Session) (address : Address) : Session :=
  if session.config.allowUnassigned then session
  else
    session.warn .unassignedMemory (some address)
      ("Trying to disassemble unassigned memory area at 0x" ++ Text.lowerHex address.toNat ++ ".")

def warnOverlap (session : Session) (address : Address) (instruction : Instruction)
    (other : Address) : Session :=
  session.warn .ambiguousDisassembly (some address)
    ("Aborting disassembly: Ambiguous disassembly: Trying to disassemble opcode \"" ++
      instruction.mnemonic ++ "\" at address 0x" ++ Text.lowerHex address.toNat ++
      " but address 0x" ++ Text.lowerHex other.toNat ++ " already contains opcode \"" ++
      (session.instructionAt other).mnemonic ++ "\".")

def accept (session : Session) (address : Address) (instruction : Instruction) : Session :=
  let session :=
    { session with memory := session.memory.markInstruction address instruction.size }
  session.linkOperand address instruction

-- The second component is where decoding goes on.
def discoverAt (session : Session) (address : Address) : Session × Option Address :=
  match session.inspect address with
  | .known => (session, none)
  | .unassigned missing => (session.warnUnassigned missing, none)
  | .overlap instruction other => (session.warnOverlap address instruction other, none)
  | .fresh instruction =>
    (session.accept address instruction, instruction.fallThrough? address)

theorem memory_meet (session : Session) (address : Address) (references : List Address)
    (kind : Kind) : (session.meet address references kind).memory = session.memory := by
  unfold meet; split <;> rfl

theorem memory_linkOperand (session : Session) (address : Address) (instruction : Instruction) :
    (session.linkOperand address instruction).memory = session.memory := by
  unfold linkOperand
  split
  · dsimp only
    split <;> simp only [enqueue, memory_meet]
  · split
    · split
      · rfl
      · split
        · rw [memory_meet]
          unfold remarkStack
          split <;> rfl
        · rw [memory_meet]
    · rfl

theorem isCode_eq_false_of_inspect {session : Session} {address : Address}
    {instruction : Instruction} (h : session.inspect address = .fresh instruction) :
    session.memory.isCode address = false := by
  unfold inspect at h
  split at h
  · cases h
  · next hcode => simpa using hcode

theorem uncoded_accept_lt {session : Session} {address : Address} {instruction : Instruction}
    (h : session.memory.isCode address = false) :
    (session.accept address instruction).memory.uncoded < session.memory.uncoded := by
  rw [accept, memory_linkOperand]
  exact AddressSet.absent_insertRange_lt instruction.size_pos h

-- Decoding goes on only behind a new instruction.
theorem uncoded_discoverAt_lt {session next : Session} {address following : Address}
    (h : session.discoverAt address = (next, some following)) :
    next.memory.uncoded < session.memory.uncoded := by
  unfold discoverAt at h
  split at h
  · cases h
  · cases h
  · cases h
  · next instruction hinspect =>
    simp only [Prod.mk.injEq] at h
    rw [← h.1]
    exact uncoded_accept_lt (isCode_eq_false_of_inspect hinspect)

-- Decode from an address on until control does not fall through, or the code is known or cannot be
-- decoded.
def discoverFrom (session : Session) (address : Address) : Session :=
  match _h : session.discoverAt address with
  | (session, none) => session
  | (session, some following) => session.discoverFrom following
termination_by session.memory.uncoded
decreasing_by exact uncoded_discoverAt_lt _h

-- A step finds an instruction, or leaves memory and queue as they are.
theorem discoverAt_progress (session : Session) (address : Address) :
    (session.discoverAt address).1.memory.uncoded < session.memory.uncoded ∨
      ((session.discoverAt address).1.memory = session.memory ∧
        (session.discoverAt address).1.queue = session.queue) := by
  unfold discoverAt
  split
  · exact .inr ⟨rfl, rfl⟩
  · refine .inr ?_
    unfold warnUnassigned
    split <;> exact ⟨rfl, rfl⟩
  · exact .inr ⟨rfl, rfl⟩
  · next instruction hinspect =>
    exact .inl (uncoded_accept_lt (isCode_eq_false_of_inspect hinspect))

theorem uncoded_discoverFrom_le (session : Session) (address : Address) :
    (session.discoverFrom address).memory.uncoded ≤ session.memory.uncoded := by
  fun_induction discoverFrom session address with
  | case1 session address next h =>
    have := discoverAt_progress session address
    rw [h] at this
    rcases this with hlt | ⟨heq, _⟩
    · exact Nat.le_of_lt hlt
    · exact Nat.le_of_eq (by rw [heq])
  | case2 session address next following h ih =>
    exact Nat.le_of_lt (Nat.lt_of_le_of_lt ih (uncoded_discoverAt_lt h))

theorem discoverFrom_progress (session : Session) (address : Address) :
    (session.discoverFrom address).memory.uncoded < session.memory.uncoded ∨
      ((session.discoverFrom address).memory = session.memory ∧
        (session.discoverFrom address).queue = session.queue) := by
  rw [discoverFrom]
  split
  · next next h =>
    have := discoverAt_progress session address
    rw [h] at this
    exact this
  · next next following h =>
    exact .inl (Nat.lt_of_le_of_lt (uncoded_discoverFrom_le next following)
      (uncoded_discoverAt_lt h))

-- Decode from every waiting address until none waits. It ends because every instruction found
-- leaves fewer addresses without code, and only a found instruction lets another address wait.
def collect (session : Session) : Session :=
  match _h : session.queue.pop? with
  | none => session
  | some (address, queue) => (({ session with queue }).discoverFrom address).collect
termination_by (session.memory.uncoded, session.queue.size)
decreasing_by
  rcases discoverFrom_progress { session with queue } address with hlt | ⟨hmemory, hqueue⟩
  · exact Prod.Lex.left _ _ hlt
  · rw [hmemory, hqueue]
    exact Prod.Lex.right _ (by rw [AddressQueue.size_of_pop? _h]; exact Nat.lt_succ_self _)

-- Let the start of the program wait: that of a snapshot, or else address 0 if it is loaded.
def enqueueStart (session : Session) : Session :=
  if !session.config.automaticAddresses then session
  else
    match session.snapshotStart with
    | some start => session.enqueue start
    | none =>
      if !session.memory.isAssigned 0 then session
      else
        let session :=
          if session.labels.hasLabel 0 then
            { session with labels := session.labels.modifyAt 0 ({ · with kind := .label }) }
          else session.fixLabel 0 (some "ORG_0000")
        session.enqueue 0

end Session

end Z80Atlas
