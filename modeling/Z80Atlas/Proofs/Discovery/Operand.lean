import Z80Atlas.Proofs.Discovery.Run
import Z80Atlas.Proofs.Symbol.Store

namespace Z80Atlas

-- The address that an operand stands for: the target of a branch or the address of data, which lies
-- below a value for the stack pointer.
def Instruction.designated? (instruction : Instruction) : Option Address :=
  match instruction.target? with
  | some target => some target
  | none =>
    if instruction.kind = .data then
      instruction.value.map fun value =>
        if instruction.flow.loadsStack then value - 2 else value
    else none

def Instruction.stackTop? (instruction : Instruction) : Option Address :=
  if instruction.target? = none ∧ instruction.kind = .data ∧ instruction.flow.loadsStack then
    instruction.value
  else none

def Instruction.role (instruction : Instruction) (memory : Memory) (a t : Address) : Kind :=
  if instruction.target? = none then .data
  else if instruction.kind = .localLabel ∧ t ≤ a then .localLoop
  else if instruction.kind = .label ∧ ¬memory.isAssigned t then .subroutine
  else instruction.kind

theorem Instruction.role_eq_branchRole (instruction : Instruction) (memory : Memory)
    (a t : Address) (h : instruction.target? ≠ none) :
    instruction.role memory a t = branchRole memory a t instruction.kind := by
  rw [role, if_neg h]
  by_cases hassigned : memory.isAssigned t <;> cases instruction.kind <;>
    simp [branchRole, hassigned]

namespace Session

def Designates (session : Session) (a t : Address) : Prop :=
  (session.instructionAt a).designated? = some t

def role (session : Session) (a t : Address) : Kind :=
  (session.instructionAt a).role session.memory a t

def metLabel (session : Session) (t : Address) (references : List Address) (kind : Kind) : Label :=
  match session.labels.at? t with
  | some label => (label.promote kind).addReferences references
  | none =>
    ({ id := session.labels.nextId, address := t, kind,
       isEqu := !session.memory.isAssigned t } : Label).addReferences references

theorem wellFormed_meet (session : Session) (h : session.labels.WellFormed) (t : Address)
    (references : List Address) (kind : Kind) :
    (session.meet t references kind).labels.WellFormed := by
  unfold meet
  split
  · exact h.modify _ _ fun label => ⟨rfl, rfl⟩
  · exact (h.insert t kind).modify _ _ fun label => ⟨rfl, rfl⟩

theorem at?_meet (session : Session) (h : session.labels.WellFormed) (t b : Address)
    (references : List Address) (kind : Kind) :
    (session.meet t references kind).labels.at? b =
      if t = b then some (session.metLabel t references kind) else session.labels.at? b := by
  unfold meet metLabel
  cases hid : session.labels.idAt? t with
  | some id =>
      obtain ⟨label, hlabel, -, -⟩ := h.exists_at? hid
      dsimp only [modifyLabel]
      rw [h.at?_modify hid, hlabel]
      rfl
  | none =>
      dsimp only [modifyLabel]
      rw [h.at?_modify_insert, LabelStore.at?_eq_none t hid]

theorem labels_meet_congr (session other : Session) (hlabels : other.labels = session.labels)
    (hassigned : ∀ b, other.memory.isAssigned b = session.memory.isAssigned b) (t a : Address)
    (kind : Kind) : (other.meet t [a] kind).labels = (session.meet t [a] kind).labels := by
  unfold meet
  rw [hlabels]
  split
  · simp only [modifyLabel, hlabels]
  · simp only [modifyLabel, hassigned]

theorem labels_linkOperand (session : Session) (a : Address) (instruction : Instruction) :
    (session.linkOperand a instruction).labels =
      match instruction.designated? with
      | some t => (session.meet t [a] (instruction.role session.memory a t)).labels
      | none => session.labels := by
  unfold linkOperand Instruction.designated?
  cases htarget : instruction.target? with
  | some target =>
      have hrole := instruction.role_eq_branchRole session.memory a target (by simp [htarget])
      dsimp only
      rw [hrole]
      split <;> rfl
  | none =>
      have hrole : ∀ t, instruction.role session.memory a t = .data := by
        intro t
        rw [Instruction.role, if_pos htarget]
      by_cases hkind : instruction.kind = .data
      · simp only [hkind, if_true]
        cases instruction.value with
        | none => rfl
        | some value =>
            simp only [Option.map_some, hrole]
            by_cases hstack : instruction.flow.loadsStack
            · simp only [hstack, if_true]
              apply labels_meet_congr
              · rw [remarkStack_eq]
              · intro b
                rw [remarkStack_eq]
            · simp only [hstack]
              rfl
      · simp only [hkind, if_false]

theorem labels_accept (session : Session) (a : Address) (instruction : Instruction) :
    (session.accept a instruction).labels =
      match instruction.designated? with
      | some t => (session.meet t [a] (instruction.role session.memory a t)).labels
      | none => session.labels := by
  rw [accept, labels_linkOperand]
  cases instruction.designated? with
  | some t =>
      apply labels_meet_congr
      · rfl
      · intro b
        rfl
  | none => rfl

theorem wellFormed_accept (session : Session) (h : session.labels.WellFormed) (a : Address)
    (instruction : Instruction) : (session.accept a instruction).labels.WellFormed := by
  rw [labels_accept]
  cases instruction.designated? with
  | some t => exact session.wellFormed_meet h t [a] _
  | none => exact h

-- Recording an instruction is felt at the address that it designates only.
theorem at?_accept_of_designates (session : Session) (h : session.labels.WellFormed)
    (a t : Address) (hdesignates : session.Designates a t) :
    (session.accept a (session.instructionAt a)).labels.at? t =
      some (session.metLabel t [a] (session.role a t)) := by
  rw [labels_accept, hdesignates]
  dsimp only
  rw [session.at?_meet h, if_pos rfl, role]

theorem at?_accept_of_not_designates (session : Session) (h : session.labels.WellFormed)
    (a t : Address) (hdesignates : ¬session.Designates a t) :
    (session.accept a (session.instructionAt a)).labels.at? t = session.labels.at? t := by
  rw [labels_accept]
  cases hother : (session.instructionAt a).designated? with
  | some other =>
      have hne : other ≠ t := by
        rintro rfl
        exact hdesignates hother
      dsimp only
      rw [session.at?_meet h, if_neg hne]
  | none => rfl

-- A value for the stack pointer is shown by the label two places below.
theorem offsets_linkOperand (session : Session) (a v : Address) (instruction : Instruction) :
    (session.linkOperand a instruction).offsets[v]? =
      if instruction.stackTop? = some v then some (-2) else session.offsets[v]? := by
  unfold linkOperand Instruction.stackTop?
  cases htarget : instruction.target? with
  | some target =>
      dsimp only
      rw [meet_eq]
      split <;> simp [enqueue]
  | none =>
      by_cases hkind : instruction.kind = .data
      · cases hvalue : instruction.value with
        | none => simp [hkind]
        | some value =>
            by_cases hstack : instruction.flow.loadsStack
            · simp only [hkind, hstack, if_true, and_self]
              rw [meet_eq, remarkStack_eq]
              simp [Std.TreeMap.getElem?_insert]
            · have hmeet : (session.meet value [a] .data).offsets = session.offsets := by
                rw [meet_eq]
              simp [hkind, hstack, hmeet]
      · simp [hkind]

theorem offsets_accept (session : Session) (a v : Address) (instruction : Instruction) :
    (session.accept a instruction).offsets[v]? =
      if instruction.stackTop? = some v then some (-2) else session.offsets[v]? :=
  offsets_linkOperand _ a v instruction

end Session

end Z80Atlas
