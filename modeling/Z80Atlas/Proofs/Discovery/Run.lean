import Mathlib.Logic.Relation
import Z80Atlas.Analysis.Discovery
import Z80Atlas.Proofs.Machine.Extent

namespace Z80Atlas

namespace Session

-- The instruction at `a` branches to `b`, and the branch is followed: restarts can be denied.
def BranchesTo (session : Session) (a b : Address) : Prop :=
  (session.instructionAt a).target? = some b ∧
    ¬(branchRole session.memory a b (session.instructionAt a).kind = .restart ∧
      b ∈ session.config.deniedRestarts)

def Leads (session : Session) (a b : Address) : Prop :=
  (session.instructionAt a).fallThrough? a = some b ∨ session.BranchesTo a b

-- Nothing is left to do at an address: it is code, or its instruction is not loaded as a whole or
-- runs into code.
def Settled (session : Session) (address : Address) : Prop :=
  session.memory.isCode address ∨ ¬session.memory.isAssigned address ∨
    ∃ i, 0 < i ∧ i < (session.instructionAt address).size ∧
      (¬session.memory.isAssigned (address.plus i) ∨ session.memory.isCode (address.plus i))

theorem settled_iff (session : Session) (address : Address) :
    session.Settled address ↔
      ∃ b ∈ session.extent address, ¬session.memory.isAssigned b ∨ session.memory.isCode b := by
  constructor
  · rintro (hcode | hassigned | ⟨i, -, hi, h⟩)
    · exact ⟨address, session.mem_extent_self address, .inr hcode⟩
    · exact ⟨address, session.mem_extent_self address, .inl hassigned⟩
    · exact ⟨address.plus i, ⟨i, hi, rfl⟩, h⟩
  · rintro ⟨b, hb, h⟩
    rcases (session.mem_extent_iff address b).mp hb with rfl | ⟨i, hpos, hi, rfl⟩
    · rcases h with h | h
      · exact .inr (.inl h)
      · exact .inl h
    · exact .inr (.inr ⟨i, hpos, hi, h⟩)

-- Meeting a label changes the labels alone.
theorem meet_eq (session : Session) (address : Address) (references : List Address) (kind : Kind) :
    session.meet address references kind =
      { session with labels := (session.meet address references kind).labels } := by
  unfold meet
  split <;> rfl

theorem remarkStack_eq (session : Session) (address : Address) :
    session.remarkStack address =
      { session with comments := (session.remarkStack address).comments } := by
  unfold remarkStack
  split <;> rfl

theorem warnUnassigned_eq (session : Session) (address : Address) :
    session.warnUnassigned address =
      { session with journal := (session.warnUnassigned address).journal } := by
  unfold warnUnassigned
  split <;> rfl

theorem linkOperand_eq (session : Session) (address : Address) (instruction : Instruction) :
    session.linkOperand address instruction =
      { session with
        labels := (session.linkOperand address instruction).labels
        queue := (session.linkOperand address instruction).queue
        offsets := (session.linkOperand address instruction).offsets
        comments := (session.linkOperand address instruction).comments } := by
  unfold linkOperand
  split
  · dsimp only
    rw [meet_eq]
    split <;> rfl
  · split
    · split
      · rfl
      · split
        · dsimp only
          rw [meet_eq, remarkStack_eq]
        · rw [meet_eq]
    · rfl

theorem accept_eq (session : Session) (address : Address) (instruction : Instruction) :
    session.accept address instruction =
      { session with
        memory := session.memory.markInstruction address instruction.size
        labels := (session.accept address instruction).labels
        queue := (session.accept address instruction).queue
        offsets := (session.accept address instruction).offsets
        comments := (session.accept address instruction).comments } := by
  unfold accept
  rw [linkOperand_eq]

theorem memory_accept (session : Session) (address : Address) (instruction : Instruction) :
    (session.accept address instruction).memory =
      session.memory.markInstruction address instruction.size := by
  rw [accept_eq]

theorem isFirst_accept (session : Session) (a b : Address) :
    (session.accept a (session.instructionAt a)).memory.isFirst b ↔
      b = a ∨ session.memory.isFirst b := by
  rw [memory_accept, Memory.isFirst_markInstruction]

theorem isCode_accept (session : Session) (a b : Address) :
    (session.accept a (session.instructionAt a)).memory.isCode b ↔
      b ∈ session.extent a ∨ session.memory.isCode b := by
  rw [memory_accept, Memory.isCode_markInstruction]
  rfl

theorem sameProgram_accept (session : Session) (address : Address) (instruction : Instruction) :
    session.SameProgram (session.accept address instruction) := by
  rw [accept_eq]
  exact ⟨rfl, rfl, rfl, rfl⟩

-- Only the target of a branch comes to wait, if it is followed and leads to something new.
theorem queue_linkOperand (session : Session) (address : Address) (instruction : Instruction) :
    (session.linkOperand address instruction).queue.toList =
      session.queue.toList ++ (instruction.target?.filter fun target =>
        session.follows target (branchRole session.memory address target instruction.kind)).toList := by
  unfold linkOperand
  cases instruction.target? with
  | some target =>
      dsimp only
      rw [meet_eq]
      by_cases h : session.follows target (branchRole session.memory address target instruction.kind)
      · simp [Option.filter_some, h, enqueue]
      · simp [Option.filter_some, h]
  | none =>
      simp only [Option.filter_none, Option.toList_none, List.append_nil]
      split
      · split
        · rfl
        · split
          · rw [meet_eq, remarkStack_eq]
          · rw [meet_eq]
      · rfl

theorem mem_queue_accept (session : Session) (a b : Address) :
    b ∈ (session.accept a (session.instructionAt a)).queue.toList ↔
      b ∈ session.queue.toList ∨ (session.BranchesTo a b ∧ session.memory.isAssigned b ∧
        ¬(session.accept a (session.instructionAt a)).memory.isCode b) := by
  have hrole : ∀ kind, branchRole (session.memory.markInstruction a
      (session.instructionAt a).size) a b kind = branchRole session.memory a b kind := fun _ => rfl
  rw [memory_accept, accept, queue_linkOperand, List.mem_append, BranchesTo]
  simp only [Option.mem_toList, Option.filter_eq_some_iff, follows, hrole,
    Memory.isAssigned_markInstruction]
  simp only [Bool.and_eq_true, Bool.not_eq_true', Bool.and_eq_false_iff, beq_eq_false_iff_ne,
    List.contains_eq_mem, decide_eq_false_iff_not, Bool.not_eq_true]
  tauto

inductive Obstacle (session : Session) (address : Address) : Array Event → Prop
  | known (hcode : session.memory.isCode address) : Obstacle session address session.journal
  | unassigned (missing : Address) (hmem : missing ∈ session.extent address)
      (hmissing : ¬session.memory.isAssigned missing) :
      Obstacle session address (session.warnUnassigned missing).journal
  | overlap (other : Address) (hnew : ¬session.memory.isCode address)
      (hassigned : ∀ b ∈ session.extent address, session.memory.isAssigned b)
      (hmem : other ∈ session.extent address) (hcode : session.memory.isCode other) :
      Obstacle session address
        (session.warnOverlap address (session.instructionAt address) other).journal

theorem Obstacle.settled {session : Session} {address : Address} {journal : Array Event}
    (h : session.Obstacle address journal) : session.Settled address := by
  rw [settled_iff]
  cases h with
  | known hcode => exact ⟨address, session.mem_extent_self address, .inr hcode⟩
  | unassigned missing hmem hmissing => exact ⟨missing, hmem, .inl hmissing⟩
  | overlap other hnew hassigned hmem hcode => exact ⟨other, hmem, .inr hcode⟩

structure Fresh (session : Session) (address : Address) : Prop where
  assigned : ∀ b ∈ session.extent address, session.memory.isAssigned b
  uncoded : ∀ b ∈ session.extent address, ¬session.memory.isCode b

theorem Fresh.of_unclassified {session : Session} {address : Address}
    (hclean : session.memory.Unclassified)
    (hassigned : ∀ i < (session.instructionAt address).size,
      session.memory.isAssigned (address.plus i)) : session.Fresh address := by
  refine ⟨?_, fun b _ => (hclean b).1⟩
  rintro b ⟨i, hi, rfl⟩
  exact hassigned i hi

theorem inspect_cases (session : Session) (address : Address) :
    (session.inspect address = .known ∧ session.memory.isCode address) ∨
    (∃ missing ∈ session.extent address, session.inspect address = .unassigned missing ∧
      ¬session.memory.isAssigned missing) ∨
    (∃ other ∈ session.extent address,
      session.inspect address = .overlap (session.instructionAt address) other ∧
      ¬session.memory.isCode address ∧
      (∀ b ∈ session.extent address, session.memory.isAssigned b) ∧
      session.memory.isCode other) ∨
    (session.inspect address = .fresh (session.instructionAt address) ∧ session.Fresh address) := by
  have hmem : ∀ b, b ∈ session.extent address ↔ b = address ∨
      b ∈ (address + 1).range ((session.instructionAt address).size - 1) := by
    intro b
    rw [Address.mem_range_tail, mem_extent_iff]
  unfold inspect
  by_cases hcode : session.memory.isCode address
  · exact .inl ⟨by simp only [hcode, if_true], hcode⟩
  by_cases hassigned : session.memory.isAssigned address
  · simp only [hcode, hassigned]
    cases hmissing : ((address + 1).range ((session.instructionAt address).size - 1)).find?
        fun b => !session.memory.isAssigned b with
    | some missing =>
        have hlater := List.mem_of_find?_eq_some hmissing
        have hnot := List.find?_some hmissing
        exact .inr (.inl ⟨missing, (hmem missing).mpr (.inr hlater), rfl, by simpa using hnot⟩)
    | none =>
        have hall : ∀ b ∈ session.extent address, session.memory.isAssigned b := by
          intro b hb
          rcases (hmem b).mp hb with rfl | hlater
          · exact hassigned
          · simpa using List.find?_eq_none.mp hmissing b hlater
        cases hother : ((address + 1).range ((session.instructionAt address).size - 1)).find?
            session.memory.isCode with
        | some other =>
            have hlater := List.mem_of_find?_eq_some hother
            exact .inr (.inr (.inl ⟨other, (hmem other).mpr (.inr hlater), rfl, by simp, hall,
              List.find?_some hother⟩))
        | none =>
            refine .inr (.inr (.inr ⟨rfl, hall, ?_⟩))
            intro b hb
            rcases (hmem b).mp hb with rfl | hlater
            · exact hcode
            · exact List.find?_eq_none.mp hother b hlater
  · refine .inr (.inl ⟨address, session.mem_extent_self address, ?_, hassigned⟩)
    simp only [hcode, hassigned]
    rfl

end Session

-- A search for code in progress: a session and the address at which decoding goes on. Without such
-- an address the next one is taken from those that wait.
structure Search where
  session : Session
  current : Option Address

namespace Search

def pending (search : Search) : List Address :=
  search.current.toList ++ search.session.queue.toList

inductive Step : Search → Search → Prop
  | take (session : Session) (address : Address) (queue : AddressQueue)
      (hpop : session.queue.pop? = some (address, queue)) :
      Step ⟨session, none⟩ ⟨{ session with queue }, some address⟩
  | leave (session : Session) (address : Address) (journal : Array Event)
      (hobstacle : session.Obstacle address journal) :
      Step ⟨session, some address⟩ ⟨{ session with journal }, none⟩
  | find (session : Session) (address : Address) (hfresh : session.Fresh address) :
      Step ⟨session, some address⟩ ⟨session.accept address (session.instructionAt address),
        (session.instructionAt address).fallThrough? address⟩

abbrev Run : Search → Search → Prop := Relation.ReflTransGen Step

theorem step_discoverAt (session : Session) (address : Address) :
    Step ⟨session, some address⟩
      ⟨(session.discoverAt address).1, (session.discoverAt address).2⟩ := by
  unfold Session.discoverAt
  rcases session.inspect_cases address with ⟨hinspect, hcode⟩ | ⟨missing, hmem, hinspect, hnot⟩ |
    ⟨other, hmem, hinspect, hnew, hassigned, hcode⟩ | ⟨hinspect, hfresh⟩
  · rw [hinspect]
    exact .leave session address _ (.known hcode)
  · rw [hinspect]
    dsimp only
    rw [Session.warnUnassigned_eq]
    exact .leave session address _ (.unassigned missing hmem hnot)
  · rw [hinspect]
    exact .leave session address _ (.overlap other hnew hassigned hmem hcode)
  · rw [hinspect]
    exact .find session address hfresh

theorem run_discoverFrom (session : Session) (address : Address) :
    Run ⟨session, some address⟩ ⟨session.discoverFrom address, none⟩ := by
  fun_induction Session.discoverFrom session address with
  | case1 session address next h =>
      have hstep := step_discoverAt session address
      rw [h] at hstep
      exact .single hstep
  | case2 session address next following h ih =>
      have hstep := step_discoverAt session address
      rw [h] at hstep
      exact .head hstep ih

-- The whole search is a run from the waiting addresses.
theorem run_collect (session : Session) : Run ⟨session, none⟩ ⟨session.collect, none⟩ := by
  fun_induction Session.collect session with
  | case1 session h => exact .refl
  | case2 session address queue h ih =>
      exact .head (.take session address queue h) ((run_discoverFrom _ address).trans ih)

theorem queue_collect (session : Session) : session.collect.queue.toList = [] := by
  fun_induction Session.collect session with
  | case1 session h => exact AddressQueue.toList_eq_nil_of_pop? h
  | case2 session address queue h ih => exact ih

theorem pending_collect (session : Session) : pending ⟨session.collect, none⟩ = [] :=
  queue_collect session

variable {search next : Search}

theorem Step.sameProgram (h : Step search next) : search.session.SameProgram next.session := by
  cases h with
  | take session address queue hpop => exact ⟨rfl, rfl, rfl, rfl⟩
  | leave session address journal hobstacle => exact ⟨rfl, rfl, rfl, rfl⟩
  | find session address hfresh => exact session.sameProgram_accept address _

-- What every step keeps, a run keeps.
theorem Run.keeps {P : Search → Prop} (hrun : Run search next)
    (hstep : ∀ x y, Step x y → P x → P y) (h : P search) : P next := by
  induction hrun with
  | refl => exact h
  | tail _ hlast ih => exact hstep _ _ hlast ih

theorem Run.sameProgram (h : Run search next) : search.session.SameProgram next.session := by
  refine h.keeps (P := fun x => search.session.SameProgram x.session) ?_ (.refl search.session)
  intro x y hstep hsame
  exact hsame.trans hstep.sameProgram

theorem Step.isFirst (h : Step search next) {b : Address} (hb : search.session.memory.isFirst b) :
    next.session.memory.isFirst b := by
  cases h with
  | take session address queue hpop => exact hb
  | leave session address journal hobstacle => exact hb
  | find session address hfresh => exact (session.isFirst_accept address b).mpr (.inr hb)

theorem Run.isFirst (h : Run search next) {b : Address} (hb : search.session.memory.isFirst b) :
    next.session.memory.isFirst b :=
  h.keeps (P := fun x => x.session.memory.isFirst b) (fun _ _ hstep => hstep.isFirst) hb

theorem Step.isFirst_of_fresh {session : Session} {a : Address}
    (h : Step ⟨session, some a⟩ next) (hfresh : session.Fresh a) :
    next.session.memory.isFirst a := by
  cases h with
  | leave _ _ journal hobstacle =>
      obtain ⟨b, hb, hmissing | hcode⟩ := (session.settled_iff a).mp hobstacle.settled
      · exact absurd (hfresh.assigned b hb) hmissing
      · exact absurd hcode (hfresh.uncoded b hb)
  | find => exact (session.isFirst_accept a a).mpr (.inl rfl)

end Search

namespace Session

theorem sameProgram_collect (session : Session) : session.SameProgram session.collect :=
  Search.Run.sameProgram (Search.run_collect session)

theorem isFirst_discoverFrom_of_fresh {session : Session} {a : Address} (hfresh : session.Fresh a) :
    (session.discoverFrom a).memory.isFirst a := by
  have hfirst := (Search.step_discoverAt session a).isFirst_of_fresh hfresh
  rw [discoverFrom]
  split
  · next next h =>
    rw [h] at hfirst
    exact hfirst
  · next next following h =>
    rw [h] at hfirst
    exact (Search.run_discoverFrom next following).isFirst hfirst

-- The address that waits longest is decoded before anything else is found.
theorem isFirst_collect_of_fresh {session : Session} {a : Address} {queue : AddressQueue}
    (hpop : session.queue.pop? = some (a, queue)) (hfresh : session.Fresh a) :
    session.collect.memory.isFirst a := by
  have hfirst : (({ session with queue }).discoverFrom a).memory.isFirst a :=
    isFirst_discoverFrom_of_fresh ⟨hfresh.assigned, hfresh.uncoded⟩
  rw [collect]
  split
  · next h =>
    rw [hpop] at h
    cases h
  · next b rest h =>
    rw [hpop] at h
    cases h
    exact (Search.run_collect _).isFirst hfirst

end Session

end Z80Atlas
