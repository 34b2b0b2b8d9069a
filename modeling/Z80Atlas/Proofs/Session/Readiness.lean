import Z80Atlas.Proofs.Analysis.GivenNames
import Z80Atlas.Proofs.Session.Operation

namespace Z80Atlas

-- What a user can do to a session without classifying memory.
def Operation.IsPreparation : Operation → Prop
  | .addMarks .. => False
  | .unclassify .. => False
  | .pass _ => False
  | .disassemble => False
  | _ => True

namespace Session

section Ground

-- Labels, waiting addresses and comments are none of what the passes build upon.
theorem ground_foldl {α : Type} (step : Session → α → Session)
    (hstep : ∀ current x, (step current x).ground = current.ground) (xs : List α)
    (session : Session) :
    (xs.foldl step session).ground = session.ground :=
  List.foldlRecOn (motive := fun current : Session => current.ground = session.ground) xs step rfl
    fun current hcurrent x _ => (hstep current x).trans hcurrent

theorem ground_setLabel (session : Session) (a : Address) (name : Option String) (kind : Kind) :
    (session.setLabel a name kind).ground = session.ground := by
  unfold setLabel
  split
  · rfl
  · dsimp only
    split <;> rfl

theorem ground_fixLabel (session : Session) (a : Address) (name : Option String) :
    (session.fixLabel a name).ground = session.ground := by
  unfold fixLabel
  dsimp only
  cases session.labels.idAt? a <;> split <;> rfl

theorem ground_fixTable (session : Session) (a : Address) (count : Nat) :
    (session.fixTable a count).ground = session.ground := by
  induction count generalizing session a with
  | zero => rfl
  | succ count ih => rw [fixTable, ih, ground_fixLabel]

theorem ground_meet (session : Session) (a : Address) (references : List Address) (kind : Kind) :
    (session.meet a references kind).ground = session.ground := by
  unfold meet
  split <;> rfl

theorem ground_linkOperand (session : Session) (a : Address) (instruction : Instruction) :
    (session.linkOperand a instruction).ground = session.ground := by
  have hremark : ∀ (current : Session) (b : Address),
      (current.remarkStack b).ground = current.ground := by
    intro current b
    unfold remarkStack
    split <;> rfl
  unfold linkOperand
  split
  · next t _ =>
    have hmeet := session.ground_meet t [a] (branchRole session.memory a t instruction.kind)
    dsimp only
    split
    · exact hmeet
    · exact hmeet
  split
  · split
    · rfl
    split
    · rw [ground_meet, hremark]
      rfl
    · exact session.ground_meet _ _ _
  · rfl

theorem ground_useTrace (session : Session) (trace : String) :
    (Trace.use session trace).ground = session.ground := by
  have hlines : ∀ lines : List (Address × List Char),
      (lines.foldl Trace.useLine (session, none)).1.ground = session.ground := by
    intro lines
    refine List.foldlRecOn
      (motive := fun state : Session × Option Address => state.1.ground = session.ground) lines
      Trace.useLine rfl ?_
    rintro ⟨current, jump⟩ hcurrent ⟨a, text⟩ -
    cases jump with
    | some reference => exact (current.ground_meet a [reference] .label).trans hcurrent
    | none => exact hcurrent
  unfold Trace.use
  dsimp only
  rw [ground_foldl enqueue (fun _ _ => rfl)]
  exact hlines _

theorem ground_useEntry (session : Session) (entry : CommentEntry) :
    (session.useEntry entry).ground = session.ground := by
  unfold useEntry
  dsimp only
  split
  · rw [ground_setLabel]
    rfl
  · rfl

end Ground

section Preparation

variable {session other : Session}

structure Unexplored (session : Session) : Prop where
  unclassified : session.memory.Unclassified
  decoder : session.decoder = Z80.decode

theorem Unexplored.of_ground (h : session.Unexplored) (hground : other.ground = session.ground) :
    other.Unexplored := by
  refine ⟨?_, ?_⟩
  · rw [memory_of_ground hground]
    exact h.unclassified
  · rw [decoder_of_ground hground]
    exact h.decoder

theorem Unexplored.load (h : session.Unexplored) (origin : Address) (bytes : List UInt8) :
    (session.load origin bytes).Unexplored :=
  ⟨Memory.unclassified_load _ h.unclassified origin bytes, h.decoder⟩

theorem Unexplored.loadSnapshot (h : session.Unexplored) (bytes : List UInt8) :
    (session.perform (.loadSnapshot bytes)).Unexplored := by
  dsimp only [perform]
  unfold Snapshot.load
  split
  · next loaded start hload =>
    split at hload
    · cases hload
    · cases hload
      have hloaded := h.load 0x4000 (bytes.drop Snapshot.headerSize)
      exact ⟨hloaded.unclassified, hloaded.decoder⟩
  · exact h

theorem Unexplored.perform (h : session.Unexplored) {operation : Operation}
    (hoperation : operation.IsPreparation) : (session.perform operation).Unexplored := by
  cases operation with
  | load origin bytes => exact h.load origin bytes
  | addMarks | unclassify | pass | disassemble => exact hoperation.elim
  | loadSnapshot bytes => exact h.loadSnapshot bytes
  | setLabel a name kind => exact h.of_ground (session.ground_setLabel a name kind)
  | fixLabel a name => exact h.of_ground (session.ground_fixLabel a name)
  | fixTable a count => exact h.of_ground (session.ground_fixTable a count)
  | useTrace trace => exact h.of_ground (session.ground_useTrace trace)
  | useEntries entries => exact h.of_ground (ground_foldl useEntry ground_useEntry entries session)
  | meet a references kind => exact h.of_ground (session.ground_meet a references kind)
  | linkOperand a instruction => exact h.of_ground (session.ground_linkOperand a instruction)
  | claim parent a =>
      dsimp only [Session.perform]
      split <;> exact ⟨h.unclassified, h.decoder⟩
  | readListing =>
      dsimp only [Session.perform]
      unfold readListing
      split <;> exact ⟨h.unclassified, h.decoder⟩
  | _ => exact ⟨h.unclassified, h.decoder⟩

-- A session that was only prepared is ready for an analysis.
theorem analysable_performAll (config : Config) (operations : List Operation)
    (hoperations : ∀ operation ∈ operations, operation.IsPreparation) :
    (operations.foldl perform ({ config } : Session)).Analysable := by
  have hsound : (operations.foldl Session.perform ({ config } : Session)).Sound :=
    (Sound.clearLabels { config }).performAll operations
  have hunexplored : (operations.foldl Session.perform ({ config } : Session)).Unexplored :=
    List.foldlRecOn (motive := fun current : Session => current.Unexplored) operations _
      ⟨Memory.unclassified_empty, rfl⟩
      fun _ hcurrent operation hmem => hcurrent.perform (hoperations operation hmem)
  refine ⟨hsound.labels.wellFormed, hunexplored.unclassified, ?_, ?_⟩
  · rw [hunexplored.decoder]
    exact Z80.readsBytes_decode
  · rw [hunexplored.decoder]
    exact Z80.regular_decode

end Preparation

section Disassembly

variable {start : Session}

theorem Analysable.kept_disassemble (h : start.Analysable) :
    start.disassemble.memory = start.found.memory ∧
      start.disassemble.decoder = start.found.decoder := by
  rw [memory_of_ground start.ground_disassemble, decoder_of_ground start.ground_disassemble]
  exact h.memory_analyse

-- An analysis leaves the program as it is.
theorem Analysable.sameProgram_disassemble (h : start.Analysable) :
    start.SameProgram start.disassemble := by
  obtain ⟨hmemory, hdecoder⟩ := h.kept_disassemble
  have hground := (start.ground_enqueueStart h.wellFormed).1
  have hsame := h.crossReferenced_found.same
  have hconfig : start.disassemble.config = start.found.config := by
    rw [config_of_ground start.ground_disassemble, config_of_ground start.ground_analyse]
    exact h.distributed_classify.config
  refine ⟨?_, ?_, ?_, ?_⟩
  · rw [hdecoder, h.decoder_found]
  · rw [hconfig, h.config_found]
  · rw [hmemory, hsame.bytes, memory_of_ground hground]
  · rw [hmemory, hsame.assigned, memory_of_ground hground]

end Disassembly

end Session

end Z80Atlas
