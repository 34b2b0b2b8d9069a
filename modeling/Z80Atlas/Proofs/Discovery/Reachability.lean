import Z80Atlas.Proofs.Discovery.Run

namespace Z80Atlas

theorem branchRole_congr (memory other : Memory)
    (h : ∀ a, other.isAssigned a = memory.isAssigned a) (address target : Address) (kind : Kind) :
    branchRole other address target kind = branchRole memory address target kind := by
  cases kind <;> simp only [branchRole, h]

namespace Session

inductive Reaches (session : Session) (allowed seeds : Set Address) : Address → Prop
  | seed (a : Address) (hseed : a ∈ seeds) (hallowed : a ∈ allowed) : Reaches session allowed seeds a
  | follow (a b : Address) (hreach : Reaches session allowed seeds a) (hleads : session.Leads a b)
      (hallowed : b ∈ allowed) : Reaches session allowed seeds b

theorem Reaches.mono {session : Session} {allowed larger seeds : Set Address} {a : Address}
    (h : session.Reaches allowed seeds a) (hsub : allowed ⊆ larger) :
    session.Reaches larger seeds a := by
  induction h with
  | seed a hseed hallowed => exact .seed a hseed (hsub hallowed)
  | follow a b _ hleads hallowed ih => exact .follow a b ih hleads (hsub hallowed)

theorem SameProgram.branchesTo_iff {session other : Session} (h : session.SameProgram other)
    (hbytes : session.decoder.ReadsBytes) (a b : Address) :
    other.BranchesTo a b ↔ session.BranchesTo a b := by
  rw [BranchesTo, BranchesTo, h.instructionAt_eq hbytes, h.config,
    branchRole_congr session.memory other.memory h.isAssigned_eq]

theorem SameProgram.leads_iff {session other : Session} (h : session.SameProgram other)
    (hbytes : session.decoder.ReadsBytes) (a b : Address) :
    other.Leads a b ↔ session.Leads a b := by
  rw [Leads, Leads, h.branchesTo_iff hbytes, h.instructionAt_eq hbytes]

theorem SameProgram.settled_mono {session other : Session} (h : session.SameProgram other)
    (hbytes : session.decoder.ReadsBytes)
    (hcode : ∀ a, session.memory.isCode a → other.memory.isCode a) (a : Address)
    (hsettled : session.Settled a) : other.Settled a := by
  rw [settled_iff] at hsettled ⊢
  rw [h.extent_eq hbytes]
  obtain ⟨b, hb, hmissing | hother⟩ := hsettled
  · exact ⟨b, hb, .inl (by rwa [h.isAssigned_eq])⟩
  · exact ⟨b, hb, .inr (hcode b hother)⟩

-- A followed branch is not dropped: its target comes to wait, or is settled.
theorem queued_or_settled_of_branchesTo (session : Session) (a b : Address)
    (h : session.BranchesTo a b) :
    b ∈ (session.accept a (session.instructionAt a)).queue.toList ∨
      (session.accept a (session.instructionAt a)).Settled b := by
  have hassigned := (session.sameProgram_accept a (session.instructionAt a)).isAssigned_eq b
  by_cases hcode : (session.accept a (session.instructionAt a)).memory.isCode b
  · exact .inr (.inl hcode)
  by_cases hloaded : session.memory.isAssigned b
  · exact .inl ((session.mem_queue_accept a b).mpr (.inr ⟨h, hloaded, hcode⟩))
  · exact .inr (.inr (.inl (by rwa [hassigned])))

end Session

namespace Search

def Due (program : Session) (seeds : Set Address) (session : Session) (address : Address) : Prop :=
  address ∈ seeds ∨ ∃ f, session.memory.isFirst f ∧ program.Leads f address

-- The invariant of a search in a program: what was found is reached from the seeds through what was
-- found, and the pending addresses are those due, except for settled ones.
structure Explored (program : Session) (seeds : Set Address) (search : Search) : Prop where
  same : program.SameProgram search.session
  reached : ∀ f, search.session.memory.isFirst f →
    program.Reaches {a | search.session.memory.isFirst a} seeds f
  due_of_pending : ∀ y ∈ search.pending, Due program seeds search.session y
  pending_or_settled : ∀ y, Due program seeds search.session y →
    y ∈ search.pending ∨ search.session.Settled y

variable {program : Session} {seeds : Set Address}

theorem explored_start (session : Session) (hclean : session.memory.Unclassified)
    (queue : AddressQueue) (hqueue : ∀ a, a ∈ queue.toList ↔ a ∈ seeds) :
    Explored session seeds ⟨{ session with queue }, none⟩ where
  same := ⟨rfl, rfl, rfl, rfl⟩
  reached f hf := absurd hf (hclean f).2
  due_of_pending y hy := .inl ((hqueue y).mp hy)
  pending_or_settled y hy := by
    rcases hy with hy | ⟨f, hf, -⟩
    · exact .inl ((hqueue y).mpr hy)
    · exact absurd hf (hclean f).2

theorem Explored.take {session : Session} {address : Address} {queue : AddressQueue}
    (h : Explored program seeds ⟨session, none⟩)
    (hpop : session.queue.pop? = some (address, queue)) :
    Explored program seeds ⟨{ session with queue }, some address⟩ := by
  have hpending : pending ⟨{ session with queue }, some address⟩ = pending ⟨session, none⟩ :=
    (AddressQueue.toList_of_pop? hpop).symm
  refine ⟨h.same.trans (Step.take session address queue hpop).sameProgram, h.reached, ?_, ?_⟩
  · rw [hpending]
    exact h.due_of_pending
  · rw [hpending]
    exact h.pending_or_settled

theorem Explored.leave {session : Session} {address : Address} {journal : Array Event}
    (h : Explored program seeds ⟨session, some address⟩)
    (hobstacle : session.Obstacle address journal) :
    Explored program seeds ⟨{ session with journal }, none⟩ := by
  refine ⟨h.same.trans (Step.leave session address journal hobstacle).sameProgram, h.reached,
    ?_, ?_⟩
  · intro y hy
    exact h.due_of_pending y (List.mem_cons_of_mem address hy)
  · intro y hy
    rcases h.pending_or_settled y hy with hpending | hsettled
    · rcases List.mem_cons.mp hpending with rfl | hqueue
      · exact .inr hobstacle.settled
      · exact .inl hqueue
    · exact .inr hsettled

theorem due_accept_iff (session : Session) (address y : Address) :
    Due program seeds (session.accept address (session.instructionAt address)) y ↔
      Due program seeds session y ∨ program.Leads address y := by
  constructor
  · rintro (hseed | ⟨f, hf, hleads⟩)
    · exact .inl (.inl hseed)
    · rcases (session.isFirst_accept address f).mp hf with rfl | hold
      · exact .inr hleads
      · exact .inl (.inr ⟨f, hold, hleads⟩)
  · rintro ((hseed | ⟨f, hf, hleads⟩) | hleads)
    · exact .inl hseed
    · exact .inr ⟨f, (session.isFirst_accept address f).mpr (.inr hf), hleads⟩
    · exact .inr ⟨address, (session.isFirst_accept address address).mpr (.inl rfl), hleads⟩

theorem Explored.reached_accept {session : Session} {address : Address}
    (h : Explored program seeds ⟨session, some address⟩) (f : Address)
    (hf : (session.accept address (session.instructionAt address)).memory.isFirst f) :
    program.Reaches
      {a | (session.accept address (session.instructionAt address)).memory.isFirst a} seeds f := by
  have hmono : {a | session.memory.isFirst a} ⊆
      {a | (session.accept address (session.instructionAt address)).memory.isFirst a} :=
    fun a ha => (session.isFirst_accept address a).mpr (.inr ha)
  rcases (session.isFirst_accept address f).mp hf with rfl | hold
  · rcases h.due_of_pending f (List.mem_cons_self ..) with hseed | ⟨g, hg, hleads⟩
    · exact .seed f hseed hf
    · exact .follow g f ((h.reached g hg).mono hmono) hleads hf
  · exact (h.reached f hold).mono hmono

-- What was due before is still pending or settled; only the address of the new instruction is pending
-- no more, and it is code now.
theorem Explored.queued_or_settled_accept {session : Session} {address : Address}
    (h : Explored program seeds ⟨session, some address⟩) (hbytes : program.decoder.ReadsBytes)
    (y : Address) (hy : Due program seeds session y) :
    y ∈ (session.accept address (session.instructionAt address)).queue.toList ∨
      (session.accept address (session.instructionAt address)).Settled y := by
  have hsame := session.sameProgram_accept address (session.instructionAt address)
  have hdecoder := h.same.readsBytes hbytes
  rcases h.pending_or_settled y hy with hpending | hsettled
  · rcases List.mem_cons.mp hpending with rfl | hqueue
    · exact .inr (.inl ((session.isCode_accept y y).mpr (.inl (session.mem_extent_self y))))
    · exact .inl ((session.mem_queue_accept address y).mpr (.inl hqueue))
  · refine .inr (hsame.settled_mono hdecoder ?_ y hsettled)
    intro a ha
    exact (session.isCode_accept address a).mpr (.inr ha)

-- What a new instruction leads to becomes pending, unless it is a branch to a settled address.
theorem Explored.find {session : Session} {address : Address}
    (h : Explored program seeds ⟨session, some address⟩) (hbytes : program.decoder.ReadsBytes) :
    Explored program seeds ⟨session.accept address (session.instructionAt address),
      (session.instructionAt address).fallThrough? address⟩ := by
  have hleads := h.same.leads_iff hbytes address
  refine ⟨h.same.trans (session.sameProgram_accept address _), h.reached_accept, ?_, ?_⟩
  · intro y hy
    rw [due_accept_iff, ← hleads]
    rcases List.mem_append.mp hy with hfall | hqueue
    · exact .inr (.inl (Option.mem_toList.mp hfall))
    · rcases (session.mem_queue_accept address y).mp hqueue with hold | ⟨hbranch, -, -⟩
      · exact .inl (h.due_of_pending y (List.mem_cons_of_mem address hold))
      · exact .inr (.inr hbranch)
  · intro y hy
    rw [due_accept_iff, ← hleads] at hy
    rcases hy with hdue | hfall | hbranch
    · exact (h.queued_or_settled_accept hbytes y hdue).imp_left (List.mem_append_right _)
    · exact .inl (List.mem_append_left _ (Option.mem_toList.mpr hfall))
    · exact (session.queued_or_settled_of_branchesTo address y hbranch).imp_left
        (List.mem_append_right _)

theorem Step.explored {search next : Search} (hstep : Step search next)
    (hbytes : program.decoder.ReadsBytes) (h : Explored program seeds search) :
    Explored program seeds next := by
  cases hstep with
  | take session address queue hpop => exact h.take hpop
  | leave session address journal hobstacle => exact h.leave hobstacle
  | find session address hfresh => exact h.find hbytes

theorem Run.explored {search next : Search} (hrun : Run search next)
    (hbytes : program.decoder.ReadsBytes) (h : Explored program seeds search) :
    Explored program seeds next :=
  hrun.keeps (fun _ _ hstep => hstep.explored hbytes) h

theorem explored_collect (session : Session) (hbytes : session.decoder.ReadsBytes)
    (hclean : session.memory.Unclassified) (queue : AddressQueue)
    (hqueue : ∀ a, a ∈ queue.toList ↔ a ∈ seeds) :
    Explored session seeds ⟨({ session with queue } : Session).collect, none⟩ :=
  Run.explored (run_collect _) hbytes (explored_start session hclean queue hqueue)

theorem Explored.settled_of_due {session : Session}
    (h : Explored program seeds ⟨session.collect, none⟩) (address : Address)
    (hdue : Due program seeds session.collect address) :
    session.collect.Settled address := by
  rcases h.pending_or_settled address hdue with hpending | hsettled
  · rw [pending_collect] at hpending
    cases hpending
  · exact hsettled

end Search

namespace Session

-- The search finds only what is reached from the waiting addresses through found instructions, and
-- leaves open neither a waiting address nor one that a found instruction leads to.
theorem collect_explores_program (session : Session) (hbytes : session.decoder.ReadsBytes)
    (hclean : session.memory.Unclassified) :
    (∀ f, session.collect.memory.isFirst f →
      session.Reaches {a | session.collect.memory.isFirst a}
        {q | q ∈ session.queue.toList} f) ∧
    (∀ y, (y ∈ session.queue.toList ∨
        ∃ f, session.collect.memory.isFirst f ∧ session.Leads f y) →
      session.collect.Settled y) := by
  have hexplored : Search.Explored session {q | q ∈ session.queue.toList}
      ⟨session.collect, none⟩ :=
    Search.explored_collect session hbytes hclean session.queue fun _ => Iff.rfl
  exact ⟨hexplored.reached, hexplored.settled_of_due⟩

theorem collect_explores_program_denied_restart :
    let session := (({ config := { deniedRestarts := [0x08] } } : Session).load 0
      [0xCF, 0xC9, 0x00, 0x00, 0x00, 0x00, 0x00, 0x00, 0xC9]).enqueue 0
    session.decoder.ReadsBytes ∧ session.memory.Unclassified ∧ session.collect.Settled 0 ∧
      ∀ f, session.collect.memory.isFirst f →
        session.Reaches {a | session.collect.memory.isFirst a} {q | q ∈ [0]} f := by
  have hclean := Memory.unclassified_load _ Memory.unclassified_empty 0
    [0xCF, 0xC9, 0x00, 0x00, 0x00, 0x00, 0x00, 0x00, 0xC9]
  have h := collect_explores_program
    ((({ config := { deniedRestarts := [0x08] } } : Session).load 0
      [0xCF, 0xC9, 0x00, 0x00, 0x00, 0x00, 0x00, 0x00, 0xC9]).enqueue 0)
    Z80.readsBytes_decode hclean
  exact ⟨Z80.readsBytes_decode, hclean, h.2 0 (.inl (List.mem_singleton_self 0)), h.1⟩

end Session

end Z80Atlas
