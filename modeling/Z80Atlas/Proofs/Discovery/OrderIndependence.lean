import Mathlib.Data.Set.Pairwise.Basic
import Mathlib.Order.CompletePartialOrder
import Z80Atlas.Proofs.Discovery.CrossReference
import Z80Atlas.Proofs.Discovery.Reachability
import Z80Atlas.Proofs.Discovery.Tiling

namespace Z80Atlas

namespace Session

def loaded (session : Session) : Set Address :=
  {a | ∀ b ∈ session.extent a, session.memory.isAssigned b}

-- The addresses of whole instructions to which control comes from the seeds: the least set that holds
-- the seeds among them and all of them to which a member leads.
def reach (session : Session) (seeds : Set Address) : Set Address :=
  {a | session.Reaches session.loaded seeds a}

theorem reach_subset (session : Session) (seeds closed : Set Address) (hseeds : seeds ⊆ closed)
    (hclosed : ∀ a ∈ closed, ∀ b, session.Leads a b → b ∈ closed) :
    session.reach seeds ⊆ closed := by
  intro a ha
  induction ha with
  | seed a hseed _ => exact hseeds hseed
  | follow a b _ hleads _ ih => exact hclosed a ih b hleads

def ambiguities (session : Session) : List Warning :=
  session.warnings.filter (·.kind = .ambiguousDisassembly)

theorem ambiguities_warnUnassigned (session : Session) (address : Address) :
    (session.warnUnassigned address).ambiguities = session.ambiguities := by
  unfold warnUnassigned
  split
  · rfl
  · simp [ambiguities, warnings, warn]

theorem ambiguities_accept (session : Session) (address : Address) (instruction : Instruction) :
    (session.accept address instruction).ambiguities = session.ambiguities := by
  rw [accept_eq]
  rfl

theorem SameProgram.loaded_eq {program session : Session} (h : program.SameProgram session)
    (hbytes : program.decoder.ReadsBytes) : session.loaded = program.loaded := by
  simp only [loaded, h.extent_eq hbytes, h.isAssigned_eq]

theorem SameProgram.loaded_of_isFirst {program session : Session} (h : program.SameProgram session)
    (hbytes : program.decoder.ReadsBytes) (htiled : session.Tiled) (f : Address)
    (hf : session.memory.isFirst f) : f ∈ program.loaded := by
  rw [← h.loaded_eq hbytes]
  intro b hb
  exact htiled.assigned_of_code b (htiled.code_of_extent f hf b hb)

end Session

namespace Search

variable {program : Session} {seeds : Set Address}

theorem Explored.reach_of_isFirst {search : Search} (h : Explored program seeds search)
    (hbytes : program.decoder.ReadsBytes) (htiled : search.session.Tiled) (f : Address)
    (hf : search.session.memory.isFirst f) : f ∈ program.reach seeds :=
  (h.reached f hf).mono (h.same.loaded_of_isFirst hbytes htiled)

theorem Explored.reach_of_due {search : Search} (h : Explored program seeds search)
    (hbytes : program.decoder.ReadsBytes) (htiled : search.session.Tiled) (y : Address)
    (hdue : Due program seeds search.session y) (hloaded : y ∈ program.loaded) :
    y ∈ program.reach seeds := by
  rcases hdue with hseed | ⟨f, hf, hleads⟩
  · exact .seed y hseed hloaded
  · exact .follow f y (h.reach_of_isFirst hbytes htiled f hf) hleads hloaded

-- Where extents do not overlap, an instruction that shares a byte with the code was found itself.
theorem Explored.isFirst_of_code {search : Search} (h : Explored program seeds search)
    (hbytes : program.decoder.ReadsBytes) (htiled : search.session.Tiled)
    (hdisjoint : (program.reach seeds).PairwiseDisjoint program.extent) (a b : Address)
    (ha : a ∈ program.reach seeds) (hb : b ∈ program.extent a)
    (hcode : search.session.memory.isCode b) : search.session.memory.isFirst a := by
  obtain ⟨f, ⟨hf, hbf⟩, -⟩ := htiled.covered b hcode
  rw [h.same.extent_eq hbytes] at hbf
  have hreach := h.reach_of_isFirst hbytes htiled f hf
  have heq : f = a := hdisjoint.elim_set hreach ha b hbf hb
  rw [← heq]
  exact hf

theorem Explored.isFirst_of_due {session : Session}
    (h : Explored program seeds ⟨session.collect, none⟩) (hbytes : program.decoder.ReadsBytes)
    (htiled : session.collect.Tiled)
    (hdisjoint : (program.reach seeds).PairwiseDisjoint program.extent) (y : Address)
    (hdue : Due program seeds session.collect y) (hloaded : y ∈ program.loaded) :
    session.collect.memory.isFirst y := by
  have hreach := h.reach_of_due hbytes htiled y hdue hloaded
  obtain ⟨b, hb, hmissing | hcode⟩ := (Session.settled_iff _ y).mp (h.settled_of_due y hdue)
  · rw [← h.same.loaded_eq hbytes] at hloaded
    exact absurd (hloaded b hb) hmissing
  · rw [h.same.extent_eq hbytes] at hb
    exact h.isFirst_of_code hbytes htiled hdisjoint y b hreach hb hcode

theorem Explored.isFirst_of_reach {session : Session}
    (h : Explored program seeds ⟨session.collect, none⟩) (hbytes : program.decoder.ReadsBytes)
    (htiled : session.collect.Tiled)
    (hdisjoint : (program.reach seeds).PairwiseDisjoint program.extent) (a : Address)
    (ha : a ∈ program.reach seeds) : session.collect.memory.isFirst a := by
  induction ha with
  | seed a hseed hloaded =>
      exact h.isFirst_of_due hbytes htiled hdisjoint a (.inl hseed) hloaded
  | follow a b _ hleads hloaded ih =>
      exact h.isFirst_of_due hbytes htiled hdisjoint b (.inr ⟨a, ih, hleads⟩) hloaded

-- Where extents do not overlap, no step warns of an overlap: the instruction whose byte is in the way
-- would be the one to be decoded, which is not code yet.
theorem Step.ambiguities_eq {search next : Search} (hstep : Step search next)
    (h : Explored program seeds search) (hbytes : program.decoder.ReadsBytes)
    (htiled : search.session.Tiled)
    (hdisjoint : (program.reach seeds).PairwiseDisjoint program.extent) :
    next.session.ambiguities = search.session.ambiguities := by
  cases hstep with
  | take session address queue hpop => rfl
  | find session address hfresh => exact session.ambiguities_accept address _
  | leave session address journal hobstacle =>
      cases hobstacle with
      | known hcode => rfl
      | unassigned missing hmem hmissing => exact session.ambiguities_warnUnassigned missing
      | overlap other hnew hassigned hmem hcode =>
          have hdue := h.due_of_pending address (List.mem_cons_self ..)
          have hloaded : address ∈ program.loaded := by
            rw [← h.same.loaded_eq hbytes]
            exact hassigned
          have hreach := h.reach_of_due hbytes htiled address hdue hloaded
          rw [h.same.extent_eq hbytes] at hmem
          have hfirst := h.isFirst_of_code hbytes htiled hdisjoint address other hreach hmem hcode
          exact absurd (htiled.code_of_first address hfirst) hnew

theorem Run.ambiguities_eq {search next : Search} (hrun : Run search next)
    (h : Explored program seeds search) (hbytes : program.decoder.ReadsBytes)
    (htiled : search.session.Tiled)
    (hdisjoint : (program.reach seeds).PairwiseDisjoint program.extent) :
    next.session.ambiguities = search.session.ambiguities := by
  have hdecoder := h.same.readsBytes hbytes
  induction hrun with
  | refl => rfl
  | tail hrun hstep ih =>
      have hmid := Run.explored hrun hbytes h
      exact (hstep.ambiguities_eq hmid hbytes (Run.tiled hrun hdecoder htiled) hdisjoint).trans ih

end Search

namespace Session

-- Values for the stack pointer are shown by other labels; all else is as in the program.
structure Shifted (program session : Session) : Prop where
  same : program.SameProgram session
  shifted : ∀ a v, session.memory.isFirst a → (program.instructionAt a).stackTop? = some v →
    session.offsets[v]? = some (-2)
  unshifted : ∀ v, (∀ a, session.memory.isFirst a → (program.instructionAt a).stackTop? ≠ some v) →
    session.offsets[v]? = program.offsets[v]?

theorem Shifted.find {program session : Session} (h : program.Shifted session)
    (hbytes : program.decoder.ReadsBytes) (address : Address) :
    program.Shifted (session.accept address (session.instructionAt address)) := by
  have hinstruction := h.same.instructionAt_eq hbytes address
  refine ⟨h.same.trans (session.sameProgram_accept address _), ?_, ?_⟩
  · intro a v ha hv
    rw [offsets_accept, hinstruction]
    rcases (session.isFirst_accept address a).mp ha with rfl | hold
    · exact if_pos hv
    · rw [h.shifted a v hold hv]
      split <;> rfl
  · intro v hnone
    have hnew := hnone address ((session.isFirst_accept address address).mpr (.inl rfl))
    rw [offsets_accept, hinstruction, if_neg hnew]
    exact h.unshifted v fun a ha => hnone a ((session.isFirst_accept address a).mpr (.inr ha))

theorem Shifted.offsets_eq {program session other : Session} (h : program.Shifted session)
    (h' : program.Shifted other)
    (hsame : ∀ a, session.memory.isFirst a ↔ other.memory.isFirst a) (v : Address) :
    session.offsets[v]? = other.offsets[v]? := by
  by_cases hex : ∃ a, session.memory.isFirst a ∧ (program.instructionAt a).stackTop? = some v
  · obtain ⟨a, ha, hv⟩ := hex
    rw [h.shifted a v ha hv, h'.shifted a v ((hsame a).mp ha) hv]
  · have hnone : ∀ a, session.memory.isFirst a → (program.instructionAt a).stackTop? ≠ some v :=
      fun a ha hv => hex ⟨a, ha, hv⟩
    rw [h.unshifted v hnone, h'.unshifted v fun a ha => hnone a ((hsame a).mpr ha)]

end Session

namespace Search

theorem Step.shifted {program : Session} {search next : Search} (hstep : Step search next)
    (hbytes : program.decoder.ReadsBytes) (h : program.Shifted search.session) :
    program.Shifted next.session := by
  have hsame := h.same.trans hstep.sameProgram
  cases hstep with
  | take session address queue hpop => exact ⟨hsame, h.shifted, h.unshifted⟩
  | leave session address journal hobstacle => exact ⟨hsame, h.shifted, h.unshifted⟩
  | find session address hfresh => exact h.find hbytes address

end Search

structure Label.SameButNumber (label other : Label) : Prop where
  kind : label.kind = other.kind
  references : label.references.toList = other.references.toList
  rest : { label.rest with id := 0 } = { other.rest with id := 0 }

namespace Session

theorem shifted_collect (session : Session) (hbytes : session.decoder.ReadsBytes)
    (hclean : session.memory.Unclassified) (queue : AddressQueue) :
    session.Shifted ({ session with queue } : Session).collect := by
  have hstart : session.Shifted { session with queue } :=
    ⟨⟨rfl, rfl, rfl, rfl⟩, fun a _ ha => absurd ha (hclean a).2, fun _ _ => rfl⟩
  exact (Search.run_collect _).keeps (P := fun x => session.Shifted x.session)
    (fun _ _ hstep => hstep.shifted hbytes) hstart

theorem Explains.sameButNumber {program : Session} {sources : Set Address} {t : Address}
    {label other : Label} (h : program.Explains sources t label)
    (h' : program.Explains sources t other) : label.SameButNumber other := by
  refine ⟨?_, ?_, ?_⟩
  · apply Kind.rank_inj
    exact Nat.le_antisymm (h'.rank_le _ h.kind_mem) (h.rank_le _ h'.kind_mem)
  · rw [← Std.TreeSet.equiv_iff_toList_eq]
    apply Std.TreeSet.Equiv.of_forall_mem_iff
    intro a
    rw [h.mem_references_iff, h'.mem_references_iff]
  · cases hold : program.labels.at? t with
    | some old => rw [h.kept old hold, h'.kept old hold]
    | none => rw [h.created hold, h'.created hold]

theorem Accounted.rel_sameButNumber {program : Session} {sources : Set Address} {t : Address}
    {label? other? : Option Label} (h : program.Accounted sources t label?)
    (h' : program.Accounted sources t other?) :
    Option.Rel Label.SameButNumber label? other? := by
  have hiff := h.isSome_iff.trans h'.isSome_iff.symm
  cases h with
  | unlabelled hold hsources =>
      cases h' with
      | unlabelled => exact .none
      | labelled other h' => simp at hiff
  | labelled label h =>
      cases h' with
      | unlabelled => simp at hiff
      | labelled other h' => exact .some (h.sameButNumber h')

section Disjoint

variable {session : Session} {seeds : Set Address} (hbytes : session.decoder.ReadsBytes)
  (hclean : session.memory.Unclassified)
  (hdisjoint : (session.reach seeds).PairwiseDisjoint session.extent)
  (queue : AddressQueue) (hqueue : ∀ a, a ∈ queue.toList ↔ a ∈ seeds)

include hbytes hclean in
theorem tiled_collect_of_queue : ({ session with queue } : Session).collect.Tiled :=
  Search.Run.tiled (Search.run_collect _) hbytes (tiled_of_unclassified _ hclean)

include hbytes hclean hdisjoint hqueue

theorem isFirst_collect_iff (a : Address) :
    ({ session with queue } : Session).collect.memory.isFirst a ↔ a ∈ session.reach seeds := by
  have hexplored := Search.explored_collect session hbytes hclean queue hqueue
  have htiled := tiled_collect_of_queue hbytes hclean queue
  constructor
  · exact hexplored.reach_of_isFirst hbytes htiled a
  · exact hexplored.isFirst_of_reach hbytes htiled hdisjoint a

theorem isCode_collect_iff (x : Address) :
    ({ session with queue } : Session).collect.memory.isCode x ↔
      ∃ f ∈ session.reach seeds, x ∈ session.extent f := by
  have hfirst := isFirst_collect_iff hbytes hclean hdisjoint queue hqueue
  have htiled := tiled_collect_of_queue hbytes hclean queue
  have hextent := (sameProgram_collect { session with queue }).extent_eq hbytes
  constructor
  · intro hx
    obtain ⟨f, ⟨hf, hxf⟩, -⟩ := htiled.covered x hx
    rw [hextent] at hxf
    exact ⟨f, (hfirst f).mp hf, hxf⟩
  · rintro ⟨f, hf, hxf⟩
    apply htiled.code_of_extent f ((hfirst f).mpr hf)
    rw [hextent]
    exact hxf

theorem ambiguities_collect :
    ({ session with queue } : Session).collect.ambiguities = session.ambiguities :=
  Search.Run.ambiguities_eq (Search.run_collect _)
    (Search.explored_start session hclean queue hqueue) hbytes
    (tiled_of_unclassified _ hclean) hdisjoint

end Disjoint

-- Where the extents of what is reached do not overlap, the search finds just that and warns of no
-- overlap, in whatever order and however often the seeds wait; labels differ in their numbers at most.
theorem collect_order_independent (session : Session) (seeds : Set Address)
    (hbytes : session.decoder.ReadsBytes) (hclean : session.memory.Unclassified)
    (hlabels : session.labels.WellFormed)
    (hdisjoint : (session.reach seeds).PairwiseDisjoint session.extent)
    (queue other : AddressQueue) (hqueue : ∀ a, a ∈ queue.toList ↔ a ∈ seeds)
    (hother : ∀ a, a ∈ other.toList ↔ a ∈ seeds) :
    let found := ({ session with queue } : Session).collect
    let again := ({ session with queue := other } : Session).collect
    {a | found.memory.isFirst a} = session.reach seeds ∧
    {a | found.memory.isCode a} = ⋃ f ∈ session.reach seeds, session.extent f ∧
    found.ambiguities = session.ambiguities ∧
    (∀ t, Option.Rel Label.SameButNumber (found.labels.at? t) (again.labels.at? t)) ∧
    ∀ v : Address, found.offsets[v]? = again.offsets[v]? := by
  intro found again
  have hfound := isFirst_collect_iff hbytes hclean hdisjoint queue hqueue
  have hagain := isFirst_collect_iff hbytes hclean hdisjoint other hother
  have hsame : ∀ a, found.memory.isFirst a ↔ again.memory.isFirst a :=
    fun a => (hfound a).trans (hagain a).symm
  refine ⟨?_, ?_, ambiguities_collect hbytes hclean hdisjoint queue hqueue, ?_, ?_⟩
  · ext a
    exact hfound a
  · ext x
    rw [Set.mem_iUnion₂]
    simp only [exists_prop]
    exact isCode_collect_iff hbytes hclean hdisjoint queue hqueue x
  · intro t
    have hsources : session.sources again t = session.sources found t := by
      ext a
      exact and_congr_left fun _ => (hsame a).symm
    have hlast := (session.crossReferenced_collect hbytes hclean hlabels other).accounted t
    rw [hsources] at hlast
    exact ((session.crossReferenced_collect hbytes hclean hlabels queue).accounted t)
      |>.rel_sameButNumber hlast
  · exact (session.shifted_collect hbytes hclean queue).offsets_eq
      (session.shifted_collect hbytes hclean other) hsame

-- A call of the subroutine behind it: CALL 8004h, RET, RET.
def callSample : Session := ({} : Session).load 0x8000 [0xCD, 0x04, 0x80, 0xC9, 0xC9]

theorem byte_callSample :
    callSample.memory.byte 0x8000 = 0xCD ∧ callSample.memory.word 0x8001 = 0x8004 ∧
    callSample.memory.byte 0x8003 = 0xC9 ∧ callSample.memory.byte 0x8004 = 0xC9 := by
  simp [callSample, load, Memory.load, Memory.storeAll, Memory.word, Memory.byte_store]

theorem call_callSample :
    (callSample.instructionAt 0x8000).size = 3 ∧
    (callSample.instructionAt 0x8000).target? = some 0x8004 ∧
    (callSample.instructionAt 0x8000).fallThrough? 0x8000 = some 0x8003 := by
  rw [instructionAt_eq_mainPage rfl byte_callSample.1 (by decide)]
  refine ⟨rfl, ?_, rfl⟩
  change some (callSample.memory.word 0x8001) = _
  rw [byte_callSample.2.1]

theorem ret_callSample (a : Address) (ha : a = 0x8003 ∨ a = 0x8004) :
    (callSample.instructionAt a).size = 1 ∧ (callSample.instructionAt a).target? = none ∧
    (callSample.instructionAt a).fallThrough? a = none := by
  have hbyte : callSample.memory.byte a = 0xC9 := by
    rcases ha with rfl | rfl
    · exact byte_callSample.2.2.1
    · exact byte_callSample.2.2.2
  rw [instructionAt_eq_mainPage rfl hbyte (by decide)]
  exact ⟨rfl, rfl, rfl⟩

theorem reach_callSample :
    callSample.reach {0x8000, 0x8004} ⊆ {0x8000, 0x8003, 0x8004} := by
  apply reach_subset
  · rintro a (rfl | rfl) <;> simp
  · rintro a (rfl | ha) b (hfall | ⟨htarget, -⟩)
    · rw [call_callSample.2.2] at hfall
      cases hfall
      simp
    · rw [call_callSample.2.1] at htarget
      cases htarget
      simp
    · rw [(ret_callSample a ha).2.2] at hfall
      cases hfall
    · rw [(ret_callSample a ha).2.1] at htarget
      cases htarget

theorem disjoint_callSample :
    (callSample.reach {0x8000, 0x8004}).PairwiseDisjoint callSample.extent := by
  -- a byte tells the instruction that it belongs to
  have howner : ∀ a ∈ ({0x8000, 0x8003, 0x8004} : Set Address), ∀ x ∈ callSample.extent a,
      a = if x ≤ 0x8002 then 0x8000 else x := by
    rintro a (rfl | ha) x hx
    · rw [mem_extent_iff_mem_range, call_callSample.1] at hx
      simp only [Address.range, List.mem_cons, List.not_mem_nil, or_false] at hx
      rcases hx with rfl | rfl | rfl <;> decide
    · rw [mem_extent_iff_mem_range, (ret_callSample a ha).1] at hx
      simp only [Address.range, List.mem_cons, List.not_mem_nil, or_false] at hx
      subst hx
      rcases ha with rfl | rfl <;> decide
  intro a ha b hb hne
  refine Set.disjoint_left.mpr ?_
  intro x hxa hxb
  have hab := (howner a (reach_callSample ha) x hxa).trans
    (howner b (reach_callSample hb) x hxb).symm
  exact hne hab

-- The call first, or the subroutine first and the call twice.
theorem collect_order_independent_call :
    let session := callSample
    let found := ({ session with queue := .ofList [0x8000, 0x8004] } : Session).collect
    let again := ({ session with queue := .ofList [0x8004, 0x8000, 0x8000] } : Session).collect
    (session.reach {0x8000, 0x8004}).PairwiseDisjoint session.extent ∧
    {a | found.memory.isFirst a} = session.reach {0x8000, 0x8004} ∧
    found.ambiguities = session.ambiguities ∧
    ∀ t, Option.Rel Label.SameButNumber (found.labels.at? t) (again.labels.at? t) := by
  have h := collect_order_independent callSample {0x8000, 0x8004} Z80.readsBytes_decode
    (Memory.unclassified_load _ Memory.unclassified_empty _ _) LabelStore.wellFormed_empty
    disjoint_callSample (.ofList [0x8000, 0x8004]) (.ofList [0x8004, 0x8000, 0x8000])
    (fun a => by simp) (fun a => by simp; tauto)
  exact ⟨disjoint_callSample, h.1, h.2.2.1, h.2.2.2.1⟩

end Session

end Z80Atlas
