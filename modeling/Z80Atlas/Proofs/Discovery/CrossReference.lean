import Z80Atlas.Proofs.Discovery.Operand

namespace Z80Atlas

namespace Session

def kindsAt (program : Session) (sources : Set Address) (t : Address) : Set Kind :=
  {kind | (∃ old ∈ program.labels.at? t, kind = old.kind) ∨ ∃ a ∈ sources, kind = program.role a t}

theorem mem_kindsAt_insert (program : Session) (sources : Set Address) (a t : Address)
    (kind : Kind) :
    kind ∈ program.kindsAt (insert a sources) t ↔
      kind = program.role a t ∨ kind ∈ program.kindsAt sources t := by
  constructor
  · rintro (hold | ⟨b, rfl | hb, hkind⟩)
    · exact .inr (.inl hold)
    · exact .inl hkind
    · exact .inr (.inr ⟨b, hb, hkind⟩)
  · rintro (hkind | hold | ⟨b, hb, hkind⟩)
    · exact .inr ⟨a, .inl rfl, hkind⟩
    · exact .inl hold
    · exact .inr ⟨b, .inr hb, hkind⟩

end Session

def Label.rest (label : Label) : Label := { label with kind := .none, references := ∅ }

namespace Session

-- A label at `t` is explained by the labels of the program and by the sources, the instructions whose
-- operands stand for `t`.
structure Explains (program : Session) (sources : Set Address) (t : Address) (label : Label) :
    Prop where
  mem_references_iff : ∀ a, a ∈ label.references ↔
    (∃ old ∈ program.labels.at? t, a ∈ old.references) ∨ (a ∈ sources ∧ a ≠ t)
  kind_mem : label.kind ∈ program.kindsAt sources t
  rank_le : ∀ kind ∈ program.kindsAt sources t, kind.rank ≤ label.kind.rank
  kept : ∀ old ∈ program.labels.at? t, label.rest = old.rest
  created : program.labels.at? t = none → label.rest =
    { id := label.id, address := t, kind := .none, isEqu := !program.memory.isAssigned t }

inductive Accounted (program : Session) (sources : Set Address) (t : Address) :
    Option Label → Prop
  | unlabelled (hold : program.labels.at? t = none) (hsources : sources = ∅) :
      Accounted program sources t none
  | labelled (label : Label) (h : program.Explains sources t label) :
      Accounted program sources t (some label)

theorem accounted_start (program : Session) (t : Address) :
    program.Accounted ∅ t (program.labels.at? t) := by
  cases hold : program.labels.at? t with
  | none => exact .unlabelled hold rfl
  | some old =>
      refine .labelled old ⟨?_, .inl ⟨old, hold, rfl⟩, ?_, ?_, ?_⟩
      · intro a
        simp [hold]
      · rintro kind (⟨other, hother, rfl⟩ | ⟨a, ha, -⟩)
        · rw [Option.mem_unique hold hother]
        · cases ha
      · intro other hother
        rw [Option.mem_unique hold hother]
      · intro hnone
        rw [hold] at hnone
        cases hnone

section Accounting

variable {program : Session} {sources : Set Address} {t : Address}

theorem Accounted.isSome_iff {label? : Option Label} (h : program.Accounted sources t label?) :
    label?.isSome ↔ (program.labels.at? t).isSome ∨ sources.Nonempty := by
  cases h with
  | unlabelled hold hsources => simp [hold, hsources]
  | labelled label h =>
      refine ⟨fun _ => ?_, fun _ => rfl⟩
      obtain ⟨old, hold, -⟩ | ⟨a, ha, -⟩ := h.kind_mem
      · exact .inl (Option.isSome_of_mem hold)
      · exact .inr ⟨a, ha⟩

theorem Explains.promote {label : Label} (h : program.Explains sources t label)
    (haddress : label.address = t) (a : Address) :
    program.Explains (insert a sources) t
      ((label.promote (program.role a t)).addReferences [a]) := by
  have hrank : (label.kind.promote (program.role a t)).rank =
      max label.kind.rank (program.role a t).rank := Kind.rank_promote _ _
  refine ⟨?_, ?_, ?_, h.kept, h.created⟩
  · intro b
    rw [Label.mem_addReferences_singleton, Set.mem_insert_iff]
    change b ∈ label.references ∨ (b = a ∧ a ≠ label.address) ↔ _
    rw [h.mem_references_iff b, haddress]
    constructor
    · rintro ((hold | ⟨hb, hne⟩) | ⟨rfl, hne⟩)
      · exact .inl hold
      · exact .inr ⟨.inr hb, hne⟩
      · exact .inr ⟨.inl rfl, hne⟩
    · rintro (hold | ⟨rfl | hb, hne⟩)
      · exact .inl (.inl hold)
      · exact .inr ⟨rfl, hne⟩
      · exact .inl (.inr ⟨hb, hne⟩)
  · rw [mem_kindsAt_insert]
    by_cases hlt : label.kind.rank < (program.role a t).rank
    · exact .inl (if_pos hlt)
    · have hkept : label.kind.promote (program.role a t) = label.kind := if_neg hlt
      refine .inr ?_
      change label.kind.promote (program.role a t) ∈ _
      rw [hkept]
      exact h.kind_mem
  · intro kind hkind
    change kind.rank ≤ (label.kind.promote (program.role a t)).rank
    rcases (mem_kindsAt_insert program sources a t kind).mp hkind with rfl | hkind
    · omega
    · have := h.rank_le kind hkind
      omega

theorem explains_new (hold : program.labels.at? t = none) (a : Address) (id : LabelId) :
    program.Explains {a} t
      (({ id, address := t, kind := program.role a t,
          isEqu := !program.memory.isAssigned t } : Label).addReferences [a]) := by
  refine ⟨?_, .inr ⟨a, rfl, rfl⟩, ?_, ?_, ?_⟩
  · intro b
    rw [Label.mem_addReferences_singleton, hold]
    constructor
    · rintro (hempty | ⟨rfl, hne⟩)
      · exact absurd hempty Std.TreeSet.not_mem_emptyc
      · exact .inr ⟨rfl, hne⟩
    · rintro (⟨old, hmem, -⟩ | ⟨rfl, hne⟩)
      · cases hmem
      · exact .inr ⟨rfl, hne⟩
  · rintro kind (⟨old, hmem, -⟩ | ⟨b, rfl, rfl⟩)
    · rw [hold] at hmem
      cases hmem
    · exact Nat.le_refl _
  · intro old hmem
    rw [hold] at hmem
    cases hmem
  · intro _
    rfl

theorem Accounted.meet {session : Session}
    (h : program.Accounted sources t (session.labels.at? t))
    (hwf : session.labels.WellFormed)
    (hassigned : session.memory.isAssigned t = program.memory.isAssigned t) (a : Address) :
    program.Accounted (insert a sources) t
      (some (session.metLabel t [a] (program.role a t))) := by
  refine .labelled _ ?_
  rw [metLabel]
  cases hat : session.labels.at? t with
  | some label =>
      rw [hat] at h
      cases h with
      | labelled _ hlabel => exact hlabel.promote (hwf.address_eq hat) a
  | none =>
      rw [hat] at h
      cases h with
      | unlabelled hold hsources =>
          dsimp only
          rw [hassigned, hsources, insert_empty_eq]
          exact explains_new hold a _

end Accounting

theorem SameProgram.designates_iff {program session : Session} (h : program.SameProgram session)
    (hbytes : program.decoder.ReadsBytes) (a t : Address) :
    session.Designates a t ↔ program.Designates a t := by
  rw [Designates, Designates, h.instructionAt_eq hbytes]

theorem SameProgram.role_eq {program session : Session} (h : program.SameProgram session)
    (hbytes : program.decoder.ReadsBytes) (a t : Address) :
    session.role a t = program.role a t := by
  rw [role, role, h.instructionAt_eq hbytes, Instruction.role, Instruction.role,
    h.isAssigned_eq]

def sources (program session : Session) (t : Address) : Set Address :=
  {a | session.memory.isFirst a ∧ program.Designates a t}

theorem sources_of_unclassified (program session : Session)
    (hclean : session.memory.Unclassified) (t : Address) : program.sources session t = ∅ := by
  ext a
  exact ⟨fun ha => absurd ha.1 (hclean a).2, fun ha => ha.elim⟩

theorem sources_accept_of_designates (program session : Session) (a t : Address)
    (h : program.Designates a t) :
    program.sources (session.accept a (session.instructionAt a)) t =
      insert a (program.sources session t) := by
  ext b
  constructor
  · rintro ⟨hfirst, hb⟩
    rcases (session.isFirst_accept a b).mp hfirst with rfl | hold
    · exact .inl rfl
    · exact .inr ⟨hold, hb⟩
  · rintro (rfl | ⟨hold, hb⟩)
    · exact ⟨(session.isFirst_accept b b).mpr (.inl rfl), h⟩
    · exact ⟨(session.isFirst_accept a b).mpr (.inr hold), hb⟩

theorem sources_accept_of_not_designates (program session : Session) (a t : Address)
    (h : ¬program.Designates a t) :
    program.sources (session.accept a (session.instructionAt a)) t =
      program.sources session t := by
  ext b
  constructor
  · rintro ⟨hfirst, hb⟩
    rcases (session.isFirst_accept a b).mp hfirst with rfl | hold
    · exact absurd hb h
    · exact ⟨hold, hb⟩
  · rintro ⟨hold, hb⟩
    exact ⟨(session.isFirst_accept a b).mpr (.inr hold), hb⟩

-- The invariant of a search about labels: each is accounted for by the instructions found so far.
structure CrossReferenced (program session : Session) : Prop where
  same : program.SameProgram session
  wellFormed : session.labels.WellFormed
  accounted : ∀ t, program.Accounted (program.sources session t) t (session.labels.at? t)

theorem crossReferenced_start (session : Session) (hclean : session.memory.Unclassified)
    (hlabels : session.labels.WellFormed) (queue : AddressQueue) :
    session.CrossReferenced { session with queue } := by
  refine ⟨⟨rfl, rfl, rfl, rfl⟩, hlabels, fun t => ?_⟩
  rw [session.sources_of_unclassified { session with queue } hclean]
  exact session.accounted_start t

-- A new instruction is one more source of the address that its operand stands for.
theorem CrossReferenced.find {program session : Session} (h : program.CrossReferenced session)
    (hbytes : program.decoder.ReadsBytes) (address : Address) :
    program.CrossReferenced (session.accept address (session.instructionAt address)) := by
  have hsame := session.sameProgram_accept address (session.instructionAt address)
  refine ⟨h.same.trans hsame, session.wellFormed_accept h.wellFormed address _, fun t => ?_⟩
  have hdesignates := h.same.designates_iff hbytes address t
  by_cases hd : program.Designates address t
  · rw [program.sources_accept_of_designates session address t hd,
      session.at?_accept_of_designates h.wellFormed address t (hdesignates.mpr hd),
      h.same.role_eq hbytes]
    exact (h.accounted t).meet h.wellFormed (h.same.isAssigned_eq t) address
  · rw [program.sources_accept_of_not_designates session address t hd,
      session.at?_accept_of_not_designates h.wellFormed address t (mt hdesignates.mp hd)]
    exact h.accounted t

end Session

namespace Search

variable {program : Session} {search next : Search}

theorem Step.crossReferenced (hstep : Step search next) (hbytes : program.decoder.ReadsBytes)
    (h : program.CrossReferenced search.session) : program.CrossReferenced next.session := by
  have hsame := h.same.trans hstep.sameProgram
  cases hstep with
  | take session address queue hpop => exact ⟨hsame, h.wellFormed, h.accounted⟩
  | leave session address journal hobstacle => exact ⟨hsame, h.wellFormed, h.accounted⟩
  | find session address hfresh => exact h.find hbytes address

theorem Run.crossReferenced (hrun : Run search next) (hbytes : program.decoder.ReadsBytes)
    (h : program.CrossReferenced search.session) : program.CrossReferenced next.session :=
  hrun.keeps (P := fun x => program.CrossReferenced x.session)
    (fun _ _ hstep => hstep.crossReferenced hbytes) h

end Search

namespace Session

theorem crossReferenced_collect (session : Session) (hbytes : session.decoder.ReadsBytes)
    (hclean : session.memory.Unclassified) (hlabels : session.labels.WellFormed)
    (queue : AddressQueue) :
    session.CrossReferenced ({ session with queue } : Session).collect :=
  Search.Run.crossReferenced (Search.run_collect _) hbytes
    (session.crossReferenced_start hclean hlabels queue)

-- After the search there is a label at an address exactly if there was one before or an instruction
-- found by it designates the address, and these explain all of the label.
theorem collect_cross_references (session : Session) (hbytes : session.decoder.ReadsBytes)
    (hclean : session.memory.Unclassified) (hlabels : session.labels.WellFormed) (t : Address) :
    (session.collect.labels.hasLabel t ↔
      session.labels.hasLabel t ∨ (session.sources session.collect t).Nonempty) ∧
    ∀ label, session.collect.labels.at? t = some label →
      session.Explains (session.sources session.collect t) t label := by
  have haccounted :=
    (session.crossReferenced_collect hbytes hclean hlabels session.queue).accounted t
  refine ⟨haccounted.isSome_iff, ?_⟩
  intro label hlabel
  rw [hlabel] at haccounted
  cases haccounted with
  | labelled _ h => exact h

-- A value for the stack pointer and a jump to itself: LD SP,9000h, JR 8003h.
theorem collect_cross_references_stack :
    let session := (({} : Session).load 0x8000 [0x31, 0x00, 0x90, 0x18, 0xFE]).enqueue 0x8000
    session.decoder.ReadsBytes ∧ session.memory.Unclassified ∧ session.labels.WellFormed ∧
    0x8000 ∈ session.sources session.collect 0x8FFE ∧
    ∃ label, session.collect.labels.at? 0x8FFE = some label ∧ 0x8000 ∈ label.references ∧
      session.Explains (session.sources session.collect 0x8FFE) 0x8FFE label := by
  intro session
  have hclean : session.memory.Unclassified := Memory.unclassified_load _ Memory.unclassified_empty
    0x8000 [0x31, 0x00, 0x90, 0x18, 0xFE]
  have hlabels : session.labels.WellFormed := LabelStore.wellFormed_empty
  have hcode : session.memory.byte 0x8000 = 0x31 := by
    simp [session, enqueue, load, Memory.load, Memory.storeAll, Memory.byte_store]
  have hlow : session.memory.byte 0x8001 = 0x00 := by
    simp [session, enqueue, load, Memory.load, Memory.storeAll, Memory.byte_store]
  have hhigh : session.memory.byte 0x8002 = 0x90 := by
    simp [session, enqueue, load, Memory.load, Memory.storeAll, Memory.byte_store]
  have hinstruction : session.instructionAt 0x8000 =
      (Z80.mainPage 0x31).instruction session.memory 0x8000 0x31 1 :=
    instructionAt_eq_mainPage rfl hcode (by decide)
  have hdesignates : session.Designates 0x8000 0x8FFE := by
    have hvalue : session.memory.word 0x8001 = 0x9000 := by
      rw [Memory.word, hlow, show (0x8001 : Address) + 1 = 0x8002 from rfl, hhigh]
      rfl
    rw [Designates, hinstruction]
    change (some (session.memory.word 0x8001)).map (· - 2) = some 0x8FFE
    rw [hvalue]
    rfl
  have hfresh : session.Fresh 0x8000 := by
    refine .of_unclassified hclean ?_
    rw [hinstruction]
    intro i hi
    exact Memory.isAssigned_load _ 0x8000 _ (by decide) (Nat.lt_trans hi (by decide))
  have hsource : 0x8000 ∈ session.sources session.collect 0x8FFE :=
    ⟨isFirst_collect_of_fresh rfl hfresh, hdesignates⟩
  obtain ⟨hiff, hexplains⟩ :=
    collect_cross_references session Z80.readsBytes_decode hclean hlabels 0x8FFE
  obtain ⟨label, hlabel⟩ := Option.isSome_iff_exists.mp (hiff.mpr (.inr ⟨_, hsource⟩))
  have hlabelled := hexplains label hlabel
  exact ⟨Z80.readsBytes_decode, hclean, hlabels, hsource, label, hlabel,
    (hlabelled.mem_references_iff 0x8000).mpr (.inr ⟨hsource, by decide⟩), hlabelled⟩

end Session

end Z80Atlas
