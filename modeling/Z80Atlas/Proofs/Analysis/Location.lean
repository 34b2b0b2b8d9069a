import Z80Atlas.Proofs.Analysis.Passes
import Z80Atlas.Proofs.Analysis.Relocation
import Z80Atlas.Proofs.Session.Preparation

namespace Z80Atlas

namespace Session

def found (session : Session) : Session := session.enqueueStart.collect

def entered (session : Session) : Session :=
  session.found.noteLabels.labelInterrupts.labelStarts

theorem Tiled.congr {session other : Session} (h : session.Tiled)
    (hmemory : other.memory = session.memory) (hdecoder : other.decoder = session.decoder) :
    other.Tiled := by
  have hextent : ∀ a, other.extent a = session.extent a := by
    intro a
    rw [extent, instructionAt, hmemory, hdecoder]
    rfl
  refine ⟨?_, ?_, ?_, ?_, ?_⟩
  · rw [hmemory]
    exact h.code_of_first
  · rw [hmemory]
    exact h.assigned_of_code
  · simp only [hmemory, hextent]
    exact h.covered
  · simp only [hmemory, hextent]
    exact h.code_of_extent
  · simp only [hmemory, hextent]
    exact h.first_of_extent

theorem SameProgram.of_ground {session other : Session} (h : other.ground = session.ground) :
    session.SameProgram other := by
  have hmemory := memory_of_ground h
  exact ⟨decoder_of_ground h, config_of_ground h, by rw [hmemory], by rw [hmemory]⟩

structure Ready (session : Session) : Prop where
  labelled : session.Labelled
  unclassified : session.memory.Unclassified
  readsBytes : session.decoder.ReadsBytes
  regular : session.decoder.Regular

namespace Ready

variable {session : Session}

theorem enqueueStart (h : session.Ready) : session.enqueueStart.Ready := by
  obtain ⟨hground, hlabelled⟩ := h.labelled.enqueueStart
  have hmemory := memory_of_ground hground
  have hdecoder := decoder_of_ground hground
  refine ⟨hlabelled, ?_, ?_, ?_⟩
  · rw [hmemory]
    exact h.unclassified
  · rw [hdecoder]
    exact h.readsBytes
  · rw [hdecoder]
    exact h.regular

theorem sameProgram_found (h : session.Ready) : session.SameProgram session.found :=
  (SameProgram.of_ground h.labelled.enqueueStart.1).trans (sameProgram_collect _)

theorem labelled_found (h : session.Ready) : session.found.Labelled :=
  h.enqueueStart.labelled.collect h.enqueueStart.readsBytes h.enqueueStart.unclassified
    h.enqueueStart.regular

theorem tiled_found (h : session.Ready) : session.found.Tiled :=
  Search.Run.tiled (Search.run_collect _) h.enqueueStart.readsBytes
    (tiled_of_unclassified _ h.enqueueStart.unclassified)

theorem enriched_entered (h : session.Ready) :
    session.found.Enriched session.entered ∧
      ∀ a ∈ session.found.areaStarts, ∃ label, session.entered.labels.at? a = some label := by
  have hnote := h.labelled_found.enriched_note
    ("Collected " ++ Text.decimal session.found.labels.size ++ " labels")
  have hinterrupts := hnote.trans hnote.labelled.enriched_labelInterrupts
  obtain ⟨hstarts, hlabels⟩ := hinterrupts.labelled.enriched_labelStarts
  refine ⟨hinterrupts.trans hstarts, fun a ha => hlabels a ?_⟩
  rw [mem_areaStarts, memory_of_ground hinterrupts.ground]
  exact (session.found.mem_areaStarts a).mp ha

theorem tiled_entered (h : session.Ready) : session.entered.Tiled :=
  h.tiled_found.congr (memory_of_ground h.enriched_entered.1.ground)
    (decoder_of_ground h.enriched_entered.1.ground)

theorem regular_entered (h : session.Ready) : session.entered.decoder.Regular := by
  rw [decoder_of_ground h.enriched_entered.1.ground, h.sameProgram_found.decoder]
  exact h.regular

theorem gathered_located (h : session.Ready) :
    session.entered.Gathered session.located [] :=
  h.enriched_entered.1.labelled.gathered_relocate h.tiled_entered h.regular_entered

theorem ground_located (h : session.Ready) : session.located.ground = session.found.ground :=
  h.gathered_located.ground.trans h.enriched_entered.1.ground

theorem kept_located (h : session.Ready) :
    session.analyse.memory = session.found.memory ∧
      session.analyse.decoder = session.found.decoder := by
  have hkept := session.kept_analyse
  rw [hkept.memory, hkept.decoder]
  exact ⟨memory_of_ground h.ground_located, decoder_of_ground h.ground_located⟩

-- The analysis leaves the program as it was loaded.
theorem sameProgram_analyse (h : session.Ready) : session.SameProgram session.analyse := by
  have hkept := session.kept_analyse
  have hlocated := h.sameProgram_found.trans (.of_ground h.ground_located)
  exact hlocated.trans ⟨hkept.decoder, hkept.config, by rw [hkept.memory], by rw [hkept.memory]⟩

end Ready

-- What makes a listing complete: statements tile the memory, constants are the labels outside of it,
-- no label is hidden inside an instruction, and each area starts with a label.
structure Arranged (session : Session) : Prop where
  tiled : session.Tiled
  wellFormed : session.labels.WellFormed
  isEqu_eq : ∀ a label, session.labels.at? a = some label →
    label.isEqu = !session.memory.isAssigned a
  outside : ∀ a label, session.labels.at? a = some label → ¬session.Inside a
  started : ∀ a ∈ session.areaStarts, ∃ label, session.labels.at? a = some label
  ends : ¬(session.memory.isAssigned 0 ∧ session.memory.isAssigned 0xFFFF)

-- An area does not start inside an instruction, because the bytes of an instruction are all loaded.
theorem Tiled.not_inside_of_mem_areaStarts {session : Session} (h : session.Tiled)
    (hends : ¬(session.memory.isAssigned 0 ∧ session.memory.isAssigned 0xFFFF)) {a : Address}
    (ha : a ∈ session.areaStarts) : ¬session.Inside a := by
  rintro ⟨hcode, hlater⟩
  obtain ⟨hassigned, hstart⟩ := (session.mem_areaStarts a).mp ha
  obtain ⟨f, ⟨hf, i, hi, rfl⟩, -⟩ := h.covered a hcode
  cases i with
  | zero =>
      rw [Address.plus_zero] at hlater
      exact hlater hf
  | succ i =>
      have hbefore : session.memory.isAssigned (f.plus (i + 1) - 1) := by
        rw [show (1 : UInt16) = UInt16.ofNat 1 from rfl, Address.plus_sub f (by omega)]
        exact h.assigned_of_code _ (h.code_of_extent f hf _ ⟨i, by omega, rfl⟩)
      rcases hstart with hzero | hfree
      · rw [hzero] at hassigned hbefore
        exact hends ⟨hassigned, hbefore⟩
      · exact hfree hbefore

theorem Ready.arranged_analyse {session : Session} (h : session.Ready)
    (hends : ¬(session.memory.isAssigned 0 ∧ session.memory.isAssigned 0xFFFF)) :
    session.analyse.Arranged := by
  obtain ⟨hmemory, hdecoder⟩ := h.kept_located
  have hkept := session.kept_analyse
  have hgathered := h.gathered_located
  have hlocated : session.located.memory = session.found.memory := memory_of_ground h.ground_located
  have hentered : session.entered.memory = session.found.memory :=
    memory_of_ground h.enriched_entered.1.ground
  have hinside : ∀ a, session.analyse.Inside a ↔ session.entered.Inside a := by
    intro a
    rw [Inside, Inside, hmemory, hentered]
  have hloaded : ∀ a, session.found.memory.isAssigned a = session.memory.isAssigned a :=
    h.sameProgram_found.isAssigned_eq
  have hends' : ¬(session.found.memory.isAssigned 0 ∧ session.found.memory.isAssigned 0xFFFF) := by
    rw [hloaded, hloaded]
    exact hends
  refine ⟨h.tiled_found.congr hmemory hdecoder, ?_, ?_, ?_, ?_, ?_⟩
  · exact hkept.labels.wellFormed (fun l m hplace => ⟨hplace.id, hplace.address⟩)
      hgathered.labelled.wellFormed
  · intro a label hat
    obtain ⟨old, hold, hplace⟩ := hkept.labels.exists_before hat
    rw [hplace.isEqu, hgathered.labelled.isEqu_eq a old hold, hmemory, hlocated]
  · intro a label hat hin
    obtain ⟨old, hold, -⟩ := hkept.labels.exists_before hat
    exact List.not_mem_nil (hgathered.inner a old ((hinside a).mp hin) hold)
  · intro a ha
    have hstart : a ∈ session.found.areaStarts := by
      rw [mem_areaStarts, ← hmemory]
      exact (session.analyse.mem_areaStarts a).mp ha
    have hout : ¬session.entered.Inside a := by
      rw [Inside, hentered]
      exact h.tiled_found.not_inside_of_mem_areaStarts hends' hstart
    obtain ⟨first, hfirst⟩ := h.enriched_entered.2 a hstart
    obtain ⟨second, hsecond, -⟩ := hgathered.grows a hout first hfirst
    obtain ⟨label, hlabel, -⟩ := hkept.labels.exists_at? hsecond
    exact ⟨label, hlabel⟩
  · rw [hmemory]
    exact hends'

theorem sameProgram_prepared (session : Session) (hlabels : session.labels = .empty)
    (blocks : List (Address × List UInt8)) (seeds : List Seed) :
    (session.loadAll blocks).SameProgram (session.prepared blocks seeds) :=
  .of_ground (session.enriched_prepared hlabels blocks seeds).ground

theorem ready_prepared (session : Session) (hlabels : session.labels = .empty)
    (hclean : session.memory.Unclassified) (hdecoder : session.decoder = Z80.decode)
    (blocks : List (Address × List UInt8)) (seeds : List Seed) :
    (session.prepared blocks seeds).Ready := by
  have henriched := session.enriched_prepared hlabels blocks seeds
  have hz80 : (session.prepared blocks seeds).decoder = Z80.decode := by
    rw [session.decoder_prepared hlabels blocks seeds, hdecoder]
  refine ⟨henriched.labelled, ?_, ?_, ?_⟩
  · rw [session.memory_prepared hlabels blocks seeds]
    exact session.unclassified_loadAll hclean blocks
  · rw [hz80]
    exact Z80.readsBytes_decode
  · rw [hz80]
    exact Z80.regular_decode

theorem labels_keepListing (session : Session) (lines : List String) :
    (session.keepListing lines).labels = session.labels := rfl

theorem ground_keepListing (session : Session) (lines : List String) :
    (session.keepListing lines).ground = session.ground := rfl

theorem labels_disassemble (session : Session) :
    session.disassemble.labels = session.analyse.labels := by
  rw [disassemble]
  exact labels_keepListing _ _

theorem ground_disassemble (session : Session) :
    session.disassemble.ground = session.analyse.ground := by
  rw [disassemble]
  exact ground_keepListing _ _

end Session

end Z80Atlas
