import Z80Atlas.Proofs.Discovery.Run

namespace Z80Atlas

namespace Session

-- The instructions found so far tile the code: their extents are made of loaded bytes, do not
-- overlap, and leave no byte of the code over.
structure Tiled (session : Session) : Prop where
  code_of_first : ∀ f, session.memory.isFirst f → session.memory.isCode f
  assigned_of_code : ∀ x, session.memory.isCode x → session.memory.isAssigned x
  covered : ∀ x, session.memory.isCode x → ∃! f, session.memory.isFirst f ∧ x ∈ session.extent f
  code_of_extent : ∀ f, session.memory.isFirst f →
    ∀ x ∈ session.extent f, session.memory.isCode x
  first_of_extent : ∀ f, session.memory.isFirst f →
    ∀ x ∈ session.extent f, session.memory.isFirst x → x = f

theorem tiled_of_unclassified (session : Session) (h : session.memory.Unclassified) :
    session.Tiled where
  code_of_first f hf := absurd hf (h f).2
  assigned_of_code x hx := absurd hx (h x).1
  covered x hx := absurd hx (h x).1
  code_of_extent f hf := absurd hf (h f).2
  first_of_extent f hf := absurd hf (h f).2

-- An instruction on loaded bytes that are no code yet takes a place of its own in the tiling.
theorem Tiled.accept {session : Session} (h : session.Tiled) (hbytes : session.decoder.ReadsBytes)
    (address : Address) (hfresh : session.Fresh address) :
    (session.accept address (session.instructionAt address)).Tiled := by
  have hsame := session.sameProgram_accept address (session.instructionAt address)
  have hextent := hsame.extent_eq hbytes
  -- old instructions keep away from the new one, whose bytes were no code
  have hapart : ∀ f, session.memory.isFirst f → ∀ x ∈ session.extent f,
      x ∉ session.extent address :=
    fun f hf x hx hnew => hfresh.uncoded x hnew (h.code_of_extent f hf x hx)
  constructor
  · intro f hf
    rw [isCode_accept]
    rcases (isFirst_accept session address f).mp hf with rfl | hf
    · exact .inl (session.mem_extent_self f)
    · exact .inr (h.code_of_first f hf)
  · intro x hx
    rw [hsame.isAssigned_eq]
    rcases (isCode_accept session address x).mp hx with hx | hx
    · exact hfresh.assigned x hx
    · exact h.assigned_of_code x hx
  · intro x hx
    simp only [isFirst_accept, hextent]
    rcases (isCode_accept session address x).mp hx with hx | hx
    · refine ⟨address, ⟨.inl rfl, hx⟩, ?_⟩
      rintro f ⟨rfl | hf, hxf⟩
      · rfl
      · exact absurd hx (hapart f hf x hxf)
    · obtain ⟨f, ⟨hf, hxf⟩, hunique⟩ := h.covered x hx
      refine ⟨f, ⟨.inr hf, hxf⟩, ?_⟩
      rintro g ⟨rfl | hg, hxg⟩
      · exact absurd hxg (hapart f hf x hxf)
      · exact hunique g ⟨hg, hxg⟩
  · intro f hf x hx
    rw [hextent] at hx
    rw [isCode_accept]
    rcases (isFirst_accept session address f).mp hf with rfl | hf
    · exact .inl hx
    · exact .inr (h.code_of_extent f hf x hx)
  · intro f hf x hx hfirst
    rw [hextent] at hx
    rw [isFirst_accept] at hf hfirst
    rcases hf with rfl | hf
    · rcases hfirst with hxf | hfirst
      · exact hxf
      · exact absurd (h.code_of_first x hfirst) (hfresh.uncoded x hx)
    · rcases hfirst with rfl | hfirst
      · exact absurd (session.mem_extent_self x) (hapart f hf x hx)
      · exact h.first_of_extent f hf x hx hfirst

end Session

namespace Search

variable {search next : Search}

theorem Step.tiled (hstep : Step search next) (hbytes : search.session.decoder.ReadsBytes)
    (h : search.session.Tiled) : next.session.Tiled := by
  cases hstep with
  | take session address queue hpop => exact ⟨h.1, h.2, h.3, h.4, h.5⟩
  | leave session address journal hobstacle => exact ⟨h.1, h.2, h.3, h.4, h.5⟩
  | find session address hfresh => exact h.accept hbytes address hfresh

theorem Run.tiled (hrun : Run search next) (hbytes : search.session.decoder.ReadsBytes)
    (h : search.session.Tiled) : next.session.Tiled := by
  have hboth : next.session.decoder.ReadsBytes ∧ next.session.Tiled := by
    refine hrun.keeps (P := fun x => x.session.decoder.ReadsBytes ∧ x.session.Tiled) ?_ ⟨hbytes, h⟩
    rintro x y hstep ⟨hdecoder, htiled⟩
    exact ⟨hstep.sameProgram.readsBytes hdecoder, hstep.tiled hdecoder htiled⟩
  exact hboth.2

end Search

namespace Session

-- Whatever waits and whatever the decoder makes of the bytes, the search leaves the code tiled, if
-- there was no code before or it was tiled.
theorem collect_tiles_code (session : Session) (hbytes : session.decoder.ReadsBytes)
    (hstart : session.memory.Unclassified ∨ session.Tiled) : session.collect.Tiled := by
  have htiled : session.Tiled := hstart.elim session.tiled_of_unclassified id
  exact Search.Run.tiled (Search.run_collect session) hbytes htiled

-- A call, and a jump into the operand of the call.
theorem collect_tiles_code_jump_into_operand :
    let session := (({} : Session).load 0x8000 [0xCD, 0x04, 0x80, 0xC3, 0x01, 0x80]).enqueue 0x8000
    session.decoder.ReadsBytes ∧ session.memory.Unclassified ∧ session.collect.Tiled := by
  have hclean := Memory.unclassified_load _ Memory.unclassified_empty 0x8000
    [0xCD, 0x04, 0x80, 0xC3, 0x01, 0x80]
  exact ⟨Z80.readsBytes_decode, hclean,
    collect_tiles_code _ Z80.readsBytes_decode (.inl hclean)⟩

end Session

end Z80Atlas
