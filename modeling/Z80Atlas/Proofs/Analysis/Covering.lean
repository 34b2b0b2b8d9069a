import Z80Atlas.Proofs.Analysis.Merging

namespace Z80Atlas

-- A single instruction tiles a memory without code, also across the end of the address space.
theorem Memory.Unclassified.tiledBy_markInstruction {memory : Memory} (h : memory.Unclassified)
    (address : Address) {size : Nat} (hpos : 0 < size) (hsize : size ≤ 5) :
    (memory.markInstruction address size).TiledBy fun _ => size := by
  have hfirst : ∀ f, (memory.markInstruction address size).isFirst f ↔ f = address := by
    simp [isFirst_markInstruction, (h _).2]
  have hcode : ∀ x, (memory.markInstruction address size).isCode x ↔ x ∈ address.range size := by
    simp [isCode_markInstruction, Address.mem_range, (h _).1]
  simp only [tiledBy_iff, hfirst, hcode, exists_eq_left, implies_true, true_and]
  exact ⟨fun _ _ => ⟨hpos, hsize⟩, fun f g _ hf hg _ _ => hf.trans hg.symm⟩

namespace Session

theorem isRelocatable_iff (kind : Kind) :
    isRelocatable kind ↔
      kind ∈ [.label, .localLabel, .localLoop, .restart, .subroutine, .data] := by
  cases kind <;> decide

structure PointsInto (session : Session) (length : Address → Nat) (label : Label) (f : Address) :
    Prop where
  at? : session.labels.at? label.address = some label
  kind_mem : label.kind ∈ [.label, .localLabel, .localLoop, .restart, .subroutine, .data]
  isFirst : session.memory.isFirst f
  mem_range : label.address ∈ f.range (length f)
  ne : label.address ≠ f

section Covering

variable {session : Session} {length : Address → Nat} {label : Label}

-- In a tiling there is always an instruction around such a label.
theorem exists_pointsInto (htiled : session.memory.TiledBy length)
    (hat : session.labels.at? label.address = some label)
    (hkind : label.kind ∈ [.label, .localLabel, .localLoop, .restart, .subroutine, .data])
    (hinside : session.Inside label.address) : ∃ f, session.PointsInto length label f := by
  obtain ⟨f, hf, hmem⟩ := (htiled.isCode_iff label.address).mp hinside.1
  refine ⟨f, hat, hkind, hf, hmem, ?_⟩
  intro heq
  exact hinside.2 (heq ▸ hf)

theorem pointsInto_iff_departs (htiled : session.memory.TiledBy length) {f : Address} :
    session.PointsInto length label f ↔ session.Departs label f := by
  rw [departs_iff_of_tiledBy htiled]
  constructor
  · intro h
    have hcode := (htiled.isCode_iff label.address).mpr ⟨f, h.isFirst, h.mem_range⟩
    have hlater : ¬session.memory.isFirst label.address := by
      intro hfirst
      exact h.ne (htiled.first_of_range h.isFirst h.mem_range hfirst)
    exact ⟨⟨h.at?, (isRelocatable_iff label.kind).mpr h.kind_mem, hcode, hlater⟩, h.isFirst,
      h.mem_range⟩
  · rintro ⟨hmoves, hf, hrange⟩
    refine ⟨hmoves.at?, (isRelocatable_iff label.kind).mp hmoves.relocatable, hf, hrange, ?_⟩
    intro heq
    exact hmoves.inside.2 (heq ▸ hf)

-- No label of code or data is left behind the beginning of an instruction.
theorem first_of_at?_relocate (hwf : session.labels.WellFormed)
    (htiled : session.memory.TiledBy length) {x : Address}
    (hat : session.relocate.labels.at? x = some label)
    (hkind : label.kind ∈ [.label, .localLabel, .localLoop, .restart, .subroutine, .data])
    (hcode : session.memory.isCode x) : session.memory.isFirst x := by
  have hrun := session.merging_relocate hwf
  obtain rfl := hrun.wellFormed.address_eq hat
  by_contra hlater
  have hstays : ∀ other home, session.Departs other home →
      other.address ≠ label.address ∧ home ≠ label.address := by
    intro other home hother
    constructor
    · intro heq
      rw [← heq, hrun.left other home hother List.not_mem_nil] at hat
      cases hat
    · intro heq
      exact hlater (heq ▸ hother.isFirst)
  rw [hrun.unmoved label.address hstays] at hat
  obtain ⟨f, hf⟩ := exists_pointsInto htiled hat hkind ⟨hcode, hlater⟩
  exact (hstays label f ((pointsInto_iff_departs htiled).mp hf)).1 rfl

end Covering

-- Whatever the labels are, relocation empties the inside of every instruction of a tiling. A label
-- goes to the beginning of the instruction around it, the distance is kept, and the label there is
-- the highest in kind of all that come together, with all their references but the one to itself.
-- Everything else stays.
theorem relocate_moves_to_covering_instruction (session : Session)
    (hwf : session.labels.WellFormed) (length : Address → Nat)
    (htiled : session.memory.TiledBy length) :
    (∀ x label, session.relocate.labels.at? x = some label →
      label.kind ∈ [.label, .localLabel, .localLoop, .restart, .subroutine, .data] →
      session.relocate.memory.isCode x → session.relocate.memory.isFirst x) ∧
    (∀ x label, session.labels.at? x = some label →
      label.kind ∈ [.label, .localLabel, .localLoop, .restart, .subroutine, .data] →
      session.memory.isCode x → ¬session.memory.isFirst x →
      ∃ f, session.PointsInto length label f) ∧
    (∀ label f, session.PointsInto length label f →
      session.relocate.labels.at? label.address = none ∧
      session.relocate.offsets[label.address]? =
        some ((f.toNat : Int) - label.address.toNat) ∧
      ∃ home, session.relocate.labels.at? f = some home ∧
        session.Merged {moved | session.PointsInto length moved f} f home) ∧
    (∀ b, (∀ label f, session.PointsInto length label f → label.address ≠ b ∧ f ≠ b) →
      session.relocate.labels.at? b = session.labels.at? b) ∧
    (∀ b, (∀ label f, session.PointsInto length label f → label.address ≠ b) →
      session.relocate.offsets[b]? = session.offsets[b]?) ∧
    session.relocate.ground = session.ground := by
  have hrun := session.merging_relocate hwf
  have hmemory := memory_of_ground hrun.ground
  have hdeparts : ∀ label f, session.PointsInto length label f ↔ session.Departs label f :=
    fun _ _ => pointsInto_iff_departs htiled
  simp only [hdeparts, hmemory]
  refine ⟨?_, ?_, ?_, hrun.unmoved, hrun.unshifted, hrun.ground⟩
  · intro x label hat hkind hcode
    exact first_of_at?_relocate hwf htiled hat hkind hcode
  · intro x label hat hkind hcode hlater
    obtain rfl := hwf.address_eq hat
    obtain ⟨f, hf⟩ := exists_pointsInto htiled hat hkind ⟨hcode, hlater⟩
    exact ⟨f, (hdeparts label f).mp hf⟩
  · intro label f hlabel
    have hleft := hrun.left label f hlabel List.not_mem_nil
    refine ⟨hleft, hrun.shifted label f hlabel List.not_mem_nil, ?_⟩
    have hoff : ∀ other home, session.Departs other home → other.address ≠ f := by
      rintro other home hother rfl
      exact hother.moves.inside.2 hlabel.isFirst
    have hgains := hrun.gains f hoff
    have harrived : session.arrived [] f = {moved | session.Departs moved f} := by
      simp [arrived]
    rw [harrived] at hgains
    cases hat : session.relocate.labels.at? f with
    | some home =>
        rw [hat] at hgains
        cases hgains with
        | labelled _ hmerged => exact ⟨home, rfl, hmerged⟩
    | none =>
        rw [hat] at hgains
        cases hgains with
        | unlabelled _ hnone =>
            exact absurd (hnone ▸ hlabel : label ∈ (∅ : Set Label)) (Set.notMem_empty label)

-- An instruction of five bytes around the end of the address space, with the label of a subroutine
-- at its last byte and one of data at its second.
def acrossEnd : Session :=
  (({ memory := Memory.empty.markInstruction 0xFFFE 5 } : Session).meet 0x0002 [0x0010, 0xFFFE]
    .subroutine).meet 0xFFFF [0x0020] .data

theorem labels_acrossEnd : acrossEnd.memory = Memory.empty.markInstruction 0xFFFE 5 ∧
    acrossEnd.labels.WellFormed ∧ ∃ last second : Label,
      last.kind = .subroutine ∧ (∀ r, r ∈ last.references ↔ r = 0x0010 ∨ r = 0xFFFE) ∧
      second.kind = .data ∧ (∀ r, r ∈ second.references ↔ r = 0x0020) ∧
      ∀ a, acrossEnd.labels.at? a =
        if 0xFFFF = a then some second else if 0x0002 = a then some last else none := by
  let blank : Session := { memory := Memory.empty.markInstruction 0xFFFE 5 }
  have hlast := blank.placed_meet LabelStore.wellFormed_empty 0x0002 [0x0010, 0xFFFE] .subroutine
  have hsecond := (blank.meet 0x0002 [0x0010, 0xFFFE] .subroutine).placed_meet hlast.wellFormed
    0xFFFF [0x0020] .data
  have hblank : ∀ a, blank.labels.at? a = none := fun _ => rfl
  have hfree : (blank.meet 0x0002 [0x0010, 0xFFFE] .subroutine).labels.at? 0xFFFF = none := by
    rw [hlast.at?_of_ne (by decide), hblank]
  refine ⟨memory_of_ground (hsecond.ground.trans hlast.ground), hsecond.wellFormed, _, _,
    ?_, ?_, ?_, ?_, fun a => (hsecond.at?_eq a).trans (by rw [hlast.at?_eq, hblank])⟩
  · rw [metLabel, hblank]
    rfl
  · intro r
    rw [metLabel, hblank, Label.mem_addReferences]
    simp only [Std.TreeSet.not_mem_emptyc, false_or, List.mem_cons, List.not_mem_nil, or_false,
      and_iff_left_iff_imp]
    rintro (rfl | rfl) <;> decide
  · rw [metLabel, hfree]
    rfl
  · intro r
    rw [metLabel, hfree, Label.mem_addReferences]
    simp only [Std.TreeSet.not_mem_emptyc, false_or, List.mem_singleton, and_iff_left_iff_imp]
    rintro rfl
    decide

theorem relocate_moves_to_covering_instruction_across_end :
    acrossEnd.labels.WellFormed ∧ (acrossEnd.memory.TiledBy fun _ => 5) ∧
      acrossEnd.relocate.labels.at? 0x0002 = none ∧
      acrossEnd.relocate.offsets[(0x0002 : Address)]? = some 65532 ∧
      ∃ home, acrossEnd.relocate.labels.at? 0xFFFE = some home ∧ home.kind = .subroutine ∧
        ∀ r, r ∈ home.references ↔ r = 0x0010 ∨ r = 0x0020 := by
  obtain ⟨hmemory, hwf, last, second, hlastkind, hlastrefs, hsecondkind, hsecondrefs, hat⟩ :=
    labels_acrossEnd
  have htiled : acrossEnd.memory.TiledBy fun _ => 5 := by
    rw [hmemory]
    exact Memory.unclassified_empty.tiledBy_markInstruction 0xFFFE (by decide) (by decide)
  have hfirst : acrossEnd.memory.isFirst 0xFFFE := by
    rw [hmemory, Memory.isFirst_markInstruction]
    exact .inl rfl
  have hlast : acrossEnd.labels.at? 0x0002 = some last := by
    rw [hat, if_neg (by decide), if_pos rfl]
  have hsecond : acrossEnd.labels.at? 0xFFFF = some second := by
    rw [hat, if_pos rfl]
  have haddress := hwf.address_eq hlast
  have haddress' := hwf.address_eq hsecond
  have hpoints : ∀ m, acrossEnd.PointsInto (fun _ => 5) m 0xFFFE ↔ m = last ∨ m = second := by
    intro m
    constructor
    · intro hm
      have hmat := hm.at?
      rw [hat] at hmat
      split at hmat
      · exact .inr (Option.some.inj hmat).symm
      · split at hmat
        · exact .inl (Option.some.inj hmat).symm
        · cases hmat
    · rintro (rfl | rfl)
      · exact ⟨haddress ▸ hlast, by rw [hlastkind]; decide, hfirst, by rw [haddress]; decide,
          by rw [haddress]; decide⟩
      · exact ⟨haddress' ▸ hsecond, by rw [hsecondkind]; decide, hfirst, by rw [haddress']; decide,
          by rw [haddress']; decide⟩
  have h := (relocate_moves_to_covering_instruction acrossEnd hwf (fun _ => 5) htiled).2.2.1
  obtain ⟨hleft, hshifted, home, hhome, hmerged⟩ := h last 0xFFFE ((hpoints last).mpr (.inl rfl))
  rw [haddress] at hleft hshifted
  have hnone : acrossEnd.labels.at? 0xFFFE = none := by
    rw [hat, if_neg (by decide), if_neg (by decide)]
  refine ⟨hwf, htiled, hleft, hshifted, home, hhome, ?_, ?_⟩
  · have hrank := hmerged.rank_le last (.inr ((hpoints last).mpr (.inl rfl)))
    have hkind := hmerged.kind_mem
    rw [hlastkind] at hrank
    rcases hkind with ⟨old, hold, -⟩ | ⟨m, hm, hkind⟩
    · rw [hnone] at hold
      cases hold
    · rcases (hpoints m).mp hm with rfl | rfl
      · rw [hkind, hlastkind]
      · rw [hkind, hsecondkind] at hrank
        exact absurd hrank (by decide)
  · intro r
    simp only [hmerged.mem_references_iff, hnone, Set.mem_ofPred_eq, hpoints, Option.not_mem_none,
      false_and, exists_false, false_or, exists_eq_or_imp, exists_eq_left, hlastrefs, hsecondrefs]
    constructor
    · rintro (⟨rfl | rfl, hne⟩ | ⟨rfl, -⟩)
      · exact .inl rfl
      · exact absurd rfl hne
      · exact .inr rfl
    · rintro (rfl | rfl)
      · exact .inl ⟨.inl rfl, by decide⟩
      · exact .inr ⟨rfl, by decide⟩

end Session

end Z80Atlas
