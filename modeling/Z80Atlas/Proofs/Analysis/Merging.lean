import Z80Atlas.Proofs.Analysis.Relocation

namespace Z80Atlas

namespace Session

structure Moves (session : Session) (label : Label) : Prop where
  at? : session.labels.at? label.address = some label
  relocatable : isRelocatable label.kind
  inside : session.Inside label.address

-- A label that is going to move to `home`, the last beginning of an instruction before it. If there
-- is none near by, the label stays.
structure Departs (session : Session) (label : Label) (home : Address) : Prop where
  moves : session.Moves label
  start : session.instructionStart? label.address = some home

theorem Departs.isFirst {session : Session} {label : Label} {home : Address}
    (h : session.Departs label home) : session.memory.isFirst home :=
  List.find?_some (p := session.memory.isFirst) h.start

theorem Departs.eq {session : Session} {label : Label} {home other : Address}
    (h : session.Departs label home) (h' : session.Departs label other) : home = other :=
  Option.some.inj (h.start.symm.trans h'.start)

-- Where the marks tile the code, a label moves to the beginning of the range around it.
theorem departs_iff_of_tiledBy {session : Session} {length : Address → Nat}
    (h : session.memory.TiledBy length) {label : Label} {home : Address} :
    session.Departs label home ↔ session.Moves label ∧ session.memory.isFirst home ∧
      label.address ∈ home.range (length home) := by
  constructor
  · intro hdeparts
    obtain ⟨f, hf, hrange⟩ := (h.isCode_iff label.address).mp hdeparts.moves.inside.1
    have hstart := instructionStart?_of_tiledBy h hf hrange hdeparts.moves.inside.2
    obtain rfl := hdeparts.eq ⟨hdeparts.moves, hstart⟩
    exact ⟨hdeparts.moves, hf, hrange⟩
  · rintro ⟨hmoves, hf, hrange⟩
    exact ⟨hmoves, instructionStart?_of_tiledBy h hf hrange hmoves.inside.2⟩

theorem Tiled.departs_iff {session : Session} (h : session.Tiled)
    (hregular : session.decoder.Regular) {label : Label} {home : Address} :
    session.Departs label home ↔
      session.Moves label ∧ session.memory.isFirst home ∧ label.address ∈ session.extent home := by
  rw [mem_extent_iff_mem_range]
  exact departs_iff_of_tiledBy (h.tiledBy hregular)

structure Merged (start : Session) (moved : Set Label) (b : Address) (label : Label) : Prop where
  mem_references_iff : ∀ r, r ∈ label.references ↔
    (∃ old ∈ start.labels.at? b, r ∈ old.references) ∨ ∃ m ∈ moved, r ∈ m.references ∧ r ≠ b
  kind_mem : (∃ old ∈ start.labels.at? b, label.kind = old.kind) ∨ ∃ m ∈ moved, label.kind = m.kind
  rank_le : ∀ other, other ∈ start.labels.at? b ∨ other ∈ moved → other.kind.rank ≤ label.kind.rank
  kept : ∀ old ∈ start.labels.at? b, label.rest = old.rest
  created : start.labels.at? b = none → label.rest =
    { id := label.id, address := b, kind := .none, isEqu := !start.memory.isAssigned b }

inductive Gains (start : Session) (moved : Set Label) (b : Address) : Option Label → Prop
  | unlabelled (hold : start.labels.at? b = none) (hmoved : moved = ∅) : Gains start moved b none
  | labelled (label : Label) (h : start.Merged moved b label) : Gains start moved b (some label)

theorem gains_start (start : Session) (b : Address) : start.Gains ∅ b (start.labels.at? b) := by
  cases hold : start.labels.at? b with
  | none => exact .unlabelled hold rfl
  | some old =>
      refine .labelled old ⟨fun r => ?_, .inl ⟨old, hold, rfl⟩, ?_, ?_, ?_⟩
      · simp [hold]
      · rintro other (hother | hmem)
        · rw [Option.mem_unique hold hother]
        · exact absurd hmem (Set.notMem_empty other)
      · intro other hother
        rw [Option.mem_unique hold hother]
      · intro hnone
        rw [hold] at hnone
        cases hnone

section Gaining

variable {start : Session} {moved : Set Label} {b : Address}

theorem Gains.isSome_iff {label? : Option Label} (h : start.Gains moved b label?) :
    label?.isSome ↔ (start.labels.at? b).isSome ∨ moved.Nonempty := by
  cases h with
  | unlabelled hold hmoved => simp [hold, hmoved]
  | labelled label h =>
      refine ⟨fun _ => ?_, fun _ => rfl⟩
      obtain ⟨old, hold, -⟩ | ⟨m, hm, -⟩ := h.kind_mem
      · exact .inl (Option.isSome_of_mem hold)
      · exact .inr ⟨m, hm⟩

theorem promote_eq_or (kind other : Kind) : kind.promote other = other ∨ kind.promote other = kind := by
  unfold Kind.promote
  split
  · exact .inl rfl
  · exact .inr rfl

theorem Merged.promote {label m : Label} (h : start.Merged moved b label)
    (haddress : label.address = b) :
    start.Merged (insert m moved) b
      ((label.promote m.kind).addReferences m.references.toList) := by
  have hkind : ((label.promote m.kind).addReferences m.references.toList).kind =
      label.kind.promote m.kind := rfl
  refine ⟨fun r => ?_, ?_, fun other hother => ?_, h.kept, h.created⟩
  · rw [Label.mem_addReferences, Std.TreeSet.mem_toList]
    change r ∈ label.references ∨ (r ∈ m.references ∧ r ≠ label.address) ↔ _
    rw [h.mem_references_iff, haddress]
    simp only [Set.mem_insert_iff, exists_eq_or_imp]
    exact or_assoc.trans (or_congr_right or_comm)
  · rw [hkind]
    rcases promote_eq_or label.kind m.kind with heq | heq
    · exact .inr ⟨m, Set.mem_insert m moved, heq⟩
    · rw [heq]
      rcases h.kind_mem with hold | ⟨other, hother, hsame⟩
      · exact .inl hold
      · exact .inr ⟨other, Set.mem_insert_of_mem m hother, hsame⟩
  · rw [hkind, Kind.rank_promote]
    rcases hother with hold | rfl | hmem
    · exact (h.rank_le other (.inl hold)).trans (Nat.le_max_left _ _)
    · exact Nat.le_max_right _ _
    · exact (h.rank_le other (.inr hmem)).trans (Nat.le_max_left _ _)

theorem merged_new (hold : start.labels.at? b = none) (m : Label) (id : LabelId) :
    start.Merged {m} b
      (({ id, address := b, kind := m.kind,
          isEqu := !start.memory.isAssigned b } : Label).addReferences m.references.toList) := by
  refine ⟨fun r => ?_, .inr ⟨m, rfl, rfl⟩, ?_, ?_, fun _ => rfl⟩
  · rw [Label.mem_addReferences, Std.TreeSet.mem_toList, hold]
    constructor
    · rintro (hempty | hmem)
      · exact absurd hempty Std.TreeSet.not_mem_emptyc
      · exact .inr ⟨m, rfl, hmem⟩
    · rintro (⟨old, hmem, -⟩ | ⟨other, rfl, hmem⟩)
      · cases hmem
      · exact .inr hmem
  · rintro other (hmem | rfl)
    · rw [hold] at hmem
      cases hmem
    · exact Nat.le_refl _
  · intro old hmem
    rw [hold] at hmem
    cases hmem

theorem Gains.meet {session : Session} (h : start.Gains moved b (session.labels.at? b))
    (hwf : session.labels.WellFormed) (hmemory : session.memory = start.memory) (m : Label) :
    start.Gains (insert m moved) b
      (some (session.metLabel b m.references.toList m.kind)) := by
  refine .labelled _ ?_
  rw [metLabel]
  cases hat : session.labels.at? b with
  | some label =>
      rw [hat] at h
      cases h with
      | labelled _ hlabel => exact hlabel.promote (hwf.address_eq hat)
  | none =>
      rw [hat] at h
      cases h with
      | unlabelled hold hmoved =>
          dsimp only
          rw [hmemory, hmoved, insert_empty_eq]
          exact merged_new hold m _

end Gaining

def arrived (start : Session) (rest : List Label) (b : Address) : Set Label :=
  {m | start.Departs m b ∧ m ∉ rest}

-- The invariant of moving labels, for any kinds of labels: those in `rest` wait in their old places,
-- and the others have left theirs for the beginnings of instructions.
structure Merging (start session : Session) (rest : List Label) : Prop where
  ground : session.ground = start.ground
  wellFormed : session.labels.WellFormed
  waiting : ∀ label ∈ rest, session.labels.at? label.address = some label
  left : ∀ label home, start.Departs label home → label ∉ rest →
    session.labels.at? label.address = none
  gains : ∀ b, (∀ label home, start.Departs label home → label.address ≠ b) →
    start.Gains (start.arrived rest b) b (session.labels.at? b)
  shifted : ∀ label home, start.Departs label home → label ∉ rest →
    session.offsets[label.address]? = some ((home.toNat : Int) - label.address.toNat)
  unmoved : ∀ b, (∀ label home, start.Departs label home → label.address ≠ b ∧ home ≠ b) →
    session.labels.at? b = start.labels.at? b
  unshifted : ∀ b, (∀ label home, start.Departs label home → label.address ≠ b) →
    session.offsets[b]? = start.offsets[b]?

section Merging

variable {start session : Session} {label : Label} {rest : List Label}

-- What moving one label does.
theorem relocateLabel_eq (hwf : session.labels.WellFormed)
    (hat : session.labels.at? label.address = some label) {f : Address}
    (hstart : session.instructionStart? label.address = some f) :
    (session.relocateLabel label.id).ground = session.ground ∧
    (session.relocateLabel label.id).labels =
      (session.meet f label.references.toList label.kind).labels.erase label.address ∧
    (session.relocateLabel label.id).offsets =
      session.offsets.insert label.address (f.toNat - label.address.toNat) := by
  have hget := hwf.get?_of_at? hat
  have hplaced := session.placed_meet hwf f label.references.toList label.kind
  have hoffsets : (session.meet f label.references.toList label.kind).offsets = session.offsets := by
    rw [meet_eq]
  simp only [relocateLabel, hget, hstart]
  refine ⟨?_, rfl, ?_⟩
  · rw [← hplaced.ground]
    rfl
  · rw [note, hoffsets]

theorem at?_relocateLabel (hwf : session.labels.WellFormed)
    (hat : session.labels.at? label.address = some label) {f : Address}
    (hstart : session.instructionStart? label.address = some f) (b : Address) :
    (session.relocateLabel label.id).labels.at? b =
      if label.address = b then none
      else if f = b then some (session.metLabel f label.references.toList label.kind)
      else session.labels.at? b := by
  rw [(relocateLabel_eq hwf hat hstart).2.1, LabelStore.at?_erase,
    (session.placed_meet hwf f label.references.toList label.kind).at?_eq]

theorem offsets_relocateLabel (hwf : session.labels.WellFormed)
    (hat : session.labels.at? label.address = some label) {f : Address}
    (hstart : session.instructionStart? label.address = some f) (b : Address) :
    (session.relocateLabel label.id).offsets[b]? =
      if label.address = b then some ((f.toNat : Int) - label.address.toNat)
      else session.offsets[b]? := by
  rw [(relocateLabel_eq hwf hat hstart).2.2, Std.TreeMap.getElem?_insert]
  simp only [Std.LawfulEqCmp.compare_eq_iff_eq]

theorem arrived_cons_of_home {f : Address} (hdeparts : start.Departs label f)
    (hlabel : label ∉ rest) :
    start.arrived rest f = insert label (start.arrived (label :: rest) f) := by
  ext m
  simp only [arrived, Set.mem_ofPred_eq, Set.mem_insert_iff, List.mem_cons, not_or]
  constructor
  · rintro ⟨hm, hrest⟩
    by_cases heq : m = label
    · exact .inl heq
    · exact .inr ⟨hm, heq, hrest⟩
  · rintro (rfl | ⟨hm, -, hrest⟩)
    · exact ⟨hdeparts, hlabel⟩
    · exact ⟨hm, hrest⟩

theorem arrived_cons_of_not {b : Address} (hb : ¬start.Departs label b) :
    start.arrived rest b = start.arrived (label :: rest) b := by
  ext m
  simp only [arrived, Set.mem_ofPred_eq, List.mem_cons, not_or]
  constructor
  · rintro ⟨hm, hrest⟩
    refine ⟨hm, ?_, hrest⟩
    rintro rfl
    exact hb hm
  · rintro ⟨hm, -, hrest⟩
    exact ⟨hm, hrest⟩

-- A label without an instruction near by stays.
theorem Merging.stay (h : start.Merging session (label :: rest))
    (hnowhere : ∀ home, ¬start.Departs label home) : start.Merging session rest := by
  have hgone : ∀ other home, start.Departs other home → other ∉ rest → other ∉ label :: rest := by
    intro other home hother hmem
    rw [List.mem_cons, not_or]
    refine ⟨?_, hmem⟩
    rintro rfl
    exact hnowhere home hother
  refine ⟨h.ground, h.wellFormed, ?_, ?_, ?_, ?_, h.unmoved, h.unshifted⟩
  · exact fun other hother => h.waiting other (List.mem_cons_of_mem label hother)
  · exact fun other home hother hmem => h.left other home hother (hgone other home hother hmem)
  · intro b hb
    rw [arrived_cons_of_not (hnowhere b)]
    exact h.gains b hb
  · exact fun other home hother hmem => h.shifted other home hother (hgone other home hother hmem)

theorem Merging.move (h : start.Merging session (label :: rest)) {f : Address}
    (hdeparts : start.Departs label f) (hlabel : label ∉ rest)
    (hrest : ∀ other ∈ rest, start.Moves other ∧ other.address ≠ label.address) :
    start.Merging (session.relocateLabel label.id) rest := by
  have hwaits := h.waiting label List.mem_cons_self
  have hhome : session.instructionStart? label.address = some f := by
    rw [instructionStart?, memory_of_ground h.ground]
    exact hdeparts.start
  obtain ⟨hground, hlabels, -⟩ := relocateLabel_eq h.wellFormed hwaits hhome
  have hoff : ∀ other, start.Moves other → f ≠ other.address := by
    rintro other hother rfl
    exact hother.inside.2 hdeparts.isFirst
  have hgone : ∀ other : Label, label.address ≠ other.address → other ∉ rest →
      other ∉ label :: rest := by
    intro other hne hmem
    rw [List.mem_cons, not_or]
    exact ⟨fun hsame => hne (congrArg Label.address hsame).symm, hmem⟩
  refine ⟨hground.trans h.ground, ?_, ?_, ?_, ?_, ?_, ?_, ?_⟩
  · rw [hlabels]
    exact (session.placed_meet h.wellFormed f _ label.kind).wellFormed.erase label.address
  · intro other hother
    obtain ⟨hin, hne⟩ := hrest other hother
    rw [at?_relocateLabel h.wellFormed hwaits hhome, if_neg hne.symm, if_neg (hoff other hin)]
    exact h.waiting other (List.mem_cons_of_mem label hother)
  · intro other home hother hmem
    rw [at?_relocateLabel h.wellFormed hwaits hhome]
    by_cases heq : label.address = other.address
    · rw [if_pos heq]
    · rw [if_neg heq, if_neg (hoff other hother.moves)]
      exact h.left other home hother (hgone other heq hmem)
  · intro b hb
    have hgains := h.gains b hb
    rw [at?_relocateLabel h.wellFormed hwaits hhome, if_neg (hb label f hdeparts)]
    by_cases hbf : f = b
    · subst hbf
      rw [if_pos rfl, arrived_cons_of_home hdeparts hlabel]
      exact hgains.meet h.wellFormed (memory_of_ground h.ground) label
    · rw [if_neg hbf, arrived_cons_of_not fun hthere => hbf (hdeparts.eq hthere)]
      exact hgains
  · intro other home hother hmem
    rw [offsets_relocateLabel h.wellFormed hwaits hhome]
    by_cases heq : label.address = other.address
    · have hstart := hother.start
      rw [← heq, hdeparts.start] at hstart
      cases hstart
      rw [if_pos heq, heq]
    · rw [if_neg heq]
      exact h.shifted other home hother (hgone other heq hmem)
  · intro b hb
    obtain ⟨hleft, hhere⟩ := hb label f hdeparts
    rw [at?_relocateLabel h.wellFormed hwaits hhome, if_neg hleft, if_neg hhere]
    exact h.unmoved b hb
  · intro b hb
    rw [offsets_relocateLabel h.wellFormed hwaits hhome, if_neg (hb label f hdeparts)]
    exact h.unshifted b hb

theorem Merging.step (h : start.Merging session (label :: rest)) (hmoves : start.Moves label)
    (hlabel : label ∉ rest)
    (hrest : ∀ other ∈ rest, start.Moves other ∧ other.address ≠ label.address) :
    start.Merging (session.relocateLabel label.id) rest := by
  cases hstart : start.instructionStart? label.address with
  | some f => exact h.move ⟨hmoves, hstart⟩ hlabel hrest
  | none =>
      have hsame : session.relocateLabel label.id = session := by
        have hget := h.wellFormed.get?_of_at? (h.waiting label List.mem_cons_self)
        have hnone : session.instructionStart? label.address = none := by
          rw [instructionStart?, memory_of_ground h.ground]
          exact hstart
        simp only [relocateLabel, hget, hnone]
      rw [hsame]
      refine h.stay fun home hdeparts => ?_
      rw [hdeparts.start] at hstart
      cases hstart

theorem Merging.foldl (h : start.Merging session rest) (hmoves : ∀ label ∈ rest, start.Moves label)
    (hordered : rest.Pairwise fun label other => label.address < other.address) :
    start.Merging ((rest.map (·.id)).foldl relocateLabel session) [] := by
  induction rest generalizing session with
  | nil => exact h
  | cons label rest ih =>
      rw [List.pairwise_cons] at hordered
      have hne : ∀ other ∈ rest, other.address ≠ label.address := by
        intro other hother heq
        have hlt := hordered.1 other hother
        rw [heq] at hlt
        exact UInt16.lt_irrefl _ hlt
      refine ih (h.step (hmoves label List.mem_cons_self)
        (fun hmem => hne label hmem rfl) fun other hother => ?_)
        (fun other hother => hmoves other (List.mem_cons_of_mem label hother)) hordered.2
      exact ⟨hmoves other (List.mem_cons_of_mem label hother), hne other hother⟩

end Merging

-- Labels that point into instructions have moved and those at the beginnings have gained from them,
-- whatever the kinds of the labels and the marks of the memory are.
theorem merging_relocate (session : Session) (h : session.labels.WellFormed) :
    session.Merging session.relocate [] := by
  have hmoving : ∀ label, label ∈ (session.labels.live.filter fun label =>
      isRelocatable label.kind && session.isInside label) ↔ session.Moves label := by
    intro label
    rw [List.mem_filter, h.mem_live, Bool.and_eq_true, isInside_iff]
    exact ⟨fun ⟨hat, hkind, hin⟩ => ⟨hat, hkind, hin⟩, fun ⟨hat, hkind, hin⟩ => ⟨hat, hkind, hin⟩⟩
  unfold relocate
  refine Merging.foldl ⟨rfl, h, ?_, ?_, ?_, ?_, fun _ _ => rfl, fun _ _ => rfl⟩ ?_ ?_
  · intro label hlabel
    exact ((hmoving label).mp hlabel).at?
  · intro label home hdeparts hmem
    exact absurd ((hmoving label).mpr hdeparts.moves) hmem
  · intro b _
    have hnone : session.arrived (session.labels.live.filter fun label =>
        isRelocatable label.kind && session.isInside label) b = ∅ := by
      ext m
      simp only [arrived, Set.mem_ofPred_eq, Set.mem_empty_iff_false, iff_false]
      exact fun ⟨hdeparts, hmem⟩ => hmem ((hmoving m).mpr hdeparts.moves)
    rw [hnone]
    exact session.gains_start b
  · intro label home hdeparts hmem
    exact absurd ((hmoving label).mpr hdeparts.moves) hmem
  · intro label hlabel
    exact (hmoving label).mp hlabel
  · exact List.Pairwise.filter _ h.pairwise_live

end Session

end Z80Atlas
