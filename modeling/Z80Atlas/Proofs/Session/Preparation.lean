import Z80Atlas.Proofs.Session.Labelling

namespace Z80Atlas

-- Where an analysis is told to start: at a fixed label, at an address that waits, or at the
-- addresses in a table.
inductive Seed where
  | fixed (address : Address) (name : Option String)
  | waiting (address : Address)
  | table (address : Address) (count : Nat)

def Seed.unnamed : Seed → Seed
  | .fixed address _ => .fixed address none
  | .waiting address => .waiting address
  | .table address count => .table address count

namespace Session

def plant (session : Session) : Seed → Session
  | .fixed address name => session.fixLabel address name
  | .waiting address => session.enqueue address
  | .table address count => session.fixTable address count

def loadAll (session : Session) (blocks : List (Address × List UInt8)) : Session :=
  blocks.foldl (fun session block => session.load block.1 block.2) session

-- A session that is ready for the analysis: blocks are loaded first, then it is told where to start.
def prepared (session : Session) (blocks : List (Address × List UInt8)) (seeds : List Seed) :
    Session :=
  seeds.foldl plant (session.loadAll blocks)

theorem Labelled.enriched_enqueue {session : Session} (h : session.Labelled) (address : Address) :
    session.Enriched (session.enqueue address) :=
  ⟨rfl, ⟨h.wellFormed, h.isEqu_eq, h.relocatable, h.uncalled⟩, GrowsAt.refl session⟩

theorem Labelled.enriched_fixTable {session : Session} (h : session.Labelled) (address : Address)
    (count : Nat) : session.Enriched (session.fixTable address count) := by
  induction count generalizing session address with
  | zero => exact .refl h
  | succ count ih =>
      have hfirst := h.enriched_fixLabel (session.memory.word address) none
      exact hfirst.trans (ih hfirst.labelled (address + 2))

theorem Labelled.enriched_plant {session : Session} (h : session.Labelled) (seed : Seed) :
    session.Enriched (session.plant seed) := by
  cases seed with
  | fixed address name => exact h.enriched_fixLabel address name
  | waiting address => exact h.enriched_enqueue address
  | table address count => exact h.enriched_fixTable address count

theorem loadAll_eq (session : Session) (blocks : List (Address × List UInt8)) :
    session.loadAll blocks = { session with memory := (session.loadAll blocks).memory } := by
  refine List.foldlRecOn
    (motive := fun loaded : Session => loaded = { session with memory := loaded.memory })
    blocks _ rfl ?_
  intro loaded hloaded block _
  rw [load, hloaded]

theorem config_loadAll (session : Session) (blocks : List (Address × List UInt8)) :
    (session.loadAll blocks).config = session.config := by
  rw [loadAll_eq]

theorem unclassified_loadAll (session : Session) (h : session.memory.Unclassified)
    (blocks : List (Address × List UInt8)) : (session.loadAll blocks).memory.Unclassified := by
  refine List.foldlRecOn (motive := fun loaded : Session => loaded.memory.Unclassified)
    blocks _ h ?_
  intro loaded hloaded block _
  exact Memory.unclassified_load _ hloaded block.1 block.2

theorem labelled_of_empty {session : Session} (h : session.labels = .empty) : session.Labelled := by
  have hnone : ∀ a, session.labels.at? a = none := by
    intro a
    rw [h]
    rfl
  refine ⟨?_, ?_, ?_, ?_⟩
  · rw [h]
    exact LabelStore.wellFormed_empty
  all_goals
    intro a label hat
    rw [hnone a] at hat
    cases hat

section Prepared

variable (session : Session) (hlabels : session.labels = .empty)
  (blocks : List (Address × List UInt8)) (seeds : List Seed)

include hlabels in
theorem enriched_prepared : (session.loadAll blocks).Enriched (session.prepared blocks seeds) := by
  have hempty : (session.loadAll blocks).labels = .empty := by
    rw [loadAll_eq, hlabels]
  exact (labelled_of_empty hempty).enriched_foldl plant (fun _ seed h => h.enriched_plant seed) seeds

include hlabels in
theorem ground_prepared : (session.prepared blocks seeds).ground =
    { session.ground with memory := (session.loadAll blocks).memory } := by
  rw [(session.enriched_prepared hlabels blocks seeds).ground, loadAll_eq]
  rfl

-- No code has an owner yet.
include hlabels in
theorem unowned_prepared (howners : session.owners = .replicate none) (a : Address) :
    (session.prepared blocks seeds).owners.get a = none := by
  have hsame : (session.prepared blocks seeds).owners = session.owners :=
    congrArg Ground.owners (session.ground_prepared hlabels blocks seeds)
  rw [hsame, howners]
  exact AddressTable.get_replicate none a

include hlabels in
theorem memory_prepared : (session.prepared blocks seeds).memory = (session.loadAll blocks).memory :=
  memory_of_ground (session.enriched_prepared hlabels blocks seeds).ground

include hlabels in
theorem decoder_prepared : (session.prepared blocks seeds).decoder = session.decoder := by
  rw [decoder_of_ground (session.enriched_prepared hlabels blocks seeds).ground, loadAll_eq]

end Prepared

theorem placed_modifyAt (session : Session) (h : session.labels.WellFormed) {t : Address}
    {label : Label} (hat : session.labels.at? t = some label) (change : Label → Label)
    (hkeep : ∀ label, (change label).id = label.id ∧ (change label).address = label.address) :
    session.Placed { session with labels := session.labels.modifyAt t change } t (change label) := by
  have hid := h.id_eq hat
  rw [LabelStore.modifyAt, hid]
  refine ⟨rfl, h.modify _ _ hkeep, fun b => ?_⟩
  dsimp only
  rw [h.at?_modify hid, hat, Option.map_some]

-- The start of the program gets a label if it has none, or becomes a jump label.
theorem Labelled.enqueueStart {session : Session} (h : session.Labelled) :
    session.enqueueStart.ground = session.ground ∧ session.enqueueStart.Labelled := by
  unfold Session.enqueueStart
  split
  · exact ⟨rfl, h⟩
  split
  · exact ⟨rfl, (h.enriched_enqueue _).labelled⟩
  split
  · exact ⟨rfl, h⟩
  dsimp only
  split
  · next hlabel =>
    obtain ⟨label, hat⟩ := Option.isSome_iff_exists.mp hlabel
    have hplaced := session.placed_modifyAt h.wellFormed hat ({ · with kind := .label })
      fun _ => ⟨rfl, rfl⟩
    have hlabelled := hplaced.labelled h (h.isEqu_eq 0 label hat) rfl (h.uncalled 0 label hat)
    exact ⟨rfl, (hlabelled.enriched_enqueue 0).labelled⟩
  · have hfixed := h.enriched_fixLabel 0 (some "ORG_0000")
    exact ⟨hfixed.ground, (hfixed.labelled.enriched_enqueue 0).labelled⟩

-- An operand that is followed or looked up stands for code or data.
theorem isRelocatable_role (session : Session) (hregular : session.decoder.Regular)
    (a t : Address) : isRelocatable (session.role a t) := by
  unfold role Instruction.role
  split
  · rfl
  split
  · rfl
  split
  · rfl
  · next htarget _ _ =>
    obtain ⟨target, htarget⟩ := Option.ne_none_iff_exists'.mp htarget
    have hcode := (hregular session.memory a).kind_isCode target htarget
    rw [isRelocatable]
    exact (Bool.or_eq_true _ _).mpr (.inl hcode)

section Collected

variable {session : Session} (h : session.Labelled) (hbytes : session.decoder.ReadsBytes)
  (hclean : session.memory.Unclassified)

include h hbytes hclean

theorem Labelled.explains_collect {a : Address} {label : Label}
    (hat : session.collect.labels.at? a = some label) :
    session.Explains (session.sources session.collect a) a label := by
  have haccounted :=
    (session.crossReferenced_collect hbytes hclean h.wellFormed session.queue).accounted a
  change session.Accounted (session.sources session.collect a) a (session.collect.labels.at? a)
    at haccounted
  rw [hat] at haccounted
  cases haccounted with
  | labelled _ hexplains => exact hexplains

-- What no search changes of a label is that of the label before it, or of a new one.
theorem Labelled.rest_collect {a : Address} {label : Label}
    (hat : session.collect.labels.at? a = some label) :
    (∃ old, session.labels.at? a = some old ∧ label.rest = old.rest) ∨
      label.rest =
        { id := label.id, address := a, kind := .none, isEqu := !session.memory.isAssigned a } := by
  have hexplains := h.explains_collect hbytes hclean hat
  cases hold : session.labels.at? a with
  | some old => exact .inl ⟨old, rfl, hexplains.kept old hold⟩
  | none => exact .inr (hexplains.created hold)

theorem Labelled.collect (hregular : session.decoder.Regular) : session.collect.Labelled := by
  have hcross := session.crossReferenced_collect hbytes hclean h.wellFormed session.queue
  refine ⟨hcross.wellFormed, ?_, ?_, ?_⟩
  · intro a label hat
    rw [(session.sameProgram_collect).isAssigned_eq]
    rcases h.rest_collect hbytes hclean hat with ⟨old, hold, hrest⟩ | hrest
    · have hequ : label.rest.isEqu = old.rest.isEqu := congrArg Label.isEqu hrest
      exact hequ.trans (h.isEqu_eq a old hold)
    · have hequ : label.rest.isEqu = !session.memory.isAssigned a := congrArg Label.isEqu hrest
      exact hequ
  · intro a label hat
    rcases (h.explains_collect hbytes hclean hat).kind_mem with ⟨old, hold, hkind⟩ | ⟨b, -, hkind⟩
    · rw [hkind]
      exact h.relocatable a old hold
    · rw [hkind]
      exact session.isRelocatable_role hregular b a
  · intro a label hat
    rcases h.rest_collect hbytes hclean hat with ⟨old, hold, hrest⟩ | hrest
    · have hcalls : label.rest.calls = old.rest.calls := congrArg Label.calls hrest
      exact hcalls.trans (h.uncalled a old hold)
    · have hcalls : label.rest.calls = #[] := congrArg Label.calls hrest
      exact hcalls

theorem Labelled.growsAt_collect (a : Address) : session.GrowsAt session.collect a := by
  intro old hold
  have haccounted :=
    (session.crossReferenced_collect hbytes hclean h.wellFormed session.queue).accounted a
  change session.Accounted (session.sources session.collect a) a (session.collect.labels.at? a)
    at haccounted
  obtain ⟨label, hat⟩ : ∃ label, session.collect.labels.at? a = some label := by
    rw [← Option.isSome_iff_exists, haccounted.isSome_iff, hold]
    exact .inl rfl
  have hexplains := h.explains_collect hbytes hclean hat
  have hrest := hexplains.kept old hold
  have hid : label.rest.id = old.rest.id := congrArg Label.id hrest
  have haddress : label.rest.address = old.rest.address := congrArg Label.address hrest
  have hfixed : label.rest.isFixed = old.rest.isFixed := congrArg Label.isFixed hrest
  refine ⟨label, hat, hid, haddress, ?_, ?_, ?_⟩
  · intro hold
    exact hfixed.trans hold
  · exact hexplains.rank_le old.kind (.inl ⟨old, hold, rfl⟩)
  · intro b hb
    exact (hexplains.mem_references_iff b).mpr (.inl ⟨old, hold, hb⟩)

end Collected

theorem Labelled.enriched_note {session : Session} (h : session.Labelled) (text : String) :
    session.Enriched (session.note text) :=
  ⟨rfl, ⟨h.wellFormed, h.isEqu_eq, h.relocatable, h.uncalled⟩, GrowsAt.refl session⟩

theorem Labelled.enriched_labelInterrupts {session : Session} (h : session.Labelled) :
    session.Enriched session.labelInterrupts := by
  unfold labelInterrupts
  refine .trans (h.enriched_foldl _ ?_ _) (Labelled.enriched_note ?_ _)
  · intro current entry hcurrent
    exact hcurrent.enriched_fixLabel entry.1 _
  · exact (h.enriched_foldl _ (fun current entry hc => hc.enriched_fixLabel entry.1 _) _).labelled

-- The start of a snapshot may get a label first; then come the areas without one.
theorem Labelled.labelStarts_eq {session : Session} (h : session.Labelled) :
    ∃ marked, session.Enriched marked ∧ session.labelStarts =
      (marked.areaStarts.filter fun a => !marked.labels.hasLabel a).foldl
        (fun session a => session.setLabel a (some ("BIN_START_" ++ Text.hex4 a)) .data) marked := by
  unfold labelStarts
  cases session.snapshotStart with
  | some start =>
      dsimp only
      split
      · exact ⟨_, h.enriched_setLabel start _ .label rfl, rfl⟩
      · exact ⟨session, .refl h, rfl⟩
  | none => exact ⟨session, .refl h, rfl⟩

-- Naming data one address after the other leaves a label at each of them.
theorem Labelled.exists_label_foldl {session : Session} (h : session.Labelled)
    (name : Address → Option String) (starts : List Address) (a : Address) (ha : a ∈ starts) :
    ∃ label, (starts.foldl (fun session a => session.setLabel a (name a) .data) session).labels.at? a =
      some label := by
  induction starts generalizing session with
  | nil => cases ha
  | cons start rest ih =>
      have hstart := h.enriched_setLabel start (name start) .data rfl
      have hrest := hstart.labelled.enriched_foldl
        (fun session a => session.setLabel a (name a) .data)
        (fun _ a hcurrent => hcurrent.enriched_setLabel a (name a) .data rfl) rest
      rcases List.mem_cons.mp ha with rfl | ha
      · have hplaced := session.placed_setLabel h.wellFormed a (name a) .data
        obtain ⟨label, hlabel, -⟩ := hrest.grows a _ hplaced.at?_self
        exact ⟨label, hlabel⟩
      · exact ih hstart.labelled ha

theorem mem_areaStarts (session : Session) (a : Address) :
    a ∈ session.areaStarts ↔
      session.memory.isAssigned a ∧ (a = 0 ∨ ¬session.memory.isAssigned (a - 1)) := by
  simp [areaStarts, Address.mem_all]

theorem Labelled.enriched_labelStarts {session : Session} (h : session.Labelled) :
    session.Enriched session.labelStarts ∧
      ∀ a ∈ session.areaStarts, ∃ label, session.labelStarts.labels.at? a = some label := by
  obtain ⟨marked, hmarked, heq⟩ := h.labelStarts_eq
  have hrest := hmarked.labelled.enriched_foldl
    (fun session a => session.setLabel a (some ("BIN_START_" ++ Text.hex4 a)) .data)
    (fun _ a hcurrent => hcurrent.enriched_setLabel a _ .data rfl)
    (marked.areaStarts.filter fun a => !marked.labels.hasLabel a)
  rw [heq]
  refine ⟨hmarked.trans hrest, ?_⟩
  intro a ha
  by_cases hlabel : marked.labels.hasLabel a
  · obtain ⟨old, hold⟩ := Option.isSome_iff_exists.mp hlabel
    obtain ⟨label, hlabel, -⟩ := hrest.grows a old hold
    exact ⟨label, hlabel⟩
  · have hmem : a ∈ marked.areaStarts := by
      rw [mem_areaStarts, memory_of_ground hmarked.ground]
      exact (session.mem_areaStarts a).mp ha
    have hopen : a ∈ marked.areaStarts.filter fun a => !marked.labels.hasLabel a := by
      rw [List.mem_filter]
      exact ⟨hmem, by simpa using hlabel⟩
    exact hmarked.labelled.exists_label_foldl (fun a => some ("BIN_START_" ++ Text.hex4 a)) _ a hopen

end Session

end Z80Atlas
