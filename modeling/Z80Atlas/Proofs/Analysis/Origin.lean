import Z80Atlas.Proofs.Analysis.Location
import Z80Atlas.Proofs.Analysis.Merging

namespace Z80Atlas

theorem Search.Step.ground_eq {search next : Search} (h : Search.Step search next) :
    next.session.ground = { search.session.ground with memory := next.session.memory } := by
  cases h with
  | take session address queue hpop => rfl
  | leave session address journal hobstacle => rfl
  | find session address hfresh =>
      dsimp only
      rw [Session.accept_eq]
      rfl

namespace Session

-- A search for code leaves all but the memory of what the passes build upon.
theorem ground_collect (session : Session) :
    session.collect.ground = { session.ground with memory := session.collect.memory } := by
  refine (Search.run_collect session).keeps
    (P := fun x => x.session.ground = { session.ground with memory := x.session.memory }) ?_ rfl
  intro x y hstep hx
  rw [hstep.ground_eq, hx]

section Start

-- What the start of the program does to the label at address 0, and to no other.
theorem enqueueStart_cases (session : Session) (h : session.labels.WellFormed) :
    (session.enqueueStart.ground = session.ground ∧
      session.enqueueStart.labels = session.labels) ∨
    (∃ label, session.labels.at? 0 = some label ∧
      session.Placed session.enqueueStart 0 { label with kind := .label }) ∨
    (session.labels.at? 0 = none ∧ session.memory.isAssigned 0 ∧
      session.Placed session.enqueueStart 0 (session.fixedLabel 0 (some "ORG_0000"))) := by
  unfold enqueueStart
  split
  · exact .inl ⟨rfl, rfl⟩
  split
  · exact .inl ⟨rfl, rfl⟩
  split
  · exact .inl ⟨rfl, rfl⟩
  · next hassigned =>
    dsimp only
    split
    · next hlabel =>
      obtain ⟨label, hat⟩ := Option.isSome_iff_exists.mp hlabel
      have hplaced := session.placed_modifyAt h hat ({ · with kind := .label }) fun _ => ⟨rfl, rfl⟩
      exact .inr (.inl ⟨label, hat, hplaced.ground, hplaced.wellFormed, hplaced.at?_eq⟩)
    · next hlabel =>
      have hplaced := session.placed_fixLabel h 0 (some "ORG_0000")
      refine .inr (.inr ⟨?_, by simpa using hassigned, hplaced.ground, hplaced.wellFormed,
        hplaced.at?_eq⟩)
      exact Option.not_isSome_iff_eq_none.mp hlabel

theorem ground_enqueueStart (session : Session) (h : session.labels.WellFormed) :
    session.enqueueStart.ground = session.ground ∧ session.enqueueStart.labels.WellFormed := by
  rcases session.enqueueStart_cases h with ⟨hground, hlabels⟩ | ⟨_, -, hplaced⟩ | ⟨-, -, hplaced⟩
  · exact ⟨hground, hlabels ▸ h⟩
  · exact ⟨hplaced.ground, hplaced.wellFormed⟩
  · exact ⟨hplaced.ground, hplaced.wellFormed⟩

-- What holds of all labels, and of the label at the start once it is there, holds of them when the
-- start of the program waits.
theorem forall_enqueueStart (fits : Address → Label → Prop) {session : Session}
    (hwf : session.labels.WellFormed)
    (h : ∀ a label, session.labels.at? a = some label → fits a label)
    (hkind : ∀ label, fits 0 label → fits 0 { label with kind := .label })
    (hnew : session.labels.at? 0 = none → session.memory.isAssigned 0 →
      fits 0 (session.fixedLabel 0 (some "ORG_0000"))) (a : Address) (label : Label)
    (hat : session.enqueueStart.labels.at? a = some label) : fits a label := by
  rcases session.enqueueStart_cases hwf with
    ⟨-, hlabels⟩ | ⟨old, hold, hplaced⟩ | ⟨hfree, hloaded, hplaced⟩
  · rw [hlabels] at hat
    exact h a label hat
  · by_cases ha : 0 = a
    · subst ha
      rw [hplaced.at?_self] at hat
      cases hat
      exact hkind old (h 0 old hold)
    · rw [hplaced.at?_of_ne ha] at hat
      exact h a label hat
  · by_cases ha : 0 = a
    · subst ha
      rw [hplaced.at?_self] at hat
      cases hat
      exact hnew hfree hloaded
    · rw [hplaced.at?_of_ne ha] at hat
      exact h a label hat

theorem at?_enqueueStart_of_some {session : Session} (h : session.labels.WellFormed) {a : Address}
    {label : Label} (hat : session.labels.at? a = some label) :
    ∃ new, session.enqueueStart.labels.at? a = some new ∧ new.rest = label.rest := by
  rcases session.enqueueStart_cases h with ⟨-, hlabels⟩ | ⟨old, hold, hplaced⟩ | ⟨hnone, -, hplaced⟩
  · exact ⟨label, by rw [hlabels, hat], rfl⟩
  · by_cases ha : 0 = a
    · subst ha
      rw [hat] at hold
      cases hold
      exact ⟨_, hplaced.at?_self, rfl⟩
    · exact ⟨label, by rw [hplaced.at?_of_ne ha, hat], rfl⟩
  · have ha : 0 ≠ a := by
      rintro rfl
      rw [hat] at hnone
      cases hnone
    exact ⟨label, by rw [hplaced.at?_of_ne ha, hat], rfl⟩

end Start

structure Supplied (fits : Address → Label → Prop) (start session : Session) : Prop where
  ground : session.ground = start.ground
  wellFormed : session.labels.WellFormed
  kept : ∀ b label, start.labels.at? b = some label → session.labels.at? b = some label
  fits : ∀ b label, start.labels.at? b = none → session.labels.at? b = some label → fits b label

namespace Supplied

variable {fits : Address → Label → Prop} {start session other : Session}

theorem refl (h : session.labels.WellFormed) : session.Supplied fits session := by
  refine ⟨rfl, h, fun _ _ hat => hat, fun b label hnone hat => ?_⟩
  rw [hnone] at hat
  cases hat

theorem trans (h : start.Supplied fits session) (h' : session.Supplied fits other) :
    start.Supplied fits other := by
  refine ⟨h'.ground.trans h.ground, h'.wellFormed, ?_, ?_⟩
  · intro b label hat
    exact h'.kept b label (h.kept b label hat)
  · intro b label hnone hat
    cases hmiddle : session.labels.at? b with
    | none => exact h'.fits b label hmiddle hat
    | some old =>
        rw [h'.kept b old hmiddle] at hat
        cases hat
        exact h.fits b label hnone hmiddle

theorem placed (h : start.Supplied fits session) {t : Address} {new : Label}
    (hplaced : session.Placed other t new) (hnone : start.labels.at? t = none) (hfits : fits t new) :
    start.Supplied fits other := by
  refine ⟨hplaced.ground.trans h.ground, hplaced.wellFormed, ?_, ?_⟩
  · intro b label hat
    have hb : t ≠ b := by
      rintro rfl
      rw [hat] at hnone
      cases hnone
    rw [hplaced.at?_of_ne hb]
    exact h.kept b label hat
  · intro b label hfree hat
    by_cases hb : t = b
    · subst hb
      rw [hplaced.at?_self] at hat
      cases hat
      exact hfits
    · rw [hplaced.at?_of_ne hb] at hat
      exact h.fits b label hfree hat

theorem note (h : start.Supplied fits session) (text : String) :
    start.Supplied fits (session.note text) :=
  ⟨h.ground, h.wellFormed, h.kept, h.fits⟩

-- A pass over addresses that had no label at its start.
theorem foldl {α : Type} (h : start.Supplied fits session) (address : α → Address)
    (step : Session → α → Session) (xs : List α)
    (hfree : ∀ x ∈ xs, start.labels.at? (address x) = none)
    (hstep : ∀ current, start.Supplied fits current → ∀ x ∈ xs,
      ∃ new, current.Placed (step current x) (address x) new ∧ fits (address x) new) :
    start.Supplied fits (xs.foldl step session) := by
  refine List.foldlRecOn (motive := start.Supplied fits) xs step h ?_
  intro current hcurrent x hx
  obtain ⟨new, hplaced, hfits⟩ := hstep current hcurrent x hx
  exact hcurrent.placed hplaced (hfree x hx) hfits

end Supplied

inductive AutomaticName (ground : Ground) (interrupts : List Address) : Address → String → Prop
  | origin (hassigned : ground.memory.isAssigned 0) : AutomaticName ground interrupts 0 "ORG_0000"
  | interrupt (index : Nat) (a : Address) (hindex : interrupts[index]? = some a)
      (hassigned : ground.memory.isAssigned a) :
      AutomaticName ground interrupts a
        (if interrupts.length > 1 then
          ground.config.stems.interrupt ++ Text.decimal (index + 1)
        else ground.config.stems.interrupt)
  | snapshot (a : Address) (hstart : ground.snapshotStart = some a) :
      AutomaticName ground interrupts a ("SNA_LBL_MAIN_START_" ++ Text.hex a.toNat 1)
  | area (a : Address) (hassigned : ground.memory.isAssigned a) :
      AutomaticName ground interrupts a ("BIN_START_" ++ Text.hex4 a)

structure Automatic (ground : Ground) (interrupts : List Address) (a : Address) (label : Label) :
    Prop where
  named : ∃ name, label.name = some name ∧ AutomaticName ground interrupts a name
  kind : label.kind = .label ∨ label.kind = .data
  entry : label.kind = .label → ground.memory.isFirst a ∨
    (ground.config.automaticAddresses ∧ ground.snapshotStart = some a)
  unreferenced : ∀ r, r ∉ label.references
  ordinary : label.belongsToInterrupt = false

theorem interruptEntries_note (session : Session) (text : String) :
    (session.note text).interruptEntries = session.interruptEntries := rfl

theorem mem_interruptEntries {session : Session} {a : Address}
    (h : a ∈ session.interruptEntries) :
    session.memory.isFirst a ∧ session.memory.isAssigned a ∧ session.labels.at? a = none := by
  have hfound : ∀ b ∈ (Address.all.foldl session.scanEntry {}).found,
      session.memory.isFirst b ∧ session.memory.isAssigned b ∧ session.labels.at? b = none := by
    refine List.foldlRecOn (motive := fun scan => ∀ b ∈ scan.found,
      session.memory.isFirst b ∧ session.memory.isAssigned b ∧ session.labels.at? b = none)
      Address.all session.scanEntry ?_ ?_
    · intro b hb
      cases hb
    intro scan hscan address _ b hb
    rw [scanEntry] at hb
    dsimp only at hb
    split at hb
    · next hentry =>
      rcases List.mem_cons.mp hb with rfl | hb
      · simp only [isInterruptEntry, Bool.and_eq_true, Bool.not_eq_true', LabelStore.hasLabel,
          Option.isSome_eq_false_iff, Option.isNone_iff_eq_none] at hentry
        exact ⟨hentry.1.1.1.2, hentry.1.1.2, hentry.1.2⟩
      · exact hscan b hb
    · exact hscan b hb
  exact hfound a (List.mem_reverse.mp h)

section Automatic

variable {start session : Session} {interrupts : List Address} {a : Address} {name : String}

theorem automatic_fixedLabel (h : start.Supplied (Automatic start.ground interrupts) session)
    (hnone : start.labels.at? a = none) (hname : AutomaticName start.ground interrupts a name)
    (hfirst : start.memory.isFirst a) :
    Automatic start.ground interrupts a (session.fixedLabel a (some name)) := by
  unfold fixedLabel
  cases hat : session.labels.at? a with
  | some label =>
      have hfits := h.fits a label hnone hat
      rw [labelOr_of_some hat]
      exact ⟨⟨name, rfl, hname⟩, hfits.kind, fun _ => .inl hfirst, hfits.unreferenced,
        hfits.ordinary⟩
  | none =>
      rw [labelOr_of_none hat]
      exact ⟨⟨name, rfl, hname⟩, .inl rfl, fun _ => .inl hfirst,
        fun r => Std.TreeSet.not_mem_emptyc, rfl⟩

theorem automatic_namedLabel (h : start.Supplied (Automatic start.ground interrupts) session)
    (hnone : start.labels.at? a = none) (hname : AutomaticName start.ground interrupts a name)
    {kind : Kind} (hkind : kind = .label ∨ kind = .data)
    (hentry : kind = .label → start.memory.isFirst a ∨
      (start.config.automaticAddresses ∧ start.snapshotStart = some a)) :
    Automatic start.ground interrupts a (session.namedLabel a (some name) kind) := by
  unfold namedLabel
  cases hat : session.labels.at? a with
  | some label =>
      have hfits := h.fits a label hnone hat
      dsimp only
      split
      · exact ⟨⟨name, rfl, hname⟩, hfits.kind, hfits.entry, hfits.unreferenced, hfits.ordinary⟩
      · exact hfits
  | none => exact ⟨⟨name, rfl, hname⟩, hkind, hentry, fun r => Std.TreeSet.not_mem_emptyc, rfl⟩

end Automatic

-- Interrupts are numbered as they come.
theorem supplied_fixEntries (session : Session) (h : session.labels.WellFormed)
    (entries : List Address)
    (hentries : ∀ a ∈ entries, session.memory.isFirst a ∧ session.memory.isAssigned a ∧
      session.labels.at? a = none) :
    session.Supplied (Automatic session.ground entries)
      (entries.zipIdx.foldl
        (fun session' (address, index) => session'.fixLabel address
          (some (if entries.length > 1 then
            session.config.stems.interrupt ++ Text.decimal (index + 1)
          else session.config.stems.interrupt))) session) := by
  have hentry : ∀ entry ∈ entries.zipIdx, entries[entry.2]? = some entry.1 :=
    fun _ => List.mem_zipIdx_iff_getElem?.mp
  refine (Supplied.refl h).foldl (fun entry : Address × Nat => entry.1) _ _ ?_ ?_
  · intro entry hmem
    exact (hentries entry.1 (List.mem_of_getElem? (hentry entry hmem))).2.2
  · intro current hcurrent entry hmem
    obtain ⟨hfirst, hassigned, hnone⟩ :=
      hentries entry.1 (List.mem_of_getElem? (hentry entry hmem))
    exact ⟨_, current.placed_fixLabel hcurrent.wellFormed entry.1 _, automatic_fixedLabel hcurrent
      hnone (.interrupt entry.2 entry.1 (hentry entry hmem) hassigned) hfirst⟩

theorem supplied_labelInterrupts (session : Session) (h : session.labels.WellFormed) :
    session.Supplied (Automatic session.ground session.interruptEntries) session.labelInterrupts := by
  rw [labelInterrupts]
  exact (session.supplied_fixEntries h session.interruptEntries
    fun _ => mem_interruptEntries).note _

theorem supplied_nameAreas (session : Session) (h : session.labels.WellFormed)
    (interrupts : List Address) :
    session.Supplied (Automatic session.ground interrupts)
      ((session.areaStarts.filter fun a => !session.labels.hasLabel a).foldl
        (fun session a => session.setLabel a (some ("BIN_START_" ++ Text.hex4 a)) .data) session) := by
  have hfree : ∀ a ∈ session.areaStarts.filter fun a => !session.labels.hasLabel a,
      session.labels.at? a = none := by
    intro a ha
    simpa [LabelStore.hasLabel] using (List.mem_filter.mp ha).2
  refine (Supplied.refl h).foldl id _ _ hfree ?_
  intro current hcurrent a ha
  have hassigned := ((session.mem_areaStarts a).mp (List.mem_filter.mp ha).1).1
  exact ⟨_, current.placed_setLabel hcurrent.wellFormed a _ .data,
    automatic_namedLabel hcurrent (hfree a ha) (.area a hassigned) (.inr rfl) fun h => by cases h⟩

theorem supplied_labelStarts (session : Session) (h : session.labels.WellFormed)
    (interrupts : List Address) :
    session.Supplied (Automatic session.ground interrupts) session.labelStarts := by
  have hareas : ∀ marked : Session, session.Supplied (Automatic session.ground interrupts) marked →
      session.Supplied (Automatic session.ground interrupts)
        ((marked.areaStarts.filter fun a => !marked.labels.hasLabel a).foldl
          (fun session a => session.setLabel a (some ("BIN_START_" ++ Text.hex4 a)) .data)
          marked) := by
    intro marked hmarked
    have hnamed := marked.supplied_nameAreas hmarked.wellFormed interrupts
    rw [hmarked.ground] at hnamed
    exact hmarked.trans hnamed
  unfold labelStarts
  dsimp only
  split
  · next start hstart =>
    split
    · next hlabel =>
      simp only [Bool.and_eq_true, Bool.not_eq_true', LabelStore.hasLabel,
        Option.isSome_eq_false_iff, Option.isNone_iff_eq_none] at hlabel
      obtain ⟨hautomatic, hnone⟩ := hlabel
      exact hareas _ ((Supplied.refl h).placed (session.placed_setLabel h start _ .label) hnone
        (automatic_namedLabel (Supplied.refl h) hnone (.snapshot start hstart) (.inl rfl)
          fun _ => .inr ⟨hautomatic, hstart⟩))
    · exact hareas session (.refl h)
  · exact hareas session (.refl h)

-- What an analysis needs to know of a session whatever its labels are: they are in order, nothing is
-- classified yet, and the decoder reads regular instructions off the bytes.
structure Analysable (session : Session) : Prop where
  wellFormed : session.labels.WellFormed
  unclassified : session.memory.Unclassified
  readsBytes : session.decoder.ReadsBytes
  regular : session.decoder.Regular

theorem Ready.analysable {session : Session} (h : session.Ready) : session.Analysable :=
  ⟨h.labelled.wellFormed, h.unclassified, h.readsBytes, h.regular⟩

namespace Analysable

variable {session : Session}

theorem enqueueStart (h : session.Analysable) : session.enqueueStart.Analysable := by
  obtain ⟨hground, hwf⟩ := session.ground_enqueueStart h.wellFormed
  refine ⟨hwf, ?_, ?_, ?_⟩
  · rw [memory_of_ground hground]
    exact h.unclassified
  · rw [decoder_of_ground hground]
    exact h.readsBytes
  · rw [decoder_of_ground hground]
    exact h.regular

theorem crossReferenced_found (h : session.Analysable) :
    session.enqueueStart.CrossReferenced session.found :=
  session.enqueueStart.crossReferenced_collect h.enqueueStart.readsBytes h.enqueueStart.unclassified
    h.enqueueStart.wellFormed session.enqueueStart.queue

theorem explains_found (h : session.Analysable) {a : Address} {label : Label}
    (hat : session.found.labels.at? a = some label) :
    session.enqueueStart.Explains (session.enqueueStart.sources session.found a) a label := by
  have haccounted := h.crossReferenced_found.accounted a
  rw [hat] at haccounted
  cases haccounted with
  | labelled _ hexplains => exact hexplains

theorem ground_found (h : session.Analysable) :
    session.found.ground = { session.ground with memory := session.found.memory } := by
  rw [found, ground_collect, (session.ground_enqueueStart h.wellFormed).1]

theorem decoder_found (h : session.Analysable) : session.found.decoder = session.decoder :=
  congrArg Ground.decoder h.ground_found

theorem config_found (h : session.Analysable) : session.found.config = session.config :=
  congrArg Ground.config h.ground_found

theorem tiled_found (h : session.Analysable) : session.found.Tiled :=
  Search.Run.tiled (Search.run_collect _) h.enqueueStart.readsBytes
    (tiled_of_unclassified _ h.enqueueStart.unclassified)

theorem supplied_entered (h : session.Analysable) :
    session.found.Supplied (Automatic session.found.ground session.found.interruptEntries)
      session.entered := by
  have hinterrupts := session.found.noteLabels.supplied_labelInterrupts
    h.crossReferenced_found.wellFormed
  have hstarts := session.found.noteLabels.labelInterrupts.supplied_labelStarts
    hinterrupts.wellFormed session.found.noteLabels.interruptEntries
  rw [hinterrupts.ground] at hstarts
  have hboth := hinterrupts.trans hstarts
  rw [noteLabels, interruptEntries_note] at hboth
  exact ⟨hboth.ground, hboth.wellFormed, hboth.kept, hboth.fits⟩

theorem ground_entered (h : session.Analysable) : session.entered.ground = session.found.ground :=
  h.supplied_entered.ground

theorem tiled_entered (h : session.Analysable) : session.entered.Tiled :=
  h.tiled_found.congr (memory_of_ground h.ground_entered) (decoder_of_ground h.ground_entered)

theorem merging_located (h : session.Analysable) : session.entered.Merging session.located [] :=
  session.entered.merging_relocate h.supplied_entered.wellFormed

theorem departs_iff (h : session.Analysable) {label : Label} {home : Address} :
    session.entered.Departs label home ↔ session.entered.Moves label ∧
      session.entered.memory.isFirst home ∧ label.address ∈ session.entered.extent home := by
  refine h.tiled_entered.departs_iff ?_
  rw [decoder_of_ground h.ground_entered, h.decoder_found]
  exact h.regular

theorem ground_located (h : session.Analysable) : session.located.ground = session.found.ground :=
  h.merging_located.ground.trans h.ground_entered

-- A label that was there before the search is there after it, as it was but for kind and references.
theorem at?_found_of_some (h : session.Analysable) {a : Address} {label : Label}
    (hat : session.labels.at? a = some label) :
    ∃ new, session.found.labels.at? a = some new ∧ new.rest = label.rest := by
  obtain ⟨old, hold, hrest⟩ := at?_enqueueStart_of_some h.wellFormed hat
  obtain ⟨new, hnew⟩ : ∃ new, session.found.labels.at? a = some new := by
    rw [← Option.isSome_iff_exists, (h.crossReferenced_found.accounted a).isSome_iff, hold]
    exact .inl rfl
  exact ⟨new, hnew, ((h.explains_found hnew).kept old hold).trans hrest⟩

theorem at?_located_of_some (h : session.Analysable) {a : Address} {label : Label}
    (hat : session.entered.labels.at? a = some label) (hstays : ¬session.entered.Moves label) :
    ∃ new, session.located.labels.at? a = some new ∧ new.rest = label.rest := by
  have hgains := h.merging_located.gains a (by
    rintro other home hdeparts rfl
    have hother := hdeparts.moves.at?
    rw [hat] at hother
    cases hother
    exact hstays hdeparts.moves)
  obtain ⟨new, hnew⟩ : ∃ new, session.located.labels.at? a = some new := by
    rw [← Option.isSome_iff_exists, hgains.isSome_iff, hat]
    exact .inl rfl
  rw [hnew] at hgains
  cases hgains with
  | labelled _ hmerged => exact ⟨new, hnew, hmerged.kept label hat⟩

-- Where a label in its final place comes from.
theorem merged_located (h : session.Analysable) {a : Address} {label : Label}
    (hat : session.located.labels.at? a = some label) :
    session.entered.Merged (session.entered.arrived [] a) a label := by
  have hgains := h.merging_located.gains a (by
    rintro other home hdeparts rfl
    rw [h.merging_located.left other home hdeparts List.not_mem_nil] at hat
    cases hat)
  rw [hat] at hgains
  cases hgains with
  | labelled _ hmerged => exact hmerged

-- What holds of the labels at the start, of those that stand for places and of new ones, holds of all
-- labels in their final places, if meetings do not change it.
theorem forall_located (h : session.Analysable) (fits : Address → Label → Prop)
    (hrest : ∀ a (old new : Label), new.rest = old.rest → fits a old → fits a new)
    (hfresh : ∀ a id isEqu, fits a { id, address := a, kind := .none, isEqu })
    (hstart : ∀ a label, session.enqueueStart.labels.at? a = some label → fits a label)
    (hsupplied : ∀ a label, session.found.labels.at? a = none →
      session.entered.labels.at? a = some label → fits a label) {a : Address} {label : Label}
    (hat : session.located.labels.at? a = some label) : fits a label := by
  have hcreated : ∀ a (label : Label) isEqu, label.rest =
      { id := label.id, address := a, kind := .none, isEqu } → fits a label := fun a label isEqu heq =>
    hrest a { id := label.id, address := a, kind := .none, isEqu } label heq (hfresh a _ _)
  have hfound : ∀ a label, session.found.labels.at? a = some label → fits a label := by
    intro a label hat
    have hexplains := h.explains_found hat
    cases hold : session.enqueueStart.labels.at? a with
    | some old => exact hrest a old label (hexplains.kept old hold) (hstart a old hold)
    | none => exact hcreated a label _ (hexplains.created hold)
  have hmerged := h.merged_located hat
  cases hold : session.entered.labels.at? a with
  | none => exact hcreated a label _ (hmerged.created hold)
  | some old =>
      refine hrest a old label (hmerged.kept old hold) ?_
      cases hbefore : session.found.labels.at? a with
      | none => exact hsupplied a old hbefore hold
      | some older =>
          rw [h.supplied_entered.kept a older hbefore] at hold
          cases hold
          exact hfound a old hbefore

end Analysable

structure PlaceNamed (given : Address → String → Prop) (ground : Ground) (interrupts : List Address)
    (a : Address) (label : Label) : Prop where
  ordinary : label.belongsToInterrupt = false
  named : ∀ name, label.name = some name → given a name ∨ AutomaticName ground interrupts a name

theorem PlaceNamed.of_rest {given : Address → String → Prop} {ground : Ground}
    {interrupts : List Address} {a : Address} {old new : Label}
    (h : PlaceNamed given ground interrupts a old) (hrest : new.rest = old.rest) :
    PlaceNamed given ground interrupts a new := by
  have hname : new.rest.name = old.rest.name := congrArg Label.name hrest
  have hmark : new.rest.belongsToInterrupt = old.rest.belongsToInterrupt :=
    congrArg Label.belongsToInterrupt hrest
  refine ⟨hmark.trans h.ordinary, fun name hsome => h.named name ?_⟩
  exact hname.symm.trans hsome

def NamedAs (given : Address → String → Prop) (session : Session) : Prop :=
  ∀ a label, session.labels.at? a = some label →
    label.belongsToInterrupt = false ∧ ∀ name, label.name = some name → given a name

section Given

variable {session : Session} (fits : Address → Label → Prop)

theorem forall_fixLabel (hwf : session.labels.WellFormed)
    (h : ∀ a label, session.labels.at? a = some label → fits a label) {t : Address}
    {name : Option String} (hnew : fits t (session.fixedLabel t name)) (a : Address) (label : Label)
    (hat : (session.fixLabel t name).labels.at? a = some label) : fits a label := by
  have hplaced := session.placed_fixLabel hwf t name
  by_cases ha : t = a
  · subst ha
    rw [hplaced.at?_self] at hat
    cases hat
    exact hnew
  · rw [hplaced.at?_of_ne ha] at hat
    exact h a label hat

theorem forall_fixTable (hwf : session.labels.WellFormed)
    (h : ∀ a label, session.labels.at? a = some label → fits a label)
    (hnew : ∀ (current : Session) (t : Address),
      (∀ label, current.labels.at? t = some label → fits t label) →
      fits t (current.fixedLabel t none)) (t : Address) (count : Nat) (a : Address) (label : Label)
    (hat : (session.fixTable t count).labels.at? a = some label) : fits a label := by
  induction count generalizing session t with
  | zero => exact h a label hat
  | succ count ih =>
      have hplaced := session.placed_fixLabel hwf (session.memory.word t) none
      exact ih hplaced.wellFormed (forall_fixLabel fits hwf h (hnew session _ (h _))) (t + 2) hat

-- What holds of a fixed label if it held of the one before it, holds of all labels that seeds make.
theorem forall_prepared (session : Session) (hlabels : session.labels = .empty)
    (blocks : List (Address × List UInt8)) (seeds : List Seed)
    (hnew : ∀ (current : Session) (t : Address) (name : Option String),
      (∀ text, name = some text → Seed.fixed t (some text) ∈ seeds) →
      (∀ label, current.labels.at? t = some label → fits t label) →
      fits t (current.fixedLabel t name)) (a : Address) (label : Label)
    (hat : (session.prepared blocks seeds).labels.at? a = some label) : fits a label := by
  have hempty : (session.loadAll blocks).labels = .empty := by
    rw [loadAll_eq, hlabels]
  have hrun : (session.prepared blocks seeds).Labelled ∧ ∀ a label,
      (session.prepared blocks seeds).labels.at? a = some label → fits a label := by
    refine List.foldlRecOn (motive := fun current : Session => current.Labelled ∧
      ∀ a label, current.labels.at? a = some label → fits a label) seeds plant ?_ ?_
    · refine ⟨labelled_of_empty hempty, fun a label hat => ?_⟩
      rw [hempty] at hat
      cases hat
    · rintro current ⟨hlabelled, h⟩ seed hseed
      refine ⟨(hlabelled.enriched_plant seed).labelled, ?_⟩
      cases seed with
      | fixed t name =>
          refine forall_fixLabel fits hlabelled.wellFormed h (hnew current t name ?_ (h t))
          rintro text rfl
          exact hseed
      | waiting t => exact h
      | table t count =>
          refine forall_fixTable fits hlabelled.wellFormed h ?_ t count
          intro current t hold
          exact hnew current t none (fun text hnone => by cases hnone) hold
  exact hrun.2 a label hat

-- Seeds give the names that they hold, and no others.
theorem namedAs_prepared (session : Session) (hlabels : session.labels = .empty)
    (blocks : List (Address × List UInt8)) (seeds : List Seed) :
    (session.prepared blocks seeds).NamedAs fun a name => .fixed a (some name) ∈ seeds := by
  refine forall_prepared _ session hlabels blocks seeds ?_
  intro current t name hname hbefore
  cases hold : current.labels.at? t with
  | none =>
      rw [fixedLabel, labelOr_of_none hold]
      refine ⟨rfl, fun text htext => hname text ?_⟩
      simpa using htext
  | some old =>
      rw [fixedLabel, labelOr_of_some hold]
      refine ⟨(hbefore old hold).1, fun text htext => ?_⟩
      rcases Option.or_eq_some_iff.mp htext with hnew | ⟨-, holdname⟩
      · exact hname text hnew
      · exact (hbefore old hold).2 text holdname

theorem namedAs_unnamed (session : Session) (hlabels : session.labels = .empty)
    (blocks : List (Address × List UInt8)) (seeds : List Seed) :
    (session.prepared blocks (seeds.map Seed.unnamed)).NamedAs fun _ _ => False := by
  intro a label hat
  obtain ⟨hordinary, hnamed⟩ := session.namedAs_prepared hlabels blocks (seeds.map Seed.unnamed) a
    label hat
  refine ⟨hordinary, fun name hname => ?_⟩
  obtain ⟨seed, -, heq⟩ := List.mem_map.mp (hnamed name hname)
  cases seed <;> cases heq

-- Seeds make jump labels.
theorem kind_prepared (session : Session) (hlabels : session.labels = .empty)
    (blocks : List (Address × List UInt8)) (seeds : List Seed) {a : Address} {label : Label}
    (hat : (session.prepared blocks seeds).labels.at? a = some label) : label.kind = .label := by
  refine forall_prepared (fun _ label => label.kind = .label) session hlabels blocks seeds ?_ a label
    hat
  intro current t name _ hbefore
  cases hold : current.labels.at? t with
  | none => rw [fixedLabel, labelOr_of_none hold]
  | some old =>
      rw [fixedLabel, labelOr_of_some hold]
      exact hbefore old hold

end Given

theorem Analysable.placeNamed_located {session : Session} (h : session.Analysable)
    {given : Address → String → Prop} (hgiven : session.NamedAs given) {a : Address} {label : Label}
    (hat : session.located.labels.at? a = some label) :
    PlaceNamed given session.found.ground session.found.interruptEntries a label := by
  have hbefore : ∀ a label, session.labels.at? a = some label →
      PlaceNamed given session.found.ground session.found.interruptEntries a label := by
    intro a label hat
    obtain ⟨hordinary, hnamed⟩ := hgiven a label hat
    exact ⟨hordinary, fun name hname => .inl (hnamed name hname)⟩
  refine h.forall_located (PlaceNamed given session.found.ground session.found.interruptEntries)
    ?_ ?_ ?_ ?_ hat
  · exact fun a old new hrest hold => hold.of_rest hrest
  · exact fun a id isEqu => ⟨rfl, fun name hname => by cases hname⟩
  · refine forall_enqueueStart _ h.wellFormed hbefore ?_ ?_
    · exact fun label hlabel => ⟨hlabel.ordinary, hlabel.named⟩
    · intro hfree hloaded
      rw [fixedLabel, labelOr_of_none hfree]
      refine ⟨rfl, fun name hsome => ?_⟩
      cases hsome
      refine .inr (.origin ?_)
      change session.found.memory.isAssigned 0
      rw [h.crossReferenced_found.same.isAssigned_eq,
        memory_of_ground (session.ground_enqueueStart h.wellFormed).1]
      exact hloaded
  · intro a label hfree hat
    have hfits := h.supplied_entered.fits a label hfree hat
    obtain ⟨name, hname, hautomatic⟩ := hfits.named
    refine ⟨hfits.ordinary, fun other hother => ?_⟩
    rw [hname] at hother
    cases hother
    exact .inr hautomatic

end Session

end Z80Atlas
