import Z80Atlas.Proofs.Analysis.Classification

namespace Z80Atlas

namespace Session

section Owners

variable {session : Session}

-- Only branches make local labels.
theorem target?_of_isLocal_role {a t : Address} (hdesignates : session.Designates a t)
    (hlocal : (session.role a t).isLocal) : (session.instructionAt a).target? = some t := by
  cases htarget : (session.instructionAt a).target? with
  | none =>
      rw [role, Instruction.role, if_pos htarget] at hlocal
      cases hlocal
  | some target =>
      rw [Designates, Instruction.designated?, htarget] at hdesignates
      exact hdesignates

-- A label that was local from the start is the target of a branch that was found, or stands where an
-- instruction begins.
theorem Ready.first_or_target_of_isLocal (h : session.Ready)
    (hseeded : session.enqueueStart.Seeded) {a : Address} {label : Label}
    (hat : session.located.labels.at? a = some label) (hlocal : label.kind.isLocal) :
    session.found.memory.isFirst a ∨ ∃ b, session.found.memory.isFirst b ∧
      (session.enqueueStart.instructionAt b).target? = some a := by
  have hready := h.analysable
  have hsupplied := hready.supplied_entered
  rcases (hready.merged_located hat).kind_mem with ⟨old, hold, hkind⟩ | ⟨m, hm, -⟩
  · rw [hkind] at hlocal
    cases hfound : session.found.labels.at? a with
    | none =>
        rcases (hsupplied.fits a old hfound hold).kind with hlabel | hdata
        · rw [hlabel] at hlocal
          cases hlocal
        · rw [hdata] at hlocal
          cases hlocal
    | some found =>
        rw [hsupplied.kept a found hfound] at hold
        cases hold
        rcases (hready.explains_found hfound).kind_mem with ⟨seed, hseed, hsame⟩ | ⟨b, hb, hrole⟩
        · rw [hsame, (hseeded.fixed a seed hseed).2] at hlocal
          cases hlocal
        · rw [hrole] at hlocal
          exact .inr ⟨b, hb.1, target?_of_isLocal_role hb.2 hlocal⟩
  · have hfirst := hm.1.isFirst
    rw [memory_of_ground hready.ground_entered] at hfirst
    exact .inl hfirst

-- A top-level label in loaded memory may become local to a routine, but is still led to.
theorem Analysable.led_told (h : session.Analysable) {a : Address} {label : Label}
    (hat : session.located.labels.at? a = some label) (htop : label.kind.isTopLevel)
    (hassigned : session.told.memory.isAssigned a) : session.told.Led a := by
  have hlinked := session.located.referred_linkFlowThroughs
  have hpromoted := session.located.linkFlowThroughs.promoted_promoteSubroutines
  obtain ⟨linked, hlinkedat, all, rfl⟩ := hlinked.labels.exists_at? hat
  obtain ⟨new, hnew, kind, rfl, hkind⟩ := hpromoted.labels.exists_at? hlinkedat
  have hnewtop : kind.isTopLevel := by
    rcases hkind with rfl | ⟨-, rfl⟩
    · exact htop
    · rfl
  have hwf : session.located.linkFlowThroughs.promoteSubroutines.labels.WellFormed := by
    refine hpromoted.labels.wellFormed ?_ (hlinked.labels.wellFormed ?_ h.wellFormed_located)
    · rintro l m ⟨kind, rfl, -⟩
      exact ⟨rfl, rfl⟩
    · rintro l m ⟨references, rfl⟩
      exact ⟨rfl, rfl⟩
  refine led_localize hwf (.head a ⟨_, hnew, hnewtop⟩ ?_)
  rw [← memory_of_ground (rekinded_localize _).ground]
  exact hassigned

-- A local label in loaded memory is governed by a top-level label.
theorem Ready.exists_governs_of_isLocal (h : session.Ready) (hseeded : session.enqueueStart.Seeded)
    {a : Address} {label : Label} (hat : session.told.labels.at? a = some label)
    (hlocal : label.kind.isLocal) (hassigned : session.told.memory.isAssigned a) :
    ∃ owner ∈ session.told.labels.live, owner.kind.isTopLevel ∧ session.told.Governs owner a := by
  have hready := h.analysable
  have hwf := hready.wellFormed_told
  obtain ⟨old, hold, kind, references, rfl, hsettles, -⟩ :=
    settled_told hready.wellFormed_located hat
  rcases hsettles with hsame | ⟨hjump, -⟩
  · rw [hsame] at hlocal
    rcases h.first_or_target_of_isLocal hseeded hold hlocal with hfirst | ⟨b, hb, htarget⟩
    · exact h.exists_governs hseeded hfirst
    · by_cases hhead : session.told.Headed a
      · exact (Led.head a hhead hassigned).exists_governs hwf
      · obtain ⟨owner, hlive, htop, hgoverns⟩ := h.exists_governs hseeded hb
        have hflows : session.told.Flows b a := by
          rw [Flows, instructionAt_of_ground hready.ground_told,
            hready.crossReferenced_found.same.instructionAt_eq hready.enqueueStart.readsBytes]
          exact .inr htarget
        exact ⟨owner, hlive, htop, .flow b a hgoverns hflows hassigned (.inr hhead)⟩
  · have htop : old.kind.isTopLevel := by
      rcases hjump with hkind | hkind
      · rw [hkind]
        rfl
      · rw [hkind]
        rfl
    exact (hready.led_told hold htop hassigned).exists_governs hwf

theorem Governs.isAssigned {label : Label} {a : Address} (h : session.Governs label a) :
    session.memory.isAssigned a := by
  cases h with
  | own hassigned => exact hassigned
  | flow _ _ _ _ hassigned _ => exact hassigned

-- Local labels have owners exactly in loaded memory.
theorem Ready.owner_eq_none_iff (h : session.Ready) (hseeded : session.enqueueStart.Seeded)
    (hunowned : ∀ a, session.owners.get a = none) {a : Address} {label : Label}
    (hat : session.classify.labels.at? a = some label) (hlocal : label.kind.isLocal) :
    session.classify.owners.get a = none ↔ ¬session.found.memory.isAssigned a := by
  have hready := h.analysable
  have hdivided := hready.divided_classify hunowned
  rw [← memory_of_ground hready.ground_told]
  constructor
  · intro hnone hassigned
    obtain ⟨told, htold, -, hkind⟩ := session.kept_classify.exists_before hat
    rw [hkind] at hlocal
    obtain ⟨owner, hlive, htop, hgoverns⟩ :=
      h.exists_governs_of_isLocal hseeded htold hlocal hassigned
    exact hdivided.unowned a hnone owner hlive htop hgoverns
  · intro hfree
    cases hget : session.classify.owners.get a with
    | none => rfl
    | some id =>
        obtain ⟨owner, -, -, -, hgoverns, -⟩ := hdivided.owned a id hget
        exact absurd hgoverns.isAssigned hfree

end Owners

section Names

theorem isRelocatable_of_settles {old new : Kind} (h : old.Settles new) (hold : isRelocatable old) :
    isRelocatable new := by
  rcases h with rfl | ⟨-, rfl | hlocal⟩
  · exact hold
  · rfl
  · revert hlocal
    cases new <;> decide

theorem coinedName?_eq_none_iff (session : Session) {label : Label}
    (h : isRelocatable label.kind) :
    session.coinedName? label = none ↔
      label.kind.isLocal ∧ session.owners.get label.address = none := by
  unfold coinedName?
  cases hkind : label.kind <;> simp [hkind, isRelocatable, Kind.isCode] at h <;>
    simp [Kind.isLocal, ownName?, nameCategory?, restartName?, hkind]

theorem append_ne_empty {text : String} (h : text ≠ "") (rest : String) : text ++ rest ≠ "" := by
  intro heq
  have hlist := congrArg String.toList heq
  rw [String.toList_append, String.toList_empty, List.append_eq_nil_iff] at hlist
  exact h (String.toList_eq_nil_iff.mp hlist.1)

-- With the usual stems no name is empty.
theorem ne_empty_of_coinedName? {session : Session} (hstems : session.config.stems = {})
    {label : Label} {name : String} (h : session.coinedName? label = some name) : name ≠ "" := by
  unfold coinedName? at h
  split at h
  · obtain ⟨id, -, rfl⟩ := Option.map_eq_some_iff.mp h
    rw [localName]
    exact append_ne_empty (append_ne_empty (append_ne_empty (by decide) _) _) _
  unfold ownName? at h
  split at h
  · next category _ =>
    cases h
    rw [numberedName, hstems]
    split
    · decide
    · refine append_ne_empty ?_ _
      cases category <;> simp [stem, hstems]
  · unfold restartName? at h
    split at h
    · cases h
      rw [hstems]
      exact append_ne_empty (by decide) _
    · cases h

theorem AutomaticName.ne_empty {ground : Ground} (hstems : ground.config.stems = {})
    {interrupts : List Address} {a : Address} {name : String}
    (h : AutomaticName ground interrupts a name) : name ≠ "" := by
  cases h with
  | origin => decide
  | interrupt index a _ _ =>
      rw [hstems]
      split
      · exact append_ne_empty (by decide) _
      · decide
  | snapshot a _ => exact append_ne_empty (by decide) _
  | area a _ => exact append_ne_empty (by decide) _

theorem AutomaticName.isAssigned {ground : Ground} (hstart : ground.snapshotStart = none)
    {interrupts : List Address} {a : Address} {name : String}
    (h : AutomaticName ground interrupts a name) : ground.memory.isAssigned a := by
  cases h with
  | origin hassigned => exact hassigned
  | interrupt _ _ _ hassigned => exact hassigned
  | snapshot a hsnapshot =>
      rw [hstart] at hsnapshot
      cases hsnapshot
  | area _ hassigned => exact hassigned

variable {session : Session}

-- Outside the loaded memory a local label has no name before it is given one: places with names are
-- loaded, and a fixed label does not become local.
theorem Ready.name_eq_none_of_isLocal (h : session.Ready) (hseeded : session.enqueueStart.Seeded)
    (hsnapshot : session.snapshotStart = none) {a : Address} {old new : Label}
    (hat : session.located.labels.at? a = some old) (hnew : session.told.labels.at? a = some new)
    (hlocal : new.kind.isLocal) (hfree : ¬session.found.memory.isAssigned a) : old.name = none := by
  have hready := h.analysable
  have hnone : session.enqueueStart.labels.at? a = none := by
    rw [Option.eq_none_iff_forall_ne_some]
    intro seed hseed
    have hout : ¬session.found.Inside a := fun hin =>
      hfree (h.tiled_found.assigned_of_code a hin.1)
    obtain ⟨label, hlabel, htop⟩ := h.headed_told hseeded hseed hout
    rw [hnew] at hlabel
    cases hlabel
    cases hkind : new.kind <;> simp [hkind, Kind.isLocal, Kind.isTopLevel] at hlocal htop
  have hstart : session.found.ground.snapshotStart = none := by
    rw [hready.ground_found]
    exact hsnapshot
  have hsupplied := hready.supplied_entered
  refine hready.forall_located (fun b label => b = a → label.name = none) ?_ ?_ ?_ ?_ hat rfl
  · intro b l m hrest hl hb
    have hname : m.rest.name = l.rest.name := congrArg Label.name hrest
    exact hname.trans (hl hb)
  · intro b id isEqu hb
    rfl
  · rintro b label hseed rfl
    rw [hnone] at hseed
    cases hseed
  · rintro b label hfound hentered rfl
    obtain ⟨name, -, hautomatic⟩ := (hsupplied.fits b label hfound hentered).named
    exact absurd (hautomatic.isAssigned hstart) hfree

theorem Ready.name_analyse_eq_none_iff (h : session.Ready) (hseeded : session.enqueueStart.Seeded)
    (hunowned : ∀ a, session.owners.get a = none) (hnameOf : session.nameOf = none)
    (hsnapshot : session.snapshotStart = none) {a : Address} {label : Label}
    (hat : session.analyse.labels.at? a = some label) :
    label.name = none ↔ label.kind.isLocal ∧ ¬session.analyse.memory.isAssigned a := by
  have hready := h.analysable
  obtain ⟨old, new, hold, hnew, hclassified, rfl⟩ := hready.exists_located hunowned hnameOf hat
  obtain ⟨told, htold, -, hkind⟩ := session.kept_classify.exists_before hnew
  have haddress := hready.wellFormed_classify.address_eq hnew
  have hmoves : isRelocatable new.kind :=
    isRelocatable_of_settles hclassified.settles (h.gathered_located.labelled.relocatable a old hold)
  have hcoined := session.classify.coinedName?_eq_none_iff hmoves
  rw [haddress] at hcoined
  change new.name.or (session.classify.coinedName? new) = none ↔ new.kind.isLocal ∧ _
  rw [Option.or_eq_none_iff, hcoined, hclassified.name, h.kept_located.1]
  constructor
  · rintro ⟨-, hlocal, hfree⟩
    exact ⟨hlocal, (h.owner_eq_none_iff hseeded hunowned hnew hlocal).mp hfree⟩
  · rintro ⟨hlocal, hfree⟩
    have hname := h.name_eq_none_of_isLocal hseeded hsnapshot hold htold (hkind ▸ hlocal) hfree
    exact ⟨hname, hlocal, (h.owner_eq_none_iff hseeded hunowned hnew hlocal).mpr hfree⟩

theorem Analysable.given_of_empty_name (h : session.Analysable)
    (hunowned : ∀ a, session.owners.get a = none) (hnameOf : session.nameOf = none)
    (hstems : session.config.stems = {}) {given : Address → String → Prop}
    (hgiven : session.NamedAs given) {a : Address} {label : Label}
    (hat : session.analyse.labels.at? a = some label) (hname : label.name = some "") :
    given a "" := by
  obtain ⟨old, new, hold, -, hclassified, rfl⟩ := h.exists_located hunowned hnameOf hat
  rcases Option.or_eq_some_iff.mp hname with hbefore | ⟨-, hcoined⟩
  · rw [hclassified.name] at hbefore
    rcases (h.placeNamed_located hgiven hold).named "" hbefore with hgiven | hautomatic
    · exact hgiven
    · have hfound : session.found.ground.config.stems = {} := by
        change session.found.config.stems = {}
        rw [h.config_found, hstems]
      exact absurd rfl (hautomatic.ne_empty hfound)
  · have hclassify : session.classify.config.stems = {} := by
      rw [h.distributed_classify.config, h.config_found, hstems]
    exact absurd rfl (ne_empty_of_coinedName? hclassify hcoined)

end Names

-- Which labels get a name: all but the local labels outside the loaded memory, which nobody owns. No
-- name is empty unless it was given so.
theorem disassemble_names_labels (config : Config) (blocks : List (Address × List UInt8))
    (entries : List (Address × Option String)) :
    let session := (({ config := { config with stems := {} } } : Session).prepared blocks
      (entries.map fun entry => .fixed entry.1 entry.2)).disassemble
    ∀ label ∈ session.labels.live,
      (label.name = none ↔ label.kind.isLocal ∧ ¬session.memory.isAssigned label.address) ∧
      (label.name = some "" → (label.address, some "") ∈ entries) := by
  intro session label hlive
  obtain ⟨hready, hseeded, hunowned⟩ := ready_fixed { config with stems := {} } blocks
    (entries.map fun entry => .fixed entry.1 entry.2) fun seed hseed => by
      obtain ⟨entry, -, rfl⟩ := List.mem_map.mp hseed
      exact ⟨_, _, rfl⟩
  have hground := ({ config := { config with stems := {} } } : Session).ground_prepared rfl blocks
    (entries.map fun entry => .fixed entry.1 entry.2)
  have hnamed := ({ config := { config with stems := {} } } : Session).namedAs_prepared rfl blocks
    (entries.map fun entry => .fixed entry.1 entry.2)
  have hlabels := labels_disassemble (({ config := { config with stems := {} } } : Session).prepared
    blocks (entries.map fun entry => .fixed entry.1 entry.2))
  have hmemory := memory_of_ground (ground_disassemble
    (({ config := { config with stems := {} } } : Session).prepared blocks
      (entries.map fun entry => .fixed entry.1 entry.2)))
  change session.labels = _ at hlabels
  change session.memory = _ at hmemory
  rw [hlabels, hready.wellFormed_analyse.mem_live] at hlive
  rw [hmemory]
  have hnameOf := congrArg Ground.nameOf hground
  have hsnapshot := congrArg Ground.snapshotStart hground
  have hstems := congrArg (fun ground : Ground => ground.config.stems) hground
  refine ⟨hready.name_analyse_eq_none_iff hseeded hunowned hnameOf hsnapshot hlive, fun hempty => ?_⟩
  have hgiven := hready.analysable.given_of_empty_name hunowned hnameOf hstems hnamed hlive hempty
  obtain ⟨⟨a, name⟩, hentry, heq⟩ := List.mem_map.mp hgiven
  obtain ⟨rfl, rfl⟩ := Seed.fixed.inj heq
  exact hentry

end Session

end Z80Atlas
