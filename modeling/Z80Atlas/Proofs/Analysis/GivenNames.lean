import Z80Atlas.Proofs.Analysis.Classification

namespace Z80Atlas

inductive NameRequest where
  | label (address : Address) (name : String) (kind : Kind)
  | fixed (address : Address) (name : String)
  | entry (address : Address) (name : String) (comment : Comment)

namespace NameRequest

def address : NameRequest → Address
  | label address _ _ => address
  | fixed address _ => address
  | entry address _ _ => address

def name : NameRequest → String
  | label _ name _ => name
  | fixed _ name => name
  | entry _ name _ => name

end NameRequest

namespace Session

def grant (session : Session) : NameRequest → Session
  | .label address name kind => session.setLabel address (some name) kind
  | .fixed address name => session.fixLabel address (some name)
  | .entry address name comment => session.useEntry { address, label := some name, comment }

section Grant

variable {session : Session}

def Nameable (session : Session) (a : Address) : Prop :=
  ∀ label, session.labels.at? a = some label → label.name = none ∧ label.belongsToInterrupt = false

theorem named_namedLabel {t : Address} (h : session.Nameable t) (name : String) (kind : Kind) :
    (session.namedLabel t (some name) kind).name = some name ∧
      (session.namedLabel t (some name) kind).belongsToInterrupt = false := by
  unfold namedLabel
  cases hat : session.labels.at? t with
  | none => exact ⟨rfl, rfl⟩
  | some label =>
      obtain ⟨hname, hordinary⟩ := h label hat
      simp [hname, hordinary]

theorem named_fixedLabel {t : Address} (h : session.Nameable t) (name : String) :
    (session.fixedLabel t (some name)).name = some name ∧
      (session.fixedLabel t (some name)).belongsToInterrupt = false := by
  unfold fixedLabel
  cases hat : session.labels.at? t with
  | none => rw [labelOr_of_none hat]; exact ⟨rfl, rfl⟩
  | some label => rw [labelOr_of_some hat]; exact ⟨rfl, (h label hat).2⟩

theorem placed_grant (hwf : session.labels.WellFormed) (request : NameRequest)
    (h : session.Nameable request.address) :
    ∃ new, session.Placed (session.grant request) request.address new ∧
      new.name = some request.name ∧ new.belongsToInterrupt = false := by
  cases request with
  | label a name kind =>
      exact ⟨_, session.placed_setLabel hwf a (some name) kind, named_namedLabel h name kind⟩
  | fixed a name => exact ⟨_, session.placed_fixLabel hwf a (some name), named_fixedLabel h name⟩
  | entry a name comment =>
      have hplaced := (session.setComment a comment).placed_setLabel hwf a (some name) .data
      exact ⟨_, ⟨hplaced.ground, hplaced.wellFormed, hplaced.at?_eq⟩, named_namedLabel h name .data⟩

structure Granted (session : Session) (requests : List NameRequest) (other : Session) : Prop where
  ground : other.ground = session.ground
  wellFormed : other.labels.WellFormed
  named : ∀ request ∈ requests, ∃ label, other.labels.at? request.address = some label ∧
    label.name = some request.name ∧ label.belongsToInterrupt = false
  unchanged : ∀ a, a ∉ requests.map (·.address) → other.labels.at? a = session.labels.at? a

-- Requests for different addresses do not touch each other.
theorem granted_foldl (hwf : session.labels.WellFormed) (requests : List NameRequest)
    (hdistinct : (requests.map (·.address)).Nodup)
    (h : ∀ request ∈ requests, session.Nameable request.address) :
    session.Granted requests (requests.foldl grant session) := by
  induction requests generalizing session with
  | nil => exact ⟨rfl, hwf, by simp, fun _ _ => rfl⟩
  | cons request rest ih =>
      obtain ⟨hfirst, hrest⟩ := List.nodup_cons.mp hdistinct
      obtain ⟨new, hplaced, hname, hordinary⟩ :=
        placed_grant hwf request (h request List.mem_cons_self)
      have hgranted := ih hplaced.wellFormed hrest fun other hother label hat => by
        have hne : request.address ≠ other.address := fun heq =>
          hfirst (List.mem_map.mpr ⟨other, hother, heq.symm⟩)
        rw [hplaced.at?_of_ne hne] at hat
        exact h other (List.mem_cons_of_mem _ hother) label hat
      refine ⟨hgranted.ground.trans hplaced.ground, hgranted.wellFormed, ?_, ?_⟩
      · intro other hother
        rcases List.mem_cons.mp hother with rfl | hother
        · refine ⟨new, ?_, hname, hordinary⟩
          rw [List.foldl_cons, hgranted.unchanged _ hfirst, hplaced.at?_self]
        · exact hgranted.named other hother
      · intro a ha
        simp only [List.map_cons, List.mem_cons, not_or] at ha
        rw [List.foldl_cons, hgranted.unchanged a ha.2, hplaced.at?_of_ne (Ne.symm ha.1)]

theorem Granted.namedAs {requests : List NameRequest} {other : Session}
    (h : session.Granted requests other) (hunnamed : ∀ a, session.Nameable a) :
    other.NamedAs fun a name => ∃ request ∈ requests, request.address = a ∧ request.name = name := by
  intro a label hat
  by_cases ha : a ∈ requests.map (·.address)
  · obtain ⟨request, hrequest, rfl⟩ := List.mem_map.mp ha
    obtain ⟨named, hnamed, hname, hordinary⟩ := h.named request hrequest
    rw [hat] at hnamed
    cases hnamed
    refine ⟨hordinary, fun name heq => ⟨request, hrequest, rfl, ?_⟩⟩
    rw [hname] at heq
    exact Option.some.inj heq
  · rw [h.unchanged a ha] at hat
    obtain ⟨hname, hordinary⟩ := hunnamed a label hat
    refine ⟨hordinary, fun name heq => ?_⟩
    rw [hname] at heq
    cases heq

end Grant

section Analysis

variable {session : Session}

-- The search leaves a label at the address that points into an instruction, so that it moves.
def Displaced (session : Session) (a : Address) : Prop :=
  session.found.Inside a ∧
    ∃ label, session.found.labels.at? a = some label ∧ isRelocatable label.kind

-- The names that an analysis finds for an address by itself.
def Generates (session : Session) (a : Address) (name : String) : Prop :=
  AutomaticName session.found.ground session.found.interruptEntries a name ∨
    ∃ label, session.classify.labels.at? a = some label ∧
      session.classify.coinedName? label = some name

namespace Analysable

theorem of_ground {other : Session} (h : session.Analysable) (hground : other.ground = session.ground)
    (hwf : other.labels.WellFormed) : other.Analysable := by
  refine ⟨hwf, ?_, ?_, ?_⟩
  · rw [memory_of_ground hground]
    exact h.unclassified
  · rw [decoder_of_ground hground]
    exact h.readsBytes
  · rw [decoder_of_ground hground]
    exact h.regular

theorem memory_analyse (h : session.Analysable) :
    session.analyse.memory = session.found.memory ∧
      session.analyse.decoder = session.found.decoder := by
  rw [memory_of_ground session.ground_analyse, decoder_of_ground session.ground_analyse]
  exact ⟨h.distributed_classify.memory, h.distributed_classify.decoder⟩

theorem moves_iff (h : session.Analysable) {a : Address} {label : Label}
    (hat : session.found.labels.at? a = some label) :
    session.entered.Moves label ↔ session.Displaced a := by
  have hentered := h.supplied_entered.kept a label hat
  have haddress := h.supplied_entered.wellFormed.address_eq hentered
  have hinside : session.entered.Inside a ↔ session.found.Inside a := by
    rw [Inside, Inside, memory_of_ground h.ground_entered]
  constructor
  · intro hmoves
    refine ⟨hinside.mp (haddress ▸ hmoves.inside), label, hat, hmoves.relocatable⟩
  · rintro ⟨hin, other, hother, hmoves⟩
    rw [hat] at hother
    cases hother
    refine ⟨?_, hmoves, ?_⟩
    · rw [haddress]
      exact hentered
    · rw [haddress]
      exact hinside.mpr hin

theorem at?_analyse_of_located (h : session.Analysable) (hunowned : ∀ a, session.owners.get a = none)
    (hnameOf : session.nameOf = none) {a : Address} {label : Label}
    (hat : session.located.labels.at? a = some label) :
    ∃ new, session.analyse.labels.at? a = some new ∧
      ∀ name, label.name = some name → new.name = some name := by
  obtain ⟨middle, hmiddle, hclassified⟩ := session.classified_classify.exists_at? hat
  refine ⟨middle.nameOr session.classify.coinedName?, ?_, fun name hname => ?_⟩
  · rw [session.labels_analyse, (h.namedBy_classify hunowned hnameOf).at?_eq, hmiddle,
      Option.map_some]
  · change middle.name.or _ = some name
    rw [hclassified.name, hname, Option.some_or]

-- A name stays with a label that does not move.
theorem name_analyse (h : session.Analysable) (hunowned : ∀ a, session.owners.get a = none)
    (hnameOf : session.nameOf = none) {a : Address} {label : Label} {name : String}
    (hat : session.labels.at? a = some label) (hname : label.name = some name)
    (hstays : ¬session.Displaced a) :
    ∃ new, session.analyse.labels.at? a = some new ∧ new.name = some name := by
  obtain ⟨found, hfound, hrest⟩ := h.at?_found_of_some hat
  obtain ⟨located, hlocated, hrest'⟩ := h.at?_located_of_some
    (h.supplied_entered.kept a found hfound) (mt (h.moves_iff hfound).mp hstays)
  obtain ⟨new, hnew, hkeeps⟩ := h.at?_analyse_of_located hunowned hnameOf hlocated
  have hsame : located.rest.name = label.rest.name :=
    congrArg Label.name (hrest'.trans hrest)
  exact ⟨new, hnew, hkeeps name (hsame.trans hname)⟩

-- A label that moves leaves its address, and there is a label where it moves to.
theorem exists_home (h : session.Analysable) (hunowned : ∀ a, session.owners.get a = none)
    (hnameOf : session.nameOf = none) {a : Address} (hdisplaced : session.Displaced a) :
    session.analyse.labels.at? a = none ∧ ∃ f label, session.found.memory.isFirst f ∧
      a ∈ session.found.extent f ∧ session.analyse.labels.at? f = some label := by
  obtain ⟨hinside, label, hat, -⟩ := id hdisplaced
  have hmoves := (h.moves_iff hat).mpr hdisplaced
  have haddress := h.supplied_entered.wellFormed.address_eq (h.supplied_entered.kept a label hat)
  obtain ⟨f, ⟨hf, hextent⟩, -⟩ := h.tiled_found.covered a hinside.1
  have hextent' : label.address ∈ session.entered.extent f := by
    rw [haddress, extent, instructionAt_of_ground h.ground_entered]
    exact hextent
  have hf' : session.entered.memory.isFirst f := by
    rw [memory_of_ground h.ground_entered]
    exact hf
  have hdeparts := h.departs_iff.mpr ⟨hmoves, hf', hextent'⟩
  have hleft := h.merging_located.left label f hdeparts List.not_mem_nil
  rw [haddress] at hleft
  refine ⟨?_, ?_⟩
  · rw [session.labels_analyse, (h.namedBy_classify hunowned hnameOf).at?_eq]
    have hrel := session.classified_classify.at?_rel a
    rw [hleft] at hrel
    generalize session.classify.labels.at? a = new? at hrel ⊢
    cases hrel with
    | none => rfl
  · have hgains := h.merging_located.gains f (by
      rintro other home hother rfl
      exact hother.moves.inside.2 hf')
    obtain ⟨home, hhome⟩ : ∃ home, session.located.labels.at? f = some home := by
      rw [← Option.isSome_iff_exists, hgains.isSome_iff]
      exact .inr ⟨label, hdeparts, List.not_mem_nil⟩
    obtain ⟨new, hnew, -⟩ := h.at?_analyse_of_located hunowned hnameOf hhome
    exact ⟨f, new, hf, hextent, hnew⟩

-- A label inside the instruction that is decoded first is displaced, one at its beginning is not.
theorem displaced_of_fresh (h : session.Analysable) (hstart : session.enqueueStart = session)
    {f a : Address} {queue : AddressQueue} {label : Label}
    (hpop : session.queue.pop? = some (f, queue)) (hfresh : session.Fresh f)
    (hextent : a ∈ session.extent f) (hne : a ≠ f) (hat : session.labels.at? a = some label)
    (hmoves : isRelocatable label.kind) : session.Displaced a ∧ ¬session.Displaced f := by
  have hfound : session.found = session.collect := by rw [found, hstart]
  have hcross := h.crossReferenced_found
  rw [hstart] at hcross
  have hfirst : session.found.memory.isFirst f := by
    rw [hfound]
    exact isFirst_collect_of_fresh hpop hfresh
  rw [← hcross.same.extent_eq h.readsBytes] at hextent
  refine ⟨⟨⟨h.tiled_found.code_of_extent f hfirst a hextent, fun ha => ?_⟩, ?_⟩,
    fun hdisplaced => hdisplaced.1.2 hfirst⟩
  · exact hne (h.tiled_found.first_of_extent f hfirst a hextent ha)
  have haccounted := hcross.accounted a
  obtain ⟨new, hnew⟩ : ∃ new, session.found.labels.at? a = some new := by
    rw [← Option.isSome_iff_exists, haccounted.isSome_iff, hat]
    exact .inl rfl
  rw [hnew] at haccounted
  refine ⟨new, hnew, ?_⟩
  cases haccounted with
  | labelled _ hexplains =>
      obtain ⟨old, hold, hkind⟩ | ⟨b, -, hkind⟩ := hexplains.kind_mem
      · rw [hat] at hold
        cases hold
        rw [hkind]
        exact hmoves
      · rw [hkind]
        exact session.isRelocatable_role h.regular b a

-- A name at the end was given to the address of the label, or is one that the analysis finds.
theorem given_or_generated (h : session.Analysable) (hunowned : ∀ a, session.owners.get a = none)
    (hnameOf : session.nameOf = none) {given : Address → String → Prop}
    (hgiven : session.NamedAs given) {a : Address} {label : Label} {name : String}
    (hat : session.analyse.labels.at? a = some label) (hname : label.name = some name) :
    given a name ∨ session.Generates a name := by
  obtain ⟨old, new, hold, hnew, hclassified, rfl⟩ := h.exists_located hunowned hnameOf hat
  rcases Option.or_eq_some_iff.mp hname with hbefore | ⟨-, hcoined⟩
  · rw [hclassified.name] at hbefore
    exact ((h.placeNamed_located hgiven hold).named name hbefore).imp_right .inl
  · exact .inr (.inr ⟨new, hnew, hcoined⟩)

end Analysable

theorem enqueueStart_of_unassigned (hstart : session.snapshotStart = none)
    (hfree : ¬session.memory.isAssigned 0) : session.enqueueStart = session := by
  simp [enqueueStart, hstart, hfree]

-- A new label for code waits to be decoded if it lies inside the loaded memory.
theorem queue_setLabel (session : Session) (a : Address) (name : Option String) (kind : Kind) :
    (session.setLabel a name kind).queue =
      if (session.labels.idAt? a).isNone ∧ session.memory.isAssigned a ∧ kind.isCode then
        session.queue.push a
      else session.queue := by
  unfold setLabel
  cases session.labels.idAt? a with
  | some id => rfl
  | none =>
      dsimp only
      by_cases hwaits : session.memory.isAssigned a ∧ kind.isCode
      · simp [hwaits, enqueue, modifyLabel]
      · simp [hwaits, modifyLabel]

theorem nameable_prepared (session : Session) (hlabels : session.labels = .empty)
    (blocks : List (Address × List UInt8)) (seeds : List Seed) (a : Address) :
    (session.prepared blocks (seeds.map Seed.unnamed)).Nameable a := by
  intro label hat
  obtain ⟨hordinary, hnamed⟩ := session.namedAs_unnamed hlabels blocks seeds a label hat
  exact ⟨Option.eq_none_iff_forall_ne_some.mpr hnamed, hordinary⟩

-- What becomes of given names. A name stays at its address unless the label there points into an
-- instruction. Then the label moves to the beginning of the instruction and loses the name: the label
-- there has the name given to that place, or one that the analysis finds for it.
theorem disassemble_keeps_given_names (config : Config) (snapshotStart : Option Address)
    (blocks : List (Address × List UInt8)) (seeds : List Seed) (requests : List NameRequest)
    (hdistinct : (requests.map (·.address)).Nodup) :
    let start := requests.foldl grant
      (({ config, snapshotStart } : Session).prepared blocks (seeds.map Seed.unnamed))
    let session := start.disassemble
    ∀ request ∈ requests,
      (¬start.Displaced request.address → ∃ label,
        session.labels.at? request.address = some label ∧ label.name = some request.name) ∧
      (start.Displaced request.address → session.labels.at? request.address = none ∧
        ∃ f label, session.memory.isFirst f ∧ request.address ∈ session.extent f ∧
          session.labels.at? f = some label ∧ ∀ name, label.name = some name →
            (∃ other ∈ requests, other.address = f ∧ other.name = name) ∨
              start.Generates f name) := by
  intro start session request hrequest
  have hready := ready_prepared { config, snapshotStart } rfl Memory.unclassified_empty rfl blocks
    (seeds.map Seed.unnamed)
  have hunnamed := ({ config, snapshotStart } : Session).nameable_prepared rfl blocks seeds
  have hgranted := granted_foldl hready.labelled.wellFormed requests hdistinct fun request _ =>
    hunnamed request.address
  have hstart : start.Analysable := hready.analysable.of_ground hgranted.ground hgranted.wellFormed
  have hground := hgranted.ground.trans
    (({ config, snapshotStart } : Session).ground_prepared rfl blocks (seeds.map Seed.unnamed))
  have hnameOf : start.nameOf = none := congrArg Ground.nameOf hground
  have hunowned : ∀ a, start.owners.get a = none := by
    intro a
    rw [owners_of_ground hgranted.ground]
    exact unowned_prepared { config, snapshotStart } rfl blocks (seeds.map Seed.unnamed) rfl a
  have hlabels : session.labels = start.analyse.labels := start.labels_disassemble
  have hmemory : session.memory = start.found.memory :=
    (memory_of_ground start.ground_disassemble).trans hstart.memory_analyse.1
  have hdecoder : session.decoder = start.found.decoder :=
    (decoder_of_ground start.ground_disassemble).trans hstart.memory_analyse.2
  rw [hlabels, hmemory]
  obtain ⟨label, hat, hname, -⟩ := hgranted.named request hrequest
  refine ⟨hstart.name_analyse hunowned hnameOf hat hname, fun hdisplaced => ?_⟩
  obtain ⟨hleft, f, home, hfirst, hextent, hhome⟩ := hstart.exists_home hunowned hnameOf hdisplaced
  refine ⟨hleft, f, home, hfirst, ?_, hhome, fun name hhomename => ?_⟩
  · rw [extent, instructionAt, hmemory, hdecoder]
    exact hextent
  · exact hstart.given_or_generated hunowned hnameOf (hgranted.namedAs hunnamed) hhome hhomename

-- A label for the instruction that a program starts with stays, one for its operand does not.
theorem displaced_operand (loaded : Session) (hready : loaded.Analysable)
    (hlabels : loaded.labels = .empty) (hqueue : loaded.queue = {})
    (hstart : loaded.snapshotStart = none) (hfree : ¬loaded.memory.isAssigned 0) {f a : Address}
    (hfresh : loaded.Fresh f) (hextent : a ∈ loaded.extent f) (hne : a ≠ f) (name other : String) :
    let start := [NameRequest.label f name .label, .label a other .data].foldl grant loaded
    start.Displaced a ∧ ¬start.Displaced f := by
  intro start
  have hplaced := loaded.placed_setLabel hready.wellFormed f (some name) .label
  have hplaced' := (loaded.setLabel f (some name) .label).placed_setLabel hplaced.wellFormed a
    (some other) .data
  have hground : start.ground = loaded.ground := hplaced'.ground.trans hplaced.ground
  have hmemory := memory_of_ground hground
  have hready' : start.Analysable := hready.of_ground hground hplaced'.wellFormed
  have hextent_eq := (SameProgram.of_ground hground).extent_eq hready.readsBytes
  have hfresh' : start.Fresh f := by
    constructor
    · rw [hextent_eq, hmemory]
      exact hfresh.assigned
    · rw [hextent_eq, hmemory]
      exact hfresh.uncoded
  have hsame : start.enqueueStart = start := by
    refine enqueueStart_of_unassigned ?_ ?_
    · exact (congrArg Ground.snapshotStart hground).trans hstart
    · rw [hmemory]
      exact hfree
  have hempty : ∀ b, LabelStore.empty.idAt? b = none := by
    simp [LabelStore.idAt?, LabelStore.empty]
  have hpop : start.queue.pop? = some (f, {}) := by
    have hassigned := hfresh.assigned f (loaded.mem_extent_self f)
    have hqueue' : start.queue = loaded.queue.push f := by
      change ((loaded.setLabel f (some name) .label).setLabel a (some other) .data).queue = _
      rw [queue_setLabel, queue_setLabel, hlabels]
      simp [hempty, hassigned, Kind.isCode]
    rw [hqueue', hqueue]
    rfl
  have hkind : ((loaded.setLabel f (some name) .label).namedLabel a (some other) .data).kind =
      .data := by
    rw [namedLabel, hplaced.at?_of_ne (Ne.symm hne), hlabels,
      LabelStore.at?_eq_none a (hempty a)]
  refine hready'.displaced_of_fresh hsame hpop hfresh' ?_ hne hplaced'.at?_self ?_
  · rw [hextent_eq]
    exact hextent
  · rw [hkind]
    rfl

-- LD A,0 with a variable in its operand, RET.
theorem disassemble_keeps_given_names_operand :
    let requests : List NameRequest := [.label 0x8000 "MAIN" .label, .label 0x8001 "VAR" .data]
    let start := requests.foldl grant (({} : Session).prepared [(0x8000, [0x3E, 0x00, 0xC9])] [])
    let session := start.disassemble
    (requests.map (·.address)).Nodup ∧ start.Displaced 0x8001 ∧ ¬start.Displaced 0x8000 ∧
      session.labels.at? 0x8001 = none ∧
      ∃ label, session.labels.at? 0x8000 = some label ∧ label.name = some "MAIN" := by
  intro requests start session
  have hdistinct : (requests.map (·.address)).Nodup := by decide
  have hnames := disassemble_keeps_given_names {} none [(0x8000, [0x3E, 0x00, 0xC9])] [] requests
    hdistinct
  obtain ⟨hdisplaced, hstays⟩ : start.Displaced 0x8001 ∧ ¬start.Displaced 0x8000 := by
    let loaded := ({} : Session).prepared [(0x8000, [0x3E, 0x00, 0xC9])] []
    have hclean : loaded.memory.Unclassified :=
      Memory.unclassified_load _ Memory.unclassified_empty 0x8000 [0x3E, 0x00, 0xC9]
    have hcode : loaded.memory.byte 0x8000 = 0x3E := by
      simp [loaded, prepared, loadAll, load, Memory.load, Memory.storeAll, Memory.byte_store]
    have hsize : (loaded.instructionAt 0x8000).size = 2 := by
      rw [instructionAt_eq_mainPage rfl hcode (by decide)]
      rfl
    have hready : loaded.Analysable :=
      ⟨LabelStore.wellFormed_empty, hclean, Z80.readsBytes_decode, Z80.regular_decode⟩
    refine displaced_operand loaded hready rfl rfl rfl ?_ ?_ ?_ (by decide) "MAIN" "VAR"
    · simp [loaded, prepared, loadAll, load, Memory.load, Memory.storeAll, Memory.store,
        Memory.isAssigned, Memory.empty, AddressSet.contains_empty]
    · refine .of_unclassified hclean fun i hi => ?_
      rw [hsize] at hi
      exact Memory.isAssigned_load _ 0x8000 [0x3E, 0x00, 0xC9] (by decide) (Nat.lt_succ_of_lt hi)
    · exact ⟨1, by omega, rfl⟩
  have hmain := (hnames (.label 0x8000 "MAIN" .label) (by simp [requests])).1 hstays
  have hvariable := (hnames (.label 0x8001 "VAR" .data) (by simp [requests])).2 hdisplaced
  exact ⟨hdistinct, hdisplaced, hstays, hvariable.1, hmain⟩

end Analysis

end Session

end Z80Atlas
