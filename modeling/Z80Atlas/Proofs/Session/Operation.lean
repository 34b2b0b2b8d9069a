import Z80Atlas.Input.Snapshot
import Z80Atlas.Input.Trace
import Z80Atlas.Proofs.Analysis.Pass
import Z80Atlas.Proofs.Session.Soundness
import Z80Atlas.Report.CallGraph

namespace Z80Atlas

inductive Operation where
  | load (origin : Address) (bytes : List UInt8)
  | addMarks (address : Address) (count : Nat) (marks : Marks)
  | unclassify (address : Address) (count : Nat)
  | setLabel (address : Address) (name : Option String) (kind : Kind)
  | fixLabel (address : Address) (name : Option String)
  | fixTable (address : Address) (count : Nat)
  | enqueue (address : Address)
  | setQueue (addresses : List Address)
  | setSnapshotStart (address : Address)
  | loadSnapshot (bytes : List UInt8)
  | useTrace (trace : String)
  | useEntries (entries : List CommentEntry)
  | setComment (address : Address) (comment : Comment)
  | configure (config : Config)
  | nameBy (nameOf : Address → String)
  | highlight (target : Target) (color : String)
  | meet (address : Address) (references : List Address) (kind : Kind)
  | linkOperand (address : Address) (instruction : Instruction)
  | insertLabel (address : Address) (kind : Kind)
  | eraseLabel (address : Address)
  -- Overwrite all of a live label but its number, its place and what the passes count.
  | patchLabel (address : Address) (kind : Kind) (name : Option String)
      (isEqu isFixed belongsToInterrupt : Bool)
  | clearLabels
  | indexNames
  -- Let the live label at `parent` own the code that it reaches from `address`.
  | claim (parent address : Address)
  | pass (pass : Pass)
  | disassemble
  | readListing

namespace LabelStore

-- The calls of labels are followed as far as there are labels.
theorem knows_of_mem_callOrder (store : LabelStore) (seen : Array Bool) (chosen : Array LabelId)
    (pending : List LabelId) (hsize : seen.size = store.arena.size)
    (hchosen : ∀ id ∈ chosen, store.Knows id) :
    ∀ id ∈ store.callOrder seen chosen pending, store.Knows id := by
  fun_induction callOrder store seen chosen pending with
  | case1 seen chosen => exact hchosen
  | case2 seen chosen n pending hn marked calls ih =>
      refine ih (by rw [Array.size_setIfInBounds, hsize]) fun id hid => ?_
      rcases Array.mem_push.mp hid with hold | rfl
      · exact hchosen id hold
      · obtain ⟨hlt, -⟩ := Array.getElem?_eq_some_iff.mp hn
        exact ⟨_, Array.getElem?_eq_getElem (hsize ▸ hlt)⟩
  | case3 seen chosen n pending hn ih => exact ih hsize hchosen

theorem knows_of_mem_reachableCalls (store : LabelStore) (root id : LabelId)
    (h : id ∈ store.reachableCalls root) : store.Knows id :=
  store.knows_of_mem_callOrder _ #[] [root] Array.size_replicate (by simp) id
    (Array.mem_toList_iff.mp h)

end LabelStore

namespace Session

def perform (session : Session) : Operation → Session
  | .load origin bytes => session.load origin bytes
  | .addMarks address count marks =>
    { session with memory := session.memory.addMarks address count marks }
  | .unclassify address count =>
    { session with memory := session.memory.unclassifyRange address count }
  | .setLabel address name kind => session.setLabel address name kind
  | .fixLabel address name => session.fixLabel address name
  | .fixTable address count => session.fixTable address count
  | .enqueue address => session.enqueue address
  | .setQueue addresses => { session with queue := .ofList addresses }
  | .setSnapshotStart address => session.setSnapshotStart address
  | .loadSnapshot bytes =>
    match Snapshot.load session bytes with
    | .ok (loaded, _) => loaded
    | .error _ => session
  | .useTrace trace => Trace.use session trace
  | .useEntries entries => session.useEntries entries
  | .setComment address comment => session.setComment address comment
  | .configure config => { session with config }
  | .nameBy nameOf => { session with nameOf := some nameOf }
  | .highlight target color => session.highlight target color
  | .meet address references kind => session.meet address references kind
  | .linkOperand address instruction => session.linkOperand address instruction
  | .insertLabel address kind => { session with labels := session.labels.insert address kind }
  | .eraseLabel address => { session with labels := session.labels.erase address }
  | .patchLabel address kind name isEqu isFixed belongsToInterrupt =>
    { session with
      labels := session.labels.modifyAt address
        ({ · with kind, name, isEqu, isFixed, belongsToInterrupt }) }
  | .clearLabels => session.clearLabels
  | .indexNames => session.indexNames
  | .claim parent address =>
    match session.labels.idAt? parent with
    | some id => session.claim id address
    | none => session
  | .pass pass => session.after pass
  | .disassemble => session.disassemble
  | .readListing => session.readListing.1

section Steps

theorem evolves_loadSnapshot (session : Session) (bytes : List UInt8) :
    session.Evolves (session.perform (.loadSnapshot bytes)) := by
  dsimp only [perform]
  unfold Snapshot.load
  split
  · next loaded start hload =>
    split at hload
    · cases hload
    · cases hload
      exact .of_labels rfl rfl
  · exact .refl session

theorem evolves_useTrace (session : Session) (trace : String) :
    session.Evolves (Trace.use session trace) := by
  unfold Trace.use
  dsimp only
  refine Evolves.trans ?_ (.foldl _ enqueue _ fun current address _ => current.evolves_enqueue address)
  refine Evolves.trans ?_ (evolves_note _ _)
  refine List.foldlRecOn
    (motive := fun state : Session × Option Address => session.Evolves state.1) _ Trace.useLine
    (.refl session) ?_
  rintro ⟨current, jump⟩ hcurrent ⟨address, text⟩ -
  cases jump with
  | some reference => exact hcurrent.trans (current.evolves_meet address [reference] .label)
  | none => exact hcurrent

theorem evolves_useEntries (session : Session) (entries : List CommentEntry) :
    session.Evolves (session.useEntries entries) := by
  refine .foldl session useEntry entries fun current entry _ => ?_
  have hcomment : current.Evolves (current.setComment entry.address entry.comment) :=
    .of_labels rfl rfl
  unfold useEntry
  dsimp only
  split
  · exact hcomment.trans (evolves_setLabel _ _ _ _)
  · exact hcomment

theorem evolves_after (session : Session) (pass : Pass) : session.Evolves (session.after pass) := by
  cases pass with
  | enqueueStart => exact session.evolves_enqueueStart
  | collect => exact session.evolves_collect
  | labelInterrupts => exact session.evolves_labelInterrupts
  | labelStarts => exact session.evolves_labelStarts
  | relocate => exact .foldl session relocateLabel _ fun current id _ =>
      current.evolves_relocateLabel id
  | linkFlowThroughs => exact .foldl session linkFlowThrough _ fun current id _ =>
      current.evolves_linkFlowThrough id
  | promoteSubroutines => exact .foldl session promoteReturning _ fun current id _ =>
      current.evolves_promoteReturning id
  | localize => exact .foldl session localizeWithin _ fun current id _ =>
      current.evolves_localizeWithin id
  | assignOwners => exact session.evolves_assignOwners
  | linkCalls => exact .foldl session linkCallers _ fun current id _ =>
      current.evolves_linkCallers id
  | countStatistics => exact .foldl session countLabel _ fun current id _ =>
      current.evolves_countLabel id
  | nameLabels => exact session.evolves_nameLabels
  | commentLabels => exact .foldl session commentLabel _ fun current id _ =>
      current.evolves_commentLabel id

theorem evolves_classify (session : Session) : session.Evolves session.classify := by
  have hfound : session.Evolves session.enqueueStart.collect.noteLabels :=
    ((session.evolves_after .enqueueStart).trans (evolves_after _ .collect)).trans (evolves_note _ _)
  have hlocated := ((hfound.trans (evolves_after _ .labelInterrupts)).trans
    (evolves_after _ .labelStarts)).trans (evolves_after _ .relocate)
  have htold := ((hlocated.trans (evolves_after _ .linkFlowThroughs)).trans
    (evolves_after _ .promoteSubroutines)).trans (evolves_after _ .localize)
  exact ((htold.trans (evolves_after _ .assignOwners)).trans (evolves_after _ .linkCalls)).trans
    (evolves_after _ .countStatistics)

theorem evolves_disassemble (session : Session) : session.Evolves session.disassemble := by
  have hnamed := session.evolves_classify.trans (evolves_after _ .nameLabels)
  have hanalyse : session.Evolves session.analyse := by
    unfold analyse
    dsimp only
    split
    · exact hnamed
    · exact hnamed.trans (evolves_after _ .commentLabels)
  exact hanalyse.trans
    (.of_labels session.labels_disassemble (owners_of_ground session.ground_disassemble))

theorem evolves_readListing (session : Session) : session.Evolves session.readListing.1 := by
  unfold readListing
  split
  · exact .refl session
  · exact .of_labels rfl rfl

-- Every operation but the one that forgets all labels keeps the meaning of numbers.
theorem evolves_perform (session : Session) (operation : Operation)
    (hoperation : operation ≠ .clearLabels) : session.Evolves (session.perform operation) := by
  cases operation with
  | load origin bytes => exact .of_labels rfl rfl
  | addMarks address count marks => exact .of_labels rfl rfl
  | unclassify address count => exact .of_labels rfl rfl
  | setLabel address name kind => exact session.evolves_setLabel address name kind
  | fixLabel address name => exact session.evolves_fixLabel address name
  | fixTable address count => exact session.evolves_fixTable address count
  | enqueue address => exact session.evolves_enqueue address
  | setQueue addresses => exact .of_labels rfl rfl
  | setSnapshotStart address => exact .of_labels rfl rfl
  | loadSnapshot bytes => exact session.evolves_loadSnapshot bytes
  | useTrace trace => exact session.evolves_useTrace trace
  | useEntries entries => exact session.evolves_useEntries entries
  | setComment address comment => exact .of_labels rfl rfl
  | configure config => exact .of_labels rfl rfl
  | nameBy nameOf => exact .of_labels rfl rfl
  | highlight target color => exact .of_labels rfl rfl
  | meet address references kind => exact session.evolves_meet address references kind
  | linkOperand address instruction => exact session.evolves_linkOperand address instruction
  | insertLabel address kind => exact .insert session address kind
  | eraseLabel address => exact .erase session address
  | patchLabel address kind name isEqu isFixed belongsToInterrupt =>
      exact .modifyAt session address _ (fun _ => ⟨rfl, rfl⟩) fun _ => .of_eq rfl rfl
  | clearLabels => exact absurd rfl hoperation
  | indexNames => exact .of_labels rfl rfl
  | claim parent address =>
      dsimp only [perform]
      split
      · next id hid =>
        -- Without soundness the number of a live label could be unknown.
        refine ⟨fun h => ?_, .refl session.labels⟩
        obtain ⟨label, hlabel, -, -⟩ := h.labels.wellFormed parent id hid
        exact (session.evolves_claim ⟨label, hlabel⟩ address).sound h
      · exact .refl session
  | pass pass => exact session.evolves_after pass
  | disassemble => exact session.evolves_disassemble
  | readListing => exact session.evolves_readListing

theorem Sound.clearLabels (session : Session) : session.clearLabels.Sound := by
  refine ⟨LabelStore.Sound.empty, fun a id hid => ?_⟩
  dsimp only [Session.clearLabels] at hid
  rw [AddressTable.get_replicate] at hid
  cases hid

theorem Sound.perform {session : Session} (h : session.Sound) (operation : Operation) :
    (session.perform operation).Sound := by
  by_cases hoperation : operation = .clearLabels
  · rw [hoperation]
    exact .clearLabels session
  · exact (session.evolves_perform operation hoperation).sound h

theorem Sound.performAll {session : Session} (h : session.Sound) (operations : List Operation) :
    (operations.foldl Session.perform session).Sound :=
  List.foldlRecOn operations Session.perform h fun _ hcurrent operation _ => hcurrent.perform operation

end Steps

-- A number that a session keeps or gives out.
inductive Mentions (session : Session) : LabelId → Prop
  | live {id : LabelId} (address : Address) (h : session.labels.idAt? address = some id) :
      Mentions session id
  | owner {id : LabelId} (address : Address) (h : session.owners.get address = some id) :
      Mentions session id
  | callee {id caller : LabelId} (label : Label) (hlabel : session.labels.get? caller = some label)
      (h : id ∈ label.calls) : Mentions session id
  | graph {id : LabelId} (target : Target) (ids : List LabelId)
      (hgraph : session.graphLabels target = .ok ids) (h : id ∈ ids) : Mentions session id
  | fall {id : LabelId} (address reference : Address)
      (h : session.flowsInto? address = some (id, reference)) : Mentions session id

theorem Sound.knows_of_mentions {session : Session} (h : session.Sound) {id : LabelId}
    (hmentions : session.Mentions id) : session.labels.Knows id := by
  cases hmentions with
  | live address hid =>
      obtain ⟨label, hlabel, -, -⟩ := h.labels.wellFormed address id hid
      exact ⟨label, hlabel⟩
  | owner address howner => exact h.owned address id howner
  | callee label hlabel hcallee => exact h.labels.called _ label hlabel id hcallee
  | graph target ids hgraph hmem =>
      rw [graphLabels] at hgraph
      cases hroot : session.resolve target with
      | error fault =>
          rw [hroot] at hgraph
          cases hgraph
      | ok root =>
          rw [hroot] at hgraph
          cases hgraph
          exact session.labels.knows_of_mem_reachableCalls root id hmem
  | fall address reference hflows =>
      obtain ⟨following, label, -, hat, rfl⟩ := fallThrough?_of_flowsInto? hflows
      exact ⟨label, h.labels.wellFormed.get?_of_at? hat⟩

-- What the passes do with one label, given by its number.
inductive NumberedStep : (Session → LabelId → Session) → Prop
  | relocate : NumberedStep relocateLabel
  | linkFlowThrough : NumberedStep linkFlowThrough
  | promote : NumberedStep promoteReturning
  | localize : NumberedStep localizeWithin
  | claim : NumberedStep claimFor
  | dropInnerReferences : NumberedStep dropInnerReferences
  | linkCallers : NumberedStep linkCallers
  | count : NumberedStep countLabel
  | name (name : String) : NumberedStep (·.nameLabel · name)
  | comment : NumberedStep commentLabel

theorem NumberedStep.evolves {step : Session → LabelId → Session} (h : NumberedStep step)
    (session : Session) (id : LabelId) : session.Evolves (step session id) := by
  cases h with
  | relocate => exact session.evolves_relocateLabel id
  | linkFlowThrough => exact session.evolves_linkFlowThrough id
  | promote => exact session.evolves_promoteReturning id
  | localize => exact session.evolves_localizeWithin id
  | claim => exact session.evolves_claimFor id
  | dropInnerReferences => exact session.evolves_dropInnerReferences id
  | linkCallers => exact session.evolves_linkCallers id
  | count => exact session.evolves_countLabel id
  | name name => exact session.evolves_nameLabel id name
  | comment => exact session.evolves_commentLabel id

-- Whatever is done to a session, in any order and as often as one likes, its live labels know their
-- numbers and their places and do not refer to themselves, and all numbers that it keeps or gives
-- out are those of labels. In the middle of a pass too the labels are in order, and one that the
-- pass has still to deal with is there. A number keeps its meaning until all labels are forgotten.
theorem performAll_keeps_labels_known (decoder : Decoder) (config : Config)
    (operations : List Operation) :
    let session := operations.foldl perform ({ decoder, config } : Session)
    (∀ address id, session.labels.idAt? address = some id →
      ∃ label, session.labels.get? id = some label ∧ label.id = id ∧ label.address = address) ∧
    (∀ id, session.Mentions id → session.labels.Knows id) ∧
    (∀ label ∈ session.labels.live, label.address ∉ label.references) ∧
    (∀ step, NumberedStep step → ∀ (done : List LabelId) (id : LabelId), session.labels.Knows id →
      (done.foldl step session).Sound ∧ (done.foldl step session).labels.Knows id) ∧
    ∀ later : List Operation, .clearLabels ∉ later →
      session.labels.Extends (later.foldl perform session).labels := by
  intro session
  have hfresh : ({ decoder, config } : Session).Sound := by
    refine ⟨LabelStore.Sound.empty, fun a id hid => ?_⟩
    rw [AddressTable.get_replicate] at hid
    cases hid
  have hsound : session.Sound := hfresh.performAll operations
  refine ⟨hsound.labels.wellFormed, fun id => hsound.knows_of_mentions, ?_, ?_, ?_⟩
  · intro label hlive
    have hat := (hsound.labels.wellFormed.mem_live label).mp hlive
    exact hsound.labels.unreflexive _ label (hsound.labels.wellFormed.get?_of_at? hat)
  · intro step hstep done id hid
    have hdone := Evolves.foldl session step done fun current n _ => hstep.evolves current n
    exact ⟨hdone.sound hsound, hdone.numbers.knows hid⟩
  · intro later hlater
    refine List.foldlRecOn
      (motive := fun current : Session => session.labels.Extends current.labels) later perform
      (.refl session.labels) ?_
    intro current hcurrent operation hoperation
    refine hcurrent.trans (current.evolves_perform operation ?_).numbers
    rintro rfl
    exact hlater hoperation

end Session

end Z80Atlas
