import Z80Atlas.Proofs.Analysis.Recursion

namespace Z80Atlas

namespace LabelStore

def Knows (store : LabelStore) (id : LabelId) : Prop := ∃ label, store.get? id = some label

def Extends (store other : LabelStore) : Prop :=
  ∀ id label, store.get? id = some label →
    ∃ new, other.get? id = some new ∧ new.id = label.id ∧ new.address = label.address

-- What holds of all labels, also of those that are no longer live: each knows its number, calls
-- labels that exist, and does not refer to itself.
structure Sound (store : LabelStore) : Prop where
  wellFormed : store.WellFormed
  numbered : ∀ id label, store.get? id = some label → label.id = id
  called : ∀ id label, store.get? id = some label → ∀ callee ∈ label.calls, store.Knows callee
  unreflexive : ∀ id label, store.get? id = some label → label.address ∉ label.references

end LabelStore

structure Label.Amends (store : LabelStore) (old new : Label) : Prop where
  calls : ∀ callee ∈ new.calls, callee ∈ old.calls ∨ store.Knows callee
  references : ∀ r ∈ new.references, r ∈ old.references ∨ r ≠ old.address

theorem Label.Amends.of_eq {store : LabelStore} {old new : Label} (hcalls : new.calls = old.calls)
    (hreferences : new.references = old.references) : old.Amends store new :=
  ⟨fun _ hcallee => .inl (hcalls ▸ hcallee), fun _ hr => .inl (hreferences ▸ hr)⟩

namespace LabelStore

namespace Extends

variable {store other third : LabelStore}

theorem refl (store : LabelStore) : store.Extends store :=
  fun _ label hlabel => ⟨label, hlabel, rfl, rfl⟩

theorem trans (h : store.Extends other) (h' : other.Extends third) : store.Extends third := by
  intro id label hlabel
  obtain ⟨new, hnew, hid, haddress⟩ := h id label hlabel
  obtain ⟨last, hlast, hid', haddress'⟩ := h' id new hnew
  exact ⟨last, hlast, hid'.trans hid, haddress'.trans haddress⟩

theorem knows (h : store.Extends other) {id : LabelId} (hid : store.Knows id) : other.Knows id := by
  obtain ⟨label, hlabel⟩ := hid
  obtain ⟨new, hnew, -, -⟩ := h id label hlabel
  exact ⟨new, hnew⟩

theorem insert (store : LabelStore) (address : Address) (kind : Kind) :
    store.Extends (store.insert address kind) := by
  intro id label hlabel
  have hold : id ≠ store.nextId := by
    rintro rfl
    simp [get?, nextId] at hlabel
  exact ⟨label, by rw [get?_insert, if_neg hold, hlabel], rfl, rfl⟩

theorem modify (store : LabelStore) (id : LabelId) (change : Label → Label)
    (hplace : ∀ label, (change label).id = label.id ∧ (change label).address = label.address) :
    store.Extends (store.modify id change) := by
  intro number label hlabel
  rw [get?_modify, hlabel]
  by_cases hnumber : id = number
  · rw [if_pos hnumber]
    exact ⟨change label, rfl, hplace label⟩
  · rw [if_neg hnumber]
    exact ⟨label, rfl, rfl, rfl⟩

end Extends

namespace Sound

variable {store : LabelStore}

theorem empty : LabelStore.empty.Sound := by
  have hnone : ∀ id label, LabelStore.empty.get? id ≠ some label := by simp [LabelStore.empty, get?]
  exact ⟨wellFormed_empty, fun id label h => absurd h (hnone id label),
    fun id label h => absurd h (hnone id label), fun id label h => absurd h (hnone id label)⟩

theorem insert (h : store.Sound) (address : Address) (kind : Kind) :
    (store.insert address kind).Sound := by
  have hextends := Extends.insert store address kind
  refine ⟨h.wellFormed.insert address kind, ?_, ?_, ?_⟩
  · intro id label hlabel
    rw [get?_insert] at hlabel
    split at hlabel
    · next hid =>
      cases hlabel
      exact hid.symm
    · exact h.numbered id label hlabel
  · intro id label hlabel callee hcallee
    rw [get?_insert] at hlabel
    split at hlabel
    · cases hlabel
      simp at hcallee
    · exact hextends.knows (h.called id label hlabel callee hcallee)
  · intro id label hlabel
    rw [get?_insert] at hlabel
    split at hlabel
    · cases hlabel
      exact Std.TreeSet.not_mem_emptyc
    · exact h.unreflexive id label hlabel

theorem erase (h : store.Sound) (address : Address) : (store.erase address).Sound :=
  ⟨h.wellFormed.erase address, h.numbered, h.called, h.unreflexive⟩

theorem modify (h : store.Sound) (id : LabelId) (change : Label → Label)
    (hplace : ∀ label, (change label).id = label.id ∧ (change label).address = label.address)
    (hamends : ∀ label, store.get? id = some label → label.Amends store (change label)) :
    (store.modify id change).Sound := by
  have hextends := Extends.modify store id change hplace
  have hcases : ∀ number label, (store.modify id change).get? number = some label →
      store.get? number = some label ∨
        ∃ old, store.get? id = some old ∧ number = id ∧ label = change old := by
    intro number label hlabel
    rw [get?_modify] at hlabel
    split at hlabel
    · next hid =>
      obtain ⟨old, hold, rfl⟩ := Option.map_eq_some_iff.mp hlabel
      exact .inr ⟨old, hid ▸ hold, hid.symm, rfl⟩
    · exact .inl hlabel
  refine ⟨h.wellFormed.modify id change hplace, ?_, ?_, ?_⟩
  · intro number label hlabel
    rcases hcases number label hlabel with hsame | ⟨old, hold, rfl, rfl⟩
    · exact h.numbered number label hsame
    · rw [(hplace old).1, h.numbered _ old hold]
  · intro number label hlabel callee hcallee
    rcases hcases number label hlabel with hsame | ⟨old, hold, rfl, rfl⟩
    · exact hextends.knows (h.called number label hsame callee hcallee)
    · rcases (hamends old hold).calls callee hcallee with hbefore | hknown
      · exact hextends.knows (h.called _ old hold callee hbefore)
      · exact hextends.knows hknown
  · intro number label hlabel
    rcases hcases number label hlabel with hsame | ⟨old, hold, rfl, rfl⟩
    · exact h.unreflexive number label hsame
    · rw [(hplace old).2]
      intro hself
      rcases (hamends old hold).references _ hself with hbefore | hne
      · exact h.unreflexive _ old hold hbefore
      · exact hne rfl

end Sound

end LabelStore

namespace Session

-- All numbers that a session keeps are those of labels.
structure Sound (session : Session) : Prop where
  labels : session.labels.Sound
  owned : ∀ a id, session.owners.get a = some id → session.labels.Knows id

-- A sound session stays sound, and the numbers that it knows keep their meaning.
structure Evolves (session other : Session) : Prop where
  sound : session.Sound → other.Sound
  numbers : session.labels.Extends other.labels

namespace Evolves

variable {session other third : Session}

theorem refl (session : Session) : session.Evolves session := ⟨id, .refl session.labels⟩

theorem trans (h : session.Evolves other) (h' : other.Evolves third) : session.Evolves third :=
  ⟨h'.sound ∘ h.sound, h.numbers.trans h'.numbers⟩

-- The owners are those from before, and every number they hold is still known.
theorem of_owners (howners : other.owners = session.owners)
    (hnumbers : session.labels.Extends other.labels)
    (hsound : session.Sound → other.labels.Sound) : session.Evolves other := by
  refine ⟨fun h => ⟨hsound h, fun a id hid => ?_⟩, hnumbers⟩
  rw [howners] at hid
  exact hnumbers.knows (h.owned a id hid)

theorem of_labels (hlabels : other.labels = session.labels)
    (howners : other.owners = session.owners) : session.Evolves other :=
  of_owners howners (by rw [hlabels]; exact .refl _) fun h => by rw [hlabels]; exact h.labels

theorem insert (session : Session) (address : Address) (kind : Kind) :
    session.Evolves { session with labels := session.labels.insert address kind } :=
  of_owners rfl (.insert session.labels address kind) fun h => h.labels.insert address kind

theorem erase (session : Session) (address : Address) :
    session.Evolves { session with labels := session.labels.erase address } :=
  of_owners rfl (LabelStore.Extends.refl session.labels) fun h => h.labels.erase address

theorem modifyLabel (session : Session) (id : LabelId) (change : Label → Label)
    (hplace : ∀ label, (change label).id = label.id ∧ (change label).address = label.address)
    (hamends : session.Sound → ∀ label, session.labels.get? id = some label →
      label.Amends session.labels (change label)) :
    session.Evolves (session.modifyLabel id change) :=
  of_owners rfl (.modify session.labels id change hplace) fun h =>
    h.labels.modify id change hplace (hamends h)

theorem modifyAt (session : Session) (address : Address) (change : Label → Label)
    (hplace : ∀ label, (change label).id = label.id ∧ (change label).address = label.address)
    (hamends : ∀ label : Label, label.Amends session.labels (change label)) :
    session.Evolves { session with labels := session.labels.modifyAt address change } := by
  unfold LabelStore.modifyAt
  split
  · exact modifyLabel session _ change hplace fun _ label _ => hamends label
  · exact .refl session

-- Labels were changed in a way that concerns neither calls nor references.
theorem of_revised {keep : Label → Label → Prop} (h : session.Revised keep other)
    (hplace : ∀ l m, keep l m → m.id = l.id ∧ m.address = l.address)
    (hkeep : ∀ l m, keep l m → m.calls = l.calls ∧ m.references = l.references) :
    session.Evolves other := by
  have hbefore : ∀ id new, other.labels.get? id = some new →
      ∃ label, session.labels.get? id = some label ∧ keep label new := by
    intro id new hnew
    have hrel := h.labels.labels id
    rw [hnew] at hrel
    generalize session.labels.get? id = label? at hrel ⊢
    cases hrel with
    | some hkept => exact ⟨_, rfl, hkept⟩
  have hnumbers : session.labels.Extends other.labels := by
    intro id label hlabel
    have hrel := h.labels.labels id
    rw [hlabel] at hrel
    generalize other.labels.get? id = new? at hrel ⊢
    cases hrel with
    | some hkept => exact ⟨_, rfl, hplace _ _ hkept⟩
  refine of_owners (owners_of_ground h.ground) hnumbers fun hsound => ⟨?_, ?_, ?_, ?_⟩
  · exact h.labels.wellFormed hplace hsound.labels.wellFormed
  · intro id new hnew
    obtain ⟨label, hlabel, hkept⟩ := hbefore id new hnew
    rw [(hplace _ _ hkept).1, hsound.labels.numbered id label hlabel]
  · intro id new hnew callee hcallee
    obtain ⟨label, hlabel, hkept⟩ := hbefore id new hnew
    rw [(hkeep _ _ hkept).1] at hcallee
    exact hnumbers.knows (hsound.labels.called id label hlabel callee hcallee)
  · intro id new hnew
    obtain ⟨label, hlabel, hkept⟩ := hbefore id new hnew
    rw [(hplace _ _ hkept).2, (hkeep _ _ hkept).2]
    exact hsound.labels.unreflexive id label hlabel

-- What each step does, all do. A step may rely on numbers that were known at the beginning.
theorem foldl {α : Type} (session : Session) (step : Session → α → Session) (xs : List α)
    (hstep : ∀ (current : Session) (x : α), session.Evolves current →
      current.Evolves (step current x)) : session.Evolves (xs.foldl step session) := by
  refine List.foldlRecOn xs step (.refl session) ?_
  intro current hcurrent x _
  exact hcurrent.trans (hstep current x hcurrent)

end Evolves

theorem evolves_note (session : Session) (text : String) : session.Evolves (session.note text) :=
  .of_labels rfl rfl

section Labelling

theorem evolves_enqueue (session : Session) (address : Address) :
    session.Evolves (session.enqueue address) := .of_labels rfl rfl

theorem evolves_setLabel (session : Session) (address : Address) (name : Option String)
    (kind : Kind) : session.Evolves (session.setLabel address name kind) := by
  unfold setLabel
  split
  · refine .modifyLabel session _ _ ?_ fun _ label _ => ?_
    · intro label
      split <;> exact ⟨rfl, rfl⟩
    · split
      · exact .of_eq rfl rfl
      · exact .of_eq rfl rfl
  · have hnew := (Evolves.insert session address kind).trans
      (.modifyLabel _ session.labels.nextId
        ({ · with name, isEqu := !session.memory.isAssigned address })
        (fun _ => ⟨rfl, rfl⟩) fun _ _ _ => .of_eq rfl rfl)
    dsimp only
    split
    · exact hnew.trans (evolves_enqueue _ address)
    · exact hnew

theorem evolves_fixLabel (session : Session) (address : Address) (name : Option String) :
    session.Evolves (session.fixLabel address name) := by
  have hfix : ∀ start : Session, session.Evolves start → session.Evolves { start with
      labels := start.labels.modifyAt address fun label => { label with
        name := name.or label.name
        isEqu := label.isEqu || !session.memory.isAssigned address
        isFixed := true } } :=
    fun start hstart => hstart.trans (.modifyAt start address _ (fun _ => ⟨rfl, rfl⟩)
      fun _ => .of_eq rfl rfl)
  unfold fixLabel
  cases session.labels.idAt? address with
  | some id =>
      dsimp only
      split
      · exact (hfix session (.refl session)).trans (evolves_enqueue _ address)
      · exact hfix session (.refl session)
  | none =>
      dsimp only
      split
      · exact (hfix _ (.insert session address .label)).trans (evolves_enqueue _ address)
      · exact hfix _ (.insert session address .label)

theorem evolves_fixTable (session : Session) (address : Address) (count : Nat) :
    session.Evolves (session.fixTable address count) := by
  induction count generalizing session address with
  | zero => exact .refl session
  | succ count ih =>
      exact (session.evolves_fixLabel (session.memory.word address) none).trans (ih _ _)

-- A label that is met gets the references, but not that to itself.
theorem evolves_meet (session : Session) (address : Address) (references : List Address)
    (kind : Kind) : session.Evolves (session.meet address references kind) := by
  have hadds : ∀ label : Label, label.Amends session.labels (label.addReferences references) := by
    intro label
    refine ⟨fun callee hcallee => .inl hcallee, fun r hr => ?_⟩
    exact ((label.mem_addReferences references r).mp hr).imp_right (·.2)
  unfold meet
  split
  · exact .modifyLabel session _ _ (fun _ => ⟨rfl, rfl⟩) fun _ label _ =>
      ⟨(hadds (label.promote kind)).calls, (hadds (label.promote kind)).references⟩
  · refine (Evolves.insert session address kind).trans
      (.modifyLabel _ _ _ (fun _ => ⟨rfl, rfl⟩) fun _ label _ => ?_)
    refine ⟨fun callee hcallee => .inl hcallee, fun r hr => ?_⟩
    exact ((Label.mem_addReferences _ references r).mp hr).imp_right (·.2)

theorem evolves_linkOperand (session : Session) (address : Address) (instruction : Instruction) :
    session.Evolves (session.linkOperand address instruction) := by
  have howners : (session.linkOperand address instruction).owners = session.owners := by
    rw [linkOperand_eq]
  have hlabels := session.labels_linkOperand address instruction
  cases hdesignated : instruction.designated? with
  | none =>
      rw [hdesignated] at hlabels
      exact .of_labels hlabels howners
  | some t =>
      rw [hdesignated] at hlabels
      have hmeet := session.evolves_meet t [address] (instruction.role session.memory address t)
      refine .of_owners howners ?_ fun h => ?_
      · rw [hlabels]
        exact hmeet.numbers
      · rw [hlabels]
        exact (hmeet.sound h).labels

end Labelling

section Passes

theorem evolves_enqueueStart (session : Session) : session.Evolves session.enqueueStart := by
  unfold enqueueStart
  split
  · exact .refl session
  split
  · exact session.evolves_enqueue _
  split
  · exact .refl session
  dsimp only
  split
  · exact (Evolves.modifyAt session 0 ({ · with kind := .label }) (fun _ => ⟨rfl, rfl⟩)
      fun _ => .of_eq rfl rfl).trans (evolves_enqueue _ 0)
  · exact (session.evolves_fixLabel 0 _).trans (evolves_enqueue _ 0)

theorem evolves_accept (session : Session) (address : Address) (instruction : Instruction) :
    session.Evolves (session.accept address instruction) := by
  have hmarked : session.Evolves
      { session with memory := session.memory.markInstruction address instruction.size } :=
    .of_labels rfl rfl
  exact hmarked.trans (evolves_linkOperand _ address instruction)

theorem evolves_of_step {search next : Search} (h : search.Step next) :
    search.session.Evolves next.session := by
  cases h with
  | take session address queue hpop => exact .of_labels rfl rfl
  | leave session address journal hobstacle => exact .of_labels rfl rfl
  | find session address hfresh => exact session.evolves_accept address _

theorem evolves_collect (session : Session) : session.Evolves session.collect := by
  refine (Search.run_collect session).keeps (P := fun search => session.Evolves search.session) ?_
    (.refl session)
  intro search next hstep hsearch
  exact hsearch.trans (evolves_of_step hstep)

theorem evolves_labelInterrupts (session : Session) : session.Evolves session.labelInterrupts := by
  unfold labelInterrupts
  dsimp only
  refine Evolves.trans (.foldl session _ _ fun current entry _ => ?_) (evolves_note _ _)
  exact current.evolves_fixLabel entry.1 _

theorem evolves_labelStarts (session : Session) : session.Evolves session.labelStarts := by
  unfold labelStarts
  dsimp only
  refine Evolves.trans ?_ (.foldl _ _ _ fun current address _ => current.evolves_setLabel address _ _)
  split
  · split
    · exact session.evolves_setLabel _ _ _
    · exact .refl session
  · exact .refl session

theorem evolves_relocateLabel (session : Session) (id : LabelId) :
    session.Evolves (session.relocateLabel id) := by
  unfold relocateLabel
  split
  · exact .refl session
  · next label hlabel =>
    split
    · exact .refl session
    · next start hstart =>
      exact ((session.evolves_meet start _ _).trans (.erase _ label.address)).trans
        (.of_labels rfl rfl)

-- The instruction in front of a label lies before it, so that it is not the label itself.
theorem evolves_linkFlowThrough (session : Session) (id : LabelId) :
    session.Evolves (session.linkFlowThrough id) := by
  rw [linkFlowThrough_eq]
  split
  · exact .refl session
  · next found reference htarget =>
    refine .modifyLabel session found _ (fun _ => ⟨rfl, rfl⟩) fun hsound target htarget' => ?_
    refine ⟨fun callee hcallee => .inl hcallee, fun r hr => ?_⟩
    obtain ⟨label, -, hflows⟩ := Option.bind_eq_some_iff.mp htarget
    split at hflows
    · obtain ⟨following, other, hfall, hother, rfl⟩ :=
        fallThrough?_of_flowsInto? (Option.filter_eq_some_iff.mp hflows).1
      rw [hsound.labels.wellFormed.get?_of_at? hother] at htarget'
      cases htarget'
      rw [Std.TreeSet.mem_insert, Std.LawfulEqCmp.compare_eq_iff_eq] at hr
      refine hr.symm.imp_right ?_
      rintro rfl heq
      have hbefore := Instruction.lt_of_fallThrough? hfall
      rw [hsound.labels.wellFormed.address_eq hother] at heq
      exact absurd hbefore (by rw [heq]; exact Nat.lt_irrefl _)
    · cases hflows

theorem evolves_promoteReturning (session : Session) (id : LabelId) :
    session.Evolves (session.promoteReturning id) := by
  unfold promoteReturning
  split
  · exact .refl session
  split
  · exact (session.evolves_note _).trans (.modifyLabel _ id ({ · with kind := .subroutine })
      (fun _ => ⟨rfl, rfl⟩) fun _ _ _ => .of_eq rfl rfl)
  · exact .refl session

theorem evolves_localizeWithin (session : Session) (id : LabelId) :
    session.Evolves (session.localizeWithin id) := by
  refine .of_revised (session.rekinded_localizeWithin id) ?_ ?_
  · rintro l m ⟨kind, rfl, -⟩
    exact ⟨rfl, rfl⟩
  · rintro l m ⟨kind, rfl, -⟩
    exact ⟨rfl, rfl⟩

theorem evolves_claim (session : Session) {id : LabelId} (hid : session.labels.Knows id)
    (address : Address) : session.Evolves (session.claim id address) := by
  refine ⟨fun h => ⟨h.labels, fun a owner howner => ?_⟩, .refl session.labels⟩
  dsimp only [claim] at howner
  rw [AddressTable.get_foldl_set] at howner
  split at howner
  · cases howner
    exact hid
  · exact h.owned a owner howner

theorem evolves_claimFor (session : Session) (id : LabelId) :
    session.Evolves (session.claimFor id) := by
  unfold claimFor
  split
  · next label hlabel =>
    split
    · exact session.evolves_claim ⟨label, hlabel⟩ label.address
    · exact .refl session
  · exact .refl session

theorem evolves_dropInnerReferences (session : Session) (id : LabelId) :
    session.Evolves (session.dropInnerReferences id) := by
  unfold dropInnerReferences
  split
  · exact .refl session
  · next label hlabel =>
    have hdrops := Evolves.modifyLabel session id
      ({ · with references := label.references.filter fun reference =>
        !session.isInnerReference id reference }) (fun _ => ⟨rfl, rfl⟩) fun _ other hother => by
        rw [hlabel] at hother
        cases hother
        exact ⟨fun callee hcallee => .inl hcallee,
          fun r hr => .inl (Std.TreeSet.mem_of_mem_filter hr)⟩
    dsimp only
    split
    · exact hdrops.trans (.of_labels rfl rfl)
    · exact hdrops

-- The label that is added to the calls is still known when its callers are dealt with.
theorem evolves_linkCallers (session : Session) (id : LabelId) :
    session.Evolves (session.linkCallers id) := by
  unfold linkCallers
  split
  · exact .refl session
  · next label hlabel =>
    split
    · exact .refl session
    · refine .foldl session _ _ fun current caller hcurrent => ?_
      refine .modifyLabel current caller _ (fun _ => ⟨rfl, rfl⟩) fun _ other _ => ?_
      refine ⟨fun callee hcallee => ?_, fun r hr => .inl hr⟩
      rcases Array.mem_push.mp hcallee with hold | rfl
      · exact .inl hold
      · exact .inr (hcurrent.numbers.knows ⟨label, hlabel⟩)

theorem evolves_countLabel (session : Session) (id : LabelId) :
    session.Evolves (session.countLabel id) := by
  unfold countLabel
  split
  · exact .refl session
  split
  · exact .refl session
  split
  · exact .of_labels rfl rfl
  · exact .of_labels rfl rfl

theorem evolves_nameLabel (session : Session) (id : LabelId) (name : String) :
    session.Evolves (session.nameLabel id name) :=
  .modifyLabel session id _ (fun _ => ⟨rfl, rfl⟩) fun _ _ _ => .of_eq rfl rfl

theorem evolves_nameLabels (session : Session) : session.Evolves session.nameLabels := by
  refine .of_revised session.revised_nameLabels ?_ ?_
  · rintro l m ⟨name, rfl⟩
    exact ⟨rfl, rfl⟩
  · rintro l m ⟨name, rfl⟩
    exact ⟨rfl, rfl⟩

theorem evolves_commentLabel (session : Session) (id : LabelId) :
    session.Evolves (session.commentLabel id) := by
  unfold commentLabel
  split
  · exact .refl session
  split
  · exact .refl session
  split
  · exact .of_labels rfl rfl
  · exact .refl session

theorem evolves_assignOwners (session : Session) : session.Evolves session.assignOwners :=
  (Evolves.foldl session claimFor _ fun current id _ => current.evolves_claimFor id).trans
    (.foldl _ dropInnerReferences _ fun current id _ => current.evolves_dropInnerReferences id)

end Passes

end Session

end Z80Atlas
