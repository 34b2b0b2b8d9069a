import Z80Atlas.Proofs.Session.Revision
import Z80Atlas.Session.Analysis

namespace Z80Atlas

namespace Label

-- Telling labels apart may change the kind of a label and add references. The kind of a fixed
-- top-level label stays a top-level one.
def Told (old new : Label) : Prop :=
  ∃ kind references, new = { old with kind, references } ∧
    (∀ a ∈ old.references, a ∈ references) ∧
    (old.isFixed → old.kind.isTopLevel → kind.isTopLevel)

def Trimmed (needed : Address → Prop) (old new : Label) : Prop :=
  ∃ references, new = { old with references } ∧ ∀ a ∈ old.references, needed a → a ∈ references

def Recalled (old new : Label) : Prop := ∃ calls, new = { old with calls }

def Renamed (old new : Label) : Prop := ∃ name, new = { old with name }

structure SamePlace (old new : Label) : Prop where
  id : new.id = old.id
  address : new.address = old.address
  isEqu : new.isEqu = old.isEqu

theorem Told.refl (label : Label) : label.Told label :=
  ⟨label.kind, label.references, rfl, fun _ ha => ha, fun _ htop => htop⟩

theorem Told.trans (l m n : Label) (h : l.Told m) (h' : m.Told n) : l.Told n := by
  obtain ⟨kind, references, rfl, hreferences, htop⟩ := h
  obtain ⟨last, all, rfl, hreferences', htop'⟩ := h'
  exact ⟨last, all, rfl, fun a ha => hreferences' a (hreferences a ha),
    fun hfixed hkind => htop' hfixed (htop hfixed hkind)⟩

theorem Trimmed.refl (needed : Address → Prop) (label : Label) : label.Trimmed needed label :=
  ⟨label.references, rfl, fun _ ha _ => ha⟩

theorem Trimmed.trans (needed : Address → Prop) (l m n : Label) (h : l.Trimmed needed m)
    (h' : m.Trimmed needed n) : l.Trimmed needed n := by
  obtain ⟨references, rfl, hkept⟩ := h
  obtain ⟨last, rfl, hkept'⟩ := h'
  exact ⟨last, rfl, fun a ha hneeded => hkept' a (hkept a ha hneeded) hneeded⟩

theorem Recalled.refl (label : Label) : label.Recalled label := ⟨label.calls, rfl⟩

theorem Recalled.trans (l m n : Label) (h : l.Recalled m) (h' : m.Recalled n) : l.Recalled n := by
  obtain ⟨calls, rfl⟩ := h
  obtain ⟨last, rfl⟩ := h'
  exact ⟨last, rfl⟩

theorem Renamed.refl (label : Label) : label.Renamed label := ⟨label.name, rfl⟩

theorem Renamed.trans (l m n : Label) (h : l.Renamed m) (h' : m.Renamed n) : l.Renamed n := by
  obtain ⟨name, rfl⟩ := h
  obtain ⟨last, rfl⟩ := h'
  exact ⟨last, rfl⟩

theorem SamePlace.refl (label : Label) : label.SamePlace label := ⟨rfl, rfl, rfl⟩

theorem SamePlace.trans (l m n : Label) (h : l.SamePlace m) (h' : m.SamePlace n) :
    l.SamePlace n :=
  ⟨h'.id.trans h.id, h'.address.trans h.address, h'.isEqu.trans h.isEqu⟩

theorem Told.samePlace (old new : Label) (h : old.Told new) : old.SamePlace new := by
  obtain ⟨kind, references, rfl, -, -⟩ := h
  exact ⟨rfl, rfl, rfl⟩

theorem Trimmed.samePlace (needed : Address → Prop) (old new : Label) (h : old.Trimmed needed new) :
    old.SamePlace new := by
  obtain ⟨references, rfl, -⟩ := h
  exact ⟨rfl, rfl, rfl⟩

theorem Recalled.samePlace (old new : Label) (h : old.Recalled new) : old.SamePlace new := by
  obtain ⟨calls, rfl⟩ := h
  exact ⟨rfl, rfl, rfl⟩

theorem Renamed.samePlace (old new : Label) (h : old.Renamed new) : old.SamePlace new := by
  obtain ⟨name, rfl⟩ := h
  exact ⟨rfl, rfl, rfl⟩

theorem Recalled.keeps (old new : Label) (h : old.Recalled new) :
    new.kind = old.kind ∧ new.references = old.references := by
  obtain ⟨calls, rfl⟩ := h
  exact ⟨rfl, rfl⟩

theorem Renamed.keeps (old new : Label) (h : old.Renamed new) :
    new.kind = old.kind ∧ new.references = old.references := by
  obtain ⟨name, rfl⟩ := h
  exact ⟨rfl, rfl⟩

end Label

namespace Session

section Telling

theorem revised_linkFlowThrough (session : Session) (id : LabelId) :
    session.Revised Label.Told (session.linkFlowThrough id) := by
  unfold linkFlowThrough
  split
  · exact .refl Label.Told.refl session
  split
  · exact .refl Label.Told.refl session
  split
  · exact .refl Label.Told.refl session
  split
  · exact .refl Label.Told.refl session
  · refine .modifyLabel Label.Told.refl session _ _ fun label _ => ?_
    refine ⟨label.kind, _, rfl, fun a ha => ?_, fun _ htop => htop⟩
    exact Std.TreeSet.mem_insert.mpr (.inr ha)

theorem revised_promoteReturning (session : Session) (id : LabelId) :
    session.Revised Label.Told (session.promoteReturning id) := by
  unfold promoteReturning
  split
  · exact .refl Label.Told.refl session
  split
  · refine ⟨rfl, .modify Label.Told.refl session.labels id _ fun label _ => ?_⟩
    exact ⟨.subroutine, label.references, rfl, fun _ ha => ha, fun _ _ => rfl⟩
  · exact .refl Label.Told.refl session

theorem told_demote (members : Addresses) (label : Label) : label.Told (demote members label) := by
  unfold demote
  split
  · next h =>
    refine ⟨localKind label, label.references, rfl, fun _ ha => ha, fun hfixed _ => ?_⟩
    simp [hfixed] at h
  · exact .refl label

theorem revised_localizeWithin (session : Session) (id : LabelId) :
    session.Revised Label.Told (session.localizeWithin id) := by
  unfold localizeWithin
  split
  · exact .refl Label.Told.refl session
  split
  · exact .refl Label.Told.refl session
  · refine ⟨rfl, ?_⟩
    refine List.foldlRecOn (motive := fun labels => session.labels.Revised Label.Told labels) _ _
      (.refl Label.Told.refl session.labels) ?_
    intro labels hlabels a _
    exact hlabels.trans Label.Told.trans (.modifyAt Label.Told.refl labels a _ (told_demote _))

-- The passes from the labels in their places up to the distribution of the code.
theorem revised_localize (session : Session) :
    session.Revised Label.Told session.linkFlowThroughs.promoteSubroutines.localize := by
  have hflow : session.Revised Label.Told session.linkFlowThroughs :=
    .foldl Label.Told.refl Label.Told.trans session linkFlowThrough session.labels.ids
      fun current id _ => current.revised_linkFlowThrough id
  have hpromote : ∀ session : Session, session.Revised Label.Told session.promoteSubroutines :=
    fun session => .foldl Label.Told.refl Label.Told.trans session promoteReturning
      session.labels.ids fun current id _ => current.revised_promoteReturning id
  have hlocal : ∀ session : Session, session.Revised Label.Told session.localize :=
    fun session => .foldl Label.Told.refl Label.Told.trans session localizeWithin
      session.labels.ids fun current id _ => current.revised_localizeWithin id
  exact (hflow.trans Label.Told.trans (hpromote _)).trans Label.Told.trans (hlocal _)

end Telling

theorem claimAll_eq (session : Session) :
    session.claimAll = { session with owners := session.claimAll.owners } := by
  refine List.foldlRecOn
    (motive := fun current : Session => current = { session with owners := current.owners })
    session.labels.ids claimFor rfl ?_
  intro current hcurrent id _
  unfold claimFor
  split
  · split
    · rw [claim, hcurrent]
    · exact hcurrent
  · exact hcurrent

-- A reference by a call survives, also that of a label to itself.
theorem revised_dropInnerReferences (session : Session) (id : LabelId) :
    session.Revised (Label.Trimmed fun r => (session.instructionAt r).flow.call)
      (session.dropInnerReferences id) := by
  have hrefl := Label.Trimmed.refl fun r => (session.instructionAt r).flow.call
  unfold dropInnerReferences
  split
  · exact .refl hrefl session
  · next label hlabel =>
    have hmodify := Revised.modifyLabel hrefl session id
      ({ · with references := label.references.filter fun r => !session.isInnerReference id r })
      fun other hother => by
        rw [hlabel] at hother
        cases hother
        refine ⟨_, rfl, fun a ha hcall => ?_⟩
        rw [Std.TreeSet.mem_filter]
        exact ⟨ha, by simp [isInnerReference, hcall]⟩
    dsimp only
    split
    · exact ⟨hmodify.ground, hmodify.labels⟩
    · exact hmodify

theorem revised_dropAll (session : Session) (ids : List LabelId) :
    session.Revised (Label.Trimmed fun r => (session.instructionAt r).flow.call)
      (ids.foldl dropInnerReferences session) := by
  refine .foldl (Label.Trimmed.refl _) (Label.Trimmed.trans _) session dropInnerReferences ids ?_
  intro current id hground
  have hstep := current.revised_dropInnerReferences id
  simp only [instructionAt_of_ground hground] at hstep
  exact hstep

theorem revised_linkCallers (session : Session) (id : LabelId) :
    session.Revised Label.Recalled (session.linkCallers id) := by
  unfold linkCallers
  split
  · exact .refl Label.Recalled.refl session
  split
  · exact .refl Label.Recalled.refl session
  · refine .foldl Label.Recalled.refl Label.Recalled.trans session _ _ fun current caller _ => ?_
    exact .modifyLabel Label.Recalled.refl current caller _ fun _ _ => ⟨_, rfl⟩

theorem revised_linkCalls (session : Session) :
    session.Revised Label.Recalled session.linkCalls :=
  .foldl Label.Recalled.refl Label.Recalled.trans session linkCallers session.labels.ids
    fun current id _ => current.revised_linkCallers id

section Naming

theorem revised_nameLabel (session : Session) (id : LabelId) (name : String) :
    session.Revised Label.Renamed (session.nameLabel id name) :=
  .modifyLabel Label.Renamed.refl session id _ fun _ _ => ⟨_, rfl⟩

-- A pass that names one label after the other.
theorem revised_foldl_nameLabel {α : Type} (session : Session) (step : Session → α → Session)
    (xs : List α)
    (hstep : ∀ (current : Session) (x : α), ∃ id name, step current x = current.nameLabel id name) :
    session.Revised Label.Renamed (xs.foldl step session) := by
  refine .foldl Label.Renamed.refl Label.Renamed.trans session step xs fun current x _ => ?_
  obtain ⟨id, name, heq⟩ := hstep current x
  rw [heq]
  exact current.revised_nameLabel id name

theorem revised_nameNumbered (session : Session) (category : NameCategory) :
    session.Revised Label.Renamed (session.nameNumbered category) :=
  revised_foldl_nameLabel session _ _ fun _ _ => ⟨_, _, rfl⟩

theorem revised_nameRestarts (session : Session) :
    session.Revised Label.Renamed session.nameRestarts :=
  revised_foldl_nameLabel session _ _ fun _ _ => ⟨_, _, rfl⟩

theorem revised_nameLocals (session : Session) (kind : Kind) (suffix : String) :
    session.Revised Label.Renamed (session.nameLocals kind suffix) := by
  refine .foldl Label.Renamed.refl Label.Renamed.trans session _ _ fun current owner _ => ?_
  exact revised_foldl_nameLabel current _ _ fun _ _ => ⟨_, _, rfl⟩

theorem revised_nameByFunction (session : Session) (nameOf : Address → String) :
    session.Revised Label.Renamed (session.nameByFunction nameOf) := by
  refine .foldl Label.Renamed.refl Label.Renamed.trans session _ _ fun current label _ => ?_
  exact .modifyLabel Label.Renamed.refl current label.id _ fun _ _ => ⟨_, rfl⟩

theorem revised_nameLabels (session : Session) :
    session.Revised Label.Renamed session.nameLabels := by
  unfold nameLabels
  split
  · exact session.revised_nameByFunction _
  · dsimp only
    have htrans := Label.Renamed.trans
    exact ((((((session.revised_nameNumbered .subroutine).trans htrans
      (revised_nameNumbered _ .label)).trans htrans
      (revised_nameNumbered _ .data)).trans htrans
      (revised_nameNumbered _ .selfModifying)).trans htrans
      (revised_nameRestarts _)).trans htrans
      (revised_nameLocals _ _ _)).trans htrans
      (revised_nameLocals _ _ _)

theorem revised_countStatistics (session : Session) :
    session.Revised Label.Renamed session.countStatistics := by
  refine .foldl Label.Renamed.refl Label.Renamed.trans session countLabel _ fun current id _ => ?_
  have hrefl := Revised.refl Label.Renamed.refl current
  unfold countLabel
  split
  · exact hrefl
  split
  · exact hrefl
  split
  · exact ⟨rfl, hrefl.labels⟩
  · exact ⟨rfl, hrefl.labels⟩

theorem revised_commentLabels (session : Session) :
    session.Revised Label.Renamed session.commentLabels := by
  refine .foldl Label.Renamed.refl Label.Renamed.trans session commentLabel _ fun current id _ => ?_
  have hrefl := Revised.refl Label.Renamed.refl current
  unfold commentLabel
  split
  · exact hrefl
  split
  · exact hrefl
  split
  · exact ⟨rfl, hrefl.labels⟩
  · exact hrefl

end Naming

def located (session : Session) : Session :=
  session.enqueueStart.collect.noteLabels.labelInterrupts.labelStarts.relocate

def told (session : Session) : Session :=
  session.located.linkFlowThroughs.promoteSubroutines.localize

theorem classify_eq (session : Session) :
    session.classify = session.told.assignOwners.linkCalls.countStatistics := rfl

-- From the listed calls on, labels only get their names.
theorem revised_analyse (session : Session) :
    (session.told.assignOwners.linkCalls).Revised Label.Renamed session.analyse := by
  have hcount := session.told.assignOwners.linkCalls.revised_countStatistics
  rw [← classify_eq] at hcount
  have hname := hcount.trans Label.Renamed.trans session.classify.revised_nameLabels
  unfold analyse
  dsimp only
  split
  · exact hname
  · exact hname.trans Label.Renamed.trans (revised_commentLabels _)

structure Kept (session other : Session) : Prop where
  memory : other.memory = session.memory
  decoder : other.decoder = session.decoder
  config : other.config = session.config
  labels : session.labels.Revised Label.SamePlace other.labels

theorem Kept.trans {session other third : Session} (h : session.Kept other) (h' : other.Kept third) :
    session.Kept third :=
  ⟨h'.memory.trans h.memory, h'.decoder.trans h.decoder, h'.config.trans h.config,
    h.labels.trans Label.SamePlace.trans h'.labels⟩

theorem Revised.kept {keep : Label → Label → Prop} {session other : Session}
    (h : session.Revised keep other) (hplace : ∀ l m, keep l m → l.SamePlace m) :
    session.Kept other :=
  ⟨congrArg Ground.memory h.ground, congrArg Ground.decoder h.ground,
    config_of_ground h.ground, h.labels.mono hplace⟩

theorem kept_claimAll (session : Session) : session.Kept session.claimAll := by
  rw [claimAll_eq]
  exact ⟨rfl, rfl, rfl, .refl Label.SamePlace.refl session.labels⟩

theorem kept_analyse (session : Session) : session.located.Kept session.analyse := by
  have htold : session.located.Kept session.told :=
    session.located.revised_localize.kept Label.Told.samePlace
  have howned : session.told.Kept session.told.assignOwners :=
    session.told.kept_claimAll.trans
      ((session.told.claimAll.revised_dropAll _).kept (Label.Trimmed.samePlace _))
  have hcalled := session.told.assignOwners.revised_linkCalls.kept Label.Recalled.samePlace
  exact ((htold.trans howned).trans hcalled).trans
    (session.revised_analyse.kept Label.Renamed.samePlace)

end Session

end Z80Atlas
