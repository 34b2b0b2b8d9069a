import Z80Atlas.Proofs.Analysis.CallList
import Z80Atlas.Proofs.Analysis.Location
import Z80Atlas.Proofs.Analysis.Ownership
import Z80Atlas.Proofs.Discovery.Reachability

namespace Z80Atlas

namespace Session

-- The analysis starts from fixed jump labels only: every waiting address has one.
structure Seeded (session : Session) : Prop where
  labelled : session.Labelled
  fixed : ∀ a label, session.labels.at? a = some label → label.isFixed ∧ label.kind = .label
  waiting : ∀ q ∈ session.queue.toList, ∃ label, session.labels.at? q = some label

theorem queue_fixLabel (session : Session) (t : Address) (name : Option String) :
    (session.fixLabel t name).queue.toList =
      session.queue.toList ++ if session.memory.isAssigned t then [t] else [] := by
  unfold fixLabel
  cases session.labels.idAt? t with
  | some id => by_cases h : session.memory.isAssigned t <;> simp [h, enqueue]
  | none => by_cases h : session.memory.isAssigned t <;> simp [h, enqueue]

theorem Seeded.enqueue {session : Session} (h : session.Seeded) {q : Address} {label : Label}
    (hat : session.labels.at? q = some label) : (session.enqueue q).Seeded := by
  refine ⟨(h.labelled.enriched_enqueue q).labelled, h.fixed, ?_⟩
  intro a ha
  rw [Session.enqueue, AddressQueue.toList_push, List.mem_append, List.mem_singleton] at ha
  rcases ha with ha | rfl
  · exact h.waiting a ha
  · exact ⟨label, hat⟩

theorem Seeded.fixLabel {session : Session} (h : session.Seeded) (t : Address)
    (name : Option String) : (session.fixLabel t name).Seeded := by
  have hplaced := session.placed_fixLabel h.labelled.wellFormed t name
  have henriched := h.labelled.enriched_fixLabel t name
  have hkind : (session.fixedLabel t name).kind = .label := by
    cases hat : session.labels.at? t with
    | some label =>
        rw [fixedLabel, labelOr_of_some hat]
        exact (h.fixed t label hat).2
    | none => rw [fixedLabel, labelOr_of_none hat]
  refine ⟨henriched.labelled, ?_, ?_⟩
  · intro a label hat
    by_cases ha : t = a
    · subst ha
      rw [hplaced.at?_self] at hat
      cases hat
      exact ⟨rfl, hkind⟩
    · rw [hplaced.at?_of_ne ha] at hat
      exact h.fixed a label hat
  · intro q hq
    rw [queue_fixLabel, List.mem_append] at hq
    rcases hq with hq | hq
    · obtain ⟨label, hat⟩ := h.waiting q hq
      obtain ⟨new, hnew, -⟩ := henriched.grows q label hat
      exact ⟨new, hnew⟩
    · split at hq
      · rw [List.mem_singleton.mp hq]
        exact ⟨_, hplaced.at?_self⟩
      · cases hq

theorem Seeded.enqueueStart {session : Session} (h : session.Seeded)
    (hsnapshot : session.snapshotStart = none) : session.enqueueStart.Seeded := by
  unfold Session.enqueueStart
  split
  · exact h
  split
  · next start hstart =>
    rw [hsnapshot] at hstart
    cases hstart
  split
  · exact h
  dsimp only
  split
  · next hlabel =>
    obtain ⟨label, hat⟩ := Option.isSome_iff_exists.mp hlabel
    have hplaced := session.placed_modifyAt h.labelled.wellFormed hat ({ · with kind := .label })
      fun _ => ⟨rfl, rfl⟩
    have hlabelled := hplaced.labelled h.labelled (h.labelled.isEqu_eq 0 label hat) rfl
      (h.labelled.uncalled 0 label hat)
    refine Seeded.enqueue ⟨hlabelled, ?_, ?_⟩ hplaced.at?_self
    · intro a other hother
      by_cases ha : 0 = a
      · subst ha
        rw [hplaced.at?_self] at hother
        cases hother
        exact ⟨(h.fixed 0 label hat).1, rfl⟩
      · rw [hplaced.at?_of_ne ha] at hother
        exact h.fixed a other hother
    · intro q hq
      obtain ⟨other, hother⟩ := h.waiting q hq
      by_cases ha : 0 = q
      · subst ha
        exact ⟨_, hplaced.at?_self⟩
      · exact ⟨other, by rw [hplaced.at?_of_ne ha, hother]⟩
  · exact (h.fixLabel 0 _).enqueue (session.placed_fixLabel h.labelled.wellFormed 0 _).at?_self

theorem seeded_prepared (session : Session) (hlabels : session.labels = .empty)
    (hqueue : session.queue.toList = []) (blocks : List (Address × List UInt8))
    (seeds : List Seed) (hseeds : ∀ seed ∈ seeds, ∃ a name, seed = .fixed a name) :
    (session.prepared blocks seeds).Seeded := by
  unfold prepared
  refine List.foldlRecOn (motive := Seeded) _ plant ?_ ?_
  · have hempty : (session.loadAll blocks).labels = .empty := by
      rw [loadAll_eq, hlabels]
    refine ⟨labelled_of_empty hempty, ?_, ?_⟩
    · intro a label hat
      rw [hempty] at hat
      cases hat
    · intro q hq
      rw [loadAll_eq, hqueue] at hq
      cases hq
  · intro current hcurrent seed hseed
    obtain ⟨a, name, rfl⟩ := hseeds seed hseed
    exact hcurrent.fixLabel a name

theorem isTopLevel_of_rank {kind : Kind} (hmoves : isRelocatable kind)
    (hrank : Kind.label.rank ≤ kind.rank) : kind.isTopLevel := by
  revert hmoves hrank
  cases kind <;> decide

-- The label for `t` stands at `x`: at `t` itself or at the beginning of the instruction around it.
def StandsFor (session : Session) (x t : Address) : Prop :=
  x = t ∨ (session.memory.isFirst x ∧ t ∈ session.extent x)

theorem StandsFor.eq_of_not_inside {session : Session} {x t : Address}
    (h : session.StandsFor x t) (htiled : session.Tiled) (hout : ¬session.Inside t) : x = t := by
  rcases h with heq | ⟨hfx, htx⟩
  · exact heq
  · have hcode := htiled.code_of_extent x hfx t htx
    by_cases hft : session.memory.isFirst t
    · exact (htiled.first_of_extent x hfx t htx hft).symm
    · exact absurd ⟨hcode, hft⟩ hout

namespace Ready

variable {session : Session}

theorem ground_told (h : session.Ready) : session.told.ground = session.found.ground :=
  session.located.revised_localize.ground.trans h.ground_located

theorem wellFormed_told (h : session.Ready) : session.told.labels.WellFormed := by
  refine session.located.revised_localize.labels.wellFormed ?_ h.gathered_located.labelled.wellFormed
  intro l m htold
  have hplace := Label.Told.samePlace l m htold
  exact ⟨hplace.id, hplace.address⟩

theorem inside_entered (h : session.Ready) (a : Address) :
    session.entered.Inside a ↔ session.found.Inside a := by
  rw [Inside, Inside, memory_of_ground h.enriched_entered.1.ground]

-- A fixed jump label that is not inside an instruction stays a top-level label.
theorem headed_told (h : session.Ready) (hseeded : session.enqueueStart.Seeded) {q : Address}
    {label : Label} (hlabel : session.enqueueStart.labels.at? q = some label)
    (hinside : ¬session.found.Inside q) : session.told.Headed q := by
  have hout : ¬session.entered.Inside q := by
    rw [h.inside_entered]
    exact hinside
  obtain ⟨hfixed, hkind⟩ := hseeded.fixed q label hlabel
  have hgrows : session.enqueueStart.GrowsAt session.located q :=
    ((h.enqueueStart.labelled.growsAt_collect h.enqueueStart.readsBytes
      h.enqueueStart.unclassified q).trans (h.enriched_entered.1.grows q)).trans
      (h.gathered_located.grows q hout)
  obtain ⟨old, hold, hgrown⟩ := hgrows label hlabel
  have htop : old.kind.isTopLevel := by
    refine isTopLevel_of_rank (h.gathered_located.labelled.relocatable q old hold) ?_
    rw [← hkind]
    exact hgrown.rank_le
  obtain ⟨new, hnew, kind, references, rfl, -, hkeep⟩ :=
    session.located.revised_localize.labels.exists_at? hold
  exact ⟨_, hnew, hkeep (hgrown.isFixed hfixed) htop⟩

-- Each instruction that was found is reached from a top-level label, the nearest one on the way that
-- led to it.
theorem exists_governs (h : session.Ready) (hseeded : session.enqueueStart.Seeded) {f : Address}
    (hf : session.found.memory.isFirst f) :
    ∃ label ∈ session.told.labels.live, label.kind.isTopLevel ∧ session.told.Governs label f := by
  have hmemory := memory_of_ground h.ground_told
  have hinstruction : ∀ a, session.told.instructionAt a = session.enqueueStart.instructionAt a := by
    intro a
    rw [instructionAt_of_ground h.ground_told]
    exact (sameProgram_collect session.enqueueStart).instructionAt_eq h.enqueueStart.readsBytes a
  have hassigned : ∀ a, session.found.memory.isFirst a → session.told.memory.isAssigned a := by
    intro a ha
    rw [hmemory]
    exact h.tiled_found.assigned_of_code a (h.tiled_found.code_of_first a ha)
  -- a top-level label reaches its own address
  have hown : ∀ a, session.found.memory.isFirst a → session.told.Headed a →
      ∃ label ∈ session.told.labels.live, label.kind.isTopLevel ∧ session.told.Governs label a := by
    rintro a ha ⟨label, hat, htop⟩
    have haddress := h.wellFormed_told.address_eq hat
    have hgoverns : session.told.Governs label label.address := .own (by
      rw [haddress]
      exact hassigned a ha)
    rw [haddress] at hgoverns
    exact ⟨label, h.wellFormed_told.mem_live_of_at? hat, htop, hgoverns⟩
  have hexplored : Search.Explored session.enqueueStart
      {q | q ∈ session.enqueueStart.queue.toList} ⟨session.found, none⟩ :=
    Search.explored_collect session.enqueueStart h.enqueueStart.readsBytes
      h.enqueueStart.unclassified session.enqueueStart.queue fun _ => Iff.rfl
  have hreach := hexplored.reached f hf
  clear hf
  induction hreach with
  | seed a hseed hfirst =>
      obtain ⟨label, hlabel⟩ := hseeded.waiting a hseed
      exact hown a hfirst (h.headed_told hseeded hlabel fun hin => hin.2 hfirst)
  | follow a b hreach hleads hfirst ih =>
      by_cases hhead : session.told.Headed b
      · exact hown b hfirst hhead
      · obtain ⟨label, hlive, htop, hgoverns⟩ := ih
        have hflows : session.told.Flows a b := by
          rw [Flows, hinstruction]
          exact hleads.imp_right fun hbranch => hbranch.1
        exact ⟨label, hlive, htop, .flow a b hgoverns hflows (hassigned b hfirst) (.inr hhead)⟩

-- The search leaves a label at the target of a branch, and the label knows the branch.
theorem exists_label_of_target (h : session.Ready) {r t : Address}
    (hr : session.found.memory.isFirst r)
    (htarget : (session.found.instructionAt r).target? = some t) :
    ∃ label, session.found.labels.at? t = some label ∧ (r ≠ t → r ∈ label.references) := by
  have hready := h.enqueueStart
  have hdesignates : session.enqueueStart.Designates r t := by
    have hsame := (sameProgram_collect session.enqueueStart).instructionAt_eq hready.readsBytes r
    change session.found.instructionAt r = _ at hsame
    rw [hsame] at htarget
    rw [Designates, Instruction.designated?, htarget]
  have hsource : r ∈ session.enqueueStart.sources session.found t := ⟨hr, hdesignates⟩
  have haccounted := (session.enqueueStart.crossReferenced_collect hready.readsBytes
    hready.unclassified hready.labelled.wellFormed session.enqueueStart.queue).accounted t
  obtain ⟨label, hat⟩ : ∃ label, session.found.labels.at? t = some label := by
    rw [← Option.isSome_iff_exists]
    exact haccounted.isSome_iff.mpr (.inr ⟨r, hsource⟩)
  have hexplains := hready.labelled.explains_collect hready.readsBytes hready.unclassified hat
  exact ⟨label, hat, fun hrt => (hexplains.mem_references_iff r).mpr (.inr ⟨hsource, hrt⟩)⟩

-- The label for the target of a branch knows the branch, wherever it stands.
theorem mem_references_located (h : session.Ready) {r t x : Address} {label : Label}
    (hr : session.found.memory.isFirst r) (htarget : (session.found.instructionAt r).target? = some t)
    (hx : session.found.StandsFor x t) (hne : x ≠ r)
    (hat : session.located.labels.at? x = some label) : r ∈ label.references := by
  have hentered := h.enriched_entered.1
  have hgathered := h.gathered_located
  obtain ⟨first, hfirst, hknown⟩ := h.exists_label_of_target hr htarget
  obtain ⟨second, hsecond, hgrows⟩ := hentered.grows t first hfirst
  by_cases hin : session.found.Inside t
  · rcases hx with rfl | ⟨hfx, htx⟩
    · exact absurd (hgathered.inner x label ((h.inside_entered x).mpr hin) hat) List.not_mem_nil
    · have hrt : r ≠ t := by
        rintro rfl
        exact hin.2 hr
      have haddress := hentered.labelled.wellFormed.address_eq hsecond
      obtain ⟨new, hnew, hcarried⟩ := hgathered.carried second (by rw [haddress, hsecond])
        (by rw [haddress]; exact (h.inside_entered t).mpr hin) List.not_mem_nil x
        (by rw [memory_of_ground hentered.ground]; exact hfx) (by
          rw [haddress, extent, instructionAt_of_ground hentered.ground]
          exact htx)
      rw [hat] at hnew
      cases hnew
      exact hcarried r (hgrows.references r (hknown hrt)) hne.symm
  · rw [hx.eq_of_not_inside h.tiled_found hin] at hat hne
    obtain ⟨new, hnew, hgrows'⟩ := hgathered.grows t (mt (h.inside_entered t).mp hin) second hsecond
    rw [hat] at hnew
    cases hnew
    exact hgrows'.references r (hgrows.references r (hknown hne.symm))

end Ready

end Session

structure Label.Survives (needed : Address → Prop) (old new : Label) : Prop where
  id : new.id = old.id
  address : new.address = old.address
  kind : new.kind = old.kind
  references : ∀ a ∈ old.references, needed a → a ∈ new.references

theorem Label.Survives.trans (needed : Address → Prop) (l m n : Label) (h : l.Survives needed m)
    (h' : m.Survives needed n) : l.Survives needed n where
  id := h'.id.trans h.id
  address := h'.address.trans h.address
  kind := h'.kind.trans h.kind
  references a ha hneeded := h'.references a (h.references a ha hneeded) hneeded

theorem Search.Step.owners_eq {search next : Search} (h : Search.Step search next) :
    next.session.owners = search.session.owners := by
  cases h with
  | take session address queue hpop => rfl
  | leave session address journal hobstacle => rfl
  | find session address hfresh =>
      dsimp only
      rw [Session.accept_eq]

namespace Session

theorem owners_collect (session : Session) : session.collect.owners = session.owners := by
  refine (Search.run_collect session).keeps (P := fun x => x.session.owners = session.owners) ?_ rfl
  intro x y hstep hx
  exact hstep.owners_eq.trans hx

theorem revised_assignOwners (session : Session) :
    session.claimAll.Revised (Label.Trimmed fun r => (session.claimAll.instructionAt r).flow.call)
      session.assignOwners :=
  session.claimAll.revised_dropAll session.claimAll.labels.ids

theorem survives_analyse (session : Session) :
    session.told.claimAll.Revised
      (Label.Survives fun r => (session.told.claimAll.instructionAt r).flow.call)
      session.analyse := by
  have htrans := Label.Survives.trans fun r => (session.told.claimAll.instructionAt r).flow.call
  refine (session.told.revised_assignOwners.mono ?_).trans htrans
    ((session.told.assignOwners.revised_linkCalls.mono ?_).trans htrans
      (session.revised_analyse.mono ?_))
  · rintro l m ⟨references, rfl, hkept⟩
    exact ⟨rfl, rfl, rfl, hkept⟩
  · rintro l m ⟨calls, rfl⟩
    exact ⟨rfl, rfl, rfl, fun _ ha _ => ha⟩
  · rintro l m ⟨name, rfl⟩
    exact ⟨rfl, rfl, rfl, fun _ ha _ => ha⟩

theorem ground_claimAll (session : Session) :
    session.claimAll.memory = session.memory ∧ session.claimAll.decoder = session.decoder ∧
      session.claimAll.labels = session.labels := by
  rw [claimAll_eq]
  exact ⟨rfl, rfl, rfl⟩

namespace Ready

variable {session : Session}

theorem wellFormed_analyse (h : session.Ready) : session.analyse.labels.WellFormed := by
  refine session.survives_analyse.labels.wellFormed (fun l m hl => ⟨hl.id, hl.address⟩) ?_
  rw [session.told.ground_claimAll.2.2]
  exact h.wellFormed_told

theorem instructionAt_analyse (h : session.Ready) (a : Address) :
    session.analyse.instructionAt a = session.found.instructionAt a := by
  rw [instructionAt, h.kept_located.1, h.kept_located.2, instructionAt]

-- Every instruction that was found belongs to a live top-level label.
theorem exists_owner (h : session.Ready) (hseeded : session.enqueueStart.Seeded)
    (hunowned : ∀ a, session.owners.get a = none) {f : Address}
    (hf : session.analyse.memory.isFirst f) :
    ∃ owner ∈ session.analyse.labels.live, owner.kind.isTopLevel ∧
      session.analyse.owners.get f = some owner.id := by
  have hfree : ∀ a, session.told.owners.get a = none := by
    intro a
    rw [owners_of_ground h.ground_told, found, owners_collect,
      owners_of_ground h.labelled.enqueueStart.1]
    exact hunowned a
  rw [h.kept_located.1] at hf
  obtain ⟨label, hlive, htop, hgoverns⟩ := h.exists_governs hseeded hf
  obtain ⟨owners, hclaim, hdivided⟩ := session.told.divided_claimAll h.wellFormed_told hfree
  have howners : session.analyse.owners = owners := by
    rw [owners_of_ground session.survives_analyse.ground, hclaim]
  cases hget : owners.get f with
  | none => exact absurd hgoverns (hdivided.unowned f hget label hlive htop)
  | some id =>
      obtain ⟨first, hfirst, rfl, hfirsttop, -, -⟩ := hdivided.owned f id hget
      have hat := (h.wellFormed_told.mem_live first).mp hfirst
      rw [← session.told.ground_claimAll.2.2] at hat
      obtain ⟨owner, howner, hsurvives⟩ := session.survives_analyse.labels.exists_at? hat
      refine ⟨owner, h.wellFormed_analyse.mem_live_of_at? howner, ?_, ?_⟩
      · rw [hsurvives.kind]
        exact hfirsttop
      · rw [howners, hget, hsurvives.id]

theorem mem_references_analyse (h : session.Ready) {r t : Address} {callee : Label}
    (hr : session.analyse.memory.isFirst r) (hcall : (session.analyse.instructionAt r).flow.call)
    (htarget : (session.analyse.instructionAt r).target? = some t)
    (hstands : session.analyse.StandsFor callee.address t) (hne : callee.address ≠ r)
    (hcallee : callee ∈ session.analyse.labels.live) : r ∈ callee.references := by
  have hat := (h.wellFormed_analyse.mem_live callee).mp hcallee
  obtain ⟨told, htold, hsurvives⟩ := session.survives_analyse.labels.exists_before hat
  rw [session.told.ground_claimAll.2.2] at htold
  obtain ⟨located, hlocated, kind, references, rfl, hreferences, -⟩ :=
    session.located.revised_localize.labels.exists_before htold
  have hknown : r ∈ located.references := by
    rw [h.kept_located.1] at hr
    rw [h.instructionAt_analyse] at htarget
    rw [StandsFor, extent, h.kept_located.1, h.instructionAt_analyse] at hstands
    exact h.mem_references_located hr htarget hstands hne hlocated
  refine hsurvives.references r (hreferences r hknown) ?_
  rw [instructionAt, session.told.ground_claimAll.1, session.told.ground_claimAll.2.1,
    ← instructionAt, instructionAt_of_ground h.ground_told, ← h.instructionAt_analyse]
  exact hcall

-- Before calls are listed, there are none.
theorem uncalled_assignOwners (h : session.Ready) {a : Address} {label : Label}
    (hat : session.told.assignOwners.labels.at? a = some label) : label.calls = #[] := by
  obtain ⟨claimed, hclaimed, references, rfl, -⟩ :=
    session.told.revised_assignOwners.labels.exists_before hat
  rw [session.told.ground_claimAll.2.2] at hclaimed
  obtain ⟨located, hlocated, kind, all, rfl, -, -⟩ :=
    session.located.revised_localize.labels.exists_before hclaimed
  exact h.gathered_located.labelled.uncalled a located hlocated

theorem wellFormed_assignOwners (h : session.Ready) :
    session.told.assignOwners.labels.WellFormed := by
  refine session.told.revised_assignOwners.labels.wellFormed ?_ ?_
  · rintro l m ⟨references, rfl, -⟩
    exact ⟨rfl, rfl⟩
  · rw [session.told.ground_claimAll.2.2]
    exact h.wellFormed_told

theorem calls_analyse (h : session.Ready) {caller : Label}
    (hcaller : caller ∈ session.analyse.labels.live) :
    caller.calls.toList = session.analyse.labels.ids.flatMap fun callee =>
      List.replicate (session.analyse.callCount callee caller.id) callee := by
  have hat := (h.wellFormed_analyse.mem_live caller).mp hcaller
  obtain ⟨called, hcalled, hnamed⟩ := session.revised_analyse.labels.exists_before hat
  obtain ⟨old, hold, hlisted⟩ :=
    session.told.assignOwners.revised_linkCalls.labels.exists_before hcalled
  have hid : caller.id = old.id :=
    (Label.Renamed.samePlace _ _ hnamed).id.trans (Label.Recalled.samePlace _ _ hlisted).id
  have hget := h.wellFormed_assignOwners.get?_of_at? hold
  rw [← hid] at hget
  exact calls_linkCalls session.revised_analyse hget (h.uncalled_assignOwners hold)
    (h.wellFormed_analyse.get?_of_at? hat)

theorem callCount_eq (h : session.Ready) (caller : LabelId) {callee : Label}
    (hcallee : callee ∈ session.analyse.labels.live) (htop : callee.kind.isTopLevel) :
    session.analyse.callCount callee.id caller =
      callee.references.toList.countP fun r => session.analyse.owners.get r == some caller := by
  have hget := h.wellFormed_analyse.get?_of_at? ((h.wellFormed_analyse.mem_live callee).mp hcallee)
  rw [callCount, hget]
  dsimp only
  rw [if_pos htop, List.count_filterMap]

theorem count_calls (h : session.Ready) {caller callee : Label}
    (hcaller : caller ∈ session.analyse.labels.live)
    (hcallee : callee ∈ session.analyse.labels.live) (htop : callee.kind.isTopLevel) :
    caller.calls.toList.count callee.id =
      callee.references.toList.countP fun r => session.analyse.owners.get r == some caller.id := by
  have hwf := h.wellFormed_analyse
  have hid : callee.id ∈ session.analyse.labels.ids :=
    (session.analyse.labels.mem_ids callee.id).mpr
      ⟨callee.address, hwf.id_eq ((hwf.mem_live callee).mp hcallee)⟩
  rw [h.calls_analyse hcaller, count_flatMap_replicate _ hwf.nodup_ids, if_pos hid,
    h.callCount_eq caller.id hcallee htop]

-- Whatever is listed as called is a top-level label that the caller refers to.
theorem exists_reference_of_mem_calls (h : session.Ready) {caller : Label} {id : LabelId}
    (hcaller : caller ∈ session.analyse.labels.live) (hid : id ∈ caller.calls) :
    ∃ callee ∈ session.analyse.labels.live, callee.id = id ∧ callee.kind.isTopLevel ∧
      ∃ r ∈ callee.references, session.analyse.owners.get r = some caller.id := by
  rw [← Array.mem_toList_iff, h.calls_analyse hcaller, List.mem_flatMap] at hid
  obtain ⟨number, hnumber, hmem⟩ := hid
  obtain ⟨hcount, rfl⟩ := List.mem_replicate.mp hmem
  obtain ⟨address, haddress⟩ := (session.analyse.labels.mem_ids id).mp hnumber
  obtain ⟨callee, hat, rfl, -⟩ := h.wellFormed_analyse.exists_at? haddress
  have hlive := h.wellFormed_analyse.mem_live_of_at? hat
  have htop : callee.kind.isTopLevel := by
    by_contra hlow
    rw [callCount, h.wellFormed_analyse.get?_of_at? hat] at hcount
    simp [hlow] at hcount
  rw [h.callCount_eq caller.id hlive htop] at hcount
  obtain ⟨r, hr, howner⟩ := List.countP_pos_iff.mp (Nat.pos_of_ne_zero hcount)
  exact ⟨callee, hlive, rfl, htop, r, Std.TreeSet.mem_toList.mp hr, beq_iff_eq.mp howner⟩

end Ready

theorem ready_fixed (config : Config) (blocks : List (Address × List UInt8)) (seeds : List Seed)
    (hseeds : ∀ seed ∈ seeds, ∃ a name, seed = .fixed a name) :
    let session := ({ config } : Session).prepared blocks seeds
    session.Ready ∧ session.enqueueStart.Seeded ∧ ∀ a, session.owners.get a = none := by
  intro session
  have hready : session.Ready :=
    ready_prepared { config } rfl Memory.unclassified_empty rfl blocks seeds
  have hground := ({ config } : Session).ground_prepared rfl blocks seeds
  have hsnapshot : session.snapshotStart = none := congrArg Ground.snapshotStart hground
  exact ⟨hready, (seeded_prepared _ rfl rfl blocks seeds hseeds).enqueueStart hsnapshot,
    unowned_prepared { config } rfl blocks seeds rfl⟩

theorem ready_entries (denied : List Address) (blocks : List (Address × List UInt8))
    (entries : List Address) :
    let session := ({ config := { deniedRestarts := denied } } : Session).prepared blocks
      (entries.map (.fixed · none))
    session.Ready ∧ session.enqueueStart.Seeded ∧ ∀ a, session.owners.get a = none :=
  ready_fixed { deniedRestarts := denied } blocks _ (by simp)

-- No call is missing. After the analysis of a program from fixed entries, every instruction belongs to
-- a live top-level label. A call whose target has a top-level label, other than a call into the calling
-- instruction itself, is listed among the calls of its owner, and the calls of a label are its
-- references to top-level labels, one for one.
theorem disassemble_lists_calls (denied : List Address) (blocks : List (Address × List UInt8))
    (entries : List Address) :
    let session := (({ config := { deniedRestarts := denied } } : Session).prepared blocks
      (entries.map (.fixed · none))).disassemble
    (∀ f, session.memory.isFirst f → ∃ owner ∈ session.labels.live, owner.kind.isTopLevel ∧
      session.owners.get f = some owner.id) ∧
    (∀ r t, session.memory.isFirst r → (session.instructionAt r).flow.call →
      (session.instructionAt r).target? = some t →
      ∀ callee ∈ session.labels.live, session.StandsFor callee.address t →
        callee.kind.isTopLevel → callee.address ≠ r →
        ∀ caller ∈ session.labels.live, session.owners.get r = some caller.id →
          callee.id ∈ caller.calls) ∧
    (∀ caller ∈ session.labels.live, ∀ id ∈ caller.calls,
      ∃ callee ∈ session.labels.live, callee.id = id ∧ callee.kind.isTopLevel ∧
        ∃ r ∈ callee.references, session.owners.get r = some caller.id) ∧
    ∀ caller ∈ session.labels.live, ∀ callee ∈ session.labels.live, callee.kind.isTopLevel →
      caller.calls.toList.count callee.id =
        callee.references.toList.countP fun r => session.owners.get r == some caller.id := by
  intro session
  obtain ⟨hready, hseeded, hunowned⟩ := ready_entries denied blocks entries
  have hlabels := labels_disassemble (({ config := { deniedRestarts := denied } } : Session).prepared
    blocks (entries.map (.fixed · none)))
  have hground := ground_disassemble (({ config := { deniedRestarts := denied } } : Session).prepared
    blocks (entries.map (.fixed · none)))
  change session.labels = _ at hlabels
  change session.ground = _ at hground
  have hmemory := memory_of_ground hground
  have howners := owners_of_ground hground
  have hinstruction := instructionAt_of_ground hground
  simp only [StandsFor, extent, hlabels, hmemory, howners, hinstruction]
  refine ⟨fun f hf => hready.exists_owner hseeded hunowned hf, ?_, ?_, ?_⟩
  · intro r t hr hcall htarget callee hcallee hstands htop hne caller hcaller howner
    have hmem := hready.mem_references_analyse hr hcall htarget hstands hne hcallee
    have hcount := hready.count_calls hcaller hcallee htop
    have hpos : 0 < callee.references.toList.countP fun r =>
        (({ config := { deniedRestarts := denied } } : Session).prepared blocks
          (entries.map (.fixed · none))).analyse.owners.get r == some caller.id :=
      List.countP_pos_iff.mpr ⟨r, Std.TreeSet.mem_toList.mpr hmem, beq_iff_eq.mpr howner⟩
    rw [← hcount] at hpos
    exact Array.mem_toList_iff.mp (List.count_pos_iff.mp hpos)
  · intro caller hcaller id hid
    exact hready.exists_reference_of_mem_calls hcaller hid
  · intro caller hcaller callee hcallee htop
    exact hready.count_calls hcaller hcallee htop

end Session

end Z80Atlas
