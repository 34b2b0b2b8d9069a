import Z80Atlas.Proofs.Analysis.Calls
import Z80Atlas.Proofs.Analysis.Naming
import Z80Atlas.Proofs.Analysis.Origin
import Z80Atlas.Proofs.Analysis.Telling

namespace Z80Atlas

structure Label.Classified (old new : Label) : Prop where
  id : new.id = old.id
  address : new.address = old.address
  name : new.name = old.name
  belongsToInterrupt : new.belongsToInterrupt = old.belongsToInterrupt
  settles : old.kind.Settles new.kind

theorem Label.Classified.trans (l m n : Label) (h : l.Classified m) (h' : m.Classified n) :
    l.Classified n where
  id := h'.id.trans h.id
  address := h'.address.trans h.address
  name := h'.name.trans h.name
  belongsToInterrupt := h'.belongsToInterrupt.trans h.belongsToInterrupt
  settles := h.settles.trans h'.settles

namespace Session

theorem labels_countStatistics (session : Session) :
    session.countStatistics.labels = session.labels := by
  refine List.foldlRecOn (motive := fun current : Session => current.labels = session.labels) _
    countLabel rfl ?_
  intro current hcurrent id _
  unfold countLabel
  split
  · exact hcurrent
  split
  · exact hcurrent
  split
  · exact hcurrent
  · exact hcurrent

theorem labels_commentLabels (session : Session) :
    session.commentLabels.labels = session.labels := by
  refine List.foldlRecOn (motive := fun current : Session => current.labels = session.labels) _
    commentLabel rfl ?_
  intro current hcurrent id _
  unfold commentLabel
  split
  · exact hcurrent
  split
  · exact hcurrent
  split
  · exact hcurrent
  · exact hcurrent

-- Comments, if there are any, leave the labels and what they build upon.
theorem labels_of_commented (session : Session) :
    (if session.config.disableComments then session else session.commentLabels).labels =
      session.labels := by
  split
  · rfl
  · exact session.labels_commentLabels

theorem ground_of_commented (session : Session) :
    (if session.config.disableComments then session else session.commentLabels).ground =
      session.ground := by
  split
  · rfl
  · exact session.revised_commentLabels.ground

theorem labels_analyse (session : Session) :
    session.analyse.labels = session.classify.nameLabels.labels := by
  rw [analyse]
  exact labels_of_commented _

theorem ground_analyse (session : Session) : session.analyse.ground = session.classify.ground := by
  rw [analyse]
  exact (ground_of_commented _).trans session.classify.revised_nameLabels.ground

-- The distribution of the code changes no more than the owners of what the passes build upon.
structure Distributed (session other : Session) : Prop where
  memory : other.memory = session.memory
  decoder : other.decoder = session.decoder
  config : other.config = session.config
  snapshotStart : other.snapshotStart = session.snapshotStart
  nameOf : other.nameOf = session.nameOf

theorem Distributed.of_ground {session other : Session} (h : other.ground = session.ground) :
    session.Distributed other :=
  ⟨memory_of_ground h, decoder_of_ground h, config_of_ground h,
    congrArg Ground.snapshotStart h, congrArg Ground.nameOf h⟩

theorem Distributed.trans {session other third : Session} (h : session.Distributed other)
    (h' : other.Distributed third) : session.Distributed third :=
  ⟨h'.memory.trans h.memory, h'.decoder.trans h.decoder, h'.config.trans h.config,
    h'.snapshotStart.trans h.snapshotStart, h'.nameOf.trans h.nameOf⟩

theorem distributed_claimAll (session : Session) : session.Distributed session.claimAll := by
  rw [claimAll_eq]
  exact ⟨rfl, rfl, rfl, rfl, rfl⟩

theorem ground_classify (session : Session) :
    session.classify.ground = session.told.claimAll.ground := by
  rw [classify_eq, (revised_countStatistics _).ground, (revised_linkCalls _).ground]
  exact session.told.revised_assignOwners.ground

theorem classified_told (session : Session) :
    session.located.labels.Revised Label.Classified session.told.labels := by
  have hlinked := session.located.referred_linkFlowThroughs
  have hkinds := session.located.linkFlowThroughs.rekinded_promoteAndLocalize
  refine (hlinked.labels.mono ?_).trans Label.Classified.trans (hkinds.labels.mono ?_)
  · rintro l m ⟨references, rfl⟩
    exact ⟨rfl, rfl, rfl, rfl, .inl rfl⟩
  · rintro l m ⟨kind, rfl, hsettles⟩
    exact ⟨rfl, rfl, rfl, rfl, hsettles⟩

-- Once labels have been told apart, the kinds stay.
theorem kept_classify (session : Session) :
    session.told.labels.Revised (fun l m => l.Classified m ∧ m.kind = l.kind)
      session.classify.labels := by
  have htrans : ∀ l m n : Label, l.Classified m ∧ m.kind = l.kind → m.Classified n ∧ n.kind = m.kind →
      l.Classified n ∧ n.kind = l.kind := fun l m n h h' =>
    ⟨Label.Classified.trans l m n h.1 h'.1, h'.2.trans h.2⟩
  have hdropped := session.told.revised_assignOwners.labels
  rw [session.told.ground_claimAll.2.2] at hdropped
  rw [classify_eq, labels_countStatistics]
  refine (hdropped.mono ?_).trans htrans ((revised_linkCalls _).labels.mono ?_)
  · rintro l m ⟨references, rfl, -⟩
    exact ⟨⟨rfl, rfl, rfl, rfl, .inl rfl⟩, rfl⟩
  · rintro l m ⟨calls, rfl⟩
    exact ⟨⟨rfl, rfl, rfl, rfl, .inl rfl⟩, rfl⟩

theorem classified_classify (session : Session) :
    session.located.labels.Revised Label.Classified session.classify.labels :=
  session.classified_told.trans Label.Classified.trans
    (session.kept_classify.mono fun _ _ hkept => hkept.1)

namespace Analysable

variable {session : Session}

theorem wellFormed_located (h : session.Analysable) : session.located.labels.WellFormed :=
  h.merging_located.wellFormed

theorem wellFormed_told (h : session.Analysable) : session.told.labels.WellFormed :=
  session.classified_told.wellFormed (fun _ _ hl => ⟨hl.id, hl.address⟩) h.wellFormed_located

theorem wellFormed_classify (h : session.Analysable) : session.classify.labels.WellFormed :=
  session.classified_classify.wellFormed (fun _ _ hl => ⟨hl.id, hl.address⟩) h.wellFormed_located

theorem ground_told (h : session.Analysable) : session.told.ground = session.found.ground :=
  session.located.revised_localize.ground.trans h.ground_located

theorem distributed_classify (h : session.Analysable) :
    session.found.Distributed session.classify :=
  (Distributed.of_ground h.ground_told).trans
    (session.told.distributed_claimAll.trans (.of_ground session.ground_classify))

theorem unowned_told (h : session.Analysable) (hunowned : ∀ a, session.owners.get a = none)
    (a : Address) : session.told.owners.get a = none := by
  have howners : session.found.owners = session.owners := congrArg Ground.owners h.ground_found
  rw [owners_of_ground h.ground_told, howners]
  exact hunowned a

theorem divided_classify (h : session.Analysable) (hunowned : ∀ a, session.owners.get a = none) :
    session.told.Divided session.told.labels.live session.classify.owners := by
  obtain ⟨owners, hclaim, hdivided⟩ :=
    session.told.divided_claimAll h.wellFormed_told (h.unowned_told hunowned)
  rw [owners_of_ground session.ground_classify, hclaim]
  exact hdivided

theorem ownersLive_classify (h : session.Analysable) (hunowned : ∀ a, session.owners.get a = none) :
    session.classify.OwnersLive := by
  intro a id hget
  obtain ⟨label, hlive, rfl, htop, -, -⟩ := (h.divided_classify hunowned).owned a id hget
  have hat := (h.wellFormed_told.mem_live label).mp hlive
  obtain ⟨owner, howner, hclassified, hkind⟩ := session.kept_classify.exists_at? hat
  refine ⟨owner, ?_, hclassified.id, ?_⟩
  · rw [hclassified.address]
    exact howner
  · rw [hkind]
    exact htop

-- The names at the end of an analysis, in terms of the labels before they are named.
theorem namedBy_classify (h : session.Analysable) (hunowned : ∀ a, session.owners.get a = none)
    (hnameOf : session.nameOf = none) :
    session.classify.NamedBy session.classify.coinedName? session.classify.nameLabels := by
  refine session.classify.namedBy_nameLabels h.wellFormed_classify (h.ownersLive_classify hunowned) ?_
  have hfound : session.found.nameOf = session.nameOf := congrArg Ground.nameOf h.ground_found
  rw [h.distributed_classify.nameOf, hfound, hnameOf]

-- A label at the end of an analysis is one of those in their final places.
theorem exists_located (h : session.Analysable) (hunowned : ∀ a, session.owners.get a = none)
    (hnameOf : session.nameOf = none) {a : Address} {label : Label}
    (hat : session.analyse.labels.at? a = some label) :
    ∃ old new, session.located.labels.at? a = some old ∧ session.classify.labels.at? a = some new ∧
      old.Classified new ∧ label = new.nameOr session.classify.coinedName? := by
  rw [session.labels_analyse, (h.namedBy_classify hunowned hnameOf).at?_eq] at hat
  obtain ⟨new, hnew, rfl⟩ := Option.map_eq_some_iff.mp hat
  obtain ⟨old, hold, hclassified⟩ := session.classified_classify.exists_before hnew
  exact ⟨old, new, hold, hnew, hclassified, rfl⟩

end Analysable

end Session

end Z80Atlas
