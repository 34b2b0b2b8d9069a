import Z80Atlas.Proofs.Analysis.Classification

namespace Z80Atlas

namespace Label

def Pruned (inner : Address → Prop) (old new : Label) : Prop :=
  ∃ references, new = { old with references } ∧ ∀ r, r ∈ references ↔ r ∈ old.references ∧ ¬inner r

variable {inner further : Address → Prop}

theorem Pruned.rel_refl (h : ∀ r, ¬inner r) (label? : Option Label) :
    Option.Rel (Pruned inner) label? label? := by
  cases label? with
  | none => exact .none
  | some label =>
      refine .some ⟨label.references, rfl, fun r => ?_⟩
      exact ⟨fun hr => ⟨hr, h r⟩, fun hr => hr.1⟩

theorem Pruned.rel_trans {a b c : Option Label} (h : Option.Rel (Pruned inner) a b)
    (h' : Option.Rel (Pruned further) b c) :
    Option.Rel (Pruned fun r => inner r ∨ further r) a c := by
  cases h with
  | none =>
      cases h' with
      | none => exact .none
  | some hinner =>
      cases h' with
      | some hfurther =>
          obtain ⟨references, rfl, hmem⟩ := hinner
          obtain ⟨last, rfl, hmem'⟩ := hfurther
          refine .some ⟨last, rfl, fun r => ?_⟩
          rw [hmem', hmem, and_assoc, not_or]

end Label

namespace Session

section Inner

theorem isInnerReference_of_ground {session other : Session} (h : other.ground = session.ground)
    (id : LabelId) (r : Address) :
    other.isInnerReference id r = session.isInnerReference id r := by
  rw [isInnerReference, isInnerReference, owners_of_ground h, instructionAt_of_ground h]

theorem labels_dropInnerReferences (session : Session) (n : LabelId) :
    (session.dropInnerReferences n).labels =
      match session.labels.get? n with
      | none => session.labels
      | some label => session.labels.modify n ({ · with
          references := label.references.filter fun r => !session.isInnerReference n r }) := by
  unfold dropInnerReferences
  cases session.labels.get? n with
  | none => rfl
  | some label =>
      dsimp only
      split
      · rfl
      · rfl

theorem pruned_dropInnerReferences (session : Session) (n id : LabelId) :
    Option.Rel (Label.Pruned fun r => n = id ∧ session.isInnerReference id r)
      (session.labels.get? id) ((session.dropInnerReferences n).labels.get? id) := by
  rw [labels_dropInnerReferences]
  by_cases hid : n = id
  · subst hid
    cases hlabel : session.labels.get? n with
    | none =>
        dsimp only
        rw [hlabel]
        exact .none
    | some label =>
        dsimp only
        rw [LabelStore.get?_modify, if_pos rfl, hlabel]
        refine .some ⟨_, rfl, fun r => ?_⟩
        rw [Std.TreeSet.mem_filter]
        simp
  · cases hlabel : session.labels.get? n with
    | none => exact Label.Pruned.rel_refl (by simp [hid]) _
    | some label =>
        dsimp only
        rw [LabelStore.get?_modify, if_neg hid]
        exact Label.Pruned.rel_refl (by simp [hid]) _

theorem pruned_foldl_dropInnerReferences (session : Session) (ids : List LabelId) (id : LabelId) :
    Option.Rel (Label.Pruned fun r => id ∈ ids ∧ session.isInnerReference id r)
      (session.labels.get? id) ((ids.foldl dropInnerReferences session).labels.get? id) := by
  induction ids generalizing session with
  | nil => exact Label.Pruned.rel_refl (by simp) _
  | cons n rest ih =>
      have hground := (session.revised_dropInnerReferences n).ground
      have hrest := ih (session.dropInnerReferences n)
      simp only [isInnerReference_of_ground hground] at hrest
      have hboth := Label.Pruned.rel_trans (session.pruned_dropInnerReferences n id) hrest
      simp only [← or_and_right] at hboth
      simpa only [List.mem_cons, List.foldl_cons, eq_comm] using hboth

-- Once code has owners, a live label has lost its inner references.
theorem pruned_assignOwners (session : Session) (h : session.labels.WellFormed) {a : Address}
    {label : Label} (hat : session.assignOwners.labels.at? a = some label) :
    ∃ old, session.labels.at? a = some old ∧
      old.Pruned (fun r => session.claimAll.isInnerReference old.id r) label := by
  have hlabels := session.ground_claimAll.2.2
  obtain ⟨old, hold, hplace⟩ := session.revised_assignOwners.labels.exists_before hat
  have hid := (Label.Trimmed.samePlace _ _ _ hplace).id
  have hrel := session.claimAll.pruned_foldl_dropInnerReferences session.claimAll.labels.ids old.id
  rw [hlabels] at hold hrel
  have hmem : old.id ∈ session.labels.ids := (session.labels.mem_ids old.id).mpr ⟨a, h.id_eq hold⟩
  have hwf : session.assignOwners.labels.WellFormed := by
    refine session.revised_assignOwners.labels.wellFormed ?_ (hlabels ▸ h)
    intro l m htrimmed
    have hsame := Label.Trimmed.samePlace _ l m htrimmed
    exact ⟨hsame.id, hsame.address⟩
  have hget := hwf.get?_of_at? hat
  rw [hid, assignOwners, hlabels] at hget
  rw [h.get?_of_at? hold, hget] at hrel
  cases hrel with
  | some hpruned =>
      refine ⟨old, hold, ?_⟩
      simpa only [hmem, true_and] using hpruned

end Inner

section References

variable {session : Session}

def Unreferenced (session : Session) : Prop :=
  ∀ a label, session.labels.at? a = some label → ∀ r, r ∉ label.references

theorem unreferenced_prepared (session : Session) (hlabels : session.labels = .empty)
    (blocks : List (Address × List UInt8)) (seeds : List Seed) :
    (session.prepared blocks seeds).Unreferenced := by
  refine forall_prepared (fun _ label => ∀ r, r ∉ label.references) session hlabels blocks seeds ?_
  intro current t name _ hbefore
  cases hold : current.labels.at? t with
  | none =>
      rw [fixedLabel, labelOr_of_none hold]
      exact fun r => Std.TreeSet.not_mem_emptyc
  | some old =>
      rw [fixedLabel, labelOr_of_some hold]
      exact hbefore old hold

theorem Unreferenced.enqueueStart (h : session.Unreferenced) (hwf : session.labels.WellFormed) :
    session.enqueueStart.Unreferenced := by
  refine forall_enqueueStart (fun _ label => ∀ r, r ∉ label.references) hwf h ?_ ?_
  · exact fun _ hlabel => hlabel
  · intro hfree _
    rw [fixedLabel, labelOr_of_none hfree]
    exact fun r => Std.TreeSet.not_mem_emptyc

theorem Analysable.mem_references_entered_iff (h : session.Analysable)
    (hfresh : session.Unreferenced) {t : Address} {label : Label}
    (hat : session.entered.labels.at? t = some label) (r : Address) :
    r ∈ label.references ↔
      session.found.memory.isFirst r ∧ session.enqueueStart.Designates r t ∧ r ≠ t := by
  cases hfound : session.found.labels.at? t with
  | none =>
      have hnone := (h.supplied_entered.fits t label hfound hat).unreferenced r
      refine ⟨fun hr => absurd hr hnone, fun ⟨hfirst, hdesignates, _⟩ => ?_⟩
      -- what an instruction refers to has had a label since it was found
      have hsome := (h.crossReferenced_found.accounted t).isSome_iff.mpr
        (.inr ⟨r, hfirst, hdesignates⟩)
      rw [hfound] at hsome
      cases hsome
  | some found =>
      rw [h.supplied_entered.kept t found hfound] at hat
      cases hat
      rw [(h.explains_found hfound).mem_references_iff]
      constructor
      · rintro (⟨seed, hseed, hr⟩ | ⟨⟨hfirst, hdesignates⟩, hne⟩)
        · exact absurd hr (hfresh.enqueueStart h.wellFormed t seed hseed r)
        · exact ⟨hfirst, hdesignates, hne⟩
      · rintro ⟨hfirst, hdesignates, hne⟩
        exact .inr ⟨⟨hfirst, hdesignates⟩, hne⟩

theorem Analysable.exists_entered_of_designates (h : session.Analysable) {r t : Address}
    (hr : session.found.memory.isFirst r) (hdesignates : session.enqueueStart.Designates r t) :
    ∃ label, session.entered.labels.at? t = some label := by
  obtain ⟨found, hfound⟩ := Option.isSome_iff_exists.mp
    ((h.crossReferenced_found.accounted t).isSome_iff.mpr (.inr ⟨r, hr, hdesignates⟩))
  exact ⟨found, h.supplied_entered.kept t found hfound⟩

theorem Analysable.extent_entered (h : session.Analysable) (x : Address) :
    session.entered.extent x = session.found.extent x := by
  rw [extent, extent, instructionAt_of_ground h.ground_entered]

-- A label inside an instruction moves to the beginning of it.
theorem Ready.mem_arrived (h : session.Ready) {x t : Address} {label : Label}
    (hx : session.found.memory.isFirst x) (ht : t ∈ session.found.extent x) (hne : x ≠ t)
    (hat : session.entered.labels.at? t = some label) :
    label ∈ session.entered.arrived [] x := by
  have hready := h.analysable
  have htiled := hready.tiled_found
  have hmemory := memory_of_ground hready.ground_entered
  have haddress := hready.supplied_entered.wellFormed.address_eq hat
  have hinside : session.found.Inside t :=
    ⟨htiled.code_of_extent x hx t ht,
      fun hfirst => hne (htiled.first_of_extent x hx t ht hfirst).symm⟩
  refine ⟨hready.departs_iff.mpr ⟨⟨by rw [haddress, hat],
    h.enriched_entered.1.labelled.relocatable t label hat, ?_⟩, by rw [hmemory]; exact hx, ?_⟩,
    List.not_mem_nil⟩
  · rw [haddress]
    exact (h.inside_entered t).mpr hinside
  · rw [haddress, hready.extent_entered]
    exact ht

-- The references of a label in its final place are the instructions that refer to an address for
-- which it stands.
theorem Ready.mem_references_located_iff (h : session.Ready) (hfresh : session.Unreferenced)
    {x : Address} {label : Label} (hat : session.located.labels.at? x = some label) (r : Address) :
    r ∈ label.references ↔ session.found.memory.isFirst r ∧ r ≠ x ∧
      ∃ t, session.enqueueStart.Designates r t ∧ session.found.StandsFor x t := by
  have hready := h.analysable
  have hentered := fun t label (hat : session.entered.labels.at? t = some label) =>
    hready.mem_references_entered_iff hfresh hat r
  rw [(hready.merged_located hat).mem_references_iff]
  constructor
  · rintro (⟨old, hold, hr⟩ | ⟨m, hm, hr, hne⟩)
    · obtain ⟨hfirst, hdesignates, hne⟩ := (hentered x old hold).mp hr
      exact ⟨hfirst, hne, x, hdesignates, .inl rfl⟩
    · obtain ⟨hmoves, hx, hextent⟩ := hready.departs_iff.mp hm.1
      obtain ⟨hfirst, hdesignates, -⟩ := (hentered m.address m hmoves.at?).mp hr
      rw [memory_of_ground hready.ground_entered] at hx
      rw [hready.extent_entered] at hextent
      exact ⟨hfirst, hne, m.address, hdesignates, .inr ⟨hx, hextent⟩⟩
  · rintro ⟨hfirst, hne, t, hdesignates, hstands⟩
    obtain ⟨old, hold⟩ := hready.exists_entered_of_designates hfirst hdesignates
    by_cases hxt : x = t
    · subst hxt
      exact .inl ⟨old, hold, (hentered x old hold).mpr ⟨hfirst, hdesignates, hne⟩⟩
    · obtain ⟨hx, hextent⟩ := hstands.resolve_left hxt
      have harrived := h.mem_arrived hx hextent hxt hold
      have hrt : r ≠ t := by
        rintro rfl
        exact hxt (hready.tiled_found.first_of_extent x hx r hextent hfirst).symm
      exact .inr ⟨old, harrived, (hentered t old hold).mpr ⟨hfirst, hdesignates, hrt⟩, hne⟩

end References

section Offsets

theorem offsets_foldl {α : Type} (step : Session → α → Session)
    (hstep : ∀ current x, (step current x).offsets = current.offsets) (xs : List α)
    (session : Session) : (xs.foldl step session).offsets = session.offsets := by
  induction xs generalizing session with
  | nil => rfl
  | cons x rest ih => exact (ih (step session x)).trans (hstep session x)

theorem offsets_linkFlowThroughs (session : Session) :
    session.linkFlowThroughs.offsets = session.offsets := by
  refine offsets_foldl linkFlowThrough (fun current n => ?_) _ session
  rw [linkFlowThrough_eq]
  split
  · rfl
  · rfl

theorem offsets_promoteSubroutines (session : Session) :
    session.promoteSubroutines.offsets = session.offsets := by
  refine offsets_foldl promoteReturning (fun current n => ?_) _ session
  unfold promoteReturning
  split
  · rfl
  split
  · rfl
  · rfl

theorem offsets_localize (session : Session) : session.localize.offsets = session.offsets := by
  refine offsets_foldl localizeWithin (fun current n => ?_) _ session
  unfold localizeWithin
  split
  · rfl
  split
  · rfl
  · rfl

theorem offsets_assignOwners (session : Session) :
    session.assignOwners.offsets = session.offsets := by
  have hclaimed : session.claimAll.offsets = session.offsets := by rw [claimAll_eq]
  refine (offsets_foldl dropInnerReferences (fun current n => ?_) _ _).trans hclaimed
  unfold dropInnerReferences
  split
  · rfl
  dsimp only
  split
  · rfl
  · rfl

theorem offsets_linkCalls (session : Session) : session.linkCalls.offsets = session.offsets := by
  refine offsets_foldl linkCallers (fun current n => ?_) _ session
  unfold linkCallers
  split
  · rfl
  split
  · rfl
  · refine offsets_foldl _ (fun _ _ => ?_) _ current
    rfl

theorem offsets_countStatistics (session : Session) :
    session.countStatistics.offsets = session.offsets := by
  refine offsets_foldl countLabel (fun current n => ?_) _ session
  unfold countLabel
  split
  · rfl
  split
  · rfl
  split
  · rfl
  · rfl

theorem offsets_nameNumbered (session : Session) (category : NameCategory) :
    (session.nameNumbered category).offsets = session.offsets := by
  refine offsets_foldl _ (fun _ _ => ?_) _ session
  rfl

theorem offsets_nameLocals (session : Session) (kind : Kind) (suffix : String) :
    (session.nameLocals kind suffix).offsets = session.offsets := by
  refine offsets_foldl _ (fun current _ => ?_) _ session
  refine offsets_foldl _ (fun _ _ => ?_) _ current
  rfl

theorem offsets_nameLabels (session : Session) : session.nameLabels.offsets = session.offsets := by
  have hrestarts : ∀ current : Session, current.nameRestarts.offsets = current.offsets := by
    intro current
    refine offsets_foldl _ (fun _ _ => ?_) _ current
    rfl
  unfold nameLabels
  split
  · refine offsets_foldl _ (fun _ _ => ?_) _ session
    rfl
  · dsimp only
    rw [offsets_nameLocals, offsets_nameLocals, hrestarts, offsets_nameNumbered,
      offsets_nameNumbered, offsets_nameNumbered, offsets_nameNumbered]

theorem offsets_of_commented (session : Session) :
    (if session.config.disableComments then session else session.commentLabels).offsets =
      session.offsets := by
  split
  · rfl
  · refine offsets_foldl commentLabel (fun current n => ?_) _ session
    unfold commentLabel
    split
    · rfl
    split
    · rfl
    split
    · rfl
    · rfl

-- From the moment that labels have moved, nothing changes how far.
theorem offsets_disassemble (session : Session) :
    session.disassemble.offsets = session.located.offsets := by
  have hlisted : ∀ (current : Session) lines, (current.keepListing lines).offsets = current.offsets :=
    fun _ _ => rfl
  have hanalysed : session.analyse.offsets = session.classify.offsets := by
    rw [analyse]
    exact (offsets_of_commented _).trans session.classify.offsets_nameLabels
  rw [disassemble, hlisted, hanalysed, classify_eq, offsets_countStatistics, offsets_linkCalls,
    offsets_assignOwners, told, offsets_localize, offsets_promoteSubroutines, offsets_linkFlowThroughs]

end Offsets

-- Control falls into a label from the instruction in front of it.
theorem fallThrough?_of_flowsInto? {session : Session} {a r : Address} {id : LabelId}
    (h : session.flowsInto? a = some (id, r)) :
    ∃ following label, (session.instructionAt r).fallThrough? r = some following ∧
      session.labels.at? following = some label ∧ label.id = id := by
  fun_induction flowsInto? session a with
  | case1 => cases h
  | case2 => cases h
  | case3 a hassigned following hfall label hat hkind =>
      cases h
      exact ⟨following, label, hfall, hat, rfl⟩
  | case4 a hassigned following hfall label hat hkind ih => exact ih h
  | case5 a hassigned following hfall hat ih => exact ih h

theorem FallsInto.fallThrough? {session : Session} (hwf : session.labels.WellFormed) {label : Label}
    {r : Address} (hlive : label ∈ session.labels.live) (h : session.FallsInto label.id r) :
    (session.instructionAt r).fallThrough? r = some label.address := by
  obtain ⟨other, -, -, -, hflows⟩ := h
  obtain ⟨following, target, hfall, htarget, hid⟩ := fallThrough?_of_flowsInto? hflows
  obtain rfl := hwf.eq_of_id hlive (hwf.mem_live_of_at? htarget) hid
  rw [hfall, hwf.address_eq htarget]

section Reports

variable {session : Session} {label : Label} {r : Address}

-- The instruction at `r` is a call to an address for which the label at `x` stands.
def CallsTo (session : Session) (r x : Address) : Prop :=
  session.memory.isFirst r ∧ (session.instructionAt r).flow.call ∧
    ∃ t, (session.instructionAt r).target? = some t ∧ session.StandsFor x t

theorem callsTo_of_ground {other : Session} (h : other.ground = session.ground) (r x : Address) :
    other.CallsTo r x ↔ session.CallsTo r x := by
  simp only [CallsTo, StandsFor, extent, memory_of_ground h, instructionAt_of_ground h]

theorem isRecursive_iff (session : Session) (label : Label) :
    session.isRecursive label ↔ ∃ r ∈ label.references, session.owners.get r = some label.id := by
  rw [isRecursive, Addresses.any_iff]
  simp only [beq_iff_eq]

theorem Ready.mem_calls_iff_isRecursive (h : session.Ready)
    (hlive : label ∈ session.analyse.labels.live) (htop : label.kind.isTopLevel) :
    label.id ∈ label.calls ↔ session.analyse.isRecursive label := by
  rw [← Array.mem_toList_iff, ← List.count_pos_iff, h.count_calls hlive hlive htop,
    List.countP_pos_iff, isRecursive_iff]
  simp only [Std.TreeSet.mem_toList, beq_iff_eq]

theorem Ready.standsFor_analyse (h : session.Ready) (x t : Address) :
    session.analyse.StandsFor x t ↔ session.found.StandsFor x t := by
  rw [StandsFor, StandsFor, extent, extent, h.kept_located.1, h.instructionAt_analyse]

theorem Ready.designates_iff_of_call (h : session.Ready) (hdecoder : session.decoder = Z80.decode)
    (hcall : (session.analyse.instructionAt r).flow.call) (t : Address) :
    session.enqueueStart.Designates r t ↔ (session.analyse.instructionAt r).target? = some t := by
  have hsame : session.enqueueStart.instructionAt r = session.analyse.instructionAt r := by
    rw [h.instructionAt_analyse]
    exact (h.analysable.crossReferenced_found.same.instructionAt_eq
      h.analysable.enqueueStart.readsBytes r).symm
  obtain ⟨target, htarget⟩ : ∃ target, (session.analyse.instructionAt r).target? = some target := by
    rw [instructionAt, h.kept_located.2, h.analysable.decoder_found, hdecoder] at hcall ⊢
    exact Z80.exists_target_of_call hcall
  rw [Designates, hsame, Instruction.designated?, htarget]

-- The references of a label at the end are the instructions that refer to an address for which it
-- stands and those through which others fall into it, except for its inner references.
theorem Ready.mem_references_iff_of_live (h : session.Ready) (hfresh : session.Unreferenced)
    (hlive : label ∈ session.analyse.labels.live) (r : Address) :
    r ∈ label.references ↔
      ((session.found.memory.isFirst r ∧ r ≠ label.address ∧
          ∃ t, session.enqueueStart.Designates r t ∧ session.found.StandsFor label.address t) ∨
        session.located.FallsInto label.id r) ∧
      ¬session.analyse.isInnerReference label.id r := by
  have hready := h.analysable
  have hat := (h.wellFormed_analyse.mem_live label).mp hlive
  obtain ⟨called, hcalled, hnamed⟩ := session.revised_analyse.labels.exists_before hat
  obtain ⟨owned, howned, hlisted⟩ :=
    session.told.assignOwners.revised_linkCalls.labels.exists_before hcalled
  obtain ⟨told, htold, references, rfl, hpruned⟩ :=
    session.told.pruned_assignOwners hready.wellFormed_told howned
  obtain ⟨located, hlocated, kind, all, rfl, -, hall⟩ :=
    settled_told hready.wellFormed_located htold
  have hreferences : label.references = references :=
    (Label.Renamed.keeps _ _ hnamed).2.trans (Label.Recalled.keeps _ _ hlisted).2
  have hid : label.id = located.id :=
    (Label.Renamed.samePlace _ _ hnamed).id.trans (Label.Recalled.samePlace _ _ hlisted).id
  have hground : session.told.claimAll.ground = session.analyse.ground :=
    (session.ground_analyse.trans session.ground_classify).symm
  rw [hreferences, hpruned, hall, h.mem_references_located_iff hfresh hlocated, hid]
  simp only [isInnerReference_of_ground hground]

-- Which references a label keeps from its own code.
theorem Ready.mem_references_analyse_iff (h : session.Ready) (hfresh : session.Unreferenced)
    (hdecoder : session.decoder = Z80.decode) (hlive : label ∈ session.analyse.labels.live)
    (howner : session.analyse.owners.get r = some label.id) :
    r ∈ label.references ↔ (session.analyse.CallsTo r label.address ∧ r ≠ label.address) ∨
      ((session.analyse.instructionAt r).flow.call ∧ session.located.FallsInto label.id r) := by
  -- what belongs to the label itself is kept exactly if it is a call
  have hinner : ¬session.analyse.isInnerReference label.id r ↔
      (session.analyse.instructionAt r).flow.call := by
    rw [isInnerReference, howner]
    simp
  rw [h.mem_references_iff_of_live hfresh hlive, hinner]
  constructor
  · rintro ⟨⟨hfirst, hne, t, hdesignates, hstands⟩ | hfalls, hcall⟩
    · rw [← h.kept_located.1] at hfirst
      rw [h.designates_iff_of_call hdecoder hcall] at hdesignates
      exact .inl ⟨⟨hfirst, hcall, t, hdesignates, (h.standsFor_analyse _ t).mpr hstands⟩, hne⟩
    · exact .inr ⟨hcall, hfalls⟩
  · rintro (⟨⟨hfirst, hcall, t, htarget, hstands⟩, hne⟩ | ⟨hcall, hfalls⟩)
    · rw [h.kept_located.1] at hfirst
      rw [← h.designates_iff_of_call hdecoder hcall] at htarget
      exact ⟨.inl ⟨hfirst, hne, t, htarget, (h.standsFor_analyse _ t).mp hstands⟩, hcall⟩
    · exact ⟨.inr hfalls, hcall⟩

-- A call leads to the label itself or to an address from which the label was moved.
theorem Ready.exists_offset_of_callsTo (h : session.Ready) (hdecoder : session.decoder = Z80.decode)
    {x : Address} (hcalls : session.analyse.CallsTo r x) :
    ∃ t, (session.analyse.instructionAt r).target? = some t ∧
      (t = x ∨ ∃ distance, session.located.offsets[t]? = some distance ∧
        t.toNat + distance = x.toNat) := by
  have hready := h.analysable
  obtain ⟨hfirst, hcall, t, htarget, hstands⟩ := hcalls
  refine ⟨t, htarget, ?_⟩
  by_cases hxt : x = t
  · exact .inl hxt.symm
  obtain ⟨hx, hextent⟩ := ((h.standsFor_analyse x t).mp hstands).resolve_left hxt
  rw [h.kept_located.1] at hfirst
  rw [← h.designates_iff_of_call hdecoder hcall] at htarget
  obtain ⟨moved, hmoved⟩ := hready.exists_entered_of_designates hfirst htarget
  obtain ⟨hdeparts, hrest⟩ := h.mem_arrived hx hextent hxt hmoved
  have hshifted := hready.merging_located.shifted moved x hdeparts hrest
  rw [hready.supplied_entered.wellFormed.address_eq hmoved] at hshifted
  exact .inr ⟨_, hshifted, by omega⟩

theorem Ready.fallThrough?_of_fallsInto (h : session.Ready)
    (hlive : label ∈ session.analyse.labels.live) (hfalls : session.located.FallsInto label.id r) :
    (session.analyse.instructionAt r).fallThrough? r = some label.address := by
  have hwf := h.analysable.wellFormed_located
  have hat := (h.wellFormed_analyse.mem_live label).mp hlive
  obtain ⟨old, hold, hplace⟩ := session.kept_analyse.labels.exists_before hat
  rw [hplace.id] at hfalls
  have hfall := hfalls.fallThrough? hwf (hwf.mem_live_of_at? hold)
  rw [h.instructionAt_analyse, ← instructionAt_of_ground h.analysable.ground_located, hfall,
    hplace.address]

end Reports

-- What is reported as recursion: calls of a label from its own code, and also calls of anything else
-- there that stand in front of the label, if another label falls into it through them.
theorem disassemble_reports_recursion (config : Config) (snapshotStart : Option Address)
    (blocks : List (Address × List UInt8)) (seeds : List Seed) :
    let start := ({ config, snapshotStart } : Session).prepared blocks seeds
    let session := start.disassemble
    (∀ label ∈ session.labels.live, label.kind.isTopLevel →
      (session.isRecursive label ↔ label.id ∈ label.calls) ∧
      (session.isRecursive label ↔
        ∃ r ∈ label.references, session.owners.get r = some label.id)) ∧
    (∀ label ∈ session.labels.live, ∀ r, session.owners.get r = some label.id →
      (r ∈ label.references ↔ (session.CallsTo r label.address ∧ r ≠ label.address) ∨
        ((session.instructionAt r).flow.call ∧ start.located.FallsInto label.id r))) ∧
    (∀ r x, session.CallsTo r x → ∃ t, (session.instructionAt r).target? = some t ∧
      (t = x ∨ ∃ distance, session.offsets[t]? = some distance ∧
        t.toNat + distance = x.toNat)) ∧
    ∀ label ∈ session.labels.live, ∀ r, start.located.FallsInto label.id r →
      (session.instructionAt r).fallThrough? r = some label.address := by
  intro start session
  have hready : start.Ready :=
    ready_prepared { config, snapshotStart } rfl Memory.unclassified_empty rfl blocks seeds
  have hfresh : start.Unreferenced := unreferenced_prepared { config, snapshotStart } rfl blocks seeds
  have hdecoder : start.decoder = Z80.decode := congrArg Ground.decoder
    (({ config, snapshotStart } : Session).ground_prepared rfl blocks seeds)
  have hlabels : session.labels = start.analyse.labels := start.labels_disassemble
  have hground : session.ground = start.analyse.ground := start.ground_disassemble
  have hoffsets : session.offsets = start.located.offsets := start.offsets_disassemble
  have hinstruction := instructionAt_of_ground hground
  have howners := owners_of_ground hground
  have hrecursive : ∀ label, session.isRecursive label = start.analyse.isRecursive label := by
    intro label
    rw [isRecursive, isRecursive, howners]
  simp only [hlabels, hinstruction, howners, hoffsets, callsTo_of_ground hground, hrecursive]
  refine ⟨?_, ?_, ?_, ?_⟩
  · intro label hlive htop
    exact ⟨(hready.mem_calls_iff_isRecursive hlive htop).symm, isRecursive_iff _ label⟩
  · intro label hlive r howner
    exact hready.mem_references_analyse_iff hfresh hdecoder hlive howner
  · intro r x hcalls
    exact hready.exists_offset_of_callsTo hdecoder hcalls
  · intro label hlive r hfalls
    exact hready.fallThrough?_of_fallsInto hlive hfalls

end Session

end Z80Atlas
