import Z80Atlas.Proofs.Analysis.Origin
import Z80Atlas.Proofs.Analysis.Pass
import Z80Atlas.Proofs.Analysis.Returning

namespace Z80Atlas

def Pass.rates : Pass → Bool
  | .enqueueStart | .collect | .relocate | .promoteSubroutines | .localize => true
  | _ => false

namespace Search

inductive Meets (t : Address) (kind : Kind) : Search → Search → Prop
  | find (session : Session) (a : Address) (hfresh : session.Fresh a)
      (hdesignates : session.Designates a t) (hrole : session.role a t = kind) :
      Meets t kind ⟨session, some a⟩ ⟨session.accept a (session.instructionAt a),
        (session.instructionAt a).fallThrough? a⟩

variable {search next : Search} {t : Address} {label : Label}

theorem Meets.step {kind : Kind} (h : Meets t kind search next) : Step search next := by
  cases h with
  | find session a hfresh hdesignates hrole => exact .find session a hfresh

theorem Step.wellFormed (h : Step search next) (hwf : search.session.labels.WellFormed) :
    next.session.labels.WellFormed := by
  cases h with
  | take session address queue hpop => exact hwf
  | leave session address journal hobstacle => exact hwf
  | find session address hfresh => exact session.wellFormed_accept hwf address _

-- A meeting leaves a label with at least the rank of its role.
theorem Meets.rank_le {kind : Kind} (h : Meets t kind search next)
    (hwf : search.session.labels.WellFormed) (hat : next.session.labels.at? t = some label) :
    kind.rank ≤ label.kind.rank := by
  cases h with
  | find session a hfresh hdesignates hrole =>
      rw [session.at?_accept_of_designates hwf a t hdesignates, hrole] at hat
      unfold Session.metLabel at hat
      cases hold : session.labels.at? t with
      | none =>
          rw [hold] at hat
          cases hat
          exact Nat.le_refl _
      | some old =>
          rw [hold] at hat
          cases hat
          change kind.rank ≤ (old.kind.promote kind).rank
          rw [Kind.rank_promote]
          exact Nat.le_max_right _ _

-- A step keeps a label. Its rank rises only by a meeting in a role of higher rank.
theorem Step.at? (h : Step search next) (hwf : search.session.labels.WellFormed)
    (hat : search.session.labels.at? t = some label) :
    ∃ new, next.session.labels.at? t = some new ∧ new.isFixed = label.isFixed ∧
      label.kind.rank ≤ new.kind.rank ∧
      (label.kind.rank < new.kind.rank → Meets t new.kind search next) := by
  cases h with
  | take session address queue hpop =>
      exact ⟨label, hat, rfl, Nat.le_refl _, fun hlt => absurd hlt (Nat.lt_irrefl _)⟩
  | leave session address journal hobstacle =>
      exact ⟨label, hat, rfl, Nat.le_refl _, fun hlt => absurd hlt (Nat.lt_irrefl _)⟩
  | find session a hfresh =>
      by_cases hdesignates : session.Designates a t
      · have hnew := session.at?_accept_of_designates hwf a t hdesignates
        rw [Session.metLabel, hat] at hnew
        refine ⟨_, hnew, rfl, ?_, fun hlt => ?_⟩
        · change label.kind.rank ≤ (label.kind.promote (session.role a t)).rank
          rw [Kind.rank_promote]
          exact Nat.le_max_left _ _
        · change label.kind.rank < (label.kind.promote (session.role a t)).rank at hlt
          change Meets t (label.kind.promote (session.role a t)) _ _
          rcases Session.promote_eq_or label.kind (session.role a t) with hrole | hsame
          · exact .find session a hfresh hdesignates hrole.symm
          · rw [hsame] at hlt
            exact absurd hlt (Nat.lt_irrefl _)
      · refine ⟨label, ?_, rfl, Nat.le_refl _, fun hlt => absurd hlt (Nat.lt_irrefl _)⟩
        dsimp only
        rw [session.at?_accept_of_not_designates hwf a t hdesignates, hat]

theorem Run.wellFormed (h : Run search next) (hwf : search.session.labels.WellFormed) :
    next.session.labels.WellFormed :=
  h.keeps (P := fun x => x.session.labels.WellFormed) (fun _ _ hstep => hstep.wellFormed) hwf

-- A run keeps a label, and its rank rises only by a meeting on the way.
theorem Run.at? (h : Run search next) (hwf : search.session.labels.WellFormed)
    (hat : search.session.labels.at? t = some label) :
    ∃ new, next.session.labels.at? t = some new ∧ new.isFixed = label.isFixed ∧
      label.kind.rank ≤ new.kind.rank ∧
      (label.kind.rank < new.kind.rank → ∃ kind x y, Run search x ∧ Meets t kind x y ∧
        Run y next ∧ label.kind.rank < kind.rank) := by
  induction h with
  | refl =>
      exact ⟨label, hat, rfl, Nat.le_refl _, fun hlt => absurd hlt (Nat.lt_irrefl _)⟩
  | tail hrun hlast ih =>
      obtain ⟨middle, hmiddle, hfixed, hle, hmeets⟩ := ih
      obtain ⟨new, hnew, hfixed', hle', hmeets'⟩ :=
        hlast.at? (Run.wellFormed hrun hwf) hmiddle
      refine ⟨new, hnew, hfixed'.trans hfixed, hle.trans hle', fun hlt => ?_⟩
      by_cases hlater : middle.kind.rank < new.kind.rank
      · exact ⟨new.kind, _, _, hrun, hmeets' hlater, .refl, hlt⟩
      · have hearlier : label.kind.rank < middle.kind.rank :=
          Nat.lt_of_lt_of_le hlt (Nat.le_of_not_lt hlater)
        obtain ⟨kind, x, y, hbefore, hmeet, hafter, hrank⟩ := hmeets hearlier
        exact ⟨kind, x, y, hbefore, hmeet, hafter.tail hlast, hrank⟩

end Search

namespace Session

structure Steady (session other : Session) : Prop where
  memory : other.memory = session.memory
  wellFormed : other.labels.WellFormed
  kept : ∀ a label, session.labels.at? a = some label →
    ∃ new, other.labels.at? a = some new ∧ new.kind = label.kind ∧ new.isFixed = label.isFixed

section Steady

variable {session other : Session}

theorem Steady.of_revised {keep : Label → Label → Prop} (h : session.labels.Revised keep other.labels)
    (hwf : session.labels.WellFormed) (hmemory : other.memory = session.memory)
    (hplace : ∀ l m, keep l m → l.SamePlace m)
    (hkeep : ∀ l m, keep l m → m.kind = l.kind ∧ m.isFixed = l.isFixed) : session.Steady other := by
  refine ⟨hmemory, h.wellFormed (fun l m hlm => ⟨(hplace l m hlm).id, (hplace l m hlm).address⟩) hwf,
    fun a label hat => ?_⟩
  obtain ⟨new, hnew, hkept⟩ := h.exists_at? hat
  exact ⟨new, hnew, hkeep label new hkept⟩

theorem Supplied.steady {fits : Address → Label → Prop} (h : session.Supplied fits other) :
    session.Steady other :=
  ⟨memory_of_ground h.ground, h.wellFormed,
    fun a label hat => ⟨label, h.kept a label hat, rfl, rfl⟩⟩

theorem Revised.steady_of_renamed (h : session.Revised Label.Renamed other)
    (hwf : session.labels.WellFormed) : session.Steady other := by
  refine .of_revised h.labels hwf (memory_of_ground h.ground) Label.Renamed.samePlace ?_
  rintro l m ⟨name, rfl⟩
  exact ⟨rfl, rfl⟩

theorem steady_assignOwners (session : Session) (hwf : session.labels.WellFormed) :
    session.Steady session.assignOwners := by
  have hdropped := session.claimAll.revised_dropAll session.claimAll.labels.ids
  have hclaimed : session.claimAll.memory = session.memory ∧
      session.claimAll.labels = session.labels := by
    rw [claimAll_eq]
    exact ⟨rfl, rfl⟩
  have hsteady : session.claimAll.Steady session.assignOwners := by
    refine .of_revised hdropped.labels (hclaimed.2 ▸ hwf) (memory_of_ground hdropped.ground)
      (Label.Trimmed.samePlace _) ?_
    rintro l m ⟨references, rfl, -⟩
    exact ⟨rfl, rfl⟩
  exact ⟨hsteady.memory.trans hclaimed.1, hsteady.wellFormed, hclaimed.2 ▸ hsteady.kept⟩

theorem steady_linkFlowThroughs (session : Session) (hwf : session.labels.WellFormed) :
    session.Steady session.linkFlowThroughs := by
  have hreferred := session.referred_linkFlowThroughs
  refine .of_revised hreferred.labels hwf (memory_of_ground hreferred.ground) ?_ ?_
  · rintro l m ⟨references, rfl⟩
    exact ⟨rfl, rfl, rfl⟩
  · rintro l m ⟨references, rfl⟩
    exact ⟨rfl, rfl⟩

theorem steady_linkCalls (session : Session) (hwf : session.labels.WellFormed) :
    session.Steady session.linkCalls := by
  have hrecalled := session.revised_linkCalls
  refine .of_revised hrecalled.labels hwf (memory_of_ground hrecalled.ground)
    Label.Recalled.samePlace ?_
  rintro l m ⟨calls, rfl⟩
  exact ⟨rfl, rfl⟩

-- Most passes have no say in the kinds of labels.
theorem steady_after (session : Session) (hwf : session.labels.WellFormed) {pass : Pass}
    (hpass : pass.rates = false) : session.Steady (session.after pass) := by
  cases pass with
  | enqueueStart => cases hpass
  | collect => cases hpass
  | labelInterrupts => exact (session.supplied_labelInterrupts hwf).steady
  | labelStarts => exact (session.supplied_labelStarts hwf []).steady
  | relocate => cases hpass
  | linkFlowThroughs => exact session.steady_linkFlowThroughs hwf
  | promoteSubroutines => cases hpass
  | localize => cases hpass
  | assignOwners => exact session.steady_assignOwners hwf
  | linkCalls => exact session.steady_linkCalls hwf
  | countStatistics => exact session.revised_countStatistics.steady_of_renamed hwf
  | nameLabels => exact session.revised_nameLabels.steady_of_renamed hwf
  | commentLabels => exact session.revised_commentLabels.steady_of_renamed hwf

end Steady

section Orderly

variable (session : Session) (hwf : session.labels.WellFormed)

include hwf

-- Every pass leaves the labels in order.
theorem wellFormed_after (pass : Pass) : (session.after pass).labels.WellFormed := by
  by_cases hpass : pass.rates
  · cases pass with
    | enqueueStart => exact (session.ground_enqueueStart hwf).2
    | collect => exact (Search.run_collect session).wellFormed hwf
    | relocate => exact (session.merging_relocate hwf).wellFormed
    | promoteSubroutines =>
        exact session.promoted_promoteSubroutines.labels.wellFormed
          (fun l m ⟨kind, heq, _⟩ => heq ▸ ⟨rfl, rfl⟩) hwf
    | localize =>
        exact session.rekinded_localize.labels.wellFormed
          (fun l m ⟨kind, heq, _⟩ => heq ▸ ⟨rfl, rfl⟩) hwf
    | _ => cases hpass
  · exact (session.steady_after hwf (Bool.eq_false_iff.mpr hpass)).wellFormed

-- What begins an instruction goes on to do so.
theorem isFirst_after (pass : Pass) {b : Address} (hb : session.memory.isFirst b) :
    (session.after pass).memory.isFirst b := by
  by_cases hpass : pass.rates
  · cases pass with
    | enqueueStart =>
        exact memory_of_ground (session.ground_enqueueStart hwf).1 ▸ hb
    | collect => exact (Search.run_collect session).isFirst hb
    | relocate => exact memory_of_ground (session.merging_relocate hwf).ground ▸ hb
    | promoteSubroutines =>
        exact memory_of_ground session.promoted_promoteSubroutines.ground ▸ hb
    | localize => exact memory_of_ground session.rekinded_localize.ground ▸ hb
    | _ => cases hpass
  · exact (session.steady_after hwf (Bool.eq_false_iff.mpr hpass)).memory ▸ hb

end Orderly

section Relocation

variable {session : Session} {a : Address} {label : Label}

-- A label that stays gains rank from those that come to it.
theorem merged_relocate (hwf : session.labels.WellFormed)
    (hat : session.labels.at? a = some label) (hstays : ∀ home, ¬session.Departs label home) :
    ∃ new, session.relocate.labels.at? a = some new ∧
      session.Merged (session.arrived [] a) a new := by
  have hgains := (session.merging_relocate hwf).gains a (by
    rintro other home hdeparts rfl
    have hother := hdeparts.moves.at?
    rw [hat] at hother
    cases hother
    exact hstays home hdeparts)
  obtain ⟨new, hnew⟩ : ∃ new, session.relocate.labels.at? a = some new := by
    rw [← Option.isSome_iff_exists, hgains.isSome_iff, hat]
    exact .inl rfl
  rw [hnew] at hgains
  cases hgains with
  | labelled _ hmerged => exact ⟨new, hnew, hmerged⟩

-- A label that moves leaves its rank with the label at its new place.
theorem Departs.exists_home (hwf : session.labels.WellFormed) {home : Address}
    (h : session.Departs label home) :
    ∃ new, session.relocate.labels.at? home = some new ∧ label.kind.rank ≤ new.kind.rank := by
  have hgains := (session.merging_relocate hwf).gains home (by
    rintro other place hdeparts rfl
    exact hdeparts.moves.inside.2 h.isFirst)
  have harrived : label ∈ session.arrived [] home := ⟨h, List.not_mem_nil⟩
  obtain ⟨new, hnew⟩ : ∃ new, session.relocate.labels.at? home = some new := by
    rw [← Option.isSome_iff_exists, hgains.isSome_iff]
    exact .inr ⟨label, harrived⟩
  rw [hnew] at hgains
  cases hgains with
  | labelled _ hmerged => exact ⟨new, hnew, hmerged.rank_le label (.inr harrived)⟩

end Relocation

-- The places near by before an address, in the order in which a label looks for a new one.
def before (a : Address) : List Address := [a - 1, a - 2, a - 3, a - 4]

def RankedAt (session : Session) (a : Address) (rank : Nat) : Prop :=
  ∃ label, session.labels.at? a = some label ∧ rank ≤ label.kind.rank

section Ranks

variable {session : Session} {a : Address} {rank : Nat} {pass : Pass}

theorem RankedAt.relocate (hwf : session.labels.WellFormed) (h : session.RankedAt a rank) :
    session.relocate.RankedAt a rank ∨
      ∃ home ∈ before a, ¬session.memory.isFirst a ∧ session.memory.isFirst home ∧
        session.relocate.RankedAt home rank := by
  obtain ⟨label, hat, hrank⟩ := h
  by_cases hdeparts : ∃ home, session.Departs label home
  · obtain ⟨home, hdeparts⟩ := hdeparts
    obtain ⟨new, hnew, hle⟩ := hdeparts.exists_home hwf
    have haddress := hwf.address_eq hat
    refine .inr ⟨home, ?_, ?_, hdeparts.isFirst, new, hnew, hrank.trans hle⟩
    · rw [before, ← haddress]
      exact List.mem_of_find?_eq_some hdeparts.start
    · rw [← haddress]
      exact hdeparts.moves.inside.2
  · rw [not_exists] at hdeparts
    obtain ⟨new, hnew, hmerged⟩ := merged_relocate hwf hat hdeparts
    exact .inl ⟨new, hnew, hrank.trans (hmerged.rank_le label (.inl hat))⟩

-- What one pass does to the rank known for an address.
theorem RankedAt.after (hwf : session.labels.WellFormed) (h : session.RankedAt a rank)
    (hstart : pass ≠ .enqueueStart) (hlocal : pass ≠ .localize) :
    (session.after pass).RankedAt a rank ∨
      (pass = .relocate ∧ ∃ home ∈ before a, ¬session.memory.isFirst a ∧
        (session.after pass).memory.isFirst home ∧ (session.after pass).RankedAt home rank) := by
  obtain ⟨label, hat, hrank⟩ := id h
  by_cases hpass : pass.rates
  · cases pass with
    | enqueueStart => exact absurd rfl hstart
    | collect =>
        obtain ⟨new, hnew, -, hle, -⟩ := (Search.run_collect session).at? hwf hat
        exact .inl ⟨new, hnew, hrank.trans hle⟩
    | relocate =>
        refine (h.relocate hwf).imp_right ?_
        rintro ⟨home, hbefore, hnot, hfirst, hranked⟩
        exact ⟨rfl, home, hbefore, hnot, session.isFirst_after hwf .relocate hfirst, hranked⟩
    | promoteSubroutines =>
        refine .inl ⟨session.returned label, ?_, hrank.trans ?_⟩
        · rw [Session.after, session.at?_promoteSubroutines hwf, hat, Option.map_some]
        · unfold returned
          split
          · next hreturns =>
            rw [hreturns.1]
            exact Nat.le_succ _
          · exact Nat.le_refl _
    | localize => exact absurd rfl hlocal
    | _ => cases hpass
  · obtain ⟨new, hnew, hkind, -⟩ :=
      (session.steady_after hwf (Bool.eq_false_iff.mpr hpass)).kept a label hat
    exact .inl ⟨new, hnew, hkind ▸ hrank⟩

-- At the beginning of an instruction a label does not move any more.
theorem RankedAt.afterAll_of_isFirst (hwf : session.labels.WellFormed)
    (h : session.RankedAt a rank) (hfirst : session.memory.isFirst a) (passes : List Pass)
    (hstart : .enqueueStart ∉ passes) (hlocal : .localize ∉ passes) :
    (session.afterAll passes).memory.isFirst a ∧ (session.afterAll passes).RankedAt a rank := by
  induction passes generalizing session with
  | nil => exact ⟨hfirst, h⟩
  | cons pass rest ih =>
      rw [List.mem_cons, not_or] at hstart hlocal
      refine ih (session.wellFormed_after hwf pass) ?_ (session.isFirst_after hwf pass hfirst)
        hstart.2 hlocal.2
      rcases h.after hwf (Ne.symm hstart.1) (Ne.symm hlocal.1) with hhere | ⟨-, _, -, hnot, -⟩
      · exact hhere
      · exact absurd hfirst hnot

theorem wellFormed_afterAll (hwf : session.labels.WellFormed) (passes : List Pass) :
    (session.afterAll passes).labels.WellFormed :=
  List.foldlRecOn (motive := fun current : Session => current.labels.WellFormed) passes Session.after
    hwf fun current hcurrent pass _ => current.wellFormed_after hcurrent pass

-- The run either leaves a label where it is, or moves it once to the beginning of an instruction,
-- from where it does not move again.
theorem RankedAt.afterAll (hwf : session.labels.WellFormed) (h : session.RankedAt a rank)
    (passes : List Pass) (hstart : .enqueueStart ∉ passes) (hlocal : .localize ∉ passes) :
    (session.afterAll passes).RankedAt a rank ∨
      (.relocate ∈ passes ∧ ∃ home ∈ before a, (session.afterAll passes).memory.isFirst home ∧
        (session.afterAll passes).RankedAt home rank) := by
  induction passes generalizing session with
  | nil => exact .inl h
  | cons pass rest ih =>
      rw [List.mem_cons, not_or] at hstart hlocal
      have hwf' := session.wellFormed_after hwf pass
      rcases h.after hwf (Ne.symm hstart.1) (Ne.symm hlocal.1) with
        hhere | ⟨rfl, home, hbefore, -, hfirst, hranked⟩
      · refine (ih hwf' hhere hstart.2 hlocal.2).imp_right ?_
        exact fun ⟨hmem, hhome⟩ => ⟨List.mem_cons_of_mem pass hmem, hhome⟩
      · exact .inr ⟨List.mem_cons_self, home, hbefore,
          hranked.afterAll_of_isFirst hwf' hfirst rest hstart.2 hlocal.2⟩

end Ranks

-- Along all passes but those that begin an analysis and that make labels local, in any order and
-- with any decoder, a label keeps its place and at least its rank. Only relocation can replace it,
-- and then a label of at least its rank begins an instruction at most four bytes before it. A label
-- that begins an instruction is never replaced.
theorem passes_never_lower_ranks (session : Session) (hwf : session.labels.WellFormed)
    (passes : List Pass) (hstart : .enqueueStart ∉ passes) (hlocal : .localize ∉ passes)
    (a : Address) (label : Label) (hat : session.labels.at? a = some label) :
    (session.afterAll passes).labels.WellFormed ∧
    ((∃ new, (session.afterAll passes).labels.at? a = some new ∧
        label.kind.rank ≤ new.kind.rank) ∨
      (.relocate ∈ passes ∧ ¬session.memory.isFirst a ∧
        ∃ home ∈ [a - 1, a - 2, a - 3, a - 4], (session.afterAll passes).memory.isFirst home ∧
          ∃ new, (session.afterAll passes).labels.at? home = some new ∧
            label.kind.rank ≤ new.kind.rank)) := by
  have hranked : session.RankedAt a label.kind.rank := ⟨label, hat, Nat.le_refl _⟩
  refine ⟨wellFormed_afterAll hwf passes, ?_⟩
  by_cases hfirst : session.memory.isFirst a
  · exact .inl (hranked.afterAll_of_isFirst hwf hfirst passes hstart hlocal).2
  · exact (hranked.afterAll hwf passes hstart hlocal).imp_right
      fun ⟨hmem, hhome⟩ => ⟨hmem, hfirst, hhome⟩

-- A subroutine in the middle of an instruction, with a data label at the beginning of it.
theorem passes_never_lower_ranks_operand :
    let session : Session :=
      { memory := Memory.empty.markInstruction 0xFFFF 3
        labels := (LabelStore.empty.insert 1 .subroutine).insert 0xFFFF .data }
    let after := session.afterAll [.relocate, .collect, .relocate, .nameLabels]
    after.labels.WellFormed ∧
    ((∃ new, after.labels.at? 1 = some new ∧ Kind.subroutine.rank ≤ new.kind.rank) ∨
      (Pass.relocate ∈ [.relocate, .collect, .relocate, .nameLabels] ∧
        ¬session.memory.isFirst 1 ∧
        ∃ home ∈ [(1 : Address) - 1, 1 - 2, 1 - 3, 1 - 4], after.memory.isFirst home ∧
          ∃ new, after.labels.at? home = some new ∧ Kind.subroutine.rank ≤ new.kind.rank)) := by
  have hwf := LabelStore.wellFormed_empty.insert 1 .subroutine
  refine passes_never_lower_ranks _ (hwf.insert 0xFFFF .data) _ (by decide) (by decide) 1
    { id := 0, address := 1, kind := .subroutine } ?_
  dsimp only
  rw [hwf.at?_insert, if_neg (by decide), LabelStore.wellFormed_empty.at?_insert, if_pos rfl]
  rfl

end Session

end Z80Atlas
