import Mathlib.Data.List.Induction
import Z80Atlas.Proofs.Analysis.Promotion

namespace Z80Atlas

def Label.Spared (old new : Label) : Prop := old.isFixed → new = old

theorem Label.Spared.refl (label : Label) : label.Spared label := fun _ => rfl

theorem Label.Spared.trans (l m n : Label) (h : l.Spared m) (h' : m.Spared n) : l.Spared n := by
  intro hfixed
  obtain rfl := h hfixed
  exact h' hfixed

namespace Session

def StartsAtZero (session : Session) : Prop :=
  session.config.automaticAddresses ∧ session.snapshotStart = none ∧ session.memory.isAssigned 0

-- What makes a pass change the kind of the label at an address, or take the label away. Only the pass
-- that makes labels local looks at whether a label is fixed.
inductive Disturbs (session : Session) (a : Address) (label : Label) : Pass → Prop
  | start (ha : a = 0) (hzero : session.StartsAtZero) (hkind : label.kind ≠ .label) :
      Disturbs session a label .enqueueStart
  -- The search meets the address in a role of higher rank.
  | met (kind : Kind) (x y : Search) (hbefore : Search.Run ⟨session, none⟩ x)
      (hmeets : Search.Meets a kind x y) (hafter : Search.Run y ⟨session.collect, none⟩)
      (hrank : label.kind.rank < kind.rank) : Disturbs session a label .collect
  | moved (home : Address) (hdeparts : session.Departs label home) :
      Disturbs session a label .relocate
  -- A label of higher rank comes to the address.
  | joined (other : Label) (hdeparts : session.Departs other a)
      (hrank : label.kind.rank < other.kind.rank) : Disturbs session a label .relocate
  | returns (hkind : label.kind = .label) (hreturns : session.returns a) :
      Disturbs session a label .promoteSubroutines

def Holds (session : Session) (a : Address) (kind : Kind) : Prop :=
  ∃ label, session.labels.at? a = some label ∧ label.kind = kind ∧ label.isFixed

section Passes

variable {session : Session} {a : Address} {label : Label}

theorem at?_enqueueStart_of_zero (hwf : session.labels.WellFormed) (hzero : session.StartsAtZero)
    (hat : session.labels.at? 0 = some label) :
    session.enqueueStart.labels.at? 0 = some { label with kind := .label } := by
  obtain ⟨hautomatic, hsnapshot, hassigned⟩ := hzero
  have hlabel : session.labels.hasLabel 0 = true := by rw [LabelStore.hasLabel, hat, Option.isSome_some]
  have hplaced := session.placed_modifyAt hwf hat ({ · with kind := .label }) fun _ => ⟨rfl, rfl⟩
  simp only [enqueueStart, hautomatic, hsnapshot, hassigned, hlabel, Bool.not_true, if_true]
  exact hplaced.at?_self

-- Elsewhere, and if the program does not start at address 0, labels stay.
theorem at?_enqueueStart_of_not (hwf : session.labels.WellFormed)
    (hat : session.labels.at? a = some label) (hnot : ¬(a = 0 ∧ session.StartsAtZero)) :
    session.enqueueStart.labels.at? a = some label := by
  by_cases hzero : session.StartsAtZero
  · have ha : 0 ≠ a := fun heq => hnot ⟨heq.symm, hzero⟩
    rcases session.enqueueStart_cases hwf with
      ⟨-, hlabels⟩ | ⟨_, -, hplaced⟩ | ⟨-, -, hplaced⟩
    · rw [hlabels, hat]
    · rw [hplaced.at?_of_ne ha, hat]
    · rw [hplaced.at?_of_ne ha, hat]
  · have hlabels : session.enqueueStart.labels = session.labels := by
      unfold enqueueStart
      split
      · rfl
      · next hautomatic =>
        split
        · rfl
        · next hsnapshot =>
          split
          · rfl
          · next hassigned =>
            exact absurd ⟨by simpa using hautomatic, hsnapshot, by simpa using hassigned⟩ hzero
    rw [hlabels, hat]

theorem holds_enqueueStart_iff (hwf : session.labels.WellFormed)
    (hat : session.labels.at? a = some label) (hfixed : label.isFixed) :
    session.enqueueStart.Holds a label.kind ↔ ¬session.Disturbs a label .enqueueStart := by
  by_cases hzero : a = 0 ∧ session.StartsAtZero
  · obtain ⟨rfl, hstart⟩ := hzero
    have hnew := at?_enqueueStart_of_zero hwf hstart hat
    constructor
    · rintro ⟨new, hat', hkind, -⟩ ⟨-, -, hne⟩
      rw [hnew] at hat'
      cases hat'
      exact hne hkind.symm
    · intro hcalm
      refine ⟨_, hnew, ?_, hfixed⟩
      by_contra hne
      exact hcalm (.start rfl hstart (Ne.symm hne))
  · refine ⟨fun _ => ?_, fun _ => ⟨label, at?_enqueueStart_of_not hwf hat hzero, rfl, hfixed⟩⟩
    rintro ⟨ha, hstart, -⟩
    exact hzero ⟨ha, hstart⟩

-- The rank of a label that is there says whether it has kept its kind.
theorem kind_eq_iff {old new : Label} (hle : old.kind.rank ≤ new.kind.rank) :
    new.kind = old.kind ↔ ¬old.kind.rank < new.kind.rank := by
  constructor
  · intro heq
    rw [heq]
    exact Nat.lt_irrefl _
  · exact fun hnot => Kind.rank_inj (Nat.le_antisymm (Nat.le_of_not_lt hnot) hle)

theorem holds_collect_iff (hwf : session.labels.WellFormed)
    (hat : session.labels.at? a = some label) (hfixed : label.isFixed) :
    session.collect.Holds a label.kind ↔ ¬session.Disturbs a label .collect := by
  obtain ⟨new, hnew, hkeeps, hle, hmeets⟩ := (Search.run_collect session).at? hwf hat
  constructor
  · rintro ⟨other, hother, hkind, -⟩ hdisturbs
    rw [hnew] at hother
    cases hother
    cases hdisturbs with
    | met kind x y hbefore hmeet hafter hrank =>
        -- what the meeting has given is not lost again on the rest of the way
        have hwfx := Search.Run.wellFormed hbefore hwf
        obtain ⟨before, hx, -, -, -⟩ := Search.Run.at? hbefore hwf hat
        obtain ⟨met, hy, -, -, -⟩ := hmeet.step.at? hwfx hx
        obtain ⟨last, hlast, -, hle', -⟩ := Search.Run.at? hafter (hmeet.step.wellFormed hwfx) hy
        rw [hnew] at hlast
        cases hlast
        have hmet := hmeet.rank_le hwfx hy
        rw [hkind] at hle'
        omega
  · intro hcalm
    refine ⟨new, hnew, (kind_eq_iff hle).mpr fun hlt => ?_, hkeeps.trans hfixed⟩
    obtain ⟨kind, x, y, hbefore, hmeet, hafter, hrank⟩ := hmeets hlt
    exact hcalm (.met kind x y hbefore hmeet hafter hrank)

theorem holds_relocate_iff (hwf : session.labels.WellFormed)
    (hat : session.labels.at? a = some label) (hfixed : label.isFixed) :
    session.relocate.Holds a label.kind ↔ ¬session.Disturbs a label .relocate := by
  by_cases hdeparts : ∃ home, session.Departs label home
  · obtain ⟨home, hdeparts⟩ := hdeparts
    refine ⟨?_, fun hcalm => absurd (.moved home hdeparts) hcalm⟩
    rintro ⟨new, hnew, -⟩ -
    have hleft := (session.merging_relocate hwf).left label home hdeparts List.not_mem_nil
    rw [hwf.address_eq hat, hnew] at hleft
    cases hleft
  · rw [not_exists] at hdeparts
    obtain ⟨new, hnew, hmerged⟩ := merged_relocate hwf hat hdeparts
    have hle := hmerged.rank_le label (.inl hat)
    constructor
    · rintro ⟨other, hother, hkind, -⟩ hdisturbs
      rw [hnew] at hother
      cases hother
      cases hdisturbs with
      | moved home hgone => exact hdeparts home hgone
      | joined other hjoins hrank =>
          have hgained := hmerged.rank_le other (.inr ⟨hjoins, List.not_mem_nil⟩)
          rw [hkind] at hgained
          omega
    · intro hcalm
      have hrest : new.rest.isFixed = label.rest.isFixed :=
        congrArg Label.isFixed (hmerged.kept label hat)
      refine ⟨new, hnew, ?_, hrest.trans hfixed⟩
      rcases hmerged.kind_mem with ⟨old, hold, hkind⟩ | ⟨other, ⟨hjoins, -⟩, hkind⟩
      · rw [hkind, Option.mem_unique hold hat]
      · refine (kind_eq_iff hle).mpr fun hlt => hcalm (.joined other hjoins ?_)
        rw [← hkind]
        exact hlt

theorem holds_promoteSubroutines_iff (hwf : session.labels.WellFormed)
    (hat : session.labels.at? a = some label) (hfixed : label.isFixed) :
    session.promoteSubroutines.Holds a label.kind ↔
      ¬session.Disturbs a label .promoteSubroutines := by
  have haddress := hwf.address_eq hat
  have hnew := session.at?_promoteSubroutines hwf a
  rw [hat, Option.map_some, returned, haddress] at hnew
  by_cases hreturns : label.kind = .label ∧ session.returns a
  · rw [if_pos hreturns] at hnew
    refine ⟨?_, fun hcalm => absurd (.returns hreturns.1 hreturns.2) hcalm⟩
    rintro ⟨new, hat', hkind, -⟩ -
    rw [hnew] at hat'
    cases hat'
    rw [hreturns.1] at hkind
    cases hkind
  · rw [if_neg hreturns] at hnew
    refine ⟨fun _ => ?_, fun _ => ⟨label, hnew, rfl, hfixed⟩⟩
    intro hdisturbs
    cases hdisturbs with
    | returns hkind hback => exact hreturns ⟨hkind, hback⟩

-- Making labels local is the one pass that asks whether a label is fixed.
theorem spared_localize (session : Session) :
    session.labels.Revised Label.Spared session.localize.labels := by
  have hdemote : ∀ (members : Addresses) (label : Label), label.Spared (demote members label) := by
    intro members label hfixed
    rw [demote, if_neg]
    simp [hfixed]
  have hrun : session.Revised Label.Spared session.localize := by
    refine .foldl Label.Spared.refl Label.Spared.trans session localizeWithin session.labels.ids
      fun current n _ => ?_
    unfold localizeWithin
    split
    · exact .refl Label.Spared.refl current
    split
    · exact .refl Label.Spared.refl current
    · refine ⟨rfl, ?_⟩
      refine List.foldlRecOn (motive := fun labels => current.labels.Revised Label.Spared labels) _ _
        (.refl Label.Spared.refl current.labels) ?_
      intro labels hlabels b _
      exact hlabels.trans Label.Spared.trans (.modifyAt Label.Spared.refl labels b _ (hdemote _))
  exact hrun.labels

-- Exactly the disturbances listed above change a fixed label, whatever the pass.
theorem holds_after_iff (hwf : session.labels.WellFormed) (hat : session.labels.at? a = some label)
    (hfixed : label.isFixed) (pass : Pass) :
    (session.after pass).Holds a label.kind ↔ ¬session.Disturbs a label pass := by
  by_cases hpass : pass.rates
  · cases pass with
    | enqueueStart => exact holds_enqueueStart_iff hwf hat hfixed
    | collect => exact holds_collect_iff hwf hat hfixed
    | relocate => exact holds_relocate_iff hwf hat hfixed
    | promoteSubroutines => exact holds_promoteSubroutines_iff hwf hat hfixed
    | localize =>
        obtain ⟨new, hnew, hspared⟩ := session.spared_localize.exists_at? hat
        obtain rfl := hspared hfixed
        refine ⟨fun _ => ?_, fun _ => ⟨new, hnew, rfl, hfixed⟩⟩
        rintro ⟨⟩
    | _ => cases hpass
  · obtain ⟨new, hnew, hkind, hkeeps⟩ :=
      (session.steady_after hwf (Bool.eq_false_iff.mpr hpass)).kept a label hat
    refine ⟨fun _ hdisturbs => ?_, fun _ => ⟨new, hnew, hkind, hkeeps.trans hfixed⟩⟩
    cases hdisturbs <;> exact hpass rfl

end Passes

-- A fixed label stays in its place with its kind through a pass exactly if nothing disturbs it, and so
-- it stays through any passes in any order as long as none of them disturbs it. There are five
-- disturbances: the start of the program at address 0, an operand that stands for the label in a role
-- of higher rank, the relocation of the label itself or of a label of higher rank to its place, and
-- code that returns.
theorem fixed_label_stays_iff (session : Session) (hwf : session.labels.WellFormed) (a : Address)
    (label : Label) (hat : session.labels.at? a = some label) (hfixed : label.isFixed) :
    (∀ pass, (session.after pass).Holds a label.kind ↔ ¬session.Disturbs a label pass) ∧
    ∀ passes : List Pass,
      (∀ done pass rest, passes = done ++ pass :: rest → ∀ current,
        (session.afterAll done).labels.at? a = some current →
          ¬(session.afterAll done).Disturbs a current pass) →
      (session.afterAll passes).Holds a label.kind := by
  refine ⟨holds_after_iff hwf hat hfixed, fun passes hcalm => ?_⟩
  -- the induction is on the passes that are done, of which the label has survived all
  induction passes using List.reverseRecOn with
  | nil => exact ⟨label, hat, rfl, hfixed⟩
  | append_singleton done pass ih =>
      obtain ⟨current, hcurrent, hkind, hfixed'⟩ := ih fun first next rest heq =>
        hcalm first next (rest ++ [pass]) (by rw [heq, List.append_assoc, List.cons_append])
      have hstep := (holds_after_iff (wellFormed_afterAll hwf done) hcurrent hfixed' pass).mpr
        (hcalm done pass [] rfl current hcurrent)
      rw [hkind] at hstep
      rw [afterAll, List.foldl_append]
      exact hstep

-- A jump label that is fixed at a return turns into a subroutine.
theorem fixed_label_stays_iff_at_return :
    let program := ({} : Session).load 0x8000 [0xC9]
    let session := program.fixLabel 0x8000 none
    session.labels.WellFormed ∧ session.Holds 0x8000 .label ∧
      ¬(session.after .promoteSubroutines).Holds 0x8000 .label := by
  intro program session
  have hplaced : program.Placed session 0x8000 (program.fixedLabel 0x8000 none) :=
    program.placed_fixLabel LabelStore.wellFormed_empty 0x8000 none
  have hkind : (program.fixedLabel 0x8000 none).kind = .label := by
    rw [fixedLabel, labelOr_of_none (LabelStore.at?_eq_none 0x8000 rfl)]
  have hfixed : (program.fixedLabel 0x8000 none).isFixed := by rw [fixedLabel]
  have hassigned : session.memory.isAssigned 0x8000 := by
    rw [memory_of_ground hplaced.ground]
    simp [program, load, Memory.load, Memory.storeAll, Memory.store, Memory.isAssigned]
  have hret : (session.instructionAt 0x8000).flow.ret := by
    have hbyte : program.memory.byte 0x8000 = 0xC9 := by
      simp [program, load, Memory.load, Memory.storeAll, Memory.byte_store]
    have hdecoder : program.decoder = Z80.decode := rfl
    rw [instructionAt_of_ground hplaced.ground, instructionAt, hdecoder, Z80.decode]
    simp only [hbyte]
    rfl
  have hreturns : session.returns 0x8000 := returns_of_ret hassigned hret
  have hstays := (fixed_label_stays_iff session hplaced.wellFormed 0x8000 _ hplaced.at?_self
    hfixed).1 .promoteSubroutines
  rw [hkind] at hstays
  refine ⟨hplaced.wellFormed, ⟨_, hplaced.at?_self, hkind, hfixed⟩, fun hholds => ?_⟩
  exact hstays.mp hholds (.returns hkind hreturns)

end Session

end Z80Atlas
