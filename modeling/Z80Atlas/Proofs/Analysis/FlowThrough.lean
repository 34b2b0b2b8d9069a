import Z80Atlas.Proofs.Analysis.Telling

namespace Z80Atlas

theorem Instruction.fallThrough?_eq_some_iff (instruction : Instruction) (a b : Address) :
    instruction.fallThrough? a = some b ↔
      ¬instruction.flow.stop ∧ a.next? instruction.size = some b := by
  by_cases hstop : instruction.flow.stop <;> simp [fallThrough?, hstop]

namespace Session

-- A live jump label or subroutine stands at the address. Restarts and local labels do not count.
def Receives (session : Session) (a : Address) (label : Label) : Prop :=
  session.labels.at? a = some label ∧ (label.kind = .label ∨ label.kind = .subroutine)

-- The addresses `way 0, .., way k` follow one another from `a` on. Each but the last holds a loaded
-- instruction that goes on to the next, `label` is the first jump label or subroutine behind `a`, and
-- `p` is the address in front of it.
structure StraightWay (session : Session) (way : Nat → Address) (k : Nat) (a p : Address)
    (label : Label) : Prop where
  pos : 1 ≤ k
  start : way 0 = a
  assigned : ∀ i < k, session.memory.isAssigned (way i)
  continues : ∀ i < k, ¬(session.instructionAt (way i)).flow.stop
  next : ∀ i < k, (way i).next? (session.instructionAt (way i)).size = some (way (i + 1))
  received : session.Receives (way k) label
  unreceived : ∀ i, 0 < i → i < k → ∀ other, ¬session.Receives (way i) other
  last : p = way (k - 1)

def LeadsStraight (session : Session) (a : Address) (id : LabelId) (p : Address) : Prop :=
  ∃ way k label, session.StraightWay way k a p label ∧ label.id = id

section StraightWay

variable {session : Session} {way : Nat → Address} {k : Nat} {a b p : Address} {label : Label}
  {id : LabelId}

theorem StraightWay.single (hassigned : session.memory.isAssigned a)
    (hfall : (session.instructionAt a).fallThrough? a = some b) (hlabel : session.Receives b label) :
    session.StraightWay (fun | 0 => a | _ + 1 => b) 1 a a label := by
  obtain ⟨hcontinues, hnext⟩ := (Instruction.fallThrough?_eq_some_iff _ a b).mp hfall
  have hzero : ∀ i < 1, i = 0 := by omega
  constructor
  · omega
  · rfl
  · intro i hi
    simpa [hzero i hi] using hassigned
  · intro i hi
    simpa [hzero i hi] using hcontinues
  · intro i hi
    simpa [hzero i hi] using hnext
  · exact hlabel
  · omega
  · rfl

theorem StraightWay.cons (h : session.StraightWay way k b p label)
    (hassigned : session.memory.isAssigned a)
    (hfall : (session.instructionAt a).fallThrough? a = some b)
    (hfree : ∀ other, ¬session.Receives b other) :
    session.StraightWay (fun | 0 => a | i + 1 => way i) (k + 1) a p label := by
  obtain ⟨hcontinues, hnext⟩ := (Instruction.fallThrough?_eq_some_iff _ a b).mp hfall
  constructor
  · omega
  · rfl
  · intro i hi
    cases i with
    | zero => exact hassigned
    | succ i => exact h.assigned i (by omega)
  · intro i hi
    cases i with
    | zero => exact hcontinues
    | succ i => exact h.continues i (by omega)
  · intro i hi
    cases i with
    | zero => simpa [h.start] using hnext
    | succ i => exact h.next i (by omega)
  · exact h.received
  · intro i hpos hi
    obtain ⟨i, rfl⟩ : ∃ j, i = j + 1 := ⟨i - 1, by omega⟩
    by_cases hzero : i = 0
    · subst hzero
      simpa [h.start] using hfree
    · exact h.unreceived i (by omega) (by omega)
  · obtain ⟨j, rfl⟩ : ∃ j, k = j + 1 := ⟨k - 1, by have := h.pos; omega⟩
    exact h.last

theorem StraightWay.tail (h : session.StraightWay way k a p label) (hk : 1 < k) :
    session.StraightWay (fun i => way (i + 1)) (k - 1) (way 1) p label := by
  have hlast : k - 1 + 1 = k := by omega
  refine ⟨by omega, rfl, ?_, ?_, ?_, ?_, ?_, ?_⟩
  · exact fun i hi => h.assigned (i + 1) (by omega)
  · exact fun i hi => h.continues (i + 1) (by omega)
  · exact fun i hi => h.next (i + 1) (by omega)
  · simpa [hlast] using h.received
  · exact fun i hpos hi => h.unreceived (i + 1) (by omega) (by omega)
  · simpa [show k - 1 - 1 + 1 = k - 1 by omega] using h.last

theorem StraightWay.first_step (h : session.StraightWay way k a p label) :
    session.memory.isAssigned a ∧ (session.instructionAt a).fallThrough? a = some (way 1) := by
  have hpos := h.pos
  rw [Instruction.fallThrough?_eq_some_iff, ← h.start]
  exact ⟨h.assigned 0 (by omega), h.continues 0 (by omega), h.next 0 (by omega)⟩

-- A way ends with its first step where that leads to a label that receives it.
theorem leadsStraight_of_receives (hassigned : session.memory.isAssigned a)
    (hfall : (session.instructionAt a).fallThrough? a = some b)
    (hlabel : session.Receives b label) :
    session.LeadsStraight a id p ↔ label.id = id ∧ a = p := by
  constructor
  · rintro ⟨way, k, other, h, rfl⟩
    have hb : way 1 = b := by simpa [hfall] using h.first_step.2.symm
    have hk : k = 1 := by
      by_contra hne
      have hpos := h.pos
      exact h.unreceived 1 (by omega) (by omega) label (hb ▸ hlabel)
    subst hk
    have hother := h.received
    rw [hb, Receives, hlabel.1] at hother
    cases hother.1
    exact ⟨rfl, by rw [h.last, h.start]⟩
  · rintro ⟨rfl, rfl⟩
    exact ⟨_, 1, label, .single hassigned hfall hlabel, rfl⟩

-- Otherwise it goes on from there.
theorem leadsStraight_of_not_receives (hassigned : session.memory.isAssigned a)
    (hfall : (session.instructionAt a).fallThrough? a = some b)
    (hfree : ∀ other, ¬session.Receives b other) :
    session.LeadsStraight a id p ↔ session.LeadsStraight b id p := by
  constructor
  · rintro ⟨way, k, label, h, hid⟩
    have hb : way 1 = b := by simpa [hfall] using h.first_step.2.symm
    have hk : 1 < k := by
      by_contra hle
      have hone : k = 1 := by have := h.pos; omega
      subst hone
      exact hfree label (hb ▸ h.received)
    exact ⟨_, k - 1, label, hb ▸ h.tail hk, hid⟩
  · rintro ⟨way, k, label, h, hid⟩
    exact ⟨_, k + 1, label, h.cons hassigned hfall hfree, hid⟩

theorem flowsInto?_eq_some_iff (session : Session) (a : Address) (id : LabelId) (p : Address) :
    session.flowsInto? a = some (id, p) ↔ session.LeadsStraight a id p := by
  fun_induction flowsInto? session a with
  | case1 a hfree =>
      refine iff_of_false (by simp) ?_
      rintro ⟨way, k, label, h, -⟩
      simp [h.first_step.1] at hfree
  | case2 a hassigned hstop =>
      refine iff_of_false (by simp) ?_
      rintro ⟨way, k, label, h, -⟩
      simp [h.first_step.2] at hstop
  | case3 a hassigned b hfall label hat hkind =>
      rw [leadsStraight_of_receives (by simpa using hassigned) hfall ⟨hat, hkind⟩]
      simp
  | case4 a hassigned b hfall label hat hkind ih =>
      rw [ih, leadsStraight_of_not_receives (by simpa using hassigned) hfall]
      intro other hother
      rw [Receives, hat] at hother
      cases hother.1
      exact hkind hother.2
  | case5 a hassigned b hfall hat ih =>
      rw [ih, leadsStraight_of_not_receives (by simpa using hassigned) hfall]
      intro other hother
      rw [Receives, hat] at hother
      cases hother.1

end StraightWay

theorem linkFlowThroughs_frame (session : Session) :
    session.linkFlowThroughs = { session with labels := session.linkFlowThroughs.labels } := by
  refine List.foldlRecOn (motive := fun current : Session =>
    current = { session with labels := current.labels }) session.labels.ids linkFlowThrough rfl ?_
  intro current hcurrent n _
  rw [linkFlowThrough_eq]
  split
  · exact hcurrent
  · rw [modifyLabel, hcurrent]

theorem fallTarget?_eq_some_iff (session : Session) (n id : LabelId) (r : Address) :
    session.fallTarget? n = some (id, r) ↔ n ≠ id ∧ ∃ source, session.labels.get? n = some source ∧
      source.kind.isTopLevel ∧ session.LeadsStraight source.address id r := by
  unfold fallTarget?
  cases session.labels.get? n with
  | none => simp
  | some source =>
      by_cases htop : source.kind.isTopLevel
      · simp only [← flowsInto?_eq_some_iff, Option.bind_some, htop, if_true,
          Option.filter_eq_some_iff, decide_eq_true_eq, Option.some.injEq, exists_eq_left', true_and]
        rw [and_comm, ne_comm]
      · simp [htop]

-- The search for the label that control falls into is exact, and so are the references made from it: a
-- label gets those of the other live top-level labels from which a straight way leads to it. It keeps
-- the references that it had, and nothing else changes.
theorem linkFlowThroughs_adds_straight_ways (session : Session) :
    (∀ a id p, session.flowsInto? a = some (id, p) ↔
      ∃ way k label, session.StraightWay way k a p label ∧ label.id = id) ∧
    (∀ id label, session.labels.get? id = some label → ∃ references,
      session.linkFlowThroughs.labels.get? id = some { label with references } ∧
      ∀ r, r ∈ references ↔ r ∈ label.references ∨
        ∃ n ∈ session.labels.ids, n ≠ id ∧ ∃ source, session.labels.get? n = some source ∧
          source.kind.isTopLevel ∧
          ∃ way k target, session.StraightWay way k source.address r target ∧ target.id = id) ∧
    (∀ id, session.labels.get? id = none → session.linkFlowThroughs.labels.get? id = none) ∧
    session.linkFlowThroughs.labels.index = session.labels.index ∧
    session.linkFlowThroughs = { session with labels := session.linkFlowThroughs.labels } := by
  have hlinked : ∀ id, Option.Rel
      (Label.Extended fun r => ∃ n ∈ session.labels.ids, session.fallTarget? n = some (id, r))
      (session.labels.get? id) (session.linkFlowThroughs.labels.get? id) :=
    session.extended_foldl_linkFlowThrough session.labels.ids
  simp only [fallTarget?_eq_some_iff] at hlinked
  refine ⟨session.flowsInto?_eq_some_iff, ?_, ?_, session.referred_linkFlowThroughs.labels.index,
    session.linkFlowThroughs_frame⟩
  · intro id label hget
    have hrel := hlinked id
    rw [hget] at hrel
    generalize session.linkFlowThroughs.labels.get? id = new? at hrel ⊢
    cases hrel with
    | some hextended =>
        obtain ⟨references, rfl, hmem⟩ := hextended
        exact ⟨references, rfl, hmem⟩
  · intro id hget
    have hrel := hlinked id
    rw [hget] at hrel
    generalize session.linkFlowThroughs.labels.get? id = new? at hrel ⊢
    cases hrel with
    | none => rfl

end Session

end Z80Atlas
