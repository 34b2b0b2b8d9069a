import Z80Atlas.Proofs.Analysis.Telling

namespace Z80Atlas

theorem LabelStore.kindIs_iff (store : LabelStore) (a : Address) (property : Kind → Bool) :
    store.kindIs a property ↔ ∃ label, store.at? a = some label ∧ property label.kind := by
  rw [kindIs, kindAt?, Option.any_map]
  cases store.at? a with
  | none => simp
  | some label => simp

namespace Session

def Continues (session : Session) (a b : Address) : Prop :=
  session.memory.isAssigned b ∧
    ((session.instructionAt a).fallThrough? a = some b ∨ (session.instructionAt a).jump? = some b)

-- The loaded addresses to which control comes from `a` without a call.
def ComesTo (session : Session) (a b : Address) : Prop :=
  session.memory.isAssigned a ∧ Relation.ReflTransGen session.Continues a b

theorem reaches_callFree_iff (session : Session) (a b : Address) :
    session.callFree.Reaches a b ↔ session.ComesTo a b := by
  apply Walk.reaches_iff
  intro x y
  simp only [callFree, Continues, List.mem_append, Option.mem_toList, and_comm]

def ReturnsAt (session : Session) (a : Address) : Prop :=
  session.labels.kindIs a Kind.isSubroutine ∨ (session.instructionAt a).flow.ret

theorem returns_iff (session : Session) (a : Address) :
    session.returns a ↔ ∃ b, session.callFree.Reaches a b ∧ session.ReturnsAt b := by
  rw [returns, Walk.meets_iff]
  simp only [Bool.or_eq_true]
  rfl

theorem returns_of_ret {session : Session} {a : Address} (hassigned : session.memory.isAssigned a)
    (hret : (session.instructionAt a).flow.ret) : session.returns a :=
  (session.returns_iff a).mpr ⟨a, .start hassigned, .inr hret⟩

theorem callFree_of_ground {session other : Session} (h : other.ground = session.ground) :
    other.callFree = session.callFree := by
  simp only [callFree, memory_of_ground h, instructionAt_of_ground h]

def returned (session : Session) (label : Label) : Label :=
  if label.kind = .label ∧ session.returns label.address then { label with kind := .subroutine }
  else label

theorem place_returned (session : Session) (label : Label) :
    (session.returned label).id = label.id ∧ (session.returned label).address = label.address := by
  unfold returned
  split <;> exact ⟨rfl, rfl⟩

section Step

variable (session : Session) (n : LabelId)

theorem get?_promoteReturning (id : LabelId) :
    (session.promoteReturning n).labels.get? id =
      if id = n then (session.labels.get? id).map session.returned else session.labels.get? id := by
  unfold promoteReturning returned
  cases hlabel : session.labels.get? n with
  | none =>
      dsimp only
      split
      · next hid => rw [hid, hlabel, Option.map_none]
      · rfl
  | some label =>
      dsimp only
      by_cases hid : id = n
      · subst hid
        rw [if_pos rfl, hlabel, Option.map_some]
        split
        · rw [modifyLabel, note, LabelStore.get?_modify, if_pos rfl, hlabel, Option.map_some]
        · exact hlabel
      · rw [if_neg hid]
        split
        · rw [modifyLabel, note, LabelStore.get?_modify, if_neg (Ne.symm hid)]
        · rfl

-- A label after the step is the one from before, or was turned into a subroutine.
theorem before_promoteReturning (h : session.labels.WellFormed) {a : Address} {new : Label}
    (hat : (session.promoteReturning n).labels.at? a = some new) :
    ∃ old, session.labels.at? a = some old ∧
      (new = old ∨ session.returns a ∧ new = { old with kind := .subroutine }) := by
  have hrevised := session.promoted_promoteReturning n
  obtain ⟨old, hold, -⟩ := hrevised.labels.exists_before hat
  refine ⟨old, hold, ?_⟩
  have hid : session.labels.index[a]? = some old.id := h.id_eq hold
  rw [LabelStore.at?, LabelStore.idAt?, hrevised.labels.index, hid, Option.bind_some,
    get?_promoteReturning, h.get?_of_at? hold] at hat
  split at hat
  · cases hat
    unfold returned
    split
    · next hreturns => exact .inr ⟨h.address_eq hold ▸ hreturns.2, rfl⟩
    · exact .inl rfl
  · cases hat
    exact .inl rfl

-- A label that turns into a subroutine returns anyway, so that no further label comes to return.
theorem returns_promoteReturning (h : session.labels.WellFormed) (a : Address) :
    (session.promoteReturning n).returns a = session.returns a := by
  have hrevised := session.promoted_promoteReturning n
  have hinstruction := instructionAt_of_ground hrevised.ground
  rw [Bool.eq_iff_iff, returns_iff, returns_iff, callFree_of_ground hrevised.ground]
  constructor
  · rintro ⟨b, hreach, hsubroutine | hret⟩
    · obtain ⟨new, hnew, hkind⟩ := (LabelStore.kindIs_iff _ b _).mp hsubroutine
      obtain ⟨old, hold, rfl | ⟨hreturns, -⟩⟩ := session.before_promoteReturning n h hnew
      · exact ⟨b, hreach, .inl ((LabelStore.kindIs_iff _ b _).mpr ⟨new, hold, hkind⟩)⟩
      · obtain ⟨c, hreach', hreturnsAt⟩ := (session.returns_iff b).mp hreturns
        exact ⟨c, hreach.trans hreach', hreturnsAt⟩
    · rw [hinstruction] at hret
      exact ⟨b, hreach, .inr hret⟩
  · rintro ⟨b, hreach, hsubroutine | hret⟩
    · obtain ⟨old, hold, hkind⟩ := (LabelStore.kindIs_iff _ b _).mp hsubroutine
      obtain ⟨new, hnew, kind, rfl, hsame⟩ := hrevised.labels.exists_at? hold
      refine ⟨b, hreach, .inl ((LabelStore.kindIs_iff _ b _).mpr ⟨_, hnew, ?_⟩)⟩
      rcases hsame with rfl | ⟨-, rfl⟩
      · exact hkind
      · rfl
    · refine ⟨b, hreach, .inr ?_⟩
      rw [hinstruction]
      exact hret

theorem returned_promoteReturning (h : session.labels.WellFormed) :
    (session.promoteReturning n).returned = session.returned := by
  funext label
  unfold returned
  rw [session.returns_promoteReturning n h]

end Step

theorem returned_returned (session : Session) (label : Label) :
    session.returned (session.returned label) = session.returned label := by
  unfold returned
  split
  · rfl
  · rfl

-- What was dealt with has become what it becomes at the start, whatever came before it.
theorem get?_foldl_promoteReturning (session : Session) (h : session.labels.WellFormed)
    (ids : List LabelId) (id : LabelId) :
    (ids.foldl promoteReturning session).labels.get? id =
      if id ∈ ids then (session.labels.get? id).map session.returned else session.labels.get? id := by
  induction ids generalizing session with
  | nil => rfl
  | cons n rest ih =>
      have hwf : (session.promoteReturning n).labels.WellFormed :=
        (session.promoted_promoteReturning n).labels.wellFormed
          (fun l m ⟨kind, heq, _⟩ => heq ▸ ⟨rfl, rfl⟩) h
      rw [List.foldl_cons, ih _ hwf, session.returned_promoteReturning n h, get?_promoteReturning]
      by_cases hn : id = n
      · subst hn
        rw [if_pos rfl, if_pos List.mem_cons_self]
        split
        · rw [Option.map_map]
          exact congrArg (Option.map · _) (funext session.returned_returned)
        · rfl
      · simp only [List.mem_cons, hn, false_or, if_false]

theorem revised_foldl_promoteReturning (session : Session) (ids : List LabelId) :
    session.Revised Label.Promoted (ids.foldl promoteReturning session) :=
  .foldl Label.Promoted.refl Label.Promoted.trans session promoteReturning ids
    fun current n _ => current.promoted_promoteReturning n

-- Exactly the jump labels that return at the start of the pass turn into subroutines, and nothing
-- else about the labels changes.
theorem mapped_promoteSubroutines (session : Session) (h : session.labels.WellFormed) :
    session.labels.Mapped session.returned session.promoteSubroutines.labels := by
  have hindex := session.promoted_promoteSubroutines.labels.index
  have hget := session.get?_foldl_promoteReturning h session.labels.ids
  refine ⟨hindex, fun a => ?_, fun id hid => ?_⟩
  · rw [LabelStore.at?, LabelStore.at?, LabelStore.idAt?, LabelStore.idAt?, hindex]
    cases hid : session.labels.index[a]? with
    | none => rfl
    | some id =>
        have hmem : id ∈ session.labels.ids := (session.labels.mem_ids id).mpr ⟨a, hid⟩
        rw [Option.bind_some, Option.bind_some, promoteSubroutines, hget, if_pos hmem]
  · rw [promoteSubroutines, hget, if_neg hid]

theorem at?_promoteSubroutines (session : Session) (h : session.labels.WellFormed) (a : Address) :
    session.promoteSubroutines.labels.at? a = (session.labels.at? a).map session.returned :=
  (session.mapped_promoteSubroutines h).live a

-- What becomes of a label depends on whether its number is dealt with, and not on when.
theorem labels_foldl_promoteReturning_of_perm (session : Session) (h : session.labels.WellFormed)
    {ids order : List LabelId} (hperm : order.Perm ids) :
    (order.foldl promoteReturning session).labels = (ids.foldl promoteReturning session).labels := by
  apply LabelStore.ext_get?
  · rw [(session.revised_foldl_promoteReturning order).labels.index,
      (session.revised_foldl_promoteReturning ids).labels.index]
  · intro id
    simp only [session.get?_foldl_promoteReturning h, hperm.mem_iff]

theorem returns_promoteSubroutines (session : Session) (h : session.labels.WellFormed) (a : Address) :
    session.promoteSubroutines.returns a = session.returns a := by
  have hrun : session.promoteSubroutines.labels.WellFormed ∧
      session.promoteSubroutines.returns a = session.returns a := by
    refine List.foldlRecOn (motive := fun current : Session => current.labels.WellFormed ∧
      current.returns a = session.returns a) session.labels.ids promoteReturning ⟨h, rfl⟩ ?_
    intro current ⟨hwf, hreturns⟩ n _
    refine ⟨?_, (current.returns_promoteReturning n hwf a).trans hreturns⟩
    exact (current.promoted_promoteReturning n).labels.wellFormed
      (fun l m ⟨kind, heq, _⟩ => heq ▸ ⟨rfl, rfl⟩) hwf
  exact hrun.2

theorem promoteSubroutines_frame (session : Session) :
    session.promoteSubroutines = { session with
      labels := session.promoteSubroutines.labels
      journal := session.promoteSubroutines.journal } := by
  refine List.foldlRecOn (motive := fun current : Session => current = { session with
    labels := current.labels, journal := current.journal }) session.labels.ids promoteReturning rfl ?_
  intro current hcurrent n _
  unfold promoteReturning
  split
  · exact hcurrent
  split
  · rw [modifyLabel, note, hcurrent]
  · exact hcurrent

-- After the pass no jump label is left that returns.
theorem promoteSubroutines_promoteSubroutines (session : Session)
    (h : session.labels.WellFormed) :
    session.promoteSubroutines.promoteSubroutines = session.promoteSubroutines := by
  have hmapped := session.mapped_promoteSubroutines h
  refine List.foldlRecOn (motive := (· = session.promoteSubroutines))
    session.promoteSubroutines.labels.ids promoteReturning rfl ?_
  rintro _ rfl n hn
  have hwf := hmapped.wellFormed (session.place_returned) h
  obtain ⟨a, ha⟩ := (LabelStore.mem_ids _ n).mp hn
  obtain ⟨label, hat, rfl, -⟩ := hwf.exists_at? ha
  rw [promoteReturning, hwf.get?_of_at? hat]
  apply if_neg
  rintro ⟨hkind, hreturns⟩
  rw [session.returns_promoteSubroutines h] at hreturns
  rw [hmapped.live, Option.map_eq_some_iff] at hat
  obtain ⟨old, -, rfl⟩ := hat
  rw [(session.place_returned old).2] at hreturns
  unfold returned at hkind
  split at hkind
  · cases hkind
  · next hstays => exact hstays ⟨hkind, hreturns⟩

-- A label returns if control comes from it, without a call, to a return or a subroutine. Exactly the
-- jump labels that return before the pass turn into subroutines, in whatever order they are dealt with:
-- that others have turned already makes no further label return. Nothing else about labels changes, and
-- a second run changes nothing.
theorem promoteSubroutines_turns_returning (session : Session) (hwf : session.labels.WellFormed) :
    (∀ a, session.returns a ↔ ∃ b, session.ComesTo a b ∧
      (session.labels.kindIs b Kind.isSubroutine ∨ (session.instructionAt b).flow.ret)) ∧
    (∀ a, session.promoteSubroutines.labels.at? a = (session.labels.at? a).map fun label =>
      if label.kind = .label ∧ session.returns a then { label with kind := .subroutine }
      else label) ∧
    session.promoteSubroutines.labels.index = session.labels.index ∧
    (∀ id, id ∉ session.labels.ids →
      session.promoteSubroutines.labels.get? id = session.labels.get? id) ∧
    session.promoteSubroutines = { session with
      labels := session.promoteSubroutines.labels
      journal := session.promoteSubroutines.journal } ∧
    (∀ order : List LabelId, order.Perm session.labels.ids →
      (order.foldl promoteReturning session).labels = session.promoteSubroutines.labels) ∧
    session.promoteSubroutines.promoteSubroutines = session.promoteSubroutines := by
  have hmapped := session.mapped_promoteSubroutines hwf
  refine ⟨fun a => ?_, fun a => ?_, hmapped.index, hmapped.dead, session.promoteSubroutines_frame,
    fun order => session.labels_foldl_promoteReturning_of_perm hwf,
    session.promoteSubroutines_promoteSubroutines hwf⟩
  · simp only [returns_iff, reaches_callFree_iff, ReturnsAt]
  · rw [hmapped.live]
    cases hat : session.labels.at? a with
    | none => rfl
    | some label =>
        rw [Option.map_some, Option.map_some, returned, hwf.address_eq hat]

-- The jump at the lower label leads to the return.
theorem promoteSubroutines_turns_returning_shared_end :
    sharedEnd.labels.WellFormed ∧ sharedEnd.labels.kindAt? 0x8000 = some .label ∧
      sharedEnd.promoteSubroutines.labels.kindAt? 0x8000 = some .subroutine := by
  obtain ⟨middle, lower, upper, hlower, hupper, hkind, -⟩ := placed_sharedEnd
  obtain ⟨hstart, -, hend⟩ := assigned_sharedEnd
  have hat : sharedEnd.labels.at? 0x8000 = some lower := by
    rw [hupper.at?_of_ne (by decide), hlower.at?_self]
  obtain ⟨hreturns, hturns, -⟩ := promoteSubroutines_turns_returning sharedEnd hupper.wellFormed
  have hjump : (sharedEnd.instructionAt 0x8000).jump? = some 0x8003 := by
    rw [Instruction.jump?, flow_sharedEnd.1, if_neg Bool.false_ne_true, jump_sharedEnd]
  have hback : sharedEnd.returns 0x8000 := by
    apply (hreturns 0x8000).mpr
    exact ⟨0x8003, ⟨hstart, .single ⟨hend, .inr hjump⟩⟩, .inr flow_sharedEnd.2⟩
  refine ⟨hupper.wellFormed, ?_, ?_⟩
  · rw [LabelStore.kindAt?, hat, Option.map_some, hkind]
  · rw [LabelStore.kindAt?, hturns, hat, Option.map_some, if_pos ⟨hkind, hback⟩, Option.map_some]

end Session

end Z80Atlas
