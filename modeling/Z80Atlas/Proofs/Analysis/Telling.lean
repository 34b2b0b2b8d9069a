import Z80Atlas.Proofs.Analysis.Ownership
import Z80Atlas.Proofs.Analysis.Passes

namespace Z80Atlas

-- A jump label or a subroutine may turn out to be a subroutine or a local label. Other kinds stay.
def Kind.Settles (old new : Kind) : Prop :=
  new = old ∨ ((old = .label ∨ old = .subroutine) ∧ (new = .subroutine ∨ new.isLocal))

theorem Kind.Settles.trans {first second third : Kind} (h : first.Settles second)
    (h' : second.Settles third) : first.Settles third := by
  rcases h with rfl | ⟨hfirst, hsecond⟩
  · exact h'
  rcases h' with rfl | ⟨-, hthird⟩
  · exact .inr ⟨hfirst, hsecond⟩
  · exact .inr ⟨hfirst, hthird⟩

namespace Label

def Rekinded (old new : Label) : Prop := ∃ kind, new = { old with kind } ∧ old.kind.Settles kind

def Promoted (old new : Label) : Prop :=
  ∃ kind, new = { old with kind } ∧ (kind = old.kind ∨ (old.kind = .label ∧ kind = .subroutine))

def Referred (old new : Label) : Prop := ∃ references, new = { old with references }

def Extended (more : Address → Prop) (old new : Label) : Prop :=
  ∃ references, new = { old with references } ∧ ∀ r, r ∈ references ↔ r ∈ old.references ∨ more r

theorem Rekinded.refl (label : Label) : label.Rekinded label := ⟨label.kind, rfl, .inl rfl⟩

theorem Rekinded.trans (l m n : Label) (h : l.Rekinded m) (h' : m.Rekinded n) : l.Rekinded n := by
  obtain ⟨kind, rfl, hsettles⟩ := h
  obtain ⟨last, rfl, hsettles'⟩ := h'
  exact ⟨last, rfl, hsettles.trans hsettles'⟩

theorem Promoted.refl (label : Label) : label.Promoted label := ⟨label.kind, rfl, .inl rfl⟩

theorem Promoted.trans (l m n : Label) (h : l.Promoted m) (h' : m.Promoted n) : l.Promoted n := by
  obtain ⟨kind, rfl, hkind⟩ := h
  obtain ⟨last, rfl, hlast⟩ := h'
  refine ⟨last, rfl, ?_⟩
  rcases hlast with rfl | ⟨hjump, rfl⟩
  · exact hkind
  · rcases hkind with rfl | ⟨hold, -⟩
    · exact .inr ⟨hjump, rfl⟩
    · exact .inr ⟨hold, rfl⟩

theorem Promoted.rekinded (old new : Label) (h : old.Promoted new) : old.Rekinded new := by
  obtain ⟨kind, rfl, hkind⟩ := h
  exact ⟨kind, rfl, hkind.imp_right fun ⟨hjump, hsubroutine⟩ => ⟨.inl hjump, .inl hsubroutine⟩⟩

theorem Referred.refl (label : Label) : label.Referred label := ⟨label.references, rfl⟩

theorem Referred.trans (l m n : Label) (h : l.Referred m) (h' : m.Referred n) : l.Referred n := by
  obtain ⟨references, rfl⟩ := h
  obtain ⟨last, rfl⟩ := h'
  exact ⟨last, rfl⟩

variable {more further : Address → Prop}

theorem Extended.rel_refl (h : ∀ r, ¬more r) (label? : Option Label) :
    Option.Rel (Extended more) label? label? := by
  cases label? with
  | none => exact .none
  | some label =>
      refine .some ⟨label.references, rfl, fun r => ?_⟩
      exact ⟨.inl, fun hr => hr.resolve_right (h r)⟩

theorem Extended.rel_trans {a b c : Option Label} (h : Option.Rel (Extended more) a b)
    (h' : Option.Rel (Extended further) b c) :
    Option.Rel (Extended fun r => more r ∨ further r) a c := by
  cases h with
  | none =>
      cases h' with
      | none => exact .none
  | some hmore =>
      cases h' with
      | some hfurther =>
          obtain ⟨references, rfl, hmem⟩ := hmore
          obtain ⟨last, rfl, hmem'⟩ := hfurther
          refine .some ⟨last, rfl, fun r => ?_⟩
          rw [hmem', hmem, or_assoc]

end Label

namespace Session

section FlowThrough

-- What the label with a number falls into, if it is a top-level label: the number of another label
-- and the address of the instruction in front of that.
def fallTarget? (session : Session) (n : LabelId) : Option (LabelId × Address) :=
  (session.labels.get? n).bind fun label =>
    if label.kind.isTopLevel then (session.flowsInto? label.address).filter (·.1 ≠ n) else none

def FallsInto (session : Session) (id : LabelId) (r : Address) : Prop :=
  ∃ label ∈ session.labels.live, label.kind.isTopLevel ∧ label.id ≠ id ∧
    session.flowsInto? label.address = some (id, r)

theorem linkFlowThrough_eq (session : Session) (n : LabelId) :
    session.linkFlowThrough n =
      match session.fallTarget? n with
      | none => session
      | some (found, r) => session.modifyLabel found fun label =>
        { label with references := label.references.insert r } := by
  unfold linkFlowThrough fallTarget?
  cases session.labels.get? n with
  | none => rfl
  | some label =>
      by_cases htop : label.kind.isTopLevel
      · cases hflows : session.flowsInto? label.address with
        | none => simp [htop, hflows]
        | some target => by_cases hne : target.1 = n <;> simp [htop, hflows, hne, Option.filter]
      · simp [htop]

theorem referred_linkFlowThrough (session : Session) (n : LabelId) :
    session.Revised Label.Referred (session.linkFlowThrough n) := by
  rw [linkFlowThrough_eq]
  split
  · exact .refl Label.Referred.refl session
  · exact .modifyLabel Label.Referred.refl session _ _ fun label _ => ⟨_, rfl⟩

theorem flowsInto?_of_fallThrough (session : Session) {a following : Address}
    (hassigned : session.memory.isAssigned a)
    (hfall : (session.instructionAt a).fallThrough? a = some following) :
    session.flowsInto? a =
      match session.labels.at? following with
      | some label =>
        if label.kind = .label ∨ label.kind = .subroutine then some (label.id, a)
        else session.flowsInto? following
      | none => session.flowsInto? following := by
  rw [flowsInto?, hassigned]
  split
  · contradiction
  split
  · next hstop =>
    rw [hfall] at hstop
    cases hstop
  · next other hother =>
    rw [hfall] at hother
    cases hother
    rfl

-- Where control falls to does not depend on references.
theorem flowsInto?_of_referred {session other : Session} (h : session.Revised Label.Referred other)
    (a : Address) : other.flowsInto? a = session.flowsInto? a := by
  have hmemory := memory_of_ground h.ground
  have hinstruction := instructionAt_of_ground h.ground
  have hfalls : ∀ a following, ¬(!session.memory.isAssigned a) = true →
      (session.instructionAt a).fallThrough? a = some following →
      other.memory.isAssigned a ∧ (other.instructionAt a).fallThrough? a = some following := by
    intro a following hassigned hfall
    rw [hmemory, hinstruction]
    exact ⟨by simpa using hassigned, hfall⟩
  fun_induction flowsInto? session a with
  | case1 a hfree => rw [flowsInto?, hmemory, if_pos hfree]
  | case2 a hassigned hstop =>
      rw [flowsInto?, hmemory, if_neg hassigned]
      split
      · rfl
      · next following hfall =>
        rw [hinstruction, hstop] at hfall
        cases hfall
  | case3 a hassigned following hfall label hat hkind =>
      obtain ⟨hassigned, hfall⟩ := hfalls a following hassigned hfall
      obtain ⟨new, hnew, references, rfl⟩ := h.labels.exists_at? hat
      simp only [other.flowsInto?_of_fallThrough hassigned hfall, hnew, if_pos hkind]
  | case4 a hassigned following hfall label hat hkind ih =>
      obtain ⟨hassigned, hfall⟩ := hfalls a following hassigned hfall
      obtain ⟨new, hnew, references, rfl⟩ := h.labels.exists_at? hat
      simp only [other.flowsInto?_of_fallThrough hassigned hfall, hnew, if_neg hkind, ih]
  | case5 a hassigned following hfall hat ih =>
      obtain ⟨hassigned, hfall⟩ := hfalls a following hassigned hfall
      have hnew : other.labels.at? following = none := by
        have hrel := h.labels.at?_rel following
        rw [hat] at hrel
        generalize other.labels.at? following = new? at hrel
        cases hrel with
        | none => rfl
      simp only [other.flowsInto?_of_fallThrough hassigned hfall, hnew, ih]

theorem fallTarget?_of_referred {session other : Session} (h : session.Revised Label.Referred other)
    (n : LabelId) : other.fallTarget? n = session.fallTarget? n := by
  have hrel := h.labels.labels n
  simp only [fallTarget?, flowsInto?_of_referred h]
  generalize session.labels.get? n = label? at hrel ⊢
  generalize other.labels.get? n = new? at hrel ⊢
  cases hrel with
  | none => rfl
  | some hreferred =>
      obtain ⟨references, rfl⟩ := hreferred
      rfl

theorem extended_linkFlowThrough (session : Session) (n id : LabelId) :
    Option.Rel (Label.Extended fun r => session.fallTarget? n = some (id, r))
      (session.labels.get? id) ((session.linkFlowThrough n).labels.get? id) := by
  rw [linkFlowThrough_eq]
  cases session.fallTarget? n with
  | none => exact Label.Extended.rel_refl (by simp) _
  | some target =>
      obtain ⟨found, reference⟩ := target
      dsimp only
      rw [modifyLabel, LabelStore.get?_modify]
      by_cases hid : found = id
      · subst hid
        rw [if_pos rfl]
        cases session.labels.get? found with
        | none => exact .none
        | some label =>
            refine .some ⟨_, rfl, fun r => ?_⟩
            rw [Std.TreeSet.mem_insert, Std.LawfulEqCmp.compare_eq_iff_eq, or_comm]
            simp
      · rw [if_neg hid]
        exact Label.Extended.rel_refl (by simp [hid]) _

theorem extended_foldl_linkFlowThrough (session : Session) (ids : List LabelId) (id : LabelId) :
    Option.Rel (Label.Extended fun r => ∃ n ∈ ids, session.fallTarget? n = some (id, r))
      (session.labels.get? id) ((ids.foldl linkFlowThrough session).labels.get? id) := by
  induction ids generalizing session with
  | nil => exact Label.Extended.rel_refl (by simp) _
  | cons n rest ih =>
      have hrest := ih (session.linkFlowThrough n)
      simp only [fallTarget?_of_referred (session.referred_linkFlowThrough n)] at hrest
      have hboth := Label.Extended.rel_trans (session.extended_linkFlowThrough n id) hrest
      simpa only [List.mem_cons, exists_eq_or_imp, List.foldl_cons] using hboth

theorem fallsInto_iff (session : Session) (h : session.labels.WellFormed) (id : LabelId)
    (r : Address) :
    (∃ n ∈ session.labels.ids, session.fallTarget? n = some (id, r)) ↔ session.FallsInto id r := by
  have htarget : ∀ label ∈ session.labels.live, session.fallTarget? label.id = some (id, r) ↔
      label.kind.isTopLevel ∧ label.id ≠ id ∧ session.flowsInto? label.address = some (id, r) := by
    intro label hlive
    rw [fallTarget?, h.get?_of_at? ((h.mem_live label).mp hlive), Option.bind_some]
    by_cases htop : label.kind.isTopLevel
    · simp only [htop, if_true, Option.filter_eq_some_iff, decide_eq_true_eq, true_and]
      exact ⟨fun ⟨hflows, hne⟩ => ⟨Ne.symm hne, hflows⟩, fun ⟨hne, hflows⟩ => ⟨hflows, Ne.symm hne⟩⟩
    · simp [htop]
  rw [FallsInto, ← h.map_id_live]
  constructor
  · rintro ⟨n, hn, hfalls⟩
    obtain ⟨label, hlive, rfl⟩ := List.mem_map.mp hn
    exact ⟨label, hlive, (htarget label hlive).mp hfalls⟩
  · rintro ⟨label, hlive, hfalls⟩
    exact ⟨label.id, List.mem_map_of_mem hlive, (htarget label hlive).mpr hfalls⟩

theorem referred_linkFlowThroughs (session : Session) :
    session.Revised Label.Referred session.linkFlowThroughs :=
  .foldl Label.Referred.refl Label.Referred.trans session linkFlowThrough session.labels.ids
    fun current n _ => current.referred_linkFlowThrough n

-- Linking adds to a live label the references of those that fall into it, and no others.
theorem extended_linkFlowThroughs (session : Session) (h : session.labels.WellFormed) {a : Address}
    {label : Label} (hat : session.linkFlowThroughs.labels.at? a = some label) :
    ∃ old, session.labels.at? a = some old ∧ old.Extended (session.FallsInto old.id) label := by
  have hreferred := session.referred_linkFlowThroughs
  obtain ⟨old, hold, -⟩ := hreferred.labels.exists_before hat
  have hrel := session.extended_foldl_linkFlowThrough session.labels.ids old.id
  simp only [session.fallsInto_iff h] at hrel
  have hnew : session.linkFlowThroughs.labels.get? old.id = some label := by
    rw [LabelStore.at?, LabelStore.idAt?, hreferred.labels.index] at hat
    have hid : session.labels.index[a]? = some old.id := h.id_eq hold
    rw [hid] at hat
    exact hat
  rw [h.get?_of_at? hold] at hrel
  change Option.Rel _ (some old) (session.linkFlowThroughs.labels.get? old.id) at hrel
  rw [hnew] at hrel
  cases hrel with
  | some hextended => exact ⟨old, hold, hextended⟩

end FlowThrough

section Kinds

theorem promoted_promoteReturning (session : Session) (n : LabelId) :
    session.Revised Label.Promoted (session.promoteReturning n) := by
  unfold promoteReturning
  split
  · exact .refl Label.Promoted.refl session
  split
  · next label hlabel hreturns =>
    refine ⟨rfl, .modify Label.Promoted.refl session.labels n _ fun other hother => ?_⟩
    rw [hlabel] at hother
    cases hother
    exact ⟨.subroutine, rfl, .inr ⟨hreturns.1, rfl⟩⟩
  · exact .refl Label.Promoted.refl session

theorem promoted_promoteSubroutines (session : Session) :
    session.Revised Label.Promoted session.promoteSubroutines :=
  .foldl Label.Promoted.refl Label.Promoted.trans session promoteReturning session.labels.ids
    fun current n _ => current.promoted_promoteReturning n

theorem isLocal_localKind (label : Label) : (localKind label).isLocal := by
  unfold localKind
  split
  · rfl
  · rfl

theorem rekinded_demote (members : Addresses) (label : Label) :
    label.Rekinded (demote members label) := by
  unfold demote
  split
  · next h => exact ⟨localKind label, rfl, .inr ⟨h.1, .inr (isLocal_localKind label)⟩⟩
  · exact .refl label

theorem rekinded_localizeWithin (session : Session) (n : LabelId) :
    session.Revised Label.Rekinded (session.localizeWithin n) := by
  unfold localizeWithin
  split
  · exact .refl Label.Rekinded.refl session
  split
  · exact .refl Label.Rekinded.refl session
  · refine ⟨rfl, ?_⟩
    refine List.foldlRecOn (motive := fun labels => session.labels.Revised Label.Rekinded labels) _ _
      (.refl Label.Rekinded.refl session.labels) ?_
    intro labels hlabels a _
    exact hlabels.trans Label.Rekinded.trans
      (.modifyAt Label.Rekinded.refl labels a _ (rekinded_demote _))

theorem rekinded_localize (session : Session) :
    session.Revised Label.Rekinded session.localize :=
  .foldl Label.Rekinded.refl Label.Rekinded.trans session localizeWithin session.labels.ids
    fun current n _ => current.rekinded_localizeWithin n

theorem rekinded_promoteAndLocalize (session : Session) :
    session.Revised Label.Rekinded session.promoteSubroutines.localize :=
  (session.promoted_promoteSubroutines.mono Label.Promoted.rekinded).trans Label.Rekinded.trans
    session.promoteSubroutines.rekinded_localize

end Kinds

section Led

inductive Led (session : Session) : Address → Prop
  | head (a : Address) (hhead : session.Headed a) (hassigned : session.memory.isAssigned a) :
      Led session a
  | flow (a b : Address) (hled : Led session a) (hflows : session.Flows a b)
      (hassigned : session.memory.isAssigned b) : Led session b

variable {session other : Session}

-- The last top-level label on the way governs the address.
theorem Led.exists_governs (hlabels : session.labels.WellFormed) {a : Address} (h : session.Led a) :
    ∃ label ∈ session.labels.live, label.kind.isTopLevel ∧ session.Governs label a := by
  have hown : ∀ a, session.Headed a → session.memory.isAssigned a →
      ∃ label ∈ session.labels.live, label.kind.isTopLevel ∧ session.Governs label a := by
    rintro a ⟨label, hat, htop⟩ hassigned
    have haddress := hlabels.address_eq hat
    have hgoverns : session.Governs label label.address := .own (haddress ▸ hassigned)
    rw [haddress] at hgoverns
    exact ⟨label, hlabels.mem_live_of_at? hat, htop, hgoverns⟩
  induction h with
  | head a hhead hassigned => exact hown a hhead hassigned
  | flow a b _ hflows hassigned ih =>
      by_cases hhead : session.Headed b
      · exact hown b hhead hassigned
      · obtain ⟨label, hlive, htop, hgoverns⟩ := ih
        exact ⟨label, hlive, htop, .flow a b hgoverns hflows hassigned (.inr hhead)⟩

theorem Led.mono (hground : other.ground = session.ground)
    (hheads : ∀ a, session.Headed a → session.memory.isAssigned a → other.Led a) {a : Address}
    (h : session.Led a) : other.Led a := by
  induction h with
  | head a hhead hassigned => exact hheads a hhead hassigned
  | flow a b _ hflows hassigned ih =>
      refine .flow a b ih ?_ ?_
      · rw [Flows, instructionAt_of_ground hground]
        exact hflows
      · rw [memory_of_ground hground]
        exact hassigned

theorem led_of_reaches {start a : Address} (hhead : session.Headed start)
    (h : session.callFree.Reaches start a) : session.Led a := by
  induction h with
  | start hassigned => exact .head start hhead hassigned
  | step a b _ hexit hassigned ih =>
      refine .flow a b ih ?_ hassigned
      simp only [callFree, List.mem_append, Option.mem_toList] at hexit
      refine hexit.imp_right fun hjump => ?_
      unfold Instruction.jump? at hjump
      split at hjump
      · cases hjump
      · exact hjump

theorem coherent_prefix (session : Session) (expected : Option Address) (addresses : List Address) :
    session.coherent expected addresses <+: addresses := by
  induction addresses generalizing expected with
  | nil => exact List.nil_prefix
  | cons a rest ih =>
      rw [coherent]
      split
      · exact (List.prefix_cons_inj a).mpr (ih _)
      · exact List.nil_prefix

-- Of a session only the sizes of instructions matter.
theorem coherent_congr {session other : Session}
    (h : ∀ a, other.instructionAt a = session.instructionAt a) (expected : Option Address)
    (addresses : List Address) :
    other.coherent expected addresses = session.coherent expected addresses := by
  induction addresses generalizing expected with
  | nil => rfl
  | cons a rest ih => simp only [coherent, h, ih]

theorem reaches_of_mem_block {start a : Address} (h : a ∈ session.block start) :
    session.callFree.Reaches start a := by
  have hmem := (List.mem_filter.mp ((session.coherent_prefix _ _).subset h)).1
  rw [Std.TreeSet.mem_toList, Addresses.mem_foldl_insert] at hmem
  rw [← Walk.mem_visited_iff]
  exact hmem.resolve_left Std.TreeSet.not_mem_emptyc

theorem place_demote (members : Addresses) (label : Label) :
    (demote members label).id = label.id ∧ (demote members label).address = label.address := by
  obtain ⟨kind, heq, -⟩ := rekinded_demote members label
  rw [heq]
  exact ⟨rfl, rfl⟩

-- A local label stays what it is.
theorem demote_demote (members : Addresses) (label : Label) :
    demote members (demote members label) = demote members label := by
  by_cases hdemotes : (label.kind = .label ∨ label.kind = .subroutine) ∧ !label.isFixed ∧
      label.references.all members.contains
  · have hlocal := isLocal_localKind label
    rw [demote, demote, if_pos hdemotes]
    apply if_neg
    intro hagain
    have hkind : localKind label = .label ∨ localKind label = .subroutine := hagain.1
    rcases hkind with hkind | hkind <;> simp [hkind, Kind.isLocal] at hlocal
  · have hsame : demote members label = label := if_neg hdemotes
    rw [hsame, hsame]

-- A label that becomes local lies in the block of a routine, so that the routine leads to it.
theorem led_localizeWithin (h : session.labels.WellFormed) {n : LabelId}
    (hn : n ∈ session.labels.ids) {a : Address} (hhead : session.Headed a)
    (hassigned : session.memory.isAssigned a) : (session.localizeWithin n).Led a := by
  obtain ⟨b, hb⟩ := (session.labels.mem_ids n).mp hn
  obtain ⟨owner, hat, rfl, rfl⟩ := h.exists_at? hb
  unfold localizeWithin
  rw [h.get?_of_at? hat]
  dsimp only
  split
  · exact .head a hhead hassigned
  · next htop =>
    generalize (session.block owner.address).foldl (·.insert ·) (∅ : Addresses) = members
    have hmapped := h.mapped_foldl_modifyAt (place_demote members) (demote_demote members)
      ((session.block owner.address).filter (· != owner.address))
    -- whatever is not inside the block keeps its label
    have hstays : ∀ b, b ∉ (session.block owner.address).filter (· != owner.address) →
        session.Headed b → Headed { session with
          labels := ((session.block owner.address).filter (· != owner.address)).foldl
            (fun labels a => labels.modifyAt a (demote members)) session.labels } b := by
      rintro b hb ⟨label, hlabel, hkind⟩
      refine ⟨label, ?_, hkind⟩
      rw [hmapped.live, hlabel, Option.map_some, h.address_eq hlabel, if_neg hb]
    by_cases hinner : a ∈ (session.block owner.address).filter (· != owner.address)
    · have howner := hstays owner.address (by simp) ⟨owner, hat, by simpa using htop⟩
      have hreach := reaches_of_mem_block (List.mem_filter.mp hinner).1
      exact led_of_reaches howner hreach
    · exact .head a (hstays a hinner hhead) hassigned

theorem led_localize (h : session.labels.WellFormed) {a : Address} (hled : session.Led a) :
    session.localize.Led a := by
  have hrun : session.Revised Label.Rekinded session.localize ∧ session.localize.Led a := by
    refine List.foldlRecOn (motive := fun current => session.Revised Label.Rekinded current ∧
      current.Led a) session.labels.ids localizeWithin ⟨.refl Label.Rekinded.refl session, hled⟩ ?_
    rintro current ⟨hrevised, hcurrent⟩ n hn
    have hwf : current.labels.WellFormed := by
      refine hrevised.labels.wellFormed ?_ h
      rintro l m ⟨kind, rfl, -⟩
      exact ⟨rfl, rfl⟩
    rw [← hrevised.labels.ids_eq] at hn
    have hstep := current.rekinded_localizeWithin n
    exact ⟨hrevised.trans Label.Rekinded.trans hstep,
      hcurrent.mono hstep.ground fun b hhead hassigned => led_localizeWithin hwf hn hhead hassigned⟩
  exact hrun.2

end Led

end Session

def Label.Settled (more : Address → Prop) (old new : Label) : Prop :=
  ∃ kind references, new = { old with kind, references } ∧ old.kind.Settles kind ∧
    ∀ r, r ∈ references ↔ r ∈ old.references ∨ more r

namespace Session

theorem settled_told {session : Session} (h : session.located.labels.WellFormed) {a : Address}
    {label : Label} (hat : session.told.labels.at? a = some label) :
    ∃ old, session.located.labels.at? a = some old ∧
      old.Settled (session.located.FallsInto old.id) label := by
  have hkinds := session.located.linkFlowThroughs.rekinded_promoteAndLocalize
  obtain ⟨linked, hlinked, kind, rfl, hsettles⟩ := hkinds.labels.exists_before hat
  obtain ⟨old, hold, references, rfl, hreferences⟩ :=
    session.located.extended_linkFlowThroughs h hlinked
  exact ⟨old, hold, kind, references, rfl, hsettles, hreferences⟩

end Session

end Z80Atlas
