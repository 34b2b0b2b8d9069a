import Mathlib.Data.List.Sort
import Z80Atlas.Proofs.Analysis.Returning

namespace Z80Atlas

namespace Session

section Found

variable (found : List Address) (start : Address)

-- What a walk has found at or above an address is looked at in ascending order.
theorem pairwise_found :
    ((found.foldl (·.insert ·) (∅ : Addresses)).toList.filter (start ≤ ·)).Pairwise (· < ·) := by
  have hordered : (found.foldl (·.insert ·) (∅ : Addresses)).toList.Pairwise (· < ·) :=
    Std.TreeSet.ordered_toList.imp Std.compare_eq_lt.mp
  exact hordered.filter _

theorem mem_found (a : Address) :
    a ∈ (found.foldl (·.insert ·) (∅ : Addresses)).toList.filter (start ≤ ·) ↔
      a ∈ found ∧ start ≤ a := by
  simp [Addresses.mem_foldl_insert]

end Found

section Block

variable {session other : Session} {owner a : Address}

-- The block of a routine is a matter of the program, not of the labels.
theorem block_of_ground (h : other.ground = session.ground) (owner : Address) :
    other.block owner = session.block owner := by
  simp only [block, callFree_of_ground h, coherent_congr (instructionAt_of_ground h)]

theorem le_of_mem_block (h : a ∈ session.block owner) : owner ≤ a := by
  have hmem := (session.coherent_prefix _ _).subset h
  simpa using (List.mem_filter.mp hmem).2

theorem mem_inner_iff :
    a ∈ (session.block owner).filter (· != owner) ↔ owner < a ∧ a ∈ session.block owner := by
  rw [List.mem_filter, bne_iff_ne, and_comm]
  refine and_congr_left fun hmem => ?_
  have hle := le_of_mem_block hmem
  rw [UInt16.lt_iff_le_and_ne, Ne, Ne, Eq.comm (a := a)]
  exact ⟨fun hne => ⟨hle, hne⟩, fun hlt => hlt.2⟩

-- The block is what follows without a gap in any ascending list of the reach.
theorem block_eq_coherent (reach : List Address) (hordered : reach.Pairwise (· < ·))
    (hreach : ∀ b, b ∈ reach ↔ session.callFree.Reaches owner b ∧ owner ≤ b) :
    session.block owner = session.coherent (some owner) reach := by
  unfold block
  dsimp only
  congr 1
  apply (pairwise_found _ owner).eq_of_mem_iff hordered
  intro b
  rw [mem_found, hreach, Walk.mem_visited_iff]

end Block

-- The routine at `owner` has the label to itself: the label stands in its block, behind its entry, and
-- is used from the block only.
@[mk_iff]
structure Confines (session : Session) (owner : Address) (label : Label) : Prop where
  below : owner < label.address
  mem_block : label.address ∈ session.block owner
  references : ∀ r ∈ label.references, r ∈ session.block owner

@[mk_iff]
structure BecomesLocal (session : Session) (isOwner : Address → Prop) (label : Label) : Prop where
  kind : label.kind = .label ∨ label.kind = .subroutine
  free : ¬label.isFixed
  confined : ∃ owner, isOwner owner ∧ session.Confines owner label

open Classical in
noncomputable def localized (session : Session) (isOwner : Address → Prop) (label : Label) : Label :=
  if session.BecomesLocal isOwner label then { label with kind := localKind label } else label

section Localized

variable {session : Session} {isOwner further : Address → Prop} {label : Label}

theorem localized_of (h : session.BecomesLocal isOwner label) :
    session.localized isOwner label = { label with kind := localKind label } := if_pos h

theorem localized_of_not (h : ¬session.BecomesLocal isOwner label) :
    session.localized isOwner label = label := if_neg h

theorem place_localized (session : Session) (isOwner : Address → Prop) (label : Label) :
    (session.localized isOwner label).id = label.id ∧
      (session.localized isOwner label).address = label.address := by
  unfold localized
  split <;> exact ⟨rfl, rfl⟩

theorem localized_eq_of_iff {other : Session}
    (h : other.BecomesLocal further label ↔ session.BecomesLocal isOwner label) :
    other.localized further label = session.localized isOwner label := by
  by_cases hlocal : session.BecomesLocal isOwner label
  · rw [localized_of hlocal, localized_of (h.mpr hlocal)]
  · rw [localized_of_not hlocal, localized_of_not (mt h.mp hlocal)]

-- Only routines below a label have a say in what becomes of it.
theorem localized_congr (h : ∀ owner, owner < label.address → (isOwner owner ↔ further owner)) :
    session.localized isOwner label = session.localized further label := by
  apply localized_eq_of_iff
  simp only [becomesLocal_iff]
  refine and_congr_right fun _ => and_congr_right fun _ => exists_congr fun owner => ?_
  exact and_congr_left fun hconfines => h owner hconfines.below

theorem localized_of_ground {other : Session} (h : other.ground = session.ground) :
    other.localized isOwner label = session.localized isOwner label := by
  apply localized_eq_of_iff
  simp only [becomesLocal_iff, confines_iff, block_of_ground h]

theorem not_becomesLocal_of_isLocal (h : label.kind.isLocal) :
    ¬session.BecomesLocal isOwner label := by
  intro hlocal
  rcases hlocal.kind with hkind | hkind <;> simp [hkind, Kind.isLocal] at h

-- A label that has given way stays, so that it does not matter which of the routines comes first.
theorem localized_localized :
    session.localized further (session.localized isOwner label) =
      session.localized (fun b => isOwner b ∨ further b) label := by
  by_cases hbefore : session.BecomesLocal isOwner label
  · obtain ⟨hkind, hfree, owner, howner, hconfines⟩ := id hbefore
    rw [localized_of hbefore, localized_of ⟨hkind, hfree, owner, .inl howner, hconfines⟩]
    exact localized_of_not (not_becomesLocal_of_isLocal (isLocal_localKind label))
  · rw [localized_of_not hbefore]
    apply localized_eq_of_iff
    constructor
    · intro ⟨hkind, hfree, owner, howner, hconfines⟩
      exact ⟨hkind, hfree, owner, .inr howner, hconfines⟩
    · intro ⟨hkind, hfree, owner, howner, hconfines⟩
      refine ⟨hkind, hfree, owner, howner.resolve_left fun hold => ?_, hconfines⟩
      exact hbefore ⟨hkind, hfree, owner, hold, hconfines⟩

-- What one routine makes of a label.
theorem demote_eq_localized (owner : Address) {members : Addresses}
    (hmembers : ∀ a, a ∈ members ↔ a ∈ session.block owner) :
    (if label.address ∈ (session.block owner).filter (· != owner) then demote members label
      else label) = session.localized (· = owner) label := by
  have hreferences : label.references.all members.contains ↔
      ∀ r ∈ label.references, r ∈ session.block owner := by
    simp only [Addresses.all_iff, Std.TreeSet.contains_iff_mem, hmembers]
  by_cases hlocal : session.BecomesLocal (· = owner) label
  · obtain ⟨hkind, hfree, _, rfl, hconfines⟩ := id hlocal
    rw [localized_of hlocal, if_pos (mem_inner_iff.mpr ⟨hconfines.below, hconfines.mem_block⟩)]
    exact if_pos ⟨hkind, by simpa using hfree, hreferences.mpr hconfines.references⟩
  · rw [localized_of_not hlocal]
    split
    · next hinner =>
      obtain ⟨hbelow, hblock⟩ := mem_inner_iff.mp hinner
      apply if_neg
      intro ⟨hkind, hfree, hall⟩
      exact hlocal ⟨hkind, by simpa using hfree, owner, rfl, hbelow, hblock, hreferences.mp hall⟩
    · rfl

end Localized

-- The invariant of making labels local: the top-level labels dealt with have had their say, and all
-- else is as it was.
structure Localizing (session current : Session) (done : List Label) : Prop where
  frame : current = { session with labels := current.labels }
  mapped : session.labels.Mapped (session.localized fun b =>
    current.labels.kindIs b Kind.isTopLevel ∧ ∃ label ∈ done, label.address = b) current.labels

section Localizing

variable {session current : Session} {done : List Label} {label : Label}

theorem mapped_localizeWithin (hwf : current.labels.WellFormed)
    (hat : current.labels.at? label.address = some label) (htop : label.kind.isTopLevel) :
    current.labels.Mapped (current.localized (· = label.address))
      (current.localizeWithin label.id).labels := by
  have hmembers : ∀ a, a ∈ (current.block label.address).foldl (·.insert ·) (∅ : Addresses) ↔
      a ∈ current.block label.address := by
    intro a
    rw [Addresses.mem_foldl_insert]
    simp
  unfold localizeWithin
  rw [hwf.get?_of_at? hat]
  simp only [htop, Bool.not_true, Bool.false_eq_true, if_false]
  apply (hwf.mapped_foldl_modifyAt (place_demote _) (demote_demote _) _).congr
  intro a other _
  exact (demote_eq_localized label.address hmembers).symm

theorem localizeWithin_frame (current : Session) (n : LabelId) :
    current.localizeWithin n = { current with labels := (current.localizeWithin n).labels } := by
  unfold localizeWithin
  split
  · rfl
  · split <;> rfl

-- A routine leaves alone what does not lie behind its entry.
theorem at?_localizeWithin_of_le (hwf : current.labels.WellFormed)
    (hat : current.labels.at? label.address = some label) {a : Address} (ha : a ≤ label.address) :
    (current.localizeWithin label.id).labels.at? a = current.labels.at? a := by
  by_cases htop : label.kind.isTopLevel
  · rw [(mapped_localizeWithin hwf hat htop).live]
    cases hother : current.labels.at? a with
    | none => rfl
    | some other =>
        rw [Option.map_some, localized_of_not]
        intro hlocal
        obtain ⟨_, rfl, hconfines⟩ := hlocal.confined
        have hbelow := hconfines.below
        rw [hwf.address_eq hother] at hbelow
        exact UInt16.not_lt.mpr ha hbelow
  · rw [localizeWithin, hwf.get?_of_at? hat]
    simp [htop]

theorem Localizing.step (h : session.Localizing current done) (hwf : session.labels.WellFormed)
    (hlive : session.labels.at? label.address = some label)
    (hdone : ∀ other ∈ done, other.address < label.address) :
    session.Localizing (current.localizeWithin label.id) (done ++ [label]) := by
  have hground : current.ground = session.ground := by
    rw [h.frame]
    rfl
  have hwf' := h.mapped.wellFormed (session.place_localized _) hwf
  have hframe := current.localizeWithin_frame label.id
  obtain ⟨owner, hat, hid, haddress⟩ : ∃ owner, current.labels.at? label.address = some owner ∧
      owner.id = label.id ∧ owner.address = label.address :=
    ⟨_, by rw [h.mapped.live, hlive, Option.map_some], session.place_localized _ label⟩
  have hstays : ∀ b, b ≤ label.address →
      (current.localizeWithin label.id).labels.kindIs b Kind.isTopLevel =
        current.labels.kindIs b Kind.isTopLevel := by
    intro b hb
    have hsame := at?_localizeWithin_of_le hwf' (haddress ▸ hat) (haddress ▸ hb)
    rw [hid] at hsame
    simp only [LabelStore.kindIs, LabelStore.kindAt?, hsame]
  -- what was dealt with lies below the label, so that only the label itself can be a new owner
  have howners : ∀ b, ((current.localizeWithin label.id).labels.kindIs b Kind.isTopLevel ∧
      ∃ other ∈ done ++ [label], other.address = b) ↔
      (current.labels.kindIs b Kind.isTopLevel ∧ ∃ other ∈ done, other.address = b) ∨
        (b = label.address ∧ owner.kind.isTopLevel) := by
    intro b
    have hown : current.labels.kindIs label.address Kind.isTopLevel ↔ owner.kind.isTopLevel := by
      rw [LabelStore.kindIs_iff, hat]
      simp
    constructor
    · rintro ⟨hkind, other, hother, rfl⟩
      rcases List.mem_append.mp hother with hold | hlast
      · rw [hstays _ (UInt16.le_of_lt (hdone other hold))] at hkind
        exact .inl ⟨hkind, other, hold, rfl⟩
      · rw [List.mem_singleton.mp hlast, hstays _ (UInt16.le_refl _)] at hkind
        exact .inr ⟨by rw [List.mem_singleton.mp hlast], hown.mp hkind⟩
    · rintro (⟨hkind, other, hold, rfl⟩ | ⟨rfl, htop⟩)
      · rw [hstays _ (UInt16.le_of_lt (hdone other hold))]
        exact ⟨hkind, other, List.mem_append_left _ hold, rfl⟩
      · rw [hstays _ (UInt16.le_refl _)]
        exact ⟨hown.mpr htop, label, List.mem_append_right _ (List.mem_singleton_self label), rfl⟩
  by_cases htop : owner.kind.isTopLevel
  · have hmapped := mapped_localizeWithin hwf' (haddress ▸ hat) htop
    rw [hid, haddress] at hmapped
    refine ⟨by rw [hframe, h.frame], (h.mapped.trans hmapped).congr fun a other _ => ?_⟩
    rw [Function.comp_apply, localized_of_ground hground, localized_localized]
    exact localized_congr fun b _ => by rw [howners, and_iff_left htop]
  · have hsame : current.localizeWithin label.id = current := by
      rw [localizeWithin, ← hid, hwf'.get?_of_at? (haddress ▸ hat)]
      simp [htop]
    rw [hsame] at howners ⊢
    refine ⟨h.frame, h.mapped.congr fun a other _ => localized_congr fun b _ => ?_⟩
    rw [howners]
    simp [htop]

theorem Localizing.foldl (h : session.Localizing current done) (hwf : session.labels.WellFormed)
    (rest : List Label) (hsplit : done ++ rest = session.labels.live) :
    session.Localizing ((rest.map (·.id)).foldl localizeWithin current) session.labels.live := by
  induction rest generalizing current done with
  | nil =>
      rw [List.append_nil] at hsplit
      exact hsplit ▸ h
  | cons label rest ih =>
      have hordered := hwf.pairwise_live
      rw [← hsplit, List.pairwise_append] at hordered
      have hlive : label ∈ session.labels.live := by simp [← hsplit]
      refine ih (h.step hwf ((hwf.mem_live label).mp hlive) fun other hother => ?_) (by simpa using hsplit)
      exact hordered.2.2 other hother label List.mem_cons_self

end Localizing

section Solution

variable {session : Session}

-- Making labels local changes labels only, and the labels that stay top-level are the owners.
theorem localize_mapped (hwf : session.labels.WellFormed) :
    session.localize = { session with labels := session.localize.labels } ∧
    session.labels.Mapped (session.localized (session.localize.labels.kindIs · Kind.isTopLevel))
      session.localize.labels := by
  have hstart : session.Localizing session [] :=
    ⟨rfl, (LabelStore.Mapped.refl session.labels).congr fun a label _ =>
      localized_of_not fun hlocal => by simpa using hlocal.confined⟩
  have hrun : session.Localizing session.localize session.labels.live := by
    rw [localize, ← hwf.map_id_live]
    exact hstart.foldl hwf session.labels.live rfl
  refine ⟨hrun.frame, hrun.mapped.congr fun a label _ => localized_congr fun b _ => ?_⟩
  refine ⟨fun htop => ⟨htop, ?_⟩, And.left⟩
  obtain ⟨new, hnew, -⟩ := (LabelStore.kindIs_iff _ b _).mp htop
  rw [hrun.mapped.live, Option.map_eq_some_iff] at hnew
  obtain ⟨old, hold, -⟩ := hnew
  exact ⟨old, hwf.mem_live_of_at? hold, hwf.address_eq hold⟩

-- Which labels are local depends on which labels below them are, so that there is one solution only.
theorem eq_of_mapped (hwf : session.labels.WellFormed) {labels other : LabelStore}
    (h : session.labels.Mapped (session.localized (labels.kindIs · Kind.isTopLevel)) labels)
    (h' : session.labels.Mapped (session.localized (other.kindIs · Kind.isTopLevel)) other) :
    labels = other := by
  refine h'.eq_of_at? h fun a => ?_
  induction hn : a.toNat using Nat.strong_induction_on generalizing a with
  | h n ih =>
      rw [h.live, h'.live]
      cases hat : session.labels.at? a with
      | none => rfl
      | some label =>
          rw [Option.map_some, Option.map_some]
          congr 1
          apply localized_congr
          intro b hb
          rw [hwf.address_eq hat, UInt16.lt_iff_toNat_lt] at hb
          simp only [LabelStore.kindIs, LabelStore.kindAt?, ih b.toNat (hn ▸ hb) b rfl]

theorem localize_localize (hwf : session.labels.WellFormed) :
    session.localize.localize = session.localize := by
  obtain ⟨hframe, hmapped⟩ := localize_mapped hwf
  have hground : session.localize.ground = session.ground := by
    rw [hframe]
    rfl
  have hwf' := hmapped.wellFormed (session.place_localized _) hwf
  obtain ⟨hframe', hmapped'⟩ := localize_mapped hwf'
  -- the labels are a solution already, since nothing gives way twice
  have hsame : session.localize.localize.labels = session.localize.labels := by
    refine eq_of_mapped hwf' hmapped' ((LabelStore.Mapped.refl _).congr fun a label hat => ?_)
    rw [hmapped.live, Option.map_eq_some_iff] at hat
    obtain ⟨old, -, rfl⟩ := hat
    rw [localized_of_ground hground, localized_localized]
    exact localized_congr fun b _ => or_self_iff
  rw [hframe', hsame]

end Solution

-- The owner is a label of its own.
theorem becomesLocal_kindIs_iff {session : Session} {labels : LabelStore} (hwf : labels.WellFormed)
    {label : Label} :
    session.BecomesLocal (labels.kindIs · Kind.isTopLevel) label ↔
      (label.kind = .label ∨ label.kind = .subroutine) ∧ ¬label.isFixed ∧
        ∃ owner, labels.at? owner.address = some owner ∧ owner.kind.isTopLevel ∧
          session.Confines owner.address label := by
  rw [becomesLocal_iff]
  refine and_congr_right fun _ => and_congr_right fun _ => ?_
  constructor
  · rintro ⟨b, hb, hconfines⟩
    obtain ⟨owner, howner, htop⟩ := (labels.kindIs_iff b _).mp hb
    obtain rfl := hwf.address_eq howner
    exact ⟨owner, howner, htop, hconfines⟩
  · rintro ⟨owner, howner, htop, hconfines⟩
    exact ⟨owner.address, (labels.kindIs_iff _ _).mpr ⟨owner, howner, htop⟩, hconfines⟩

theorem localKind_eq_localLoop_iff (label : Label) :
    localKind label = .localLoop ↔
      ∃ r ∈ label.references, label.address ≤ r ∧ r.toNat ≤ label.address.toNat + 128 := by
  have hnear : ∀ r : Address, (label.address ≤ r && r.toNat - label.address.toNat ≤ 128) = true ↔
      label.address ≤ r ∧ r.toNat ≤ label.address.toNat + 128 := by
    intro r
    simp only [Bool.and_eq_true, decide_eq_true_eq, UInt16.le_iff_toNat_le]
    omega
  simp only [localKind, ← hnear, ← Addresses.any_iff]
  split
  · simp_all
  · simp_all

theorem localKind_cases (label : Label) :
    localKind label = .localLoop ∨ localKind label = .localLabel := by
  unfold localKind
  split
  · exact .inl rfl
  · exact .inr rfl

-- A label becomes local exactly if it is a jump label or a subroutine, was not fixed, and a label
-- below it that stays top-level has it to itself; a short way back from its uses makes it a loop. No
-- other labels than those of the pass fit this description, nothing but kinds changes, and a second
-- run finds nothing to do.
theorem localize_demotes_confined (session : Session) (hwf : session.labels.WellFormed) :
    (∀ a label, session.labels.at? a = some label → ∃ kind,
      session.localize.labels.at? a = some { label with kind } ∧
      (kind ≠ label.kind ↔ (label.kind = .label ∨ label.kind = .subroutine) ∧ ¬label.isFixed ∧
        ∃ owner, session.localize.labels.at? owner.address = some owner ∧ owner.kind.isTopLevel ∧
          owner.address < a ∧ a ∈ session.block owner.address ∧
          ∀ r ∈ label.references, r ∈ session.block owner.address) ∧
      (kind ≠ label.kind →
        (kind = .localLoop ∧ ∃ r ∈ label.references, a ≤ r ∧ r.toNat ≤ a.toNat + 128) ∨
        (kind = .localLabel ∧ ¬∃ r ∈ label.references, a ≤ r ∧ r.toNat ≤ a.toNat + 128))) ∧
    (∀ labels, session.labels.Mapped (session.localized (labels.kindIs · Kind.isTopLevel)) labels →
      labels = session.localize.labels) ∧
    session.localize.labels.index = session.labels.index ∧
    (∀ id, id ∉ session.labels.ids → session.localize.labels.get? id = session.labels.get? id) ∧
    session.localize = { session with labels := session.localize.labels } ∧
    session.localize.localize = session.localize := by
  obtain ⟨hframe, hmapped⟩ := localize_mapped hwf
  have hwf' := hmapped.wellFormed (session.place_localized _) hwf
  refine ⟨fun a label hat => ?_, fun labels hlabels => eq_of_mapped hwf hlabels hmapped,
    hmapped.index, hmapped.dead, hframe, localize_localize hwf⟩
  have hnew := hmapped.live a
  rw [hat, Option.map_some] at hnew
  obtain rfl := hwf.address_eq hat
  simp only [← confines_iff, ← becomesLocal_kindIs_iff hwf']
  by_cases hlocal : session.BecomesLocal (session.localize.labels.kindIs · Kind.isTopLevel) label
  · rw [localized_of hlocal] at hnew
    refine ⟨localKind label, hnew, ?_, fun _ => ?_⟩
    · refine iff_of_true (fun hsame => ?_) hlocal
      have hkind := isLocal_localKind label
      rw [hsame] at hkind
      exact not_becomesLocal_of_isLocal hkind hlocal
    · rw [← localKind_eq_localLoop_iff]
      rcases localKind_cases label with hkind | hkind <;> simp [hkind]
  · rw [localized_of_not hlocal] at hnew
    exact ⟨label.kind, hnew, by simp [hlocal], fun hne => absurd rfl hne⟩

-- Three NOPs with a subroutine at the first and a jump label at the second, used from the third.
def waitingLoop : Session :=
  { ({} : Session).load 0x8000 [0x00, 0x00, 0x00] with
    labels := ((LabelStore.empty.insert 0x8000 .subroutine).insert 0x8001 .label).modifyAt 0x8001
      (·.addReferences [0x8002]) }

theorem isAssigned_waitingLoop (a : Address) :
    waitingLoop.memory.isAssigned a ↔ a = 0x8002 ∨ a = 0x8001 ∨ a = 0x8000 := by
  simp [waitingLoop, load, Memory.load, Memory.storeAll, Memory.store, Memory.isAssigned, Memory.empty]

theorem instructionAt_waitingLoop (a : Address) :
    (waitingLoop.instructionAt a).size = 1 ∧
      (waitingLoop.instructionAt a).fallThrough? a = a.next? 1 := by
  have hempty : ∀ b, Memory.empty.byte b = 0 := by simp [Memory.empty, Memory.byte]
  have hbyte : ∀ b, waitingLoop.memory.byte b = 0 := by
    simp [waitingLoop, load, Memory.load, Memory.storeAll, Memory.byte_store, hempty]
  rw [instructionAt_eq_mainPage rfl (hbyte a) (by decide)]
  exact ⟨rfl, rfl⟩

theorem block_waitingLoop : waitingLoop.block 0x8000 = [0x8000, 0x8001, 0x8002] := by
  have hexit : ∀ a b, a.next? 1 = some b → b ∈ waitingLoop.callFree.exits a := by
    intro a b hnext
    simp [callFree, instructionAt_waitingLoop, hnext]
  have hadmits : ∀ a, waitingLoop.callFree.admits a ↔ a = 0x8002 ∨ a = 0x8001 ∨ a = 0x8000 :=
    isAssigned_waitingLoop
  have hfirst : waitingLoop.callFree.Reaches 0x8000 0x8000 := .start ((hadmits _).mpr (by decide))
  have hsecond : waitingLoop.callFree.Reaches 0x8000 0x8001 :=
    .step 0x8000 _ hfirst (hexit _ _ rfl) ((hadmits _).mpr (by decide))
  have hthird : waitingLoop.callFree.Reaches 0x8000 0x8002 :=
    .step 0x8001 _ hsecond (hexit _ _ rfl) ((hadmits _).mpr (by decide))
  rw [block_eq_coherent [0x8000, 0x8001, 0x8002] (by decide)]
  · simp only [coherent, instructionAt_waitingLoop]
    rfl
  · intro b
    constructor
    · intro hb
      simp only [List.mem_cons, List.not_mem_nil, or_false] at hb
      rcases hb with rfl | rfl | rfl
      · exact ⟨hfirst, by decide⟩
      · exact ⟨hsecond, by decide⟩
      · exact ⟨hthird, by decide⟩
    · rintro ⟨hreach, -⟩
      have hloaded : waitingLoop.callFree.admits b := by cases hreach <;> assumption
      rcases (hadmits b).mp hloaded with rfl | rfl | rfl <;> decide

theorem labels_waitingLoop : waitingLoop.labels.WellFormed ∧ ∀ a, waitingLoop.labels.at? a =
    if a = 0x8001 then
      some (({ id := 1, address := 0x8001, kind := .label } : Label).addReferences [0x8002])
    else if a = 0x8000 then some { id := 0, address := 0x8000, kind := .subroutine } else none := by
  have hlower := LabelStore.wellFormed_empty.insert 0x8000 .subroutine
  have hupper := hlower.insert 0x8001 .label
  have hmapped := hupper.mapped_modifyAt 0x8001 (·.addReferences [0x8002])
  refine ⟨hmapped.wellFormed (fun label => by split <;> exact ⟨rfl, rfl⟩) hupper, fun a => ?_⟩
  rw [waitingLoop, hmapped.live, hlower.at?_insert, LabelStore.wellFormed_empty.at?_insert]
  by_cases ha : a = 0x8001
  · subst ha
    rfl
  · rw [if_neg (Ne.symm ha), if_neg ha]
    by_cases ha' : a = 0x8000
    · subst ha'
      rfl
    · rw [if_neg (Ne.symm ha'), if_neg ha']
      rfl

-- The jump label turns into a loop of the subroutine.
theorem localize_demotes_confined_waiting_loop :
    waitingLoop.labels.WellFormed ∧ waitingLoop.labels.kindAt? 0x8001 = some .label ∧
      waitingLoop.localize.labels.kindAt? 0x8001 = some .localLoop := by
  obtain ⟨hwf, hat⟩ := labels_waitingLoop
  have hlower := hat 0x8000
  have hupper := hat 0x8001
  rw [if_neg (by decide), if_pos rfl] at hlower
  rw [if_pos rfl] at hupper
  obtain ⟨hdemotes, -⟩ := localize_demotes_confined waitingLoop hwf
  -- nothing stands below the subroutine, so that it stays one
  obtain ⟨kind, hnew, hiff, -⟩ := hdemotes 0x8000 _ hlower
  have hkind : kind = .subroutine := by
    by_contra hne
    obtain ⟨-, -, owner, howner, -, hlt, -⟩ := hiff.mp hne
    have habove : owner.address ≠ 0x8001 ∧ owner.address ≠ 0x8000 := by
      constructor <;> intro heq <;> rw [heq] at hlt <;> revert hlt <;> decide
    rw [(localize_mapped hwf).2.live, hat, if_neg habove.1, if_neg habove.2] at howner
    cases howner
  subst hkind
  obtain ⟨kind, hnew', hiff', hloop⟩ := hdemotes 0x8001 _ hupper
  have hreference : ∀ r, r ∈ (({ id := 1, address := 0x8001, kind := .label } :
      Label).addReferences [0x8002]).references ↔ r = 0x8002 := by
    intro r
    rw [Label.mem_addReferences_singleton]
    simp
  have hne : kind ≠ .label := by
    apply hiff'.mpr
    refine ⟨.inl rfl, by decide, { id := 0, address := 0x8000, kind := .subroutine }, hnew, rfl,
      by decide, ?_⟩
    rw [block_waitingLoop]
    refine ⟨by decide, fun r hr => ?_⟩
    rw [(hreference r).mp hr]
    decide
  refine ⟨hwf, by rw [LabelStore.kindAt?, hupper]; rfl, ?_⟩
  rcases hloop hne with ⟨rfl, -⟩ | ⟨-, hfar⟩
  · rw [LabelStore.kindAt?, hnew']
    rfl
  · exact absurd ⟨0x8002, (hreference 0x8002).mpr rfl, by decide, by decide⟩ hfar

end Session

end Z80Atlas
