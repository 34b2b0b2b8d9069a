import Z80Atlas.Analysis.Ownership
import Z80Atlas.Proofs.Analysis.Walk
import Z80Atlas.Proofs.Session.Labelling
import Z80Atlas.Proofs.Symbol.Live

namespace Z80Atlas

theorem AddressTable.get_foldl_set {α : Type} (table : AddressTable α) (addresses : List Address)
    (value : α) (b : Address) :
    (addresses.foldl (fun table a => table.set a value) table).get b =
      if b ∈ addresses then value else table.get b := by
  induction addresses generalizing table with
  | nil => simp
  | cons a rest ih =>
      rw [List.foldl_cons, ih, get_set]
      by_cases hrest : b ∈ rest
      · simp [hrest]
      · by_cases hab : a = b
        · simp [hab]
        · simp [hrest, hab, Ne.symm hab]

namespace Session

def Flows (session : Session) (a b : Address) : Prop :=
  (session.instructionAt a).fallThrough? a = some b ∨ (session.instructionAt a).target? = some b

def Headed (session : Session) (address : Address) : Prop :=
  ∃ label, session.labels.at? address = some label ∧ label.kind.isTopLevel

-- The addresses to which control comes from a label along loaded addresses, of which none but that of
-- the label itself has a top-level label.
inductive Governs (session : Session) (label : Label) : Address → Prop
  | own (hassigned : session.memory.isAssigned label.address) :
      Governs session label label.address
  | flow (a b : Address) (hgoverns : Governs session label a) (hflows : session.Flows a b)
      (hassigned : session.memory.isAssigned b)
      (hfree : b = label.address ∨ ¬session.Headed b) : Governs session label b

structure FirstToGovern (session : Session) (label : Label) (address : Address) : Prop where
  live : label ∈ session.labels.live
  topLevel : label.kind.isTopLevel
  governs : session.Governs label address
  first : ∀ other ∈ session.labels.live, other.kind.isTopLevel → session.Governs other address →
    label.address ≤ other.address

theorem Governs.free {session : Session} {label : Label} {address : Address}
    (h : session.Governs label address) : address = label.address ∨ ¬session.Headed address := by
  cases h with
  | own => exact .inl rfl
  | flow _ _ _ _ _ hfree => exact hfree

theorem headed_of_mem_live {session : Session} (hlabels : session.labels.WellFormed) {label : Label}
    (hlive : label ∈ session.labels.live) (htop : label.kind.isTopLevel) :
    session.Headed label.address :=
  ⟨label, (hlabels.mem_live label).mp hlive, htop⟩

theorem mem_exits_territory (session : Session) (id : LabelId) (a b : Address) :
    b ∈ (session.territory id).exits a ↔ session.Flows a b := by
  simp only [territory, Flows, List.mem_append, Option.mem_toList]

theorem admits_territory_iff (session : Session) (hlabels : session.labels.WellFormed)
    {label : Label} (hlive : label ∈ session.labels.live) (b : Address) :
    (session.territory label.id).admits b ↔
      session.memory.isAssigned b ∧ session.owners.get b = none ∧
        (b = label.address ∨ ¬session.Headed b) := by
  have hat := (hlabels.mem_live label).mp hlive
  have hforeign : (session.labels.at? b).any (fun other => other.id != label.id &&
      other.kind.isTopLevel) = false ↔ b = label.address ∨ ¬session.Headed b := by
    cases hother : session.labels.at? b with
    | none => simp [Headed, hother]
    | some other =>
        -- labels with one number stand at one address
        have hnumber : other.id = label.id ↔ b = label.address := by
          constructor
          · intro heq
            have hid := hlabels.id_eq hother
            rw [heq] at hid
            exact hlabels.idAt?_inj hid (hlabels.id_eq hat)
          · rintro rfl
            rw [hat] at hother
            cases hother
            rfl
        by_cases heq : b = label.address
        · simp [hnumber.mpr heq, heq]
        · simp [Headed, hother, heq, hnumber]
  simp only [territory, Bool.and_eq_true, Bool.not_eq_true', Option.isNone_iff_eq_none, hforeign,
    and_assoc]

theorem owners_claim (session : Session) (id : LabelId) (start a : Address) :
    (session.claim id start).owners.get a =
      if a ∈ (session.territory id).visited start then some id else session.owners.get a :=
  AddressTable.get_foldl_set ..

-- The invariant of the distribution: an owner is the first among the labels dealt with that govern
-- the address, and none of them governs an address without owner.
structure Divided (session : Session) (done : List Label)
    (owners : AddressTable (Option LabelId)) : Prop where
  owned : ∀ a id, owners.get a = some id → ∃ label ∈ done, label.id = id ∧
    label.kind.isTopLevel ∧ session.Governs label a ∧
    ∀ other ∈ done, other.kind.isTopLevel → session.Governs other a →
      label.address ≤ other.address
  unowned : ∀ a, owners.get a = none → ∀ label ∈ done, label.kind.isTopLevel →
    ¬session.Governs label a

namespace Divided

variable {session : Session} {done : List Label} {owners : AddressTable (Option LabelId)}

-- Nobody else can own the address of a live top-level label.
theorem own_eq_none (h : session.Divided done owners) (hlabels : session.labels.WellFormed)
    {label : Label} (hlive : label ∈ session.labels.live) (htop : label.kind.isTopLevel)
    (hdone : ∀ other ∈ done, other.address < label.address) :
    owners.get label.address = none := by
  cases hown : owners.get label.address with
  | none => rfl
  | some id =>
      obtain ⟨other, hother, -, -, hgoverns, -⟩ := h.owned label.address id hown
      have hlt := hdone other hother
      rcases hgoverns.free with heq | hfree
      · rw [heq] at hlt
        exact absurd hlt (UInt16.lt_irrefl _)
      · exact absurd (headed_of_mem_live hlabels hlive htop) hfree

-- A walk that avoids addresses with an owner misses none that is still free: behind an address that
-- an earlier label governs, that label governs all up to the next top-level label.
theorem mem_visited_iff (h : session.Divided done owners) (hlabels : session.labels.WellFormed)
    {label : Label} (hlive : label ∈ session.labels.live) (htop : label.kind.isTopLevel)
    (hdone : ∀ other ∈ done, other.address < label.address) (a : Address) :
    a ∈ (({ session with owners } : Session).territory label.id).visited label.address ↔
      owners.get a = none ∧ session.Governs label a := by
  have hadmits := admits_territory_iff { session with owners } hlabels hlive
  have hexits := mem_exits_territory { session with owners } label.id
  rw [Walk.mem_visited_iff]
  constructor
  · intro hreach
    induction hreach with
    | start hstart =>
        obtain ⟨hassigned, hfree, -⟩ := (hadmits _).mp hstart
        exact ⟨hfree, .own hassigned⟩
    | step a b _ hexit hadmit ih =>
        obtain ⟨hassigned, hfree, hhead⟩ := (hadmits b).mp hadmit
        exact ⟨hfree, .flow a b ih.2 ((hexits a b).mp hexit) hassigned hhead⟩
  · rintro ⟨hfree, hgoverns⟩
    have hown := h.own_eq_none hlabels hlive htop hdone
    induction hgoverns with
    | own hassigned => exact .start ((hadmits _).mpr ⟨hassigned, hown, .inl rfl⟩)
    | flow a b hgoverns hflows hassigned hhead ih =>
        rcases hhead with rfl | hhead
        · exact .start ((hadmits _).mpr ⟨hassigned, hown, .inl rfl⟩)
        · have hbefore : owners.get a = none := by
            cases hother : owners.get a with
            | none => rfl
            | some id =>
                obtain ⟨other, hmem, -, hothertop, hreach, -⟩ := h.owned a id hother
                exact absurd (.flow a b hreach hflows hassigned (.inr hhead))
                  (h.unowned b hfree other hmem hothertop)
          exact .step a b (ih hbefore) ((hexits a b).mpr hflows)
            ((hadmits b).mpr ⟨hassigned, hfree, .inr hhead⟩)

theorem claim (h : session.Divided done owners) (hlabels : session.labels.WellFormed)
    {label : Label} (hlive : label ∈ session.labels.live) (htop : label.kind.isTopLevel)
    (hdone : ∀ other ∈ done, other.address < label.address) :
    session.Divided (done ++ [label])
      (({ session with owners } : Session).claim label.id label.address).owners := by
  have hvisited := h.mem_visited_iff hlabels hlive htop hdone
  constructor
  · intro a id hget
    rw [owners_claim] at hget
    split at hget
    · next hmem =>
      obtain ⟨hfree, hnew⟩ := (hvisited a).mp hmem
      cases hget
      refine ⟨label, by simp, rfl, htop, hnew, ?_⟩
      intro other hother hothertop hgoverns
      rcases List.mem_append.mp hother with hold | hlast
      · exact absurd hgoverns (h.unowned a hfree other hold hothertop)
      · rw [List.mem_singleton.mp hlast]
        exact UInt16.le_refl _
    · obtain ⟨first, hmem, hid, hfirsttop, hgoverns, hfirst⟩ := h.owned a id hget
      refine ⟨first, List.mem_append_left _ hmem, hid, hfirsttop, hgoverns, ?_⟩
      intro other hother hothertop hreach
      rcases List.mem_append.mp hother with hold | hlast
      · exact hfirst other hold hothertop hreach
      · rw [List.mem_singleton.mp hlast]
        exact UInt16.le_of_lt (hdone first hmem)
  · intro a hget other hother hothertop hgoverns
    rw [owners_claim] at hget
    split at hget
    · cases hget
    · next hmem =>
      rcases List.mem_append.mp hother with hold | hlast
      · exact h.unowned a hget other hold hothertop hgoverns
      · rw [List.mem_singleton.mp hlast] at hgoverns
        exact hmem ((hvisited a).mpr ⟨hget, hgoverns⟩)

theorem skip (h : session.Divided done owners) {label : Label} (hlow : ¬label.kind.isTopLevel) :
    session.Divided (done ++ [label]) owners := by
  constructor
  · intro a id hget
    obtain ⟨first, hmem, hid, htop, hgoverns, hfirst⟩ := h.owned a id hget
    refine ⟨first, List.mem_append_left _ hmem, hid, htop, hgoverns, ?_⟩
    intro other hother hothertop hreach
    rcases List.mem_append.mp hother with hold | hlast
    · exact hfirst other hold hothertop hreach
    · rw [List.mem_singleton.mp hlast] at hothertop
      exact absurd hothertop hlow
  · intro a hget other hother hothertop
    rcases List.mem_append.mp hother with hold | hlast
    · exact h.unowned a hget other hold hothertop
    · rw [List.mem_singleton.mp hlast] at hothertop
      exact absurd hothertop hlow

-- The labels ascend, so that each one comes after all those dealt with.
theorem foldl_claimFor (hlabels : session.labels.WellFormed) (rest done : List Label)
    (owners : AddressTable (Option LabelId)) (hsplit : done ++ rest = session.labels.live)
    (h : session.Divided done owners) :
    ∃ last, (rest.map (·.id)).foldl claimFor { session with owners } =
      { session with owners := last } ∧ session.Divided session.labels.live last := by
  induction rest generalizing done owners with
  | nil =>
      rw [List.append_nil] at hsplit
      exact ⟨owners, rfl, hsplit ▸ h⟩
  | cons label rest ih =>
      have hlive : label ∈ session.labels.live := by
        rw [← hsplit]
        simp
      have hat := (hlabels.mem_live label).mp hlive
      have hdone : ∀ other ∈ done, other.address < label.address := by
        have hpairwise := hlabels.pairwise_live
        rw [← hsplit, List.pairwise_append] at hpairwise
        exact fun other hother => hpairwise.2.2 other hother label List.mem_cons_self
      have hnext : (done ++ [label]) ++ rest = session.labels.live := by simpa using hsplit
      have hclaim : ({ session with owners } : Session).claimFor label.id =
          if label.kind.isTopLevel then
            ({ session with owners } : Session).claim label.id label.address
          else { session with owners } := by
        have hget := hlabels.get?_of_at? hat
        rw [claimFor]
        simp only [hget]
      rw [List.map_cons, List.foldl_cons, hclaim]
      by_cases htop : label.kind.isTopLevel
      · rw [if_pos htop]
        exact ih _ _ hnext (h.claim hlabels hlive htop hdone)
      · rw [if_neg htop]
        exact ih _ owners hnext (h.skip htop)

end Divided

-- Distributing the code changes owners only, and gives it to the first label that governs it.
theorem divided_claimAll (session : Session) (hlabels : session.labels.WellFormed)
    (hunowned : ∀ a, session.owners.get a = none) :
    ∃ owners, session.claimAll = { session with owners } ∧
      session.Divided session.labels.live owners := by
  rw [claimAll, ← hlabels.map_id_live]
  refine Divided.foldl_claimFor hlabels session.labels.live [] session.owners rfl ⟨?_, ?_⟩
  · intro a id hget
    rw [hunowned] at hget
    cases hget
  · intro a _ label hlabel
    cases hlabel

theorem Divided.firstToGovern {session : Session} {owners : AddressTable (Option LabelId)}
    (h : session.Divided session.labels.live owners) {a : Address} {id : LabelId}
    (hget : owners.get a = some id) : ∃ label, label.id = id ∧ session.FirstToGovern label a := by
  obtain ⟨label, hlive, hid, htop, hgoverns, hfirst⟩ := h.owned a id hget
  exact ⟨label, hid, hlive, htop, hgoverns, hfirst⟩

theorem FirstToGovern.eq {session : Session} (hlabels : session.labels.WellFormed)
    {label other : Label} {a : Address} (h : session.FirstToGovern label a)
    (h' : session.FirstToGovern other a) : label = other := by
  have hle := h.first other h'.live h'.topLevel h'.governs
  have hge := h'.first label h.live h.topLevel h.governs
  have hat := (hlabels.mem_live label).mp h.live
  have hat' := (hlabels.mem_live other).mp h'.live
  rw [UInt16.le_antisymm hle hge, hat'] at hat
  exact (Option.some.inj hat).symm

-- After the distribution an address belongs to the first label that governs it, or to none if no
-- label does; a top-level label in loaded memory owns its own address.
theorem claimAll_gives_to_first (session : Session) (hlabels : session.labels.WellFormed)
    (hunowned : ∀ a, session.owners.get a = none) :
    (∀ a id, session.claimAll.owners.get a = some id ↔
      ∃ label, label.id = id ∧ session.FirstToGovern label a) ∧
    (∀ a, session.claimAll.owners.get a = none ↔
      ∀ label ∈ session.labels.live, label.kind.isTopLevel → ¬session.Governs label a) ∧
    ∀ label ∈ session.labels.live, label.kind.isTopLevel →
      session.memory.isAssigned label.address →
      session.claimAll.owners.get label.address = some label.id := by
  obtain ⟨owners, hclaim, hdivided⟩ := session.divided_claimAll hlabels hunowned
  have howned : ∀ label a, label ∈ session.labels.live → label.kind.isTopLevel →
      session.Governs label a → ∃ id, owners.get a = some id := by
    intro label a hlive htop hgoverns
    rw [← Option.ne_none_iff_exists']
    exact fun hnone => hdivided.unowned a hnone label hlive htop hgoverns
  rw [hclaim]
  refine ⟨?_, ?_, ?_⟩
  · intro a id
    refine ⟨hdivided.firstToGovern, ?_⟩
    rintro ⟨label, rfl, hfirst⟩
    obtain ⟨id, hid⟩ := howned label a hfirst.live hfirst.topLevel hfirst.governs
    obtain ⟨other, rfl, hother⟩ := hdivided.firstToGovern hid
    rw [hfirst.eq hlabels hother]
    exact hid
  · intro a
    refine ⟨hdivided.unowned a, ?_⟩
    intro hnone
    cases hget : owners.get a with
    | none => rfl
    | some id =>
        obtain ⟨label, -, hfirst⟩ := hdivided.firstToGovern hget
        exact absurd hfirst.governs (hnone label hfirst.live hfirst.topLevel)
  · intro label hlive htop hassigned
    obtain ⟨id, hid⟩ := howned label label.address hlive htop (.own hassigned)
    obtain ⟨other, rfl, hother⟩ := hdivided.firstToGovern hid
    rcases hother.governs.free with heq | hfree
    · have hat := (hlabels.mem_live label).mp hlive
      have hat' := (hlabels.mem_live other).mp hother.live
      rw [heq, hat'] at hat
      rw [hid, Option.some.inj hat]
    · exact absurd (headed_of_mem_live hlabels hlive htop) hfree

-- Two routines with a common end: JR 8003h, NOP, RET, with labels at 8000h and at the NOP.
def sharedEnd : Session :=
  ((({} : Session).load 0x8000 [0x18, 0x01, 0x00, 0xC9]).fixLabel 0x8000 none).fixLabel 0x8002 none

theorem placed_sharedEnd :
    let program := ({} : Session).load 0x8000 [0x18, 0x01, 0x00, 0xC9]
    ∃ middle lower upper, program.Placed middle 0x8000 lower ∧
      middle.Placed sharedEnd 0x8002 upper ∧ lower.kind = .label ∧ upper.kind = .label := by
  intro program
  have hlower := program.placed_fixLabel LabelStore.wellFormed_empty 0x8000 none
  have hupper := (program.fixLabel 0x8000 none).placed_fixLabel hlower.wellFormed 0x8002 none
  have hnone : (program.fixLabel 0x8000 none).labels.at? 0x8002 = none := by
    rw [hlower.at?_of_ne (by decide)]
    rfl
  refine ⟨_, _, _, hlower, hupper, rfl, ?_⟩
  rw [fixedLabel, labelOr_of_none hnone]

theorem ground_sharedEnd :
    sharedEnd.ground = (({} : Session).load 0x8000 [0x18, 0x01, 0x00, 0xC9]).ground := by
  obtain ⟨middle, lower, upper, hlower, hupper, -, -⟩ := placed_sharedEnd
  rw [hupper.ground, hlower.ground]

theorem assigned_sharedEnd : sharedEnd.memory.isAssigned 0x8000 ∧
    sharedEnd.memory.isAssigned 0x8002 ∧ sharedEnd.memory.isAssigned 0x8003 := by
  rw [memory_of_ground ground_sharedEnd]
  simp [load, Memory.load, Memory.storeAll, Memory.store, Memory.isAssigned]

theorem byte_sharedEnd : sharedEnd.memory.byte 0x8000 = 0x18 ∧
    sharedEnd.memory.byte 0x8001 = 0x01 ∧ sharedEnd.memory.byte 0x8003 = 0xC9 := by
  rw [memory_of_ground ground_sharedEnd]
  simp [load, Memory.load, Memory.storeAll, Memory.byte_store]

theorem jump_sharedEnd : (sharedEnd.instructionAt 0x8000).target? = some 0x8003 := by
  obtain ⟨hcode, hdistance, -⟩ := byte_sharedEnd
  rw [instructionAt_eq_mainPage (decoder_of_ground ground_sharedEnd) hcode (by decide)]
  change some (_ + Z80.signExtend (sharedEnd.memory.byte 0x8001)) = _
  rw [hdistance]
  rfl

theorem flow_sharedEnd : (sharedEnd.instructionAt 0x8000).flow.call = false ∧
    (sharedEnd.instructionAt 0x8003).flow.ret := by
  obtain ⟨hcode, -, hend⟩ := byte_sharedEnd
  have hdecoder := decoder_of_ground ground_sharedEnd
  rw [instructionAt_eq_mainPage hdecoder hcode (by decide),
    instructionAt_eq_mainPage hdecoder hend (by decide)]
  exact ⟨rfl, rfl⟩

-- The lower label owns the common end, and each label its own address.
theorem claimAll_gives_to_first_shared_end :
    sharedEnd.labels.WellFormed ∧ (∀ a, sharedEnd.owners.get a = none) ∧
    ∃ lower upper, sharedEnd.labels.at? 0x8000 = some lower ∧
      sharedEnd.labels.at? 0x8002 = some upper ∧
      sharedEnd.claimAll.owners.get 0x8003 = some lower.id ∧
      sharedEnd.claimAll.owners.get 0x8002 = some upper.id := by
  obtain ⟨middle, lower, upper, hlower, hupper, hlowerkind, hupperkind⟩ := placed_sharedEnd
  obtain ⟨hstart, hnop, hend⟩ := assigned_sharedEnd
  have hwf := hupper.wellFormed
  have hunowned : ∀ a, sharedEnd.owners.get a = none := by
    intro a
    rw [owners_of_ground ground_sharedEnd, load, AddressTable.get_replicate]
  have hat : sharedEnd.labels.at? 0x8000 = some lower := by
    rw [hupper.at?_of_ne (by decide), hlower.at?_self]
  have hother : ∀ a, (0x8002 : Address) ≠ a → (0x8000 : Address) ≠ a →
      sharedEnd.labels.at? a = none := by
    intro a hne hne'
    rw [hupper.at?_of_ne hne, hlower.at?_of_ne hne']
    rfl
  have haddress := hwf.address_eq hat
  have haddress' := hwf.address_eq hupper.at?_self
  have hlive := hwf.mem_live_of_at? hat
  have hlive' := hwf.mem_live_of_at? hupper.at?_self
  have htop : lower.kind.isTopLevel := by rw [hlowerkind]; rfl
  have htop' : upper.kind.isTopLevel := by rw [hupperkind]; rfl
  have hfree : ¬sharedEnd.Headed 0x8003 := by
    rintro ⟨label, hlabel, -⟩
    rw [hother 0x8003 (by decide) (by decide)] at hlabel
    cases hlabel
  have hgoverns : sharedEnd.Governs lower 0x8003 := by
    have hown : sharedEnd.Governs lower lower.address := .own (haddress ▸ hstart)
    rw [haddress] at hown
    exact .flow 0x8000 0x8003 hown (.inr jump_sharedEnd) hend (.inr hfree)
  have h := claimAll_gives_to_first sharedEnd hwf hunowned
  refine ⟨hwf, hunowned, lower, upper, hat, hupper.at?_self, ?_, ?_⟩
  · refine (h.1 0x8003 lower.id).mpr ⟨lower, rfl, hlive, htop, hgoverns, ?_⟩
    intro other hlabel _ _
    by_cases hne : (0x8002 : Address) = other.address
    · rw [haddress, ← hne]
      decide
    · by_cases hne' : (0x8000 : Address) = other.address
      · rw [haddress, ← hne']
        decide
      · have hnone := hother other.address hne hne'
        rw [(hwf.mem_live other).mp hlabel] at hnone
        cases hnone
  · have hown := h.2.2 upper hlive' htop' (haddress' ▸ hnop)
    rw [haddress'] at hown
    exact hown

end Session

end Z80Atlas
