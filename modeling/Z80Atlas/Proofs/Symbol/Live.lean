import Mathlib.Data.List.Basic
import Z80Atlas.Proofs.Symbol.Store

namespace Z80Atlas

namespace LabelStore

theorem ids_eq (store : LabelStore) : store.ids = store.index.toList.map Prod.snd := by
  change store.index.inner.inner.values =
    (Std.DTreeMap.Internal.Impl.Const.toList store.index.inner.inner).map Prod.snd
  rw [Std.DTreeMap.Internal.Impl.values_eq_map_snd,
    Std.DTreeMap.Internal.Impl.Const.toList_eq_toListModel_map, List.map_map]
  rfl

theorem mem_toList_index (store : LabelStore) (address : Address) (id : LabelId) :
    (address, id) ∈ store.index.toList ↔ store.idAt? address = some id :=
  Std.TreeMap.mem_toList_iff_getElem?_eq_some

theorem mem_ids (store : LabelStore) (id : LabelId) :
    id ∈ store.ids ↔ ∃ address, store.idAt? address = some id := by
  rw [ids_eq, List.mem_map]
  constructor
  · rintro ⟨⟨address, _⟩, hmem, rfl⟩
    exact ⟨address, (store.mem_toList_index address _).mp hmem⟩
  · rintro ⟨address, hid⟩
    exact ⟨(address, id), (store.mem_toList_index address id).mpr hid, rfl⟩

theorem live_eq (store : LabelStore) :
    store.live = store.index.toList.filterMap fun entry => store.get? entry.2 := by
  rw [live, ids_eq, List.filterMap_map]
  rfl

variable {store : LabelStore}

theorem WellFormed.mem_live (h : store.WellFormed) (label : Label) :
    label ∈ store.live ↔ store.at? label.address = some label := by
  rw [live_eq, List.mem_filterMap]
  constructor
  · rintro ⟨⟨address, id⟩, hmem, hget⟩
    have hid := (store.mem_toList_index address id).mp hmem
    have hat : store.at? address = some label := by rw [at?, hid, Option.bind_some, hget]
    rw [h.address_eq hat, hat]
  · intro hat
    exact ⟨(label.address, label.id), (store.mem_toList_index _ _).mpr (h.id_eq hat),
      h.get?_of_at? hat⟩

theorem WellFormed.mem_live_of_at? (h : store.WellFormed) {address : Address} {label : Label}
    (hat : store.at? address = some label) : label ∈ store.live := by
  rw [h.mem_live, h.address_eq hat, hat]

-- The live labels ascend by address.
theorem WellFormed.pairwise_live (h : store.WellFormed) :
    store.live.Pairwise fun label other => label.address < other.address := by
  rw [live_eq, List.pairwise_filterMap]
  refine List.Pairwise.imp_of_mem ?_ Std.TreeMap.ordered_keys_toList
  rintro ⟨a, id⟩ ⟨b, other⟩ ha hb hlt label hlabel label' hlabel'
  obtain ⟨_, hget, -, haddress⟩ := h a id ((store.mem_toList_index a id).mp ha)
  obtain ⟨_, hget', -, haddress'⟩ := h b other ((store.mem_toList_index b other).mp hb)
  dsimp only at hlabel hlabel'
  rw [hget] at hlabel
  rw [hget'] at hlabel'
  cases hlabel
  cases hlabel'
  rw [haddress, haddress']
  exact Std.compare_eq_lt.mp hlt

theorem WellFormed.mem_of_address_lt (h : store.WellFormed) {done rest : List Label} {label : Label}
    (hlive : store.live = done ++ label :: rest) {other : Label} (hother : other ∈ store.live)
    (hlt : other.address.toNat < label.address.toNat) : other ∈ done := by
  have hsorted := h.pairwise_live
  rw [hlive] at hother hsorted
  rcases List.mem_append.mp hother with hold | hlater
  · exact hold
  · rcases List.mem_cons.mp hlater with rfl | hrest
    · exact absurd hlt (Nat.lt_irrefl _)
    · have hafter := List.rel_of_pairwise_cons (List.pairwise_append.mp hsorted).2.1 hrest
      exact absurd (UInt16.lt_iff_toNat_lt.mp hafter) (Nat.lt_asymm hlt)

-- The numbers of the live labels, in the same order.
theorem WellFormed.map_id_live (h : store.WellFormed) : store.live.map (·.id) = store.ids := by
  rw [live_eq, ids_eq, List.map_filterMap, List.filterMap_eq_map_iff_forall_eq_some]
  rintro ⟨address, id⟩ hmem
  obtain ⟨label, hget, hnumber, -⟩ := h address id ((store.mem_toList_index address id).mp hmem)
  simp [hget, hnumber]

theorem WellFormed.nodup_ids (h : store.WellFormed) : store.ids.Nodup := by
  rw [← h.map_id_live, List.Nodup, List.pairwise_map]
  refine List.Pairwise.imp_of_mem ?_ h.pairwise_live
  intro label other hlabel hother hlt heq
  have hat := (h.mem_live label).mp hlabel
  have hat' := (h.mem_live other).mp hother
  have hid := h.id_eq hat'
  rw [← heq] at hid
  rw [h.idAt?_inj (h.id_eq hat) hid] at hlt
  exact UInt16.lt_irrefl _ hlt

-- Labels with the same numbers are the same.
theorem ext_get? {store other : LabelStore} (hindex : other.index = store.index)
    (hget : ∀ id, other.get? id = store.get? id) : other = store := by
  have harena : other.arena = store.arena := Array.ext_getElem? hget
  cases other
  cases store
  simp_all

-- The same labels are live, what was made of each is `change`, and labels that are no longer live are
-- as they were.
structure Mapped (change : Label → Label) (store other : LabelStore) : Prop where
  index : other.index = store.index
  live : ∀ a, other.at? a = (store.at? a).map change
  dead : ∀ id, id ∉ store.ids → other.get? id = store.get? id

namespace Mapped

variable {store other third : LabelStore} {change further : Label → Label}

theorem refl (store : LabelStore) : store.Mapped id store :=
  ⟨rfl, fun _ => (Option.map_id_apply ..).symm, fun _ _ => rfl⟩

theorem trans (h : store.Mapped change other) (h' : other.Mapped further third) :
    store.Mapped (further ∘ change) third where
  index := h'.index.trans h.index
  live a := by rw [h'.live, h.live, Option.map_map]
  dead id hid := by
    have hids : other.ids = store.ids := by rw [ids, h.index, ids]
    rw [h'.dead id (hids ▸ hid), h.dead id hid]

theorem congr (h : store.Mapped change other)
    (hsame : ∀ a label, store.at? a = some label → further label = change label) :
    store.Mapped further other := by
  refine ⟨h.index, fun a => ?_, h.dead⟩
  rw [h.live]
  cases hat : store.at? a with
  | none => rfl
  | some label => rw [Option.map_some, Option.map_some, hsame a label hat]

-- A store is known by its live labels and those that are no longer live.
theorem eq_of_at? (h : store.Mapped change other) (h' : store.Mapped further third)
    (hat : ∀ a, third.at? a = other.at? a) : third = other := by
  refine ext_get? (h'.index.trans h.index.symm) fun id => ?_
  by_cases hid : id ∈ store.ids
  · obtain ⟨a, ha⟩ := (store.mem_ids id).mp hid
    have hget : ∀ labels : LabelStore, labels.index = store.index → labels.at? a = labels.get? id := by
      intro labels hindex
      rw [at?, idAt?, hindex, ← idAt?, ha, Option.bind_some]
    rw [← hget third h'.index, ← hget other h.index, hat]
  · rw [h.dead id hid, h'.dead id hid]

theorem wellFormed (h : store.Mapped change other)
    (hplace : ∀ label, (change label).id = label.id ∧ (change label).address = label.address)
    (hwf : store.WellFormed) : other.WellFormed := by
  intro a id hid
  have hid' : store.idAt? a = some id := by rw [← hid, idAt?, idAt?, h.index]
  obtain ⟨label, hat, hnumber, haddress⟩ := hwf.exists_at? hid'
  have hnew := h.live a
  rw [hat, Option.map_some, at?, hid, Option.bind_some] at hnew
  refine ⟨change label, hnew, ?_, ?_⟩
  · rw [(hplace label).1, hnumber]
  · rw [(hplace label).2, haddress]

end Mapped

theorem WellFormed.mapped_modifyAt {store : LabelStore} (h : store.WellFormed) (b : Address)
    (change : Label → Label) :
    store.Mapped (fun label => if label.address = b then change label else label)
      (store.modifyAt b change) := by
  cases hid : store.idAt? b with
  | none =>
      rw [modifyAt, hid]
      refine (Mapped.refl store).congr fun a label hat => if_neg fun haddress => ?_
      have hnone := at?_eq_none b hid
      rw [← haddress, h.address_eq hat, hat] at hnone
      cases hnone
  | some id =>
      rw [modifyAt, hid]
      refine ⟨rfl, fun a => ?_, fun other hother => ?_⟩
      · dsimp only
        rw [h.at?_modify hid]
        cases hat : store.at? a with
        | none =>
            by_cases hab : b = a
            · rw [if_pos hab, hab, hat]
              rfl
            · rw [if_neg hab]
              rfl
        | some label =>
            rw [Option.map_some, h.address_eq hat]
            by_cases hab : b = a
            · subst hab
              rw [if_pos rfl, if_pos rfl, hat, Option.map_some]
            · rw [if_neg hab, if_neg (Ne.symm hab)]
      · dsimp only
        rw [get?_modify, if_neg]
        rintro rfl
        exact hother ((store.mem_ids id).mpr ⟨b, hid⟩)

-- Changing labels one after the other changes each of them once, if a second change adds nothing.
theorem WellFormed.mapped_foldl_modifyAt {store : LabelStore} (h : store.WellFormed)
    {change : Label → Label}
    (hplace : ∀ label, (change label).id = label.id ∧ (change label).address = label.address)
    (hidem : ∀ label, change (change label) = change label) (addresses : List Address) :
    store.Mapped (fun label => if label.address ∈ addresses then change label else label)
      (addresses.foldl (fun labels b => labels.modifyAt b change) store) := by
  induction addresses generalizing store with
  | nil => exact (Mapped.refl store).congr fun a label _ => if_neg List.not_mem_nil
  | cons b rest ih =>
      have hstep := h.mapped_modifyAt b change
      have hwf := hstep.wellFormed (fun label => by split <;> simp [hplace]) h
      refine (hstep.trans (ih hwf)).congr fun a label _ => ?_
      by_cases hb : label.address = b
      · simp [hb, hplace, hidem]
      · simp [hb]

end LabelStore

end Z80Atlas
