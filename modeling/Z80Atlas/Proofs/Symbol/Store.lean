import Z80Atlas.Symbol.Store

namespace Z80Atlas

namespace Addresses

theorem mem_foldl_insert (set : Addresses) (addresses : List Address) (b : Address) :
    b ∈ addresses.foldl (·.insert ·) set ↔ b ∈ set ∨ b ∈ addresses := by
  induction addresses generalizing set with
  | nil => simp
  | cons a rest ih =>
      rw [List.foldl_cons, ih, Std.TreeSet.mem_insert, Std.LawfulEqCmp.compare_eq_iff_eq,
        List.mem_cons]
      constructor
      · rintro ((rfl | hset) | hrest)
        · exact .inr (.inl rfl)
        · exact .inl hset
        · exact .inr (.inr hrest)
      · rintro (hset | rfl | hrest)
        · exact .inl (.inr hset)
        · exact .inl (.inl rfl)
        · exact .inr hrest

theorem any_iff (set : Addresses) (choice : Address → Bool) :
    set.any choice ↔ ∃ a ∈ set, choice a := by
  have hloop : set.any choice = Id.run (do
      for a in set do
        if choice a then return true
      return false) := rfl
  simp only [← Std.TreeSet.mem_toList]
  rw [← List.any_eq_true, hloop, Std.TreeSet.forIn_eq_forIn_toList]
  induction set.toList with
  | nil => simp
  | cons a rest ih =>
      cases hchoice : choice a with
      | true => simp [hchoice]
      | false => simpa [hchoice] using ih

theorem all_iff (set : Addresses) (choice : Address → Bool) :
    set.all choice ↔ ∀ a ∈ set, choice a := by
  have hloop : set.all choice = Id.run (do
      for a in set do
        if choice a = false then return false
      return true) := rfl
  simp only [← Std.TreeSet.mem_toList]
  rw [← List.all_eq_true, hloop, Std.TreeSet.forIn_eq_forIn_toList]
  induction set.toList with
  | nil => simp
  | cons a rest ih =>
      cases hchoice : choice a with
      | false => simp [hchoice]
      | true => simpa [hchoice] using ih

end Addresses

namespace Label

-- References are added, except for that of the label to itself.
theorem mem_addReferences (label : Label) (references : List Address) (b : Address) :
    b ∈ (label.addReferences references).references ↔
      b ∈ label.references ∨ (b ∈ references ∧ b ≠ label.address) := by
  rw [addReferences, Addresses.mem_foldl_insert, List.mem_filter, bne_iff_ne]

theorem mem_addReferences_singleton (label : Label) (a b : Address) :
    b ∈ (label.addReferences [a]).references ↔
      b ∈ label.references ∨ (b = a ∧ a ≠ label.address) := by
  rw [mem_addReferences, List.mem_singleton]
  constructor
  · rintro (hmem | ⟨rfl, hne⟩)
    · exact .inl hmem
    · exact .inr ⟨rfl, hne⟩
  · rintro (hmem | ⟨rfl, hne⟩)
    · exact .inl hmem
    · exact .inr ⟨rfl, hne⟩

end Label

namespace LabelStore

-- Every live number is that of a label, which knows its number and its address.
def WellFormed (store : LabelStore) : Prop :=
  ∀ address id, store.idAt? address = some id →
    ∃ label, store.get? id = some label ∧ label.id = id ∧ label.address = address

theorem wellFormed_empty : LabelStore.empty.WellFormed := by
  intro address id h
  simp [idAt?, empty] at h

theorem idAt?_insert (store : LabelStore) (a b : Address) (kind : Kind) :
    (store.insert a kind).idAt? b = if a = b then some store.nextId else store.idAt? b := by
  simp [idAt?, insert, Std.TreeMap.getElem?_insert]

theorem get?_insert (store : LabelStore) (address : Address) (kind : Kind) (id : LabelId) :
    (store.insert address kind).get? id =
      if id = store.nextId then some { id := store.nextId, address, kind } else store.get? id :=
  Array.getElem?_push

theorem get?_modify (store : LabelStore) (id other : LabelId) (change : Label → Label) :
    (store.modify id change).get? other =
      if id = other then (store.get? other).map change else store.get? other := by
  simp [get?, modify, Array.getElem?_modify]

variable {store : LabelStore}

-- Live numbers are below the next one, so that a new label takes none of them.
theorem WellFormed.ne_nextId (h : store.WellFormed) {address : Address} {id : LabelId}
    (hid : store.idAt? address = some id) : id ≠ store.nextId := by
  rintro rfl
  obtain ⟨label, hlabel, -, -⟩ := h address _ hid
  simp [get?, nextId] at hlabel

theorem WellFormed.idAt?_inj (h : store.WellFormed) {a b : Address} {id : LabelId}
    (ha : store.idAt? a = some id) (hb : store.idAt? b = some id) : a = b := by
  obtain ⟨label, hlabel, -, haddress⟩ := h a id ha
  obtain ⟨other, hother, -, haddress'⟩ := h b id hb
  rw [hlabel] at hother
  cases hother
  exact haddress.symm.trans haddress'

theorem WellFormed.exists_at? (h : store.WellFormed) {address : Address} {id : LabelId}
    (hid : store.idAt? address = some id) :
    ∃ label, store.at? address = some label ∧ label.id = id ∧ label.address = address := by
  obtain ⟨label, hlabel, hrest⟩ := h address id hid
  exact ⟨label, by rw [at?, hid, Option.bind_some, hlabel], hrest⟩

theorem WellFormed.address_eq (h : store.WellFormed) {address : Address} {label : Label}
    (hat : store.at? address = some label) : label.address = address := by
  obtain ⟨id, hid, hget⟩ := Option.bind_eq_some_iff.mp hat
  obtain ⟨other, hother, -, haddress⟩ := h address id hid
  rw [hget] at hother
  cases hother
  exact haddress

theorem at?_eq_none (address : Address) (h : store.idAt? address = none) :
    store.at? address = none := by
  rw [at?, h, Option.bind_none]

theorem WellFormed.at?_insert (h : store.WellFormed) (a b : Address) (kind : Kind) :
    (store.insert a kind).at? b =
      if a = b then some { id := store.nextId, address := a, kind } else store.at? b := by
  rw [at?, idAt?_insert]
  by_cases hab : a = b
  · simp [hab, get?_insert]
  · rw [if_neg hab, if_neg hab]
    cases hid : store.idAt? b with
    | none => rw [Option.bind_none, at?_eq_none b hid]
    | some id => rw [Option.bind_some, get?_insert, if_neg (h.ne_nextId hid), at?, hid,
        Option.bind_some]

theorem WellFormed.at?_modify (h : store.WellFormed) {a : Address} {id : LabelId}
    (hid : store.idAt? a = some id) (b : Address) (change : Label → Label) :
    (store.modify id change).at? b = if a = b then (store.at? a).map change else store.at? b := by
  have hindex : (store.modify id change).idAt? b = store.idAt? b := rfl
  rw [at?, hindex]
  by_cases hab : a = b
  · subst hab
    rw [if_pos rfl, at?, hid, Option.bind_some, Option.bind_some, get?_modify, if_pos rfl]
  · rw [if_neg hab]
    cases hother : store.idAt? b with
    | none => rw [Option.bind_none, at?_eq_none b hother]
    | some other =>
        have hne : id ≠ other := by
          rintro rfl
          exact hab (h.idAt?_inj hid hother)
        rw [Option.bind_some, get?_modify, if_neg hne, at?, hother, Option.bind_some]

theorem WellFormed.insert (h : store.WellFormed) (address : Address) (kind : Kind) :
    (store.insert address kind).WellFormed := by
  intro b id hid
  rw [idAt?_insert] at hid
  rw [get?_insert]
  by_cases hb : address = b
  · rw [if_pos hb] at hid
    cases hid
    exact ⟨_, if_pos rfl, rfl, hb⟩
  · rw [if_neg hb] at hid
    rw [if_neg (h.ne_nextId hid)]
    exact h b id hid

-- A new label that is changed at once.
theorem WellFormed.at?_modify_insert (h : store.WellFormed) (a b : Address) (kind : Kind)
    (change : Label → Label) :
    ((store.insert a kind).modify store.nextId change).at? b =
      if a = b then some (change { id := store.nextId, address := a, kind }) else store.at? b := by
  have hnew : (store.insert a kind).idAt? a = some store.nextId := by
    rw [idAt?_insert, if_pos rfl]
  rw [(h.insert a kind).at?_modify hnew, h.at?_insert, h.at?_insert, if_pos rfl, Option.map_some]
  by_cases hb : a = b
  · rw [if_pos hb, if_pos hb]
  · rw [if_neg hb, if_neg hb, if_neg hb]

theorem WellFormed.modify (h : store.WellFormed) (id : LabelId) (change : Label → Label)
    (hkeep : ∀ label, (change label).id = label.id ∧ (change label).address = label.address) :
    (store.modify id change).WellFormed := by
  intro b other hother
  obtain ⟨label, hlabel, hnumber, haddress⟩ := h b other hother
  rw [get?_modify, hlabel]
  by_cases hid : id = other
  · refine ⟨change label, by rw [if_pos hid, Option.map_some], ?_, ?_⟩
    · rw [(hkeep label).1, hnumber]
    · rw [(hkeep label).2, haddress]
  · exact ⟨label, if_neg hid, hnumber, haddress⟩

theorem WellFormed.id_eq (h : store.WellFormed) {address : Address} {label : Label}
    (hat : store.at? address = some label) : store.idAt? address = some label.id := by
  obtain ⟨id, hid, hget⟩ := Option.bind_eq_some_iff.mp hat
  obtain ⟨other, hother, hnumber, -⟩ := h address id hid
  rw [hget] at hother
  cases hother
  rw [hid, hnumber]

theorem WellFormed.get?_of_at? (h : store.WellFormed) {address : Address} {label : Label}
    (hat : store.at? address = some label) : store.get? label.id = some label := by
  rw [at?, h.id_eq hat, Option.bind_some] at hat
  exact hat

theorem idAt?_erase (store : LabelStore) (a b : Address) :
    (store.erase a).idAt? b = if a = b then none else store.idAt? b := by
  simp [idAt?, erase, Std.TreeMap.getElem?_erase]

theorem at?_erase (store : LabelStore) (a b : Address) :
    (store.erase a).at? b = if a = b then none else store.at? b := by
  rw [at?, idAt?_erase]
  split
  · rfl
  · rfl

theorem WellFormed.erase (h : store.WellFormed) (address : Address) :
    (store.erase address).WellFormed := by
  intro b id hid
  rw [idAt?_erase] at hid
  split at hid
  · cases hid
  · exact h b id hid

end LabelStore

end Z80Atlas
