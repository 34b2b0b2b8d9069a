import Mathlib.Data.List.Nodup
import Mathlib.Logic.Relation
import Z80Atlas.Proofs.Session.Soundness
import Z80Atlas.Report.CallGraph

namespace Z80Atlas

namespace LabelStore

def callsOf (store : LabelStore) (id : LabelId) : List LabelId :=
  ((store.get? id).map (·.calls.toList)).getD []

def Calls (store : LabelStore) (id callee : LabelId) : Prop :=
  ∃ label, store.get? id = some label ∧ callee ∈ label.calls

theorem mem_callsOf (store : LabelStore) (id callee : LabelId) :
    callee ∈ store.callsOf id ↔ store.Calls id callee := by
  unfold callsOf Calls
  cases store.get? id <;> simp

-- The recursive visit of labels from left to right. A label that was put down before is passed over;
-- any other is put down, and its own calls are visited before the labels beside it.
inductive Visits (store : LabelStore) : List LabelId → List LabelId → List LabelId → Prop
  | done (before : List LabelId) : Visits store before [] before
  | again {before after ids : List LabelId} {id : LabelId} (hid : id ∈ before)
      (hbeside : Visits store before ids after) : Visits store before (id :: ids) after
  | first {before between after ids : List LabelId} {id : LabelId} (hid : id ∉ before)
      (hcalls : Visits store (before ++ [id]) (store.callsOf id) between)
      (hbeside : Visits store between ids after) : Visits store before (id :: ids) after

namespace Visits

variable {store : LabelStore} {before after ids others : List LabelId}

theorem deterministic (h : store.Visits before ids after) {other : List LabelId}
    (h' : store.Visits before ids other) : other = after := by
  induction h generalizing other with
  | done before =>
      cases h'
      rfl
  | again hid _ ih =>
      cases h' with
      | again _ hbeside => exact ih hbeside
      | first hnew _ _ => exact absurd hid hnew
  | first hid _ _ ihcalls ihbeside =>
      cases h' with
      | again hold _ => exact absurd hold hid
      | first _ hcalls hbeside =>
          cases ihcalls hcalls
          exact ihbeside hbeside

-- To visit labels and then others is to visit all in one.
theorem split (h : store.Visits before (ids ++ others) after) :
    ∃ between, store.Visits before ids between ∧ store.Visits between others after := by
  induction ids generalizing before with
  | nil => exact ⟨before, .done before, h⟩
  | cons id ids ih =>
      cases h with
      | again hid hbeside =>
          obtain ⟨between, hids, hothers⟩ := ih hbeside
          exact ⟨between, .again hid hids, hothers⟩
      | first hid hcalls hbeside =>
          obtain ⟨between, hids, hothers⟩ := ih hbeside
          exact ⟨between, .first hid hcalls hids, hothers⟩

theorem nodup (h : store.Visits before ids after) (hbefore : before.Nodup) : after.Nodup := by
  induction h with
  | done before => exact hbefore
  | again _ _ ih => exact ih hbefore
  | first hid _ _ ihcalls ihbeside =>
      refine ihbeside (ihcalls ?_)
      rw [← List.concat_eq_append]
      exact .concat hid hbefore

theorem subset (h : store.Visits before ids after) : before ⊆ after := by
  induction h with
  | done before => exact List.Subset.refl before
  | again _ _ ih => exact ih
  | first _ _ _ ihcalls ihbeside =>
      exact fun id hid => ihbeside (ihcalls (List.mem_append_left _ hid))

-- To leave out labels that were put down before changes nothing.
theorem filter_iff {p : LabelId → Bool} (hdropped : ∀ id ∈ ids, p id = false → id ∈ before) :
    store.Visits before (ids.filter p) after ↔ store.Visits before ids after := by
  induction ids generalizing before with
  | nil => rfl
  | cons id ids ih =>
      have hrest : ∀ between, before ⊆ between → ∀ other ∈ ids, p other = false → other ∈ between :=
        fun between hsubset other hother hp =>
          hsubset (hdropped other (List.mem_cons_of_mem id hother) hp)
      have hbefore := ih (hrest before (List.Subset.refl before))
      cases hp : p id with
      | true =>
          rw [List.filter_cons_of_pos hp]
          constructor
          · intro h
            cases h with
            | again hid hbeside => exact .again hid (hbefore.mp hbeside)
            | first hid hcalls hbeside =>
                have hgrown := List.Subset.trans (List.subset_append_left before [id]) hcalls.subset
                exact .first hid hcalls ((ih (hrest _ hgrown)).mp hbeside)
          · intro h
            cases h with
            | again hid hbeside => exact .again hid (hbefore.mpr hbeside)
            | first hid hcalls hbeside =>
                have hgrown := List.Subset.trans (List.subset_append_left before [id]) hcalls.subset
                exact .first hid hcalls ((ih (hrest _ hgrown)).mpr hbeside)
      | false =>
          have hid := hdropped id List.mem_cons_self hp
          rw [List.filter_cons_of_neg (by simp [hp]), hbefore]
          constructor
          · exact .again hid
          · intro h
            cases h with
            | again _ hbeside => exact hbeside
            | first hnew _ _ => exact absurd hid hnew

theorem visited_subset (h : store.Visits before ids after) : ids ⊆ after := by
  induction h with
  | done before => exact List.nil_subset before
  | again hid hbeside ih => exact List.cons_subset.mpr ⟨hbeside.subset hid, ih⟩
  | first _ hcalls hbeside _ ih =>
      have hid := hbeside.subset (hcalls.subset (List.mem_append_right _ List.mem_cons_self))
      exact List.cons_subset.mpr ⟨hid, ih⟩

-- When a visit ends, nothing that is called from the labels it has put down is missing.
theorem closed (h : store.Visits before ids after) {id callee : LabelId} (hid : id ∈ after)
    (hnew : id ∉ before) (hcall : store.Calls id callee) : callee ∈ after := by
  induction h with
  | done before => exact absurd hid hnew
  | again _ _ ih => exact ih hid hnew
  | @first before between after ids root _ hcalls hbeside ihcalls ihbeside =>
      by_cases hinner : id ∈ between
      · refine hbeside.subset ?_
        by_cases hroot : id = root
        · subst hroot
          exact hcalls.visited_subset ((store.mem_callsOf id callee).mpr hcall)
        · exact ihcalls hinner (by simp [hnew, hroot])
      · exact ihbeside hid hinner

-- What a visit puts down is called, directly or not, by one of the labels that it was given.
theorem reached (h : store.Visits before ids after) {id : LabelId} (hid : id ∈ after) :
    id ∈ before ∨ ∃ root ∈ ids, Relation.ReflTransGen store.Calls root id := by
  induction h with
  | done before => exact .inl hid
  | again _ _ ih =>
      rcases ih hid with hold | ⟨root, hroot, hreach⟩
      · exact .inl hold
      · exact .inr ⟨root, List.mem_cons_of_mem _ hroot, hreach⟩
  | @first before between after ids start _ _ _ ihcalls ihbeside =>
      rcases ihbeside hid with hinner | ⟨root, hroot, hreach⟩
      · rcases ihcalls hinner with hold | ⟨root, hroot, hreach⟩
        · rcases List.mem_append.mp hold with hold | hstart
          · exact .inl hold
          · rw [List.mem_singleton.mp hstart]
            exact .inr ⟨start, List.mem_cons_self, .refl⟩
        · have hcall := (store.mem_callsOf start root).mp hroot
          exact .inr ⟨start, List.mem_cons_self, hreach.head hcall⟩
      · exact .inr ⟨root, List.mem_cons_of_mem _ hroot, hreach⟩

-- A visit of one label puts down what that label calls, directly or not.
theorem mem_iff {root : LabelId} (h : store.Visits [] [root] after) (id : LabelId) :
    id ∈ after ↔ Relation.ReflTransGen store.Calls root id := by
  constructor
  · intro hid
    obtain ⟨start, hstart, hreach⟩ := (h.reached hid).resolve_left List.not_mem_nil
    rwa [List.mem_singleton.mp hstart] at hreach
  · intro hreach
    induction hreach with
    | refl => exact h.visited_subset List.mem_cons_self
    | tail _ hcall ih => exact h.closed ih List.not_mem_nil hcall

end Visits

-- The search with a list of pending labels takes the way of the recursive visit. Marks and chosen
-- labels agree all the time; labels that are pending more than once are found marked later.
theorem visits_callOrder (store : LabelStore)
    (hcalls : ∀ id callee, store.Calls id callee → store.Knows callee) (seen : Array Bool)
    (chosen : Array LabelId) (pending : List LabelId)
    (hseen : ∀ id, seen[id]? = some false ↔ store.Knows id ∧ id ∉ chosen)
    (hpending : ∀ id ∈ pending, store.Knows id) :
    store.Visits chosen.toList pending (store.callOrder seen chosen pending).toList := by
  fun_induction callOrder store seen chosen pending with
  | case1 seen chosen => exact .done chosen.toList
  | case2 seen chosen id pending hid marked calls ih =>
      obtain ⟨-, hnew⟩ := (hseen id).mp hid
      obtain ⟨hlt, -⟩ := Array.getElem?_eq_some_iff.mp hid
      have hmarked : ∀ other, marked[other]? = some false ↔
          store.Knows other ∧ other ∉ chosen.push id := by
        intro other
        dsimp only [marked]
        rw [Array.getElem?_setIfInBounds, Array.mem_push]
        by_cases hother : id = other
        · simp [hother]
        · rw [if_neg hother, hseen other]
          simp [Ne.symm hother]
      have hknows : ∀ callee ∈ calls, store.Knows callee := fun callee hcallee =>
        hcalls id callee ((store.mem_callsOf id callee).mp hcallee)
      have hvisits := ih hmarked fun other hother => by
        rcases List.mem_append.mp hother with hcallee | hold
        · exact hknows other (List.mem_filter.mp hcallee).1
        · exact hpending other (List.mem_cons_of_mem id hold)
      have hdropped : ∀ callee ∈ calls, (marked[callee]? != some true) = false →
          callee ∈ (chosen.push id).toList := by
        intro callee hcallee hseen
        by_contra hnew
        have hfalse := (hmarked callee).mpr ⟨hknows callee hcallee, by simpa using hnew⟩
        rw [hfalse] at hseen
        cases hseen
      obtain ⟨between, hinner, hbeside⟩ := hvisits.split
      rw [Visits.filter_iff hdropped, Array.toList_push] at hinner
      exact .first (by simpa using hnew) hinner hbeside
  | case3 seen chosen id pending hid ih =>
      have hold : id ∈ chosen := by
        by_contra hnew
        exact hid ((hseen id).mpr ⟨hpending id List.mem_cons_self, hnew⟩)
      exact .again (by simpa using hold)
        (ih hseen fun other hother => hpending other (List.mem_cons_of_mem id hother))

theorem knows_iff_lt (store : LabelStore) (id : LabelId) :
    store.Knows id ↔ id < store.arena.size := by
  unfold Knows get?
  rw [← Option.isSome_iff_exists]
  simp

theorem visits_reachableCalls (store : LabelStore)
    (hcalls : ∀ id callee, store.Calls id callee → store.Knows callee) {root : LabelId}
    (hroot : store.Knows root) : store.Visits [] [root] (store.reachableCalls root) := by
  refine store.visits_callOrder hcalls _ #[] [root] (fun id => ?_) (by simpa using hroot)
  rw [knows_iff_lt, Array.getElem?_replicate]
  simp

end LabelStore

namespace Session

theorem exists_idAt?_of_resolve {session : Session} {target : Target} {root : LabelId}
    (h : session.resolve target = .ok root) :
    ∃ address, session.labels.idAt? address = some root := by
  unfold resolve at h
  split at h
  · split at h
    · next id hid =>
      cases h
      exact ⟨_, hid⟩
    · cases h
  · split at h
    · cases h
    · split at h
      · next id hid =>
        cases h
        exact ⟨_, hid⟩
      · cases h

-- The labels of a graph are in the order of the recursive visit, whatever cycles the calls make and
-- however often a label is called. Each is there once, and all are there that the target calls,
-- directly or not.
theorem graphLabels_is_preorder (session : Session)
    (hlive : ∀ address id, session.labels.idAt? address = some id → session.labels.Knows id)
    (hcalls : ∀ id callee, session.labels.Calls id callee → session.labels.Knows callee)
    (target : Target) (root : LabelId) (hroot : session.resolve target = .ok root) :
    ∃ order, session.graphLabels target = .ok order ∧ order.Nodup ∧
      (∀ id, id ∈ order ↔ Relation.ReflTransGen session.labels.Calls root id) ∧
      ∀ other, session.labels.Visits [] [root] other ↔ other = order := by
  obtain ⟨address, hid⟩ := exists_idAt?_of_resolve hroot
  have hvisits := session.labels.visits_reachableCalls hcalls (hlive address root hid)
  refine ⟨session.labels.reachableCalls root, ?_, hvisits.nodup List.nodup_nil, hvisits.mem_iff, ?_⟩
  · rw [graphLabels, hroot]
    rfl
  · intro other
    exact ⟨hvisits.deterministic, fun hother => hother ▸ hvisits⟩

-- The first label calls the second, the third and the second again; both call the fourth, and the
-- third also calls the first.
def crossingCalls : LabelStore where
  arena := #[
    { id := 0, address := 0x8000, kind := .subroutine, calls := #[1, 2, 1] },
    { id := 1, address := 0x8010, kind := .subroutine, calls := #[3] },
    { id := 2, address := 0x8020, kind := .subroutine, calls := #[3, 0] },
    { id := 3, address := 0x8030, kind := .subroutine }]
  index := ((((∅ : Std.TreeMap Address LabelId compare).insert 0x8000 0).insert 0x8010 1).insert
    0x8020 2).insert 0x8030 3

theorem graphLabels_is_preorder_crossing :
    let session : Session := { labels := crossingCalls }
    (∀ address id, session.labels.idAt? address = some id → session.labels.Knows id) ∧
    (∀ id callee, session.labels.Calls id callee → session.labels.Knows callee) ∧
    session.resolve (.address 0x8000) = .ok 0 ∧
    session.graphLabels (.address 0x8000) = .ok [0, 1, 3, 2] := by
  intro session
  have hlive : ∀ address id, crossingCalls.idAt? address = some id → crossingCalls.Knows id := by
    intro address id hid
    rw [LabelStore.knows_iff_lt]
    simp only [crossingCalls, LabelStore.idAt?, Std.TreeMap.getElem?_insert] at hid
    repeat' split at hid
    all_goals cases hid
    all_goals decide
  have hcalls : ∀ id callee, crossingCalls.Calls id callee → crossingCalls.Knows callee := by
    have hall : crossingCalls.arena.toList.all fun label => label.calls.toList.all (· < 4) := rfl
    rintro id callee ⟨label, hlabel, hcallee⟩
    have hlabels := List.all_eq_true.mp hall label (Array.mem_def.mp (Array.mem_of_getElem? hlabel))
    have hlt := List.all_eq_true.mp hlabels callee (Array.mem_def.mp hcallee)
    exact (crossingCalls.knows_iff_lt callee).mpr (of_decide_eq_true hlt)
  have hroot : session.resolve (.address 0x8000) = .ok 0 := by
    have hid : crossingCalls.idAt? 0x8000 = some 0 := by
      simp only [crossingCalls, LabelStore.idAt?, Std.TreeMap.getElem?_insert]
      rfl
    simp only [session, resolve, hid]
  obtain ⟨order, hgraph, -, -, honly⟩ :=
    graphLabels_is_preorder session hlive hcalls (.address 0x8000) 0 hroot
  refine ⟨hlive, hcalls, hroot, ?_⟩
  have hthird : session.labels.Visits [0, 1, 3] [2, 1] [0, 1, 3, 2] :=
    .first (by decide) (.again (by decide) (.again (by decide) (.done _)))
      (.again (by decide) (.done _))
  have hvisits : session.labels.Visits [] [0] [0, 1, 3, 2] :=
    .first (by decide) (.first (by decide) (.first (by decide) (.done _) (.done _)) hthird) (.done _)
  rw [hgraph, (honly _).mp hvisits]

end Session

end Z80Atlas
