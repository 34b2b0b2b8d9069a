import Z80Atlas.Proofs.Analysis.Passes
import Z80Atlas.Proofs.Symbol.Live

namespace Z80Atlas

theorem count_flatMap_replicate (ids : List LabelId) (hnodup : ids.Nodup) (times : LabelId → Nat)
    (id : LabelId) :
    (ids.flatMap fun other => List.replicate (times other) other).count id =
      if id ∈ ids then times id else 0 := by
  induction ids with
  | nil => simp
  | cons other rest ih =>
      rw [List.nodup_cons] at hnodup
      rw [List.flatMap_cons, List.count_append, ih hnodup.2, List.count_replicate]
      by_cases heq : other = id
      · subst heq
        simp [hnodup.1]
      · simp [heq, Ne.symm heq]

def Label.addCalls (label : Label) (ids : List LabelId) : Label :=
  { label with calls := label.calls ++ ids.toArray }

@[simp]
theorem Label.addCalls_nil (label : Label) : label.addCalls [] = label := by
  simp [addCalls]

theorem Label.addCalls_addCalls (label : Label) (ids more : List LabelId) :
    (label.addCalls ids).addCalls more = label.addCalls (ids ++ more) := by
  simp only [addCalls, Array.append_assoc, List.append_toArray]

namespace Session

-- How often the code of a caller refers to a label that can be called.
def callCount (session : Session) (callee caller : LabelId) : Nat :=
  match session.labels.get? callee with
  | none => 0
  | some label =>
    if label.kind.isTopLevel then
      (label.references.toList.filterMap session.owners.get).count caller
    else 0

theorem callCount_of_revised {keep : Label → Label → Prop} {session other : Session}
    (h : session.Revised keep other)
    (hkeep : ∀ l m, keep l m → m.kind = l.kind ∧ m.references = l.references)
    (callee caller : LabelId) :
    other.callCount callee caller = session.callCount callee caller := by
  have hrel := h.labels.labels callee
  unfold callCount
  rw [owners_of_ground h.ground]
  generalize session.labels.get? callee = label? at hrel ⊢
  generalize other.labels.get? callee = new? at hrel ⊢
  cases hrel with
  | none => rfl
  | some hlabel =>
      obtain ⟨hkind, hreferences⟩ := hkeep _ _ hlabel
      simp only [hkind, hreferences]

-- Pushing a callee once for each caller lists it as often as the caller occurs.
theorem get?_foldl_push (session : Session) (callers : List LabelId) (callee id : LabelId) :
    (callers.foldl (fun session caller =>
      session.modifyLabel caller fun label => { label with calls := label.calls.push callee })
      session).labels.get? id =
    (session.labels.get? id).map fun label =>
      label.addCalls (List.replicate (callers.count id) callee) := by
  induction callers generalizing session with
  | nil => simp
  | cons caller rest ih =>
      rw [List.foldl_cons, ih, modifyLabel, LabelStore.get?_modify]
      by_cases heq : caller = id
      · rw [if_pos heq, Option.map_map, heq, List.count_cons_self]
        congr 1
        funext label
        exact label.addCalls_addCalls [callee] _
      · rw [if_neg heq, List.count_cons_of_ne heq]

theorem get?_linkCallers (session : Session) (callee id : LabelId) :
    (session.linkCallers callee).labels.get? id =
      (session.labels.get? id).map fun label =>
        label.addCalls (List.replicate (session.callCount callee id) callee) := by
  unfold linkCallers callCount
  cases hlabel : session.labels.get? callee with
  | none => simp
  | some label =>
      by_cases htop : label.kind.isTopLevel
      · simp only [htop]
        exact session.get?_foldl_push _ callee id
      · simp [htop]

theorem get?_foldl_linkCallers (session : Session) (ids : List LabelId) (id : LabelId) :
    (ids.foldl linkCallers session).labels.get? id =
      (session.labels.get? id).map fun label => label.addCalls
        (ids.flatMap fun callee => List.replicate (session.callCount callee id) callee) := by
  induction ids generalizing session with
  | nil => simp
  | cons callee rest ih =>
      have hcount := callCount_of_revised (session.revised_linkCallers callee) Label.Recalled.keeps
      rw [List.foldl_cons, ih, get?_linkCallers, Option.map_map]
      simp only [hcount]
      congr 1
      funext label
      exact label.addCalls_addCalls _ _

-- The calls of a label, once they are listed, are its callees in ascending order of address, each as
-- often as the label refers to it. Names change nothing about them.
theorem calls_linkCalls {session named : Session} (h : session.linkCalls.Revised Label.Renamed named)
    {id : LabelId} {old label : Label} (hold : session.labels.get? id = some old)
    (hempty : old.calls = #[]) (hlabel : named.labels.get? id = some label) :
    label.calls.toList = named.labels.ids.flatMap fun callee =>
      List.replicate (named.callCount callee id) callee := by
  have hcalled := session.revised_linkCalls
  have hcount : ∀ callee, named.callCount callee id = session.callCount callee id := by
    intro callee
    rw [callCount_of_revised h Label.Renamed.keeps, callCount_of_revised hcalled Label.Recalled.keeps]
  have hlist := session.get?_foldl_linkCallers session.labels.ids id
  have hrel := h.labels.labels id
  rw [hlabel, linkCalls, hlist, hold, Option.map_some] at hrel
  rw [h.labels.ids_eq, hcalled.labels.ids_eq]
  simp only [hcount]
  cases hrel with
  | some hrenamed =>
      obtain ⟨name, rfl⟩ := hrenamed
      simp [Label.addCalls, hempty]

end Session

end Z80Atlas
