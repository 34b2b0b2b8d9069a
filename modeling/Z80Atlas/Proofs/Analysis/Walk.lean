import Mathlib.Logic.Relation
import Z80Atlas.Analysis.Walk

namespace Z80Atlas

namespace Walk

inductive Reaches (walk : Walk) (start : Address) : Address → Prop
  | start (hadmits : walk.admits start) : Reaches walk start start
  | step (a b : Address) (hreach : Reaches walk start a) (hexit : b ∈ walk.exits a)
      (hadmits : walk.admits b) : Reaches walk start b

-- What is visited beyond the trail lies in each set that holds the admitted pending addresses and
-- the admitted exits of its members.
theorem visit_subset (walk : Walk) (closed : Address → Prop)
    (hclosed : ∀ a, closed a → ∀ b ∈ walk.exits a, walk.admits b → closed b)
    (seen : AddressSet) (trail pending : List Address) (htrail : ∀ a ∈ trail, closed a)
    (hpending : ∀ a ∈ pending, walk.admits a → closed a) :
    ∀ a ∈ walk.visit seen trail pending, closed a := by
  fun_induction visit walk seen trail pending with
  | case1 seen trail => exact htrail
  | case2 seen trail address pending hskip ih =>
      exact ih htrail fun a ha => hpending a (List.mem_cons_of_mem address ha)
  | case3 seen trail address pending hvisit ih =>
      have hadmits : walk.admits address := by simp_all
      have haddress : closed address := hpending address List.mem_cons_self hadmits
      apply ih
      · intro a ha
        rcases List.mem_cons.mp ha with rfl | hold
        · exact haddress
        · exact htrail a hold
      · intro a ha hadmits
        rcases List.mem_append.mp ha with hexit | hold
        · exact hclosed address haddress a hexit hadmits
        · exact hpending a (List.mem_cons_of_mem address hold) hadmits

-- The invariant of a walk: the trail is what was seen, and an admitted exit of the trail is on it or
-- pending. At the end nothing is pending, so that the trail is closed under admitted exits.
theorem visit_closed (walk : Walk) (seen : AddressSet) (trail pending : List Address)
    (hseen : ∀ a, seen.contains a = true ↔ a ∈ trail)
    (hexits : ∀ a ∈ trail, ∀ b ∈ walk.exits a, walk.admits b → b ∈ trail ∨ b ∈ pending) :
    (∀ a ∈ trail, a ∈ walk.visit seen trail pending) ∧
    (∀ a ∈ pending, walk.admits a → a ∈ walk.visit seen trail pending) ∧
    ∀ a ∈ walk.visit seen trail pending, ∀ b ∈ walk.exits a, walk.admits b →
      b ∈ walk.visit seen trail pending := by
  fun_induction visit walk seen trail pending with
  | case1 seen trail =>
      refine ⟨fun a ha => ha, fun a ha => absurd ha List.not_mem_nil, ?_⟩
      intro a ha b hb hadmits
      exact (hexits a ha b hb hadmits).resolve_right List.not_mem_nil
  | case2 seen trail address pending hskip ih =>
      have hold : walk.admits address → address ∈ trail := by
        intro hadmits
        rw [← hseen]
        simpa [hadmits] using hskip
      obtain ⟨htrail, hpending, hclosed⟩ := ih hseen fun a ha b hb hadmits => by
        rcases hexits a ha b hb hadmits with hmem | hmem
        · exact .inl hmem
        · rcases List.mem_cons.mp hmem with rfl | hmem
          · exact .inl (hold hadmits)
          · exact .inr hmem
      refine ⟨htrail, ?_, hclosed⟩
      intro a ha hadmits
      rcases List.mem_cons.mp ha with rfl | hmem
      · exact htrail a (hold hadmits)
      · exact hpending a hmem hadmits
  | case3 seen trail address pending hvisit ih =>
      obtain ⟨htrail, hpending, hclosed⟩ := ih
        (fun a => by simp [hseen])
        (fun a ha b hb hadmits => by
          rcases List.mem_cons.mp ha with rfl | hold
          · exact .inr (List.mem_append_left pending hb)
          · rcases hexits a hold b hb hadmits with hmem | hmem
            · exact .inl (List.mem_cons_of_mem address hmem)
            · rcases List.mem_cons.mp hmem with rfl | hmem
              · exact .inl List.mem_cons_self
              · exact .inr (List.mem_append_right _ hmem))
      refine ⟨fun a ha => htrail a (List.mem_cons_of_mem address ha), ?_, hclosed⟩
      intro a ha hadmits
      rcases List.mem_cons.mp ha with rfl | hmem
      · exact htrail a List.mem_cons_self
      · exact hpending a (List.mem_append_right _ hmem) hadmits

-- An address comes onto the trail only if it is not there yet.
theorem nodup_visit (walk : Walk) (seen : AddressSet) (trail pending : List Address)
    (hseen : ∀ a, seen.contains a = true ↔ a ∈ trail) (htrail : trail.Nodup) :
    (walk.visit seen trail pending).Nodup := by
  fun_induction visit walk seen trail pending with
  | case1 seen trail => exact htrail
  | case2 seen trail address pending hskip ih => exact ih hseen htrail
  | case3 seen trail address pending hvisit ih =>
      have hnew : address ∉ trail := by simp_all
      apply ih
      · simp [hseen]
      · exact List.nodup_cons.mpr ⟨hnew, htrail⟩

theorem nodup_visited (walk : Walk) (start : Address) : (walk.visited start).Nodup :=
  walk.nodup_visit ∅ [] [start] (by simp) List.nodup_nil

-- A walk visits what it can reach.
theorem mem_visited_iff (walk : Walk) (start a : Address) :
    a ∈ walk.visited start ↔ walk.Reaches start a := by
  constructor
  · refine visit_subset walk (walk.Reaches start) (fun a ha b hb hadmits => .step a b ha hb hadmits)
      ∅ [] [start] (fun a ha => absurd ha List.not_mem_nil) ?_ a
    intro b hb hadmits
    rw [List.mem_singleton.mp hb] at hadmits ⊢
    exact .start hadmits
  · obtain ⟨-, hpending, hclosed⟩ := visit_closed walk ∅ [] [start] (fun a => by simp)
      (fun a ha => absurd ha List.not_mem_nil)
    intro ha
    induction ha with
    | start hadmits => exact hpending start (List.mem_singleton_self start) hadmits
    | step a b _ hexit hadmits ih => exact hclosed a ih b hexit hadmits

theorem Reaches.trans {walk : Walk} {a b c : Address} (h : walk.Reaches a b)
    (h' : walk.Reaches b c) : walk.Reaches a c := by
  induction h' with
  | start _ => exact h
  | step c d _ hexit hadmits ih => exact .step c d ih hexit hadmits

-- Reaching is taking steps to admitted exits, from an admitted start.
theorem reaches_iff (walk : Walk) {step : Address → Address → Prop}
    (hstep : ∀ a b, b ∈ walk.exits a ∧ walk.admits b ↔ step a b) (start a : Address) :
    walk.Reaches start a ↔ walk.admits start ∧ Relation.ReflTransGen step start a := by
  constructor
  · intro h
    induction h with
    | start hadmits => exact ⟨hadmits, .refl⟩
    | step a b _ hexit hadmits ih => exact ⟨ih.1, ih.2.tail ((hstep a b).mp ⟨hexit, hadmits⟩)⟩
  · rintro ⟨hadmits, hsteps⟩
    induction hsteps with
    | refl => exact .start hadmits
    | tail _ hnext ih =>
        obtain ⟨hexit, hadmits⟩ := (hstep _ _).mpr hnext
        exact .step _ _ ih hexit hadmits

theorem mem_visit_of_mem (walk : Walk) (seen : AddressSet) (trail pending : List Address)
    {a : Address} (h : a ∈ trail) : a ∈ walk.visit seen trail pending := by
  fun_induction visit walk seen trail pending with
  | case1 seen trail => exact h
  | case2 seen trail address pending hskip ih => exact ih h
  | case3 seen trail address pending hvisit ih => exact ih (List.mem_cons_of_mem address h)

-- A search for a goal takes the way of the whole walk, but ends at the first goal.
theorem meetsFrom_eq_any_visit (walk : Walk) (goal : Address → Bool) (seen : AddressSet)
    (trail pending : List Address) (htrail : trail.any goal = false) :
    walk.meetsFrom goal seen pending = (walk.visit seen trail pending).any goal := by
  fun_induction visit walk seen trail pending with
  | case1 seen trail => rw [meetsFrom, htrail]
  | case2 seen trail address pending hskip ih => rw [meetsFrom, if_pos hskip, ih htrail]
  | case3 seen trail address pending hvisit ih =>
      rw [meetsFrom, if_neg hvisit]
      by_cases hgoal : goal address
      · rw [if_pos hgoal, Eq.comm, List.any_eq_true]
        exact ⟨address, walk.mem_visit_of_mem _ _ _ List.mem_cons_self, hgoal⟩
      · rw [if_neg hgoal]
        refine ih ?_
        rw [List.any_cons, htrail, Bool.or_false]
        exact Bool.eq_false_iff.mpr hgoal

-- A walk meets the goals that it can reach.
theorem meets_iff (walk : Walk) (goal : Address → Bool) (start : Address) :
    walk.meets goal start ↔ ∃ a, walk.Reaches start a ∧ goal a := by
  rw [meets, walk.meetsFrom_eq_any_visit goal ∅ [] [start] rfl, List.any_eq_true]
  simp only [← mem_visited_iff, visited]

end Walk

end Z80Atlas
