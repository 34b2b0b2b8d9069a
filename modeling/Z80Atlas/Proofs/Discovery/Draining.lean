import Mathlib.Data.List.Nodup
import Z80Atlas.Proofs.Discovery.Run

namespace Z80Atlas

theorem Address.length_all : all.length = addressCount := by
  rw [all, List.length_map, List.length_range]

namespace Search

-- The search as a machine: without a current address it takes the one that waits longest and stops if
-- there is none, and otherwise it decodes at the current address.
def advance? (search : Search) : Option Search :=
  match search.current with
  | none => search.session.queue.pop?.map fun taken =>
      ⟨{ search.session with queue := taken.2 }, some taken.1⟩
  | some address =>
      some ⟨(search.session.discoverAt address).1, (search.session.discoverAt address).2⟩

inductive Turn where
  | take (address : Address)
  | leave (address : Address)
  | mark (address : Address) (pushed : Option Address)

namespace Turn

def taken? : Turn → Option Address
  | take address => some address
  | _ => none

def marked? : Turn → Option Address
  | mark address _ => some address
  | _ => none

def pushed? : Turn → Option Address
  | mark _ pushed => pushed
  | _ => none

-- A turn leads from one search to another. Only to mark an instruction changes the memory or lets an
-- address wait, one at most; the address that is marked was no code before and is code from then on.
inductive Leads (search next : Search) : Turn → Prop
  | take (address : Address) (hcurrent : search.current = none) (hnext : next.current = some address)
      (hqueue : search.session.queue.toList = address :: next.session.queue.toList)
      (hmemory : next.session.memory = search.session.memory) : Leads search next (.take address)
  | leave (address : Address) (hcurrent : search.current = some address) (hnext : next.current = none)
      (hqueue : next.session.queue.toList = search.session.queue.toList)
      (hmemory : next.session.memory = search.session.memory) : Leads search next (.leave address)
  | mark (address : Address) (pushed : Option Address) (hcurrent : search.current = some address)
      (hqueue : next.session.queue.toList = search.session.queue.toList ++ pushed.toList)
      (hnew : ¬search.session.memory.isCode address) (hcode : next.session.memory.isCode address)
      (hkeeps : ∀ b, search.session.memory.isCode b → next.session.memory.isCode b) :
      Leads search next (.mark address pushed)

end Turn

inductive Performs : Search → List Turn → Search → Prop
  | done (search : Search) : Performs search [] search
  | turn {search next last : Search} {turn : Turn} {turns : List Turn}
      (hadvance : search.advance? = some next) (hturn : turn.Leads search next)
      (hrest : Performs next turns last) : Performs search (turn :: turns) last

theorem leads_accept {session : Session} {address : Address} (h : session.Fresh address) :
    ∃ pushed, Turn.Leads ⟨session, some address⟩
      ⟨session.accept address (session.instructionAt address),
        (session.instructionAt address).fallThrough? address⟩ (.mark address pushed) := by
  have hself := session.mem_extent_self address
  refine ⟨_, .mark address _ rfl (Session.queue_linkOperand _ _ _) (h.uncoded address hself) ?_ ?_⟩
  · exact (session.isCode_accept address address).mpr (.inl hself)
  · intro b hb
    exact (session.isCode_accept address b).mpr (.inr hb)

theorem exists_leads {search next : Search} (h : Step search next) :
    ∃ turn, Turn.Leads search next turn := by
  cases h with
  | take session address queue hpop =>
      exact ⟨_, .take address rfl rfl (AddressQueue.toList_of_pop? hpop) rfl⟩
  | leave session address journal hobstacle => exact ⟨_, .leave address rfl rfl rfl rfl⟩
  | find session address hfresh =>
      obtain ⟨pushed, hmark⟩ := leads_accept hfresh
      exact ⟨_, hmark⟩

theorem step_of_advance? {search next : Search} (h : search.advance? = some next) :
    Step search next := by
  obtain ⟨session, current⟩ := search
  cases current with
  | none =>
      obtain ⟨⟨address, queue⟩, hpop, rfl⟩ := Option.map_eq_some_iff.mp h
      exact .take session address queue hpop
  | some address =>
      cases h
      exact step_discoverAt session address

namespace Performs

variable {search next last : Search} {turns further : List Turn}

theorem trans (h : Performs search turns next) (h' : Performs next further last) :
    Performs search (turns ++ further) last := by
  induction h with
  | done search => exact h'
  | turn hadvance hturn _ ih => exact .turn hadvance hturn (ih h')

-- Addresses come out in the order in which they came to wait, and none gets lost.
theorem queue_eq (h : Performs search turns last) :
    search.session.queue.toList ++ turns.filterMap Turn.pushed? =
      turns.filterMap Turn.taken? ++ last.session.queue.toList := by
  induction h with
  | done search => simp
  | turn _ hturn _ ih =>
      cases hturn with
      | take address _ _ hqueue _ =>
          rw [hqueue]
          simpa [List.filterMap_cons, Turn.taken?, Turn.pushed?] using ih
      | leave address _ _ hqueue _ =>
          rw [hqueue] at ih
          simpa [List.filterMap_cons, Turn.taken?, Turn.pushed?] using ih
      | mark address pushed _ hqueue _ _ _ =>
          rw [hqueue, List.append_assoc] at ih
          cases pushed <;> simpa [List.filterMap_cons, Turn.taken?, Turn.pushed?] using ih

-- An address that is marked is code from then on, so that it is not marked again.
theorem marked_new (h : Performs search turns last) :
    (∀ a ∈ turns.filterMap Turn.marked?, ¬search.session.memory.isCode a) ∧
      (turns.filterMap Turn.marked?).Nodup := by
  induction h with
  | done search => simp
  | turn _ hturn _ ih =>
      cases hturn with
      | take address _ _ _ hmemory =>
          rw [hmemory] at ih
          exact ih
      | leave address _ _ _ hmemory =>
          rw [hmemory] at ih
          exact ih
      | mark address pushed _ _ hnew hcode hkeeps =>
          have hmarked : (Turn.mark address pushed).marked? = some address := rfl
          rw [List.filterMap_cons_some hmarked]
          refine ⟨?_, List.nodup_cons.mpr ⟨fun hagain => ih.1 address hagain hcode, ih.2⟩⟩
          intro a ha
          rcases List.mem_cons.mp ha with rfl | hlater
          · exact hnew
          · exact mt (hkeeps a) (ih.1 a hlater)

theorem length_marked_le (h : Performs search turns last) :
    (turns.filterMap Turn.marked?).length ≤ addressCount := by
  rw [← Address.length_all]
  exact h.marked_new.2.length_le_of_subset fun a _ => a.mem_all

end Performs

theorem length_pushed_le (turns : List Turn) :
    (turns.filterMap Turn.pushed?).length ≤ (turns.filterMap Turn.marked?).length := by
  induction turns with
  | nil => exact Nat.le_refl 0
  | cons turn turns ih =>
      cases turn with
      | take address => exact ih
      | leave address => exact ih
      | mark address pushed =>
          cases pushed with
          | none => exact Nat.le_succ_of_le ih
          | some target => exact Nat.succ_le_succ ih

theorem exists_performs_of_advance? {search next last : Search} (h : search.advance? = some next)
    (hrest : ∃ turns, Performs next turns last) : ∃ turns, Performs search turns last := by
  obtain ⟨turn, hturn⟩ := exists_leads (step_of_advance? h)
  obtain ⟨turns, hrest⟩ := hrest
  exact ⟨turn :: turns, .turn h hturn hrest⟩

theorem performs_discoverFrom (session : Session) (address : Address) :
    ∃ turns, Performs ⟨session, some address⟩ turns ⟨session.discoverFrom address, none⟩ := by
  fun_induction Session.discoverFrom session address with
  | case1 session address next h =>
      exact exists_performs_of_advance? (by simp [advance?, h]) ⟨[], .done ⟨next, none⟩⟩
  | case2 session address next following h ih =>
      exact exists_performs_of_advance? (by simp [advance?, h]) ih

theorem performs_collect (session : Session) :
    ∃ turns, Performs ⟨session, none⟩ turns ⟨session.collect, none⟩ := by
  fun_induction Session.collect session with
  | case1 session h => exact ⟨[], .done _⟩
  | case2 session address queue h ih =>
      obtain ⟨turns, hdiscover⟩ := performs_discoverFrom { session with queue } address
      obtain ⟨further, hrest⟩ := ih
      refine exists_performs_of_advance? ?_ ⟨turns ++ further, hdiscover.trans hrest⟩
      simp [advance?, h]

theorem advance?_collect (session : Session) : advance? ⟨session.collect, none⟩ = none := by
  fun_induction Session.collect session with
  | case1 session h => simp [advance?, h]
  | case2 session address queue h ih => exact ih

end Search

namespace Session

theorem isCode_of_discoverAt {session next : Session} {address following : Address}
    (h : session.discoverAt address = (next, some following)) :
    ¬session.memory.isCode address ∧ next.memory.isCode address := by
  have hstep := Search.step_discoverAt session address
  rw [h] at hstep
  obtain ⟨turn, hturn⟩ := Search.exists_leads hstep
  cases hturn with
  | take _ hcurrent => cases hcurrent
  | leave _ _ hnext => cases hnext
  | mark _ _ hcurrent _ hnew hcode _ =>
      cases hcurrent
      exact ⟨hnew, hcode⟩

-- Decoding goes on only behind an address that was no code before and is code now. Turn by turn the
-- search comes to its end, where nothing waits: no address is marked twice, and those that are taken
-- are the ones that waited first and at most one for each that is marked.
theorem collect_drains_queue (session : Session) :
    (∀ (current next : Session) (address following : Address),
      current.discoverAt address = (next, some following) →
        ¬current.memory.isCode address ∧ next.memory.isCode address) ∧
    ∃ turns : List Search.Turn,
      Search.Performs ⟨session, none⟩ turns ⟨session.collect, none⟩ ∧
      Search.advance? ⟨session.collect, none⟩ = none ∧
      (turns.filterMap Search.Turn.marked?).Nodup ∧
      (turns.filterMap Search.Turn.marked?).length ≤ addressCount ∧
      turns.filterMap Search.Turn.taken? =
        session.queue.toList ++ turns.filterMap Search.Turn.pushed? ∧
      (turns.filterMap Search.Turn.taken?).length ≤ session.queue.size + addressCount ∧
      session.collect.queue.toList = [] := by
  refine ⟨fun _ _ _ _ => isCode_of_discoverAt, ?_⟩
  obtain ⟨turns, hturns⟩ := Search.performs_collect session
  have hempty := Search.queue_collect session
  have htaken := hturns.queue_eq
  rw [hempty, List.append_nil] at htaken
  refine ⟨turns, hturns, Search.advance?_collect session, hturns.marked_new.2,
    hturns.length_marked_le, htaken.symm, ?_, hempty⟩
  rw [← htaken, List.length_append, ← AddressQueue.size_eq_length]
  exact Nat.add_le_add_left ((Search.length_pushed_le turns).trans hturns.length_marked_le) _

end Session

end Z80Atlas
