import Mathlib.Data.List.Chain
import Z80Atlas.Proofs.Analysis.Locality

namespace Z80Atlas

namespace Address

variable {run list : List Address} {a : Address}

theorem head?_of_least (hordered : list.Pairwise (· < ·)) (hmem : a ∈ list)
    (hleast : ∀ b ∈ list, a ≤ b) : list.head? = some a := by
  cases list with
  | nil => cases hmem
  | cons first rest =>
      rcases List.mem_cons.mp hmem with rfl | hrest
      · rfl
      · have hlt := (List.pairwise_cons.mp hordered).1 a hrest
        exact absurd (hleast first List.mem_cons_self) (UInt16.not_le.mpr hlt)

-- Neighbours at the beginning of an ascending list have none of its addresses between them.
theorem isChain_gapless (hordered : list.Pairwise (· < ·)) (hrun : run <+: list) :
    run.IsChain fun a b => ∀ r ∈ list, ¬(a < r ∧ r < b) := by
  have hlist : list.IsChain fun a b => ∀ r ∈ list, ¬(a < r ∧ r < b) := by
    rw [List.isChain_iff_getElem]
    intro i hi r hr ⟨hlower, hupper⟩
    obtain ⟨j, hj, rfl⟩ := List.getElem_of_mem hr
    rw [List.pairwise_iff_getElem] at hordered
    rcases Nat.lt_trichotomy j i with hji | rfl | hij
    · exact UInt16.lt_asymm hlower (hordered j i hj (by omega) hji)
    · exact UInt16.lt_irrefl _ hlower
    · rcases Nat.lt_or_eq_of_le (Nat.succ_le_of_lt hij) with hij | rfl
      · exact UInt16.lt_asymm hupper (hordered (i + 1) j hi hj hij)
      · exact UInt16.lt_irrefl _ hupper
  obtain ⟨rest, rfl⟩ := hrun
  exact hlist.left_of_append

-- Addresses of an ascending list that leave nothing out from its head on are its beginning.
theorem prefix_of_gapless (hordered : list.Pairwise (· < ·)) (hrun : run.Pairwise (· < ·))
    (hmem : run ⊆ list) (hhead : ∀ a ∈ run.head?, list.head? = some a)
    (hgapless : run.IsChain fun a b => ∀ r ∈ list, ¬(a < r ∧ r < b)) : run <+: list := by
  induction run generalizing list with
  | nil => exact List.nil_prefix
  | cons first run ih =>
      obtain ⟨rest, rfl⟩ := List.head?_eq_some_iff.mp (hhead first rfl)
      rw [List.pairwise_cons] at hordered hrun
      obtain ⟨hnext, hlater⟩ := List.isChain_cons.mp hgapless
      have hrest : run ⊆ rest := by
        intro a ha
        rcases List.mem_cons.mp (hmem (List.mem_cons_of_mem first ha)) with rfl | hrest
        · exact absurd (hrun.1 a ha) (UInt16.lt_irrefl a)
        · exact hrest
      rw [List.prefix_cons_inj]
      apply ih hordered.2 hrun.2 hrest
      · intro a ha
        refine head?_of_least hordered.2 (hrest (List.mem_of_mem_head? ha)) fun b hb => ?_
        have hbetween := hnext a ha b (List.mem_cons_of_mem first hb)
        exact UInt16.not_lt.mp fun hlt => hbetween ⟨hordered.1 b hb, hlt⟩
      · exact hlater.imp fun a b h r hr => h r (List.mem_cons_of_mem first hr)

end Address

namespace Session

section Coherent

variable {run list : List Address}

def Adjoins (session : Session) (a b : Address) : Prop :=
  a.next? (session.instructionAt a).size = some b

theorem expected_of_head?_coherent {session : Session} {expected : Option Address} {a : Address}
    (h : a ∈ (session.coherent expected list).head?) : expected = some a := by
  cases list with
  | nil => cases h
  | cons first rest =>
      rw [coherent] at h
      split at h
      · next hexpected =>
        cases h
        exact hexpected
      · cases h

theorem isChain_coherent (session : Session) (expected : Option Address) (list : List Address) :
    (session.coherent expected list).IsChain session.Adjoins := by
  induction list generalizing expected with
  | nil => exact .nil
  | cons a rest ih =>
      rw [coherent]
      split
      · exact (ih _).cons fun b hb => expected_of_head?_coherent hb
      · exact .nil

-- Of the beginnings of a list in which each address adjoins the next, none goes further.
theorem prefix_coherent {session : Session} {expected : Option Address} (hrun : run <+: list)
    (hchain : run.IsChain session.Adjoins) (hhead : ∀ a ∈ run.head?, expected = some a) :
    run <+: session.coherent expected list := by
  induction run generalizing list expected with
  | nil => exact List.nil_prefix
  | cons a run ih =>
      obtain ⟨rest, rfl⟩ := hrun
      obtain ⟨hnext, hlater⟩ := List.isChain_cons.mp hchain
      rw [List.cons_append, coherent, if_pos (hhead a rfl), List.prefix_cons_inj]
      exact ih (List.prefix_append run rest) hlater hnext

end Coherent

-- An ascending run from `start` through what control comes to from there: each instruction ends where
-- the next one of the run begins, and control comes to no address between the two.
structure Unbroken (session : Session) (start : Address) (run : List Address) : Prop where
  starts : ∀ a ∈ run.head?, a = start
  ascending : run.Pairwise (· < ·)
  reached : ∀ a ∈ run, session.ComesTo start a
  adjoins : run.IsChain session.Adjoins
  gapless : run.IsChain fun a b => ∀ r, session.ComesTo start r → ¬(a < r ∧ r < b)

section Block

variable {session other : Session} {start : Address} {run : List Address}

-- The block is made from the reach of an address at and above it, in ascending order.
theorem exists_block_eq (session : Session) (start : Address) :
    ∃ reach : List Address, reach.Pairwise (· < ·) ∧
      (∀ a, a ∈ reach ↔ session.ComesTo start a ∧ start ≤ a) ∧
      session.block start = session.coherent (some start) reach := by
  refine ⟨_, pairwise_found (session.callFree.visited start) start, fun a => ?_, rfl⟩
  rw [mem_found, Walk.mem_visited_iff, reaches_callFree_iff]

theorem head?_reach {reach : List Address} (hordered : reach.Pairwise (· < ·))
    (hreach : ∀ a, a ∈ reach ↔ session.ComesTo start a ∧ start ≤ a)
    (hassigned : session.memory.isAssigned start) : reach.head? = some start :=
  Address.head?_of_least hordered ((hreach start).mpr ⟨⟨hassigned, .refl⟩, UInt16.le_refl start⟩)
    fun a ha => ((hreach a).mp ha).2

theorem unbroken_block (session : Session) (start : Address) :
    session.Unbroken start (session.block start) := by
  obtain ⟨reach, hordered, hreach, hblock⟩ := session.exists_block_eq start
  have hbegins := session.coherent_prefix (some start) reach
  rw [hblock]
  refine ⟨?_, hordered.sublist hbegins.sublist, ?_, session.isChain_coherent _ _, ?_⟩
  · intro a ha
    exact (Option.some.inj (expected_of_head?_coherent ha)).symm
  · intro a ha
    exact ((hreach a).mp (hbegins.subset ha)).1
  · apply (Address.isChain_gapless hordered hbegins).imp_of_mem_imp
    intro a b ha _ hbetween r hr hlt
    have habove : start ≤ r :=
      UInt16.le_trans ((hreach a).mp (hbegins.subset ha)).2 (UInt16.le_of_lt hlt.1)
    exact hbetween r ((hreach r).mpr ⟨hr, habove⟩) hlt

-- No other run goes further, or another way.
theorem Unbroken.prefix_block (h : session.Unbroken start run) : run <+: session.block start := by
  obtain ⟨reach, hordered, hreach, hblock⟩ := session.exists_block_eq start
  cases run with
  | nil => exact List.nil_prefix
  | cons first run =>
      obtain rfl := h.starts first rfl
      have hassigned : session.memory.isAssigned first := (h.reached first List.mem_cons_self).1
      have hmem : first :: run ⊆ reach := by
        intro a ha
        refine (hreach a).mpr ⟨h.reached a ha, ?_⟩
        rcases List.mem_cons.mp ha with rfl | hlater
        · exact UInt16.le_refl a
        · exact UInt16.le_of_lt ((List.pairwise_cons.mp h.ascending).1 a hlater)
      have hbegins : first :: run <+: reach := by
        refine Address.prefix_of_gapless hordered h.ascending hmem ?_ ?_
        · intro a ha
          cases ha
          exact head?_reach hordered hreach hassigned
        · exact h.gapless.imp fun a b hbetween r hr => hbetween r ((hreach r).mp hr).1
      rw [hblock]
      exact prefix_coherent hbegins h.adjoins fun a ha => ha

theorem block_eq_nil_iff (session : Session) (start : Address) :
    session.block start = [] ↔ ¬session.memory.isAssigned start := by
  constructor
  · intro hnil hassigned
    have hsingle : session.Unbroken start [start] :=
      ⟨by simp, by simp, by simp [ComesTo, hassigned, Relation.ReflTransGen.refl], by simp, by simp⟩
    have hbegins := hsingle.prefix_block
    rw [hnil] at hbegins
    simp at hbegins
  · intro hnot
    rw [List.eq_nil_iff_forall_not_mem]
    intro a ha
    exact hnot ((session.unbroken_block start).reached a ha).1

theorem Unbroken.congr (hassigned : ∀ a, other.memory.isAssigned a = session.memory.isAssigned a)
    (hinstruction : ∀ a, other.instructionAt a = session.instructionAt a)
    (h : session.Unbroken start run) : other.Unbroken start run := by
  have hcontinues : other.Continues = session.Continues := by
    funext a b
    simp only [Continues, hassigned, hinstruction]
  have hcomes : other.ComesTo = session.ComesTo := by
    funext a b
    simp only [ComesTo, hassigned, hcontinues]
  have hadjoins : other.Adjoins = session.Adjoins := by
    funext a b
    simp only [Adjoins, hinstruction]
  exact ⟨h.starts, h.ascending, hcomes ▸ h.reached, hadjoins ▸ h.adjoins, hcomes ▸ h.gapless⟩

-- As there is but one longest run, the block is settled by what decides which runs are unbroken.
theorem block_congr (hassigned : ∀ a, other.memory.isAssigned a = session.memory.isAssigned a)
    (hinstruction : ∀ a, other.instructionAt a = session.instructionAt a) (start : Address) :
    other.block start = session.block start := by
  have hlower := ((other.unbroken_block start).congr (fun a => (hassigned a).symm)
    fun a => (hinstruction a).symm).prefix_block
  have hupper := ((session.unbroken_block start).congr hassigned hinstruction).prefix_block
  exact hlower.eq_of_length (Nat.le_antisymm hlower.length_le hupper.length_le)

-- A walk that takes the exits in another order comes to the same addresses.
theorem coherent_visited {walk : Walk}
    (hadmits : ∀ a, walk.admits a = session.memory.isAssigned a)
    (hexits : ∀ a, (walk.exits a).Perm (session.callFree.exits a)) (start : Address) :
    session.coherent (some start)
        (((walk.visited start).foldl (·.insert ·) (∅ : Addresses)).toList.filter (start ≤ ·)) =
      session.block start := by
  have hstep : ∀ a b, b ∈ walk.exits a ∧ walk.admits b ↔
      b ∈ session.callFree.exits a ∧ session.callFree.admits b := by
    intro a b
    rw [(hexits a).mem_iff, hadmits]
    rfl
  have hreaches : ∀ a, walk.Reaches start a ↔ session.callFree.Reaches start a := by
    intro a
    rw [walk.reaches_iff hstep, session.callFree.reaches_iff fun _ _ => Iff.rfl, hadmits]
    rfl
  refine (block_eq_coherent _ (pairwise_found _ start) fun a => ?_).symm
  rw [mem_found, Walk.mem_visited_iff, hreaches]

end Block

-- The block of a routine is the longest unbroken run from its entry, and there is none only where
-- nothing is loaded. So it depends on the bytes and on which of them are loaded, not on anything else
-- that is known of the program nor on the order in which exits are explored.
theorem block_is_longest_unbroken (session : Session) (start : Address) :
    session.Unbroken start (session.block start) ∧
    (∀ run, session.Unbroken start run → run <+: session.block start) ∧
    (session.block start = [] ↔ ¬session.memory.isAssigned start) ∧
    (∀ other : Session, (∀ a, other.memory.isAssigned a = session.memory.isAssigned a) →
      (∀ a, other.instructionAt a = session.instructionAt a) →
      other.block start = session.block start) ∧
    (∀ other : Session, session.decoder.ReadsBytes → other.decoder = session.decoder →
      (∀ a, other.memory.byte a = session.memory.byte a) →
      (∀ a, other.memory.isAssigned a = session.memory.isAssigned a) →
      other.block start = session.block start) ∧
    ∀ walk : Walk, (∀ a, walk.admits a = session.memory.isAssigned a) →
      (∀ a, (walk.exits a).Perm (session.callFree.exits a)) →
      session.coherent (some start)
          (((walk.visited start).foldl (·.insert ·) (∅ : Addresses)).toList.filter (start ≤ ·)) =
        session.block start := by
  refine ⟨session.unbroken_block start, fun run h => h.prefix_block,
    session.block_eq_nil_iff start, fun other hassigned hinstruction =>
      block_congr hassigned hinstruction start, ?_, fun walk hadmits hexits =>
      coherent_visited hadmits hexits start⟩
  intro other hbytes hdecoder hbyte hassigned
  refine block_congr hassigned (fun a => ?_) start
  rw [instructionAt, hdecoder]
  exact hbytes _ _ hbyte a

end Session

end Z80Atlas
