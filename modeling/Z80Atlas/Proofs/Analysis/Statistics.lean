import Mathlib.Algebra.GroupWithZero.Nat
import Mathlib.Algebra.Order.BigOperators.Group.Finset
import Z80Atlas.Proofs.Analysis.Returning

namespace Z80Atlas

theorem Address.card_le (addresses : Finset Address) : addresses.card ≤ 65536 := by
  rw [← Finset.card_range 65536]
  apply Finset.card_le_card_of_injOn UInt16.toNat
  · intro a _
    exact Finset.mem_coe.mpr (Finset.mem_range.mpr (Address.toNat_lt a))
  · intro a _ b _ heq
    exact UInt16.toNat_inj.mp heq

namespace Statistics

def parts : List (Statistics → Nat) := [size, instructions, complexity]

theorem forall_mem_parts {property : (Statistics → Nat) → Prop} :
    (∀ part ∈ parts, property part) ↔
      property size ∧ property instructions ∧ property complexity := by
  simp [parts]

theorem part_min (a b : Statistics) :
    ∀ part ∈ parts, part (a.min b) = Min.min (part a) (part b) :=
  forall_mem_parts.mpr ⟨rfl, rfl, rfl⟩

theorem part_max (a b : Statistics) :
    ∀ part ∈ parts, part (a.max b) = Max.max (part a) (part b) :=
  forall_mem_parts.mpr ⟨rfl, rfl, rfl⟩

theorem part_zero : ∀ part ∈ parts, part {} = 0 :=
  forall_mem_parts.mpr ⟨rfl, rfl, rfl⟩

theorem ext_parts {a b : Statistics} (h : ∀ part ∈ parts, part a = part b) : a = b := by
  obtain ⟨hsize, hinstructions, hcomplexity⟩ := forall_mem_parts.mp h
  cases a
  cases b
  simp_all

end Statistics

-- A bound that no value exceeds is not needed to find the least value.
theorem isLeast_of_insert {α : Type} [PartialOrder α] {values : Set α} {bound n : α}
    (h : IsLeast (insert bound values) n) (hsome : values.Nonempty)
    (hbound : ∀ m ∈ values, m ≤ bound) : IsLeast values n := by
  obtain ⟨m, hm⟩ := hsome
  have hle : n ≤ m := h.2 (Set.mem_insert_of_mem bound hm)
  refine ⟨?_, fun k hk => h.2 (Set.mem_insert_of_mem bound hk)⟩
  rcases h.1 with rfl | hmem
  · rwa [le_antisymm hle (hbound m hm)]
  · exact hmem

theorem isGreatest_of_insert {values : Set Nat} {n : Nat} (h : IsGreatest (insert 0 values) n)
    (hsome : values.Nonempty) : IsGreatest values n :=
  @isLeast_of_insert Natᵒᵈ _ values 0 n h hsome fun m _ => Nat.zero_le m

namespace Session

def Stays (session : Session) (a b : Address) : Prop :=
  session.Continues a b ∧ ¬session.labels.kindIs b Kind.isSubroutine

-- The code of the routine at `a`: the loaded addresses to which control comes in this way.
def InRoutine (session : Session) (a b : Address) : Prop :=
  session.memory.isAssigned a ∧ Relation.ReflTransGen session.Stays a b

theorem mem_visited_routine (session : Session) (a b : Address) :
    b ∈ session.routine.visited a ↔ session.InRoutine a b := by
  rw [Walk.mem_visited_iff]
  apply Walk.reaches_iff
  intro x y
  simp only [routine, Stays, Continues, List.mem_filter, List.mem_append, Option.mem_toList,
    Bool.not_eq_true', Bool.not_eq_true, and_comm, and_left_comm]

theorem foldl_tally (instructions : List Instruction) (statistics : Statistics) :
    instructions.foldl tally statistics =
      { size := statistics.size + (instructions.map (·.length.toNat)).sum
        instructions := statistics.instructions + instructions.length
        complexity := statistics.complexity + instructions.countP (·.isDecision) } := by
  induction instructions generalizing statistics with
  | nil => rfl
  | cons instruction rest ih =>
      rw [List.foldl_cons, ih]
      simp only [tally, List.map_cons, List.sum_cons, List.length_cons, List.countP_cons]
      congr 1 <;> omega

-- Every instruction of a routine is counted once, in whatever order the walk comes to it.
theorem statisticsAt_eq_sums (session : Session) (a : Address) :
    ∃ reach : Finset Address, (∀ b, b ∈ reach ↔ session.InRoutine a b) ∧
      session.statisticsAt a =
        { size := ∑ b ∈ reach, (session.instructionAt b).length.toNat
          instructions := reach.card
          complexity := (reach.filter fun b => (session.instructionAt b).isDecision).card } := by
  have hnodup := session.routine.nodup_visited a
  refine ⟨(session.routine.visited a).toFinset, fun b => ?_, ?_⟩
  · rw [List.mem_toFinset, mem_visited_routine]
  · rw [statisticsAt, foldl_tally, List.sum_toFinset _ hnodup, List.toFinset_card_of_nodup hnodup,
      ← List.toFinset_filter, List.toFinset_card_of_nodup (hnodup.filter _),
      ← List.countP_eq_length_filter]
    simp [List.countP_map, Function.comp_def]

structure Counted (session : Session) (label : Label) : Prop where
  at? : session.labels.at? label.address = some label
  loaded : ¬label.isEqu
  topLevel : label.kind.isTopLevel

def Denied (session : Session) (label : Label) : Prop :=
  label.kind = .restart ∧ label.address ∈ session.config.deniedRestarts

instance (session : Session) (label : Label) : Decidable (session.Denied label) :=
  inferInstanceAs (Decidable (_ ∧ _))

-- The sums over a routine, with one more for the complexity.
def labelStatistics (session : Session) (label : Label) : Statistics :=
  { session.statisticsAt label.address with
    complexity := (session.statisticsAt label.address).complexity + 1 }

-- No routine comes near the number at which the search for the least values starts.
theorem part_labelStatistics_le (session : Session) (label : Label) :
    ∀ part ∈ Statistics.parts, part (session.labelStatistics label) ≤ part .top := by
  obtain ⟨reach, -, heq⟩ := session.statisticsAt_eq_sums label.address
  have hcard := Address.card_le reach
  have hsize : ∑ b ∈ reach, (session.instructionAt b).length.toNat ≤ reach.card * 255 := by
    apply Finset.sum_le_card_nsmul
    intro b _
    have hlt := (session.instructionAt b).length.toNat_lt
    omega
  have hdecisions := Finset.card_filter_le reach fun b => (session.instructionAt b).isDecision
  simp only [Statistics.forall_mem_parts, labelStatistics, heq, Statistics.top]
  omega

-- One part of the statistics of the labels in `counted`, as far as they are followed.
def measured (session : Session) (counted : Set Label) (part : Statistics → Nat) : Set Nat :=
  {n | ∃ label ∈ counted, session.Counted label ∧ ¬session.Denied label ∧
    part (session.labelStatistics label) = n}

-- The invariant of counting: the labels in `counted` and no others have statistics, and the bounds are
-- those of the routines so far and of the values to start with.
structure Counting (start session : Session) (counted : Set Label) : Prop where
  frame : session = { start with
    statistics := session.statistics
    leastStatistics := session.leastStatistics
    greatestStatistics := session.greatestStatistics }
  statistics : ∀ id sums, session.statistics[id]? = some sums ↔
    ∃ label ∈ counted, start.Counted label ∧ label.id = id ∧
      sums = if start.Denied label then {} else start.labelStatistics label
  least : ∀ part ∈ Statistics.parts,
    IsLeast (insert (part .top) (start.measured counted part)) (part session.leastStatistics)
  greatest : ∀ part ∈ Statistics.parts,
    IsGreatest (insert (part {}) (start.measured counted part)) (part session.greatestStatistics)

section Counting

variable {start session : Session} {label : Label} {counted : Set Label} {part : Statistics → Nat}

theorem measured_insert_of (hcounted : session.Counted label) (hfollowed : ¬session.Denied label) :
    session.measured (insert label counted) part =
      insert (part (session.labelStatistics label)) (session.measured counted part) := by
  ext n
  simp [measured, hcounted, hfollowed, eq_comm]

theorem measured_insert_of_not (h : session.Counted label → session.Denied label) :
    session.measured (insert label counted) part = session.measured counted part := by
  ext n
  simp only [measured, Set.mem_ofPred_eq, Set.mem_insert_iff, exists_eq_or_imp]
  refine or_iff_right ?_
  rintro ⟨hcounted, hfollowed, -⟩
  exact hfollowed (h hcounted)

-- What counting does with a live label.
theorem countLabel_eq (h : start.Counting session counted) (hwf : start.labels.WellFormed)
    (hat : start.labels.at? label.address = some label) :
    session.countLabel label.id =
      if label.isEqu ∨ ¬label.kind.isTopLevel then session
      else if start.Denied label then
        { session with statistics := session.statistics.insert label.id {} }
      else { session with
        statistics := session.statistics.insert label.id (start.labelStatistics label)
        leastStatistics := session.leastStatistics.min (start.labelStatistics label)
        greatestStatistics := session.greatestStatistics.max (start.labelStatistics label) } := by
  have hlabels : session.labels = start.labels := by rw [h.frame]
  have hconfig : session.config = start.config := by rw [h.frame]
  have hsums : session.statisticsAt label.address = start.statisticsAt label.address := by
    rw [h.frame]
    rfl
  have hget : session.labels.get? label.id = some label := by
    rw [hlabels]
    exact hwf.get?_of_at? hat
  unfold countLabel
  simp [hget, hconfig, hsums, Denied, labelStatistics]

theorem Counting.statistics_insert (h : start.Counting session counted)
    (hwf : start.labels.WellFormed) (hcounted : start.Counted label) (id : LabelId)
    (sums : Statistics) :
    (session.statistics.insert label.id
        (if start.Denied label then {} else start.labelStatistics label))[id]? = some sums ↔
      ∃ other ∈ insert label counted, start.Counted other ∧ other.id = id ∧
        sums = if start.Denied other then {} else start.labelStatistics other := by
  rw [Std.TreeMap.getElem?_insert]
  simp only [Std.LawfulEqCmp.compare_eq_iff_eq, Set.mem_insert_iff]
  by_cases hid : label.id = id
  · rw [if_pos hid, Option.some.injEq]
    constructor
    · intro heq
      exact ⟨label, .inl rfl, hcounted, hid, heq.symm⟩
    · rintro ⟨other, -, hother, rfl, rfl⟩
      -- a number belongs to one live label
      have hget := hwf.get?_of_at? hother.at?
      rw [← hid, hwf.get?_of_at? hcounted.at?] at hget
      rw [Option.some.inj hget]
  · rw [if_neg hid, h.statistics]
    constructor
    · rintro ⟨other, hother, hrest⟩
      exact ⟨other, .inr hother, hrest⟩
    · rintro ⟨other, rfl | hother, hrest⟩
      · exact absurd hrest.2.1 hid
      · exact ⟨other, hother, hrest⟩

theorem Counting.step (h : start.Counting session counted) (hwf : start.labels.WellFormed)
    (hat : start.labels.at? label.address = some label) :
    start.Counting (session.countLabel label.id) (insert label counted) := by
  rw [countLabel_eq h hwf hat]
  by_cases hskip : label.isEqu ∨ ¬label.kind.isTopLevel
  · have hout : ¬start.Counted label := by
      intro hcounted
      exact hskip.elim hcounted.loaded (not_not.mpr hcounted.topLevel)
    have hsame : ∀ part, start.measured (insert label counted) part = start.measured counted part :=
      fun _ => measured_insert_of_not fun hcounted => absurd hcounted hout
    rw [if_pos hskip]
    refine ⟨h.frame, fun id sums => ?_, by simpa only [hsame] using h.least,
      by simpa only [hsame] using h.greatest⟩
    rw [h.statistics]
    simp [hout]
  · have hcounted : start.Counted label := by
      rw [not_or, not_not] at hskip
      exact ⟨hat, hskip.1, hskip.2⟩
    have hinsert := h.statistics_insert hwf hcounted
    rw [if_neg hskip]
    by_cases hdenied : start.Denied label
    · have hsame : ∀ part,
          start.measured (insert label counted) part = start.measured counted part :=
        fun _ => measured_insert_of_not fun _ => hdenied
      rw [if_pos hdenied] at hinsert ⊢
      exact ⟨by rw [h.frame], hinsert, by simpa only [hsame] using h.least,
        by simpa only [hsame] using h.greatest⟩
    · rw [if_neg hdenied] at hinsert ⊢
      refine ⟨by rw [h.frame], hinsert, fun part hpart => ?_, fun part hpart => ?_⟩
      · rw [measured_insert_of hcounted hdenied, Set.insert_comm, Statistics.part_min _ _ part hpart,
          min_comm]
        exact (h.least part hpart).insert _
      · rw [measured_insert_of hcounted hdenied, Set.insert_comm, Statistics.part_max _ _ part hpart,
          max_comm]
        exact (h.greatest part hpart).insert _

theorem Counting.foldl (h : start.Counting session counted) (hwf : start.labels.WellFormed)
    (rest : List Label) (hlive : ∀ label ∈ rest, start.labels.at? label.address = some label) :
    start.Counting ((rest.map (·.id)).foldl countLabel session)
      (counted ∪ {label | label ∈ rest}) := by
  induction rest generalizing session counted with
  | nil => simpa using h
  | cons label rest ih =>
      have hset : counted ∪ {other | other ∈ label :: rest} =
          insert label counted ∪ {other | other ∈ rest} := by
        ext other
        simp [or_assoc, or_left_comm]
      rw [hset]
      apply ih (h.step hwf (hlive label List.mem_cons_self))
      intro other hother
      exact hlive other (List.mem_cons_of_mem label hother)

end Counting

structure Uncounted (session : Session) : Prop where
  statistics : ∀ id : LabelId, session.statistics[id]? = none
  least : session.leastStatistics = .top
  greatest : session.greatestStatistics = {}

theorem Uncounted.counting {session : Session} (h : session.Uncounted) :
    session.Counting session ∅ := by
  have hnone : ∀ part, session.measured ∅ part = ∅ := by simp [measured]
  refine ⟨rfl, fun id sums => by simp [h.statistics], fun part _ => ?_, fun part _ => ?_⟩
  · rw [hnone, insert_empty_eq, h.least]
    exact isLeast_singleton
  · rw [hnone, insert_empty_eq, h.greatest]
    exact isGreatest_singleton

theorem Uncounted.counting_countStatistics {session : Session} (h : session.Uncounted)
    (hwf : session.labels.WellFormed) :
    session.Counting session.countStatistics {label | label ∈ session.labels.live} := by
  have hrun := h.counting.foldl hwf session.labels.live fun label => (hwf.mem_live label).mp
  rw [hwf.map_id_live, Set.empty_union] at hrun
  exact hrun

theorem exists_mem_live_iff {session : Session} (hwf : session.labels.WellFormed)
    (property : Label → Prop) :
    (∃ label ∈ {label | label ∈ session.labels.live}, session.Counted label ∧ property label) ↔
      ∃ label, session.Counted label ∧ property label := by
  constructor
  · rintro ⟨label, -, h⟩
    exact ⟨label, h⟩
  · rintro ⟨label, h⟩
    exact ⟨label, (hwf.mem_live label).mpr h.1.at?, h⟩

-- Counting sums up every routine, each of its instructions once. The labels of routines in loaded
-- memory get statistics, nothing but zeros if they are not followed, and the bounds are the least and
-- greatest of the others.
theorem countStatistics_sums_routines (session : Session) :
    (∀ a, ∃ reach : Finset Address, (∀ b, b ∈ reach ↔ session.InRoutine a b) ∧
      session.statisticsAt a =
        { size := ∑ b ∈ reach, (session.instructionAt b).length.toNat
          instructions := reach.card
          complexity := (reach.filter fun b => (session.instructionAt b).flow.conditional ∧
            ((session.instructionAt b).flow.ret ∨ (session.instructionAt b).flow.branch ∧
              (session.instructionAt b).template.contains ',')).card }) ∧
    (session.labels.WellFormed → session.Uncounted →
      (∀ id sums, session.countStatistics.statistics[id]? = some sums ↔
        ∃ label, session.Counted label ∧ label.id = id ∧
          sums = if session.Denied label then {} else session.labelStatistics label) ∧
      ((∀ label, session.Counted label → session.Denied label) →
        session.countStatistics.leastStatistics = .top ∧
        session.countStatistics.greatestStatistics = {}) ∧
      ((∃ label, session.Counted label ∧ ¬session.Denied label) →
        ∀ part ∈ Statistics.parts,
          IsLeast {n | ∃ label, session.Counted label ∧ ¬session.Denied label ∧
            part (session.labelStatistics label) = n}
            (part session.countStatistics.leastStatistics) ∧
          IsGreatest {n | ∃ label, session.Counted label ∧ ¬session.Denied label ∧
            part (session.labelStatistics label) = n}
            (part session.countStatistics.greatestStatistics))) := by
  refine ⟨fun a => ?_, fun hwf hfresh => ?_⟩
  · obtain ⟨reach, hreach, heq⟩ := session.statisticsAt_eq_sums a
    refine ⟨reach, hreach, heq.trans ?_⟩
    simp only [Instruction.isDecision, Bool.and_eq_true, Bool.or_eq_true, or_comm]
  · have hrun := hfresh.counting_countStatistics hwf
    have hmeasured : ∀ part, session.measured {label | label ∈ session.labels.live} part =
        {n | ∃ label, session.Counted label ∧ ¬session.Denied label ∧
          part (session.labelStatistics label) = n} := by
      intro part
      ext n
      exact exists_mem_live_iff hwf _
    refine ⟨fun id sums => ?_, fun hnone => ?_, fun hsome part hpart => ?_⟩
    · rw [hrun.statistics, exists_mem_live_iff hwf]
    · have hempty : ∀ part, session.measured {label | label ∈ session.labels.live} part = ∅ := by
        intro part
        rw [hmeasured, Set.eq_empty_iff_forall_notMem]
        rintro n ⟨label, hcounted, hfollowed, -⟩
        exact hfollowed (hnone label hcounted)
      constructor
      · apply Statistics.ext_parts
        intro part hpart
        simpa [hempty] using (hrun.least part hpart).1
      · apply Statistics.ext_parts
        intro part hpart
        simpa [hempty] using (hrun.greatest part hpart).1
    · have hnonempty : (session.measured {label | label ∈ session.labels.live} part).Nonempty := by
        obtain ⟨label, hcounted, hfollowed⟩ := hsome
        rw [hmeasured]
        exact ⟨_, label, hcounted, hfollowed, rfl⟩
      rw [← hmeasured]
      constructor
      · apply isLeast_of_insert (hrun.least part hpart) hnonempty
        rintro n ⟨label, -, -, -, rfl⟩
        exact session.part_labelStatistics_le label part hpart
      · apply isGreatest_of_insert _ hnonempty
        rw [← Statistics.part_zero part hpart]
        exact hrun.greatest part hpart

-- A subroutine that only returns, and a restart that is not followed.
def loneReturn : Session :=
  { ({} : Session).load 0x8000 [0xC9] with
    config := { deniedRestarts := [0x0008] }
    labels := (LabelStore.empty.insert 0x8000 .subroutine).insert 0x0008 .restart }

theorem labels_loneReturn : loneReturn.labels.WellFormed ∧ ∀ a, loneReturn.labels.at? a =
    if 0x0008 = a then some { id := 1, address := 0x0008, kind := .restart }
    else if 0x8000 = a then some { id := 0, address := 0x8000, kind := .subroutine } else none := by
  have hlower := LabelStore.wellFormed_empty.insert 0x8000 .subroutine
  refine ⟨hlower.insert 0x0008 .restart, fun a => ?_⟩
  rw [loneReturn, hlower.at?_insert, LabelStore.wellFormed_empty.at?_insert]
  rfl

theorem instructionAt_loneReturn : loneReturn.memory.isAssigned 0x8000 ∧
    (loneReturn.instructionAt 0x8000).length = 1 ∧
    (loneReturn.instructionAt 0x8000).flow.conditional = false ∧
    (loneReturn.instructionAt 0x8000).fallThrough? 0x8000 = none ∧
    (loneReturn.instructionAt 0x8000).jump? = none := by
  have hbyte : loneReturn.memory.byte 0x8000 = 0xC9 := by
    simp [loneReturn, load, Memory.load, Memory.storeAll, Memory.byte_store]
  rw [instructionAt_eq_mainPage rfl hbyte (by decide)]
  refine ⟨?_, rfl, rfl, rfl, rfl⟩
  simp [loneReturn, load, Memory.load, Memory.storeAll, Memory.store, Memory.isAssigned]

theorem inRoutine_loneReturn (b : Address) : loneReturn.InRoutine 0x8000 b ↔ b = 0x8000 := by
  obtain ⟨hassigned, -, -, hfall, hjump⟩ := instructionAt_loneReturn
  constructor
  · rintro ⟨-, hsteps⟩
    rcases hsteps.cases_head with heq | ⟨c, hstays, -⟩
    · exact heq.symm
    · have hway := hstays.1.2
      rw [hfall, hjump] at hway
      simp at hway
  · rintro rfl
    exact ⟨hassigned, .refl⟩

theorem countStatistics_sums_routines_lone_return :
    loneReturn.labels.WellFormed ∧ loneReturn.Uncounted ∧
      loneReturn.countStatistics.statistics[(0 : LabelId)]? = some ⟨1, 1, 1⟩ ∧
      loneReturn.countStatistics.statistics[(1 : LabelId)]? = some ⟨0, 0, 0⟩ ∧
      loneReturn.countStatistics.leastStatistics = ⟨1, 1, 1⟩ := by
  obtain ⟨hwf, hat⟩ := labels_loneReturn
  have hfresh : loneReturn.Uncounted := by
    refine ⟨fun id => ?_, rfl, rfl⟩
    rw [loneReturn, load]
    exact Std.TreeMap.getElem?_emptyc
  obtain ⟨hsums, hcount⟩ := countStatistics_sums_routines loneReturn
  obtain ⟨hstatistics, -, hbounds⟩ := hcount hwf hfresh
  have hentry : loneReturn.Counted { id := 0, address := 0x8000, kind := .subroutine } :=
    ⟨by rw [hat, if_neg (by decide), if_pos rfl], by decide, rfl⟩
  have hrestart : loneReturn.Counted { id := 1, address := 0x0008, kind := .restart } :=
    ⟨by rw [hat, if_pos rfl], by decide, rfl⟩
  have hfollowed : ¬loneReturn.Denied { id := 0, address := 0x8000, kind := .subroutine } := by
    rintro ⟨hkind, -⟩
    cases hkind
  have hdenied : loneReturn.Denied { id := 1, address := 0x0008, kind := .restart } :=
    ⟨rfl, List.mem_singleton_self _⟩
  have hone : loneReturn.labelStatistics { id := 0, address := 0x8000, kind := .subroutine } =
      ⟨1, 1, 1⟩ := by
    obtain ⟨reach, hreach, heq⟩ := hsums 0x8000
    have hsingle : reach = {0x8000} := by
      ext b
      rw [hreach, inRoutine_loneReturn, Finset.mem_singleton]
    rw [labelStatistics, heq, hsingle]
    simp [instructionAt_loneReturn]
  refine ⟨hwf, hfresh, ?_, ?_, ?_⟩
  · exact (hstatistics _ _).mpr ⟨_, hentry, rfl, by rw [if_neg hfollowed, hone]⟩
  · exact (hstatistics _ _).mpr ⟨_, hrestart, rfl, by rw [if_pos hdenied]⟩
  · apply Statistics.ext_parts
    intro part hpart
    -- the restart does not count, so that the least values are those of the subroutine
    obtain ⟨label, hcounted, hkept, heq⟩ := (hbounds ⟨_, hentry, hfollowed⟩ part hpart).1.1
    have hlabel := hcounted.at?
    rw [hat] at hlabel
    split at hlabel
    · cases hlabel
      exact absurd hdenied hkept
    · split at hlabel
      · cases hlabel
        rw [← heq, hone]
      · cases hlabel

end Session

end Z80Atlas
