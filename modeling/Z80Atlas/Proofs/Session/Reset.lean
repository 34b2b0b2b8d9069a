import Z80Atlas.Proofs.Session.History
import Z80Atlas.Proofs.Session.Readiness

namespace Z80Atlas

namespace AddressSet

theorem erase_eq_self {set : AddressSet} {a : Address} (h : set.contains a = false) :
    set.erase a = set := by
  refine ext fun b => ?_
  rw [contains_erase]
  by_cases hb : b = a
  · rw [hb, h, Bool.and_false]
  · rw [bne_iff_ne.mpr hb, Bool.true_and]

theorem eraseRange_all (set : AddressSet) : set.eraseRange 0 addressCount = ∅ := by
  refine ext fun b => ?_
  have hb : (Address.range 0 addressCount).contains b := by
    rw [List.contains_iff_mem, Address.mem_range]
    refine ⟨b.toNat, b.toNat_lt, ?_⟩
    rw [← UInt16.toNat_inj, Address.toNat_plus]
    have hspace : b.toNat < 65536 := b.toNat_lt
    change b.toNat = (0 + b.toNat) % 65536
    omega
  rw [contains_eraseRange, hb, contains_empty]
  rfl

end AddressSet

theorem Statistics.min_comm (a b : Statistics) : a.min b = b.min a := by
  simp only [min, Nat.min_comm]

def Counts.none : Counts := ⟨∅, .top, {}⟩

theorem recounted_none {old : Counts} (h : old.least = Statistics.top.min old.least) :
    Recounted old .none old := by
  refine ⟨fun id => ?_, ?_, ?_⟩
  · rw [Counts.none, Std.TreeMap.getElem?_emptyc, Option.none_or]
  · rw [Statistics.min_comm]
    exact h
  · simp [Counts.none, Statistics.max]

namespace Memory

variable {memory : Memory}

def ClassifiesLoaded (memory : Memory) : Prop :=
  ∀ a, memory.isCode a ∨ memory.isFirst a ∨ memory.data.contains a → memory.isAssigned a

theorem ClassifiesLoaded.unclassify_eq (h : memory.ClassifiesLoaded) (a : Address) :
    memory.unclassify a = { memory with
      code := memory.code.erase a
      first := memory.first.erase a
      data := memory.data.erase a } := by
  unfold unclassify
  split
  · next hempty =>
    simp only [marks, Marks.isEmpty, Bool.not_eq_true', Bool.or_eq_false_iff] at hempty
    obtain ⟨⟨⟨-, hcode⟩, hfirst⟩, hdata⟩ := hempty
    rw [AddressSet.erase_eq_self hcode, AddressSet.erase_eq_self hfirst,
      AddressSet.erase_eq_self hdata]
  · next hmarked =>
    have hassigned : memory.assigned.contains a := by
      simp only [marks, Marks.isEmpty, Bool.not_eq_true', Bool.not_eq_false,
        Bool.or_eq_true] at hmarked
      rcases hmarked with ((hassigned | hcode) | hfirst) | hdata
      · exact hassigned
      · exact h a (.inl hcode)
      · exact h a (.inr (.inl hfirst))
      · exact h a (.inr (.inr hdata))
    rw [AddressSet.insert_eq_self hassigned]

theorem ClassifiesLoaded.unclassify (h : memory.ClassifiesLoaded) (a : Address) :
    (memory.unclassify a).ClassifiesLoaded := by
  rw [h.unclassify_eq]
  intro b hb
  simp only [isCode, isFirst, AddressSet.contains_erase, Bool.and_eq_true] at hb
  exact h b (hb.imp And.right (Or.imp And.right And.right))

theorem ClassifiesLoaded.unclassifyFrom_eq (h : memory.ClassifiesLoaded) (a : Address)
    (count : Nat) :
    memory.unclassifyFrom a count = { memory with
      code := memory.code.eraseRange a count
      first := memory.first.eraseRange a count
      data := memory.data.eraseRange a count } := by
  induction count generalizing memory a with
  | zero => rfl
  | succ count ih =>
      rw [unclassifyFrom, ih (h.unclassify a), h.unclassify_eq]
      rfl

theorem ClassifiesLoaded.unclassifyRange_all (h : memory.ClassifiesLoaded) :
    memory.unclassifyRange 0 addressCount = { memory with code := ∅, first := ∅, data := ∅ } := by
  rw [unclassifyRange, Nat.min_self, h.unclassifyFrom_eq, AddressSet.eraseRange_all,
    AddressSet.eraseRange_all, AddressSet.eraseRange_all]

structure IsClean (memory : Memory) : Prop where
  code : memory.code = ∅
  first : memory.first = ∅
  data : memory.data = ∅

theorem IsClean.unmarked_eq (h : memory.IsClean) :
    { memory with code := ∅, first := ∅, data := ∅ } = memory := by
  cases memory
  cases h.code
  cases h.first
  cases h.data
  rfl

theorem IsClean.load (h : memory.IsClean) (origin : Address) (bytes : List UInt8) :
    (memory.load origin bytes).IsClean := by
  have hdata : ∀ (memory : Memory) (origin : Address) (bytes : List UInt8),
      (memory.storeAll origin bytes).data = memory.data := by
    intro memory origin bytes
    induction bytes generalizing memory origin with
    | nil => rfl
    | cons byte rest ih => exact ih (memory.store origin byte) (origin + 1)
  refine ⟨?_, ?_, ?_⟩
  · rw [Memory.load, code_storeAll, h.code]
  · rw [Memory.load, first_storeAll, h.first]
  · rw [Memory.load, hdata, h.data]

end Memory

-- What a user tells an analysis about the program.
inductive Hint where
  | label (address : Address) (name : Option String) (kind : Kind)
  | seed (seed : Seed)

def Hint.operation : Hint → Operation
  | .label address name kind => .setLabel address name kind
  | .seed (.fixed address name) => .fixLabel address name
  | .seed (.waiting address) => .enqueue address
  | .seed (.table address count) => .fixTable address count

namespace Session

def heed (session : Session) (hint : Hint) : Session := session.perform hint.operation

theorem heed_withPast (session : Session) (history : History) (counts : Counts) (hint : Hint) :
    (session.withPast history counts).heed hint = (session.heed hint).withPast history counts := by
  rcases hint with ⟨a, name, kind⟩ | ⟨a, name⟩ | a | ⟨a, count⟩
  · exact session.setLabel_withPast history counts a name kind
  · exact session.fixLabel_withPast history counts a name
  · rfl
  · exact session.fixTable_withPast history counts a count

theorem foldl_heed_withPast (session : Session) (history : History) (counts : Counts)
    (hints : List Hint) : hints.foldl heed (session.withPast history counts) =
      (hints.foldl heed session).withPast history counts := by
  induction hints generalizing session with
  | nil => rfl
  | cons hint hints ih => rw [List.foldl_cons, heed_withPast, ih, List.foldl_cons]

theorem ground_heed (session : Session) (hint : Hint) :
    (session.heed hint).ground = session.ground := by
  rcases hint with ⟨a, name, kind⟩ | ⟨a, name⟩ | a | ⟨a, count⟩
  · exact session.ground_setLabel a name kind
  · exact session.ground_fixLabel a name
  · rfl
  · exact session.ground_fixTable a count

-- Loading and hints are preparations.
theorem analysable_hinted (config : Config) (blocks : List (Address × List UInt8))
    (hints : List Hint) :
    (hints.foldl heed (({ config } : Session).loadAll blocks)).Analysable := by
  have hall := analysable_performAll config
    (blocks.map (fun block => .load block.1 block.2) ++ hints.map Hint.operation) (by
      intro operation hmem
      rcases List.mem_append.mp hmem with hload | hhint
      · obtain ⟨block, -, rfl⟩ := List.mem_map.mp hload
        exact trivial
      · obtain ⟨hint, -, rfl⟩ := List.mem_map.mp hhint
        rcases hint with ⟨a, name, kind⟩ | ⟨a, name⟩ | a | ⟨a, count⟩ <;> exact trivial)
  rw [List.foldl_append, List.foldl_map, List.foldl_map] at hall
  exact hall

theorem data_collect (session : Session) : session.collect.memory.data = session.memory.data := by
  refine (Search.run_collect session).keeps
    (P := fun x => x.session.memory.data = session.memory.data) ?_ rfl
  intro x y hstep hx
  cases hstep with
  | take session address queue hpop => exact hx
  | leave session address journal hobstacle => exact hx
  | find session address hfresh =>
      dsimp only at hx ⊢
      rw [memory_accept]
      exact hx

theorem Analysable.classifiesLoaded_disassemble {start : Session} (h : start.Analysable)
    (hdata : start.memory.data = ∅) : start.disassemble.memory.ClassifiesLoaded := by
  have htiled := h.tiled_found
  rw [h.kept_disassemble.1]
  rintro a (hcode | hfirst | hmarked)
  · exact htiled.assigned_of_code a hcode
  · exact htiled.assigned_of_code a (htiled.code_of_first a hfirst)
  · rw [found, data_collect, memory_of_ground (start.ground_enqueueStart h.wellFormed).1, hdata,
      AddressSet.contains_empty] at hmarked
    cases hmarked

theorem Analysable.settings_disassemble {start : Session} (h : start.Analysable) :
    start.disassemble.snapshotStart = start.snapshotStart ∧
      start.disassemble.nameOf = start.nameOf := by
  have hground := start.ground_disassemble.trans start.ground_analyse
  have hsame := h.distributed_classify.trans (.of_ground hground)
  rw [hsame.snapshotStart, hsame.nameOf]
  exact ⟨congrArg Ground.snapshotStart h.ground_found, congrArg Ground.nameOf h.ground_found⟩

-- The range is a variable here, for with `addressCount` the kernel would walk through all of it.
theorem reset_eq {first : Session} {config : Config} {memory : Memory} {a : Address} {count : Nat}
    (hconfig : first.config = config) (hdecoder : first.decoder = Z80.decode)
    (hmemory : first.memory.unclassifyRange a count = memory)
    (hsnapshot : first.snapshotStart = none) (hnameOf : first.nameOf = none) :
    [.clearLabels, .unclassify a count].foldl perform first =
      ({ config, memory } : Session).withPast first.history first.counts := by
  cases first
  subst hconfig hdecoder hmemory hsnapshot hnameOf
  rfl

-- After a reset nothing but the past is left of an analysis.
theorem reset_disassemble {config : Config} {memory : Memory} {start : Session}
    (h : start.Analysable) (hground : start.ground = ({ config, memory } : Session).ground)
    (hclean : memory.IsClean) :
    [.clearLabels, .unclassify 0 addressCount].foldl perform start.disassemble =
      ({ config, memory } : Session).withPast start.disassemble.history
        start.disassemble.counts := by
  have hsame := h.sameProgram_disassemble
  have hmemory : start.memory = memory := memory_of_ground hground
  obtain ⟨hsnapshot, hnameOf⟩ := h.settings_disassemble
  have hloaded := h.classifiesLoaded_disassemble (by rw [hmemory, hclean.data])
  have hcleared : start.disassemble.memory.unclassifyRange 0 addressCount = memory := by
    rw [hloaded.unclassifyRange_all, hsame.bytes, hsame.assigned, hmemory]
    exact hclean.unmarked_eq
  have hdecoder : start.disassemble.decoder = Z80.decode :=
    hsame.decoder.trans (decoder_of_ground hground)
  have hconfig : start.disassemble.config = config := hsame.config.trans (config_of_ground hground)
  have hsnapshot : start.disassemble.snapshotStart = none :=
    hsnapshot.trans (congrArg Ground.snapshotStart hground)
  have hnameOf : start.disassemble.nameOf = none := hnameOf.trans (congrArg Ground.nameOf hground)
  exact reset_eq hconfig hdecoder hcleared hsnapshot hnameOf

theorem isClean_loadAll (config : Config) (blocks : List (Address × List UInt8)) :
    (({ config } : Session).loadAll blocks).memory.IsClean := by
  refine List.foldlRecOn (motive := fun loaded : Session => loaded.memory.IsClean) blocks _
    ⟨rfl, rfl, rfl⟩ ?_
  intro loaded hloaded block _
  exact hloaded.load block.1 block.2

section Again

variable (config : Config) (blocks : List (Address × List UInt8)) (hints : List Hint)

theorem counts_hinted :
    (hints.foldl heed (({ config } : Session).loadAll blocks)).counts = .none := by
  have hheed : Heedless (hints.foldl heed) :=
    .foldl (fun hint => .of_eq (heed_withPast · · · hint)) hints
  rw [hheed.counts_eq, loadAll_eq]
  rfl

theorem config_hinted :
    (hints.foldl heed (({ config } : Session).loadAll blocks)).classify.nameLabels.config =
      config := by
  have h := analysable_hinted config blocks hints
  rw [config_of_ground (revised_nameLabels _).ground, h.distributed_classify.config, h.config_found,
    config_of_ground (ground_foldl heed ground_heed hints _), config_loadAll]

theorem reset_hinted :
    let loaded := ({ config } : Session).loadAll blocks
    let first := (hints.foldl heed loaded).disassemble
    [.clearLabels, .unclassify 0 addressCount].foldl perform first =
      loaded.withPast first.history first.counts := by
  intro loaded first
  have hloaded : loaded = { config, memory := loaded.memory } := loadAll_eq _ blocks
  have hground : (hints.foldl heed loaded).ground =
      ({ config, memory := loaded.memory } : Session).ground :=
    (ground_foldl heed ground_heed hints loaded).trans (congrArg ground hloaded)
  refine (reset_disassemble (analysable_hinted config blocks hints) hground ?_).trans ?_
  · exact isClean_loadAll config blocks
  · rw [← hloaded]

-- The bound from which the search for least values starts is not exceeded.
theorem least_disassemble {start : Session} (hcounts : start.counts = .none)
    (hdisabled : start.classify.nameLabels.config.disableComments) :
    start.disassemble.counts.least = Statistics.top.min start.disassemble.counts.least := by
  have hnone : Recounted .none start.counts start.counts := by
    rw [hcounts]
    exact recounted_none rfl
  obtain ⟨later, counts, heq, hrecounted, -⟩ := disassemble_withPast start.history hnone hdisabled
  have hsame : start.disassemble.counts = counts := congrArg Session.counts heq
  rw [← hsame] at hrecounted
  exact hrecounted.least

-- A session with another past holds the same program.
theorem agrees_of_withPast {first again alone : Session} {history : History} {counts : Counts}
    (hagain : again = alone.withPast history counts)
    (hcounts : Recounted first.counts alone.counts counts)
    (hlisting : history.listing = alone.listing) :
    again.labels = alone.labels ∧ again.memory = alone.memory ∧ again.owners = alone.owners ∧
      again.listing = alone.listing ∧
      (∀ id : LabelId, again.statistics[id]? = alone.statistics[id]?.or first.statistics[id]?) ∧
      again.leastStatistics = first.leastStatistics.min alone.leastStatistics ∧
      again.greatestStatistics = first.greatestStatistics.max alone.greatestStatistics := by
  subst hagain
  exact ⟨rfl, rfl, rfl, hlisting, hcounts.statistics, hcounts.least, hcounts.greatest⟩

end Again

-- A reset keeps what was counted and forgets all else. A second analysis gives the labels, the
-- memory, the owners of code and the listing as if there had been no first one; statistics of the
-- first one stay for numbers that the second does not count, and the extreme values are those of
-- both.
theorem reset_keeps_only_statistics (config : Config) (blocks : List (Address × List UInt8))
    (earlier later : List Hint) :
    let loaded := ({ config := { config with disableComments := true } } : Session).loadAll blocks
    let first := (earlier.foldl heed loaded).disassemble
    let reset := [.clearLabels, .unclassify 0 addressCount].foldl perform first
    let again := (later.foldl heed reset).disassemble
    let alone := (later.foldl heed loaded).disassemble
    again.labels = alone.labels ∧ again.memory = alone.memory ∧ again.owners = alone.owners ∧
      again.listing = alone.listing ∧
      (∀ id : LabelId, again.statistics[id]? = alone.statistics[id]?.or first.statistics[id]?) ∧
      again.leastStatistics = first.leastStatistics.min alone.leastStatistics ∧
      again.greatestStatistics = first.greatestStatistics.max alone.greatestStatistics := by
  intro loaded first reset again alone
  have hdisabled : ∀ hints : List Hint,
      (hints.foldl heed loaded).classify.nameLabels.config.disableComments := by
    intro hints
    rw [config_hinted]
  have hreset : reset = loaded.withPast first.history first.counts := reset_hinted _ blocks earlier
  have hbound : first.counts.least = Statistics.top.min first.counts.least :=
    least_disassemble (counts_hinted _ blocks earlier) (hdisabled earlier)
  have hrecounted : Recounted first.counts (later.foldl heed loaded).counts first.counts := by
    rw [counts_hinted]
    exact recounted_none hbound
  obtain ⟨history, counts, hagain, hcounts, hlisting⟩ : ∃ history counts,
      again = alone.withPast history counts ∧ Recounted first.counts alone.counts counts ∧
        history.listing = alone.listing := by
    obtain ⟨history, counts, heq, hkept⟩ :=
      disassemble_withPast first.history hrecounted (hdisabled later)
    refine ⟨history, counts, ?_, hkept⟩
    rw [← heq, ← foldl_heed_withPast, ← hreset]
  exact agrees_of_withPast hagain hcounts hlisting

end Session

end Z80Atlas
