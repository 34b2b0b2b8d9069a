import Z80Atlas.Proofs.Report.Layout
import Z80Atlas.Proofs.Report.Line

namespace Z80Atlas

def ListingItem.statement? : ListingItem → Option (Address × Nat)
  | .instruction address size => some (address, size)
  | .byte address => some (address, 1)
  | _ => none

def ListingItem.origin? : ListingItem → Option Address
  | .origin address => some address
  | _ => none

theorem statement?_of_not_isEntry (item : ListingItem) (h : item.isEntry = false) :
    item.statement? = none := by
  cases item <;> trivial

theorem origin?_of_not_isEntry (item : ListingItem) (h : item.isEntry = false) :
    item.origin? = none := by
  cases item <;> trivial

namespace Session

def listingItems (session : Session) : List ListingItem :=
  session.constantItems ++ session.memoryItems.toList

def statements (session : Session) : List (Address × Nat) :=
  session.listingItems.filterMap ListingItem.statement?

def origins (session : Session) : List Address :=
  session.listingItems.filterMap ListingItem.origin?

-- The listing shows the loaded memory: statement after statement without a byte left out or shown
-- twice, each instruction in full, and an origin in front of each run of loaded bytes. Each of
-- these takes one line, which says what it is for.
structure ListsMemory (session : Session) : Prop where
  ascending : session.statements.Pairwise fun p q => p.1.toNat + p.2 ≤ q.1.toNat
  positive : ∀ p ∈ session.statements, 0 < p.2
  covers : ∀ a, session.memory.isAssigned a ↔
    ∃ p ∈ session.statements, p.1.toNat ≤ a.toNat ∧ a.toNat < p.1.toNat + p.2
  instructions : ∀ a n, .instruction a n ∈ session.listingItems ↔
    session.memory.isFirst a ∧ n = (session.instructionAt a).size
  bytes : ∀ a, .byte a ∈ session.listingItems ↔
    session.memory.isAssigned a ∧ ¬session.memory.isCode a
  originsAscend : session.origins.Pairwise (· < ·)
  mem_origins : ∀ a, a ∈ session.origins ↔
    session.memory.isAssigned a ∧ (a = 0 ∨ ¬session.memory.isAssigned (a - 1))
  headed : ∀ a ∈ session.origins, ∃ before after,
    session.listingItems.filter ListingItem.isEntry =
      before ++ .origin a :: (session.labelledStatement a ++ after)
  written : ∀ item ∈ session.listingItems, session.Writes (session.itemLines item) item

-- The widths of the columns, and the number of empty lines between blocks, are not too large for
-- what there is to write.
def Fits (session : Session) : Prop :=
  ((∃ a, session.memory.isAssigned a) →
    session.config.columns.fitStatement ∧ session.config.blockGap ≤ Text.lineLimit) ∧
  ((∃ label ∈ session.labels.live, ¬session.memory.isAssigned label.address) →
    session.config.columns.bytes - 1 ≤ Text.fieldLimit)

theorem constant_mem_constantItems (session : Session) (label : Label) :
    .constant label ∈ session.constantItems ↔ label ∈ session.labels.live ∧ label.isEqu := by
  unfold constantItems
  split <;> simp_all

theorem eq_of_mem_constantItems {session : Session} {item : ListingItem}
    (h : item ∈ session.constantItems) :
    item = .constantsHeading ∨ ∃ label, item = .constant label := by
  unfold constantItems at h
  split at h
  · cases h
  · rcases List.mem_cons.mp h with rfl | h
    · exact .inl rfl
    · obtain ⟨label, -, rfl⟩ := List.mem_map.mp h
      exact .inr ⟨label, rfl⟩

theorem mem_listingItems (session : Session) {item : ListingItem}
    (hheading : item ≠ .constantsHeading) (hconstant : ∀ label, item ≠ .constant label) :
    item ∈ session.listingItems ↔ item ∈ session.memoryItems.toList := by
  rw [listingItems, List.mem_append]
  refine or_iff_right fun h => ?_
  rcases eq_of_mem_constantItems h with rfl | ⟨label, rfl⟩
  · exact hheading rfl
  · exact hconstant label rfl

-- What is not read from constants is read from the loaded memory.
theorem filterMap_listingItems (session : Session) {β : Type} (read : ListingItem → Option β)
    (hheading : read .constantsHeading = none)
    (hconstant : ∀ label, read (.constant label) = none) :
    session.listingItems.filterMap read = session.memoryItems.toList.filterMap read := by
  have hnone : session.constantItems.filterMap read = [] := by
    rw [List.filterMap_eq_nil_iff]
    intro item hitem
    rcases eq_of_mem_constantItems hitem with rfl | ⟨label, rfl⟩
    · exact hheading
    · exact hconstant label
  rw [listingItems, List.filterMap_append, hnone, List.nil_append]

theorem filterMap_statement?_entriesAt (session : Session) (a : Address) :
    (session.entriesAt a).filterMap ListingItem.statement? =
      if session.Begins a then [(a, session.statementSize a)] else [] := by
  have horigin : (if a ∈ session.areaStarts then [ListingItem.origin a] else []).filterMap
      ListingItem.statement? = [] := by
    split <;> rfl
  have hlabel : ((session.labels.at? a).map ListingItem.label).toList.filterMap
      ListingItem.statement? = [] := by
    cases session.labels.at? a <;> rfl
  have hstatement : (session.statementAt a).statement? = some (a, session.statementSize a) := by
    by_cases hcode : session.memory.isCode a <;>
      simp [statementAt, statementSize, hcode, ListingItem.statement?]
  rw [entriesAt, labelledStatement, List.filterMap_append, horigin, List.nil_append]
  split
  · rw [List.filterMap_append, hlabel, List.filterMap_cons_some hstatement]
    rfl
  · rfl

theorem filterMap_origin?_entriesAt (session : Session) (a : Address) :
    (session.entriesAt a).filterMap ListingItem.origin? =
      if a ∈ session.areaStarts then [a] else [] := by
  have hlabelled : (session.labelledStatement a).filterMap ListingItem.origin? = [] := by
    unfold labelledStatement statementAt
    split
    · cases session.labels.at? a <;> split <;> rfl
    · rfl
  rw [entriesAt, List.filterMap_append, hlabelled, List.append_nil]
  split <;> rfl

variable {session : Session}

theorem begins_of_first (h : session.Tiled) {f : Address} (hf : session.memory.isFirst f) :
    session.Begins f :=
  ⟨h.assigned_of_code f (h.code_of_first f hf), fun hinside => hinside.2 hf⟩

namespace Arranged

theorem statements_eq (h : session.Arranged) :
    session.statements =
      (Address.all.filter (session.Begins ·)).map fun a => (a, session.statementSize a) := by
  rw [statements, session.filterMap_listingItems _ rfl fun _ => rfl]
  exact h.filterMap_memoryItems_eq_map _ statement?_of_not_isEntry session.Begins _
    session.filterMap_statement?_entriesAt

theorem mem_statements (h : session.Arranged) (a : Address) (n : Nat) :
    (a, n) ∈ session.statements ↔ session.Begins a ∧ n = session.statementSize a := by
  rw [h.statements_eq, List.mem_map]
  constructor
  · rintro ⟨b, hb, heq⟩
    cases heq
    exact ⟨of_decide_eq_true (List.mem_filter.mp hb).2, rfl⟩
  · rintro ⟨hbegins, rfl⟩
    exact ⟨a, List.mem_filter.mpr ⟨a.mem_all, decide_eq_true hbegins⟩, rfl⟩

theorem pairwise_statements (h : session.Arranged) :
    session.statements.Pairwise fun p q => p.1.toNat + p.2 ≤ q.1.toNat := by
  rw [h.statements_eq, List.pairwise_map]
  refine (Address.pairwise_all.filter _).imp_of_mem ?_
  intro a b ha hb hlt
  have hbegins : session.Begins a := of_decide_eq_true (List.mem_filter.mp ha).2
  have hbegins' : session.Begins b := of_decide_eq_true (List.mem_filter.mp hb).2
  by_contra hover
  have hinside := (h.spans hbegins).inside b.toNat (UInt16.lt_iff_toNat_lt.mp hlt)
    (Nat.lt_of_not_le hover)
  rw [UInt16.ofNat_toNat] at hinside
  exact hbegins'.2 hinside

theorem origins_eq (h : session.Arranged) : session.origins = session.areaStarts := by
  rw [origins, session.filterMap_listingItems _ rfl fun _ => rfl,
    h.filterMap_memoryItems_eq_map _ origin?_of_not_isEntry (· ∈ session.areaStarts) _
    session.filterMap_origin?_entriesAt, List.map_id', areaStarts]
  apply List.filter_congr
  intro a ha
  rw [Bool.eq_iff_iff, decide_eq_true_iff, List.mem_filter, and_iff_right ha]

theorem assigned_iff_mem_statements (h : session.Arranged) (a : Address) :
    session.memory.isAssigned a ↔
      ∃ p ∈ session.statements, p.1.toNat ≤ a.toNat ∧ a.toNat < p.1.toNat + p.2 := by
  constructor
  · intro hassigned
    by_cases hinside : session.Inside a
    · obtain ⟨f, hf, hlt, hhi⟩ := h.exists_first_of_inside hinside
      have hmem := (h.mem_statements f _).mpr ⟨begins_of_first h.tiled hf, rfl⟩
      refine ⟨(f, session.statementSize f), hmem, Nat.le_of_lt hlt, ?_⟩
      rw [h.statementSize_of_first hf]
      exact hhi
    · have hmem := (h.mem_statements a _).mpr ⟨⟨hassigned, hinside⟩, rfl⟩
      have hpos := session.statementSize_pos a
      exact ⟨(a, session.statementSize a), hmem, Nat.le_refl _, Nat.lt_add_of_pos_right hpos⟩
  · rintro ⟨⟨b, n⟩, hmem, hlo, hhi⟩
    obtain ⟨hbegins, rfl⟩ := (h.mem_statements b n).mp hmem
    have hassigned := (h.spans hbegins).assigned a.toNat hlo hhi
    rwa [UInt16.ofNat_toNat] at hassigned

theorem mem_listingItems_of_statement? (h : session.Arranged) {item : ListingItem}
    (hitem : item.statement?.isSome) :
    item ∈ session.listingItems ↔ ∃ a, session.Begins a ∧ item = session.statementAt a := by
  have hentry : item.isEntry := by
    cases item <;> trivial
  have hentries : ∀ a, item ∈ session.entriesAt a ↔
      session.Begins a ∧ item = session.statementAt a := by
    intro a
    cases item with
    | instruction | byte => simp [entriesAt, labelledStatement]
    | constantsHeading | constant | blank | origin | label | gap => cases hitem
  rw [session.mem_listingItems, h.mem_memoryItems hentry]
  · exact exists_congr hentries
  · rintro rfl
    cases hitem
  · rintro label rfl
    cases hitem

theorem instruction_mem_iff (h : session.Arranged) (a : Address) (n : Nat) :
    .instruction a n ∈ session.listingItems ↔
      session.memory.isFirst a ∧ n = (session.instructionAt a).size := by
  rw [h.mem_listingItems_of_statement? rfl]
  constructor
  · rintro ⟨b, hbegins, heq⟩
    unfold statementAt at heq
    split at heq
    case isTrue hcode =>
        cases heq
        have hfirst := isFirst_of_begins hbegins hcode
        exact ⟨hfirst, h.statementSize_of_first hfirst⟩
    case isFalse => cases heq
  · rintro ⟨hfirst, rfl⟩
    refine ⟨a, begins_of_first h.tiled hfirst, ?_⟩
    rw [statementAt, if_pos (h.tiled.code_of_first a hfirst), h.statementSize_of_first hfirst]

theorem byte_mem_iff (h : session.Arranged) (a : Address) :
    .byte a ∈ session.listingItems ↔
      session.memory.isAssigned a ∧ ¬session.memory.isCode a := by
  rw [h.mem_listingItems_of_statement? rfl]
  constructor
  · rintro ⟨b, hbegins, heq⟩
    unfold statementAt at heq
    split at heq
    case isTrue => cases heq
    case isFalse hcode =>
        cases heq
        exact ⟨hbegins.1, hcode⟩
  · rintro ⟨hassigned, hcode⟩
    refine ⟨a, ⟨hassigned, fun hinside => hcode hinside.1⟩, ?_⟩
    rw [statementAt, if_neg hcode]

theorem listsMemory (h : session.Arranged) : session.ListsMemory where
  ascending := h.pairwise_statements
  positive := by
    rintro ⟨a, n⟩ hmem
    rw [((h.mem_statements a n).mp hmem).2]
    exact session.statementSize_pos a
  covers := h.assigned_iff_mem_statements
  instructions := h.instruction_mem_iff
  bytes := h.byte_mem_iff
  originsAscend := by
    rw [h.origins_eq]
    exact Address.pairwise_all.filter _
  mem_origins := by
    rw [h.origins_eq]
    exact session.mem_areaStarts
  headed := by
    intro a ha
    rw [h.origins_eq] at ha
    obtain ⟨before, after, hentries⟩ := h.exists_append_entriesAt a
    refine ⟨session.constantItems.filter ListingItem.isEntry ++ before, after, ?_⟩
    rw [listingItems, List.filter_append, hentries, entriesAt, if_pos ha, List.append_assoc,
      List.append_assoc]
    rfl
  written := fun item _ => session.writes_itemLines item

end Arranged

theorem fits_of_fitStatement {columns : Columns} (h : columns.fitStatement) (item : ListingItem) :
    item.fits columns := by
  have hlimit : Text.fieldLimit ≤ Text.sizeLimit := by decide
  have hwidths := h
  simp only [Columns.fitStatement, Bool.and_eq_true, decide_eq_true_eq] at hwidths
  cases item with
  | instruction | byte => exact h
  | constantsHeading | blank | gap => rfl
  | constant | origin | label =>
      simp only [ListingItem.fits, decide_eq_true_eq]
      omega

theorem disassemble_eq (session : Session) :
    session.disassemble = session.analyse.keepListing
      ((session.analyse.listingItems.flatMap session.analyse.itemLines).dropWhile (·.isEmpty)) := by
  rw [disassemble, listingLines, listingItems, List.flatMap_append, constantLines, memoryLines]

-- Columns that hold a statement hold every line of a listing.
theorem SameProgram.fits {other : Session} (h : other.SameProgram session)
    (hcolumns : other.config.columns.fitStatement) (hgap : other.config.blockGap ≤ Text.lineLimit) :
    session.Fits := by
  rw [← h.config] at hcolumns hgap
  exact ⟨fun _ => ⟨hcolumns, hgap⟩, fun ⟨label, _⟩ =>
    of_decide_eq_true (fits_of_fitStatement hcolumns (.constant label))⟩

namespace Arranged

theorem isEqu_eq_of_mem_live (h : session.Arranged) {label : Label}
    (hlabel : label ∈ session.labels.live) :
    label.isEqu = !session.memory.isAssigned label.address :=
  h.isEqu_eq _ label ((h.wellFormed.mem_live label).mp hlabel)

-- Each area begins with a label, so that nothing is loaded if all labels are constants.
theorem not_assigned_of_isEqu (h : session.Arranged)
    (hconstants : ∀ label ∈ session.labels.live, label.isEqu) (a : Address) :
    ¬session.memory.isAssigned a := by
  have hlisted : session.Listed session.labels.live {} := by
    refine ⟨Nat.zero_le _, fun hpos => absurd hpos (Nat.lt_irrefl 0), ?_, rfl⟩
    intro label hlabel hloaded
    rw [hconstants label hlabel] at hloaded
    cases hloaded
  have hfree := h.not_assigned_of_listed hlisted _ (Nat.le_refl _) (fun label hlabel _ => hlabel)
    a.toNat (Nat.zero_le _) a.toNat_lt
  rwa [UInt16.ofNat_toNat] at hfree

theorem gapFits_iff (h : session.Arranged) :
    session.gapFits ↔
      ((∃ a, session.memory.isAssigned a) → session.config.blockGap ≤ Text.lineLimit) := by
  rw [gapFits, Bool.or_eq_true, decide_eq_true_eq, List.all_eq_true]
  constructor
  · rintro (hgap | hconstants) ⟨a, ha⟩
    · exact hgap
    · exact absurd ha (h.not_assigned_of_isEqu hconstants a)
  · intro hgap
    by_cases hloaded : ∃ a, session.memory.isAssigned a
    · exact .inl (hgap hloaded)
    · refine .inr fun label hlabel => ?_
      have hfree : session.memory.isAssigned label.address = false :=
        Bool.not_eq_true _ ▸ fun ha => hloaded ⟨_, ha⟩
      rw [h.isEqu_eq_of_mem_live hlabel, hfree]
      rfl

theorem memoryItems_fit_iff (h : session.Arranged) :
    session.memoryItems.toList.all (·.fits session.config.columns) ↔
      ((∃ a, session.memory.isAssigned a) → session.config.columns.fitStatement) := by
  rw [List.all_eq_true]
  constructor
  · rintro hfit ⟨a, ha⟩
    obtain ⟨⟨b, n⟩, hp, -⟩ := (h.assigned_iff_mem_statements a).mp ha
    obtain ⟨hbegins, -⟩ := (h.mem_statements b n).mp hp
    have hitem : session.statementAt b ∈ session.memoryItems.toList := by
      refine (h.mem_memoryItems (session.isEntry_statementAt b)).mpr ⟨b, ?_⟩
      simp [entriesAt, labelledStatement, hbegins]
    have hfits := hfit _ hitem
    unfold statementAt at hfits
    split at hfits <;> exact hfits
  · intro hcolumns item hitem
    by_cases hloaded : ∃ a, session.memory.isAssigned a
    · exact fits_of_fitStatement (hcolumns hloaded) item
    · cases hentry : item.isEntry with
      | true =>
          obtain ⟨a, ha⟩ := (h.mem_memoryItems hentry).mp hitem
          rw [entriesAt_of_not_assigned fun hassigned => hloaded ⟨a, hassigned⟩] at ha
          cases ha
      | false => cases item <;> trivial

theorem constantItems_fit_iff (h : session.Arranged) :
    session.constantItems.all (·.fits session.config.columns) ↔
      ((∃ label ∈ session.labels.live, ¬session.memory.isAssigned label.address) →
        session.config.columns.bytes - 1 ≤ Text.fieldLimit) := by
  rw [List.all_eq_true]
  constructor
  · rintro hfit ⟨label, hlabel, hfree⟩
    have hequ : label.isEqu := by
      rw [h.isEqu_eq_of_mem_live hlabel]
      simpa using hfree
    exact of_decide_eq_true (hfit _ ((session.constant_mem_constantItems label).mpr ⟨hlabel, hequ⟩))
  · intro hcolumns item hitem
    rcases eq_of_mem_constantItems hitem with rfl | ⟨label, rfl⟩
    · rfl
    · obtain ⟨hlabel, hequ⟩ := (session.constant_mem_constantItems label).mp hitem
      rw [h.isEqu_eq_of_mem_live hlabel] at hequ
      exact decide_eq_true (hcolumns ⟨label, hlabel, by simpa using hequ⟩)

theorem fits_iff (h : session.Arranged) :
    session.Fits ↔ session.constantItems.all (·.fits session.config.columns) ∧ session.gapFits ∧
      session.memoryItems.toList.all (·.fits session.config.columns) := by
  rw [h.constantItems_fit_iff, h.gapFits_iff, h.memoryItems_fit_iff, Fits]
  tauto

theorem listingLines?_of_fits (h : session.Arranged) (hfits : session.Fits) :
    session.listingLines? = some session.listingLines := by
  obtain ⟨hconstants, hgap, hmemory⟩ := h.fits_iff.mp hfits
  rw [listingLines?, constantLines?, memoryLines?, linesOf?, linesOf?, if_pos hconstants,
    if_pos hgap, if_pos hmemory]
  rfl

theorem listingLines?_of_not_fits (h : session.Arranged) (hfits : ¬session.Fits) :
    session.listingLines? = none := by
  rw [h.fits_iff] at hfits
  rw [listingLines?, constantLines?, memoryLines?, linesOf?, linesOf?]
  by_cases hconstants : session.constantItems.all (·.fits session.config.columns)
  · by_cases hgap : session.gapFits
    · rw [if_pos hconstants, if_pos hgap, if_neg fun hmemory => hfits ⟨hconstants, hgap, hmemory⟩]
      rfl
    · rw [if_pos hconstants, if_neg hgap]
      rfl
  · rw [if_neg hconstants]
    rfl

end Arranged

-- The listing of a program shows each loaded byte once, however the analysis is configured and
-- wherever it is told to start, unless both ends of the address space are loaded. It is written
-- exactly if it fits.
theorem disassemble_lists_memory (config : Config) (snapshotStart : Option Address)
    (comments : Std.TreeMap Address Comment compare) (nameOf : Option (Address → String))
    (blocks : List (Address × List UInt8)) (seeds : List Seed) :
    let fresh : Session := { config, snapshotStart, comments, nameOf }
    let loaded := fresh.loadAll blocks
    let prepared := fresh.prepared blocks seeds
    let session := prepared.analyse
    ¬(loaded.memory.isAssigned 0 ∧ loaded.memory.isAssigned 0xFFFF) →
      loaded.SameProgram session ∧ session.ListsMemory ∧
      prepared.disassemble = session.keepListing
        ((session.listingItems.flatMap session.itemLines).dropWhile (·.isEmpty)) ∧
      (session.Fits → prepared.disassemble? = some prepared.disassemble) ∧
      (¬session.Fits → prepared.disassemble? = none) := by
  intro fresh loaded prepared session hends
  have hready := fresh.ready_prepared rfl Memory.unclassified_empty rfl blocks seeds
  have hloaded := fresh.sameProgram_prepared rfl blocks seeds
  have harranged : session.Arranged := by
    apply hready.arranged_analyse
    rw [fresh.memory_prepared rfl]
    exact hends
  refine ⟨hloaded.trans hready.sameProgram_analyse, harranged.listsMemory, disassemble_eq _, ?_, ?_⟩
  · intro hfits
    rw [disassemble?, harranged.listingLines?_of_fits hfits, Option.map_some, disassemble]
  · intro hfits
    rw [disassemble?, harranged.listingLines?_of_not_fits hfits, Option.map_none]

-- A jump into the operand of the first instruction, and two bytes of another area.
theorem disassemble_lists_memory_two_areas :
    let fresh : Session := { config := { blockGap := 0 } }
    let blocks := [(0x8000, [0x3E, 0xC9, 0xC3, 0x01, 0x80]), (0x9000, [0x18, 0xFE])]
    let prepared := fresh.prepared blocks [.fixed 0x8000 none, .waiting 0x8002]
    let session := prepared.analyse
    ¬((fresh.loadAll blocks).memory.isAssigned 0 ∧
      (fresh.loadAll blocks).memory.isAssigned 0xFFFF) ∧
    session.ListsMemory ∧ 0x8000 ∈ session.origins ∧ 0x9000 ∈ session.origins ∧
      0x9001 ∉ session.origins ∧ prepared.disassemble? = some prepared.disassemble := by
  intro fresh blocks prepared session
  have hassigned : ∀ a, (fresh.loadAll blocks).memory.isAssigned a ↔
      a ∈ [0x9001, 0x9000, 0x8004, 0x8003, 0x8002, 0x8001, 0x8000] := by
    intro a
    simp [fresh, blocks, loadAll, load, Memory.load, Memory.storeAll, Memory.store,
      Memory.isAssigned, Memory.empty]
  have hends : ¬((fresh.loadAll blocks).memory.isAssigned 0 ∧
      (fresh.loadAll blocks).memory.isAssigned 0xFFFF) := by
    rw [hassigned]
    exact fun hboth => absurd hboth.1 (by decide)
  obtain ⟨hsame, hlists, -, hwritten, -⟩ := disassemble_lists_memory { blockGap := 0 } none ∅ none
    blocks [.fixed 0x8000 none, .waiting 0x8002] hends
  refine ⟨hends, hlists, ?_, ?_, ?_, hwritten (hsame.fits rfl (by decide))⟩
  all_goals
    rw [hlists.mem_origins, hsame.isAssigned_eq, hsame.isAssigned_eq, hassigned, hassigned]
    decide

end Session

end Z80Atlas
