import Z80Atlas.Proofs.Report.Coverage
import Z80Atlas.Proofs.Session.History

namespace Z80Atlas

namespace Address

theorem ofInt_natCast (n : Nat) : UInt16.ofInt n = UInt16.ofNat n := by
  rw [UInt16.ofInt, ← UInt16.toNat_inj, UInt16.toNat_ofNat', UInt16.toNat_ofNat']
  omega

theorem ofInt_add_natAbs (value : Address) {offset : Int} (h : offset < 0) :
    UInt16.ofInt (value.toNat + offset) + UInt16.ofNat offset.natAbs = value := by
  have hoffset : offset = -(offset.natAbs : Int) := by omega
  rw [UInt16.ofInt_add, ofInt_natCast, UInt16.ofNat_toNat]
  nth_rewrite 1 [hoffset]
  rw [UInt16.ofInt_neg, ofInt_natCast, UInt16.add_assoc, UInt16.add_left_neg, UInt16.add_zero]

theorem ofInt_sub_natAbs (value : Address) {offset : Int} (h : 0 < offset) :
    UInt16.ofInt (value.toNat + offset) - UInt16.ofNat offset.natAbs = value := by
  have hoffset : offset = (offset.natAbs : Int) := by omega
  rw [UInt16.ofInt_add, ofInt_natCast, UInt16.ofNat_toNat]
  nth_rewrite 1 [hoffset]
  rw [ofInt_natCast, UInt16.add_sub_cancel]

end Address

namespace Text

theorem displacement_neg_of_neg {offset : Int} (h : offset < 0) :
    displacement (-offset) = "+" ++ decimal offset.natAbs := by
  have hpos : ¬-offset < 0 := by omega
  rw [displacement, signedDecimal, if_neg hpos, if_neg hpos, Int.natAbs_neg]

theorem displacement_neg_of_pos {offset : Int} (h : 0 < offset) :
    displacement (-offset) = "-" ++ decimal offset.natAbs := by
  have hneg : -offset < 0 := by omega
  rw [displacement, signedDecimal, if_pos hneg, if_pos hneg, Int.natAbs_neg]

end Text

def ListingItem.definition? : ListingItem → Option Label
  | .constant defined => some defined
  | .label defined => some defined
  | _ => none

theorem definition?_of_not_isEntry (item : ListingItem) (h : item.isEntry = false) :
    item.definition? = none := by
  cases item <;> trivial

def Kind.isSymbolic : Kind → Bool
  | .label | .localLabel | .localLoop | .subroutine | .data => true
  | _ => false

namespace Session

def definitions (session : Session) : List Label :=
  session.listingItems.filterMap ListingItem.definition?

-- The line of a label, and behind it that of the statement at its address. Between them there are
-- only empty lines and comments.
def LabelsStatement (session : Session) (label : Label) (lines : List String) : Prop :=
  ∃ before line remark between statement remark' after,
    lines = before ++ (line ++ remark) :: (between ++ (statement ++ remark') :: after) ∧
    session.Shows line (.label label) ∧ IsRemark remark ∧
    session.Shows statement (session.statementAt label.address) ∧ IsRemark remark' ∧
    ∀ other ∈ between, other = "" ∨ ∃ text, other = ";" ++ text

-- Each live label has one definition: a constant if nothing is loaded at its address, or else a
-- label in front of the statement there.
structure DefinesLabels (session : Session) : Prop where
  once : session.definitions.Perm session.labels.live
  constant_iff : ∀ label, .constant label ∈ session.listingItems ↔
    label ∈ session.labels.live ∧ ¬session.memory.isAssigned label.address
  label_iff : ∀ label, .label label ∈ session.listingItems ↔
    label ∈ session.labels.live ∧ session.memory.isAssigned label.address
  written : ∀ item ∈ session.listingItems, session.Writes (session.itemLines item) item
  marked : ∀ a line, session.IsCommentLine a line → ∃ text, line = ";" ++ text
  adjacent : ∀ label ∈ session.labels.live, session.memory.isAssigned label.address →
    session.LabelsStatement label
      ((session.listingItems.flatMap session.itemLines).dropWhile (·.isEmpty))

-- The text stands for the value: it is a symbol of the listing, such a symbol and the distance to
-- it, or a number.
def Denotes (session : Session) (text : String) (value : Address) : Prop :=
  (∃ label ∈ session.definitions, label.name = some text ∧ label.address = value) ∨
  (∃ label ∈ session.definitions, ∃ name n, label.name = some name ∧
    (text = name ++ "+" ++ Text.decimal n ∧ label.address + UInt16.ofNat n = value ∨
      text = name ++ "-" ++ Text.decimal n ∧ label.address - UInt16.ofNat n = value)) ∨
  text = Text.hex4 value ++ "h"

-- The line of each instruction found shows an operand that stands for its value.
def ResolvesOperands (session : Session) : Prop :=
  ∀ f, session.memory.isFirst f → (session.instructionAt f).kind.isSymbolic →
    ∀ value, (session.instructionAt f).value = some value →
      ∃ operand, session.Denotes operand value ∧
        .instruction f (session.instructionAt f).size ∈ session.listingItems ∧
        session.Carries f (fun line => ∃ text, session.InstructionText f operand text ∧
          session.ShowsStatement f (session.instructionAt f).size text line)
          (session.itemLines (.instruction f (session.instructionAt f).size))

theorem Marked.of_isCommentLine {session : Session} (h : session.Marked) {a : Address}
    {line : String} (hline : session.IsCommentLine a line) : ∃ text, line = ";" ++ text := by
  obtain ⟨comment, hcomment, hmem⟩ := hline
  exact h a comment hcomment line hmem

theorem exists_dropWhile_append {α : Type} {p : α → Bool} {x : α} (hx : p x = false)
    (front back : List α) : ∃ rest, (front ++ x :: back).dropWhile p = rest ++ x :: back := by
  rw [List.dropWhile_append]
  split
  · exact ⟨[], by simp [hx]⟩
  · exact ⟨_, rfl⟩

theorem eq_of_not_isEntry {session : Session} {item : ListingItem} (hitem : item.isEntry = false)
    {line : String} (hline : line ∈ session.itemLines item) :
    line = "" ∨ ∃ text, line = ";" ++ text := by
  cases item with
  | blank => exact .inl (List.mem_singleton.mp hline)
  | gap => exact .inr ⟨" ...", List.mem_singleton.mp hline⟩
  | constantsHeading | constant | origin | label | instruction | byte => cases hitem

theorem carries_statementAt (session : Session) (a : Address) :
    session.Carries a (session.Shows · (session.statementAt a))
      (session.itemLines (session.statementAt a)) := by
  unfold statementAt
  split
  · exact session.writes_itemLines (.instruction a (session.statementSize a))
  · exact session.writes_itemLines (.byte a)

theorem filterMap_definition?_constantItems (session : Session) :
    session.constantItems.filterMap ListingItem.definition? =
      session.labels.live.filter (·.isEqu) := by
  have hlabels : ∀ labels : List Label,
      (labels.map ListingItem.constant).filterMap ListingItem.definition? = labels := by
    intro labels
    rw [List.filterMap_map]
    exact List.filterMap_some
  unfold constantItems
  split
  · simp_all
  · rw [List.filterMap_cons_none rfl]
    exact hlabels _

def shownLabel? (session : Session) (a : Address) : Option Label :=
  if session.Begins a then session.labels.at? a else none

theorem filterMap_definition?_entriesAt (session : Session) (a : Address) :
    (session.entriesAt a).filterMap ListingItem.definition? = (session.shownLabel? a).toList := by
  have horigin : (if a ∈ session.areaStarts then [ListingItem.origin a] else []).filterMap
      ListingItem.definition? = [] := by
    split <;> rfl
  have hstatement : (session.statementAt a).definition? = none := by
    unfold statementAt
    split <;> rfl
  rw [entriesAt, labelledStatement, shownLabel?, List.filterMap_append, horigin, List.nil_append]
  split
  · rw [List.filterMap_append, List.filterMap_cons_none hstatement]
    cases session.labels.at? a <;> rfl
  · rfl

variable {session : Session}

namespace Arranged

-- A label with memory at its address stands in front of the statement there.
theorem labelledStatement_of_label (h : session.Arranged) {label : Label}
    (hlabel : label ∈ session.labels.live) (hassigned : session.memory.isAssigned label.address) :
    session.labelledStatement label.address =
      [.label label, session.statementAt label.address] := by
  have hat := (h.wellFormed.mem_live label).mp hlabel
  rw [labelledStatement, if_pos ⟨hassigned, h.outside _ label hat⟩, hat]
  rfl

theorem shownLabel?_eq_some (h : session.Arranged) (a : Address) (label : Label) :
    session.shownLabel? a = some label ↔
      label ∈ session.labels.live ∧ session.memory.isAssigned label.address ∧ label.address = a := by
  unfold shownLabel?
  constructor
  · intro hshown
    split at hshown
    case isTrue hbegins =>
        have haddress := h.wellFormed.address_eq hshown
        refine ⟨h.wellFormed.mem_live_of_at? hshown, ?_, haddress⟩
        rw [haddress]
        exact hbegins.1
    case isFalse => cases hshown
  · rintro ⟨hlabel, hassigned, rfl⟩
    have hat := (h.wellFormed.mem_live label).mp hlabel
    rw [if_pos ⟨hassigned, h.outside _ label hat⟩, hat]

theorem filterMap_definition?_memoryItems (h : session.Arranged) :
    session.memoryItems.toList.filterMap ListingItem.definition? =
      Address.all.filterMap session.shownLabel? := by
  rw [h.filterMap_memoryItems _ definition?_of_not_isEntry, List.filterMap_eq_flatMap_toList]
  apply List.flatMap_congr
  intro a _
  exact session.filterMap_definition?_entriesAt a

theorem label_mem_memoryItems (h : session.Arranged) (label : Label) :
    .label label ∈ session.memoryItems.toList ↔
      label ∈ session.labels.live ∧ session.memory.isAssigned label.address := by
  rw [h.mem_memoryItems rfl]
  constructor
  · rintro ⟨a, ha⟩
    have hstatement : session.statementAt a ≠ .label label := by
      unfold statementAt
      split <;> exact ListingItem.noConfusion
    have hmem : session.Begins a ∧ session.labels.at? a = some label := by
      simpa [entriesAt, labelledStatement, hstatement.symm] using ha
    obtain ⟨hbegins, hat⟩ := hmem
    refine ⟨h.wellFormed.mem_live_of_at? hat, ?_⟩
    rw [h.wellFormed.address_eq hat]
    exact hbegins.1
  · rintro ⟨hlabel, hassigned⟩
    refine ⟨label.address, ?_⟩
    rw [entriesAt, h.labelledStatement_of_label hlabel hassigned]
    simp

theorem definitions_perm (h : session.Arranged) :
    session.definitions.Perm session.labels.live := by
  have hmemory : (session.memoryItems.toList.filterMap ListingItem.definition?).Perm
      (session.labels.live.filter (!·.isEqu)) := by
    rw [h.filterMap_definition?_memoryItems, List.perm_ext_iff_of_nodup]
    · intro label
      rw [List.mem_filterMap, List.mem_filter]
      constructor
      · rintro ⟨a, -, hshown⟩
        obtain ⟨hlabel, hassigned, -⟩ := (h.shownLabel?_eq_some a label).mp hshown
        refine ⟨hlabel, ?_⟩
        rw [h.isEqu_eq_of_mem_live hlabel, hassigned]
        rfl
      · rintro ⟨hlabel, hequ⟩
        rw [h.isEqu_eq_of_mem_live hlabel, Bool.not_not] at hequ
        exact ⟨label.address, label.address.mem_all,
          (h.shownLabel?_eq_some _ label).mpr ⟨hlabel, hequ, rfl⟩⟩
    · rw [List.Nodup, List.pairwise_filterMap]
      refine Address.pairwise_all.imp ?_
      rintro a b hlt label hshown other hshown' rfl
      rw [← ((h.shownLabel?_eq_some a label).mp hshown).2.2,
        ← ((h.shownLabel?_eq_some b label).mp hshown').2.2] at hlt
      exact UInt16.lt_irrefl _ hlt
    · refine List.Pairwise.filter _ (h.wellFormed.pairwise_live.imp ?_)
      rintro label other hlt rfl
      exact UInt16.lt_irrefl _ hlt
  rw [definitions, listingItems, List.filterMap_append, filterMap_definition?_constantItems]
  exact (hmemory.append_left _).trans (List.filter_append_perm _ _)

theorem constant_not_mem_memoryItems (h : session.Arranged) (label : Label) :
    .constant label ∉ session.memoryItems.toList := by
  rw [h.mem_memoryItems rfl]
  rintro ⟨a, ha⟩
  have hstatement : .constant label ≠ session.statementAt a := by
    unfold statementAt
    split <;> exact ListingItem.noConfusion
  simp [entriesAt, labelledStatement, hstatement] at ha

-- No entry stands between a label and its statement.
theorem listingItems_of_label (h : session.Arranged) {label : Label}
    (hlabel : label ∈ session.labels.live) (hassigned : session.memory.isAssigned label.address) :
    ∃ before between after, session.listingItems =
      before ++ .label label :: (between ++ session.statementAt label.address :: after) ∧
      ∀ item ∈ between, item.isEntry = false := by
  obtain ⟨lower, upper, hentries⟩ := h.exists_append_entriesAt label.address
  rw [entriesAt, h.labelledStatement_of_label hlabel hassigned, List.append_assoc,
    ← List.append_assoc, List.filter_eq_append_iff] at hentries
  obtain ⟨before, rest, hitems, -, hrest⟩ := hentries
  obtain ⟨blanks, rest, rfl, -, -, hrest⟩ := List.filter_eq_cons_iff.mp hrest
  obtain ⟨between, after, rfl, hbetween, -, -⟩ := List.filter_eq_cons_iff.mp hrest
  refine ⟨session.constantItems ++ (before ++ blanks), between, after, ?_, ?_⟩
  · rw [listingItems, hitems]
    simp only [List.append_assoc]
  · intro item hitem
    simpa using hbetween item hitem

theorem labelsStatement (h : session.Arranged) (hmarked : session.Marked) {label : Label}
    (hlabel : label ∈ session.labels.live) (hassigned : session.memory.isAssigned label.address) :
    session.LabelsStatement label
      ((session.listingItems.flatMap session.itemLines).dropWhile (·.isEmpty)) := by
  obtain ⟨before, between, after, hitems, hbetween⟩ := h.listingItems_of_label hlabel hassigned
  obtain ⟨above, line, remark, behind, hlines, hline, hremark, hothers⟩ :=
    session.writes_itemLines (.label label)
  obtain ⟨above', statement, remark', behind', hlines', hstatement, hremark', hothers'⟩ :=
    session.carries_statementAt label.address
  have hblank : ((line ++ remark).isEmpty) = false := by
    obtain ⟨place, -, rfl⟩ := hline
    simp
  have hall : session.listingItems.flatMap session.itemLines =
      (before.flatMap session.itemLines ++ above) ++ (line ++ remark) ::
        ((behind ++ between.flatMap session.itemLines ++ above') ++ (statement ++ remark') ::
          (behind' ++ after.flatMap session.itemLines)) := by
    rw [hitems, List.flatMap_append, List.flatMap_cons, List.flatMap_append, List.flatMap_cons, hlines,
      hlines']
    simp only [List.append_assoc, List.cons_append]
  obtain ⟨front, hfront⟩ := exists_dropWhile_append (p := (·.isEmpty)) hblank
    (before.flatMap session.itemLines ++ above) _
  rw [hall, hfront]
  refine ⟨front, line, remark, _, statement, remark', _, rfl, hline, hremark, hstatement, hremark', ?_⟩
  intro other hother
  rcases List.mem_append.mp hother with hother | hother
  · rcases List.mem_append.mp hother with hother | hother
    · exact .inr (hmarked.of_isCommentLine (hothers other (List.mem_append_right _ hother)))
    · obtain ⟨item, hitem, hother⟩ := List.mem_flatMap.mp hother
      exact eq_of_not_isEntry (hbetween item hitem) hother
  · exact .inr (hmarked.of_isCommentLine (hothers' other (List.mem_append_left _ hother)))

theorem definesLabels (h : session.Arranged) (hmarked : session.Marked) :
    session.DefinesLabels where
  once := h.definitions_perm
  constant_iff := by
    intro label
    rw [listingItems, List.mem_append, or_iff_left (h.constant_not_mem_memoryItems label),
      constant_mem_constantItems]
    apply and_congr_right
    intro hlabel
    rw [h.isEqu_eq_of_mem_live hlabel]
    simp
  label_iff := by
    intro label
    rw [session.mem_listingItems ListingItem.noConfusion fun _ => ListingItem.noConfusion,
      h.label_mem_memoryItems]
  written := fun item _ => session.writes_itemLines item
  marked := fun _ _ => hmarked.of_isCommentLine
  adjacent := fun _ => h.labelsStatement hmarked

end Arranged

-- The text is read off the label at the value, or off the label to which the distance is known.
theorem denotes_symbolFor (session : Session) (h : session.labels.WellFormed)
    (hdefined : session.definitions.Perm session.labels.live) (value : Address) :
    session.Denotes (session.symbolFor value) value := by
  have hname : ∀ a name, session.nameAt? a = some name →
      ∃ label ∈ session.definitions, label.name = some name ∧ label.address = a := by
    intro a name hname
    obtain ⟨label, hat, hlabel⟩ := Option.bind_eq_some_iff.mp hname
    exact ⟨label, hdefined.mem_iff.mpr (h.mem_live_of_at? hat), hlabel, h.address_eq hat⟩
  unfold symbolFor
  split
  case h_1 name hat => exact .inl (hname value name hat)
  case h_2 =>
      dsimp only
      generalize session.offsets.getD value 0 = offset
      split
      case h_1 name hbase =>
          split at hbase
          case isTrue => cases hbase
          case isFalse hne =>
              obtain ⟨label, hlabel, hnamed, haddress⟩ := hname _ name hbase
              refine .inr (.inl ⟨label, hlabel, name, offset.natAbs, hnamed, ?_⟩)
              rw [haddress, String.append_assoc, String.append_assoc]
              rcases Int.lt_or_gt_of_ne hne with hneg | hpos
              · exact .inl ⟨by rw [Text.displacement_neg_of_neg hneg],
                  Address.ofInt_add_natAbs value hneg⟩
              · exact .inr ⟨by rw [Text.displacement_neg_of_pos hpos],
                  Address.ofInt_sub_natAbs value hpos⟩
      case h_2 => exact .inr (.inr rfl)

theorem instructionText_of_symbolic (session : Session) (instruction : Instruction)
    (hkind : instruction.kind.isSymbolic) {value : UInt16} (hvalue : instruction.value = some value) :
    (session.instructionText instruction true).1 =
      instruction.render session.config.lowerCase (session.symbolFor value) := by
  have hoperand : (session.operandText instruction value true).1 = session.symbolFor value := by
    unfold operandText
    cases hcase : instruction.kind <;> simp_all [Kind.isSymbolic]
  rw [instructionText, hvalue, ← hoperand]

theorem Arranged.resolvesOperands (h : session.Arranged) : session.ResolvesOperands := by
  intro f hf hkind value hvalue
  refine ⟨session.symbolFor value, session.denotes_symbolFor h.wellFormed h.definitions_perm value,
    (h.instruction_mem_iff f _).mpr ⟨hf, rfl⟩, ?_⟩
  have htext : session.InstructionText f (session.symbolFor value)
      (session.instructionText (session.instructionAt f) true).1 := by
    rw [session.instructionText_of_symbolic _ hkind hvalue]
    exact session.instructionText_render f _
  exact carries_remarked f ⟨_, htext, session.showsStatement_statementLine f _ _⟩ _

theorem prepared_fixed (session : Session) (origin : Address) (bytes : List UInt8)
    (entries : List Address) :
    session.prepared [(origin, bytes)] (entries.map (.fixed · none)) =
      entries.foldl (·.fixLabel · none) (session.load origin bytes) := by
  rw [prepared, List.foldl_map]
  rfl

theorem readListing_keepListing (session : Session) (lines : List String) :
    (session.keepListing lines).readListing.2 = lines := rfl

-- The symbols of a listing are closed: each label of the program is defined once, at its place, and
-- each operand that is shown by a label stands for its value through a symbol so defined.
theorem disassembleBytes_defines_symbols (origin : Address) (bytes : List UInt8)
    (entries : List Address) :
    let loaded := ({} : Session).load origin bytes
    let session := (entries.foldl (·.fixLabel · none) loaded).analyse
    ¬(loaded.memory.isAssigned 0 ∧ loaded.memory.isAssigned 0xFFFF) →
      disassembleBytes origin bytes entries = "\n".intercalate
        ((session.listingItems.flatMap session.itemLines).dropWhile (·.isEmpty)) ∧
      session.DefinesLabels ∧ session.ResolvesOperands := by
  intro loaded session hends
  have hprepared := prepared_fixed {} origin bytes entries
  have hready := ready_prepared {} rfl Memory.unclassified_empty rfl [(origin, bytes)]
    (entries.map (.fixed · none))
  have hmemory := memory_prepared {} rfl [(origin, bytes)] (entries.map (.fixed · none))
  rw [hprepared] at hready hmemory
  have harranged : session.Arranged := hready.arranged_analyse (by rw [hmemory]; exact hends)
  have hloaded : loaded.Marked := by
    intro a comment hcomment
    cases hcomment.symm.trans Std.TreeMap.getElem?_emptyc
  have hmarked : session.Marked := by
    apply Marked.analyse
    have hfix : Heedless (entries.foldl (·.fixLabel · none)) :=
      .foldl (fun a => .of_eq (fixLabel_withPast · · · a none)) entries
    exact hfix.marked hloaded
  refine ⟨?_, harranged.definesLabels hmarked, harranged.resolvesOperands⟩
  rw [disassembleBytes, disassemble_eq, readListing_keepListing]

-- A program at the upper end of the address space.
theorem disassembleBytes_defines_symbols_end :
    let loaded := ({} : Session).load 0xFFFC [0x3A, 0xFD, 0xFF, 0xC9]
    let session := ([0xFFFC].foldl (·.fixLabel · none) loaded).analyse
    loaded.memory.isAssigned 0xFFFF ∧
      ¬(loaded.memory.isAssigned 0 ∧ loaded.memory.isAssigned 0xFFFF) ∧
      session.DefinesLabels ∧ session.ResolvesOperands := by
  intro loaded session
  have hassigned : ∀ a, loaded.memory.isAssigned a ↔ a ∈ [0xFFFF, 0xFFFE, 0xFFFD, 0xFFFC] := by
    intro a
    simp [loaded, load, Memory.load, Memory.storeAll, Memory.store, Memory.isAssigned,
      Memory.empty]
  have hends : ¬(loaded.memory.isAssigned 0 ∧ loaded.memory.isAssigned 0xFFFF) := by
    rw [hassigned]
    exact fun hboth => absurd hboth.1 (by decide)
  have hsymbols := disassembleBytes_defines_symbols 0xFFFC [0x3A, 0xFD, 0xFF, 0xC9] [0xFFFC] hends
  exact ⟨(hassigned _).mpr (by decide), hends, hsymbols.2⟩

end Session

end Z80Atlas
