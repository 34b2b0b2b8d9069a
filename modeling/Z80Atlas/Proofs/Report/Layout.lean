import Z80Atlas.Proofs.Analysis.Location
import Z80Atlas.Report.Listing

namespace Z80Atlas

namespace Address

theorem plus_eq_ofNat (a : Address) (i : Nat) : a.plus i = UInt16.ofNat (a.toNat + i) := by
  rw [UInt16.ofNat_add, UInt16.ofNat_toNat]
  rfl

theorem toNat_ofNat {n : Nat} (h : n < 65536) : (UInt16.ofNat n).toNat = n :=
  UInt16.toNat_ofNat_of_lt' h

theorem ofNat_sub_one {n : Nat} (hpos : 0 < n) :
    UInt16.ofNat n - 1 = UInt16.ofNat (n - 1) := by
  rw [show n = (n - 1) + 1 by omega, UInt16.ofNat_add, Nat.add_sub_cancel]
  exact UInt16.add_sub_cancel _ _

theorem pairwise_all : all.Pairwise (· < ·) := by
  rw [all, List.pairwise_map]
  refine List.pairwise_lt_range.imp_of_mem ?_
  intro m n hm hn hlt
  rw [UInt16.lt_iff_toNat_lt, toNat_ofNat (List.mem_range.mp hm), toNat_ofNat (List.mem_range.mp hn)]
  exact hlt

end Address

def ListingItem.isEntry : ListingItem → Bool
  | .blank | .gap => false
  | _ => true

namespace Session

instance (session : Session) (a : Address) : Decidable (session.Inside a) :=
  inferInstanceAs (Decidable (_ ∧ _))

-- A statement begins at each loaded address that is not a later byte of an instruction.
def Begins (session : Session) (a : Address) : Prop :=
  session.memory.isAssigned a ∧ ¬session.Inside a

instance (session : Session) (a : Address) : Decidable (session.Begins a) :=
  inferInstanceAs (Decidable (_ ∧ _))

def statementAt (session : Session) (a : Address) : ListingItem :=
  if session.memory.isCode a then .instruction a (session.statementSize a) else .byte a

theorem isEntry_statementAt (session : Session) (a : Address) :
    (session.statementAt a).isEntry = true := by
  unfold statementAt
  split <;> rfl

def labelledStatement (session : Session) (a : Address) : List ListingItem :=
  if session.Begins a then
    ((session.labels.at? a).map .label).toList ++ [session.statementAt a]
  else []

def entriesAt (session : Session) (a : Address) : List ListingItem :=
  (if a ∈ session.areaStarts then [.origin a] else []) ++ session.labelledStatement a

-- The bytes of the statement at `a` do not wrap, and the memory goes on with another statement or
-- ends.
structure Spans (session : Session) (a : Address) : Prop where
  fits : a.toNat + session.statementSize a ≤ 65536
  assigned : ∀ n, a.toNat ≤ n → n < a.toNat + session.statementSize a →
    session.memory.isAssigned (UInt16.ofNat n)
  inside : ∀ n, a.toNat < n → n < a.toNat + session.statementSize a →
    session.Inside (UInt16.ofNat n)
  next : ∀ n, n = a.toNat + session.statementSize a → n < 65536 →
    ¬session.Inside (UInt16.ofNat n)

variable {session : Session}

namespace Arranged

-- An instruction that wraps would hold both ends of the address space.
theorem size_le (h : session.Arranged) {f : Address} (hf : session.memory.isFirst f) :
    f.toNat + (session.instructionAt f).size ≤ 65536 := by
  by_contra hwrap
  have hlt : f.toNat < 65536 := f.toNat_lt
  have hextent : ∀ i, i < (session.instructionAt f).size → session.memory.isAssigned (f.plus i) :=
    fun i hi => h.tiled.assigned_of_code _ (h.tiled.code_of_extent f hf _ ⟨i, hi, rfl⟩)
  have hlast : f.plus (65535 - f.toNat) = 0xFFFF := by
    apply UInt16.toNat_inj.mp
    rw [Address.toNat_plus]
    change _ = 65535
    omega
  have hzero : f.plus (65536 - f.toNat) = 0 := by
    apply UInt16.toNat_inj.mp
    rw [Address.toNat_plus]
    change _ = 0
    omega
  apply h.ends
  rw [← hlast, ← hzero]
  exact ⟨hextent _ (by omega), hextent _ (by omega)⟩

-- An instruction holds the addresses from its own up to its end.
theorem mem_extent_iff (h : session.Arranged) {f : Address} (hf : session.memory.isFirst f)
    (x : Address) :
    x ∈ session.extent f ↔
      f.toNat ≤ x.toNat ∧ x.toNat < f.toNat + (session.instructionAt f).size := by
  have hsize := h.size_le hf
  constructor
  · rintro ⟨i, hi, rfl⟩
    rw [Address.toNat_plus]
    omega
  · rintro ⟨hle, hlt⟩
    refine ⟨x.toNat - f.toNat, by omega, ?_⟩
    rw [Address.plus_eq_ofNat, Nat.add_sub_cancel' hle, UInt16.ofNat_toNat]

theorem isFirst_of_begins {a : Address} (ha : session.Begins a) (hcode : session.memory.isCode a) :
    session.memory.isFirst a := by
  by_contra hlater
  exact ha.2 ⟨hcode, hlater⟩

-- Each later byte lies behind the beginning of its instruction.
theorem exists_first_of_inside (h : session.Arranged) {x : Address} (hx : session.Inside x) :
    ∃ f, session.memory.isFirst f ∧ f.toNat < x.toNat ∧
      x.toNat < f.toNat + (session.instructionAt f).size := by
  obtain ⟨f, ⟨hf, hmem⟩, -⟩ := h.tiled.covered x hx.1
  obtain ⟨hle, hlt⟩ := (h.mem_extent_iff hf x).mp hmem
  refine ⟨f, hf, Nat.lt_of_le_of_ne hle ?_, hlt⟩
  intro heq
  rw [UInt16.toNat_inj.mp heq] at hf
  exact hx.2 hf

theorem statementSize_of_first (h : session.Arranged) {f : Address}
    (hf : session.memory.isFirst f) :
    session.statementSize f = (session.instructionAt f).size :=
  if_pos (h.tiled.code_of_first f hf)

theorem statement_fits (h : session.Arranged) {a : Address} (ha : session.Begins a) :
    a.toNat + session.statementSize a ≤ 65536 := by
  by_cases hcode : session.memory.isCode a
  · have hfirst := isFirst_of_begins ha hcode
    rw [h.statementSize_of_first hfirst]
    exact h.size_le hfirst
  · rw [statementSize, if_neg hcode]
    exact a.toNat_lt

theorem inside_of_statement (h : session.Arranged) {a x : Address} (ha : session.Begins a)
    (hlo : a.toNat < x.toNat) (hhi : x.toNat < a.toNat + session.statementSize a) :
    session.Inside x := by
  by_cases hcode : session.memory.isCode a
  · have hfirst := isFirst_of_begins ha hcode
    rw [h.statementSize_of_first hfirst] at hhi
    have hmem := (h.mem_extent_iff hfirst x).mpr ⟨Nat.le_of_lt hlo, hhi⟩
    refine ⟨h.tiled.code_of_extent a hfirst x hmem, ?_⟩
    intro hx
    rw [h.tiled.first_of_extent a hfirst x hmem hx] at hlo
    exact Nat.lt_irrefl _ hlo
  · rw [statementSize, if_neg hcode] at hhi
    omega

-- An instruction that reaches over the end of the statement would share a byte with it.
theorem not_inside_next (h : session.Arranged) {a x : Address} (ha : session.Begins a)
    (hx : x.toNat = a.toNat + session.statementSize a) : ¬session.Inside x := by
  intro hin
  obtain ⟨f, hf, hbefore, hafter⟩ := h.exists_first_of_inside hin
  rw [hx] at hbefore hafter
  rcases Nat.lt_or_ge a.toNat f.toNat with hbehind | hahead
  · exact (h.inside_of_statement ha hbehind hbefore).2 hf
  · have hmem := (h.mem_extent_iff hf a).mpr ⟨hahead, by omega⟩
    have hcode := h.tiled.code_of_extent f hf a hmem
    have hfa := h.tiled.first_of_extent f hf a hmem (isFirst_of_begins ha hcode)
    rw [hfa, h.statementSize_of_first hf] at hafter
    omega

theorem spans (h : session.Arranged) {a : Address} (ha : session.Begins a) : session.Spans a := by
  have hfits := h.statement_fits ha
  have hinside : ∀ n, a.toNat < n → n < a.toNat + session.statementSize a →
      session.Inside (UInt16.ofNat n) := by
    intro n hlo hhi
    have hn : (UInt16.ofNat n).toNat = n := Address.toNat_ofNat (by omega)
    exact h.inside_of_statement ha (by omega) (by omega)
  refine ⟨hfits, ?_, hinside, ?_⟩
  · intro n hlo hhi
    by_cases heq : n = a.toNat
    · rw [heq, UInt16.ofNat_toNat]
      exact ha.1
    · exact h.tiled.assigned_of_code _ (hinside n (by omega) hhi).1
  · rintro n rfl hlt
    exact h.not_inside_next ha (Address.toNat_ofNat hlt)

end Arranged

theorem entries_blockGap (session : Session) :
    session.blockGap.filter ListingItem.isEntry = [] := by
  rw [blockGap, List.filter_replicate]
  rfl

theorem entries_itemsAt (session : Session) (state : ListingState) (a : Address) :
    (session.itemsAt state a).filter ListingItem.isEntry =
      ((session.labels.at? a).map .label).toList ++ [session.statementAt a] := by
  have hlabel : ((session.labels.at? a).map ListingItem.label).toList.filter ListingItem.isEntry =
      ((session.labels.at? a).map ListingItem.label).toList := by
    cases session.labels.at? a <;> rfl
  have hstatement := session.isEntry_statementAt a
  rw [statementAt] at hstatement ⊢
  simp only [itemsAt, List.filter_append, apply_ite (List.filter ListingItem.isEntry),
    entries_blockGap, hlabel, List.filter_nil, ite_self, List.nil_append, List.append_nil,
    List.filter_cons_of_pos hstatement]
  simp [ListingItem.isEntry]

theorem Spans.flatMap_labelledStatement {a : Address} (h : session.Spans a)
    (ha : session.Begins a) :
    ((List.range' a.toNat (session.statementSize a)).flatMap fun n =>
        session.labelledStatement (UInt16.ofNat n)) =
      ((session.labels.at? a).map .label).toList ++ [session.statementAt a] := by
  have hpos := session.statementSize_pos a
  have hlater : ∀ n ∈ List.range' (a.toNat + 1) (session.statementSize a - 1),
      session.labelledStatement (UInt16.ofNat n) = [] := by
    intro n hn
    rw [List.mem_range'_1] at hn
    exact if_neg fun hbegins => hbegins.2 (h.inside n (by omega) (by omega))
  rw [show session.statementSize a = (session.statementSize a - 1) + 1 by omega, List.range'_succ,
    List.flatMap_cons, List.flatMap_eq_nil_iff.mpr hlater, List.append_nil, UInt16.ofNat_toNat,
    labelledStatement, if_pos ha]

-- The loaded memory from `start` on was laid out as `rows`, up to a `finish` that is not loaded.
structure LaidOut (session : Session) (start finish : Nat) (rows : List ListingItem) : Prop where
  start_le : start ≤ finish
  finish_le : finish ≤ 65536
  assigned : ∀ n, start ≤ n → n < finish → session.memory.isAssigned (UInt16.ofNat n)
  closed : finish < 65536 → ¬session.memory.isAssigned (UInt16.ofNat finish)
  entries : rows.filter ListingItem.isEntry =
    (List.range' start (finish - start)).flatMap fun n =>
      session.labelledStatement (UInt16.ofNat n)

theorem LaidOut.cons {a : Address} {finish : Nat} {rows : List ListingItem}
    (h : session.LaidOut (a.toNat + session.statementSize a) finish rows) (hspans : session.Spans a)
    (ha : session.Begins a) (state : ListingState) :
    session.LaidOut a.toNat finish (session.itemsAt state a ++ rows) := by
  have hle := h.start_le
  refine ⟨by omega, h.finish_le, ?_, h.closed, ?_⟩
  · intro n hlo hhi
    by_cases hn : n < a.toNat + session.statementSize a
    · exact hspans.assigned n hlo hn
    · exact h.assigned n (by omega) hhi
  · rw [show finish - a.toNat = session.statementSize a +
      (finish - (a.toNat + session.statementSize a)) by omega, ← List.range'_append_1,
      List.flatMap_append, hspans.flatMap_labelledStatement ha, ← h.entries, List.filter_append,
      entries_itemsAt]

-- By the recursion of the layout: each step begins where a statement begins, so that the next one
-- does not begin inside an instruction.
theorem Arranged.laidOut_layOutArea (h : session.Arranged) (position : Nat) (state : ListingState)
    (items : Array ListingItem) (hposition : position ≤ 65536)
    (haligned : position < 65536 → ¬session.Inside (UInt16.ofNat position)) :
    ∃ rows, (session.layOutArea position state items).2.2.toList = items.toList ++ rows ∧
      session.LaidOut position (session.layOutArea position state items).1 rows := by
  fun_induction layOutArea session position state items with
  | case1 position state items hloaded address ih =>
      have hlt : position < 65536 := hloaded.1
      have haddress : address.toNat = position := Address.toNat_ofNat hlt
      have hbegins : session.Begins address := ⟨hloaded.2, haligned hlt⟩
      have hspans := h.spans hbegins
      rw [← haddress] at ih ⊢
      obtain ⟨rows, hitems, hlaid⟩ := ih hspans.fits (hspans.next _ rfl)
      refine ⟨session.itemsAt state address ++ rows, ?_, hlaid.cons hspans hbegins state⟩
      rw [hitems, Array.toList_appendList, List.append_assoc]
  | case2 position state items hfree =>
      refine ⟨[], (List.append_nil _).symm, Nat.le_refl _, hposition, ?_, ?_, ?_⟩
      · intro n hlo hhi
        exact absurd hhi (Nat.not_lt.mpr hlo)
      · intro hlt hassigned
        exact hfree ⟨hlt, hassigned⟩
      · rw [Nat.sub_self]
        rfl

theorem entriesAt_of_not_assigned {a : Address} (ha : ¬session.memory.isAssigned a) :
    session.entriesAt a = [] := by
  have hstart : a ∉ session.areaStarts := fun hmem => ha ((session.mem_areaStarts a).mp hmem).1
  rw [entriesAt, if_neg hstart, labelledStatement, if_neg fun hbegins => ha hbegins.1]
  rfl

theorem flatMap_entriesAt_of_not_assigned (session : Session) (start count : Nat)
    (hfree : ∀ n, start ≤ n → n < start + count → ¬session.memory.isAssigned (UInt16.ofNat n)) :
    ((List.range' start count).flatMap fun n => session.entriesAt (UInt16.ofNat n)) = [] := by
  rw [List.flatMap_eq_nil_iff]
  intro n hn
  rw [List.mem_range'_1] at hn
  exact entriesAt_of_not_assigned (hfree n hn.1 hn.2)

-- An area has one start, so that behind it the entries are labels and statements.
theorem LaidOut.flatMap_entriesAt {a : Address} {finish : Nat} {rows : List ListingItem}
    (h : session.LaidOut a.toNat finish rows) (hlt : a.toNat < finish)
    (hstart : a ∈ session.areaStarts) :
    ((List.range' a.toNat (finish - a.toNat)).flatMap fun n =>
        session.entriesAt (UInt16.ofNat n)) =
      .origin a :: rows.filter ListingItem.isEntry := by
  have hlater : ∀ n ∈ List.range' (a.toNat + 1) (finish - a.toNat - 1),
      session.entriesAt (UInt16.ofNat n) = session.labelledStatement (UInt16.ofNat n) := by
    intro n hn
    rw [List.mem_range'_1] at hn
    have hle := h.finish_le
    have hpositive : UInt16.ofNat n ≠ 0 := by
      intro hzero
      have hnat := Address.toNat_ofNat (n := n) (by omega)
      rw [hzero] at hnat
      change 0 = n at hnat
      omega
    have hnone : UInt16.ofNat n ∉ session.areaStarts := by
      rw [mem_areaStarts, Address.ofNat_sub_one (by omega)]
      rintro ⟨-, hzero | hfree⟩
      · exact hpositive hzero
      · exact hfree (h.assigned (n - 1) (by omega) (by omega))
    rw [entriesAt, if_neg hnone]
    rfl
  rw [h.entries, show finish - a.toNat = (finish - a.toNat - 1) + 1 by omega, List.range'_succ,
    List.flatMap_cons, List.flatMap_cons, List.flatMap_congr hlater, UInt16.ofNat_toNat, entriesAt,
    if_pos hstart]
  rfl

-- The layout shows what lies below its end, which is behind the areas of all labels in `done`.
structure Listed (session : Session) (done : List Label) (layout : ListingLayout) : Prop where
  finish_le : layout.finish ≤ 65536
  closed : 0 < layout.finish → layout.finish < 65536 →
    ¬session.memory.isAssigned (UInt16.ofNat layout.finish)
  passed : ∀ label ∈ done, label.isEqu = false → label.address.toNat < layout.finish
  entries : layout.items.toList.filter ListingItem.isEntry =
    (List.range layout.finish).flatMap fun n => session.entriesAt (UInt16.ofNat n)

theorem Listed.passed_append {done : List Label} {layout : ListingLayout}
    (h : session.Listed done layout) {label : Label} {finish : Nat} (hle : layout.finish ≤ finish)
    (hlabel : label.isEqu = false → label.address.toNat < finish) :
    ∀ other ∈ done ++ [label], other.isEqu = false → other.address.toNat < finish := by
  intro other hother hloaded
  rcases List.mem_append.mp hother with hold | hnew
  · exact Nat.lt_of_lt_of_le (h.passed other hold hloaded) hle
  · rw [List.mem_singleton.mp hnew] at hloaded ⊢
    exact hlabel hloaded

theorem range_eq_append {m n : Nat} (h : m ≤ n) :
    List.range n = List.range m ++ List.range' m (n - m) := by
  have happend := List.range'_append_1 (s := 0) (m := m) (n := n - m)
  rw [Nat.zero_add, Nat.add_sub_cancel' h] at happend
  rw [List.range_eq_range', List.range_eq_range', happend]

-- The area that begins at `a` is the next to show.
theorem Listed.entries_append {done : List Label} {layout : ListingLayout}
    (h : session.Listed done layout) {a : Address} {finish : Nat} {rows : List ListingItem}
    (hle : layout.finish ≤ a.toNat) (hlt : a.toNat < finish)
    (hfree : ∀ n, layout.finish ≤ n → n < a.toNat → ¬session.memory.isAssigned (UInt16.ofNat n))
    (hstart : a ∈ session.areaStarts) (hlaid : session.LaidOut a.toNat finish rows) :
    layout.items.toList.filter ListingItem.isEntry ++
        .origin a :: rows.filter ListingItem.isEntry =
      (List.range finish).flatMap fun n => session.entriesAt (UInt16.ofNat n) := by
  have hgap := session.flatMap_entriesAt_of_not_assigned layout.finish (a.toNat - layout.finish)
    fun n hlo hhi => hfree n hlo (by omega)
  rw [range_eq_append (Nat.le_of_lt hlt), range_eq_append hle, List.flatMap_append,
    List.flatMap_append, hgap, List.append_nil, hlaid.flatMap_entriesAt hlt hstart, h.entries]

namespace Arranged

variable {done : List Label} {layout : ListingLayout}

-- The area of each label before `bound` is laid out already.
theorem not_mem_areaStarts_of_listed (h : session.Arranged) (hlisted : session.Listed done layout)
    (bound : Nat)
    (hdone : ∀ label ∈ session.labels.live, label.address.toNat < bound → label ∈ done)
    {a : Address} (hlo : layout.finish ≤ a.toNat) (hhi : a.toNat < bound) :
    a ∉ session.areaStarts := by
  intro hstart
  obtain ⟨label, hat⟩ := h.started a hstart
  have haddress := h.wellFormed.address_eq hat
  have hequ : label.isEqu = false := by
    rw [h.isEqu_eq a label hat, ((session.mem_areaStarts a).mp hstart).1]
    rfl
  have hmem : label ∈ done :=
    hdone label (h.wellFormed.mem_live_of_at? hat) (by rw [haddress]; exact hhi)
  have hpassed := hlisted.passed label hmem hequ
  rw [haddress] at hpassed
  omega

-- Nothing is loaded between the end of the layout and the next label. By induction on the address:
-- the first one that is loaded would start an area.
theorem not_assigned_of_listed (h : session.Arranged) (hlisted : session.Listed done layout)
    (bound : Nat) (hbound : bound ≤ 65536)
    (hdone : ∀ label ∈ session.labels.live, label.address.toNat < bound → label ∈ done) (n : Nat)
    (hlo : layout.finish ≤ n) (hhi : n < bound) :
    ¬session.memory.isAssigned (UInt16.ofNat n) := by
  induction n with
  | zero =>
      intro hassigned
      apply h.not_mem_areaStarts_of_listed hlisted bound hdone (a := 0) hlo hhi
      exact (session.mem_areaStarts 0).mpr ⟨hassigned, .inl rfl⟩
  | succ n ih =>
      intro hassigned
      have hn : (UInt16.ofNat (n + 1)).toNat = n + 1 := Address.toNat_ofNat (by omega)
      have hbefore : ¬session.memory.isAssigned (UInt16.ofNat (n + 1) - 1) := by
        rw [Address.ofNat_sub_one (Nat.succ_pos n)]
        apply ih _ (by omega)
        by_contra hgap
        have hfinish : layout.finish = n + 1 := by omega
        rw [← hfinish] at hassigned
        exact hlisted.closed (by omega) (by omega) hassigned
      apply h.not_mem_areaStarts_of_listed hlisted bound hdone (by rw [hn]; exact hlo)
        (by rw [hn]; exact hhi)
      exact (session.mem_areaStarts _).mpr ⟨hassigned, .inr hbefore⟩

-- A label that is not part of an area before starts one.
theorem mem_areaStarts_of_listed (h : session.Arranged) (hlisted : session.Listed done layout)
    {label : Label} (hdone : ∀ other ∈ session.labels.live,
      other.address.toNat < label.address.toNat → other ∈ done)
    (hassigned : session.memory.isAssigned label.address)
    (hnew : layout.finish ≤ label.address.toNat) : label.address ∈ session.areaStarts := by
  have hlt : label.address.toNat < 65536 := label.address.toNat_lt
  rw [mem_areaStarts]
  refine ⟨hassigned, ?_⟩
  rcases Nat.eq_zero_or_pos label.address.toNat with hzero | hpos
  · exact .inl (UInt16.toNat_inj.mp hzero)
  · right
    have hfinish : layout.finish ≠ label.address.toNat := by
      intro heq
      apply hlisted.closed (by omega) (by omega)
      rw [heq, UInt16.ofNat_toNat]
      exact hassigned
    rw [← UInt16.ofNat_toNat (x := label.address), Address.ofNat_sub_one hpos]
    exact h.not_assigned_of_listed hlisted _ (by omega) hdone _ (by omega) (by omega)

-- A new area is laid out behind the others.
theorem listed_area (h : session.Arranged) (hlisted : session.Listed done layout) {label : Label}
    (hlabel : label ∈ session.labels.live)
    (hdone : ∀ other ∈ session.labels.live,
      other.address.toNat < label.address.toNat → other ∈ done)
    (hassigned : session.memory.isAssigned label.address)
    (hle : layout.finish ≤ label.address.toNat) (heading : List ListingItem)
    (hheading : heading.filter ListingItem.isEntry = [.origin label.address]) :
    let area := session.layOutArea label.address.toNat { spaced := true } (layout.items ++ heading)
    session.Listed (done ++ [label]) { finish := area.1, spaced := area.2.1, items := area.2.2 } := by
  have hlt : label.address.toNat < 65536 := label.address.toNat_lt
  have haligned : ¬session.Inside (UInt16.ofNat label.address.toNat) := by
    rw [UInt16.ofNat_toNat]
    exact h.outside _ label ((h.wellFormed.mem_live label).mp hlabel)
  obtain ⟨rows, hitems, hlaid⟩ := h.laidOut_layOutArea label.address.toNat { spaced := true }
    (layout.items ++ heading) (Nat.le_of_lt hlt) fun _ => haligned
  intro area
  have hbehind : label.address.toNat < area.1 := by
    refine Nat.lt_of_le_of_ne hlaid.start_le fun heq => ?_
    apply hlaid.closed (Nat.lt_of_le_of_lt (Nat.le_of_eq heq.symm) hlt)
    rw [← heq, UInt16.ofNat_toNat]
    exact hassigned
  have hfree := h.not_assigned_of_listed hlisted _ (Nat.le_of_lt hlt) hdone
  have hstart := h.mem_areaStarts_of_listed hlisted hdone hassigned hle
  refine ⟨hlaid.finish_le, fun _ => hlaid.closed, ?_, ?_⟩
  · exact hlisted.passed_append (Nat.le_of_lt (Nat.lt_of_le_of_lt hle hbehind)) fun _ => hbehind
  · rw [hitems, Array.toList_appendList, List.filter_append, List.filter_append, hheading,
      List.append_assoc]
    exact hlisted.entries_append hle hbehind hfree hstart hlaid

theorem listed_layOutLabel (h : session.Arranged) (hlisted : session.Listed done layout)
    {label : Label} {rest : List Label} (hlive : session.labels.live = done ++ label :: rest) :
    session.Listed (done ++ [label]) (session.layOutLabel layout label) := by
  have hmem : label ∈ session.labels.live := by simp [hlive]
  have hequ := h.isEqu_eq label.address label ((h.wellFormed.mem_live label).mp hmem)
  unfold layOutLabel
  split
  case isTrue hskip =>
      refine ⟨hlisted.finish_le, hlisted.closed, ?_, hlisted.entries⟩
      refine hlisted.passed_append (Nat.le_refl _) fun hloaded => ?_
      simpa [hloaded] using hskip
  case isFalse hnew =>
      have hle : layout.finish ≤ label.address.toNat := by simp_all
      have hassigned : session.memory.isAssigned label.address := by simp_all
      have hheading : ((if layout.spaced then [] else session.blockGap) ++
          [ListingItem.origin label.address]).filter ListingItem.isEntry =
          [.origin label.address] := by
        rw [List.filter_append]
        split
        · rfl
        · rw [entries_blockGap]
          rfl
      exact h.listed_area hlisted hmem (fun other => h.wellFormed.mem_of_address_lt hlive) hassigned
        hle _ hheading

theorem listed_foldl (h : session.Arranged) {rest : List Label}
    (hlisted : session.Listed done layout) (hlive : session.labels.live = done ++ rest) :
    session.Listed session.labels.live (rest.foldl session.layOutLabel layout) := by
  induction rest generalizing done layout with
  | nil =>
      rw [List.append_nil] at hlive
      rw [hlive]
      exact hlisted
  | cons label rest ih =>
      apply ih (h.listed_layOutLabel hlisted hlive)
      rw [hlive, List.append_assoc]
      rfl

-- The listing shows address by address what there is to show.
theorem entries_memoryItems (h : session.Arranged) :
    session.memoryItems.toList.filter ListingItem.isEntry =
      Address.all.flatMap session.entriesAt := by
  have hempty : session.Listed [] {} :=
    ⟨Nat.zero_le _, fun hpos => absurd hpos (Nat.lt_irrefl 0),
      fun label hlabel => absurd hlabel List.not_mem_nil, rfl⟩
  have hlisted := h.listed_foldl hempty (List.nil_append _).symm
  have hfree := h.not_assigned_of_listed hlisted _ (Nat.le_refl _) fun label hlabel _ => hlabel
  have hle := hlisted.finish_le
  rw [memoryItems, hlisted.entries, Address.all, List.flatMap_map, addressCount,
    range_eq_append hle, List.flatMap_append, flatMap_entriesAt_of_not_assigned, List.append_nil]
  intro n hlo hhi
  exact hfree n hlo (by omega)

theorem mem_memoryItems (h : session.Arranged) {item : ListingItem} (hentry : item.isEntry) :
    item ∈ session.memoryItems.toList ↔ ∃ a, item ∈ session.entriesAt a := by
  have hmem : item ∈ session.memoryItems.toList.filter ListingItem.isEntry ↔
      item ∈ session.memoryItems.toList ∧ item.isEntry := List.mem_filter
  rw [h.entries_memoryItems, List.mem_flatMap] at hmem
  constructor
  · intro hitem
    obtain ⟨a, -, ha⟩ := hmem.mpr ⟨hitem, hentry⟩
    exact ⟨a, ha⟩
  · rintro ⟨a, ha⟩
    exact (hmem.mp ⟨a, a.mem_all, ha⟩).1

-- The entries of an address stand together.
theorem exists_append_entriesAt (h : session.Arranged) (a : Address) :
    ∃ before after, session.memoryItems.toList.filter ListingItem.isEntry =
      before ++ (session.entriesAt a ++ after) := by
  obtain ⟨lower, upper, hall⟩ := List.append_of_mem a.mem_all
  refine ⟨lower.flatMap session.entriesAt, upper.flatMap session.entriesAt, ?_⟩
  rw [h.entries_memoryItems, hall, List.flatMap_append, List.flatMap_cons]

-- What is read from the entries of a listing is read address by address.
theorem filterMap_memoryItems (h : session.Arranged) {β : Type} (read : ListingItem → Option β)
    (hread : ∀ item, item.isEntry = false → read item = none) :
    session.memoryItems.toList.filterMap read =
      Address.all.flatMap fun a => (session.entriesAt a).filterMap read := by
  rw [← List.filterMap_flatMap, ← h.entries_memoryItems, List.filterMap_filter]
  apply List.filterMap_congr
  intro item _
  cases hentry : item.isEntry with
  | true => rfl
  | false => exact hread item hentry

theorem filterMap_memoryItems_eq_map (h : session.Arranged) {β : Type}
    (read : ListingItem → Option β) (hread : ∀ item, item.isEntry = false → read item = none)
    (shown : Address → Prop) [DecidablePred shown] (value : Address → β)
    (hentries : ∀ a, (session.entriesAt a).filterMap read = if shown a then [value a] else []) :
    session.memoryItems.toList.filterMap read = (Address.all.filter (shown ·)).map value := by
  rw [h.filterMap_memoryItems read hread]
  induction Address.all with
  | nil => rfl
  | cons a rest ih =>
      rw [List.flatMap_cons, ih, hentries]
      by_cases hshown : shown a <;> simp [hshown]

end Arranged

end Session

end Z80Atlas
