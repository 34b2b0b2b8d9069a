import Z80Atlas.Proofs.Analysis.Origin

namespace Z80Atlas

theorem Address.next?_eq_some_iff (a b : Address) (size : Nat) :
    a.next? size = some b ↔ a.toNat + size = b.toNat := by
  have hb := b.toNat_lt
  by_cases hfits : a.toNat + size < addressCount
  · simp [next?, hfits, ← UInt16.toNat_inj, Nat.mod_eq_of_lt hfits]
  · simp only [next?, hfits, if_false, reduceCtorEq, false_iff]
    omega

namespace Session

def EndsInSpace (session : Session) : Prop :=
  ∀ f, session.memory.isFirst f → f.toNat + (session.instructionAt f).size ≤ 65536

-- Code that can be entered from outside only: nothing names it, it is not where a snapshot starts, and
-- no instruction falls into it.
structure Unentered (session : Session) (x : Address) : Prop where
  first : session.memory.isFirst x
  unlabelled : session.labels.at? x = none
  unstarted : session.snapshotStart ≠ some x
  unreached : ∀ p, session.memory.isFirst p → ¬(session.instructionAt p).flow.stop →
    p.next? (session.instructionAt p).size ≠ some x

-- The last instruction that begins below `n`, with nothing but code from there up to `n`.
structure LastBegun (session : Session) (n : Nat) (f : Address) : Prop where
  lt : f.toNat < n
  first : session.memory.isFirst f
  behind : ∀ x : Address, f.toNat < x.toNat → x.toNat < n →
    session.memory.isCode x ∧ ¬session.memory.isFirst x

def EndsInCode (session : Session) (n : Nat) : Prop :=
  ∃ y : Address, y.toNat + 1 = n ∧ session.memory.isAssigned y ∧ session.memory.isCode y

theorem lastBegun_succ_iff (session : Session) (x f : Address) :
    session.LastBegun (x.toNat + 1) f ↔
      f = x ∧ session.memory.isFirst x ∨
      ¬session.memory.isFirst x ∧ session.memory.isCode x ∧ session.LastBegun x.toNat f := by
  constructor
  · rintro ⟨hlt, hfirst, hbehind⟩
    by_cases heq : f = x
    · exact .inl ⟨heq, heq ▸ hfirst⟩
    · have hne : f.toNat ≠ x.toNat := fun hnat => heq (UInt16.toNat_inj.mp hnat)
      obtain ⟨hcode, hlater⟩ := hbehind x (by omega) (by omega)
      exact .inr ⟨hlater, hcode, by omega, hfirst, fun z hz hzx => hbehind z hz (by omega)⟩
  · rintro (⟨rfl, hfirst⟩ | ⟨hlater, hcode, hlt, hfirst, hbehind⟩)
    · exact ⟨by omega, hfirst, fun z hz hzf => by omega⟩
    · refine ⟨by omega, hfirst, fun z hz hzx => ?_⟩
      by_cases heq : z = x
      · exact heq ▸ ⟨hcode, hlater⟩
      · have hne : z.toNat ≠ x.toNat := fun hnat => heq (UInt16.toNat_inj.mp hnat)
        exact hbehind z hz (by omega)

section Tiled

variable {session : Session} {f p x : Address}

theorem EndsInSpace.mem_extent_iff (h : session.EndsInSpace) (hf : session.memory.isFirst f) :
    x ∈ session.extent f ↔
      f.toNat ≤ x.toNat ∧ x.toNat < f.toNat + (session.instructionAt f).size := by
  have hspace := h f hf
  constructor
  · rintro ⟨i, hi, rfl⟩
    rw [Address.toNat_plus, Nat.mod_eq_of_lt (by omega)]
    omega
  · rintro ⟨hle, hlt⟩
    refine ⟨x.toNat - f.toNat, by omega, ?_⟩
    have hx := UInt16.toNat_lt x
    rw [← UInt16.toNat_inj, Address.toNat_plus, Nat.mod_eq_of_lt (by omega)]
    omega

-- Where an instruction begins right behind code, another one ends.
theorem Tiled.exists_next (h : session.Tiled) (hspace : session.EndsInSpace)
    (hx : session.memory.isFirst x) (hcode : session.EndsInCode x.toNat) :
    ∃ f, session.memory.isFirst f ∧ f.next? (session.instructionAt f).size = some x := by
  obtain ⟨y, hy, -, hycode⟩ := hcode
  obtain ⟨f, ⟨hf, hyf⟩, -⟩ := h.covered y hycode
  refine ⟨f, hf, ?_⟩
  rw [Address.next?_eq_some_iff]
  rw [hspace.mem_extent_iff hf] at hyf
  -- otherwise `x` would lie inside of the instruction that covers `y`
  by_contra hne
  have hxf : x ∈ session.extent f := by
    rw [hspace.mem_extent_iff hf]
    omega
  have heq := h.first_of_extent f hf x hxf hx
  rw [heq] at hy
  omega

-- The instruction that ends at `x` is the last one that begins before it.
theorem Tiled.lastBegun_of_next (h : session.Tiled) (hspace : session.EndsInSpace)
    (hp : session.memory.isFirst p)
    (hnext : p.next? (session.instructionAt p).size = some x) :
    session.LastBegun x.toNat p := by
  rw [Address.next?_eq_some_iff] at hnext
  have hpos := (session.instructionAt p).size_pos
  refine ⟨by omega, hp, fun z hlt hz => ?_⟩
  have hzp : z ∈ session.extent p := by
    rw [hspace.mem_extent_iff hp]
    omega
  refine ⟨h.code_of_extent p hp z hzp, fun hfirst => ?_⟩
  have heq := h.first_of_extent p hp z hzp hfirst
  rw [heq] at hlt
  omega

theorem Tiled.endsInCode_of_next (h : session.Tiled) (hspace : session.EndsInSpace)
    (hp : session.memory.isFirst p)
    (hnext : p.next? (session.instructionAt p).size = some x) : session.EndsInCode x.toNat := by
  rw [Address.next?_eq_some_iff] at hnext
  have hpos := (session.instructionAt p).size_pos
  have hx := UInt16.toNat_lt x
  have hy : (UInt16.ofNat (x.toNat - 1)).toNat = x.toNat - 1 := by
    rw [UInt16.toNat_ofNat', Nat.mod_eq_of_lt (by omega)]
  have hcode := h.code_of_extent p hp (UInt16.ofNat (x.toNat - 1)) (by
    rw [hspace.mem_extent_iff hp, hy]
    omega)
  exact ⟨_, by omega, h.assigned_of_code _ hcode, hcode⟩

end Tiled

end Session

namespace EntryScan

structure Knows (session : Session) (n : Nat) (scan : EntryScan) : Prop where
  previous : scan.previous.assigned ∧ scan.previous.code ↔ session.EndsInCode n
  lastFirst : ∀ f, scan.lastFirst = some f ↔ session.LastBegun n f
  descending : scan.found.Pairwise fun a b => b.toNat < a.toNat
  found : ∀ x, x ∈ scan.found ↔ x.toNat < n ∧ session.Unentered x

section Knows

variable {session : Session} {scan : EntryScan} {x : Address}

-- The little that a scan keeps is enough to tell an entry: of the code in front of an address, only the
-- last instruction can fall into it.
theorem Knows.isInterruptEntry_iff (h : scan.Knows session x.toNat) (htiled : session.Tiled)
    (hspace : session.EndsInSpace) :
    session.isInterruptEntry scan x ↔ session.Unentered x := by
  have hentry : session.isInterruptEntry scan x ↔ session.snapshotStart ≠ some x ∧
      session.memory.isFirst x ∧ session.memory.isAssigned x ∧ session.labels.at? x = none ∧
      (¬session.EndsInCode x.toNat ∨
        ∃ f, session.LastBegun x.toNat f ∧ (session.instructionAt f).flow.stop) := by
    simp only [← h.previous, ← h.lastFirst]
    simp [Session.isInterruptEntry, Memory.marks, Memory.isFirst, Memory.isAssigned,
      LabelStore.hasLabel, and_assoc, imp_iff_not_or, Option.any_eq_true]
  rw [hentry]
  constructor
  · rintro ⟨hstart, hfirst, -, hfree, hbefore⟩
    refine ⟨hfirst, hfree, hstart, fun p hp hruns hnext => ?_⟩
    rcases hbefore with hgap | ⟨f, hf, hstop⟩
    · exact hgap (htiled.endsInCode_of_next hspace hp hnext)
    · have hsome := (h.lastFirst p).mpr (htiled.lastBegun_of_next hspace hp hnext)
      rw [(h.lastFirst f).mpr hf] at hsome
      cases hsome
      exact hruns hstop
  · intro hx
    have hassigned := htiled.assigned_of_code x (htiled.code_of_first x hx.first)
    refine ⟨hx.unstarted, hx.first, hassigned, hx.unlabelled, ?_⟩
    by_cases hcode : session.EndsInCode x.toNat
    · obtain ⟨f, hf, hnext⟩ := htiled.exists_next hspace hx.first hcode
      refine .inr ⟨f, htiled.lastBegun_of_next hspace hf hnext, ?_⟩
      by_contra hruns
      exact hx.unreached f hf hruns hnext
    · exact .inl hcode

theorem knows_empty (session : Session) : Knows session 0 {} where
  previous := by simp [Session.EndsInCode]
  lastFirst f := by
    refine iff_of_false (by simp) fun h => ?_
    exact absurd h.lt (by omega)
  descending := by simp
  found := by simp

theorem mem_found_scanEntry (session : Session) (scan : EntryScan) (x z : Address) :
    z ∈ (session.scanEntry scan x).found ↔
      z = x ∧ session.isInterruptEntry scan x ∨ z ∈ scan.found := by
  by_cases hentry : session.isInterruptEntry scan x <;> simp [Session.scanEntry, hentry]

theorem Knows.scanEntry (h : scan.Knows session x.toNat) (htiled : session.Tiled)
    (hspace : session.EndsInSpace) :
    (session.scanEntry scan x).Knows session (x.toNat + 1) := by
  have hentry := h.isInterruptEntry_iff htiled hspace
  have hbelow : ∀ z : Address, z.toNat < x.toNat + 1 ↔ z = x ∨ z.toNat < x.toNat := by
    intro z
    rw [← UInt16.toNat_inj]
    omega
  constructor
  · constructor
    · rintro ⟨hassigned, hcode⟩
      exact ⟨x, rfl, hassigned, hcode⟩
    · rintro ⟨y, hy, hassigned, hcode⟩
      have heq : y = x := UInt16.toNat_inj.mp (by omega)
      exact heq ▸ ⟨hassigned, hcode⟩
  · intro f
    rw [session.lastBegun_succ_iff, ← h.lastFirst]
    simp only [Session.scanEntry, Memory.marks]
    change (if session.memory.isFirst x then some x
      else if session.memory.isCode x then scan.lastFirst else none) = some f ↔ _
    by_cases hfirst : session.memory.isFirst x
    · rw [if_pos hfirst, Option.some.injEq, eq_comm]
      simp [hfirst]
    · by_cases hcode : session.memory.isCode x <;> simp [hfirst, hcode]
  · simp only [Session.scanEntry]
    split
    · refine List.pairwise_cons.mpr ⟨fun z hz => ?_, h.descending⟩
      exact ((h.found z).mp hz).1
    · exact h.descending
  · intro z
    rw [mem_found_scanEntry, h.found, hentry, hbelow]
    constructor
    · rintro (⟨rfl, hin⟩ | ⟨hz, hin⟩)
      · exact ⟨.inl rfl, hin⟩
      · exact ⟨.inr hz, hin⟩
    · rintro ⟨rfl | hz, hin⟩
      · exact .inl ⟨rfl, hin⟩
      · exact .inr ⟨hz, hin⟩

-- The induction is on the number of addresses that the scan has seen.
theorem knows_scan (session : Session) (htiled : session.Tiled) (hspace : session.EndsInSpace)
    (n : Nat) (hn : n ≤ 65536) :
    (((List.range n).map UInt16.ofNat).foldl session.scanEntry {}).Knows session n := by
  induction n with
  | zero => exact knows_empty session
  | succ n ih =>
      have hnat : (UInt16.ofNat n).toNat = n := by
        rw [UInt16.toNat_ofNat', Nat.mod_eq_of_lt (by omega)]
      have hknows := ih (by omega)
      rw [List.range_succ, List.map_append, List.foldl_append]
      rw [← hnat] at hknows
      have hstep := hknows.scanEntry htiled hspace
      rw [hnat] at hstep
      exact hstep

end Knows

end EntryScan

namespace Session

theorem mem_interruptEntries_iff (session : Session) (htiled : session.Tiled)
    (hspace : session.EndsInSpace) (x : Address) :
    x ∈ session.interruptEntries ↔ session.Unentered x := by
  have hknows := EntryScan.knows_scan session htiled hspace addressCount le_rfl
  rw [interruptEntries, List.mem_reverse, Address.all, hknows.found]
  exact and_iff_right x.toNat_lt

theorem interruptEntries_ascending (session : Session) (htiled : session.Tiled)
    (hspace : session.EndsInSpace) :
    session.interruptEntries.Pairwise fun a b => a.toNat < b.toNat := by
  have hknows := EntryScan.knows_scan session htiled hspace addressCount le_rfl
  rw [interruptEntries, List.pairwise_reverse]
  exact hknows.descending

def entryLabel (id : LabelId) (address : Address) (name : String) : Label :=
  { id, address, kind := .label, name := some name, isFixed := true }

structure EntriesLabelled (session other : Session) (name : Nat → String) (entries : List Address) :
    Prop where
  ground : other.ground = session.ground
  at?_entry : ∀ i a, entries[i]? = some a →
    other.labels.at? a = some (entryLabel (session.labels.nextId + i) a (name i))
  at?_of_notMem : ∀ b, b ∉ entries → other.labels.at? b = session.labels.at? b
  get?_of_lt : ∀ id < session.labels.nextId, other.labels.get? id = session.labels.get? id

section FixEntries

variable {session : Session} {a : Address}

theorem labels_fixLabel_of_free (hwf : session.labels.WellFormed)
    (hfree : session.labels.at? a = none) (name : Option String) :
    ∃ change : Label → Label, (session.fixLabel a name).labels =
      (session.labels.insert a .label).modify session.labels.nextId change := by
  have hid : session.labels.idAt? a = none := by
    by_contra hsome
    obtain ⟨id, hid⟩ := Option.ne_none_iff_exists'.mp hsome
    obtain ⟨label, hlabel, -, -⟩ := hwf.exists_at? hid
    rw [hfree] at hlabel
    cases hlabel
  have hnew : (session.labels.insert a .label).idAt? a = some session.labels.nextId := by
    rw [LabelStore.idAt?_insert, if_pos rfl]
  unfold fixLabel
  rw [hid]
  dsimp only
  rw [LabelStore.modifyAt, hnew]
  split
  · exact ⟨_, rfl⟩
  · exact ⟨_, rfl⟩

theorem nextId_fixLabel_of_free (hwf : session.labels.WellFormed)
    (hfree : session.labels.at? a = none) (name : Option String) :
    (session.fixLabel a name).labels.nextId = session.labels.nextId + 1 := by
  obtain ⟨change, heq⟩ := labels_fixLabel_of_free hwf hfree name
  simp [heq, LabelStore.nextId, LabelStore.modify, LabelStore.insert]

theorem get?_fixLabel_of_free (hwf : session.labels.WellFormed)
    (hfree : session.labels.at? a = none) (name : Option String) {id : LabelId}
    (hlt : id < session.labels.nextId) :
    (session.fixLabel a name).labels.get? id = session.labels.get? id := by
  obtain ⟨change, heq⟩ := labels_fixLabel_of_free hwf hfree name
  rw [heq, LabelStore.get?_modify, if_neg (Nat.ne_of_gt hlt), LabelStore.get?_insert,
    if_neg (Nat.ne_of_lt hlt)]

theorem fixedLabel_of_free (hfree : session.labels.at? a = none)
    (hassigned : session.memory.isAssigned a) (name : String) :
    session.fixedLabel a (some name) = entryLabel session.labels.nextId a name := by
  rw [fixedLabel, labelOr_of_none hfree]
  simp [entryLabel, hassigned]

-- One entry is labelled, and the rest of them after it.
theorem EntriesLabelled.cons {other : Session} {name : Nat → String} {rest : List Address}
    (hwf : session.labels.WellFormed) (hfree : session.labels.at? a = none)
    (hassigned : session.memory.isAssigned a) (hnew : a ∉ rest)
    (h : (session.fixLabel a (some (name 0))).EntriesLabelled other (fun i => name (i + 1)) rest) :
    session.EntriesLabelled other name (a :: rest) := by
  have hplaced := session.placed_fixLabel hwf a (some (name 0))
  have hnext := nextId_fixLabel_of_free hwf hfree (some (name 0))
  refine ⟨h.ground.trans hplaced.ground, ?_, ?_, ?_⟩
  · intro i b hb
    cases i with
    | zero =>
        obtain rfl : a = b := by simpa using hb
        rw [h.at?_of_notMem a hnew, hplaced.at?_self, fixedLabel_of_free hfree hassigned]
        rfl
    | succ i =>
        rw [List.getElem?_cons_succ] at hb
        rw [h.at?_entry i b hb, hnext, Nat.add_right_comm, Nat.add_assoc]
  · intro b hb
    rw [List.mem_cons, not_or] at hb
    rw [h.at?_of_notMem b hb.2, hplaced.at?_of_ne (Ne.symm hb.1)]
  · intro id hlt
    rw [h.get?_of_lt id (hnext ▸ Nat.lt_succ_of_lt hlt), get?_fixLabel_of_free hwf hfree _ hlt]

theorem entriesLabelled_fixLabels (name : Nat → String) (entries : List Address) (k : Nat)
    (session : Session) (hwf : session.labels.WellFormed) (hnodup : entries.Nodup)
    (hentries : ∀ a ∈ entries, session.memory.isAssigned a ∧ session.labels.at? a = none) :
    session.EntriesLabelled
      ((entries.zipIdx k).foldl (fun session (address, index) =>
        session.fixLabel address (some (name index))) session)
      (fun i => name (k + i)) entries := by
  induction entries generalizing session k with
  | nil => exact ⟨rfl, by simp, fun b _ => rfl, fun id _ => rfl⟩
  | cons a rest ih =>
      obtain ⟨hnew, hnodup⟩ := List.nodup_cons.mp hnodup
      obtain ⟨hassigned, hfree⟩ := hentries a List.mem_cons_self
      have hplaced := session.placed_fixLabel hwf a (some (name k))
      have hrest := ih (k + 1) (session.fixLabel a (some (name k))) hplaced.wellFormed hnodup (by
        intro b hb
        have hne : a ≠ b := by
          rintro rfl
          exact hnew hb
        rw [memory_of_ground hplaced.ground, hplaced.at?_of_ne hne]
        exact hentries b (List.mem_cons_of_mem a hb))
      refine EntriesLabelled.cons hwf hfree hassigned hnew ?_
      simpa only [List.zipIdx_cons, List.foldl_cons, Nat.add_zero, Nat.add_assoc,
        Nat.add_comm 1] using hrest

end FixEntries

theorem EntriesLabelled.note {session other : Session} {name : Nat → String}
    {entries : List Address} (h : session.EntriesLabelled other name entries) (text : String) :
    session.EntriesLabelled (other.note text) name entries :=
  ⟨h.ground, h.at?_entry, h.at?_of_notMem, h.get?_of_lt⟩

def entryName (session : Session) (count index : Nat) : String :=
  if count > 1 then session.config.stems.interrupt ++ Text.decimal (index + 1)
  else session.config.stems.interrupt

theorem entriesLabelled_labelInterrupts (session : Session) (hwf : session.labels.WellFormed)
    (hnodup : session.interruptEntries.Nodup) :
    session.EntriesLabelled session.labelInterrupts
      (session.entryName session.interruptEntries.length) session.interruptEntries := by
  have h := entriesLabelled_fixLabels (session.entryName session.interruptEntries.length)
    session.interruptEntries 0 session hwf hnodup fun a ha => (mem_interruptEntries ha).2
  simp only [Nat.zero_add] at h
  rw [labelInterrupts]
  exact h.note _

-- Code that nothing names and nothing falls into, and nothing else, gets a fixed jump label. The labels
-- are numbered in ascending order of address, unless there is one only; other labels and what is known
-- of the memory stay as they were.
theorem labelInterrupts_labels_unentered (session : Session) (hwf : session.labels.WellFormed)
    (htiled : session.Tiled) (hspace : session.EndsInSpace) :
    (∀ x, session.labels.at? x = none ∧ session.labelInterrupts.labels.at? x ≠ none ↔
      session.Unentered x) ∧
    (∃ entries : List Address, (entries.Pairwise fun a b => a.toNat < b.toNat) ∧
      (∀ x, x ∈ entries ↔ session.Unentered x) ∧
      ∀ i x, entries[i]? = some x → session.labelInterrupts.labels.at? x = some
        { id := session.labels.nextId + i
          address := x
          kind := .label
          name := some (if entries.length = 1 then session.config.stems.interrupt
            else session.config.stems.interrupt ++ Text.decimal (i + 1))
          isFixed := true }) ∧
    (∀ x label, session.labels.at? x = some label →
      session.labelInterrupts.labels.at? x = some label) ∧
    (∀ id label, session.labels.get? id = some label →
      session.labelInterrupts.labels.get? id = some label) ∧
    session.labelInterrupts.memory = session.memory := by
  have hmem := session.mem_interruptEntries_iff htiled hspace
  have hascending := session.interruptEntries_ascending htiled hspace
  have hnodup : session.interruptEntries.Nodup := by
    refine hascending.imp ?_
    rintro a b hlt rfl
    omega
  have h := session.entriesLabelled_labelInterrupts hwf hnodup
  refine ⟨fun x => ?_, ⟨session.interruptEntries, hascending, hmem, fun i x hx => ?_⟩, ?_, ?_,
    memory_of_ground h.ground⟩
  · constructor
    · rintro ⟨hfree, hmade⟩
      by_contra hx
      rw [h.at?_of_notMem x (mt (hmem x).mp hx)] at hmade
      exact hmade hfree
    · intro hx
      obtain ⟨i, hi⟩ := List.mem_iff_getElem?.mp ((hmem x).mpr hx)
      exact ⟨hx.unlabelled, by simp [h.at?_entry i x hi]⟩
  · have hlt := (List.getElem?_eq_some_iff.mp hx).1
    rw [h.at?_entry i x hx, entryLabel, entryName]
    by_cases hone : session.interruptEntries.length = 1
    · simp [hone]
    · have hmany : session.interruptEntries.length > 1 := by omega
      simp [hone, hmany]
  · intro x label hat
    rw [h.at?_of_notMem x, hat]
    intro hx
    have hfree := ((hmem x).mp hx).unlabelled
    rw [hat] at hfree
    cases hfree
  · intro id label hget
    have hlt : id < session.labels.nextId := (Array.getElem?_eq_some_iff.mp hget).1
    rw [h.get?_of_lt id hlt, hget]

-- A NOP that falls into a return, and a second return behind it.
def hiddenReturn : Session :=
  { memory := (((Memory.empty.load 0x8000 [0x00, 0xC9, 0xC9]).markInstruction 0x8000 1).markInstruction
      0x8001 1).markInstruction 0x8002 1 }

theorem marks_hiddenReturn (x : Address) :
    (hiddenReturn.memory.isFirst x ↔ x = 0x8002 ∨ x = 0x8001 ∨ x = 0x8000) ∧
    (hiddenReturn.memory.isCode x ↔ x = 0x8002 ∨ x = 0x8001 ∨ x = 0x8000) ∧
    (hiddenReturn.memory.isAssigned x ↔ x = 0x8002 ∨ x = 0x8001 ∨ x = 0x8000) := by
  have hclean := Memory.unclassified_load _ Memory.unclassified_empty 0x8000 [0x00, 0xC9, 0xC9] x
  refine ⟨?_, ?_, ?_⟩
  · simp [hiddenReturn, Memory.isFirst_markInstruction, hclean.2]
  · simp [hiddenReturn, Memory.isCode_markInstruction, Address.plus_zero, hclean.1]
  · rw [hiddenReturn, Memory.isAssigned_markInstruction, Memory.isAssigned_markInstruction,
      Memory.isAssigned_markInstruction]
    simp [Memory.load, Memory.storeAll, Memory.store, Memory.isAssigned, Memory.empty]

theorem instructionAt_hiddenReturn :
    (∀ f, hiddenReturn.memory.isFirst f → (hiddenReturn.instructionAt f).size = 1) ∧
    ((hiddenReturn.instructionAt 0x8000).flow.stop = false) ∧
    (hiddenReturn.instructionAt 0x8001).flow.stop ∧
    (hiddenReturn.instructionAt 0x8002).flow.stop := by
  have hbyte : ∀ a, hiddenReturn.memory.byte a =
      (Memory.empty.load 0x8000 [0x00, 0xC9, 0xC9]).byte a := fun a => by
    rw [hiddenReturn, Memory.byte_markInstruction, Memory.byte_markInstruction,
      Memory.byte_markInstruction]
  have hbytes : hiddenReturn.memory.byte 0x8000 = 0x00 ∧ hiddenReturn.memory.byte 0x8001 = 0xC9 ∧
      hiddenReturn.memory.byte 0x8002 = 0xC9 := by
    rw [hbyte, hbyte, hbyte]
    simp [Memory.load, Memory.storeAll, Memory.byte_store]
  have hnop := instructionAt_eq_mainPage rfl hbytes.1 (by decide)
  have hreturn := instructionAt_eq_mainPage rfl hbytes.2.1 (by decide)
  have hsecond := instructionAt_eq_mainPage rfl hbytes.2.2 (by decide)
  refine ⟨?_, by rw [hnop]; rfl, by rw [hreturn]; rfl, by rw [hsecond]; rfl⟩
  intro f hf
  rcases (marks_hiddenReturn f).1.mp hf with rfl | rfl | rfl
  · rw [hsecond]
    rfl
  · rw [hreturn]
    rfl
  · rw [hnop]
    rfl

theorem tiled_hiddenReturn : hiddenReturn.Tiled := by
  have hextent : ∀ f, hiddenReturn.memory.isFirst f → ∀ x, x ∈ hiddenReturn.extent f ↔ x = f := by
    intro f hf x
    simp [extent, instructionAt_hiddenReturn.1 f hf, Address.plus_zero]
  have hmarks := marks_hiddenReturn
  constructor
  · exact fun f hf => (hmarks f).2.1.mpr ((hmarks f).1.mp hf)
  · exact fun x hx => (hmarks x).2.2.mpr ((hmarks x).2.1.mp hx)
  · intro x hx
    have hfirst := (hmarks x).1.mpr ((hmarks x).2.1.mp hx)
    refine ⟨x, ⟨hfirst, (hextent x hfirst x).mpr rfl⟩, ?_⟩
    rintro f ⟨hf, hxf⟩
    exact ((hextent f hf x).mp hxf).symm
  · intro f hf x hx
    rw [(hextent f hf x).mp hx]
    exact (hmarks f).2.1.mpr ((hmarks f).1.mp hf)
  · exact fun f hf x hx _ => (hextent f hf x).mp hx

theorem unentered_hiddenReturn (x : Address) :
    hiddenReturn.Unentered x ↔ x = 0x8000 ∨ x = 0x8002 := by
  obtain ⟨hsize, hruns, hstops, hstops'⟩ := instructionAt_hiddenReturn
  have hfree : ∀ a, hiddenReturn.labels.at? a = none := by
    simp [LabelStore.at?, LabelStore.idAt?, hiddenReturn]
  constructor
  · intro h
    rcases (marks_hiddenReturn x).1.mp h.first with rfl | rfl | rfl
    · exact .inr rfl
    · have hnop : hiddenReturn.memory.isFirst 0x8000 := (marks_hiddenReturn _).1.mpr (by decide)
      refine absurd ?_ (h.unreached 0x8000 hnop (by simp [hruns]))
      rw [hsize _ hnop]
      decide
    · exact .inl rfl
  · intro hx
    have hfirst : x = 0x8002 ∨ x = 0x8001 ∨ x = 0x8000 := by
      rcases hx with rfl | rfl <;> decide
    refine ⟨(marks_hiddenReturn x).1.mpr hfirst, hfree x, by simp [hiddenReturn], ?_⟩
    intro p hp hfalls hnext
    rw [hsize p hp] at hnext
    rcases (marks_hiddenReturn p).1.mp hp with rfl | rfl | rfl
    · exact hfalls hstops'
    · exact hfalls hstops
    · rcases hx with rfl | rfl <;> exact absurd hnext (by decide)

theorem labelInterrupts_labels_unentered_hidden_return :
    hiddenReturn.labels.WellFormed ∧ hiddenReturn.Tiled ∧ hiddenReturn.EndsInSpace ∧
      (∃ label, hiddenReturn.labelInterrupts.labels.at? 0x8000 = some label ∧
        label.kind = .label ∧ label.isFixed ∧ label.name = some "INTRPT1") ∧
      (∃ label, hiddenReturn.labelInterrupts.labels.at? 0x8002 = some label ∧
        label.kind = .label ∧ label.isFixed ∧ label.name = some "INTRPT2") ∧
      hiddenReturn.labelInterrupts.labels.at? 0x8001 = none := by
  have hwf : hiddenReturn.labels.WellFormed := LabelStore.wellFormed_empty
  have hspace : hiddenReturn.EndsInSpace := by
    intro f hf
    rw [instructionAt_hiddenReturn.1 f hf]
    exact f.toNat_lt
  obtain ⟨hiff, ⟨entries, hascending, hmem, hlabel⟩, -⟩ :=
    labelInterrupts_labels_unentered hiddenReturn hwf tiled_hiddenReturn hspace
  have hentries : entries = [0x8000, 0x8002] := by
    refine List.Perm.eq_of_pairwise ?_ hascending (by decide) ?_
    · intro a b _ _ hab hba
      omega
    · refine (List.perm_ext_iff_of_nodup (hascending.imp ?_) (by decide)).mpr fun x => ?_
      · rintro a b hlt rfl
        omega
      · rw [hmem, unentered_hiddenReturn]
        simp
  subst hentries
  refine ⟨hwf, tiled_hiddenReturn, hspace, ⟨_, hlabel 0 _ rfl, rfl, rfl, ?_⟩,
    ⟨_, hlabel 1 _ rfl, rfl, rfl, ?_⟩, ?_⟩
  · decide
  · decide
  · by_contra hmade
    have hentered := (unentered_hiddenReturn 0x8001).mp ((hiff 0x8001).mp ⟨rfl, hmade⟩)
    exact absurd hentered (by decide)

end Session

end Z80Atlas
