import Z80Atlas.Proofs.Discovery.Tiling
import Z80Atlas.Proofs.Session.Labelling
import Z80Atlas.Proofs.Symbol.Live

namespace Z80Atlas

namespace Address

theorem toNat_plus (a : Address) (i : Nat) : (a.plus i).toNat = (a.toNat + i) % 65536 := by
  rw [plus, UInt16.toNat_add, UInt16.toNat_ofNat']
  omega

theorem plus_sub (a : Address) {i j : Nat} (h : j ≤ i) :
    a.plus i - UInt16.ofNat j = a.plus (i - j) := by
  have hi : i = (i - j) + j := by omega
  conv_lhs => rw [hi, plus, UInt16.ofNat_add, ← UInt16.add_assoc, UInt16.add_sub_cancel]
  rfl

theorem plus_ne_self (a : Address) {i : Nat} (hpos : 0 < i) (hi : i < 65536) : a.plus i ≠ a := by
  intro heq
  have hnat := a.toNat_plus i
  have ha := a.toNat_lt
  rw [heq] at hnat
  omega

end Address

namespace Session

def Inside (session : Session) (address : Address) : Prop :=
  session.memory.isCode address ∧ ¬session.memory.isFirst address

theorem isInside_iff (session : Session) (label : Label) :
    session.isInside label ↔ session.Inside label.address := by
  simp [isInside, Inside]

end Session

-- The marks divide the code into ranges of up to five bytes, one from each beginning on.
@[mk_iff]
structure Memory.TiledBy (memory : Memory) (length : Address → Nat) : Prop where
  bounded : ∀ f, memory.isFirst f → 0 < length f ∧ length f ≤ 5
  isCode_iff : ∀ x, memory.isCode x ↔ ∃ f, memory.isFirst f ∧ x ∈ f.range (length f)
  unique : ∀ f g x, memory.isFirst f → memory.isFirst g →
    x ∈ f.range (length f) → x ∈ g.range (length g) → f = g

theorem Memory.TiledBy.first_of_range {memory : Memory} {length : Address → Nat}
    (h : memory.TiledBy length) {f x : Address} (hf : memory.isFirst f)
    (hx : x ∈ f.range (length f)) (hfirst : memory.isFirst x) : x = f := by
  have hself : x ∈ x.range (length x) :=
    (x.mem_range x _).mpr ⟨0, (h.bounded x hfirst).1, x.plus_zero.symm⟩
  exact h.unique x f x hfirst hf hself hx

namespace Session

theorem Tiled.tiledBy {session : Session} (h : session.Tiled)
    (hregular : session.decoder.Regular) :
    session.memory.TiledBy fun f => (session.instructionAt f).size := by
  have hsize : ∀ f, (session.instructionAt f).size ≤ 4 := fun f =>
    (hregular session.memory f).size_le
  simp only [Memory.tiledBy_iff, ← mem_extent_iff_mem_range]
  refine ⟨?_, ?_, ?_⟩
  · intro f _
    exact ⟨Instruction.size_pos _, Nat.le_succ_of_le (hsize f)⟩
  · intro x
    constructor
    · exact fun hx => (h.covered x hx).exists
    · rintro ⟨f, hf, hx⟩
      exact h.code_of_extent f hf x hx
  · intro f g x hf hg hxf hxg
    exact (h.covered x (h.code_of_extent f hf x hxf)).unique ⟨hf, hxf⟩ ⟨hg, hxg⟩

-- The last beginning of an instruction before a later byte is that of its own: the search goes back
-- four bytes, and no instruction is longer than five.
theorem instructionStart?_of_tiledBy {session : Session} {length : Address → Nat}
    (h : session.memory.TiledBy length) {f x : Address} (hf : session.memory.isFirst f)
    (hx : x ∈ f.range (length f)) (hlater : ¬session.memory.isFirst x) :
    session.instructionStart? x = some f := by
  have hlength := (h.bounded f hf).2
  obtain ⟨i, hi, rfl⟩ := (f.mem_range x _).mp hx
  have hgap : ∀ j, 0 < j → j < i → session.memory.isFirst (f.plus j) = false := by
    intro j hpos hj
    rw [Bool.eq_false_iff]
    intro hfirst
    apply f.plus_ne_self hpos (by omega)
    exact h.first_of_range hf ((f.mem_range _ _).mpr ⟨j, by omega, rfl⟩) hfirst
  have hsub : ∀ j, j ≤ i → f.plus i - UInt16.ofNat j = f.plus (i - j) := fun _ hj => f.plus_sub hj
  unfold Session.instructionStart?
  match i, hi, hgap, hsub with
  | 0, _, _, _ =>
      rw [Address.plus_zero] at hlater
      exact absurd hf hlater
  | 1, _, _, hsub =>
      have h1 : f.plus 1 - 1 = f.plus 0 := hsub 1 (by omega)
      simp [h1, hf, Address.plus_zero]
  | 2, _, hgap, hsub =>
      have h1 : f.plus 2 - 1 = f.plus 1 := hsub 1 (by omega)
      have h2 : f.plus 2 - 2 = f.plus 0 := hsub 2 (by omega)
      simp [h1, h2, hf, hgap, Address.plus_zero]
  | 3, _, hgap, hsub =>
      have h1 : f.plus 3 - 1 = f.plus 2 := hsub 1 (by omega)
      have h2 : f.plus 3 - 2 = f.plus 1 := hsub 2 (by omega)
      have h3 : f.plus 3 - 3 = f.plus 0 := hsub 3 (by omega)
      simp [h1, h2, h3, hf, hgap, Address.plus_zero]
  | 4, _, hgap, hsub =>
      have h1 : f.plus 4 - 1 = f.plus 3 := hsub 1 (by omega)
      have h2 : f.plus 4 - 2 = f.plus 2 := hsub 2 (by omega)
      have h3 : f.plus 4 - 3 = f.plus 1 := hsub 3 (by omega)
      have h4 : f.plus 4 - 4 = f.plus 0 := hsub 4 (by omega)
      simp [h1, h2, h3, h4, hf, hgap, Address.plus_zero]
  | n + 5, hi, _, _ => omega

theorem Tiled.instructionStart? {session : Session} (h : session.Tiled)
    (hregular : session.decoder.Regular) {f x : Address} (hf : session.memory.isFirst f)
    (hx : x ∈ session.extent f) (hlater : ¬session.memory.isFirst x) :
    session.instructionStart? x = some f :=
  instructionStart?_of_tiledBy (h.tiledBy hregular) hf
    ((session.mem_extent_iff_mem_range f x).mp hx) hlater

structure Moved (session other : Session) (label : Label) (f : Address) : Prop where
  ground : other.ground = session.ground
  labelled : other.Labelled
  left : other.labels.at? label.address = none
  home : ∃ new, other.labels.at? f = some new ∧
    ∀ r ∈ label.references, r ≠ f → r ∈ new.references
  grows : ∀ b, b ≠ label.address → session.GrowsAt other b
  unmoved : ∀ b, b ≠ f → b ≠ label.address → other.labels.at? b = session.labels.at? b

theorem mem_references_metLabel (session : Session) (h : session.labels.WellFormed) (t r : Address)
    (references : List Address) (kind : Kind) (hr : r ∈ references) (hne : r ≠ t) :
    r ∈ (session.metLabel t references kind).references := by
  unfold metLabel
  cases hat : session.labels.at? t with
  | some label =>
      refine (Label.mem_addReferences _ references r).mpr (.inr ⟨hr, ?_⟩)
      change r ≠ label.address
      rwa [h.address_eq hat]
  | none => exact (Label.mem_addReferences _ references r).mpr (.inr ⟨hr, hne⟩)

theorem Labelled.of_erase {session other : Session} (h : session.Labelled) {a : Address}
    (hmemory : other.memory = session.memory) (hlabels : other.labels = session.labels.erase a) :
    other.Labelled := by
  have hbefore : ∀ b label, other.labels.at? b = some label →
      session.labels.at? b = some label := by
    intro b label hat
    rw [hlabels, LabelStore.at?_erase] at hat
    split at hat
    · cases hat
    · exact hat
  refine ⟨?_, ?_, ?_, ?_⟩
  · rw [hlabels]
    exact h.wellFormed.erase a
  · intro b label hat
    rw [hmemory]
    exact h.isEqu_eq b label (hbefore b label hat)
  · exact fun b label hat => h.relocatable b label (hbefore b label hat)
  · exact fun b label hat => h.uncalled b label (hbefore b label hat)

theorem Labelled.moved_relocateLabel {session : Session} (h : session.Labelled) {label : Label}
    (hat : session.labels.at? label.address = some label) {f : Address}
    (hstart : session.instructionStart? label.address = some f) (hne : f ≠ label.address) :
    session.Moved (session.relocateLabel label.id) label f := by
  have hget := h.wellFormed.get?_of_at? hat
  have hplaced := session.placed_meet h.wellFormed f label.references.toList label.kind
  have hmet := h.enriched_meet f label.references.toList label.kind
    (h.relocatable label.address label hat)
  have heq : (session.relocateLabel label.id).labels =
      (session.meet f label.references.toList label.kind).labels.erase label.address := by
    simp only [relocateLabel, hget, hstart]
    rfl
  have hground : (session.relocateLabel label.id).ground = session.ground := by
    rw [← hmet.ground]
    simp only [relocateLabel, hget, hstart]
    rfl
  have hother : ∀ b, b ≠ label.address → (session.relocateLabel label.id).labels.at? b =
      (session.meet f label.references.toList label.kind).labels.at? b := by
    intro b hb
    rw [heq, LabelStore.at?_erase, if_neg hb.symm]
  refine ⟨hground, hmet.labelled.of_erase ?_ heq, ?_, ?_, ?_, ?_⟩
  · rw [memory_of_ground hground, memory_of_ground hmet.ground]
  · rw [heq, LabelStore.at?_erase, if_pos rfl]
  · refine ⟨_, (hother f hne).trans hplaced.at?_self, ?_⟩
    intro r hr hrf
    exact session.mem_references_metLabel h.wellFormed f r _ _ (Std.TreeSet.mem_toList.mpr hr) hrf
  · intro b hb old hold
    obtain ⟨new, hnew, hgrows⟩ := hmet.grows b old hold
    exact ⟨new, (hother b hb).trans hnew, hgrows⟩
  · intro b hbf hb
    rw [hother b hb, hplaced.at?_of_ne hbf.symm]

-- The invariant of moving labels: those in `rest` are still where they were, and the others that were
-- inside an instruction have moved to its beginning.
structure Gathered (start session : Session) (rest : List Label) : Prop where
  ground : session.ground = start.ground
  labelled : session.Labelled
  waiting : ∀ label ∈ rest, session.labels.at? label.address = some label
  inner : ∀ x label, start.Inside x → session.labels.at? x = some label → label ∈ rest
  grows : ∀ a, ¬start.Inside a → start.GrowsAt session a
  carried : ∀ label, start.labels.at? label.address = some label → start.Inside label.address →
    label ∉ rest → ∀ f, start.memory.isFirst f → label.address ∈ start.extent f →
      ∃ new, session.labels.at? f = some new ∧ ∀ r ∈ label.references, r ≠ f → r ∈ new.references

section Gathering

variable {start session : Session} {label : Label} {rest : List Label}

theorem Gathered.step (h : start.Gathered session (label :: rest)) (htiled : start.Tiled)
    (hregular : start.decoder.Regular) (hinside : start.Inside label.address)
    (hrest : ∀ other ∈ rest, start.Inside other.address ∧ other.address ≠ label.address) :
    start.Gathered (session.relocateLabel label.id) rest := by
  obtain ⟨f, ⟨hf, hxf⟩, hunique⟩ := htiled.covered label.address hinside.1
  have hhome : session.instructionStart? label.address = some f := by
    rw [instructionStart?, memory_of_ground h.ground]
    exact htiled.instructionStart? hregular hf hxf hinside.2
  have hnotinside : ∀ x, start.Inside x → x ≠ f := by
    rintro x hx rfl
    exact hx.2 hf
  have hmoved := h.labelled.moved_relocateLabel (h.waiting label List.mem_cons_self) hhome
    (hnotinside label.address hinside).symm
  refine ⟨hmoved.ground.trans h.ground, hmoved.labelled, ?_, ?_, ?_, ?_⟩
  · intro other hother
    obtain ⟨hin, hne⟩ := hrest other hother
    rw [hmoved.unmoved other.address (hnotinside _ hin) hne]
    exact h.waiting other (List.mem_cons_of_mem label hother)
  · intro x other hx hat
    have hne : x ≠ label.address := by
      rintro rfl
      rw [hmoved.left] at hat
      cases hat
    rw [hmoved.unmoved x (hnotinside x hx) hne] at hat
    rcases List.mem_cons.mp (h.inner x other hx hat) with rfl | hmem
    · exact absurd (h.labelled.wellFormed.address_eq hat).symm hne
    · exact hmem
  · intro a ha
    have hne : a ≠ label.address := by
      rintro rfl
      exact ha hinside
    exact (h.grows a ha).trans (hmoved.grows a hne)
  · intro other hat hin hmem g hg hxg
    have hoff : g ≠ label.address := by
      rintro rfl
      exact hinside.2 hg
    by_cases hsame : other = label
    · subst hsame
      rw [hunique g ⟨hg, hxg⟩]
      exact hmoved.home
    · obtain ⟨new, hnew, hrefs⟩ := h.carried other hat hin (by simp [hsame, hmem]) g hg hxg
      obtain ⟨last, hlast, hgrows⟩ := hmoved.grows g hoff new hnew
      exact ⟨last, hlast, fun r hr hrg => hgrows.references r (hrefs r hr hrg)⟩

theorem Gathered.foldl (h : start.Gathered session rest) (htiled : start.Tiled)
    (hregular : start.decoder.Regular) (hinside : ∀ label ∈ rest, start.Inside label.address)
    (hordered : rest.Pairwise fun label other => label.address < other.address) :
    start.Gathered ((rest.map (·.id)).foldl relocateLabel session) [] := by
  induction rest generalizing session with
  | nil => exact h
  | cons label rest ih =>
      rw [List.pairwise_cons] at hordered
      refine ih (h.step htiled hregular (hinside label List.mem_cons_self) ?_)
        (fun other hother => hinside other (List.mem_cons_of_mem label hother)) hordered.2
      intro other hother
      refine ⟨hinside other (List.mem_cons_of_mem label hother), ?_⟩
      intro heq
      have hlt := hordered.1 other hother
      rw [heq] at hlt
      exact UInt16.lt_irrefl _ hlt

end Gathering

-- All labels inside instructions have moved.
theorem Labelled.gathered_relocate {session : Session} (h : session.Labelled)
    (htiled : session.Tiled) (hregular : session.decoder.Regular) :
    session.Gathered session.relocate [] := by
  have hmoving : ∀ label, label ∈ (session.labels.live.filter fun label =>
      isRelocatable label.kind && session.isInside label) ↔
      session.labels.at? label.address = some label ∧ session.Inside label.address := by
    intro label
    rw [List.mem_filter, h.wellFormed.mem_live, Bool.and_eq_true, isInside_iff]
    constructor
    · rintro ⟨hat, -, hin⟩
      exact ⟨hat, hin⟩
    · rintro ⟨hat, hin⟩
      exact ⟨hat, h.relocatable _ _ hat, hin⟩
  unfold relocate
  refine Gathered.foldl ⟨rfl, h, ?_, ?_, ?_, ?_⟩ htiled hregular ?_ ?_
  · intro label hlabel
    exact ((hmoving label).mp hlabel).1
  · intro x label hx hat
    have haddress := h.wellFormed.address_eq hat
    rw [hmoving, haddress]
    exact ⟨hat, hx⟩
  · intro a _
    exact GrowsAt.refl session a
  · intro label hat hin hmem
    exact absurd ((hmoving label).mpr ⟨hat, hin⟩) hmem
  · intro label hlabel
    exact ((hmoving label).mp hlabel).2
  · exact List.Pairwise.filter _ h.wellFormed.pairwise_live

end Session

end Z80Atlas
