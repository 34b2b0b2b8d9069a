import Mathlib.Data.List.Count
import Z80Atlas.Proofs.Analysis.Classification
import Z80Atlas.Proofs.Analysis.Scheme

namespace Z80Atlas

namespace Session

variable {ground : Ground} {interrupts : List Address} {session : Session} {label other : Label}

section Locals

-- The suffix of a local name without its last letter, and the letter.
def suffixFront (kind : Kind) : List Char :=
  if kind = .localLoop then ['_', 'l', 'o', 'o'] else ['_']

def suffixLast (kind : Kind) : Char := if kind = .localLoop then 'p' else 'l'

theorem toList_localSuffix (h : session.config.stems = {}) (kind : Kind) :
    (session.localSuffix kind).toList = suffixFront kind ++ [suffixLast kind] := by
  rw [localSuffix, h, suffixFront, suffixLast]
  by_cases hkind : kind = .localLoop
  · simp [hkind]
  · simp [hkind]

theorem kind_eq_of_suffixLast {kind other : Kind} (hkind : kind.isLocal) (hother : other.isLocal)
    (h : suffixLast kind = suffixLast other) : kind = other := by
  revert hkind hother h
  cases kind <;> cases other <;> decide

-- The parts of a local name can be told from its end: first come digits, then the letter that tells the
-- suffix.
theorem local_parts_eq (hstems : session.config.stems = {})
    {text text' number number' : String} {kind kind' : Kind} (hkind : kind.isLocal)
    (hkind' : kind'.isLocal) (hnumber : ∀ c ∈ number.toList, c.isDigit)
    (hnumber' : ∀ c ∈ number'.toList, c.isDigit)
    (h : "." ++ text ++ session.localSuffix kind ++ number =
      "." ++ text' ++ session.localSuffix kind' ++ number') :
    text = text' ∧ kind = kind' ∧ number = number' := by
  have hlast : ∀ kind, ¬(suffixLast kind).isDigit := by
    intro kind
    unfold suffixLast
    split <;> decide
  have hlist := congrArg String.toList h
  simp only [String.toList_append, toList_localSuffix hstems, List.append_assoc,
    List.singleton_append] at hlist
  simp only [← List.append_assoc] at hlist
  obtain ⟨hfront, hletter, hdigits⟩ :=
    Text.append_digits_inj hnumber hnumber' (hlast kind) (hlast kind') hlist
  obtain rfl := kind_eq_of_suffixLast hkind hkind' hletter
  have htext := List.append_cancel_left (List.append_cancel_right hfront)
  exact ⟨String.toList_inj.mp htext, rfl, String.toList_inj.mp hdigits⟩

def localNumber (session : Session) (kind : Kind) (owner : LabelId) (label : Label) : String :=
  if (session.localsOf kind owner).length > 1 then
    paddedNumber ((session.localsOf kind owner).countP (·.address < label.address) + 1)
      (digitCount (session.localsOf kind owner).length)
  else ""

theorem localName_eq (session : Session) (kind : Kind) (suffix text : String) (owner : LabelId)
    (label : Label) : session.localName kind suffix text owner label =
      "." ++ Text.toLower text ++ suffix ++ session.localNumber kind owner label := rfl

theorem isDigit_of_mem_localNumber {kind : Kind} {owner : LabelId} {c : Char}
    (h : c ∈ (session.localNumber kind owner label).toList) : c.isDigit := by
  unfold localNumber at h
  split at h
  · exact Text.isDigit_of_mem_padded h
  · cases h

theorem mem_localsOf {kind : Kind} {owner : LabelId} (hlive : label ∈ session.labels.live)
    (hkind : label.kind = kind) (howner : session.owners.get label.address = some owner) :
    label ∈ session.localsOf kind owner := by
  rw [localsOf, List.mem_filter]
  exact ⟨hlive, by simp [hkind, howner]⟩

theorem eq_of_length_le_one {list : List Label} (hlength : ¬list.length > 1) (hlabel : label ∈ list)
    (hother : other ∈ list) : label = other := by
  match list, hlength with
  | [], _ => cases hlabel
  | [first], _ => rw [List.mem_singleton.mp hlabel, List.mem_singleton.mp hother]
  | _ :: _ :: _, hlength => simp at hlength

-- The number tells a local label of an owner.
theorem eq_of_localNumber (hwf : session.labels.WellFormed) {kind : Kind} {owner : LabelId}
    (hlabel : label ∈ session.localsOf kind owner) (hother : other ∈ session.localsOf kind owner)
    (h : session.localNumber kind owner label = session.localNumber kind owner other) :
    label = other := by
  unfold localNumber at h
  split at h
  · have hnumber := Text.padded_inj h
    have haddress : label.address = other.address := by
      refine eq_of_not_lt ?_ ?_
      · rw [← countP_lt_iff hlabel]
        omega
      · rw [← countP_lt_iff hother]
        omega
    exact hwf.eq_of_address (List.mem_filter.mp hlabel).1 (List.mem_filter.mp hother).1 haddress
  · next hlength => exact eq_of_length_le_one hlength hlabel hother

end Locals

section Owners

theorem exists_ownName?_of_isTopLevel (session : Session) (h : label.kind.isTopLevel) :
    ∃ name, session.ownName? label = some name := by
  cases hkind : label.kind <;> simp [hkind, Kind.isTopLevel] at h <;>
    simp [ownName?, nameCategory?, restartName?, hkind]

theorem Preliminary.exists_owner (h : session.Preliminary ground interrupts) {a : Address}
    {id : LabelId} (hget : session.owners.get a = some id) :
    ∃ owner ∈ session.labels.live, owner.id = id ∧
      owner.name.or (session.ownName? owner) = some (session.ownText id) := by
  obtain ⟨owner, hat, rfl, htop⟩ := h.ownersLive a id hget
  obtain ⟨own, hown⟩ := session.exists_ownName?_of_isTopLevel htop
  refine ⟨owner, h.wellFormed.mem_live_of_at? hat, rfl, ?_⟩
  rw [ownText, h.wellFormed.get?_of_at? hat, Option.map_some, Option.getD_some, Label.text,
    Label.nameOr, hown]
  cases owner.name with
  | none => rfl
  | some name => rfl

theorem Preliminary.eq_of_spelled (h : session.Preliminary ground interrupts)
    (hlabel : label ∈ session.labels.live) (hother : other ∈ session.labels.live)
    {scheme scheme' : Scheme} {tail tail' : String}
    (hspelled : Spelled ground interrupts session label scheme tail)
    (hspelled' : Spelled ground interrupts session other scheme' tail')
    (heq : scheme.stem ++ tail = scheme'.stem ++ tail') : label = other := by
  obtain ⟨rfl, rfl⟩ := Scheme.stem_append_inj heq
  exact h.wellFormed.eq_of_address hlabel hother (hspelled.address_eq hspelled')

theorem Preliminary.isPlain_ownText (h : session.Preliminary ground interrupts) {a : Address}
    {id : LabelId} (hget : session.owners.get a = some id) : Text.IsPlain (session.ownText id) := by
  obtain ⟨owner, hlive, -, hname⟩ := h.exists_owner hget
  obtain ⟨scheme, tail, heq, hspelled⟩ := h.exists_spelled hlive hname
  rw [heq]
  exact hspelled.isPlain

-- No two owners have one text.
theorem Preliminary.owner_eq (h : session.Preliminary ground interrupts) {a b : Address}
    {id number : LabelId} (hget : session.owners.get a = some id)
    (hget' : session.owners.get b = some number) (htext : session.ownText id = session.ownText number) :
    id = number := by
  obtain ⟨owner, hlive, rfl, hname⟩ := h.exists_owner hget
  obtain ⟨owner', hlive', rfl, hname'⟩ := h.exists_owner hget'
  obtain ⟨scheme, tail, heq, hspelled⟩ := h.exists_spelled hlive hname
  obtain ⟨scheme', tail', heq', hspelled'⟩ := h.exists_spelled hlive' hname'
  rw [h.eq_of_spelled hlive hlive' hspelled hspelled' (by rw [← heq, ← heq', htext])]

end Owners

-- A final name is one of a scheme, or it is made from that of an owner.
theorem Preliminary.spelled_or_local (h : session.Preliminary ground interrupts)
    (hlive : label ∈ session.labels.live) {name : String}
    (hname : label.name.or (session.coinedName? label) = some name) :
    (∃ scheme tail, name = scheme.stem ++ tail ∧
      Spelled ground interrupts session label scheme tail) ∨
    (label.kind.isLocal ∧ ∃ owner, session.owners.get label.address = some owner ∧
      name = "." ++ Text.toLower (session.ownText owner) ++ session.localSuffix label.kind ++
        session.localNumber label.kind owner label) := by
  by_cases hlocal : label.kind.isLocal
  · rcases Option.or_eq_some_iff.mp hname with hold | ⟨-, hcoined⟩
    · exact .inl (h.exists_spelled hlive (by rw [hold, Option.some_or]))
    · rw [coinedName?, if_pos hlocal] at hcoined
      obtain ⟨owner, howner, rfl⟩ := Option.map_eq_some_iff.mp hcoined
      exact .inr ⟨hlocal, owner, howner, localName_eq ..⟩
  · rw [coinedName?, if_neg hlocal] at hname
    exact .inl (h.exists_spelled hlive hname)

-- No two labels get one name.
theorem Preliminary.eq_of_name (h : session.Preliminary ground interrupts)
    (hlabel : label ∈ session.labels.live) (hother : other ∈ session.labels.live) {name : String}
    (hname : label.name.or (session.coinedName? label) = some name)
    (hname' : other.name.or (session.coinedName? other) = some name) : label = other := by
  rcases h.spelled_or_local hlabel hname with ⟨scheme, tail, heq, hspelled⟩ | ⟨hlocal, id, hid, heq⟩
  · rcases h.spelled_or_local hother hname' with
      ⟨scheme', tail', heq', hspelled'⟩ | ⟨-, number, -, heq'⟩
    · exact h.eq_of_spelled hlabel hother hspelled hspelled' (heq.symm.trans heq')
    · rw [heq, String.append_assoc, String.append_assoc] at heq'
      exact absurd heq' (scheme.stem_append_ne_local tail _)
  · rcases h.spelled_or_local hother hname' with
      ⟨scheme', tail', heq', -⟩ | ⟨hlocal', number, hnumber, heq'⟩
    · rw [heq, String.append_assoc, String.append_assoc] at heq'
      exact absurd heq'.symm (scheme'.stem_append_ne_local tail' _)
    · obtain ⟨hlower, hkind, hdigits⟩ := local_parts_eq h.stems hlocal hlocal'
        (fun _ => isDigit_of_mem_localNumber) (fun _ => isDigit_of_mem_localNumber)
        (heq.symm.trans heq')
      have htext := Text.toLower_inj (h.isPlain_ownText hid) (h.isPlain_ownText hnumber) hlower
      obtain rfl := h.owner_eq hid hnumber htext
      rw [← hkind] at hdigits
      exact eq_of_localNumber h.wellFormed (mem_localsOf hlabel rfl hid)
        (mem_localsOf hother hkind.symm hnumber) hdigits

section Series

-- Labels that are numbered together: those of a category, and the local labels of one kind that belong
-- to one owner.
inductive Series where
  | numbered (category : NameCategory)
  | locals (kind : Kind) (owner : LabelId)

def series? (session : Session) (label : Label) : Option Series :=
  if label.kind.isLocal then (session.owners.get label.address).map (.locals label.kind)
  else (session.nameCategory? label).map .numbered

def seriesStem (session : Session) : Series → String
  | .numbered category => session.stem category
  | .locals kind owner => "." ++ Text.toLower (session.textOf owner) ++ session.localSuffix kind

theorem append_lt_append_iff (stem text other : String) :
    stem ++ text < stem ++ other ↔ text < other := by
  rw [String.lt_iff_toList_lt, String.lt_iff_toList_lt, String.toList_append, String.toList_append]
  induction stem.toList with
  | nil => rfl
  | cons c rest ih => simpa using ih

-- Numbers of one width behind one stem make texts of one length, in the order of the numbers.
theorem padded_order (stem : String) {n m width : Nat} (hn : digitCount n ≤ width)
    (hm : digitCount m ≤ width) :
    (stem ++ paddedNumber n width).length = (stem ++ paddedNumber m width).length ∧
      (stem ++ paddedNumber n width < stem ++ paddedNumber m width ↔ n < m) := by
  refine ⟨?_, ?_⟩
  · rw [String.length_append, String.length_append, paddedNumber, paddedNumber,
      Text.length_padded hn, Text.length_padded hm]
  · rw [append_lt_append_iff]
    exact Text.padded_lt_iff hn hm

theorem countP_succ_le_length {list : List Label} (h : label ∈ list) :
    list.countP (·.address < label.address) + 1 ≤ list.length :=
  List.countP_lt_length_iff.mpr ⟨label, h, by simp⟩

theorem digitCount_ordinal_le {category : NameCategory} (hlive : label ∈ session.labels.live)
    (hcategory : session.nameCategory? label = some category) (hname : label.name = none) :
    digitCount (session.ordinal category label) ≤ session.ordinalWidth category := by
  refine Text.length_decimal_mono ?_
  exact (countP_succ_le_length (mem_unnamed_members hlive hcategory hname)).trans
    (List.length_filter_le _ _)

def ownStem (session : Session) : Series → String
  | .numbered category => session.stem category
  | .locals kind owner =>
    "." ++ Text.toLower (session.ownText owner) ++ session.localSuffix kind

theorem Preliminary.numbered_of_name (h : session.Preliminary ground interrupts)
    (hlive : label ∈ session.labels.live) {category : NameCategory} {tail : String}
    (hname : label.name.or (session.coinedName? label) =
      some (session.ownStem (.numbered category) ++ tail)) :
    session.nameCategory? label = some category ∧ label.name = none ∧
      tail = paddedNumber (session.ordinal category label) (session.ordinalWidth category) := by
  rw [ownStem, stem_of_stems h.stems] at hname
  rcases h.spelled_or_local hlive hname with ⟨scheme, rest, heq, hspelled⟩ | ⟨-, owner, -, heq⟩
  · obtain ⟨rfl, rfl⟩ := Scheme.stem_append_inj heq
    cases hspelled with
    | numbered _ _ hcategory hnone => exact ⟨hcategory, hnone, rfl⟩
  · rw [String.append_assoc, String.append_assoc] at heq
    exact absurd heq (Scheme.stem_append_ne_local _ _ _)

theorem series?_eq_locals_iff {kind : Kind} {owner : LabelId} :
    session.series? label = some (.locals kind owner) ↔
      label.kind.isLocal ∧ label.kind = kind ∧ session.owners.get label.address = some owner := by
  unfold series?
  by_cases hlocal : label.kind.isLocal
  · simp [hlocal, and_comm]
  · simp [hlocal]

theorem series?_eq_numbered_iff {category : NameCategory} :
    session.series? label = some (.numbered category) ↔
      ¬label.kind.isLocal ∧ session.nameCategory? label = some category := by
  unfold series?
  by_cases hlocal : label.kind.isLocal
  · simp [hlocal]
  · simp [hlocal]

theorem Preliminary.local_of_name (h : session.Preliminary ground interrupts)
    (hlive : label ∈ session.labels.live) {kind : Kind} {owner : LabelId} {tail : String}
    (hseries : session.series? label = some (.locals kind owner))
    (hname : label.name.or (session.coinedName? label) =
      some (session.ownStem (.locals kind owner) ++ tail)) :
    label ∈ session.localsOf kind owner ∧ tail = session.localNumber kind owner label := by
  obtain ⟨-, rfl, howner⟩ := series?_eq_locals_iff.mp hseries
  refine ⟨mem_localsOf hlive rfl howner, ?_⟩
  rcases h.spelled_or_local hlive hname with ⟨scheme, rest, heq, -⟩ | ⟨-, owner', howner', heq⟩
  · rw [ownStem, String.append_assoc, String.append_assoc] at heq
    exact absurd heq.symm (scheme.stem_append_ne_local rest _)
  · rw [howner] at howner'
    cases howner'
    exact (String.append_right_inj _).mp heq

theorem localNumber_order (stem : String) {kind : Kind} {owner : LabelId}
    (hlabel : label ∈ session.localsOf kind owner) (hother : other ∈ session.localsOf kind owner) :
    (stem ++ session.localNumber kind owner label).length =
        (stem ++ session.localNumber kind owner other).length ∧
      (stem ++ session.localNumber kind owner label < stem ++ session.localNumber kind owner other ↔
        label.address < other.address) := by
  by_cases hmany : (session.localsOf kind owner).length > 1
  · rw [localNumber, localNumber, if_pos hmany, if_pos hmany]
    obtain ⟨hlength, horder⟩ := padded_order stem
      (Text.length_decimal_mono (countP_succ_le_length hlabel))
      (Text.length_decimal_mono (countP_succ_le_length hother))
    refine ⟨hlength, horder.trans ?_⟩
    rw [Nat.add_lt_add_iff_right, countP_lt_iff hlabel]
  · rw [eq_of_length_le_one hmany hlabel hother]
    exact ⟨rfl, by simp⟩

-- The names of a series have one length and ascend with the addresses.
theorem Preliminary.in_order (h : session.Preliminary ground interrupts)
    (hlabel : label ∈ session.labels.live) (hother : other ∈ session.labels.live) {series : Series}
    (hseries : session.series? label = some series) (hseries' : session.series? other = some series)
    {tail tail' : String}
    (hname : label.name.or (session.coinedName? label) = some (session.ownStem series ++ tail))
    (hname' : other.name.or (session.coinedName? other) = some (session.ownStem series ++ tail')) :
    (session.ownStem series ++ tail).length = (session.ownStem series ++ tail').length ∧
      (session.ownStem series ++ tail < session.ownStem series ++ tail' ↔
        label.address < other.address) := by
  cases series with
  | numbered category =>
      obtain ⟨hcategory, hnone, rfl⟩ := h.numbered_of_name hlabel hname
      obtain ⟨hcategory', hnone', rfl⟩ := h.numbered_of_name hother hname'
      obtain ⟨hlength, horder⟩ := padded_order (session.ownStem (.numbered category))
        (digitCount_ordinal_le hlabel hcategory hnone)
        (digitCount_ordinal_le hother hcategory' hnone')
      exact ⟨hlength, horder.trans (ordinal_lt_iff hlabel hcategory hnone)⟩
  | locals kind owner =>
      obtain ⟨hmem, rfl⟩ := h.local_of_name hlabel hseries hname
      obtain ⟨hmem', rfl⟩ := h.local_of_name hother hseries' hname'
      exact localNumber_order _ hmem hmem'

def placeStems : List String := ["ORG_", "INTRPT", "SNA_LBL_MAIN_START_", "BIN_START_"]

theorem AutomaticName.exists_stem {a : Address} {name : String} (hstems : ground.config.stems = {})
    (h : AutomaticName ground interrupts a name) :
    ∃ stem ∈ placeStems, ∃ tail, name = stem ++ tail := by
  cases h with
  | origin => exact ⟨"ORG_", by decide, "0000", rfl⟩
  | interrupt index a hindex =>
      rw [hstems]
      split
      · exact ⟨"INTRPT", by decide, _, rfl⟩
      · exact ⟨"INTRPT", by decide, "", rfl⟩
  | snapshot a hstart => exact ⟨"SNA_LBL_MAIN_START_", by decide, _, rfl⟩
  | area a hassigned => exact ⟨"BIN_START_", by decide, _, rfl⟩

-- A label of a series has a name of the series, or that of a place.
theorem Preliminary.stem_of_series (h : session.Preliminary ground interrupts)
    (hlive : label ∈ session.labels.live) {series : Series}
    (hseries : session.series? label = some series) :
    ∃ stem tail, label.name.or (session.coinedName? label) = some (stem ++ tail) ∧
      (stem = session.ownStem series ∨ stem ∈ placeStems) := by
  cases hname : label.name with
  | some name =>
      have hat := (h.wellFormed.mem_live label).mp hlive
      rcases (h.placed _ label hat).named name hname with hfalse | hautomatic
      · exact hfalse.elim
      obtain ⟨stem, hstem, tail, rfl⟩ := hautomatic.exists_stem h.groundStems
      exact ⟨stem, tail, rfl, .inr hstem⟩
  | none =>
      rw [Option.none_or]
      cases series with
      | numbered category =>
          obtain ⟨hlocal, hcategory⟩ := series?_eq_numbered_iff.mp hseries
          have hordinary := (h.placed _ label ((h.wellFormed.mem_live label).mp hlive)).ordinary
          refine ⟨_, paddedNumber (session.ordinal category label) (session.ordinalWidth category),
            ?_, .inl rfl⟩
          rw [coinedName?, if_neg hlocal, ownName?, hcategory]
          dsimp only
          rw [numberedName, hordinary]
          rfl
      | locals kind owner =>
          obtain ⟨hlocal, rfl, howner⟩ := series?_eq_locals_iff.mp hseries
          refine ⟨_, session.localNumber label.kind owner label, ?_, .inl rfl⟩
          rw [coinedName?, if_pos hlocal, howner]
          rfl

end Series

section Named

variable {named : Session}

theorem NamedBy.of_labels {name? : Label → Option String} (h : session.NamedBy name? named)
    {last : Session} (hground : last.ground = named.ground) (hlabels : last.labels = named.labels) :
    session.NamedBy name? last := by
  refine ⟨⟨hground.trans h.revised.ground, ?_⟩, ?_⟩
  · rw [hlabels]
    exact h.revised.labels
  · rw [hlabels]
    exact h.at?_eq

theorem NamedBy.exists_before {name? : Label → Option String} (h : session.NamedBy name? named)
    (hlive : label ∈ named.labels.live) :
    ∃ old ∈ session.labels.live, label = old.nameOr name? := by
  rw [h.live_eq] at hlive
  obtain ⟨old, hold, heq⟩ := List.mem_map.mp hlive
  exact ⟨old, hold, heq.symm⟩

theorem NamedBy.series?_eq {name? : Label → Option String} (h : session.NamedBy name? named)
    (label : Label) : named.series? (label.nameOr name?) = session.series? label := by
  unfold series? nameCategory?
  rw [owners_of_ground h.revised.ground, memory_of_ground h.revised.ground]
  rfl

-- Once labels are named, an owner has the text that its local labels were named after.
theorem Preliminary.textOf_eq (h : session.Preliminary ground interrupts)
    (hnamed : session.NamedBy session.coinedName? named) {a : Address} {id : LabelId}
    (hget : session.owners.get a = some id) : named.textOf id = session.ownText id := by
  obtain ⟨owner, hat, rfl, htop⟩ := h.ownersLive a id hget
  have hlocal : ¬owner.kind.isLocal := by
    revert htop
    cases owner.kind <;> decide
  rw [hnamed.textOf_eq h.wellFormed hat, ownText, h.wellFormed.get?_of_at? hat, Option.map_some,
    Option.getD_some, Label.nameOr, coinedName?, if_neg hlocal, Label.nameOr]

theorem Preliminary.seriesStem_eq (h : session.Preliminary ground interrupts)
    (hnamed : session.NamedBy session.coinedName? named) {series : Series}
    (hseries : session.series? label = some series) :
    named.seriesStem series = session.ownStem series := by
  have hconfig : named.config = session.config := config_of_ground hnamed.revised.ground
  cases series with
  | numbered category =>
      rw [seriesStem, ownStem]
      cases category <;> rw [stem, stem, hconfig]
  | locals kind owner =>
      obtain ⟨-, -, howner⟩ := series?_eq_locals_iff.mp hseries
      rw [seriesStem, ownStem, h.textOf_eq hnamed howner, localSuffix, localSuffix, hconfig]

end Named

section Restarts

-- A restart refers to one of the lowest addresses.
theorem toNat_le_of_role {a t : Address} (hdecoder : session.decoder = Z80.decode)
    (hdesignates : session.Designates a t) (hrole : session.role a t = .restart) :
    t.toNat ≤ 0x38 := by
  have hkind : (session.instructionAt a).target? ≠ none ∧
      (session.instructionAt a).kind = .restart := by
    unfold role Instruction.role at hrole
    split at hrole
    · cases hrole
    split at hrole
    · cases hrole
    split at hrole
    · cases hrole
    · exact ⟨by assumption, hrole⟩
  obtain ⟨target, htarget⟩ := Option.ne_none_iff_exists'.mp hkind.1
  rw [Designates, Instruction.designated?, htarget] at hdesignates
  cases hdesignates
  rw [instructionAt, hdecoder] at htarget hkind
  exact Z80.restart_le hkind.2 htarget

variable (h : session.Analysable) (hdecoder : session.decoder = Z80.decode)
  (hkinds : ∀ a label, session.labels.at? a = some label → label.kind = .label)

include h hdecoder hkinds

theorem Analysable.restart_entered {a : Address}
    (hat : session.entered.labels.at? a = some label) (hkind : label.kind = .restart) :
    a.toNat ≤ 0x38 := by
  have hsupplied := h.supplied_entered
  cases hfound : session.found.labels.at? a with
  | none =>
      rcases (hsupplied.fits a label hfound hat).kind with hplace | hplace
      · rw [hplace] at hkind
        cases hkind
      · rw [hplace] at hkind
        cases hkind
  | some found =>
      rw [hsupplied.kept a found hfound] at hat
      cases hat
      rcases (h.explains_found hfound).kind_mem with ⟨seed, hseed, hsame⟩ | ⟨b, hb, hrole⟩
      · have hstart := forall_enqueueStart (fun _ label => label.kind = .label) h.wellFormed hkinds
          (fun _ _ => rfl) (fun hfree _ => by rw [fixedLabel, labelOr_of_none hfree]) a seed hseed
        rw [hsame, hstart] at hkind
        cases hkind
      · have hstart : session.enqueueStart.decoder = Z80.decode := by
          rw [decoder_of_ground (session.ground_enqueueStart h.wellFormed).1, hdecoder]
        exact toNat_le_of_role hstart hb.2 (hrole.symm.trans hkind)

theorem Analysable.restart_located {a : Address}
    (hat : session.located.labels.at? a = some label) (hkind : label.kind = .restart) :
    RestartPlace a := by
  rcases (h.merged_located hat).kind_mem with ⟨old, hold, hsame⟩ | ⟨m, hm, hsame⟩
  · exact .inl (h.restart_entered hdecoder hkinds hold (hsame.symm.trans hkind))
  · have hlow := h.restart_entered hdecoder hkinds hm.1.moves.at? (hsame.symm.trans hkind)
    have hsize : (session.entered.instructionAt a).size ≤ 4 := by
      rw [instructionAt, decoder_of_ground h.ground_entered, h.decoder_found]
      exact (h.regular _ a).size_le
    obtain ⟨i, hi, hplace⟩ := (h.departs_iff.mp hm.1).2.2
    rw [hplace, Address.toNat_plus] at hlow
    have ha := UInt16.toNat_lt a
    unfold RestartPlace
    omega

end Restarts

-- What is known of the labels of an analysis before they are named.
theorem Analysable.preliminary_classify (h : session.Analysable)
    (hunowned : ∀ a, session.owners.get a = none) (hdecoder : session.decoder = Z80.decode)
    (hstems : session.config.stems = {})
    (hkinds : ∀ a label, session.labels.at? a = some label → label.kind = .label)
    (hnames : session.NamedAs fun _ _ => False) :
    session.classify.Preliminary session.found.ground session.found.interruptEntries := by
  refine ⟨h.wellFormed_classify, h.ownersLive_classify hunowned, ?_, ?_, ?_, ?_⟩
  · rw [h.distributed_classify.config, h.config_found, hstems]
  · change session.found.config.stems = {}
    rw [h.config_found, hstems]
  · intro a label hat
    obtain ⟨old, hold, hclassified⟩ := session.classified_classify.exists_before hat
    have hplaced := h.placeNamed_located hnames hold
    refine ⟨hclassified.belongsToInterrupt.trans hplaced.ordinary, fun name hname => ?_⟩
    exact hplaced.named name (hclassified.name.symm.trans hname)
  · intro a label hat hkind
    obtain ⟨old, hold, hclassified⟩ := session.classified_classify.exists_before hat
    refine h.restart_located hdecoder hkinds hold ?_
    rcases hclassified.settles with hsame | ⟨-, hother | hother⟩
    · exact hsame.symm.trans hkind
    · rw [hkind] at hother
      cases hother
    · rw [hkind] at hother
      cases hother

theorem Analysable.namedBy_disassemble (h : session.Analysable)
    (hunowned : ∀ a, session.owners.get a = none) (hnameOf : session.nameOf = none) :
    session.classify.NamedBy session.classify.coinedName? session.disassemble := by
  have hnamed := h.namedBy_classify hunowned hnameOf
  refine hnamed.of_labels ?_ ?_
  · rw [ground_disassemble, ground_analyse, hnamed.revised.ground]
  · rw [labels_disassemble, labels_analyse]

-- A fresh session with seeds that give no names: its analysis names labels of which no more is known
-- than their places.
theorem named_prepared (config : Config) (hstems : config.stems = {})
    (snapshotStart : Option Address) (blocks : List (Address × List UInt8)) (seeds : List Seed) :
    ∃ classified : Session,
      (∃ ground interrupts, classified.Preliminary ground interrupts) ∧
      classified.NamedBy classified.coinedName?
        (({ config, snapshotStart } : Session).prepared blocks
          (seeds.map Seed.unnamed)).disassemble := by
  have hready := ready_prepared { config, snapshotStart } rfl Memory.unclassified_empty rfl blocks
    (seeds.map Seed.unnamed)
  have hground := ({ config, snapshotStart } : Session).ground_prepared rfl blocks
    (seeds.map Seed.unnamed)
  have hnames := ({ config, snapshotStart } : Session).namedAs_unnamed rfl blocks seeds
  have hunowned := ({ config, snapshotStart } : Session).unowned_prepared rfl blocks
    (seeds.map Seed.unnamed) rfl
  have hkinds := fun a label => @kind_prepared { config, snapshotStart } rfl blocks
    (seeds.map Seed.unnamed) a label
  generalize ({ config, snapshotStart } : Session).prepared blocks (seeds.map Seed.unnamed) = start
    at hready hground hnames hunowned hkinds ⊢
  have hdecoder : start.decoder = Z80.decode := congrArg Ground.decoder hground
  have hconfig : start.config = config := congrArg Ground.config hground
  have hnameOf : start.nameOf = none := congrArg Ground.nameOf hground
  have hstart := hready.analysable
  have hpreliminary := hstart.preliminary_classify hunowned hdecoder (by rw [hconfig, hstems]) hkinds
    hnames
  exact ⟨start.classify, ⟨_, _, hpreliminary⟩, hstart.namedBy_disassemble hunowned hnameOf⟩

-- Names that the analysis finds tell the labels apart. A label of a series has a name of the series or
-- that of a place, and the names of a series have one length and ascend with the addresses.
theorem disassemble_names_unambiguously (config : Config) (snapshotStart : Option Address)
    (blocks : List (Address × List UInt8)) (seeds : List Seed) :
    let session := (({ config := { config with stems := {} }, snapshotStart } : Session).prepared
      blocks (seeds.map Seed.unnamed)).disassemble
    (∀ label ∈ session.labels.live, ∀ other ∈ session.labels.live,
      label.name ≠ none → label.name = other.name → label = other) ∧
    (∀ label ∈ session.labels.live, ∀ series, session.series? label = some series →
      ∃ stem tail, label.name = some (stem ++ tail) ∧
        (stem = session.seriesStem series ∨ stem ∈ placeStems)) ∧
    ∀ label ∈ session.labels.live, ∀ other ∈ session.labels.live, ∀ series,
      session.series? label = some series → session.series? other = some series →
      ∀ tail tail', label.name = some (session.seriesStem series ++ tail) →
        other.name = some (session.seriesStem series ++ tail') →
        label.text.length = other.text.length ∧
          (label.text < other.text ↔ label.address < other.address) := by
  intro session
  obtain ⟨classified, ⟨ground, interrupts, hpreliminary⟩, hnamed⟩ :=
    named_prepared { config with stems := {} } rfl snapshotStart blocks seeds
  change classified.NamedBy classified.coinedName? session at hnamed
  refine ⟨?_, ?_, ?_⟩
  · intro label hlabel other hother hsome hsame
    obtain ⟨old, hold, rfl⟩ := hnamed.exists_before hlabel
    obtain ⟨old', hold', rfl⟩ := hnamed.exists_before hother
    obtain ⟨name, hname⟩ := Option.ne_none_iff_exists'.mp hsome
    rw [hpreliminary.eq_of_name hold hold' hname (hsame.symm.trans hname)]
  · intro label hlabel series hseries
    obtain ⟨old, hold, rfl⟩ := hnamed.exists_before hlabel
    rw [hnamed.series?_eq] at hseries
    rw [hpreliminary.seriesStem_eq hnamed hseries]
    exact hpreliminary.stem_of_series hold hseries
  · intro label hlabel other hother series hseries hseries' tail tail' hname hname'
    obtain ⟨old, hold, rfl⟩ := hnamed.exists_before hlabel
    obtain ⟨old', hold', rfl⟩ := hnamed.exists_before hother
    rw [hnamed.series?_eq] at hseries hseries'
    rw [hpreliminary.seriesStem_eq hnamed hseries] at hname hname'
    rw [Label.text, Label.text, hname, hname']
    exact hpreliminary.in_order hold hold' hseries hseries' hname hname'

end Session

end Z80Atlas
