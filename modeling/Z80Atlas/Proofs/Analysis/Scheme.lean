import Z80Atlas.Proofs.Analysis.Naming
import Z80Atlas.Proofs.Analysis.Origin
import Z80Atlas.Proofs.Text.Numeral
import Z80Atlas.Proofs.Text.Spelling

namespace Z80Atlas

-- The ways in which a label gets a name that is not made from that of an owner.
inductive Scheme where
  | origin
  | interrupt
  | snapshot
  | area
  | numbered (category : NameCategory)
  | restart
  deriving DecidableEq

namespace Scheme

def stem : Scheme → String
  | origin => "ORG_0000"
  | interrupt => "INTRPT"
  | snapshot => "SNA_LBL_MAIN_START_"
  | area => "BIN_START_"
  | numbered .subroutine => "SUB"
  | numbered .label => "LBL"
  | numbered .data => "DATA"
  | numbered .selfModifying => "SELF_MOD"
  | restart => "RST"

theorem take_stem_append (scheme : Scheme) (tail : String) :
    (scheme.stem ++ tail).toList.take 2 = scheme.stem.toList.take 2 := by
  rw [String.toList_append]
  refine List.take_append_of_le_length ?_
  rcases scheme with _ | _ | _ | _ | category | _
  case numbered => cases category <;> decide
  all_goals decide

-- Two letters tell the scheme.
theorem eq_of_take_stem {scheme other : Scheme}
    (h : scheme.stem.toList.take 2 = other.stem.toList.take 2) : scheme = other := by
  revert h
  rcases scheme with _ | _ | _ | _ | (_ | _ | _ | _) | _ <;>
    rcases other with _ | _ | _ | _ | (_ | _ | _ | _) | _ <;> decide

theorem stem_append_inj {scheme other : Scheme} {tail rest : String}
    (h : scheme.stem ++ tail = other.stem ++ rest) : scheme = other ∧ tail = rest := by
  have hmark : scheme.stem.toList.take 2 = other.stem.toList.take 2 := by
    rw [← scheme.take_stem_append tail, h, other.take_stem_append rest]
  obtain rfl := eq_of_take_stem hmark
  exact ⟨rfl, String.append_right_inj _ |>.mp h⟩

-- The names of local labels start with a point.
theorem stem_append_ne_local (scheme : Scheme) (tail text : String) :
    scheme.stem ++ tail ≠ "." ++ text := by
  intro h
  have hmark := congrArg (fun name : String => name.toList.take 1) h
  rcases scheme with _ | _ | _ | _ | (_ | _ | _ | _) | _ <;>
    simp [stem, String.toList_append] at hmark

theorem isPlain_stem (scheme : Scheme) : Text.IsPlain scheme.stem := by
  refine Text.isPlain_of_all ?_
  rcases scheme with _ | _ | _ | _ | (_ | _ | _ | _) | _ <;> decide

end Scheme

-- The addresses that labels for restarts can have: a restart leads to one of the lowest addresses, or
-- into an instruction that begins a little before it.
def RestartPlace (a : Address) : Prop := a.toNat ≤ 0x38 ∨ 0xFFFD ≤ a.toNat

theorem RestartPlace.eq_of_toUInt8 {a b : Address} (ha : RestartPlace a) (hb : RestartPlace b)
    (h : a.toUInt8 = b.toUInt8) : a = b := by
  have hbyte := congrArg UInt8.toNat h
  rw [UInt16.toNat_toUInt8, UInt16.toNat_toUInt8] at hbyte
  have ha' := UInt16.toNat_lt a
  have hb' := UInt16.toNat_lt b
  refine UInt16.toNat_inj.mp ?_
  unfold RestartPlace at ha hb
  omega

-- A label of a list comes before another exactly if fewer of the list are lower than it.
theorem countP_lt_iff {list : List Label} {label other : Label} (hlabel : label ∈ list) :
    list.countP (·.address < label.address) < list.countP (·.address < other.address) ↔
      label.address < other.address := by
  constructor
  · intro hlt
    by_contra hle
    have hmono : list.countP (·.address < other.address) ≤ list.countP (·.address < label.address) := by
      refine List.countP_mono_left fun x _ hx => ?_
      simp only [decide_eq_true_eq] at hx ⊢
      exact UInt16.lt_of_lt_of_le hx (UInt16.not_lt.mp hle)
    omega
  · intro hlt
    induction list with
    | nil => cases hlabel
    | cons first rest ih =>
        have hmono : rest.countP (·.address < label.address) ≤
            rest.countP (·.address < other.address) := by
          refine List.countP_mono_left fun x _ hx => ?_
          simp only [decide_eq_true_eq] at hx ⊢
          exact UInt16.lt_trans hx hlt
        rcases List.mem_cons.mp hlabel with rfl | hrest
        · rw [List.countP_cons_of_neg (by simp), List.countP_cons_of_pos (by simpa using hlt)]
          omega
        · have hless := ih hrest
          have hfirst : first.address < label.address → first.address < other.address :=
            fun hbefore => UInt16.lt_trans hbefore hlt
          rw [List.countP_cons, List.countP_cons]
          by_cases hbefore : first.address < label.address
          · simp only [hbefore, hfirst hbefore, decide_true, if_true]
            omega
          · simp only [hbefore, decide_false, Bool.false_eq_true, if_false]
            omega

namespace Session

structure Preliminary (ground : Ground) (interrupts : List Address) (session : Session) : Prop where
  wellFormed : session.labels.WellFormed
  ownersLive : session.OwnersLive
  stems : session.config.stems = {}
  groundStems : ground.config.stems = {}
  placed : ∀ a label, session.labels.at? a = some label →
    PlaceNamed (fun _ _ => False) ground interrupts a label
  restart : ∀ a label, session.labels.at? a = some label → label.kind = .restart → RestartPlace a

def ordinal (session : Session) (category : NameCategory) (label : Label) : Nat :=
  ((session.members category).filter (·.name.isNone)).countP (·.address < label.address) + 1

def ordinalWidth (session : Session) (category : NameCategory) : Nat :=
  digitCount (session.members category).length

inductive Spelled (ground : Ground) (interrupts : List Address) (session : Session) (label : Label) :
    Scheme → String → Prop
  | origin (h : label.address = 0) : Spelled ground interrupts session label .origin ""
  | interrupt (index : Nat) (h : interrupts[index]? = some label.address) :
      Spelled ground interrupts session label .interrupt
        (if interrupts.length > 1 then Text.decimal (index + 1) else "")
  | snapshot (h : ground.snapshotStart = some label.address) :
      Spelled ground interrupts session label .snapshot (Text.hex label.address.toNat 1)
  | area : Spelled ground interrupts session label .area (Text.hex4 label.address)
  | numbered (category : NameCategory) (hlive : label ∈ session.labels.live)
      (hcategory : session.nameCategory? label = some category) (hname : label.name = none) :
      Spelled ground interrupts session label (.numbered category)
        (paddedNumber (session.ordinal category label) (session.ordinalWidth category))
  | restart (h : RestartPlace label.address) :
      Spelled ground interrupts session label .restart (Text.hex2 label.address.toUInt8)

section Spelled

variable {ground : Ground} {interrupts : List Address} {session : Session} {label other : Label}

theorem mem_unnamed_members {category : NameCategory} (hlive : label ∈ session.labels.live)
    (hcategory : session.nameCategory? label = some category) (hname : label.name = none) :
    label ∈ (session.members category).filter (·.name.isNone) := by
  rw [List.mem_filter, members, List.mem_filter]
  exact ⟨⟨hlive, beq_iff_eq.mpr hcategory⟩, by rw [hname]; rfl⟩

theorem ordinal_lt_iff {category : NameCategory} (hlive : label ∈ session.labels.live)
    (hcategory : session.nameCategory? label = some category) (hname : label.name = none) :
    session.ordinal category label < session.ordinal category other ↔
      label.address < other.address := by
  rw [ordinal, ordinal, Nat.add_lt_add_iff_right,
    countP_lt_iff (mem_unnamed_members hlive hcategory hname)]

theorem eq_of_not_lt {a b : Address} (h : ¬a < b) (h' : ¬b < a) : a = b :=
  UInt16.le_antisymm (UInt16.not_lt.mp h') (UInt16.not_lt.mp h)

-- A name tells the address.
theorem Spelled.address_eq {scheme : Scheme} {tail : String}
    (h : Spelled ground interrupts session label scheme tail)
    (h' : Spelled ground interrupts session other scheme tail) : label.address = other.address := by
  cases h with
  | origin haddress =>
      cases h' with
      | origin haddress' => rw [haddress, haddress']
  | interrupt index hindex =>
      generalize htail : (if interrupts.length > 1 then Text.decimal (index + 1) else "") = tail at h'
      cases h' with
      | interrupt index' hindex' =>
          have hsame : index = index' := by
            by_cases hmany : interrupts.length > 1
            · rw [if_pos hmany, if_pos hmany] at htail
              have := Text.decimal_inj htail
              omega
            · have hlt := (List.getElem?_eq_some_iff.mp hindex).1
              have hlt' := (List.getElem?_eq_some_iff.mp hindex').1
              omega
          rw [hsame, hindex'] at hindex
          exact (Option.some.inj hindex).symm
  | snapshot hstart =>
      generalize Text.hex label.address.toNat 1 = tail at h'
      cases h' with
      | snapshot hstart' =>
          rw [hstart] at hstart'
          exact Option.some.inj hstart'
  | area =>
      generalize htail : Text.hex4 label.address = tail at h'
      cases h' with
      | area => exact UInt16.toNat_inj.mp (Text.hex_inj htail)
  | numbered category hlive hcategory hname =>
      generalize htail : paddedNumber (session.ordinal category label)
        (session.ordinalWidth category) = tail at h'
      cases h' with
      | numbered _ hlive' hcategory' hname' =>
          have hnumber := Text.padded_inj htail
          refine eq_of_not_lt ?_ ?_
          · rw [← ordinal_lt_iff hlive hcategory hname]
            omega
          · rw [← ordinal_lt_iff hlive' hcategory' hname']
            omega
  | restart hplace =>
      generalize htail : Text.hex2 label.address.toUInt8 = tail at h'
      cases h' with
      | restart hplace' =>
          exact hplace.eq_of_toUInt8 hplace' (UInt8.toNat_inj.mp (Text.hex_inj htail))

theorem Spelled.isPlain {scheme : Scheme} {tail : String}
    (h : Spelled ground interrupts session label scheme tail) :
    Text.IsPlain (scheme.stem ++ tail) := by
  have hempty : Text.IsPlain "" := Text.isPlain_of_all (by decide)
  refine scheme.isPlain_stem.append ?_
  cases h with
  | origin => exact hempty
  | interrupt index _ =>
      split
      · exact Text.isPlain_decimal _
      · exact hempty
  | snapshot => exact Text.isPlain_hex _ _
  | area => exact Text.isPlain_hex _ _
  | numbered category => exact Text.isPlain_padded _ _
  | restart => exact Text.isPlain_hex _ _

theorem stem_of_stems (h : session.config.stems = {}) (category : NameCategory) :
    session.stem category = (Scheme.numbered category).stem := by
  cases category <;> rw [stem, h] <;> rfl

-- Whatever is not named after an owner has a name of one of the schemes.
theorem Preliminary.exists_spelled (h : session.Preliminary ground interrupts)
    (hlive : label ∈ session.labels.live) {name : String}
    (hname : label.name.or (session.ownName? label) = some name) :
    ∃ scheme tail, name = scheme.stem ++ tail ∧
      Spelled ground interrupts session label scheme tail := by
  have hat := (h.wellFormed.mem_live label).mp hlive
  have hplaced := h.placed _ label hat
  rcases Option.or_eq_some_iff.mp hname with hold | ⟨hnone, hown⟩
  · rcases hplaced.named name hold with hfalse | hautomatic
    · exact hfalse.elim
    have hplace : ∀ a, a = label.address → AutomaticName ground interrupts a name →
        ∃ scheme tail, name = scheme.stem ++ tail ∧
          Spelled ground interrupts session label scheme tail := by
      intro a ha hautomatic
      cases hautomatic with
      | origin => exact ⟨.origin, "", rfl, .origin ha.symm⟩
      | interrupt index a hindex =>
          refine ⟨.interrupt, _, ?_, .interrupt index (ha ▸ hindex)⟩
          rw [h.groundStems]
          split
          · rfl
          · rfl
      | snapshot a hstart =>
          subst ha
          exact ⟨.snapshot, _, rfl, .snapshot hstart⟩
      | area a =>
          subst ha
          exact ⟨.area, _, rfl, .area⟩
    exact hplace _ rfl hautomatic
  · unfold ownName? at hown
    split at hown
    · next category hcategory =>
      cases hown
      refine ⟨.numbered category, _, ?_, .numbered category hlive hcategory hnone⟩
      rw [numberedName, hplaced.ordinary, stem_of_stems h.stems]
      rfl
    · unfold restartName? at hown
      split at hown
      · next hkind =>
        cases hown
        refine ⟨.restart, _, ?_, .restart (h.restart _ label hat (beq_iff_eq.mp hkind))⟩
        rw [h.stems]
        rfl
      · cases hown

end Spelled

end Session

end Z80Atlas
