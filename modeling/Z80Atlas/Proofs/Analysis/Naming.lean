import Mathlib.Data.List.Induction
import Z80Atlas.Proofs.Analysis.Passes
import Z80Atlas.Proofs.Symbol.Live

namespace Z80Atlas

-- In an ascending list the place of an entry is the number of the lower ones.
theorem zipIdx_eq_map_countP {α : Type} (key : α → Address) (list : List α) (start : Nat)
    (h : list.Pairwise fun a b => key a < key b) :
    list.zipIdx start = list.map fun a => (a, start + list.countP fun b => key b < key a) := by
  induction list generalizing start with
  | nil => rfl
  | cons a rest ih =>
      obtain ⟨hfirst, hrest⟩ := List.pairwise_cons.mp h
      have hzero : (a :: rest).countP (fun b => key b < key a) = 0 := by
        rw [List.countP_eq_zero]
        intro b hb
        rcases List.mem_cons.mp hb with rfl | hb
        · simp
        · simpa using UInt16.le_of_lt (hfirst b hb)
      rw [List.zipIdx_cons, ih (start + 1) hrest, List.map_cons, hzero, Nat.add_zero]
      congr 1
      refine List.map_congr_left fun b hb => ?_
      rw [List.countP_cons_of_pos (by simpa using hfirst b hb)]
      congr 1
      omega

theorem lookup_map_of_mem {list : List Label} {label : Label} (name : Label → String)
    (hid : ∀ other ∈ list, other.id = label.id → other = label) (h : label ∈ list) :
    (list.map fun label => (label.id, name label)).lookup label.id = some (name label) := by
  induction list with
  | nil => cases h
  | cons other rest ih =>
      rw [List.map_cons, List.lookup_cons]
      by_cases heq : label.id = other.id
      · rw [hid other List.mem_cons_self heq.symm]
        simp
      · have hrest : label ∈ rest := by
          rcases List.mem_cons.mp h with rfl | hrest
          · exact absurd rfl heq
          · exact hrest
        rw [beq_false_of_ne heq]
        exact ih (fun other hother => hid other (List.mem_cons_of_mem _ hother)) hrest

theorem lookup_map_of_not_mem {list : List Label} {label : Label} (name : Label → String)
    (hid : ∀ other ∈ list, other.id = label.id → other = label) (h : label ∉ list) :
    (list.map fun label => (label.id, name label)).lookup label.id = none := by
  rw [List.lookup_eq_none_iff]
  intro entry hentry
  obtain ⟨other, hother, rfl⟩ := List.mem_map.mp hentry
  rw [bne_iff_ne]
  intro heq
  exact h (hid other hother heq.symm ▸ hother)

def Label.nameOr (label : Label) (name? : Label → Option String) : Label :=
  { label with name := label.name.or (name? label) }

theorem Label.nameOr_of_none {label : Label} {name? : Label → Option String}
    (h : name? label = none) : label.nameOr name? = label := by
  rw [nameOr, h, Option.or_none]

namespace LabelStore

theorem live_eq_at? (store : LabelStore) :
    store.live = store.index.toList.filterMap fun entry => store.at? entry.1 := by
  rw [live_eq]
  refine List.filterMap_congr ?_
  rintro ⟨address, id⟩ hentry
  rw [at?, (store.mem_toList_index address id).mp hentry, Option.bind_some]

-- No two live labels have one number.
theorem WellFormed.eq_of_id {store : LabelStore} (h : store.WellFormed) {label other : Label}
    (hlabel : label ∈ store.live) (hother : other ∈ store.live) (hid : other.id = label.id) :
    other = label := by
  have hat := h.get?_of_at? ((h.mem_live label).mp hlabel)
  have hat' := h.get?_of_at? ((h.mem_live other).mp hother)
  rw [hid, hat] at hat'
  exact (Option.some.inj hat').symm

theorem WellFormed.eq_of_address {store : LabelStore} (h : store.WellFormed) {label other : Label}
    (hlabel : label ∈ store.live) (hother : other ∈ store.live)
    (haddress : label.address = other.address) : label = other := by
  have hat := (h.mem_live label).mp hlabel
  have hat' := (h.mem_live other).mp hother
  rw [haddress, hat'] at hat
  exact (Option.some.inj hat).symm

end LabelStore

namespace Session

structure NamedBy (session : Session) (name? : Label → Option String) (other : Session) : Prop where
  revised : session.Revised Label.Renamed other
  at?_eq : ∀ a, other.labels.at? a = (session.labels.at? a).map (·.nameOr name?)

namespace NamedBy

variable {session other third : Session} {name? : Label → Option String}

theorem refl (session : Session) : session.NamedBy (fun _ => none) session := by
  refine ⟨.refl Label.Renamed.refl session, fun a => ?_⟩
  cases session.labels.at? a with
  | none => rfl
  | some label => rw [Option.map_some, Label.nameOr_of_none rfl]

theorem wellFormed (h : session.NamedBy name? other) (hwf : session.labels.WellFormed) :
    other.labels.WellFormed := by
  refine h.revised.labels.wellFormed ?_ hwf
  intro l m hrenamed
  have hplace := Label.Renamed.samePlace l m hrenamed
  exact ⟨hplace.id, hplace.address⟩

theorem live_eq (h : session.NamedBy name? other) :
    other.labels.live = session.labels.live.map (·.nameOr name?) := by
  rw [LabelStore.live_eq_at?, LabelStore.live_eq_at?, h.revised.labels.index, List.map_filterMap]
  simp only [h.at?_eq]

-- A choice of labels that get no name consists of the same labels as before.
theorem filter_live (h : session.NamedBy name? other) (choice : Label → Bool)
    (hchoice : ∀ label, choice (label.nameOr name?) = choice label)
    (hnone : ∀ label, choice label → name? label = none) :
    other.labels.live.filter choice = session.labels.live.filter choice := by
  rw [h.live_eq, List.filter_map]
  have hsame : choice ∘ (·.nameOr name?) = choice := funext hchoice
  rw [hsame]
  conv_rhs => rw [← List.map_id (session.labels.live.filter choice)]
  refine List.map_congr_left fun label hlabel => ?_
  exact Label.nameOr_of_none (hnone label (List.mem_filter.mp hlabel).2)

theorem congr {same? : Label → Option String} (h : session.NamedBy name? other)
    (hwf : session.labels.WellFormed)
    (hsame : ∀ label ∈ session.labels.live, same? label = name? label) :
    session.NamedBy same? other := by
  refine ⟨h.revised, fun a => ?_⟩
  rw [h.at?_eq]
  cases hat : session.labels.at? a with
  | none => rfl
  | some label =>
      rw [Option.map_some, Option.map_some, Label.nameOr, Label.nameOr,
        hsame label (hwf.mem_live_of_at? hat)]

theorem trans {next? all? : Label → Option String} (h : session.NamedBy name? other)
    (h' : other.NamedBy next? third)
    (hall : ∀ label ∈ session.labels.live,
      all? label = (name? label).or (next? (label.nameOr name?)))
    (hwf : session.labels.WellFormed) : session.NamedBy all? third := by
  refine ⟨h.revised.trans Label.Renamed.trans h'.revised, fun a => ?_⟩
  rw [h'.at?_eq, h.at?_eq, Option.map_map]
  cases hat : session.labels.at? a with
  | none => rfl
  | some label =>
      have hlabel := hall label (hwf.mem_live_of_at? hat)
      simp only [Option.map_some, Function.comp, Label.nameOr, hlabel, Option.or_assoc]

end NamedBy

def nameEach (session : Session) (names : List (LabelId × String)) : Session :=
  names.foldl (fun session entry => session.nameLabel entry.1 entry.2) session

theorem revised_nameEach (session : Session) (names : List (LabelId × String)) :
    session.Revised Label.Renamed (session.nameEach names) :=
  revised_foldl_nameLabel session _ names fun _ entry => ⟨entry.1, entry.2, rfl⟩

theorem get?_nameEach (session : Session) (names : List (LabelId × String)) (id : LabelId) :
    (session.nameEach names).labels.get? id =
      (session.labels.get? id).map fun label =>
        { label with name := label.name.or (names.lookup id) } := by
  induction names generalizing session with
  | nil => simp [nameEach]
  | cons entry rest ih =>
      have hstep : session.nameEach (entry :: rest) =
          (session.nameLabel entry.1 entry.2).nameEach rest := rfl
      rw [hstep, ih, nameLabel, modifyLabel, LabelStore.get?_modify, List.lookup_cons]
      by_cases heq : entry.1 = id
      · rw [if_pos heq, Option.map_map, heq, beq_self_eq_true]
        congr 1
        funext label
        simp only [Function.comp, Option.or_assoc, Option.some_or]
      · rw [if_neg heq, beq_false_of_ne (Ne.symm heq)]

-- Naming some of the live labels.
theorem namedBy_nameEach (session : Session) (h : session.labels.WellFormed) (choice : Label → Bool)
    (name : Label → String) :
    session.NamedBy (fun label => if choice label then some (name label) else none)
      (session.nameEach
        ((session.labels.live.filter choice).map fun label => (label.id, name label))) := by
  have hrevised := session.revised_nameEach
    ((session.labels.live.filter choice).map fun label => (label.id, name label))
  refine ⟨hrevised, fun a => ?_⟩
  rw [LabelStore.at?, LabelStore.idAt?, hrevised.labels.index]
  cases hat : session.labels.at? a with
  | none =>
      cases hid : session.labels.index[a]? with
      | none => rfl
      | some id =>
          obtain ⟨label, hlabel, -, -⟩ := h.exists_at? hid
          rw [hat] at hlabel
          cases hlabel
  | some label =>
      have hlive := h.mem_live_of_at? hat
      have hid : ∀ other ∈ session.labels.live.filter choice, other.id = label.id →
          other = label := fun other hother => h.eq_of_id hlive (List.mem_filter.mp hother).1
      have hindex : session.labels.index[a]? = some label.id := h.id_eq hat
      rw [hindex, Option.bind_some, get?_nameEach, h.get?_of_at? hat, Option.map_some,
        Option.map_some, Label.nameOr]
      by_cases hchoice : choice label
      · rw [lookup_map_of_mem name hid (List.mem_filter.mpr ⟨hlive, hchoice⟩), if_pos hchoice]
      · rw [lookup_map_of_not_mem name hid fun hmem => hchoice (List.mem_filter.mp hmem).2,
          if_neg hchoice]

-- A pass whose names depend on the choices for the session names one label after the other.
theorem foldl_eq_nameEach {α : Type} (step : Session → α → Session) (entry : α → LabelId × String)
    (config : Config)
    (hstep : ∀ current x, current.config = config →
      step current x = current.nameLabel (entry x).1 (entry x).2)
    (session : Session) (hconfig : session.config = config) (xs : List α) :
    xs.foldl step session = session.nameEach (xs.map entry) := by
  induction xs generalizing session with
  | nil => rfl
  | cons x rest ih =>
      rw [List.foldl_cons, hstep session x hconfig]
      exact ih _ hconfig

section Numbered

def members (session : Session) (category : NameCategory) : List Label :=
  session.labels.live.filter fun label => session.nameCategory? label == some category

-- The name that a label of a category is given: numbers go to the labels without a name, and their
-- width is that of the size of the category.
def numberedName (session : Session) (category : NameCategory) (label : Label) : String :=
  if label.belongsToInterrupt && (category == .subroutine || category == .label) then
    session.config.stems.interrupt
  else
    session.stem category ++
      paddedNumber
        (((session.members category).filter (·.name.isNone)).countP (·.address < label.address) + 1)
        (digitCount (session.members category).length)

def categoryName? (session : Session) (category : NameCategory) (label : Label) : Option String :=
  if session.nameCategory? label == some category then some (session.numberedName category label)
  else none

theorem nameNumbered_eq (session : Session) (h : session.labels.WellFormed)
    (category : NameCategory) :
    session.nameNumbered category = session.nameEach
      (((session.members category).filter (·.name.isNone)).map fun label =>
        (label.id, session.numberedName category label)) := by
  have hordered : ((session.members category).filter (·.name.isNone)).Pairwise
      fun label other => label.address < other.address :=
    (h.pairwise_live.filter _).filter _
  unfold nameNumbered
  dsimp only
  rw [← members, zipIdx_eq_map_countP Label.address _ 0 hordered, List.foldl_map]
  refine foldl_eq_nameEach _ _ session.config ?_ session rfl _
  intro current label hconfig
  have hstem : current.stem category = session.stem category := by
    cases category <;> simp only [stem, hconfig]
  simp only [numberedName, hconfig, hstem, Nat.zero_add]

theorem namedBy_nameNumbered (session : Session) (h : session.labels.WellFormed)
    (category : NameCategory) :
    session.NamedBy (session.categoryName? category) (session.nameNumbered category) := by
  have heach := session.namedBy_nameEach h
    (fun label => session.nameCategory? label == some category && label.name.isNone)
    (session.numberedName category)
  have hfilter : (session.members category).filter (·.name.isNone) =
      session.labels.live.filter fun label =>
        session.nameCategory? label == some category && label.name.isNone := by
    rw [members, List.filter_filter]
    simp only [Bool.and_comm]
  rw [nameNumbered_eq session h, hfilter]
  refine ⟨heach.revised, fun a => ?_⟩
  rw [heach.at?_eq]
  congr 1
  funext label
  -- a label that has a name keeps it, whether it is chosen or not
  cases hname : label.name with
  | some name => simp [Label.nameOr, hname]
  | none => simp [Label.nameOr, hname, categoryName?]

theorem NamedBy.members_eq {session other : Session} {name? : Label → Option String}
    (h : session.NamedBy name? other) {category : NameCategory}
    (hnone : ∀ label, session.nameCategory? label = some category → name? label = none) :
    other.members category = session.members category := by
  have hcategory : other.nameCategory? = session.nameCategory? := by
    funext label
    rw [nameCategory?, memory_of_ground h.revised.ground, nameCategory?]
  unfold members
  rw [hcategory]
  refine h.filter_live _ (fun label => rfl) fun label hlabel => ?_
  exact hnone label (beq_iff_eq.mp hlabel)

-- The labels of a category are named as before if only others have got names.
theorem NamedBy.nameNumbered {session other : Session} {name? : Label → Option String}
    (h : session.NamedBy name? other) (hwf : session.labels.WellFormed) (category : NameCategory)
    (hnone : ∀ label, session.nameCategory? label = some category → name? label = none) :
    session.NamedBy (fun label => (name? label).or (session.categoryName? category label))
      (other.nameNumbered category) := by
  refine h.trans (other.namedBy_nameNumbered (h.wellFormed hwf) category) ?_ hwf
  intro label _
  have hmemory := memory_of_ground h.revised.ground
  have hconfig : other.config = session.config := config_of_ground h.revised.ground
  have hstem : other.stem category = session.stem category := by
    cases category <;> simp only [stem, hconfig]
  simp only [categoryName?, nameCategory?, numberedName, h.members_eq hnone, hmemory, hconfig, hstem]
  rfl

end Numbered

section Own

def restartName? (session : Session) (label : Label) : Option String :=
  if label.kind == .restart then
    some (session.config.stems.restart ++ Text.hex2 label.address.toUInt8)
  else none

theorem namedBy_nameRestarts (session : Session) (h : session.labels.WellFormed) :
    session.NamedBy session.restartName? session.nameRestarts := by
  have heach := session.namedBy_nameEach h (·.kind == .restart) fun label =>
    session.config.stems.restart ++ Text.hex2 label.address.toUInt8
  have heq : session.nameRestarts = session.nameEach
      ((session.labels.live.filter (·.kind == .restart)).map fun label =>
        (label.id, session.config.stems.restart ++ Text.hex2 label.address.toUInt8)) := by
    refine foldl_eq_nameEach _ _ session.config ?_ session rfl _
    intro current label hconfig
    rw [hconfig]
  rw [heq]
  exact heach

theorem NamedBy.nameRestarts {session other : Session} {name? : Label → Option String}
    (h : session.NamedBy name? other) (hwf : session.labels.WellFormed) :
    session.NamedBy (fun label => (name? label).or (session.restartName? label))
      other.nameRestarts := by
  refine h.trans (other.namedBy_nameRestarts (h.wellFormed hwf)) ?_ hwf
  intro label _
  have hconfig : other.config = session.config := config_of_ground h.revised.ground
  rw [restartName?, restartName?, hconfig]
  rfl

def ownName? (session : Session) (label : Label) : Option String :=
  match session.nameCategory? label with
  | some category => some (session.numberedName category label)
  | none => session.restartName? label

-- Each category is dealt with once, and the names given before do not matter to it.
theorem namedBy_ownName? (session : Session) (h : session.labels.WellFormed) :
    session.NamedBy session.ownName?
      ((((session.nameNumbered .subroutine).nameNumbered .label).nameNumbered .data).nameNumbered
        .selfModifying).nameRestarts := by
  have hsubroutine := session.namedBy_nameNumbered h .subroutine
  have hlabel := hsubroutine.nameNumbered h .label fun label hlabel => by
    simp [categoryName?, hlabel]
  have hdata := hlabel.nameNumbered h .data fun label hlabel => by
    simp [categoryName?, hlabel]
  have hcode := hdata.nameNumbered h .selfModifying fun label hlabel => by
    simp [categoryName?, hlabel]
  refine (hcode.nameRestarts h).congr h ?_
  intro label _
  rw [ownName?]
  cases hcategory : session.nameCategory? label with
  | none => simp [categoryName?, hcategory]
  | some category => cases category <;> simp [categoryName?, hcategory]

end Own

section Locals

-- The name of a local label after an owner with a given text; a single one gets no number.
def localName (session : Session) (kind : Kind) (suffix text : String) (owner : LabelId)
    (label : Label) : String :=
  "." ++ Text.toLower text ++ suffix ++
    if (session.localsOf kind owner).length > 1 then
      paddedNumber ((session.localsOf kind owner).countP (·.address < label.address) + 1)
        (digitCount (session.localsOf kind owner).length)
    else ""

def textOf (session : Session) (id : LabelId) : String :=
  ((session.labels.get? id).map (·.text)).getD ""

theorem namedBy_nameLocalsOf (session : Session) (h : session.labels.WellFormed) (kind : Kind)
    (suffix : String) (owner : LabelId) :
    session.NamedBy
      (fun label =>
        if label.kind == kind && session.owners.get label.address == some owner then
          some (session.localName kind suffix (session.textOf owner) owner label)
        else none)
      (session.nameLocalsOf kind suffix owner) := by
  have hordered : (session.localsOf kind owner).Pairwise
      fun label other => label.address < other.address := h.pairwise_live.filter _
  have heq : session.nameLocalsOf kind suffix owner = session.nameEach
      ((session.localsOf kind owner).map fun label =>
        (label.id, session.localName kind suffix (session.textOf owner) owner label)) := by
    unfold nameLocalsOf
    dsimp only
    rw [zipIdx_eq_map_countP Label.address _ 0 hordered, List.foldl_map]
    refine foldl_eq_nameEach _ _ session.config ?_ session rfl _
    intro current label _
    simp only [localName, textOf, Nat.zero_add]
  rw [heq]
  exact session.namedBy_nameEach h _ _

variable {session other : Session} {name? : Label → Option String}

theorem NamedBy.localName_eq (h : session.NamedBy name? other) (kind : Kind) (suffix text : String)
    (owner : LabelId) (label : Label) :
    other.localName kind suffix text owner (label.nameOr name?) =
      session.localName kind suffix text owner label := by
  have hlocals : other.localsOf kind owner =
      (session.localsOf kind owner).map (·.nameOr name?) := by
    rw [localsOf, h.live_eq, owners_of_ground h.revised.ground, List.filter_map]
    rfl
  simp only [localName, hlocals, List.length_map, List.countP_map]
  rfl

theorem NamedBy.textOf_eq (h : session.NamedBy name? other) (hwf : session.labels.WellFormed)
    {owner : Label} (hat : session.labels.at? owner.address = some owner) :
    other.textOf owner.id = (owner.nameOr name?).text := by
  have hnew : other.labels.at? owner.address = some (owner.nameOr name?) := by
    rw [h.at?_eq, hat, Option.map_some]
  have hget := (h.wellFormed hwf).get?_of_at? hnew
  change other.labels.get? owner.id = _ at hget
  rw [textOf, hget, Option.map_some, Option.getD_some]

def OwnersLive (session : Session) : Prop :=
  ∀ a id, session.owners.get a = some id → ∃ owner,
    session.labels.at? owner.address = some owner ∧ owner.id = id ∧ owner.kind.isTopLevel

theorem NamedBy.ownersLive (h : session.NamedBy name? other) (howners : session.OwnersLive) :
    other.OwnersLive := by
  intro a id hget
  rw [owners_of_ground h.revised.ground] at hget
  obtain ⟨owner, hat, hid, htop⟩ := howners a id hget
  refine ⟨owner.nameOr name?, ?_, hid, htop⟩
  change other.labels.at? owner.address = _
  rw [h.at?_eq, hat, Option.map_some]

-- Naming the local labels of one owner after the other. No owner gets a name on the way.
theorem namedBy_foldl_nameLocalsOf (h : session.labels.WellFormed) (kind : Kind) (suffix : String)
    (owners : List LabelId)
    (howners : ∀ id ∈ owners, ∃ owner, session.labels.at? owner.address = some owner ∧
      owner.id = id ∧ owner.kind ≠ kind) :
    session.NamedBy
      (fun label =>
        if label.kind == kind then
          (session.owners.get label.address).bind fun id =>
            if id ∈ owners then some (session.localName kind suffix (session.textOf id) id label)
            else none
        else none)
      (owners.foldl (·.nameLocalsOf kind suffix ·) session) := by
  induction owners using List.reverseRecOn with
  | nil => exact (NamedBy.refl session).congr h fun label _ => by simp
  | append_singleton owners id ih =>
      have hdone := ih fun other hother => howners other (List.mem_append_left _ hother)
      obtain ⟨owner, hat, hid, hkind⟩ := howners id (by simp)
      have htext : (owners.foldl (·.nameLocalsOf kind suffix ·) session).textOf id =
          session.textOf id := by
        have hnew := hdone.textOf_eq h hat
        rw [hid] at hnew
        rw [hnew, Label.nameOr_of_none (by simp [hkind]), textOf, ← hid, h.get?_of_at? hat,
          Option.map_some, Option.getD_some]
      rw [List.foldl_append, List.foldl_cons, List.foldl_nil]
      refine hdone.trans (namedBy_nameLocalsOf _ (hdone.wellFormed h) kind suffix id) ?_ h
      intro label _
      have hget := owners_of_ground hdone.revised.ground
      simp only [hdone.localName_eq, htext, hget]
      by_cases hlocal : label.kind = kind
      · cases howner : session.owners.get label.address with
        | none => simp [Label.nameOr, hlocal, howner]
        | some found =>
            by_cases hfound : found ∈ owners
            · simp [hlocal, hfound]
            · by_cases hlast : found = id
              · subst hlast
                simp [Label.nameOr, hlocal, hfound, howner]
              · simp [Label.nameOr, hlocal, hfound, hlast, howner]
      · simp [Label.nameOr, hlocal]

theorem mem_ownersOf (session : Session) (kind : Kind) (id : LabelId) :
    id ∈ session.ownersOf kind ↔ ∃ label ∈ session.labels.live, label.kind = kind ∧
      session.owners.get label.address = some id := by
  have hset : ∀ (ids : List LabelId) (set : Std.TreeSet LabelId compare),
      id ∈ (ids.foldl (·.insert ·) set).toList ↔ id ∈ set ∨ id ∈ ids := by
    intro ids
    induction ids with
    | nil => simp
    | cons first rest ih =>
        intro set
        rw [List.foldl_cons, ih, Std.TreeSet.mem_insert, Std.LawfulEqCmp.compare_eq_iff_eq,
          List.mem_cons]
        constructor
        · rintro ((rfl | hold) | hrest)
          · exact .inr (.inl rfl)
          · exact .inl hold
          · exact .inr (.inr hrest)
        · rintro (hold | rfl | hrest)
          · exact .inl (.inr hold)
          · exact .inl (.inl rfl)
          · exact .inr hrest
  rw [ownersOf, hset, List.mem_filterMap]
  simp [and_assoc]

theorem namedBy_nameLocals (h : session.labels.WellFormed) (howners : session.OwnersLive)
    {kind : Kind} (hkind : kind.isLocal) (suffix : String) :
    session.NamedBy
      (fun label =>
        if label.kind == kind then
          (session.owners.get label.address).map fun id =>
            session.localName kind suffix (session.textOf id) id label
        else none)
      (session.nameLocals kind suffix) := by
  have hfold := namedBy_foldl_nameLocalsOf h kind suffix (session.ownersOf kind) fun id hid => by
    obtain ⟨label, -, -, hget⟩ := (session.mem_ownersOf kind id).mp hid
    obtain ⟨owner, hat, hnumber, htop⟩ := howners _ _ hget
    refine ⟨owner, hat, hnumber, ?_⟩
    rintro rfl
    cases hkinds : owner.kind <;> simp [hkinds, Kind.isLocal, Kind.isTopLevel] at hkind htop
  refine hfold.congr h ?_
  intro label hlive
  by_cases hlocal : label.kind = kind
  · cases hget : session.owners.get label.address with
    | none => simp
    | some id =>
        have hmem : id ∈ session.ownersOf kind :=
          (session.mem_ownersOf kind id).mpr ⟨label, hlive, hlocal, hget⟩
        simp [hlocal, hmem]
  · simp [hlocal]

end Locals

-- The text of an owner by the time that its local labels are named.
def ownText (session : Session) (id : LabelId) : String :=
  ((session.labels.get? id).map fun owner => (owner.nameOr session.ownName?).text).getD ""

def localSuffix (session : Session) (kind : Kind) : String :=
  if kind == .localLoop then session.config.stems.localLoop else session.config.stems.localLabel

def coinedName? (session : Session) (label : Label) : Option String :=
  if label.kind.isLocal then
    (session.owners.get label.address).map fun id =>
      session.localName label.kind (session.localSuffix label.kind) (session.ownText id) id label
  else session.ownName? label

theorem ownName?_of_isLocal (session : Session) {label : Label} (h : label.kind.isLocal) :
    session.ownName? label = none := by
  cases hkind : label.kind <;> simp [hkind, Kind.isLocal] at h <;>
    simp [ownName?, nameCategory?, restartName?, hkind]

theorem NamedBy.nameLocals {session other : Session} {name? : Label → Option String}
    (h : session.NamedBy name? other) (hwf : session.labels.WellFormed)
    (howners : session.OwnersLive)
    (hown : ∀ owner : Label, owner.kind.isTopLevel → name? owner = session.ownName? owner)
    (kind : Kind) (hkind : kind.isLocal) (suffix : String) :
    session.NamedBy
      (fun label => (name? label).or
        (if label.kind == kind then
          (session.owners.get label.address).map fun id =>
            session.localName kind suffix (session.ownText id) id label
        else none))
      (other.nameLocals kind suffix) := by
  have hlocals := namedBy_nameLocals (h.wellFormed hwf) (h.ownersLive howners) hkind suffix
  refine h.trans hlocals ?_ hwf
  intro label _
  have htext : ∀ id, session.owners.get label.address = some id →
      session.ownText id = other.textOf id := by
    intro id hget
    obtain ⟨owner, hat, rfl, htop⟩ := howners _ _ hget
    rw [ownText, hwf.get?_of_at? hat, Option.map_some, Option.getD_some, h.textOf_eq hwf hat,
      Label.nameOr, Label.nameOr, hown owner htop]
  simp only [h.localName_eq, owners_of_ground h.revised.ground]
  change _ = (name? label).or (if label.kind == kind then
    (session.owners.get label.address).map fun id => _ else none)
  cases hget : session.owners.get label.address with
  | none => rfl
  | some id => rw [Option.map_some, Option.map_some, htext id hget]

-- All names that the naming of labels gives, in terms of the labels before.
theorem namedBy_nameLabels (session : Session) (h : session.labels.WellFormed)
    (howners : session.OwnersLive) (hnameOf : session.nameOf = none) :
    session.NamedBy session.coinedName? session.nameLabels := by
  have hown := session.namedBy_ownName? h
  have hlabels := hown.nameLocals h howners (fun _ _ => rfl) .localLabel rfl
    session.config.stems.localLabel
  have hloops := hlabels.nameLocals h howners (fun owner htop => by
    have hkind : owner.kind ≠ .localLabel := by
      intro hkind
      rw [hkind] at htop
      cases htop
    simp [hkind]) .localLoop rfl session.config.stems.localLoop
  have hconfig := config_of_ground hown.revised.ground
  have hconfig' := config_of_ground hlabels.revised.ground
  unfold nameLabels
  rw [hnameOf]
  dsimp only
  rw [hconfig, hconfig']
  refine hloops.congr h ?_
  intro label _
  rw [coinedName?]
  by_cases hlocal : label.kind.isLocal
  · rw [session.ownName?_of_isLocal hlocal]
    cases hkind : label.kind <;> simp [hkind, Kind.isLocal] at hlocal <;>
      simp [Kind.isLocal, localSuffix]
  · cases hkind : label.kind <;> simp [hkind, Kind.isLocal] at hlocal <;> simp [Kind.isLocal]

end Session

end Z80Atlas
