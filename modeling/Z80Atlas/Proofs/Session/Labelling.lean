import Z80Atlas.Analysis.Entry
import Z80Atlas.Analysis.Relocation
import Z80Atlas.Proofs.Discovery.CrossReference
import Z80Atlas.Proofs.Machine.Z80
import Z80Atlas.Proofs.Session.Revision

namespace Z80Atlas

-- What happens to a label while labels are collected: it keeps its number and its place, and gains
-- rank and references.
structure Label.Grows (old new : Label) : Prop where
  id : new.id = old.id
  address : new.address = old.address
  isFixed : old.isFixed → new.isFixed
  rank_le : old.kind.rank ≤ new.kind.rank
  references : ∀ a ∈ old.references, a ∈ new.references

namespace Label.Grows

theorem refl (label : Label) : label.Grows label :=
  ⟨rfl, rfl, fun h => h, Nat.le_refl _, fun _ ha => ha⟩

theorem trans {label other third : Label} (h : label.Grows other) (h' : other.Grows third) :
    label.Grows third where
  id := h'.id.trans h.id
  address := h'.address.trans h.address
  isFixed := h'.isFixed ∘ h.isFixed
  rank_le := h.rank_le.trans h'.rank_le
  references a ha := h'.references a (h.references a ha)

end Label.Grows

namespace Session

-- What holds of all labels while they are collected: constants are those outside the loaded memory,
-- a label stands for code or data, and no calls are listed yet.
structure Labelled (session : Session) : Prop where
  wellFormed : session.labels.WellFormed
  isEqu_eq : ∀ a label, session.labels.at? a = some label →
    label.isEqu = !session.memory.isAssigned a
  relocatable : ∀ a label, session.labels.at? a = some label → isRelocatable label.kind
  uncalled : ∀ a label, session.labels.at? a = some label → label.calls = #[]

def GrowsAt (session other : Session) (a : Address) : Prop :=
  ∀ label, session.labels.at? a = some label →
    ∃ new, other.labels.at? a = some new ∧ label.Grows new

theorem GrowsAt.refl (session : Session) (a : Address) : session.GrowsAt session a :=
  fun label hat => ⟨label, hat, .refl label⟩

theorem GrowsAt.trans {session other third : Session} {a : Address} (h : session.GrowsAt other a)
    (h' : other.GrowsAt third a) : session.GrowsAt third a := by
  intro label hat
  obtain ⟨new, hnew, hgrows⟩ := h label hat
  obtain ⟨last, hlast, hgrows'⟩ := h' new hnew
  exact ⟨last, hlast, hgrows.trans hgrows'⟩

structure Enriched (session other : Session) : Prop where
  ground : other.ground = session.ground
  labelled : other.Labelled
  grows : ∀ a, session.GrowsAt other a

theorem Enriched.refl {session : Session} (h : session.Labelled) : session.Enriched session :=
  ⟨rfl, h, GrowsAt.refl session⟩

theorem Enriched.trans {session other third : Session} (h : session.Enriched other)
    (h' : other.Enriched third) : session.Enriched third :=
  ⟨h'.ground.trans h.ground, h'.labelled, fun a => (h.grows a).trans (h'.grows a)⟩

structure Placed (session other : Session) (t : Address) (new : Label) : Prop where
  ground : other.ground = session.ground
  wellFormed : other.labels.WellFormed
  at?_eq : ∀ b, other.labels.at? b = if t = b then some new else session.labels.at? b

namespace Placed

variable {session other : Session} {t : Address} {new : Label}

theorem at?_self (h : session.Placed other t new) : other.labels.at? t = some new := by
  rw [h.at?_eq, if_pos rfl]

theorem at?_of_ne (h : session.Placed other t new) {b : Address} (hb : t ≠ b) :
    other.labels.at? b = session.labels.at? b := by
  rw [h.at?_eq, if_neg hb]

theorem labelled (h : session.Placed other t new) (hlabelled : session.Labelled)
    (hequ : new.isEqu = !session.memory.isAssigned t) (hkind : isRelocatable new.kind)
    (hcalls : new.calls = #[]) : other.Labelled := by
  have hcases : ∀ a label, other.labels.at? a = some label →
      (t = a ∧ label = new) ∨ session.labels.at? a = some label := by
    intro a label hat
    rw [h.at?_eq] at hat
    split at hat
    · next heq => exact .inl ⟨heq, (Option.some.inj hat).symm⟩
    · exact .inr hat
  refine ⟨h.wellFormed, ?_, ?_, ?_⟩
  · intro a label hat
    rw [memory_of_ground h.ground]
    rcases hcases a label hat with ⟨rfl, rfl⟩ | hold
    · exact hequ
    · exact hlabelled.isEqu_eq a label hold
  · intro a label hat
    rcases hcases a label hat with ⟨rfl, rfl⟩ | hold
    · exact hkind
    · exact hlabelled.relocatable a label hold
  · intro a label hat
    rcases hcases a label hat with ⟨rfl, rfl⟩ | hold
    · exact hcalls
    · exact hlabelled.uncalled a label hold

theorem growsAt (h : session.Placed other t new)
    (hgrows : ∀ old, session.labels.at? t = some old → old.Grows new) (a : Address) :
    session.GrowsAt other a := by
  intro label hat
  by_cases ha : t = a
  · subst ha
    exact ⟨new, h.at?_self, hgrows label hat⟩
  · exact ⟨label, by rw [h.at?_of_ne ha, hat], .refl label⟩

theorem enriched_of_some (h : session.Placed other t new) (hlabelled : session.Labelled)
    {old : Label} (hat : session.labels.at? t = some old) (hgrows : old.Grows new)
    (hequ : new.isEqu = old.isEqu) (hkind : isRelocatable new.kind)
    (hcalls : new.calls = old.calls) : session.Enriched other := by
  refine ⟨h.ground, h.labelled hlabelled ?_ hkind ?_, h.growsAt fun label hlabel => ?_⟩
  · rw [hequ, hlabelled.isEqu_eq t old hat]
  · rw [hcalls, hlabelled.uncalled t old hat]
  · rw [hat] at hlabel
    cases hlabel
    exact hgrows

theorem enriched_of_none (h : session.Placed other t new) (hlabelled : session.Labelled)
    (hat : session.labels.at? t = none) (hequ : new.isEqu = !session.memory.isAssigned t)
    (hkind : isRelocatable new.kind) (hcalls : new.calls = #[]) : session.Enriched other := by
  refine ⟨h.ground, h.labelled hlabelled hequ hkind hcalls, h.growsAt fun label hlabel => ?_⟩
  rw [hat] at hlabel
  cases hlabel

end Placed

def labelOr (session : Session) (t : Address) (kind : Kind) : Label :=
  (session.labels.at? t).getD { id := session.labels.nextId, address := t, kind }

theorem labelOr_of_some {session : Session} {t : Address} {label : Label}
    (h : session.labels.at? t = some label) (kind : Kind) : session.labelOr t kind = label := by
  rw [labelOr, h, Option.getD_some]

theorem labelOr_of_none {session : Session} {t : Address} (h : session.labels.at? t = none)
    (kind : Kind) :
    session.labelOr t kind = { id := session.labels.nextId, address := t, kind } := by
  rw [labelOr, h, Option.getD_none]

def fixedLabel (session : Session) (t : Address) (name : Option String) : Label :=
  { session.labelOr t .label with
    name := name.or (session.labelOr t .label).name
    isEqu := (session.labelOr t .label).isEqu || !session.memory.isAssigned t
    isFixed := true }

theorem placed_fixLabel (session : Session) (h : session.labels.WellFormed) (t : Address)
    (name : Option String) :
    session.Placed (session.fixLabel t name) t (session.fixedLabel t name) := by
  unfold fixLabel fixedLabel
  cases hid : session.labels.idAt? t with
  | some id =>
      obtain ⟨label, hlabel, -, -⟩ := h.exists_at? hid
      have hat := h.at?_modify hid
      dsimp only
      rw [labelOr_of_some hlabel, LabelStore.modifyAt, hid]
      split
      · refine ⟨rfl, h.modify _ _ fun _ => ⟨rfl, rfl⟩, fun b => ?_⟩
        rw [enqueue, hat, hlabel, Option.map_some]
      · refine ⟨rfl, h.modify _ _ fun _ => ⟨rfl, rfl⟩, fun b => ?_⟩
        rw [hat, hlabel, Option.map_some]
  | none =>
      have hnew : (session.labels.insert t .label).idAt? t = some session.labels.nextId := by
        rw [LabelStore.idAt?_insert, if_pos rfl]
      dsimp only
      rw [labelOr_of_none (LabelStore.at?_eq_none t hid), LabelStore.modifyAt, hnew]
      split
      · refine ⟨rfl, (h.insert t .label).modify _ _ fun _ => ⟨rfl, rfl⟩, fun b => ?_⟩
        rw [enqueue, h.at?_modify_insert]
      · refine ⟨rfl, (h.insert t .label).modify _ _ fun _ => ⟨rfl, rfl⟩, fun b => ?_⟩
        rw [h.at?_modify_insert]

def namedLabel (session : Session) (t : Address) (name : Option String) (kind : Kind) : Label :=
  match session.labels.at? t with
  | some label => if label.name.isNone || !label.isFixed then { label with name } else label
  | none =>
    { id := session.labels.nextId, address := t, kind, name, isEqu := !session.memory.isAssigned t }

theorem placed_setLabel (session : Session) (h : session.labels.WellFormed) (t : Address)
    (name : Option String) (kind : Kind) :
    session.Placed (session.setLabel t name kind) t (session.namedLabel t name kind) := by
  unfold setLabel namedLabel
  cases hid : session.labels.idAt? t with
  | some id =>
      obtain ⟨label, hlabel, -, -⟩ := h.exists_at? hid
      refine ⟨rfl, h.modify _ _ fun label => ?_, fun b => ?_⟩
      · split <;> exact ⟨rfl, rfl⟩
      · dsimp only [modifyLabel]
        rw [h.at?_modify hid, hlabel, Option.map_some]
  | none =>
      have hwf := (h.insert t kind).modify session.labels.nextId
        ({ · with name, isEqu := !session.memory.isAssigned t }) fun _ => ⟨rfl, rfl⟩
      rw [LabelStore.at?_eq_none t hid]
      dsimp only
      split
      · exact ⟨rfl, hwf, fun b => by rw [enqueue, modifyLabel, h.at?_modify_insert]⟩
      · exact ⟨rfl, hwf, fun b => by rw [modifyLabel, h.at?_modify_insert]⟩

theorem placed_meet (session : Session) (h : session.labels.WellFormed) (t : Address)
    (references : List Address) (kind : Kind) :
    session.Placed (session.meet t references kind) t (session.metLabel t references kind) := by
  refine ⟨?_, session.wellFormed_meet h t references kind, fun b => session.at?_meet h t b references kind⟩
  rw [meet_eq]
  rfl

theorem isRelocatable_promote {kind other : Kind} (h : isRelocatable kind)
    (h' : isRelocatable other) : isRelocatable (kind.promote other) := by
  unfold Kind.promote
  split
  · exact h'
  · exact h

theorem Labelled.enriched_foldl {session : Session} {α : Type} (h : session.Labelled)
    (step : Session → α → Session)
    (hstep : ∀ (current : Session) (x : α), current.Labelled → current.Enriched (step current x))
    (xs : List α) : session.Enriched (xs.foldl step session) := by
  refine List.foldlRecOn xs step (Enriched.refl h) ?_
  intro current hcurrent x _
  exact hcurrent.trans (hstep current x hcurrent.labelled)

theorem Labelled.enriched_fixLabel {session : Session} (h : session.Labelled) (t : Address)
    (name : Option String) : session.Enriched (session.fixLabel t name) := by
  have hplaced := session.placed_fixLabel h.wellFormed t name
  unfold fixedLabel at hplaced
  cases hat : session.labels.at? t with
  | some label =>
      rw [labelOr_of_some hat] at hplaced
      refine hplaced.enriched_of_some h hat ?_ ?_ (h.relocatable t label hat) rfl
      · exact ⟨rfl, rfl, fun _ => rfl, Nat.le_refl _, fun _ ha => ha⟩
      · dsimp only
        rw [h.isEqu_eq t label hat, Bool.or_self]
  | none =>
      rw [labelOr_of_none hat] at hplaced
      exact hplaced.enriched_of_none h hat (Bool.false_or _) rfl rfl

theorem Labelled.enriched_setLabel {session : Session} (h : session.Labelled) (t : Address)
    (name : Option String) (kind : Kind) (hkind : isRelocatable kind) :
    session.Enriched (session.setLabel t name kind) := by
  have hplaced := session.placed_setLabel h.wellFormed t name kind
  unfold namedLabel at hplaced
  cases hat : session.labels.at? t with
  | some label =>
      have hmoves := h.relocatable t label hat
      rw [hat] at hplaced
      dsimp only at hplaced
      split at hplaced
      · exact hplaced.enriched_of_some h hat
          ⟨rfl, rfl, fun hfixed => hfixed, Nat.le_refl _, fun _ ha => ha⟩ rfl hmoves rfl
      · exact hplaced.enriched_of_some h hat (.refl label) rfl hmoves rfl
  | none =>
      rw [hat] at hplaced
      exact hplaced.enriched_of_none h hat rfl hkind rfl

theorem Labelled.enriched_meet {session : Session} (h : session.Labelled) (t : Address)
    (references : List Address) (kind : Kind) (hkind : isRelocatable kind) :
    session.Enriched (session.meet t references kind) := by
  have hplaced := session.placed_meet h.wellFormed t references kind
  unfold metLabel at hplaced
  cases hat : session.labels.at? t with
  | some label =>
      have hmoves := isRelocatable_promote (h.relocatable t label hat) hkind
      rw [hat] at hplaced
      refine hplaced.enriched_of_some h hat ?_ rfl hmoves rfl
      refine ⟨rfl, rfl, fun hfixed => hfixed, ?_, fun a ha => ?_⟩
      · change label.kind.rank ≤ (label.kind.promote kind).rank
        rw [Kind.rank_promote]
        exact Nat.le_max_left _ _
      · exact ((label.promote kind).mem_addReferences references a).mpr (.inl ha)
  | none =>
      rw [hat] at hplaced
      exact hplaced.enriched_of_none h hat rfl hkind rfl

end Session

end Z80Atlas
