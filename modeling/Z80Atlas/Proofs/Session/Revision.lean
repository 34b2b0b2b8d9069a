import Z80Atlas.Proofs.Symbol.Store
import Z80Atlas.Session.Basic

namespace Z80Atlas

namespace LabelStore

theorem rel_trans {keep : Label → Label → Prop} (htrans : ∀ l m n, keep l m → keep m n → keep l n)
    {a b c : Option Label} (h : Option.Rel keep a b) (h' : Option.Rel keep b c) :
    Option.Rel keep a c := by
  cases h with
  | none => exact h'
  | some hkeep =>
      cases h' with
      | some hkeep' => exact .some (htrans _ _ _ hkeep hkeep')

theorem rel_mono {keep weaker : Label → Label → Prop} (hmono : ∀ l m, keep l m → weaker l m)
    {a b : Option Label} (h : Option.Rel keep a b) : Option.Rel weaker a b := by
  cases h with
  | none => exact .none
  | some hkeep => exact .some (hmono _ _ hkeep)

-- The same numbers are live, and every label stands in the relation `keep` to what it has become.
structure Revised (keep : Label → Label → Prop) (store other : LabelStore) : Prop where
  index : other.index = store.index
  labels : ∀ id, Option.Rel keep (store.get? id) (other.get? id)

namespace Revised

variable {keep : Label → Label → Prop} {store other third : LabelStore}

theorem refl (hrefl : ∀ label, keep label label) (store : LabelStore) :
    store.Revised keep store := by
  refine ⟨rfl, fun id => ?_⟩
  cases store.get? id with
  | none => exact .none
  | some label => exact .some (hrefl label)

theorem trans (htrans : ∀ l m n, keep l m → keep m n → keep l n) (h : store.Revised keep other)
    (h' : other.Revised keep third) : store.Revised keep third :=
  ⟨h'.index.trans h.index, fun id => rel_trans htrans (h.labels id) (h'.labels id)⟩

theorem mono {weaker : Label → Label → Prop} (hmono : ∀ l m, keep l m → weaker l m)
    (h : store.Revised keep other) : store.Revised weaker other :=
  ⟨h.index, fun id => rel_mono hmono (h.labels id)⟩

theorem modify (hrefl : ∀ label, keep label label) (store : LabelStore) (id : LabelId)
    (change : Label → Label)
    (hchange : ∀ label, store.get? id = some label → keep label (change label)) :
    store.Revised keep (store.modify id change) := by
  refine ⟨rfl, fun number => ?_⟩
  rw [get?_modify]
  by_cases hnumber : id = number
  · rw [if_pos hnumber]
    cases hlabel : store.get? number with
    | none => exact .none
    | some label => exact .some (hchange label (hnumber ▸ hlabel))
  · rw [if_neg hnumber]
    exact (refl hrefl store).labels number

theorem modifyAt (hrefl : ∀ label, keep label label) (store : LabelStore) (address : Address)
    (change : Label → Label) (hchange : ∀ label, keep label (change label)) :
    store.Revised keep (store.modifyAt address change) := by
  unfold LabelStore.modifyAt
  split
  · exact modify hrefl store _ change fun label _ => hchange label
  · exact refl hrefl store

theorem at?_rel (h : store.Revised keep other) (address : Address) :
    Option.Rel keep (store.at? address) (other.at? address) := by
  rw [at?, at?, idAt?, idAt?, h.index]
  cases store.index[address]? with
  | none => exact .none
  | some id => exact h.labels id

theorem exists_at? (h : store.Revised keep other) {address : Address} {label : Label}
    (hat : store.at? address = some label) :
    ∃ new, other.at? address = some new ∧ keep label new := by
  have hrel := h.at?_rel address
  rw [hat] at hrel
  generalize other.at? address = new? at hrel ⊢
  cases hrel with
  | some hkeep => exact ⟨_, rfl, hkeep⟩

theorem exists_before (h : store.Revised keep other) {address : Address} {new : Label}
    (hat : other.at? address = some new) :
    ∃ label, store.at? address = some label ∧ keep label new := by
  have hrel := h.at?_rel address
  rw [hat] at hrel
  generalize store.at? address = label? at hrel ⊢
  cases hrel with
  | some hkeep => exact ⟨_, rfl, hkeep⟩

theorem wellFormed (h : store.Revised keep other)
    (hplace : ∀ l m, keep l m → m.id = l.id ∧ m.address = l.address) (hlabels : store.WellFormed) :
    other.WellFormed := by
  intro address id hid
  rw [idAt?, h.index] at hid
  obtain ⟨label, hlabel, hnumber, haddress⟩ := hlabels address id hid
  have hrel := h.labels id
  rw [hlabel] at hrel
  generalize other.get? id = new? at hrel ⊢
  cases hrel with
  | some hkeep =>
      obtain ⟨hsame, hsame'⟩ := hplace _ _ hkeep
      exact ⟨_, rfl, hsame.trans hnumber, hsame'.trans haddress⟩

theorem ids_eq (h : store.Revised keep other) : other.ids = store.ids := by
  rw [ids, h.index, ids]

end Revised

end LabelStore

-- What the passes that tell labels apart build upon and leave alone.
structure Ground where
  memory : Memory
  decoder : Decoder
  config : Config
  owners : AddressTable (Option LabelId)
  snapshotStart : Option Address
  nameOf : Option (Address → String)

namespace Session

def ground (session : Session) : Ground :=
  ⟨session.memory, session.decoder, session.config, session.owners, session.snapshotStart,
    session.nameOf⟩

theorem memory_of_ground {session other : Session} (h : other.ground = session.ground) :
    other.memory = session.memory :=
  congrArg Ground.memory h

theorem decoder_of_ground {session other : Session} (h : other.ground = session.ground) :
    other.decoder = session.decoder :=
  congrArg Ground.decoder h

theorem config_of_ground {session other : Session} (h : other.ground = session.ground) :
    other.config = session.config :=
  congrArg Ground.config h

theorem owners_of_ground {session other : Session} (h : other.ground = session.ground) :
    other.owners = session.owners :=
  congrArg Ground.owners h

theorem instructionAt_of_ground {session other : Session} (h : other.ground = session.ground)
    (address : Address) : other.instructionAt address = session.instructionAt address := by
  rw [instructionAt, memory_of_ground h, decoder_of_ground h, instructionAt]

-- A pass has changed labels in the way of `keep`, and nothing that it builds upon.
structure Revised (keep : Label → Label → Prop) (session other : Session) : Prop where
  ground : other.ground = session.ground
  labels : session.labels.Revised keep other.labels

namespace Revised

variable {keep : Label → Label → Prop} {session other third : Session}

theorem refl (hrefl : ∀ label, keep label label) (session : Session) :
    session.Revised keep session :=
  ⟨rfl, .refl hrefl session.labels⟩

theorem trans (htrans : ∀ l m n, keep l m → keep m n → keep l n) (h : session.Revised keep other)
    (h' : other.Revised keep third) : session.Revised keep third :=
  ⟨h'.ground.trans h.ground, h.labels.trans htrans h'.labels⟩

theorem mono {weaker : Label → Label → Prop} (hmono : ∀ l m, keep l m → weaker l m)
    (h : session.Revised keep other) : session.Revised weaker other :=
  ⟨h.ground, h.labels.mono hmono⟩

theorem modifyLabel (hrefl : ∀ label, keep label label) (session : Session) (id : LabelId)
    (change : Label → Label)
    (hchange : ∀ label, session.labels.get? id = some label → keep label (change label)) :
    session.Revised keep (session.modifyLabel id change) :=
  ⟨rfl, .modify hrefl session.labels id change hchange⟩

-- What each step of a pass does, the pass does.
theorem foldl {α : Type} (hrefl : ∀ label, keep label label)
    (htrans : ∀ l m n, keep l m → keep m n → keep l n) (session : Session)
    (step : Session → α → Session) (xs : List α)
    (hstep : ∀ (current : Session) (x : α), current.ground = session.ground →
      current.Revised keep (step current x)) :
    session.Revised keep (xs.foldl step session) := by
  refine List.foldlRecOn xs step (refl hrefl session) ?_
  intro current hcurrent x _
  exact hcurrent.trans htrans (hstep current x hcurrent.ground)

end Revised

end Session

end Z80Atlas
