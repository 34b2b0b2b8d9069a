import Mathlib.Logic.Relation
import Z80Atlas.Proofs.Analysis.Recursion

namespace Z80Atlas

namespace Session

section Waiting

variable {session other : Session}

-- Every label in loaded memory waits to be decoded from.
def Awaited (session : Session) : Prop :=
  ∀ a label, session.labels.at? a = some label → session.memory.isAssigned a →
    a ∈ session.queue.toList

theorem mem_queue_enqueue {q t : Address} :
    q ∈ (session.enqueue t).queue.toList ↔ q ∈ session.queue.toList ∨ q = t := by
  rw [enqueue, AddressQueue.toList_push, List.mem_append, List.mem_singleton]

theorem Awaited.enqueue (h : session.Awaited) (t : Address) : (session.enqueue t).Awaited :=
  fun a label hat hassigned => mem_queue_enqueue.mpr (.inl (h a label hat hassigned))

theorem Awaited.enqueue_placed (h : session.Awaited) {t : Address} {new : Label}
    (hplaced : session.Placed other t new)
    (hqueue : ∀ q ∈ session.queue.toList, q ∈ other.queue.toList) : (other.enqueue t).Awaited := by
  intro a label hat hassigned
  rw [mem_queue_enqueue]
  by_cases ha : t = a
  · exact .inr ha.symm
  · have hold : session.labels.at? a = some label := (hplaced.at?_of_ne ha).symm.trans hat
    have hloaded : session.memory.isAssigned a := by
      rw [← memory_of_ground hplaced.ground]
      exact hassigned
    exact .inl (hqueue a (h a label hold hloaded))

theorem Awaited.fixLabel (h : session.Awaited) (hwf : session.labels.WellFormed) (t : Address)
    (name : Option String) : (session.fixLabel t name).Awaited := by
  have hplaced := session.placed_fixLabel hwf t name
  intro a label hat hassigned
  rw [memory_of_ground hplaced.ground] at hassigned
  rw [queue_fixLabel, List.mem_append]
  by_cases ha : t = a
  · subst ha
    rw [if_pos hassigned]
    exact .inr (List.mem_singleton_self t)
  · rw [hplaced.at?_of_ne ha] at hat
    exact .inl (h a label hat hassigned)

theorem Awaited.fixTable (h : session.Awaited) (hwf : session.labels.WellFormed) (t : Address)
    (count : Nat) : (session.fixTable t count).Awaited := by
  induction count generalizing session t with
  | zero => exact h
  | succ count ih =>
      have hplaced := session.placed_fixLabel hwf (session.memory.word t) none
      exact ih (h.fixLabel hwf _ none) hplaced.wellFormed (t + 2)

theorem awaited_prepared (session : Session) (hlabels : session.labels = .empty)
    (blocks : List (Address × List UInt8)) (seeds : List Seed) :
    (session.prepared blocks seeds).Awaited := by
  have hempty : (session.loadAll blocks).labels = .empty := by
    rw [loadAll_eq, hlabels]
  have hrun : (session.prepared blocks seeds).Labelled ∧ (session.prepared blocks seeds).Awaited := by
    refine List.foldlRecOn (motive := fun current : Session => current.Labelled ∧ current.Awaited)
      seeds plant ?_ ?_
    · refine ⟨labelled_of_empty hempty, fun a label hat => ?_⟩
      rw [hempty] at hat
      cases hat
    · rintro current ⟨hlabelled, h⟩ seed -
      refine ⟨(hlabelled.enriched_plant seed).labelled, ?_⟩
      cases seed with
      | fixed t name => exact h.fixLabel hlabelled.wellFormed t name
      | waiting t => exact h.enqueue t
      | table t count => exact h.fixTable hlabelled.wellFormed t count
  exact hrun.2

theorem Awaited.enqueueStart (h : session.Awaited) (hwf : session.labels.WellFormed) :
    session.enqueueStart.Awaited := by
  unfold Session.enqueueStart
  split
  · exact h
  split
  · exact h.enqueue _
  split
  · exact h
  dsimp only
  split
  · next hlabel =>
    obtain ⟨label, hat⟩ := Option.isSome_iff_exists.mp hlabel
    exact h.enqueue_placed
      (session.placed_modifyAt hwf hat ({ · with kind := .label }) fun _ => ⟨rfl, rfl⟩)
      fun _ hq => hq
  · refine h.enqueue_placed (session.placed_fixLabel hwf 0 (some "ORG_0000")) fun q hq => ?_
    rw [queue_fixLabel]
    exact List.mem_append_left _ hq

theorem mem_queue_enqueueStart_of_snapshot {a : Address}
    (hautomatic : session.config.automaticAddresses) (hstart : session.snapshotStart = some a) :
    a ∈ session.enqueueStart.queue.toList := by
  have heq : session.enqueueStart = session.enqueue a := by
    simp [Session.enqueueStart, hautomatic, hstart]
  rw [heq]
  exact mem_queue_enqueue.mpr (.inr rfl)

end Waiting

section Gaps

variable {session other : Session} {a r : Address}

def Falls (session : Session) (a b : Address) : Prop :=
  session.memory.isAssigned a ∧ (session.instructionAt a).fallThrough? a = some b

def FallsAlong (session : Session) : Address → Address → Prop :=
  Relation.ReflTransGen session.Falls

-- A loaded address at which the search found no instruction although it had to do with it: a restart
-- that is denied, the inside of an instruction, or an instruction that is cut off or runs into code.
def LeftOut (session : Session) (x : Address) : Prop :=
  session.memory.isAssigned x ∧ ¬session.memory.isFirst x ∧
    (x ∈ session.config.deniedRestarts ∨ session.Settled x)

theorem instructionAt_congr (hmemory : other.memory = session.memory)
    (hdecoder : other.decoder = session.decoder) (a : Address) :
    other.instructionAt a = session.instructionAt a := by
  rw [instructionAt, instructionAt, hmemory, hdecoder]

theorem fallsAlong_congr (hmemory : other.memory = session.memory)
    (hdecoder : other.decoder = session.decoder) : other.FallsAlong = session.FallsAlong := by
  have hfalls : other.Falls = session.Falls := by
    funext a b
    rw [Falls, Falls, hmemory, instructionAt_congr hmemory hdecoder]
  rw [FallsAlong, FallsAlong, hfalls]

theorem leftOut_congr (hmemory : other.memory = session.memory)
    (hdecoder : other.decoder = session.decoder) (hconfig : other.config = session.config)
    (x : Address) : other.LeftOut x ↔ session.LeftOut x := by
  rw [LeftOut, LeftOut, Settled, Settled, hmemory, hconfig, instructionAt_congr hmemory hdecoder]

-- The instruction in front of the label that control falls into lies on the straight way to it.
theorem fallsAlong_of_flowsInto? {id : LabelId} (h : session.flowsInto? a = some (id, r)) :
    session.FallsAlong a r ∧ session.memory.isAssigned r := by
  fun_induction flowsInto? session a with
  | case1 => cases h
  | case2 => cases h
  | case3 a hassigned following hfall label hat hkind =>
      cases h
      exact ⟨.refl, by simpa using hassigned⟩
  | case4 a hassigned following hfall label hat hkind ih =>
      exact ⟨.head ⟨by simpa using hassigned, hfall⟩ (ih h).1, (ih h).2⟩
  | case5 a hassigned following hfall hat ih =>
      exact ⟨.head ⟨by simpa using hassigned, hfall⟩ (ih h).1, (ih h).2⟩

-- A straight way that ends outside of the found instructions leaves them at a place that was left out.
theorem exists_leftOut_of_fallsAlong
    (hclosed : ∀ f b, session.memory.isFirst f →
      (session.instructionAt f).fallThrough? f = some b → session.Settled b)
    (hassigned : session.memory.isAssigned r) (hr : ¬session.memory.isFirst r)
    (hway : session.FallsAlong a r)
    (ha : ¬session.memory.isFirst a → a ∈ session.config.deniedRestarts ∨ session.Settled a) :
    ∃ x, session.LeftOut x ∧ session.FallsAlong x r := by
  -- from the beginning: the first address of the way that is not found is the one looked for
  induction hway using Relation.ReflTransGen.head_induction_on with
  | refl => exact ⟨r, ⟨hassigned, hr, ha hr⟩, .refl⟩
  | head hfalls hrest ih =>
      next b c =>
      by_cases hb : session.memory.isFirst b
      · exact ih fun _ => .inr (hclosed b c hb hfalls.2)
      · exact ⟨b, ⟨hfalls.1, hb, ha hb⟩, .head hfalls hrest⟩

end Gaps

section Provenance

variable {session : Session} {label : Label} {r : Address}

-- A branch that makes a top-level label is followed, unless it is a denied restart.
theorem branchesTo_or_denied {a t : Address} (hdesignates : session.Designates a t)
    (htop : (session.role a t).isTopLevel) :
    session.BranchesTo a t ∨ t ∈ session.config.deniedRestarts := by
  cases htarget : (session.instructionAt a).target? with
  | none =>
      rw [role, Instruction.role, if_pos htarget] at htop
      cases htop
  | some target =>
      rw [Designates, Instruction.designated?, htarget] at hdesignates
      cases hdesignates
      by_cases hdenied : t ∈ session.config.deniedRestarts
      · exact .inr hdenied
      · exact .inl ⟨htarget, fun h => hdenied h.2⟩

theorem Analysable.explored_found (h : session.Analysable) :
    Search.Explored session.enqueueStart {q | q ∈ session.enqueueStart.queue.toList}
      ⟨session.found, none⟩ :=
  Search.explored_collect session.enqueueStart h.enqueueStart.readsBytes h.enqueueStart.unclassified
    session.enqueueStart.queue fun _ => Iff.rfl

theorem Analysable.settled_of_waiting (h : session.Analysable) {y : Address}
    (hy : y ∈ session.enqueueStart.queue.toList) : session.found.Settled y :=
  h.explored_found.settled_of_due y (.inl hy)

theorem Analysable.settled_of_leads (h : session.Analysable) {f y : Address}
    (hf : session.found.memory.isFirst f) (hleads : session.enqueueStart.Leads f y) :
    session.found.Settled y :=
  h.explored_found.settled_of_due y (.inr ⟨f, hf, hleads⟩)

-- The search had to do with every top-level label that it knows in loaded memory.
theorem Analysable.denied_or_settled_found (h : session.Analysable) (hawaited : session.Awaited)
    {x : Address} (hat : session.found.labels.at? x = some label) (htop : label.kind.isTopLevel)
    (hassigned : session.found.memory.isAssigned x) :
    x ∈ session.found.config.deniedRestarts ∨ session.found.Settled x := by
  have hsame := h.crossReferenced_found.same
  rcases (h.explains_found hat).kind_mem with ⟨seed, hseed, -⟩ | ⟨b, ⟨hb, hdesignates⟩, hkind⟩
  · rw [hsame.isAssigned_eq] at hassigned
    exact .inr (h.settled_of_waiting (hawaited.enqueueStart h.wellFormed x seed hseed hassigned))
  · rw [hkind] at htop
    rcases branchesTo_or_denied hdesignates htop with hbranch | hdenied
    · exact .inr (h.settled_of_leads hb (.inr hbranch))
    · rw [hsame.config]
      exact .inl hdenied

theorem Analysable.denied_or_settled_located (h : session.Analysable) (hawaited : session.Awaited)
    {x : Address} (hat : session.located.labels.at? x = some label) (htop : label.kind.isTopLevel)
    (hassigned : session.found.memory.isAssigned x) (hx : ¬session.found.memory.isFirst x) :
    x ∈ session.found.config.deniedRestarts ∨ session.found.Settled x := by
  rcases (h.merged_located hat).kind_mem with ⟨old, hold, hkind⟩ | ⟨m, hm, -⟩
  · rw [hkind] at htop
    cases hfound : session.found.labels.at? x with
    | some found =>
        rw [h.supplied_entered.kept x found hfound] at hold
        cases hold
        exact h.denied_or_settled_found hawaited hfound htop hassigned
    | none =>
        -- an added label that is not data begins an instruction or is the start of a snapshot
        have hfits := h.supplied_entered.fits x old hfound hold
        rcases hfits.kind with hlabel | hdata
        · obtain ⟨hautomatic, hstart⟩ := (hfits.entry hlabel).resolve_left hx
          rw [h.ground_found] at hautomatic hstart
          exact .inr (h.settled_of_waiting (mem_queue_enqueueStart_of_snapshot hautomatic hstart))
        · rw [hdata] at htop
          cases htop
  · have hfirst := (h.departs_iff.mp hm.1).2.1
    rw [memory_of_ground h.ground_entered] at hfirst
    exact absurd hfirst hx

-- What is not found and yet refers to a label is reached from a place that was left out.
theorem Analysable.exists_leftOut_of_fallsInto (h : session.Analysable) (hawaited : session.Awaited)
    {id : LabelId} (hfalls : session.located.FallsInto id r)
    (hr : ¬session.found.memory.isFirst r) :
    ∃ x, session.found.LeftOut x ∧ session.found.FallsAlong x r := by
  have hmemory := memory_of_ground h.ground_located
  have hdecoder := decoder_of_ground h.ground_located
  obtain ⟨source, hlive, htop, -, hflows⟩ := hfalls
  obtain ⟨hway, hassigned⟩ := fallsAlong_of_flowsInto? hflows
  rw [fallsAlong_congr hmemory hdecoder] at hway
  rw [hmemory] at hassigned
  refine exists_leftOut_of_fallsAlong ?_ hassigned hr hway fun hsource => ?_
  · intro f b hf hfall
    refine h.settled_of_leads hf (.inl ?_)
    rw [← h.crossReferenced_found.same.instructionAt_eq h.enqueueStart.readsBytes]
    exact hfall
  · have hloaded : session.found.memory.isAssigned source.address := by
      rcases hway.cases_head with heq | ⟨b, hfirst, -⟩
      · rw [heq]
        exact hassigned
      · exact hfirst.1
    exact h.denied_or_settled_located hawaited ((h.wellFormed_located.mem_live source).mp hlive)
      htop hloaded hsource

-- A reference that is no found instruction comes from falling into the label.
theorem Ready.mem_references_iff_fallsInto (h : session.Ready) (hfresh : session.Unreferenced)
    (hlive : label ∈ session.analyse.labels.live) (hr : ¬session.analyse.memory.isFirst r) :
    r ∈ label.references ↔ session.located.FallsInto label.id r ∧
      ¬session.analyse.isInnerReference label.id r := by
  rw [h.kept_located.1] at hr
  rw [h.mem_references_iff_of_live hfresh hlive]
  simp only [hr, Bool.false_eq_true, false_and, false_or]

theorem Ready.exists_leftOut_analyse (h : session.Ready) (hawaited : session.Awaited) {id : LabelId}
    (hfalls : session.located.FallsInto id r) (hr : ¬session.analyse.memory.isFirst r) :
    ∃ x, session.analyse.LeftOut x ∧ session.analyse.FallsAlong x r := by
  obtain ⟨hmemory, hdecoder⟩ := h.kept_located
  have hconfig : session.analyse.config = session.found.config :=
    session.kept_analyse.config.trans (config_of_ground h.ground_located)
  rw [hmemory] at hr
  obtain ⟨x, hleft, hway⟩ := h.analysable.exists_leftOut_of_fallsInto hawaited hfalls hr
  rw [← fallsAlong_congr hmemory hdecoder] at hway
  exact ⟨x, (leftOut_congr hmemory hdecoder hconfig x).mpr hleft, hway⟩

end Provenance

-- References that are no found instructions: another label falls into this one through them, and on
-- the way there it passes a place that the search left out. All other references are found ones.
theorem disassemble_traces_references (config : Config) (snapshotStart : Option Address)
    (blocks : List (Address × List UInt8)) (seeds : List Seed) :
    let start := ({ config, snapshotStart } : Session).prepared blocks seeds
    let session := start.disassemble
    (∀ label ∈ session.labels.live, ∀ r, ¬session.memory.isFirst r →
      (r ∈ label.references ↔
        start.located.FallsInto label.id r ∧ ¬session.isInnerReference label.id r)) ∧
    ∀ label ∈ session.labels.live, ∀ r ∈ label.references, session.memory.isFirst r ∨
      ((session.instructionAt r).fallThrough? r = some label.address ∧
        ∃ x, session.LeftOut x ∧ session.FallsAlong x r) := by
  intro start session
  have hready : start.Ready :=
    ready_prepared { config, snapshotStart } rfl Memory.unclassified_empty rfl blocks seeds
  have hfresh : start.Unreferenced := unreferenced_prepared { config, snapshotStart } rfl blocks seeds
  have hawaited : start.Awaited := awaited_prepared { config, snapshotStart } rfl blocks seeds
  have hlabels : session.labels = start.analyse.labels := start.labels_disassemble
  have hground : session.ground = start.analyse.ground := start.ground_disassemble
  have hmemory := memory_of_ground hground
  have hdecoder := decoder_of_ground hground
  have hconfig := config_of_ground hground
  simp only [hlabels, hmemory, instructionAt_of_ground hground, isInnerReference_of_ground hground,
    leftOut_congr hmemory hdecoder hconfig, fallsAlong_congr hmemory hdecoder]
  refine ⟨?_, ?_⟩
  · intro label hlive r hr
    exact hready.mem_references_iff_fallsInto hfresh hlive hr
  · intro label hlive r href
    by_cases hr : start.analyse.memory.isFirst r
    · exact .inl hr
    · have hfalls := ((hready.mem_references_iff_fallsInto hfresh hlive hr).mp href).1
      exact .inr ⟨hready.fallThrough?_of_fallsInto hlive hfalls,
        hready.exists_leftOut_analyse hawaited hfalls hr⟩

end Session

end Z80Atlas
