import Z80Atlas.Proofs.Analysis.Telling

namespace Z80Atlas

structure History where
  comments : Std.TreeMap Address Comment compare
  highlights : Std.HashMap Target String
  addressOfName : Std.HashMap String Address
  journal : Array Event
  listing : Option (List String)

def Comment.IsMarked (comment : Comment) : Prop :=
  ∀ line ∈ comment.before ++ comment.after, ∃ text, line = ";" ++ text

-- Of the comments kept, those that are new are marked.
def History.Amends (history later : History) : Prop :=
  ∀ (a : Address) (comment : Comment), later.comments[a]? = some comment →
    history.comments[a]? = some comment ∨ comment.IsMarked

namespace History.Amends

variable {history later last : History}

theorem refl (history : History) : history.Amends history := fun _ _ h => .inl h

theorem trans (h : history.Amends later) (h' : later.Amends last) : history.Amends last := by
  intro a comment hcomment
  rcases h' a comment hcomment with hold | hmarked
  · exact h a comment hold
  · exact .inr hmarked

theorem insert (history : History) (a : Address) {comment : Comment} (h : comment.IsMarked) :
    history.Amends { history with comments := history.comments.insert a comment } := by
  intro b other hother
  dsimp only at hother
  rw [Std.TreeMap.getElem?_insert] at hother
  split at hother
  · cases hother
    exact .inr h
  · exact .inl hother

end History.Amends

structure Counts where
  statistics : Std.TreeMap LabelId Statistics compare
  least : Statistics
  greatest : Statistics

namespace Statistics

theorem min_assoc (a b c : Statistics) : (a.min b).min c = a.min (b.min c) := by
  simp only [min, Nat.min_assoc]

theorem max_assoc (a b c : Statistics) : (a.max b).max c = a.max (b.max c) := by
  simp only [max, Nat.max_assoc]

end Statistics

-- What is counted in all if `new` is counted after `old`.
structure Recounted (old new all : Counts) : Prop where
  statistics : ∀ id : LabelId, all.statistics[id]? = new.statistics[id]?.or old.statistics[id]?
  least : all.least = old.least.min new.least
  greatest : all.greatest = old.greatest.max new.greatest

theorem Recounted.insert {old new all : Counts} (h : Recounted old new all) (n : LabelId)
    (statistics : Statistics) (id : LabelId) :
    (all.statistics.insert n statistics)[id]? =
      (new.statistics.insert n statistics)[id]?.or old.statistics[id]? := by
  rw [Std.TreeMap.getElem?_insert, Std.TreeMap.getElem?_insert, h.statistics]
  split <;> simp

namespace Session

def history (session : Session) : History :=
  ⟨session.comments, session.highlights, session.addressOfName, session.journal, session.listing⟩

def counts (session : Session) : Counts :=
  ⟨session.statistics, session.leastStatistics, session.greatestStatistics⟩

def withPast (session : Session) (history : History) (counts : Counts) : Session :=
  { session with
    comments := history.comments
    highlights := history.highlights
    addressOfName := history.addressOfName
    journal := history.journal
    listing := history.listing
    statistics := counts.statistics
    leastStatistics := counts.least
    greatestStatistics := counts.greatest }

-- A step that pays no heed to the past, adds no comments but marked ones, and counts nothing.
def Heedless (step : Session → Session) : Prop :=
  ∀ session history counts, ∃ history',
    step (session.withPast history counts) = (step session).withPast history' counts ∧
      history.Amends history'

section Heedless

variable {step next : Session → Session}

theorem Heedless.of_eq (h : ∀ session history counts,
    step (withPast session history counts) = (step session).withPast history counts) :
    Heedless step :=
  fun session history counts => ⟨history, h session history counts, .refl history⟩

theorem Heedless.comp (h : Heedless step) (h' : Heedless next) :
    Heedless fun session => next (step session) := by
  intro session history counts
  obtain ⟨middle, hmiddle, hamends⟩ := h session history counts
  obtain ⟨last, hlast, hamends'⟩ := h' (step session) middle counts
  refine ⟨last, ?_, hamends.trans hamends'⟩
  dsimp only
  rw [hmiddle, hlast]

theorem Heedless.foldl {α : Type} {step : Session → α → Session} (h : ∀ x, Heedless (step · x))
    (xs : List α) : Heedless (xs.foldl step) := by
  induction xs with
  | nil => exact .of_eq fun _ _ _ => rfl
  | cons x xs ih => exact (h x).comp ih

-- The steps may be chosen by what the past does not change.
theorem Heedless.foldl_of {α : Type} {step : Session → α → Session} (xs : Session → List α)
    (hxs : ∀ session history counts, xs (withPast session history counts) = xs session)
    (h : ∀ x, Heedless (step · x)) : Heedless fun session => (xs session).foldl step session := by
  intro session history counts
  obtain ⟨history', heq, hamends⟩ := Heedless.foldl h (xs session) session history counts
  refine ⟨history', ?_, hamends⟩
  dsimp only
  rw [hxs]
  exact heq

theorem Heedless.counts_eq (h : Heedless step) (session : Session) :
    (step session).counts = session.counts := by
  obtain ⟨history', heq, -⟩ := h session session.history session.counts
  change step session = _ at heq
  rw [heq]
  rfl

theorem heedless_modifyLabel (id : LabelId) (change : Label → Label) :
    Heedless (·.modifyLabel id change) :=
  .of_eq fun _ _ _ => rfl

theorem heedless_note (text : String) : Heedless (·.note text) := fun _ history _ =>
  ⟨{ history with journal := history.journal.push (.note text) }, rfl, .refl history⟩

theorem heedless_warn (kind : WarningKind) (address : Option Address) (message : String) :
    Heedless (·.warn kind address message) := fun _ history _ =>
  ⟨{ history with journal := history.journal.push (.warning ⟨kind, address, message⟩) }, rfl,
    .refl history⟩

theorem heedless_highlight (target : Target) (color : String) :
    Heedless (·.highlight target color) :=
  fun _ history _ =>
    ⟨{ history with highlights := history.highlights.insert target color }, rfl, .refl history⟩

end Heedless

section Labels

variable (session : Session) (history : History) (counts : Counts)

theorem memory_withPast : (session.withPast history counts).memory = session.memory := rfl

theorem config_withPast : (session.withPast history counts).config = session.config := rfl

theorem labels_withPast : (session.withPast history counts).labels = session.labels := rfl

theorem queue_withPast : (session.withPast history counts).queue = session.queue := rfl

theorem withPast_ite (cond : Prop) [Decidable cond] (a b : Session) :
    (if cond then a else b).withPast history counts =
      if cond then a.withPast history counts else b.withPast history counts :=
  apply_ite (withPast · history counts) cond a b

theorem snapshotStart_withPast :
    (session.withPast history counts).snapshotStart = session.snapshotStart := rfl

theorem setLabel_withPast (a : Address) (name : Option String) (kind : Kind) :
    (session.withPast history counts).setLabel a name kind =
      (session.setLabel a name kind).withPast history counts := by
  unfold setLabel
  dsimp only [withPast]
  cases session.labels.idAt? a with
  | some id => rfl
  | none =>
      dsimp only
      split <;> rfl

theorem fixLabel_withPast (a : Address) (name : Option String) :
    (session.withPast history counts).fixLabel a name =
      (session.fixLabel a name).withPast history counts := by
  unfold fixLabel
  dsimp only [withPast]
  cases session.labels.idAt? a <;> dsimp only <;> split <;> rfl

theorem fixTable_withPast (a : Address) (count : Nat) :
    (session.withPast history counts).fixTable a count =
      (session.fixTable a count).withPast history counts := by
  induction count generalizing session a with
  | zero => rfl
  | succ count ih =>
      rw [fixTable, fixLabel_withPast, ih]
      rfl

theorem meet_withPast (a : Address) (references : List Address) (kind : Kind) :
    (session.withPast history counts).meet a references kind =
      (session.meet a references kind).withPast history counts := by
  unfold meet
  dsimp only [withPast]
  cases session.labels.idAt? a <;> rfl

theorem enqueueStart_withPast :
    (session.withPast history counts).enqueueStart =
      session.enqueueStart.withPast history counts := by
  unfold enqueueStart
  rw [config_withPast, snapshotStart_withPast, memory_withPast, labels_withPast, fixLabel_withPast]
  by_cases hautomatic : session.config.automaticAddresses
  · cases session.snapshotStart with
    | some start => simp only [hautomatic]; rfl
    | none =>
        by_cases hassigned : session.memory.isAssigned 0
        · by_cases hlabel : session.labels.hasLabel 0 <;>
            simp only [hautomatic, hassigned, hlabel] <;> rfl
        · simp only [hautomatic, hassigned]
          rfl
  · simp only [hautomatic]
    rfl

end Labels

section Search

theorem heedless_remarkStack (a : Address) : Heedless (·.remarkStack a) := by
  intro session history counts
  have hpast : ∀ later,
      (session.remarkStack a).withPast later counts = session.withPast later counts := by
    intro later
    unfold remarkStack
    split <;> rfl
  refine ⟨((session.withPast history counts).remarkStack a).history, ?_, ?_⟩
  · dsimp only
    rw [hpast]
    unfold remarkStack
    split <;> rfl
  · have hmarked : Comment.IsMarked { before := ["; Last element of stack:"] } := by
      intro line hline
      rw [List.append_nil] at hline
      exact ⟨" Last element of stack:", List.mem_singleton.mp hline⟩
    unfold remarkStack
    split
    · exact .refl history
    · exact .insert history a hmarked

theorem heedless_linkOperand (a : Address) (instruction : Instruction) :
    Heedless (·.linkOperand a instruction) := by
  intro session history counts
  dsimp only
  unfold linkOperand
  cases instruction.target? with
  | some t =>
      refine ⟨history, ?_, .refl history⟩
      dsimp only
      rw [memory_withPast, meet_withPast, withPast_ite]
      rfl
  | none =>
      dsimp only
      split
      · cases instruction.value with
        | none => exact ⟨history, rfl, .refl history⟩
        | some value =>
            dsimp only
            split
            · obtain ⟨later, heq, hamends⟩ := heedless_remarkStack (value - 2)
                { session with offsets := session.offsets.insert value (-2) } history counts
              refine ⟨later, ?_, hamends⟩
              rw [← meet_withPast, ← heq]
              rfl
            · exact ⟨history, meet_withPast .., .refl history⟩
      · exact ⟨history, rfl, .refl history⟩

theorem heedless_accept (a : Address) (instruction : Instruction) :
    Heedless (·.accept a instruction) := by
  intro session history counts
  exact heedless_linkOperand a instruction
    { session with memory := session.memory.markInstruction a instruction.size } history counts

theorem discoverAt_withPast (session : Session) (history : History) (counts : Counts)
    (a : Address) :
    ∃ later, (session.withPast history counts).discoverAt a =
      ((session.discoverAt a).1.withPast later counts, (session.discoverAt a).2) ∧
      history.Amends later := by
  have hinspect : (session.withPast history counts).inspect a = session.inspect a := rfl
  unfold discoverAt
  rw [hinspect]
  cases session.inspect a with
  | known => exact ⟨history, rfl, .refl history⟩
  | unassigned missing =>
      dsimp only
      unfold warnUnassigned
      change ∃ later, (if session.config.allowUnassigned then _ else _, _) = _ ∧ _
      split
      · exact ⟨history, rfl, .refl history⟩
      · obtain ⟨later, heq, hamends⟩ :=
          heedless_warn .unassignedMemory (some missing) _ session history counts
        exact ⟨later, congrArg (·, none) heq, hamends⟩
  | overlap instruction other =>
      obtain ⟨later, heq, hamends⟩ := heedless_warn .ambiguousDisassembly (some a) _ session history counts
      exact ⟨later, congrArg (·, none) heq, hamends⟩
  | fresh instruction =>
      obtain ⟨later, heq, hamends⟩ := heedless_accept a instruction session history counts
      exact ⟨later, congrArg (·, instruction.fallThrough? a) heq, hamends⟩

theorem heedless_discoverFrom (a : Address) : Heedless (·.discoverFrom a) := by
  intro session history counts
  dsimp only
  fun_induction discoverFrom session a generalizing history with
  | case1 session a next h =>
      obtain ⟨later, heq, hamends⟩ := session.discoverAt_withPast history counts a
      refine ⟨later, ?_, hamends⟩
      rw [discoverFrom, heq, h]
  | case2 session a next following h ih =>
      obtain ⟨later, heq, hamends⟩ := session.discoverAt_withPast history counts a
      obtain ⟨last, hlast, hamends'⟩ := ih later
      refine ⟨last, ?_, hamends.trans hamends'⟩
      rw [discoverFrom, heq, h]
      exact hlast

theorem heedless_collect : Heedless collect := by
  intro session history counts
  fun_induction collect session generalizing history with
  | case1 session h =>
      refine ⟨history, ?_, .refl history⟩
      rw [collect]
      split
      · rfl
      · next hpop =>
        rw [queue_withPast, h] at hpop
        cases hpop
  | case2 session a queue h ih =>
      obtain ⟨later, heq, hamends⟩ := heedless_discoverFrom a { session with queue } history counts
      obtain ⟨last, hlast, hamends'⟩ := ih later
      refine ⟨last, ?_, hamends.trans hamends'⟩
      rw [← hlast, ← heq, collect]
      split
      · next hpop =>
        rw [queue_withPast, h] at hpop
        cases hpop
      · next hpop =>
        rw [queue_withPast, h] at hpop
        cases hpop
        rfl

end Search

section Passes

theorem heedless_noteLabels : Heedless noteLabels := fun session history counts =>
  heedless_note ("Collected " ++ Text.decimal session.labels.size ++ " labels") session history
    counts

theorem heedless_labelInterrupts : Heedless labelInterrupts := by
  intro session history counts
  have hentries :
      (session.withPast history counts).interruptEntries = session.interruptEntries := rfl
  unfold labelInterrupts
  dsimp only
  rw [hentries, config_withPast]
  refine Heedless.comp (.foldl ?_ _) (heedless_note _) session history counts
  rintro ⟨a, index⟩
  exact .of_eq fun session history counts => session.fixLabel_withPast history counts a _

theorem heedless_labelStarts : Heedless labelStarts := by
  have hareas : Heedless fun session =>
      (session.areaStarts.filter fun a => !session.labels.hasLabel a).foldl
        (fun session a => session.setLabel a (some ("BIN_START_" ++ Text.hex4 a)) .data)
        session := by
    refine .foldl_of _ (fun _ _ _ => rfl) fun a => ?_
    exact .of_eq fun session history counts => session.setLabel_withPast history counts a _ _
  intro session history counts
  unfold labelStarts
  rw [snapshotStart_withPast]
  cases session.snapshotStart with
  | none => exact hareas session history counts
  | some start =>
      dsimp only
      rw [config_withPast, labels_withPast, setLabel_withPast, ← withPast_ite]
      exact hareas _ history counts

theorem heedless_relocateLabel (id : LabelId) : Heedless (·.relocateLabel id) := by
  intro session history counts
  have hstart : ∀ a, (session.withPast history counts).instructionStart? a =
      session.instructionStart? a := fun _ => rfl
  dsimp only
  unfold relocateLabel
  rw [labels_withPast]
  cases session.labels.get? id with
  | none => exact ⟨history, rfl, .refl history⟩
  | some label =>
      dsimp only
      rw [hstart]
      cases session.instructionStart? label.address with
      | none => exact ⟨history, rfl, .refl history⟩
      | some start =>
          dsimp only
          rw [meet_withPast]
          let met := session.meet start label.references.toList label.kind
          exact heedless_note _ { met with
            labels := met.labels.erase label.address
            offsets := met.offsets.insert label.address (start.toNat - label.address.toNat) }
            history counts

theorem heedless_relocate : Heedless relocate :=
  .foldl_of _ (fun _ _ _ => rfl) heedless_relocateLabel

theorem revised_withPast (session : Session) (history : History) (counts : Counts) :
    session.Revised Label.Referred (session.withPast history counts) :=
  ⟨rfl, .refl Label.Referred.refl session.labels⟩

theorem heedless_linkFlowThrough (id : LabelId) : Heedless (·.linkFlowThrough id) := by
  refine .of_eq fun session history counts => ?_
  unfold linkFlowThrough
  rw [labels_withPast]
  cases session.labels.get? id with
  | none => rfl
  | some label =>
      dsimp only
      rw [flowsInto?_of_referred (session.revised_withPast history counts), withPast_ite]
      cases session.flowsInto? label.address with
      | none => rfl
      | some found =>
          dsimp only
          rw [withPast_ite]
          rfl

theorem heedless_promoteReturning (id : LabelId) : Heedless (·.promoteReturning id) := by
  intro session history counts
  have hreturns : ∀ a, (session.withPast history counts).returns a = session.returns a :=
    fun _ => rfl
  dsimp only
  unfold promoteReturning
  rw [labels_withPast]
  cases session.labels.get? id with
  | none => exact ⟨history, rfl, .refl history⟩
  | some label =>
      dsimp only
      rw [hreturns]
      split
      · exact (heedless_note _).comp (heedless_modifyLabel _ _) session history counts
      · exact ⟨history, rfl, .refl history⟩

theorem heedless_localizeWithin (id : LabelId) : Heedless (·.localizeWithin id) := by
  refine .of_eq fun session history counts => ?_
  have hinstruction : ∀ a, (session.withPast history counts).instructionAt a =
      session.instructionAt a := fun _ => rfl
  have hblock : ∀ a, (session.withPast history counts).block a = session.block a := fun a =>
    coherent_congr hinstruction _ _
  unfold localizeWithin
  rw [labels_withPast]
  cases session.labels.get? id with
  | none => rfl
  | some owner =>
      dsimp only
      rw [hblock, withPast_ite]
      rfl

theorem heedless_claimFor (id : LabelId) : Heedless (·.claimFor id) := by
  refine .of_eq fun session history counts => ?_
  unfold claimFor
  rw [labels_withPast]
  cases session.labels.get? id with
  | none => rfl
  | some label =>
      dsimp only
      rw [withPast_ite]
      rfl

theorem heedless_dropInnerReferences (id : LabelId) : Heedless (·.dropInnerReferences id) := by
  intro session history counts
  have hinner :
      (session.withPast history counts).isInnerReference id = session.isInnerReference id := rfl
  have howners : (session.withPast history counts).owners = session.owners := rfl
  dsimp only
  unfold dropInnerReferences
  rw [labels_withPast]
  cases session.labels.get? id with
  | none => exact ⟨history, rfl, .refl history⟩
  | some label =>
      dsimp only
      rw [hinner, howners]
      split
      · exact ((heedless_modifyLabel id _).comp (heedless_warn _ _ _)).comp
          (heedless_highlight _ _) session history counts
      · exact heedless_modifyLabel id _ session history counts

theorem heedless_linkCallers (id : LabelId) : Heedless (·.linkCallers id) := by
  intro session history counts
  dsimp only
  unfold linkCallers
  rw [labels_withPast]
  cases session.labels.get? id with
  | none => exact ⟨history, rfl, .refl history⟩
  | some label =>
      dsimp only
      split
      · exact ⟨history, rfl, .refl history⟩
      · exact Heedless.foldl (fun caller => heedless_modifyLabel caller _) _ session history counts

theorem heedless_nameNumbered (category : NameCategory) : Heedless (·.nameNumbered category) := by
  intro session history counts
  have hcategory : (session.withPast history counts).nameCategory? = session.nameCategory? := rfl
  dsimp only
  unfold nameNumbered
  dsimp only
  rw [hcategory, labels_withPast]
  refine Heedless.foldl ?_ _ session history counts
  rintro ⟨label, index⟩
  exact .of_eq fun _ _ _ => rfl

theorem heedless_nameRestarts : Heedless nameRestarts :=
  .foldl_of _ (fun _ _ _ => rfl) fun _ => .of_eq fun _ _ _ => rfl

theorem heedless_nameLocalsOf (kind : Kind) (suffix : String) (owner : LabelId) :
    Heedless (·.nameLocalsOf kind suffix owner) := by
  intro session history counts
  have hlocals :
      (session.withPast history counts).localsOf kind owner = session.localsOf kind owner := rfl
  dsimp only
  unfold nameLocalsOf
  dsimp only
  rw [hlocals, labels_withPast]
  refine Heedless.foldl ?_ _ session history counts
  rintro ⟨label, index⟩
  exact .of_eq fun _ _ _ => rfl

theorem heedless_nameLocals (kind : Kind) (suffix : String) :
    Heedless (·.nameLocals kind suffix) :=
  .foldl_of _ (fun _ _ _ => rfl) (heedless_nameLocalsOf kind suffix)

theorem heedless_nameLabels : Heedless nameLabels := by
  intro session history counts
  have hnameOf : (session.withPast history counts).nameOf = session.nameOf := rfl
  unfold nameLabels
  rw [hnameOf]
  cases session.nameOf with
  | some nameOf =>
      exact Heedless.foldl_of (·.labels.live) (fun _ _ _ => rfl)
        (fun label => heedless_modifyLabel label.id _) session history counts
  | none =>
      have hnumbered :=
        (((heedless_nameNumbered .subroutine).comp (heedless_nameNumbered .label)).comp
          (heedless_nameNumbered .data)).comp (heedless_nameNumbered .selfModifying)
      have hlocal : ∀ (kind : Kind) (suffix : NameStems → String),
          Heedless fun session => session.nameLocals kind (suffix session.config.stems) := by
        intro kind suffix session history counts
        exact heedless_nameLocals kind _ session history counts
      exact ((hnumbered.comp heedless_nameRestarts).comp (hlocal .localLabel (·.localLabel))).comp
        (hlocal .localLoop (·.localLoop)) session history counts

theorem heedless_located : Heedless located := by
  have hstart : Heedless enqueueStart := .of_eq enqueueStart_withPast
  have hfound := (hstart.comp heedless_collect).comp heedless_noteLabels
  have hentered := (hfound.comp heedless_labelInterrupts).comp heedless_labelStarts
  have hlocated := hentered.comp heedless_relocate
  exact hlocated

theorem heedless_told : Heedless told := by
  have hfalls : Heedless linkFlowThroughs :=
    .foldl_of (·.labels.ids) (fun _ _ _ => rfl) heedless_linkFlowThrough
  have hreturns : Heedless promoteSubroutines :=
    .foldl_of (·.labels.ids) (fun _ _ _ => rfl) heedless_promoteReturning
  have hlocal : Heedless localize :=
    .foldl_of (·.labels.ids) (fun _ _ _ => rfl) heedless_localizeWithin
  have htold := ((heedless_located.comp hfalls).comp hreturns).comp hlocal
  exact htold

theorem heedless_linked : Heedless fun session => session.told.assignOwners.linkCalls := by
  have hclaim : Heedless claimAll :=
    .foldl_of (·.labels.ids) (fun _ _ _ => rfl) heedless_claimFor
  have hdrop : Heedless fun session => session.labels.ids.foldl dropInnerReferences session :=
    .foldl_of (·.labels.ids) (fun _ _ _ => rfl) heedless_dropInnerReferences
  have hassign : Heedless assignOwners := hclaim.comp hdrop
  have hlink : Heedless linkCalls :=
    .foldl_of (·.labels.ids) (fun _ _ _ => rfl) heedless_linkCallers
  exact (heedless_told.comp hassign).comp hlink

end Passes

section Counting

-- A label is counted alike whatever was counted before.
theorem countLabel_withPast {session : Session} {old counts : Counts} (history : History)
    (h : Recounted old session.counts counts) (id : LabelId) :
    ∃ counts', (session.withPast history counts).countLabel id =
        (session.countLabel id).withPast history counts' ∧
      Recounted old (session.countLabel id).counts counts' := by
  have hsums : ∀ a, (session.withPast history counts).statisticsAt a = session.statisticsAt a :=
    fun _ => rfl
  unfold countLabel
  rw [labels_withPast]
  cases session.labels.get? id with
  | none => exact ⟨counts, rfl, h⟩
  | some label =>
      dsimp only
      rw [config_withPast, hsums]
      split
      · exact ⟨counts, rfl, h⟩
      split
      · refine ⟨{ counts with statistics := counts.statistics.insert id {} }, rfl, ?_⟩
        exact ⟨h.insert id {}, h.least, h.greatest⟩
      · generalize ({ session.statisticsAt label.address with
          complexity := (session.statisticsAt label.address).complexity + 1 } : Statistics) = sums
        refine ⟨⟨counts.statistics.insert id sums, counts.least.min sums, counts.greatest.max sums⟩,
          rfl, h.insert id sums, ?_, ?_⟩
        · dsimp only [Session.counts]
          rw [h.least, Statistics.min_assoc]
          rfl
        · dsimp only [Session.counts]
          rw [h.greatest, Statistics.max_assoc]
          rfl

theorem countStatistics_withPast {session : Session} {old counts : Counts} (history : History)
    (h : Recounted old session.counts counts) :
    ∃ counts', (session.withPast history counts).countStatistics =
        session.countStatistics.withPast history counts' ∧
      Recounted old session.countStatistics.counts counts' := by
  unfold countStatistics
  rw [labels_withPast]
  generalize session.labels.ids = ids
  induction ids generalizing session counts with
  | nil => exact ⟨counts, rfl, h⟩
  | cons id ids ih =>
      obtain ⟨middle, hmiddle, hcounts⟩ := countLabel_withPast history h id
      obtain ⟨last, hlast, hcounts'⟩ := ih hcounts
      refine ⟨last, ?_, hcounts'⟩
      rw [List.foldl_cons, hmiddle]
      exact hlast

end Counting

section Listing

variable (session : Session) (history : History) (counts : Counts)

theorem layOutArea_withPast (position : Nat) (state : ListingState) (items : Array ListingItem) :
    (session.withPast history counts).layOutArea position state items =
      session.layOutArea position state items := by
  fun_induction layOutArea session position state items with
  | case1 position state items hloaded a ih =>
      rw [layOutArea, memory_withPast, if_pos hloaded]
      exact ih
  | case2 position state items hends =>
      rw [layOutArea, memory_withPast, if_neg hends]

theorem memoryItems_withPast :
    (session.withPast history counts).memoryItems = session.memoryItems := by
  have hlabel : (session.withPast history counts).layOutLabel = session.layOutLabel := by
    funext layout label
    unfold layOutLabel
    dsimp only
    rw [layOutArea_withPast]
    rfl
  rw [memoryItems, hlabel]
  rfl

variable (hdisabled : session.config.disableComments)

include hdisabled

-- Without comments an item is written as if none were known.
theorem surround_of_disabled (a : Address) (statement : String) :
    session.surround a statement = [statement] := by
  unfold surround commented
  rw [hdisabled]
  split <;> rfl

theorem remarked_of_disabled (a : Address) (line remark : String) :
    session.remarked a line remark = [line] := by
  unfold remarked
  rw [session.surround_of_disabled hdisabled]
  simp [hdisabled]

theorem itemLines_withPast (item : ListingItem) :
    (session.withPast history counts).itemLines item = session.itemLines item := by
  have hsurround : (session.withPast history counts).surround = session.surround := by
    funext a statement
    rw [session.surround_of_disabled hdisabled]
    exact (session.withPast history counts).surround_of_disabled hdisabled a statement
  have hremarked : (session.withPast history counts).remarked = session.remarked := by
    funext a line remark
    rw [session.remarked_of_disabled hdisabled]
    exact (session.withPast history counts).remarked_of_disabled hdisabled a line remark
  cases item with
  | constant | label =>
      dsimp only [itemLines]
      rw [hsurround]
      rfl
  | instruction | byte =>
      dsimp only [itemLines]
      rw [hremarked]
      rfl
  | _ => rfl

theorem listingLines_withPast :
    (session.withPast history counts).listingLines = session.listingLines := by
  have hlines : (session.withPast history counts).itemLines = session.itemLines := by
    funext item
    exact session.itemLines_withPast history counts hdisabled item
  rw [listingLines, constantLines, memoryLines, memoryItems_withPast, hlines]
  rfl

end Listing

section Disassembly

variable {session : Session} {old counts : Counts}

theorem classify_withPast (history : History) (h : Recounted old session.counts counts) :
    ∃ later counts',
      (session.withPast history counts).classify = session.classify.withPast later counts' ∧
      Recounted old session.classify.counts counts' := by
  obtain ⟨later, hlinked, -⟩ := heedless_linked session history counts
  have hcounts : Recounted old session.told.assignOwners.linkCalls.counts counts := by
    rw [heedless_linked.counts_eq]
    exact h
  obtain ⟨counts', hcounted, hrecounted⟩ := countStatistics_withPast later hcounts
  refine ⟨later, counts', ?_, hrecounted⟩
  rw [classify_eq, classify_eq, ← hcounted]
  exact congrArg countStatistics hlinked

theorem analyse_of_disabled (h : session.classify.nameLabels.config.disableComments) :
    session.analyse = session.classify.nameLabels := by
  unfold analyse
  dsimp only
  rw [if_pos h]

theorem keepListing_withPast (session : Session) (history : History) (counts : Counts)
    (lines : List String) : (session.withPast history counts).keepListing lines =
      (session.keepListing lines).withPast { history with
        addressOfName := (session.keepListing lines).addressOfName
        listing := some lines } counts :=
  rfl

theorem counts_keepListing (session : Session) (lines : List String) :
    (session.keepListing lines).counts = session.counts := by
  rw [counts, counts]
  rfl

-- Apart from what it counts, an analysis without comments does not depend on the past.
theorem disassemble_withPast (history : History) (h : Recounted old session.counts counts)
    (hdisabled : session.classify.nameLabels.config.disableComments) :
    ∃ later counts', (session.withPast history counts).disassemble =
        session.disassemble.withPast later counts' ∧
      Recounted old session.disassemble.counts counts' ∧
      later.listing = session.disassemble.listing := by
  obtain ⟨middle, counts', hclassify, hrecounted⟩ := classify_withPast history h
  obtain ⟨later, hnamed, -⟩ := heedless_nameLabels session.classify middle counts'
  rw [← hclassify] at hnamed
  have hdisabled' :
      (session.withPast history counts).classify.nameLabels.config.disableComments := by
    rw [hnamed, config_withPast]
    exact hdisabled
  rw [← heedless_nameLabels.counts_eq] at hrecounted
  rw [disassemble, disassemble, analyse_of_disabled hdisabled, analyse_of_disabled hdisabled',
    hnamed, listingLines_withPast _ _ _ hdisabled, counts_keepListing]
  generalize session.classify.nameLabels = named at hrecounted ⊢
  exact ⟨_, counts', named.keepListing_withPast later counts' _, hrecounted, rfl⟩

end Disassembly

section Comments

def Marked (session : Session) : Prop :=
  ∀ (a : Address) (comment : Comment), session.comments[a]? = some comment → comment.IsMarked

variable {session : Session}

theorem Heedless.marked {step : Session → Session} (h : Heedless step) (hsession : session.Marked) :
    (step session).Marked := by
  obtain ⟨history', heq, hamends⟩ := h session session.history session.counts
  change step session = _ at heq
  rw [heq]
  intro a comment hcomment
  rcases hamends a comment hcomment with hold | hmarked
  · exact hsession a comment hold
  · exact hmarked

theorem Marked.countStatistics (h : session.Marked) : session.countStatistics.Marked := by
  refine List.foldlRecOn session.labels.ids countLabel h ?_
  intro current hcurrent id _
  have hcomments : (current.countLabel id).comments = current.comments := by
    unfold countLabel
    split
    · rfl
    · dsimp only
      split
      · rfl
      · split <;> rfl
  unfold Marked
  rw [hcomments]
  exact hcurrent

theorem isMarked_of_labelComment? {a : Address} {comment : Comment}
    (h : session.labelComment? a = some comment) : comment.IsMarked := by
  obtain ⟨label, -, rfl⟩ := Option.map_eq_some_iff.mp h
  intro line hline
  dsimp only at hline
  split at hline
  · cases hline
  · rw [List.append_nil] at hline
    obtain ⟨remark, -, rfl⟩ := List.mem_map.mp hline
    exact ⟨" " ++ remark, by rw [← String.append_assoc]; rfl⟩

theorem Marked.of_commentFor? (h : session.Marked) {a : Address} {comment : Comment}
    (hcomment : session.commentFor? a = some comment) : comment.IsMarked := by
  unfold commentFor? at hcomment
  split at hcomment
  · cases hcomment
  · rcases Option.or_eq_some_iff.mp hcomment with hold | ⟨-, hnew⟩
    · exact h a comment hold
    · exact isMarked_of_labelComment? hnew

theorem Marked.commentLabel (h : session.Marked) (id : LabelId) :
    (session.commentLabel id).Marked := by
  unfold Session.commentLabel
  split
  · exact h
  · next label _ =>
    split
    · exact h
    · split
      · next comment hcomment =>
        intro a other hother
        have hamends := History.Amends.insert session.history label.address (h.of_commentFor? hcomment)
        exact (hamends a other hother).elim (h a other) fun hmarked => hmarked
      · exact h

-- Whatever comments are generated are marked.
theorem Marked.analyse (h : session.Marked) : session.analyse.Marked := by
  have hnamed : session.classify.nameLabels.Marked := by
    rw [classify_eq]
    exact heedless_nameLabels.marked (heedless_linked.marked h).countStatistics
  unfold Session.analyse
  dsimp only
  split
  · exact hnamed
  · exact List.foldlRecOn _ _ hnamed fun current hcurrent id _ => hcurrent.commentLabel id

end Comments

end Session

end Z80Atlas
