import Z80Atlas.Proofs.Analysis.GivenNames
import Z80Atlas.Proofs.Analysis.Interrupts
import Z80Atlas.Proofs.Analysis.Locality
import Z80Atlas.Proofs.Analysis.Provenance
import Z80Atlas.Proofs.Report.Line
import Z80Atlas.Proofs.Session.Readiness
import Z80Atlas.Proofs.Text.Numeral
import Z80Atlas.Report.FlowChart

namespace Z80Atlas

inductive ChartNode where
  | start (routine : Address)
  | finish (routine : Address)
  | run (first : Address)
  deriving DecidableEq

def ChartNode.name : ChartNode → String
  | .start routine => Session.runName routine ++ "start"
  | .finish routine => Session.runName routine ++ "end"
  | .run first => Session.runName first

def ChartNode.address : ChartNode → Address
  | .start routine => routine
  | .finish routine => routine
  | .run first => first

def ChartNode.suffix : ChartNode → String
  | .start _ => "start"
  | .finish _ => "end"
  | .run _ => ""

theorem ChartNode.name_eq (node : ChartNode) :
    node.name = Session.runName node.address ++ node.suffix := by
  cases node with
  | start => rfl
  | finish => rfl
  | run => exact String.append_empty.symm

theorem ChartNode.name_injective : Function.Injective ChartNode.name := by
  intro node other h
  rw [name_eq, name_eq, Session.runName, Session.runName, String.append_assoc,
    String.append_assoc] at h
  have hlists := congrArg String.toList h
  simp only [String.toList_append, List.append_cancel_left_eq] at hlists
  -- the digits of an address are always as many
  obtain ⟨hdigits, hsuffix⟩ := List.append_inj hlists
    (by rw [(Text.isHex_hex4 _).length_eq, (Text.isHex_hex4 _).length_eq])
  have haddress : node.address = other.address :=
    UInt16.toNat_inj.mp (Text.hex_inj (String.toList_inj.mp hdigits))
  cases node <;> cases other <;> simp_all [address, suffix]

namespace ChartItem

def node? : ChartItem → Option ChartNode
  | .start routine => some (.start routine)
  | .finish routine => some (.finish routine)
  | .run first _ => some (.run first)
  | _ => none

def edge? : ChartItem → Option (ChartNode × ChartNode)
  | .enter routine => some (.start routine, .run routine)
  | .branch first target => some (.run first, .run target)
  | .next first target => some (.run first, .run target)
  | .leave first routine => some (.run first, .finish routine)
  | _ => none

def instructions : ChartItem → List Address
  | .run _ instructions => instructions
  | _ => []

def nodes (items : List ChartItem) : List ChartNode := items.filterMap node?

theorem nodes_concat_of_none (items : List ChartItem) {item : ChartItem} (h : item.node? = none) :
    nodes (items ++ [item]) = nodes items := by
  simp [nodes, List.filterMap_append, h]

theorem nodes_concat_run (items : List ChartItem) (first : Address) (instructions : List Address) :
    nodes (items ++ [.run first instructions]) = nodes items ++ [.run first] := by
  simp [nodes, List.filterMap_append, node?]

theorem run_mem_nodes {items : List ChartItem} {first : Address} (h : .run first ∈ nodes items) :
    ∃ instructions, .run first instructions ∈ items := by
  obtain ⟨item, hitem, hnode⟩ := List.mem_filterMap.mp h
  cases item <;> cases hnode
  exact ⟨_, hitem⟩

-- The label of a run: the texts of its instructions and of no others, each on a line of its own.
def ShowsTexts (session : Session) (item : ChartItem) (attributes : String) : Prop :=
  ∃ texts, List.Forall₂ (fun a text =>
      text = (session.instructionText (session.instructionAt a) false).1 ∧
        ∃ operand, session.InstructionText a operand text) item.instructions texts ∧
    attributes = "label=\"" ++ "\\l".intercalate (texts.map Report.escapeDot) ++ "\\l\""

-- The line of an item in DOT. A node is declared by its name, an edge by the names of two nodes.
structure Writes (session : Session) (item : ChartItem) (line : String) : Prop where
  declares : ∀ node, item.node? = some node →
    ∃ attributes, line = node.name ++ " [" ++ attributes ++ "];\n" ∧
      ∀ first, node = .run first → item.ShowsTexts session attributes
  joins : ∀ source target, item.edge? = some (source, target) →
    ∃ attributes, line = source.name ++ " -> " ++ target.name ++ attributes ++ ";\n"

end ChartItem

open ChartItem (nodes)

-- Edges join nodes of the chart, each node is declared once, and no instruction is shown in two
-- nodes.
structure WellFormedChart (items : List ChartItem) : Prop where
  joined : ∀ item ∈ items, ∀ source target, item.edge? = some (source, target) →
    source ∈ nodes items ∧ target ∈ nodes items
  once : ((nodes items).map ChartNode.name).Nodup
  apart : ∀ item ∈ items, ∀ other ∈ items, ∀ a ∈ item.instructions, a ∈ other.instructions →
    item.node? = other.node?

namespace Session

section Runs

variable {session : Session}

structure JoinsRun (session : Session) (a b : Address) : Prop where
  next : a.next? (session.instructionAt a).size = some b
  unlabelled : ¬session.labels.hasLabel b
  assigned : session.memory.isAssigned b
  plain : ¬(session.instructionAt a).flow.branch ∧ ¬(session.instructionAt a).flow.ret
  falls : ¬(session.instructionAt a).flow.stop

theorem JoinsRun.fallThrough? {a b : Address} (h : session.JoinsRun a b) :
    (session.instructionAt a).fallThrough? a = some b := by
  rw [Instruction.fallThrough?, if_neg h.falls, h.next]

theorem runFrom_cases (session : Session) (a : Address) :
    (session.runFrom a = [a] ∧ ∀ b, ¬session.JoinsRun a b) ∨
      ∃ b, session.JoinsRun a b ∧ session.runFrom a = a :: session.runFrom b := by
  rw [runFrom]
  split
  · next hnext => exact .inl ⟨rfl, fun b hjoins => by simp [hjoins.next] at hnext⟩
  · next b hnext =>
    dsimp only
    split
    · next hends =>
      refine .inl ⟨rfl, fun other hjoins => ?_⟩
      obtain rfl : b = other := Option.some.inj (hnext.symm.trans hjoins.next)
      have := hjoins.unlabelled
      have := hjoins.assigned
      have := hjoins.plain
      have := hjoins.falls
      simp_all
    · next hgoes =>
      simp only [Bool.or_eq_true, not_or, Bool.not_eq_true', Bool.not_eq_false] at hgoes
      obtain ⟨⟨⟨⟨hlabel, hassigned⟩, hbranch⟩, hret⟩, hstop⟩ := hgoes
      exact .inr ⟨b, ⟨hnext, hlabel, hassigned, ⟨hbranch, hret⟩, hstop⟩, rfl⟩

theorem JoinsRun.lt {a b : Address} (h : session.JoinsRun a b) : a.toNat < b.toNat :=
  Instruction.lt_of_fallThrough? h.fallThrough?

-- A run is its first instruction, or that and the run behind it.
theorem runFrom_induct (session : Session) {motive : Address → List Address → Prop}
    (last : ∀ a, (∀ b, ¬session.JoinsRun a b) → motive a [a])
    (more : ∀ a b, session.JoinsRun a b → motive b (session.runFrom b) →
      motive a (a :: session.runFrom b)) (a : Address) : motive a (session.runFrom a) := by
  induction hn : addressCount - a.toNat using Nat.strong_induction_on generalizing a with
  | h n ih =>
      rcases session.runFrom_cases a with ⟨hrun, hends⟩ | ⟨b, hjoins, hrun⟩
      · rw [hrun]
        exact last a hends
      · rw [hrun]
        have hlt := hjoins.lt
        have hbound := b.toNat_lt
        exact more a b hjoins (ih (addressCount - b.toNat) (by omega) b rfl)

theorem mem_runFrom_self (session : Session) (a : Address) : a ∈ session.runFrom a :=
  session.runFrom_induct (motive := fun a run => a ∈ run) (fun _ _ => List.mem_cons_self)
    (fun _ _ _ _ => List.mem_cons_self) a

theorem joins_of_mem_runFrom {a x : Address} (h : x ∈ session.runFrom a) :
    x = a ∨ ∃ y ∈ session.runFrom a, session.JoinsRun y x := by
  revert h
  refine session.runFrom_induct
    (motive := fun a run => x ∈ run → x = a ∨ ∃ y ∈ run, session.JoinsRun y x) ?_ ?_ a
  · intro a _ hx
    exact .inl (List.mem_singleton.mp hx)
  · intro a b hjoins ih hx
    rcases List.mem_cons.mp hx with rfl | hx
    · exact .inl rfl
    · rcases ih hx with rfl | ⟨y, hy, hyx⟩
      · exact .inr ⟨a, List.mem_cons_self, hjoins⟩
      · exact .inr ⟨y, List.mem_cons_of_mem a hy, hyx⟩

theorem runFrom_keeps {P : Address → Prop} (hstep : ∀ y x, P y → session.JoinsRun y x → P x)
    {a : Address} (ha : P a) : ∀ x ∈ session.runFrom a, P x := by
  revert ha
  refine session.runFrom_induct (motive := fun a run => P a → ∀ x ∈ run, P x) ?_ ?_ a
  · intro a _ ha x hx
    rw [List.mem_singleton.mp hx]
    exact ha
  · intro a b hjoins ih ha x hx
    rcases List.mem_cons.mp hx with rfl | hx
    · exact ha
    · exact ih (hstep a b ha hjoins) x hx

-- The last instruction of a run is the one from which it does not go on.
theorem getLastD_runFrom (session : Session) (a other : Address) :
    (session.runFrom a).getLastD other ∈ session.runFrom a ∧
      ∀ b, ¬session.JoinsRun ((session.runFrom a).getLastD other) b := by
  refine session.runFrom_induct
    (motive := fun _ run => ∀ other, run.getLastD other ∈ run ∧
      ∀ b, ¬session.JoinsRun (run.getLastD other) b) ?_ ?_ a other
  · intro a hends other
    exact ⟨List.mem_cons_self, hends⟩
  · intro a b _ ih other
    rw [List.getLastD_cons]
    exact ⟨List.mem_cons_of_mem a (ih a).1, (ih a).2⟩

end Runs

section Survey

variable {session : Session} {s a b x y z : Address}

structure Surveyed (session : Session) (s : Address) : Prop where
  tiled : session.Tiled
  first_of_comesTo : ∀ a, session.ComesTo s a → session.memory.isFirst a
  labelled : ∀ f t, session.memory.isFirst f → (session.instructionAt f).target? = some t →
    session.memory.isFirst t → session.labels.hasLabel t

def Charts (session : Session) (s a : Address) : Prop := session.ComesTo s a ∧ s ≤ a

-- A run of the chart begins at `a`: the routine begins there, there is a label, or the run in
-- front of it ends with a branch or a return.
structure OpensRun (session : Session) (s a : Address) : Prop where
  charts : session.Charts s a
  reason : a = s ∨ session.labels.hasLabel a ∨
    ∃ z, session.Charts s z ∧ (session.instructionAt z).fallThrough? z = some a ∧
      ((session.instructionAt z).flow.branch ∨ (session.instructionAt z).flow.ret)

theorem ComesTo.isAssigned (h : session.ComesTo s a) : session.memory.isAssigned a := by
  obtain ⟨hs, hsteps⟩ := h
  cases hsteps with
  | refl => exact hs
  | tail _ hlast => exact hlast.1

theorem Charts.joins (h : session.Charts s y) (hjoins : session.JoinsRun y x) :
    session.Charts s x := by
  have hle := UInt16.le_iff_toNat_le.mp h.2
  have hlt := hjoins.lt
  refine ⟨⟨h.1.1, h.1.2.tail ⟨hjoins.assigned, .inl hjoins.fallThrough?⟩⟩, ?_⟩
  rw [UInt16.le_iff_toNat_le]
  omega

theorem Charts.of_mem_runFrom (h : session.Charts s a) (hx : x ∈ session.runFrom a) :
    session.Charts s x :=
  runFrom_keeps (fun _ _ hy hjoins => hy.joins hjoins) h x hx

theorem charts_of_mem_block (h : a ∈ session.block s) : session.Charts s a :=
  ⟨(session.reaches_callFree_iff s a).mp (reaches_of_mem_block h), le_of_mem_block h⟩

theorem next?_of_fallThrough? (h : (session.instructionAt a).fallThrough? a = some b) :
    a.next? (session.instructionAt a).size = some b := by
  unfold Instruction.fallThrough? at h
  split at h
  · cases h
  · exact h

namespace Surveyed

variable (h : session.Surveyed s)

include h

theorem isFirst (ha : session.Charts s a) : session.memory.isFirst a := h.first_of_comesTo a ha.1

-- Instructions do not overlap, so that only one of them ends in front of an address.
theorem eq_of_next? (hy : session.Charts s y) (hz : session.Charts s z)
    (hyx : y.next? (session.instructionAt y).size = some x)
    (hzx : z.next? (session.instructionAt z).size = some x) : y = z := by
  have hapart : ∀ u v : Address, session.memory.isFirst u → session.memory.isFirst v →
      u.next? (session.instructionAt u).size = some x → u.toNat < v.toNat → v.toNat < x.toNat →
      False := by
    intro u v hu hv hux hlt hbound
    rw [Address.next?_eq_some_iff] at hux
    have hmem : v ∈ session.extent u := by
      refine ⟨v.toNat - u.toNat, by omega, ?_⟩
      rw [← UInt16.toNat_inj, Address.toNat_plus]
      have hspace : v.toNat < 65536 := v.toNat_lt
      omega
    have heq := h.tiled.first_of_extent u hu v hmem hv
    rw [heq] at hlt
    exact Nat.lt_irrefl _ hlt
  have hyx' := (Address.next?_eq_some_iff _ _ _).mp hyx
  have hzx' := (Address.next?_eq_some_iff _ _ _).mp hzx
  have hysize := (session.instructionAt y).size_pos
  have hzsize := (session.instructionAt z).size_pos
  rcases Nat.lt_trichotomy y.toNat z.toNat with hlt | heq | hlt
  · exact (hapart y z (h.isFirst hy) (h.isFirst hz) hyx hlt (by omega)).elim
  · exact UInt16.toNat_inj.mp heq
  · exact (hapart z y (h.isFirst hz) (h.isFirst hy) hzx hlt (by omega)).elim

-- No run goes on into an address at which one begins.
theorem not_joinsRun (hx : session.OpensRun s x) (hy : session.Charts s y) :
    ¬session.JoinsRun y x := by
  intro hjoins
  rcases hx.reason with rfl | hlabel | ⟨z, hz, hfall, hends⟩
  · have hle := UInt16.le_iff_toNat_le.mp hy.2
    have hlt := hjoins.lt
    omega
  · exact hjoins.unlabelled hlabel
  · obtain rfl := h.eq_of_next? hy hz hjoins.next (next?_of_fallThrough? hfall)
    exact hends.elim hjoins.plain.1 hjoins.plain.2

-- Runs of the chart that share an instruction are one: going back from it, they have come the same
-- way.
theorem eq_of_mem_runFrom (ha : session.OpensRun s a) (hb : session.OpensRun s b)
    (hxa : x ∈ session.runFrom a) (hxb : x ∈ session.runFrom b) : a = b := by
  induction hn : x.toNat using Nat.strong_induction_on generalizing x with
  | h n ih =>
      rcases joins_of_mem_runFrom hxa with rfl | ⟨y, hy, hyx⟩
      · rcases joins_of_mem_runFrom hxb with rfl | ⟨z, hz, hzx⟩
        · rfl
        · exact absurd hzx (h.not_joinsRun ha (hb.charts.of_mem_runFrom hz))
      · rcases joins_of_mem_runFrom hxb with rfl | ⟨z, hz, hzx⟩
        · exact absurd hyx (h.not_joinsRun hb (ha.charts.of_mem_runFrom hy))
        · obtain rfl := h.eq_of_next? (ha.charts.of_mem_runFrom hy)
            (hb.charts.of_mem_runFrom hz) hyx.next hzx.next
          exact ih y.toNat (hn ▸ hyx.lt) hy hz rfl

end Surveyed

end Survey

section Drawing

variable {session : Session} {s first : Address} {members : Addresses} {drawn : AddressSet}
  {items : List ChartItem} {steps : List ChartStep} {step : ChartStep}

structure Follows (session : Session) (members : Addresses) (last t : Address) : Prop where
  mem : t ∈ members
  leads : (session.instructionAt last).target? = some t ∨
    (session.instructionAt last).fallThrough? last = some t

-- What follows a run: edges to where control goes from its end, each with the run there, and an
-- edge to the end of the routine.
theorem mem_stepsBehind_iff {last : Address} :
    step ∈ session.stepsBehind s members first last ↔
      (∃ t ∈ members, (session.instructionAt last).target? = some t ∧
        (step = .draw (.branch first t) ∨ step = .visit t)) ∨
      (∃ t ∈ members, (session.instructionAt last).fallThrough? last = some t ∧
        (step = .draw (.next first t) ∨ step = .visit t)) ∨
      (((session.instructionAt last).flow.stop ∨ (session.instructionAt last).flow.ret) ∧
        step = .draw (.leave first s)) := by
  unfold stepsBehind
  dsimp only
  rw [List.append_assoc, List.mem_append, List.mem_append]
  refine or_congr ?_ (or_congr ?_ (by simp))
  · cases (session.instructionAt last).target? with
    | none => simp
    | some t => by_cases hmember : t ∈ members <;> simp [Option.filter, hmember]
  · cases (session.instructionAt last).fallThrough? last with
    | none => simp
    | some t => by_cases hmember : t ∈ members <;> simp [Option.filter, hmember]

theorem Follows.of_visit {last t : Address}
    (h : .visit t ∈ session.stepsBehind s members first last) : session.Follows members last t := by
  rcases mem_stepsBehind_iff.mp h with
    ⟨u, hu, hleads, heq | heq⟩ | ⟨u, hu, hleads, heq | heq⟩ | ⟨-, heq⟩
  all_goals cases heq
  · exact ⟨hu, .inl hleads⟩
  · exact ⟨hu, .inr hleads⟩

-- Runs of the chart begin where control goes from the end of another.
theorem Surveyed.opensRun_of_follows (h : session.Surveyed s) {last t : Address}
    (hlast : session.Charts s last) (hends : ∀ b, ¬session.JoinsRun last b)
    (hmembers : ∀ t ∈ members, session.Charts s t) (hfollows : session.Follows members last t) :
    session.OpensRun s t := by
  have ht := hmembers t hfollows.mem
  refine ⟨ht, .inr ?_⟩
  rcases hfollows.leads with htarget | hfall
  · exact .inl (h.labelled last t (h.isFirst hlast) htarget (h.isFirst ht))
  · by_cases hlabel : session.labels.hasLabel t
    · exact .inl hlabel
    · refine .inr ⟨last, hlast, hfall, ?_⟩
      by_contra hplain
      have hfalls : ¬(session.instructionAt last).flow.stop := by
        intro hstop
        rw [Instruction.fallThrough?, if_pos hstop] at hfall
        cases hfall
      exact hends t ⟨next?_of_fallThrough? hfall, hlabel, ht.1.isAssigned, not_or.mp hplain, hfalls⟩

def Promised (items : List ChartItem) (steps : List ChartStep) (t : Address) : Prop :=
  .run t ∈ nodes items ∨ .visit t ∈ steps

def Joined (s : Address) (items : List ChartItem) (steps : List ChartStep)
    (item : ChartItem) : Prop :=
  ∀ source target, item.edge? = some (source, target) →
    source ∈ nodes items ∧ (target = .finish s ∨ ∃ t, target = .run t ∧ Promised items steps t)

theorem Joined.mono {item : ChartItem} {items' : List ChartItem} {steps' : List ChartStep}
    (h : Joined s items steps item) (hnodes : ∀ node ∈ nodes items, node ∈ nodes items')
    (hpromised : ∀ t, Promised items steps t → Promised items' steps' t) :
    Joined s items' steps' item := by
  intro source target hedge
  obtain ⟨hsource, htarget⟩ := h source target hedge
  refine ⟨hnodes source hsource, htarget.imp_right ?_⟩
  rintro ⟨t, rfl, ht⟩
  exact ⟨t, rfl, hpromised t ht⟩

-- Each edge behind a run comes with a visit of the run to which it leads.
theorem joined_of_mem_stepsBehind {last : Address} {item : ChartItem}
    (hitem : .draw item ∈ session.stepsBehind s members first last)
    (hfirst : .run first ∈ nodes items)
    (hsteps : ∀ t, .visit t ∈ session.stepsBehind s members first last → .visit t ∈ steps) :
    Joined s items steps item := by
  intro source target hedge
  rcases mem_stepsBehind_iff.mp hitem with
    ⟨t, ht, hleads, heq | heq⟩ | ⟨t, ht, hleads, heq | heq⟩ | ⟨-, heq⟩
  all_goals cases heq
  all_goals cases hedge
  · have hvisit := hsteps t (mem_stepsBehind_iff.mpr (.inl ⟨t, ht, hleads, .inr rfl⟩))
    exact ⟨hfirst, .inr ⟨t, rfl, .inr hvisit⟩⟩
  · have hvisit := hsteps t (mem_stepsBehind_iff.mpr (.inr (.inl ⟨t, ht, hleads, .inr rfl⟩)))
    exact ⟨hfirst, .inr ⟨t, rfl, .inr hvisit⟩⟩
  · exact ⟨hfirst, .inl rfl⟩

theorem node?_of_mem_stepsBehind {last : Address} {item : ChartItem}
    (hitem : .draw item ∈ session.stepsBehind s members first last) : item.node? = none := by
  rcases mem_stepsBehind_iff.mp hitem with
    ⟨t, -, -, heq | heq⟩ | ⟨t, -, -, heq | heq⟩ | ⟨-, heq⟩
  all_goals cases heq
  all_goals rfl

-- What has been drawn of a chart, with the steps that are left. Runs are drawn whole, and begin
-- where runs may begin.
structure Drawing (session : Session) (s : Address) (drawn : AddressSet) (items : List ChartItem)
    (steps : List ChartStep) : Prop where
  drawn_iff : ∀ a, drawn.contains a ↔ ∃ first, .run first ∈ nodes items ∧ a ∈ session.runFrom first
  runs : ∀ first instructions, .run first instructions ∈ items →
    instructions = session.runFrom first ∧ session.OpensRun s first
  only : ∀ node ∈ nodes items, ∃ first, node = .run first
  once : (nodes items).Nodup
  edges : ∀ item, item ∈ items ∨ .draw item ∈ steps → Joined s items steps item
  draws : ∀ item, .draw item ∈ steps → item.node? = none
  visits : ∀ t, .visit t ∈ steps → session.OpensRun s t
  begun : Promised items steps s

namespace Drawing

theorem opensRun (h : session.Drawing s drawn items steps) (hfirst : .run first ∈ nodes items) :
    session.OpensRun s first := by
  obtain ⟨instructions, hrun⟩ := ChartItem.run_mem_nodes hfirst
  exact (h.runs first instructions hrun).2

theorem draw {item : ChartItem} (h : session.Drawing s drawn items (.draw item :: steps)) :
    session.Drawing s drawn (items ++ [item]) steps := by
  have hnode : item.node? = none := h.draws item List.mem_cons_self
  have hnodes := ChartItem.nodes_concat_of_none items hnode
  have hpromised : ∀ t, Promised items (.draw item :: steps) t →
      Promised (items ++ [item]) steps t := by
    intro t ht
    unfold Promised at ht ⊢
    rw [hnodes]
    simpa using ht
  refine ⟨hnodes.symm ▸ h.drawn_iff, ?_, hnodes.symm ▸ h.only, hnodes.symm ▸ h.once, ?_, ?_, ?_,
    hpromised s h.begun⟩
  · intro first instructions hrun
    rcases List.mem_append.mp hrun with hold | hnew
    · exact h.runs first instructions hold
    · rw [← List.mem_singleton.mp hnew] at hnode
      cases hnode
  · intro other hother
    refine (h.edges other ?_).mono (by simp [hnodes]) hpromised
    rcases hother with hother | hother
    · rcases List.mem_append.mp hother with hold | hnew
      · exact .inl hold
      · rw [List.mem_singleton.mp hnew]
        exact .inr List.mem_cons_self
    · exact .inr (List.mem_cons_of_mem _ hother)
  · exact fun other hother => h.draws other (List.mem_cons_of_mem _ hother)
  · exact fun t ht => h.visits t (List.mem_cons_of_mem _ ht)

-- An address at which a run begins is drawn only as the first of its run.
theorem skip (hsurvey : session.Surveyed s) {a : Address} (hdrawn : drawn.contains a)
    (h : session.Drawing s drawn items (.visit a :: steps)) :
    session.Drawing s drawn items steps := by
  obtain ⟨first, hfirst, ha⟩ := (h.drawn_iff a).mp hdrawn
  obtain rfl : first = a := hsurvey.eq_of_mem_runFrom (h.opensRun hfirst)
    (h.visits a List.mem_cons_self) ha (session.mem_runFrom_self a)
  have hpromised : ∀ t, Promised items (.visit first :: steps) t → Promised items steps t := by
    rintro t (hold | hvisit)
    · exact .inl hold
    · rcases List.mem_cons.mp hvisit with heq | hvisit
      · cases heq
        exact .inl hfirst
      · exact .inr hvisit
  refine ⟨h.drawn_iff, h.runs, h.only, h.once, ?_, ?_, ?_, hpromised s h.begun⟩
  · intro item hitem
    exact (h.edges item (hitem.imp_right (List.mem_cons_of_mem _))).mono
      (fun _ hnode => hnode) hpromised
  · exact fun item hitem => h.draws item (List.mem_cons_of_mem _ hitem)
  · exact fun t ht => h.visits t (List.mem_cons_of_mem _ ht)

theorem contains_foldl_insert (set : AddressSet) (addresses : List Address) (a : Address) :
    (addresses.foldl (·.insert ·) set).contains a ↔ set.contains a ∨ a ∈ addresses := by
  induction addresses generalizing set with
  | nil => simp
  | cons b rest ih =>
      rw [List.foldl_cons, ih, AddressSet.contains_insert]
      simp only [Bool.or_eq_true, beq_iff_eq, List.mem_cons]
      tauto

-- The run at `a` is drawn: it is new, all of its instructions are, and its last one says what
-- follows.
theorem visit (hsurvey : session.Surveyed s) (hmembers : ∀ t ∈ members, session.Charts s t)
    {a : Address} (hdrawn : ¬drawn.contains a)
    (h : session.Drawing s drawn items (.visit a :: steps)) :
    session.Drawing s ((session.runFrom a).foldl (·.insert ·) (drawn.insert a))
      (items ++ [.run a (session.runFrom a)])
      (session.stepsBehind s members a ((session.runFrom a).getLastD a) ++ steps) := by
  have hopens := h.visits a List.mem_cons_self
  obtain ⟨hlast, hends⟩ := session.getLastD_runFrom a a
  have hlast := hopens.charts.of_mem_runFrom hlast
  generalize hbehind : session.stepsBehind s members a ((session.runFrom a).getLastD a) = behind
  have hnodes := ChartItem.nodes_concat_run items a (session.runFrom a)
  have hself : ChartNode.run a ∈ nodes items ++ [ChartNode.run a] :=
    List.mem_append_right _ List.mem_cons_self
  have hpromised : ∀ t, Promised items (.visit a :: steps) t →
      Promised (items ++ [.run a (session.runFrom a)]) (behind ++ steps) t := by
    unfold Promised
    rw [hnodes]
    rintro t (hold | hvisit)
    · exact .inl (List.mem_append_left _ hold)
    · rcases List.mem_cons.mp hvisit with heq | hvisit
      · cases heq
        exact .inl hself
      · exact .inr (List.mem_append_right _ hvisit)
  have hkept : ∀ item, item ∈ items ∨ .draw item ∈ ChartStep.visit a :: steps →
      Joined s (items ++ [.run a (session.runFrom a)]) (behind ++ steps) item := by
    intro item hitem
    refine (h.edges item hitem).mono (fun node hnode => ?_) hpromised
    rw [hnodes]
    exact List.mem_append_left _ hnode
  refine ⟨?_, ?_, ?_, ?_, ?_, ?_, ?_, hpromised s h.begun⟩
  · intro b
    rw [contains_foldl_insert, AddressSet.contains_insert, hnodes, Bool.or_eq_true, h.drawn_iff]
    constructor
    · rintro ((hb | ⟨first, hfirst, hb⟩) | hb)
      · rw [beq_iff_eq.mp hb]
        exact ⟨a, hself, session.mem_runFrom_self a⟩
      · exact ⟨first, List.mem_append_left _ hfirst, hb⟩
      · exact ⟨a, hself, hb⟩
    · rintro ⟨first, hfirst, hb⟩
      rcases List.mem_append.mp hfirst with hold | hfirst
      · exact .inl (.inr ⟨first, hold, hb⟩)
      · cases List.mem_singleton.mp hfirst
        exact .inr hb
  · intro first instructions hrun
    rcases List.mem_append.mp hrun with hold | hrun
    · exact h.runs first instructions hold
    · cases List.mem_singleton.mp hrun
      exact ⟨rfl, hopens⟩
  · rw [hnodes]
    intro node hnode
    rcases List.mem_append.mp hnode with hold | hnode
    · exact h.only node hold
    · exact ⟨a, List.mem_singleton.mp hnode⟩
  · rw [hnodes, ← List.concat_eq_append]
    refine .concat (fun hold => hdrawn ?_) h.once
    exact (h.drawn_iff a).mpr ⟨a, hold, session.mem_runFrom_self a⟩
  · rintro item (hitem | hitem)
    · rcases List.mem_append.mp hitem with hitem | hrun
      · exact hkept item (.inl hitem)
      · cases List.mem_singleton.mp hrun
        rintro source target ⟨⟩
    · rcases List.mem_append.mp hitem with hnew | hitem
      · rw [← hbehind] at hnew
        exact joined_of_mem_stepsBehind hnew (by rw [hnodes]; exact hself)
          (fun t ht => List.mem_append_left _ (hbehind ▸ ht))
      · exact hkept item (.inr (List.mem_cons_of_mem _ hitem))
  · intro item hitem
    rcases List.mem_append.mp hitem with hnew | hold
    · rw [← hbehind] at hnew
      exact node?_of_mem_stepsBehind hnew
    · exact h.draws item (List.mem_cons_of_mem _ hold)
  · intro t ht
    rcases List.mem_append.mp ht with hnew | hold
    · rw [← hbehind] at hnew
      exact hsurvey.opensRun_of_follows hlast hends hmembers (.of_visit hnew)
    · exact h.visits t (List.mem_cons_of_mem _ hold)

end Drawing

-- The steps of a chart are carried out to the end.
theorem drawing_chartFrom (hsurvey : session.Surveyed s)
    (hmembers : ∀ t ∈ members, session.Charts s t) (drawn : AddressSet) (items : Array ChartItem)
    (steps : List ChartStep) (h : session.Drawing s drawn items.toList steps) :
    ∃ drawn',
      session.Drawing s drawn' (session.chartFrom s members drawn items steps).toList [] := by
  fun_induction chartFrom session s members drawn items steps with
  | case1 drawn items => exact ⟨drawn, h⟩
  | case2 drawn items item steps ih =>
      refine ih ?_
      rw [Array.toList_push]
      exact h.draw
  | case3 drawn items a steps hdrawn ih => exact ih (h.skip hsurvey hdrawn)
  | case4 drawn items a steps hdrawn run ih =>
      refine ih ?_
      rw [Array.toList_push]
      exact h.visit hsurvey hmembers hdrawn

theorem drawing_begins (hs : session.memory.isAssigned s) : session.Drawing s ∅ [] [.visit s] := by
  have hopens : session.OpensRun s s := ⟨⟨⟨hs, .refl⟩, UInt16.le_refl s⟩, .inl rfl⟩
  refine ⟨?_, ?_, ?_, List.nodup_nil, ?_, ?_, ?_, .inr List.mem_cons_self⟩
  · simp [nodes]
  · simp
  · simp [nodes]
  · simp
  · simp
  · simpa using hopens

theorem wellFormedChart_routineChart (hsurvey : session.Surveyed s)
    (hs : session.memory.isAssigned s) : WellFormedChart (session.routineChart s) := by
  have hmembers : ∀ t ∈ (session.block s).foldl (·.insert ·) (∅ : Addresses),
      session.Charts s t := by
    intro t ht
    rw [Addresses.mem_foldl_insert] at ht
    exact charts_of_mem_block (ht.resolve_left Std.TreeSet.not_mem_emptyc)
  obtain ⟨drawn, hdrawing⟩ :=
    drawing_chartFrom hsurvey hmembers ∅ #[] [.visit s] (drawing_begins hs)
  rw [routineChart]
  generalize (session.chartFrom s _ ∅ #[] [.visit s]).toList = items at hdrawing ⊢
  have hnodes : nodes ([.start s, .enter s, .finish s] ++ items) =
      .start s :: .finish s :: nodes items := rfl
  refine ⟨?_, ?_, ?_⟩
  · rw [hnodes]
    intro item hitem source target hedge
    rcases List.mem_append.mp hitem with hfront | hitem
    · have hbegun : .run s ∈ nodes items := hdrawing.begun.resolve_right List.not_mem_nil
      simp only [List.mem_cons, List.not_mem_nil, or_false] at hfront
      rcases hfront with rfl | rfl | rfl <;> cases hedge
      exact ⟨List.mem_cons_self, List.mem_cons_of_mem _ (List.mem_cons_of_mem _ hbegun)⟩
    · obtain ⟨hsource, htarget⟩ := hdrawing.edges item (.inl hitem) source target hedge
      refine ⟨List.mem_cons_of_mem _ (List.mem_cons_of_mem _ hsource), ?_⟩
      rcases htarget with rfl | ⟨t, rfl, ht⟩
      · exact List.mem_cons_of_mem _ List.mem_cons_self
      · have hthere : .run t ∈ nodes items := ht.resolve_right List.not_mem_nil
        exact List.mem_cons_of_mem _ (List.mem_cons_of_mem _ hthere)
  · rw [hnodes]
    refine List.Nodup.map ChartNode.name_injective ?_
    have hruns : ∀ node ∈ nodes items, ∃ first, node = .run first := hdrawing.only
    refine List.nodup_cons.mpr ⟨fun hstart => ?_,
      List.nodup_cons.mpr ⟨fun hfinish => ?_, hdrawing.once⟩⟩
    · rcases List.mem_cons.mp hstart with heq | hstart
      · cases heq
      · obtain ⟨first, heq⟩ := hruns _ hstart
        cases heq
    · obtain ⟨first, heq⟩ := hruns _ hfinish
      cases heq
  · have hshows : ∀ item ∈ [.start s, .enter s, .finish s] ++ items, ∀ a ∈ item.instructions,
        ∃ first, item.node? = some (.run first) ∧ session.OpensRun s first ∧
          a ∈ session.runFrom first := by
      intro item hitem a ha
      cases item with
      | run first instructions =>
          have hrun : .run first instructions ∈ items := by simpa using hitem
          obtain ⟨rfl, hopens⟩ := hdrawing.runs first instructions hrun
          exact ⟨first, rfl, hopens, ha⟩
      | _ => cases ha
    intro item hitem other hother a ha ha'
    obtain ⟨first, hfirst, hopens, hmem⟩ := hshows item hitem a ha
    obtain ⟨first', hfirst', hopens', hmem'⟩ := hshows other hother a ha'
    rw [hfirst, hfirst', hsurvey.eq_of_mem_runFrom hopens hopens' hmem hmem']

end Drawing

section Analysis

variable {start : Session} {s : Address}

-- The target of a found branch keeps its label if it begins an instruction.
theorem Analysable.surveyed_disassemble (h : start.Analysable)
    (hcode : ∀ a, start.disassemble.ComesTo s a → start.disassemble.memory.isFirst a) :
    start.disassemble.Surveyed s := by
  obtain ⟨hmemory, hdecoder⟩ := h.kept_disassemble
  refine ⟨h.tiled_found.congr hmemory hdecoder, hcode, ?_⟩
  intro f t hf htarget ht
  rw [hmemory] at hf ht
  have hdesignates : start.enqueueStart.Designates f t := by
    rw [h.sameProgram_disassemble.instructionAt_eq h.readsBytes] at htarget
    rw [Designates, instructionAt_of_ground (start.ground_enqueueStart h.wellFormed).1,
      Instruction.designated?, htarget]
  obtain ⟨found, hfound⟩ := Option.isSome_iff_exists.mp
    ((h.crossReferenced_found.accounted t).isSome_iff.mpr (.inr ⟨f, hf, hdesignates⟩))
  have hstays : ¬start.entered.Moves found := fun hmoves =>
    ((h.moves_iff hfound).mp hmoves).1.2 ht
  obtain ⟨located, hlocated, -⟩ :=
    h.at?_located_of_some (h.supplied_entered.kept t found hfound) hstays
  obtain ⟨classified, hclassified, -⟩ := start.classified_classify.exists_at? hlocated
  obtain ⟨named, hnamed, -⟩ := start.classify.revised_nameLabels.labels.exists_at? hclassified
  rw [LabelStore.hasLabel, start.labels_disassemble, start.labels_analyse, hnamed]
  rfl

end Analysis

theorem writes_chartLine (session : Session) (item : ChartItem) :
    item.Writes session (session.chartLine item) := by
  constructor
  · intro node hnode
    cases item with
    | start routine =>
        cases hnode
        let name := (session.nameAt? routine).getD ("0x" ++ Text.hex4 routine)
        refine ⟨"label=\"" ++ Report.escapeDot name ++
            "\", fillcolor=lightgray, style=filled, shape=tab",
          String.toList_injective ?_, fun _ => ChartNode.noConfusion⟩
        simp [chartLine, ChartNode.name, name]
    | finish routine =>
        cases hnode
        refine ⟨"label=\"end\", shape=doublecircle", String.toList_injective ?_,
          fun _ => ChartNode.noConfusion⟩
        simp [chartLine, ChartNode.name]
    | run first instructions =>
        cases hnode
        let texts := instructions.map fun a =>
          (session.instructionText (session.instructionAt a) false).1
        refine ⟨"label=\"" ++ "\\l".intercalate (texts.map Report.escapeDot) ++ "\\l\"",
          String.toList_injective ?_, fun _ _ => ⟨texts, ?_, rfl⟩⟩
        · simp [chartLine, ChartNode.name, texts, Function.comp_def]
        · rw [List.forall₂_map_right_iff]
          exact List.forall₂_same.mpr fun a _ => ⟨rfl, session.exists_instructionText a false⟩
    | _ => cases hnode
  · intro source target hedge
    cases item with
    | branch first t =>
        cases hedge
        refine ⟨" [headport=\"n\", tailport=\"e\"]", String.toList_injective ?_⟩
        simp [chartLine, ChartNode.name]
    | enter | next | leave =>
        cases hedge
        refine ⟨"", String.toList_injective ?_⟩
        simp [chartLine, ChartNode.name]
    | _ => cases hedge

theorem flowChart_singleton (session : Session) (s : Address) :
    session.flowChart [s] = "digraph FlowChart \x7b\n\nnode [shape=box];\n" ++
      String.join ((session.routineChart s).map session.chartLine) ++ "\n\x7d\n" := by
  rw [flowChart, List.flatMap_singleton, String.join_append, String.join_append]
  rfl

-- The flow chart of a routine whose code is all known, in a session that was analysed once.
theorem flowChart_is_wellFormed (config : Config) (operations : List Operation)
    (hoperations : ∀ operation ∈ operations, operation.IsPreparation) (s : Address) :
    let session := (operations.foldl perform ({ config } : Session)).disassemble
    session.memory.isFirst s → (∀ a, session.ComesTo s a → session.memory.isFirst a) →
      session.flowChart [s] = "digraph FlowChart \x7b\n\nnode [shape=box];\n" ++
        String.join ((session.routineChart s).map session.chartLine) ++ "\n\x7d\n" ∧
      (∀ item ∈ session.routineChart s, item.Writes session (session.chartLine item)) ∧
      .enter s ∈ session.routineChart s ∧ WellFormedChart (session.routineChart s) := by
  intro session hfirst hcode
  have hready := analysable_performAll config operations hoperations
  have hsurvey : session.Surveyed s := hready.surveyed_disassemble hcode
  have hassigned : session.memory.isAssigned s :=
    hsurvey.tiled.assigned_of_code s (hsurvey.tiled.code_of_first s hfirst)
  refine ⟨session.flowChart_singleton s, fun item _ => session.writes_chartLine item, ?_,
    wellFormedChart_routineChart hsurvey hassigned⟩
  exact List.mem_cons_of_mem _ List.mem_cons_self

-- Where all instructions are of one byte and none of them jumps, nothing stands in the way of one
-- that control comes to.
theorem Analysable.isFirst_of_comesTo {start : Session} (h : start.Analysable)
    (hsingle : ∀ a, start.memory.isAssigned a →
      (start.instructionAt a).size = 1 ∧ (start.instructionAt a).jump? = none)
    {s : Address} (hs : s ∈ start.enqueueStart.queue.toList) :
    ∀ a, start.disassemble.ComesTo s a → start.disassemble.memory.isFirst a := by
  obtain ⟨hmemory, hdecoder⟩ := h.kept_disassemble
  have htiled := h.tiled_found
  have hsame := h.sameProgram_disassemble
  have hinstruction := hsame.instructionAt_eq h.readsBytes
  have hassigned := hsame.isAssigned_eq
  have hfirst : ∀ a, start.found.memory.isAssigned a → start.found.Settled a →
      start.found.memory.isFirst a := by
    intro a ha hsettled
    have hsize : ∀ b, start.found.memory.isAssigned b → (start.found.instructionAt b).size = 1 := by
      intro b hb
      rw [← hmemory, hassigned] at hb
      rw [← instructionAt_congr hmemory hdecoder, hinstruction]
      exact (hsingle b hb).1
    have hcode : start.found.memory.isCode a := by
      rcases hsettled with hcode | hunassigned | ⟨i, hi, hlt, -⟩
      · exact hcode
      · exact absurd ha hunassigned
      · rw [hsize a ha] at hlt
        omega
    obtain ⟨f, ⟨hf, i, hi, rfl⟩, -⟩ := htiled.covered a hcode
    rw [hsize f (htiled.assigned_of_code f (htiled.code_of_first f hf)), Nat.lt_one_iff] at hi
    rw [hi, Address.plus_zero]
    exact hf
  rintro a ⟨hloaded, hsteps⟩
  rw [hmemory] at hloaded ⊢
  induction hsteps with
  | refl => exact hfirst s hloaded (h.settled_of_waiting hs)
  | tail _ hlast ih =>
      next b c _ =>
      obtain ⟨hc, hleads⟩ := hlast
      have hb := htiled.assigned_of_code b (htiled.code_of_first b ih)
      rw [← hmemory, hassigned] at hb
      rw [hmemory] at hc
      rw [hinstruction, (hsingle b hb).2] at hleads
      refine hfirst c hc (h.settled_of_leads ih (.inl ?_))
      rw [instructionAt_of_ground (start.ground_enqueueStart h.wellFormed).1]
      exact hleads.resolve_right nofun

-- NOP, RST 0, RET Z and RET from the beginning of memory on, where the program starts.
def returnChain : List Operation := [.load 0 [0x00, 0xC7, 0xC8, 0xC9], .setSnapshotStart 0]

theorem isAssigned_returnChain (a : Address) :
    (returnChain.foldl perform {}).memory.isAssigned a ↔ a = 3 ∨ a = 2 ∨ a = 1 ∨ a = 0 := by
  simp [returnChain, perform, load, setSnapshotStart, Memory.load, Memory.storeAll, Memory.store,
    Memory.isAssigned, Memory.empty]

theorem instructionAt_returnChain (a : Address)
    (h : (returnChain.foldl perform {}).memory.isAssigned a) :
    ((returnChain.foldl perform {}).instructionAt a).size = 1 ∧
      ((returnChain.foldl perform {}).instructionAt a).jump? = none := by
  have hempty : ∀ b, Memory.empty.byte b = 0 := by simp [Memory.empty, Memory.byte]
  have hbytes : ∀ b, (returnChain.foldl perform {}).memory.byte b =
      if 3 = b then 0xC9 else if 2 = b then 0xC8 else if 1 = b then 0xC7 else 0x00 := by
    simp [returnChain, perform, load, setSnapshotStart, Memory.load, Memory.storeAll,
      Memory.byte_store, hempty]
  rcases (isAssigned_returnChain a).mp h with rfl | rfl | rfl | rfl
  · rw [instructionAt_eq_mainPage rfl (hbytes 3) (by decide)]
    exact ⟨rfl, rfl⟩
  · rw [instructionAt_eq_mainPage rfl (hbytes 2) (by decide)]
    exact ⟨rfl, rfl⟩
  · rw [instructionAt_eq_mainPage rfl (hbytes 1) (by decide)]
    exact ⟨rfl, rfl⟩
  · rw [instructionAt_eq_mainPage rfl (hbytes 0) (by decide)]
    exact ⟨rfl, rfl⟩

-- Control comes to all four instructions, and the call leads back to the first.
theorem flowChart_is_wellFormed_return_chain :
    let session := (returnChain.foldl perform {}).disassemble
    (∀ operation ∈ returnChain, operation.IsPreparation) ∧ session.memory.isFirst 0 ∧
      (∀ a, session.ComesTo 0 a → session.memory.isFirst a) ∧
      .enter 0 ∈ session.routineChart 0 ∧ WellFormedChart (session.routineChart 0) := by
  intro session
  have hoperations : ∀ operation ∈ returnChain, operation.IsPreparation := by
    simp [returnChain, Operation.IsPreparation]
  have hready := analysable_performAll {} returnChain hoperations
  have hcode : ∀ a, session.ComesTo 0 a → session.memory.isFirst a := by
    refine hready.isFirst_of_comesTo instructionAt_returnChain ?_
    exact mem_queue_enqueueStart_of_snapshot rfl rfl
  have hfirst : session.memory.isFirst 0 := by
    refine hcode 0 ⟨?_, .refl⟩
    rw [hready.sameProgram_disassemble.isAssigned_eq]
    exact (isAssigned_returnChain 0).mpr (by decide)
  obtain ⟨-, -, henter, hchart⟩ := flowChart_is_wellFormed {} returnChain hoperations 0 hfirst hcode
  exact ⟨hoperations, hfirst, hcode, henter, hchart⟩

end Session

end Z80Atlas
