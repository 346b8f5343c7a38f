import Rete.Proofs.Matching.Frame
import Rete.Proofs.Session.Firings
import Rete.Proofs.Session.Likeness

/-!
# Events as a log

Who listens to a session can keep the books without looking at it (`Log`): each event adds
something that was not there, or replaces or removes something that was (`Log.follow?`). From any
state on, what requests tell leads from the books of that state to those of the state afterwards,
whether or not requests and consequences fail (`KnowledgeBase.Made.log_of_serve`).
-/

namespace Rete

/-- What a listener knows: the types of the live facts, and the numbers of the waiting matches. -/
@[ext] structure Log where
  types : SortedMap Handle String := ∅
  waiting : SortedMap Match Nat := ∅

namespace Log

/-- The books after an event; there are none if something is added that is there already, or
something else than what is there is removed or replaced. -/
def follow? (log : Log) : SessionEvent → Option Log
  | .factInserted handle typeName =>
    if log.types.contains handle then none
    else some { log with types := log.types.insert handle typeName }
  | .factUpdated handle typeName =>
    if log.types.contains handle then some { log with types := log.types.insert handle typeName }
    else none
  | .factRetracted handle typeName =>
    if log.types.find? handle = some typeName then
      some { log with types := log.types.erase handle }
    else none
  | .activationCreated rule tuple sequence =>
    if log.waiting.contains ⟨rule.id, tuple⟩ then none
    else some { log with waiting := log.waiting.insert ⟨rule.id, tuple⟩ sequence }
  | .activationCancelled rule tuple =>
    if log.waiting.contains ⟨rule.id, tuple⟩ then
      some { log with waiting := log.waiting.erase ⟨rule.id, tuple⟩ }
    else none
  | .beforeFire rule tuple sequence =>
    if log.waiting.find? ⟨rule.id, tuple⟩ = some sequence then
      some { log with waiting := log.waiting.erase ⟨rule.id, tuple⟩ }
    else none
  | .afterFire .. | .halted => some log
  | .disposed => some {}

/-- The books after events, in order. -/
def followAll? (log : Log) (events : List SessionEvent) : Option Log := events.foldlM follow? log

private theorem followAll?_append (log : Log) (first second : List SessionEvent) :
    log.followAll? (first ++ second) = (log.followAll? first).bind fun mid =>
      mid.followAll? second :=
  List.foldlM_append

private theorem followAll?_singleton (log : Log) (event : SessionEvent) :
    log.followAll? [event] = log.follow? event := by
  unfold followAll?
  rw [List.foldlM_cons]
  cases log.follow? event <;> rfl

/-- The books say what is live and what waits. -/
structure Shows (log : Log) (session : Session) : Prop where
  types : ∀ handle typeName, log.types.find? handle = some typeName ↔
    ∃ fact, session.memory.fact? handle = some fact ∧ fact.typeName = typeName
  waiting : ∀ rule tuple sequence, log.waiting.find? ⟨rule, tuple⟩ = some sequence ↔
    ∃ activation ∈ session.agenda.pending, activation.rule = rule ∧ activation.tuple = tuple ∧
      activation.sequence = sequence

end Log

/-- The number of a waiting match. -/
def MatchState.sequence? : MatchState → Option Nat
  | .pending key => some key.sequence
  | .settled _ => none

/-- The numbers of the waiting matches. -/
def Agenda.waiting (agenda : Agenda) : SortedMap Match Nat :=
  agenda.states.filterMap fun _ state => state.sequence?

/-- The types of the live facts. -/
def WorkingMemory.types (memory : WorkingMemory) : SortedMap Handle String :=
  memory.facts.filterMap fun _ fact => some fact.typeName

/-- The books of a session. -/
def Session.log (session : Session) : Log := ⟨session.memory.types, session.agenda.waiting⟩

namespace WorkingMemory

variable {memory : WorkingMemory} {handle : Handle}

/-- The books have the types of the live facts. -/
theorem find?_types (memory : WorkingMemory) (handle : Handle) :
    memory.types.find? handle = (memory.fact? handle).map Object.typeName := by
  rw [types, SortedMap.find?_filterMap]
  cases isFact : memory.facts.find? handle with
  | none => rw [fact?, isFact]; rfl
  | some fact => rw [fact?, isFact]; rfl

private theorem contains_types (memory : WorkingMemory) (handle : Handle) :
    memory.types.contains handle = memory.contains handle := by
  rw [SortedMap.contains, find?_types, Option.isSome_map]
  rfl

private theorem types_put (memory : WorkingMemory) (handle : Handle) (fact : Object) :
    (memory.put handle fact).types = memory.types.insert handle fact.typeName :=
  SortedMap.filterMap_insert_of_some rfl memory.facts

private theorem types_remove (memory : WorkingMemory) (handle : Handle) :
    (memory.remove handle).types = memory.types.erase handle :=
  SortedMap.filterMap_erase _ memory.facts handle

end WorkingMemory

namespace Agenda

variable {agenda after : Agenda}

/-- The books have the numbers of the waiting matches. -/
theorem find?_waiting (agenda : Agenda) (found : Match) :
    agenda.waiting.find? found = (agenda.states.find? found).bind MatchState.sequence? :=
  SortedMap.find?_filterMap ..

private theorem find?_waiting_of_pending {found : Match} {key : QueueKey}
    (waits : agenda.states.find? found = some (.pending key)) :
    agenda.waiting.find? found = some key.sequence := by
  rw [find?_waiting, waits]
  rfl

private theorem waiting_of_activate_none {terminal : Terminal} {tuple : Tuple}
    (untold : (agenda.activate terminal tuple).1 = none) :
    (agenda.activate terminal tuple).2.waiting = agenda.waiting := by
  rcases agenda.activate_cases terminal tuple with
    ⟨-, same⟩ | ⟨unknown, -, -, same⟩ | ⟨-, same⟩
  · rw [same]
  · have absent : agenda.waiting.find? ⟨terminal.rule, tuple⟩ = none := by
      rw [find?_waiting, unknown]
      rfl
    rw [same]
    exact (SortedMap.filterMap_insert_of_none rfl agenda.states).trans
      (SortedMap.erase_of_absent absent)
  · rw [same] at untold
    cases untold

private theorem waiting_of_activate_some {terminal : Terminal} {tuple : Tuple} {sequence : Nat}
    (told : (agenda.activate terminal tuple).1 = some sequence) :
    agenda.waiting.contains ⟨terminal.rule, tuple⟩ = false ∧
      (agenda.activate terminal tuple).2.waiting =
        agenda.waiting.insert ⟨terminal.rule, tuple⟩ sequence := by
  rcases agenda.activate_cases terminal tuple with
    ⟨-, same⟩ | ⟨-, -, -, same⟩ | ⟨unknown, same⟩
  · rw [same] at told
    cases told
  · rw [same] at told
    cases told
  · rw [same] at told ⊢
    cases told
    refine ⟨SortedMap.contains_eq_false.mpr ?_,
      SortedMap.filterMap_insert_of_some rfl agenda.states⟩
    rw [find?_waiting, unknown]
    rfl

private theorem find?_foldl_erase (gone : List Activation) (waiting : SortedMap Match Nat)
    (found : Match) :
    (gone.foldl (fun waiting activation => waiting.erase activation.toMatch) waiting).find? found =
      if found ∈ gone.map Activation.toMatch then none else waiting.find? found := by
  induction gone generalizing waiting with
  | nil => rfl
  | cons first rest ih =>
      rw [List.foldl_cons, ih, SortedMap.find?_erase_eq, List.map_cons]
      by_cases later : found ∈ rest.map Activation.toMatch
      · rw [if_pos later, if_pos (List.mem_cons_of_mem _ later)]
      · rw [if_neg later]
        by_cases same : found = first.toMatch
        · rw [if_pos same, if_pos (List.mem_cons.mpr (.inl same))]
        · rw [if_neg same, if_neg fun member => (List.mem_cons.mp member).elim same later]

/-- What is forgotten and had waited does not wait any more; nothing else changes. -/
theorem waiting_deactivate (agenda : Agenda) (rule : RuleId) (stem : Tuple) :
    (agenda.deactivate rule stem).2.waiting = (agenda.deactivate rule stem).1.foldl
      (fun waiting activation => waiting.erase activation.toMatch) agenda.waiting := by
  refine SortedMap.ext_find? fun found => ?_
  rw [find?_foldl_erase, find?_waiting, find?_waiting, find?_deactivate]
  have cancelled : found ∈ (agenda.deactivate rule stem).1.map Activation.toMatch ↔
      found.isWithin rule stem = true ∧ ∃ key, agenda.states.find? found = some (.pending key) := by
    rw [List.mem_map]
    constructor
    · rintro ⟨activation, member, rfl⟩
      obtain ⟨within, waits⟩ := (mem_deactivate ..).mp member
      exact ⟨within, _, waits⟩
    · rintro ⟨within, key, waits⟩
      exact ⟨{ found, key with }, (mem_deactivate ..).mpr ⟨within, waits⟩, rfl⟩
  by_cases isGone : found ∈ (agenda.deactivate rule stem).1.map Activation.toMatch
  · rw [if_pos isGone, if_pos (cancelled.mp isGone).1]
    rfl
  · rw [if_neg isGone]
    cases within : found.isWithin rule stem with
    | false => rw [if_neg Bool.false_ne_true]
    | true =>
        rw [if_pos rfl]
        cases tracked : agenda.states.find? found with
        | none => rfl
        | some state =>
            cases state with
            | pending key => exact absurd (cancelled.mpr ⟨within, key, tracked⟩) isGone
            | settled how => rfl

private theorem nodup_deactivate_matches (agenda : Agenda) (rule : RuleId) (stem : Tuple) :
    ((agenda.deactivate rule stem).1.map Activation.toMatch).Nodup := by
  refine (List.nodup_map_iff_inj_on (agenda.nodup_deactivate rule stem)).mpr ?_
  intro one isOne other isOther same
  obtain ⟨-, waits⟩ := (mem_deactivate ..).mp isOne
  obtain ⟨-, waitsOther⟩ := (mem_deactivate ..).mp isOther
  obtain ⟨found, key⟩ := one
  obtain ⟨_, otherKey⟩ := other
  cases same
  cases waits.symm.trans waitsOther
  rfl

private theorem waiting_of_pop? {next : Activation} (popped : agenda.pop? = some (next, after)) :
    after.waiting = agenda.waiting.erase next.toMatch := by
  obtain ⟨-, rfl⟩ := pop?_eq_some popped
  exact SortedMap.filterMap_insert_of_none rfl agenda.states

end Agenda

/-- The books of an intact session say what is live and what waits. -/
theorem Session.Intact.shows_log {session : Session} (intact : session.Intact) :
    session.log.Shows session where
  types handle typeName := by
    rw [Session.log, WorkingMemory.find?_types, Option.map_eq_some_iff]
  waiting rule tuple sequence := by
    rw [Session.log, Agenda.find?_waiting, Option.bind_eq_some_iff]
    constructor
    · rintro ⟨state, tracked, isNumber⟩
      cases state with
      | settled how => cases isNumber
      | pending key =>
          cases isNumber
          exact ⟨⟨⟨rule, tuple⟩, key⟩, intact.consistent.mem_pending.mpr tracked, rfl, rfl, rfl⟩
    · rintro ⟨activation, waits, rfl, rfl, rfl⟩
      exact ⟨_, intact.consistent.mem_pending.mp waits, rfl⟩

/-! ## Runs that tell what they do -/

/-- The events on the way lead from the books of one session to those of the other. -/
structure Told (before after : SessionRun) : Prop where
  exists_events : ∃ events, after.events = before.events ++ events ∧
    before.session.log.followAll? events = some after.session.log

namespace Told

variable {before mid after : SessionRun}

/-- What neither tells nor changes the books is told. -/
theorem of_eq (events : after.events = before.events)
    (log : after.session.log = before.session.log) :
    Told before after :=
  ⟨[], events.trans (List.append_nil _).symm, congrArg some log.symm⟩

/-- A run tells what it did so far. -/
theorem refl (run : SessionRun) : Told run run := .of_eq rfl rfl

/-- A run tells what it does in two steps. -/
theorem trans (first : Told before mid) (second : Told mid after) : Told before after := by
  obtain ⟨events, same, leads⟩ := first.exists_events
  obtain ⟨more, last, onward⟩ := second.exists_events
  refine ⟨events ++ more, ?_, ?_⟩
  · rw [last, same, List.append_assoc]
  · rw [Log.followAll?_append, leads]
    exact onward

/-- One event is told. -/
theorem event {event : SessionEvent} (events : after.events = before.events ++ [event])
    (leads : before.session.log.follow? event = some after.session.log) : Told before after :=
  ⟨[event], events, (Log.followAll?_singleton ..).trans leads⟩

end Told

/-- The books without matches that waited. -/
def Log.without (log : Log) (gone : List Activation) : Log :=
  ⟨log.types, gone.foldl (fun waiting activation => waiting.erase activation.toMatch) log.waiting⟩

/-- Matches that waited are cancelled one by one. -/
theorem Log.followAll?_cancelled (rule : RuleRef) (gone : List Activation) (log : Log)
    (distinct : (gone.map Activation.toMatch).Nodup)
    (each : ∀ activation ∈ gone, activation.rule = rule.id ∧
      log.waiting.contains activation.toMatch = true) :
    log.followAll? (gone.map fun activation => .activationCancelled rule activation.tuple) =
      some (log.without gone) := by
  induction gone generalizing log with
  | nil => rfl
  | cons first rest ih =>
      obtain ⟨apart, distinct⟩ := List.nodup_cons.mp distinct
      obtain ⟨⟨isRule, waits⟩, others⟩ := List.forall_mem_cons.mp each
      have own : (⟨rule.id, first.tuple⟩ : Match) = first.toMatch := by rw [← isRule]
      have step : log.follow? (.activationCancelled rule first.tuple) =
          some { log with waiting := log.waiting.erase first.toMatch } := by
        rw [follow?, own, if_pos waits]
      have onward := ih { log with waiting := log.waiting.erase first.toMatch } distinct
        fun activation member => by
          refine ⟨(others activation member).1, ?_⟩
          rw [SortedMap.contains_erase, (others activation member).2, Bool.and_true,
            Bool.not_eq_true', decide_eq_false_iff_not]
          intro same
          exact apart (same ▸ List.mem_map_of_mem member)
      rw [List.map_cons, followAll?, List.foldlM_cons, step]
      exact onward

/-! ## Following changes -/

namespace SessionM

variable {before after : SessionRun}

/-- A notice that names a rule is an event if the rule is there. -/
theorem notifyOf_of_rule {id : RuleId} {rule : Rule} {event : RuleRef → SessionEvent}
    {result : Except Error Unit} (run : Ends (notifyOf id event) before result after)
    (isRule : before.session.network.rule? id = some rule) :
    result = .ok () ∧
      after = { before with events := before.events ++ [event (.ofRule id rule)] } := by
  unfold notifyOf at run
  rw [ends_session_bind, isRule] at run
  exact ends_notify.mp run

/-- Notices about the same rule are events, one after the other. -/
theorem forM_notifyOf_of_rule {ι : Type} {id : RuleId} {rule : Rule}
    {event : ι → RuleRef → SessionEvent} {items : List ι} {result : Except Error Unit}
    (run : Ends (items.forM fun item => notifyOf id (event item)) before result after)
    (isRule : before.session.network.rule? id = some rule) :
    after = { before with
      events := before.events ++ items.map fun item => event item (.ofRule id rule) } := by
  induction items generalizing before with
  | nil =>
      obtain ⟨-, rfl⟩ := (ends_pure _).mp run
      rw [List.map_nil, List.append_nil]
  | cons item rest ih =>
      rw [List.forM_eq_forM, List.forM_cons] at run
      rcases ends_bind.mp run with ⟨_, mid, first, others⟩ | ⟨error, first, -⟩
      · obtain ⟨-, rfl⟩ := notifyOf_of_rule first isRule
        rw [ih others isRule, List.map_cons, List.append_assoc]
        rfl
      · cases (notifyOf_of_rule first isRule).1

/-- A change of the complete matches is told in full. -/
theorem told_applyChange {change : MatchChange} {rule : Rule} {result : Except Error Unit}
    (isRule : before.session.network.rule? change.rule = some rule)
    (run : Ends (applyChange change) before result after) : Told before after := by
  cases change with
  | found terminal tuple =>
      unfold applyChange at run
      rw [ends_session_bind] at run
      simp only [ends_update_bind] at run
      cases told : (before.session.agenda.activate terminal tuple).1 with
      | none =>
          simp only [told] at run
          obtain ⟨-, rfl⟩ := (ends_pure _).mp run
          exact .of_eq rfl (Log.ext rfl (Agenda.waiting_of_activate_none told))
      | some sequence =>
          simp only [told] at run
          obtain ⟨-, rfl⟩ := notifyOf_of_rule run isRule
          obtain ⟨absent, waiting⟩ := Agenda.waiting_of_activate_some told
          exact .event rfl ((if_neg (Bool.eq_false_iff.mp absent)).trans
            (congrArg some (Log.ext rfl waiting.symm)))
  | lost id stem =>
      unfold applyChange at run
      rw [ends_session_bind] at run
      simp only [ends_update_bind] at run
      rw [forM_notifyOf_of_rule run isRule]
      refine ⟨_, rfl, ?_⟩
      have cancelled := Log.followAll?_cancelled (.ofRule id rule) _ before.session.log
        (before.session.agenda.nodup_deactivate_matches id stem) fun activation member => by
          obtain ⟨within, waits⟩ := (Agenda.mem_deactivate ..).mp member
          exact ⟨(Match.isWithin_iff.mp within).1, SortedMap.contains_eq_true.mpr
            ⟨_, Agenda.find?_waiting_of_pending waits⟩⟩
      refine cancelled.trans (congrArg some (Log.ext rfl ?_))
      exact (before.session.agenda.waiting_deactivate id stem).symm

/-- What the network follows is told in full, if all rules are there. -/
theorem told_propagate {step : Network → FactView → MatchM Unit} {result : Except Error Unit}
    (named : ∀ {result matching}, Ends (step before.session.network before.session.view)
        { memory := before.session.matched } result matching →
      ∀ change ∈ matching.changes, (before.session.network.rule? change.rule).isSome = true)
    (run : Ends (propagate step) before result after) : Told before after := by
  obtain ⟨matching, between, walked, handedOn, rfl⟩ := propagating_of_ends run
  have follows : Told before between ∧ between.session.network = before.session.network :=
    handedOn.forM (fun _ mid => Told before mid ∧ mid.session.network = before.session.network)
      (fun _ _ => False) ⟨.of_eq rfl rfl, rfl⟩
      fun change rest mid result' last member held step => by
        obtain ⟨rfl, session, -⟩ := ends_applyChange step
        obtain ⟨rule, isRule⟩ := Option.isSome_iff_exists.mp (named walked change member)
        exact ⟨held.1.trans (told_applyChange (held.2.symm ▸ isRule) step),
          (congrArg Session.network session).trans held.2⟩
  exact follows.1.trans (.of_eq rfl rfl)

end SessionM

/-- The rule of a terminal node is there. -/
theorem Session.Intact.isSome_rule_of_terminal {session : Session} (intact : session.Intact)
    {id : NodeId} {left : Option NodeId} {terminal : Terminal}
    (live : session.network.kind? id = some (.terminal left terminal)) :
    (session.network.rule? terminal.rule).isSome = true := by
  obtain ⟨rule, isRule, -⟩ := intact.sound.terminal_eq live
  exact Option.isSome_iff_exists.mpr ⟨rule, isRule⟩

/-! ## Operations -/

namespace SessionM

variable {before after : SessionRun}

private theorem told_assert (intact : before.session.Intact) {handle : Handle}
    {result : Except Error Unit}
    (run : Ends (propagate (MatchM.assert · · handle)) before result after) : Told before after :=
  told_propagate (fun walk =>
    (MatchM.assert_noting (fun live _ => intact.isSome_rule_of_terminal live)
      fun live _ => intact.isSome_rule_of_terminal live).changes walk) run

/-- Withdrawing a fact tells which matches no longer wait. -/
theorem told_withdrawal (intact : before.session.Intact) {handle : Handle}
    {result : Except Error Unit}
    (run : Ends (propagate (MatchM.retract · · handle)) before result after) : Told before after :=
  told_propagate (fun walk =>
    (MatchM.retract_noting (fun live _ => intact.isSome_rule_of_terminal live)
      fun live _ => intact.isSome_rule_of_terminal live).changes walk) run

/-- Dropping a fact is told with its type. -/
theorem told_drop {handle : Handle} {fact : Object}
    (live : before.session.memory.fact? handle = some fact) :
    Told before (before.dropping handle fact.typeName) := by
  have known : before.session.log.types.find? handle = some fact.typeName := by
    rw [Session.log, WorkingMemory.find?_types, live]
    rfl
  exact .event rfl ((if_pos known).trans
    (congrArg some (Log.ext (WorkingMemory.types_remove ..).symm rfl)))

/-- Storing a fact under the next handle is told. -/
theorem told_store (intact : before.session.Intact) (fact : Object) :
    Told before (before.storing fact) := by
  have isNew : before.session.log.types.contains before.session.memory.nextHandle = false :=
    (WorkingMemory.contains_types ..).trans intact.not_contains_nextHandle
  exact .event rfl ((if_neg (Bool.eq_false_iff.mp isNew)).trans
    (congrArg some (Log.ext (WorkingMemory.types_put ..).symm rfl)))

/-- Replacing a fact that is live is told. -/
theorem told_replace {handle : Handle} (live : before.session.memory.contains handle = true)
    (fact : Object) : Told before (before.replacing handle fact) := by
  have known : before.session.log.types.contains handle = true :=
    (WorkingMemory.contains_types ..).trans live
  exact .event rfl ((if_pos known).trans
    (congrArg some (Log.ext (WorkingMemory.types_put ..).symm rfl)))

/-- Inserting a fact is told in full, whether or not it is taken back. -/
theorem told_insert (intact : before.session.Intact) {fact : Object} {result : Except Error Handle}
    (run : Ends (insert fact) before result after) : Told before after := by
  have stores := told_store intact fact
  have stored : (before.storing fact).session.Intact := intact.storing fact
  cases inserting_of_ends run with
  | refused => exact .refl _
  | inserted alive typed sent => exact stores.trans (told_assert stored sent)
  | @takenBack error failed last taken alive typed sent back =>
      have withdrawn : Told failed last :=
        told_withdrawal (stored.assert (ends_propagate sent).1) back
      have live : last.session.memory.fact? before.session.memory.nextHandle = some fact := by
        rw [memory_propagate back, memory_propagate sent]
        exact (SortedMap.find?_insert_eq ..).trans (if_pos rfl)
      exact ((stores.trans (told_assert stored sent)).trans withdrawn).trans (told_drop live)

/-- Replacing a fact is told in full, up to where it fails. -/
theorem told_updateFact (intact : before.session.Intact) {handle : Handle} {fact : Object}
    {result : Except Error Unit} (run : Ends (updateFact handle fact) before result after) :
    Told before after := by
  cases updating_of_ends run with
  | refused => exact .refl _
  | withdrawn _ _ _ back => exact told_withdrawal intact back
  | replaced alive live typed back sent =>
      obtain ⟨taken, nowhere⟩ := intact.retract (ends_propagate back).1
      rw [← memory_propagate back] at live
      exact ((told_withdrawal intact back).trans (told_replace live fact)).trans
        (told_assert (taken.replacing nowhere fact) sent)

/-- Retracting a fact is told in full. -/
theorem told_retract (intact : before.session.Intact) {handle : Handle}
    {result : Except Error Object} (run : Ends (retract handle) before result after) :
    Told before after := by
  cases retracting_of_ends run with
  | refused => exact .refl _
  | retracted alive live back =>
      rw [← memory_propagate back] at live
      exact (told_withdrawal intact back).trans (told_drop live)

/-! ## Firing -/

private theorem goes_updateFact (handle : Handle) (fact : Object) :
    Goes (fun before after => before.session.Intact → after.session.Intact ∧ Told before after)
      (updateFact handle fact) where
  goes run intact :=
    ⟨(Kept.updateFact Session.kept_intact handle fact).keeps run intact, told_updateFact intact run⟩

/-- Consequences tell all that they do to an intact session, and leave it intact. -/
theorem composed_told : Composed fun before after =>
    before.session.Intact → after.session.Intact ∧ Told before after where
  refl run intact := ⟨intact, .refl run⟩
  trans first second intact :=
    have mid := first intact
    have last := second mid.1
    ⟨last.1, mid.2.trans last.2⟩
  insert fact := ⟨fun run intact =>
    ⟨(Kept.insert Session.kept_intact fact).keeps run intact, told_insert intact run⟩⟩
  revises _ _ run := (goes_updateFact _ _).goes run
  retract handle := ⟨fun run intact =>
    ⟨(Kept.retract Session.kept_intact handle).keeps run intact, told_retract intact run⟩⟩
  globals admits intact := ⟨intact.step (.globals admits), .of_eq rfl rfl⟩
  halted _ intact := ⟨intact.step (.halted true), .of_eq rfl rfl⟩

end SessionM

variable {before after : SessionRun}

/-- A firing tells that its match does not wait any more, and all that the consequence does. -/
theorem Fires.told {next : Activation} {rule : Rule} {outcome : Except Error Unit}
    (fires : Fires before next rule outcome after) (intact : before.session.Intact) :
    Told before after := by
  obtain ⟨agenda, last, popped, run, rfl⟩ := fires.runs
  have waits := intact.consistent.queued.mp (Agenda.pop?_eq_some popped).1
  have begins : Told before (before.started agenda next rule) := .event rfl
    ((if_pos (Agenda.find?_waiting_of_pending waits)).trans
      (congrArg some (Log.ext rfl (Agenda.waiting_of_pop? popped).symm)))
  have start : (before.started agenda next rule).session.Intact := intact.step (.pops popped)
  have ran := ((SessionM.composed_told.execute rule next.tuple).goes run start).2
  have ends : Told last (last.closed next rule outcome) := by
    refine ⟨_, rfl, ?_⟩
    cases outcome with
    | error source => rfl
    | ok =>
        unfold SessionRun.closing
        cases last.session.halted <;> rfl
  exact (begins.trans ran).trans ends

/-- The firing loop tells all that it does. -/
theorem Session.Intact.told_fireLoop (intact : before.session.Intact) {budget fired : Nat}
    {result : Except Error Nat} (run : Ends (SessionM.fireLoop budget fired) before result after) :
    Told before after := by
  induction budget generalizing before fired with
  | zero =>
      obtain ⟨-, rfl⟩ := (ends_pure _).mp run
      exact .refl _
  | succ budget ih =>
      cases intact.ends_fireLoop.mp run with
      | rests | limited => exact .refl _
      | fails _ _ fires => exact fires.told intact
      | fires _ _ fires rest => exact (fires.told intact).trans (ih (fires.intact intact) rest)

/-! ## Requests -/

/-- Firing rules leaves a session intact, and all of it is told. -/
theorem SessionM.goes_fireRules (budget : Option Nat) :
    Goes (fun before after => before.session.Intact → after.session.Intact ∧ Told before after)
      (fireRules budget) := by
  refine ⟨fun {before result after} run intact => ⟨?_, ?_⟩⟩
  · exact (Kept.fireRules Session.kept_intact budget).keeps run intact
  · cases alive : before.session.disposed with
    | true =>
        unfold fireRules at run
        rw [ends_ensureLive_bind, alive, if_pos rfl] at run
        exact run.2 ▸ .refl _
    | false =>
        have start : before.unhalted.session.Intact := intact.step (.halted false)
        have begins : Told before before.unhalted := .of_eq rfl rfl
        exact begins.trans (start.told_fireLoop ((ends_fireRules alive).mp run))

/-- Giving up a session empties the books. -/
theorem SessionM.goes_dispose :
    Goes (fun before after => before.session.Intact → after.session.Intact ∧ Told before after)
      dispose := by
  refine ⟨fun {before result after} run intact => ?_⟩
  unfold dispose at run
  rw [ends_session_bind] at run
  split at run
  · rw [ends_update_bind] at run
    obtain ⟨-, rfl⟩ := ends_notify.mp run
    exact ⟨intact.step .givesUp, .event rfl rfl⟩
  · obtain ⟨-, rfl⟩ := (ends_pure _).mp run
    exact ⟨intact, .refl _⟩

/-- Every request leaves a session intact and tells all that it does. -/
theorem SessionM.goes_perform (request : Request) :
    Goes (fun before after => before.session.Intact → after.session.Intact ∧ Told before after)
      (perform request) := by
  have composed := composed_told
  cases request with
  | insert fact => exact composed.bind (composed.insert fact) fun _ => composed.pure _
  | update handle fact =>
      exact composed.bind (goes_updateFact handle fact) fun _ => composed.pure _
  | retract handle => exact composed.bind (composed.retract handle) fun _ => composed.pure _
  | setGlobal name value =>
      exact composed.bind (composed.setGlobal name value) fun _ => composed.pure _
  | fire budget => exact composed.bind (goes_fireRules budget) fun _ => composed.pure _
  | dispose => exact composed.bind goes_dispose fun _ => composed.pure _

/-- The events of requests, in order, lead from the books of a session to those of the session
afterwards. -/
theorem Session.Intact.followAll_serve {session : Session} (intact : session.Intact)
    (requests : List Request) : (session.serve requests).2.Intact ∧
      session.log.followAll? ((session.serve requests).1.flatMap Prod.snd) =
        some (session.serve requests).2.log := by
  induction requests generalizing session with
  | nil => exact ⟨intact, rfl⟩
  | cons request rest ih =>
      have run := ends_run (SessionM.perform request) { session }
      obtain ⟨mid, told⟩ := (SessionM.goes_perform request).goes run intact
      obtain ⟨events, same, leads⟩ := told.exists_events
      obtain ⟨last, onward⟩ := ih mid
      refine ⟨last, ?_⟩
      have split : (session.serve (request :: rest)).1.flatMap Prod.snd =
          events ++ (Session.serve _ rest).1.flatMap Prod.snd :=
        congrArg (· ++ (Session.serve _ rest).1.flatMap Prod.snd) same
      rw [split, Log.followAll?_append, leads]
      exact onward

/-- The events of a session are a log of it. From any session on, whatever is asked of it and
whether or not requests and consequences fail, the books of the session and the events on the way
give the books of the session afterwards; and the books say what is live and what waits. -/
theorem KnowledgeBase.Made.log_of_serve {base : KnowledgeBase} (made : base.Made)
    {config : SessionConfig} {session : Session} (visits : base.Visits config session)
    (requests : List Request) :
    session.log.Shows session ∧ ∃ last,
      session.log.followAll? ((session.serve requests).1.flatMap Prod.snd) = some last ∧
        last.Shows (session.serve requests).2 := by
  have intact := visits.intact made.proper.network.sound
  obtain ⟨after, follows⟩ := intact.followAll_serve requests
  exact ⟨intact.shows_log, _, follows, after.shows_log⟩

namespace Sensors

/-- Rules fire, a reading comes, another one is refused, the first one changes, rules fire again,
and it goes. -/
def requests : List Request :=
  [.fire none, .insert (reading 5), .insert (reading 0), .update 1 (reading 7), .fire (some 1),
    .retract 1]

/-- The requests and what they tell, of which one fails. -/
theorem requests_logged : base.Made ∧ base.Visits {} opened.session ∧
    ((opened.session.serve requests).1.filter fun answer => answer.1.toOption.isNone).length = 1 ∧
    ((opened.session.serve requests).1.flatMap Prod.snd).length = 21 ∧
    opened.session.log.Shows opened.session ∧ ∃ last,
      opened.session.log.followAll? ((opened.session.serve requests).1.flatMap Prod.snd) =
        some last ∧ last.Shows (opened.session.serve requests).2 := by
  obtain ⟨shows, logged⟩ := KnowledgeBase.Made.log_of_serve made opened_visits requests
  exact ⟨made, opened_visits, by decide +kernel, by decide +kernel, shows, logged⟩

end Sensors

end Rete
