import Rete.Proofs.Session.Requests

/-!
# Effects of requests, one by one

A session tells of every change of its facts when it makes it. So what requests do to the facts is a
chain of single effects, each told by one event (`Session.Effects`), and a request goes along such a
chain whether or not it fails (`SessionM.served_unfolds`). The chain can be taken apart at any place
of what was told (`Session.Effects.split`), also in the middle of a consequence.
-/

namespace Rete

namespace Session

/-- The facts of a session stay as they are, and its counter of handles is not put back. -/
structure KeepsFacts (session after : Session) : Prop where
  facts : after.memory.facts = session.memory.facts
  nextHandle_le : session.memory.nextHandle ≤ after.memory.nextHandle
  disposed : after.disposed = session.disposed

/-- Facts and counter are part of the working memory. -/
theorem KeepsFacts.of_memory {session after : Session}
    (memory : after.memory = session.memory) (disposed : after.disposed = session.disposed) :
    session.KeepsFacts after :=
  ⟨congrArg WorkingMemory.facts memory,
    Nat.le_of_eq (congrArg WorkingMemory.nextHandle memory).symm, disposed⟩

/-- A single effect on the facts of a session, with the event that tells of it. -/
inductive Effect (session : Session) : Option SessionEvent → Session → Prop
  | stores (fact : Object) (alive : session.disposed = false) :
      Effect session (some (.factInserted session.memory.nextHandle fact.typeName))
        (session.storing fact)
  | replaces {handle : Handle} (fact : Object) (live : session.memory.contains handle = true) :
      Effect session (some (.factUpdated handle fact.typeName)) (session.replacing handle fact)
  | drops {handle : Handle} {fact : Object} (live : session.memory.fact? handle = some fact) :
      Effect session (some (.factRetracted handle fact.typeName)) (session.dropping handle)
  | givesUp : Effect session (some .disposed) session.givenUp
  /-- Something else happens, of which an event may tell. -/
  | aside {event? : Option SessionEvent} {after : Session}
      (other : ∀ event ∈ event?, event.isFactEvent = false) (keeps : session.KeepsFacts after) :
      Effect session event? after

/-- A chain of effects, with all that is told on the way. -/
inductive Effects : Session → List SessionEvent → Session → Prop
  | none (session : Session) : Effects session [] session
  | cons {session mid last : Session} {event? : Option SessionEvent} {events : List SessionEvent}
      (effect : session.Effect event? mid) (rest : Effects mid events last) :
      Effects session (event?.toList ++ events) last

namespace Effects

variable {start mid last : Session} {events earlier later : List SessionEvent}

private theorem one {event? : Option SessionEvent} (effect : start.Effect event? last) :
    start.Effects event?.toList last :=
  List.append_nil event?.toList ▸ .cons effect (.none last)

/-- Effects follow upon effects. -/
theorem append {more : List SessionEvent} (first : start.Effects events mid)
    (second : mid.Effects more last) : start.Effects (events ++ more) last := by
  induction first with
  | none => exact second
  | cons effect _ ih =>
      rw [List.append_assoc]
      exact .cons effect (ih second)

/-- At each place of what is told, there is a session at that moment. -/
theorem split (effects : start.Effects (earlier ++ later) last) :
    ∃ now, start.Effects earlier now ∧ now.Effects later last := by
  generalize whole : earlier ++ later = events at effects
  induction effects generalizing earlier with
  | none session =>
      obtain ⟨rfl, rfl⟩ := List.append_eq_nil_iff.mp whole
      exact ⟨session, .none _, .none _⟩
  | @cons session mid last event? events effect rest ih =>
      cases event? with
      | none =>
          obtain ⟨now, first, second⟩ := ih whole
          exact ⟨now, .cons effect first, second⟩
      | some event =>
          cases earlier with
          | nil =>
              cases whole
              exact ⟨session, .none _, .cons effect rest⟩
          | cons first earlier =>
              obtain ⟨rfl, others⟩ := List.cons.inj whole
              obtain ⟨now, before, after⟩ := ih others
              exact ⟨now, .cons effect before, after⟩

/-- The first thing that is told is an effect, before which nothing was told. -/
theorem first {event : SessionEvent} (effects : start.Effects (event :: later) last) :
    ∃ before after, start.Effects [] before ∧ before.Effect (some event) after ∧
      after.Effects later last := by
  generalize whole : event :: later = events at effects
  induction effects with
  | none => cases whole
  | @cons session mid last event? events effect rest ih =>
      cases event? with
      | none =>
          obtain ⟨before, after, quiet, own, others⟩ := ih whole
          exact ⟨before, after, .cons effect quiet, own, others⟩
      | some other =>
          obtain ⟨rfl, rfl⟩ := List.cons.inj whole
          exact ⟨session, mid, .none _, effect, rest⟩

/-- Each thing that is told is an effect of its moment. -/
theorem told {event : SessionEvent} (effects : start.Effects (earlier ++ event :: later) last) :
    ∃ now after, start.Effects earlier now ∧ now.Effect (some event) after ∧
      after.Effects later last := by
  obtain ⟨mid, before, onward⟩ := effects.split
  obtain ⟨now, after, quiet, effect, rest⟩ := onward.first
  exact ⟨now, after, List.append_nil earlier ▸ before.append quiet, effect, rest⟩

end Effects

end Session

/-! ## Runs that tell what they do to facts -/

/-- One run goes on from another by effects that it tells. -/
structure Unfolds (before after : SessionRun) : Prop where
  exists_events : ∃ events, after.events = before.events ++ events ∧
    before.session.Effects events after.session

namespace Unfolds

variable {before mid after : SessionRun}

/-- A run goes on from itself without effects. -/
theorem refl (run : SessionRun) : Unfolds run run :=
  ⟨[], (List.append_nil _).symm, .none _⟩

/-- A run goes on in two steps. -/
theorem trans (first : Unfolds before mid) (second : Unfolds mid after) : Unfolds before after := by
  obtain ⟨events, told, effects⟩ := first.exists_events
  obtain ⟨more, toldMore, others⟩ := second.exists_events
  exact ⟨events ++ more, by rw [toldMore, told, List.append_assoc], effects.append others⟩

/-- A single effect is told by its event. -/
theorem effect {event : SessionEvent} (told : after.events = before.events ++ [event])
    (effect : before.session.Effect (some event) after.session) : Unfolds before after :=
  ⟨[event], told, .one effect⟩

/-- What leaves the facts alone need not be told. -/
theorem quiet (untold : after.events = before.events)
    (keeps : before.session.KeepsFacts after.session) : Unfolds before after :=
  ⟨[], untold.trans (List.append_nil _).symm,
    .one (.aside (fun _ none => absurd none (Option.not_mem_none _)) keeps)⟩

/-- Events that are not about facts can be told at any time. -/
theorem notice {event : SessionEvent} (other : event.isFactEvent = false) (run : SessionRun) :
    Unfolds run { run with events := run.events ++ [event] } :=
  .effect rfl (.aside (fun _ same => Option.mem_some.mp same ▸ other) ⟨rfl, Nat.le_refl _, rfl⟩)

end Unfolds

namespace SessionM

variable {before after : SessionRun}

private theorem unfolds_notifyOf {rule : RuleId} {event : RuleRef → SessionEvent}
    {result : Except Error Unit} (other : ∀ rule, (event rule).isFactEvent = false)
    (run : Ends (notifyOf rule event) before result after) : Unfolds before after := by
  unfold notifyOf at run
  rw [ends_session_bind] at run
  split at run
  · obtain ⟨-, rfl⟩ := ends_notify.mp run
    exact .notice (other _) _
  · obtain ⟨-, rfl⟩ := (ends_pure _).mp run
    exact .refl _

/-- What becomes of matches is told by events that are not about facts. -/
theorem unfolds_applyChange {change : MatchChange} {result : Except Error Unit}
    (run : Ends (applyChange change) before result after) : Unfolds before after := by
  cases change with
  | found terminal tuple =>
      unfold applyChange at run
      rw [ends_session_bind] at run
      simp only [ends_update_bind] at run
      have begins : Unfolds before { before with session := { before.session with
          agenda := (before.session.agenda.activate terminal tuple).2 } } :=
        .quiet rfl (.of_memory rfl rfl)
      refine begins.trans ?_
      split at run
      · exact unfolds_notifyOf (fun _ => rfl) run
      · obtain ⟨-, rfl⟩ := (ends_pure _).mp run
        exact .refl _
  | lost rule stem =>
      unfold applyChange at run
      rw [ends_session_bind] at run
      simp only [ends_update_bind] at run
      have outcome := run.forM (fun _ mid => Unfolds before mid) (fun _ mid => Unfolds before mid)
        (.quiet rfl (.of_memory rfl rfl)) fun activation rest mid result last _ begun step => by
          have more := begun.trans (unfolds_notifyOf (fun _ => rfl) step)
          cases result <;> exact more
      cases result <;> exact outcome

/-- What the network follows leaves the facts alone. -/
theorem unfolds_propagate {step : Network → FactView → MatchM Unit} {result : Except Error Unit}
    (run : Ends (propagate step) before result after) : Unfolds before after := by
  obtain ⟨matching, between, -, handedOn, rfl⟩ := propagating_of_ends run
  have follows : Unfolds before between :=
    handedOn.forM (fun _ mid => Unfolds before mid) (fun _ _ => True)
      (.quiet rfl (.of_memory rfl rfl)) fun change rest mid result last _ begun step => by
        cases result with
        | ok => exact begun.trans (unfolds_applyChange step)
        | error => exact trivial
  exact follows.trans (.quiet rfl (.of_memory rfl rfl))

private theorem unfolds_store (alive : before.session.disposed = false) (fact : Object) :
    Unfolds before (before.storing fact) :=
  .effect rfl (.stores fact alive)

private theorem unfolds_drop {handle : Handle} {fact : Object}
    (live : before.session.memory.fact? handle = some fact) :
    Unfolds before (before.dropping handle fact.typeName) :=
  .effect rfl (.drops live)

/-- Inserting a fact is told in full, whether or not it is taken back. If it is not, it is live
under the handle that is returned, and that it came in was told first. -/
theorem unfolds_insert {fact : Object} {result : Except Error Handle}
    (run : Ends (insert fact) before result after) :
    Unfolds before after ∧ Outcome result
      (fun handle => after.session.memory.fact? handle = some fact ∧
        ∃ more, after.events = before.events ++ .factInserted handle fact.typeName :: more)
      fun _ => True := by
  have stored : (before.storing fact).session.memory.fact? before.session.memory.nextHandle =
      some fact := (SortedMap.find?_insert_eq ..).trans (if_pos rfl)
  cases inserting_of_ends run with
  | refused => exact ⟨.refl _, trivial⟩
  | inserted alive typed sent =>
      have sends := unfolds_propagate sent
      obtain ⟨more, told, -⟩ := sends.exists_events
      rw [← memory_propagate sent] at stored
      exact ⟨(unfolds_store alive fact).trans sends, stored, more,
        told.trans (List.append_assoc ..)⟩
  | takenBack alive typed sent back =>
      rw [← memory_propagate sent, ← memory_propagate back] at stored
      exact ⟨(((unfolds_store alive fact).trans (unfolds_propagate sent)).trans
        (unfolds_propagate back)).trans (unfolds_drop stored), trivial⟩

/-- Replacing a fact is told in full, up to where it fails. -/
theorem unfolds_updateFact {handle : Handle} {fact : Object} {result : Except Error Unit}
    (run : Ends (updateFact handle fact) before result after) : Unfolds before after := by
  cases updating_of_ends run with
  | refused => exact .refl _
  | withdrawn _ _ _ back => exact unfolds_propagate back
  | @replaced mid _ _ alive live typed back sent =>
      rw [← memory_propagate back] at live
      have replaces : Unfolds mid (mid.replacing handle fact) := .effect rfl (.replaces fact live)
      exact ((unfolds_propagate back).trans replaces).trans (unfolds_propagate sent)

/-- Retracting a fact is told in full. -/
theorem unfolds_retract {handle : Handle} {result : Except Error Object}
    (run : Ends (retract handle) before result after) : Unfolds before after := by
  cases retracting_of_ends run with
  | refused => exact .refl _
  | retracted alive live back =>
      rw [← memory_propagate back] at live
      exact (unfolds_propagate back).trans (unfolds_drop live)

/-- Whatever is asked of a session, it tells of all that it does to facts. -/
theorem served_unfolds : Served Unfolds where
  refl := .refl
  trans := .trans
  insert _ := ⟨fun run => (unfolds_insert run).1⟩
  updateFact _ _ := ⟨unfolds_updateFact⟩
  retract _ := ⟨unfolds_retract⟩
  globals _ := .quiet rfl ⟨rfl, Nat.le_refl _, rfl⟩
  halted _ := .quiet rfl (.of_memory rfl rfl)
  tells other := .notice other _
  resumes _ := .quiet rfl (.of_memory rfl rfl)
  pops _ := .quiet rfl (.of_memory rfl rfl)
  finishes _ := .quiet rfl (.of_memory rfl rfl)
  givesUp _ := .effect rfl .givesUp

end SessionM

end Rete
