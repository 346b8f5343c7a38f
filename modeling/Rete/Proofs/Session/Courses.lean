import Rete.Proofs.Agenda.Operations
import Rete.Proofs.Matching.Frame
import Rete.Proofs.Session.Requests

/-!
# What becomes of an agenda

While the network follows what happens to facts, the agenda follows the changes of the complete
matches (`Session.Rematches`). Besides, the firing loop takes matches off it. So a session goes from
one state to another by a course of operations on its agenda (`Session.Course`), and so does every
request, whether or not it fails (`SessionM.exists_course_of_perform`).
-/

namespace Rete

/-- A match can be found at the terminal node of its rule. -/
def Network.Reports (network : Network) : MatchChange → Prop
  | .found terminal _ => ∃ id left, network.kind? id = some (.terminal left terminal)
  | .lost .. => True

namespace Session

/-- The complete matches of a session change while the network follows what happens to facts. -/
inductive Rematches : Session → List MatchChange → Session → Prop
  /-- Only facts, globals and the mark of a halt change. -/
  | rest {session : Session} (memory : WorkingMemory) (halted : Bool) :
      Rematches session [] { session with memory, halted }
  /-- A fact comes in. -/
  | enters {session : Session} {handle : Handle} {result : Except Error Unit} {matching : Matching}
      (run : Ends (MatchM.assert session.network session.view handle) { memory := session.matched }
        result matching) : Rematches session matching.changes (session.following matching)
  /-- A fact is taken back. -/
  | leaves {session : Session} {handle : Handle} {result : Except Error Unit} {matching : Matching}
      (run : Ends (MatchM.retract session.network session.view handle) { memory := session.matched }
        result matching) : Rematches session matching.changes (session.following matching)
  | trans {session mid after : Session} {first second : List MatchChange}
      (one : Rematches session first mid) (two : Rematches mid second after) :
      Rematches session (first ++ second) after

/-- A session goes from one state to another by operations on its agenda. -/
inductive Course : Session → List Agenda.Operation → Session → Prop
  | rematches {session after : Session} {changes : List MatchChange}
      (rematches : session.Rematches changes after) :
      Course session (changes.map Agenda.Operation.ofChange) after
  | pops {session : Session} {next : Activation} {agenda : Agenda}
      (popped : session.agenda.pop? = some (next, agenda)) :
      Course session [.pop] { session with agenda }
  | finishes {session : Session} :
      Course session [.finishFiring] { session with agenda := session.agenda.finishFiring }
  | givesUp {session : Session} : Course session [.clear] session.givenUp
  /-- Host functions and the values of globals become others. -/
  | rehosted {session : Session} (catalog : Catalog) (globals : Globals) :
      Course session [] { session with catalog, memory := { session.memory with globals } }
  | trans {session mid after : Session} {first second : List Agenda.Operation}
      (one : Course session first mid) (two : Course mid second after) :
      Course session (first ++ second) after

variable {session after : Session}

/-! ## Changes of the complete matches -/

namespace Rematches

private theorem network {changes : List MatchChange} (rematches : session.Rematches changes after) :
    after.network = session.network := by
  induction rematches with
  | rest | enters | leaves => rfl
  | trans _ _ first second => exact second.trans first

/-- The agenda follows the changes one by one. -/
theorem agenda {changes : List MatchChange} (rematches : session.Rematches changes after) :
    after.agenda = session.agenda.followAll changes := by
  induction rematches with
  | rest | enters | leaves => rfl
  | trans _ _ first second => rw [second, first, Agenda.followAll_append]

/-- What is found is found at the terminal node of its rule. -/
theorem reports {changes : List MatchChange} (rematches : session.Rematches changes after) :
    ∀ change ∈ changes, session.network.Reports change := by
  induction rematches with
  | rest => exact List.forall_mem_nil _
  | enters run =>
      exact (MatchM.assert_noting (fun live _ => ⟨_, _, live⟩) fun _ _ => trivial).changes run
  | leaves run =>
      exact (MatchM.retract_noting (fun live _ => ⟨_, _, live⟩) fun _ _ => trivial).changes run
  | trans one _ first second =>
      rw [one.network] at second
      exact List.forall_mem_append.mpr ⟨first, second⟩

end Rematches

/-- The complete matches have changed, in some way, from one state to the other. -/
def Moves (session after : Session) : Prop := ∃ changes, session.Rematches changes after

namespace Moves

/-- Facts, globals and a halt do not change the complete matches. -/
theorem rest (session : Session) (memory : WorkingMemory) (halted : Bool) :
    session.Moves { session with memory, halted } :=
  ⟨[], .rest memory halted⟩

/-- Nothing has changed. -/
theorem refl (session : Session) : session.Moves session :=
  rest session session.memory session.halted

/-- Changing the facts and globals alone. -/
theorem withMemory (session : Session) (memory : WorkingMemory) :
    session.Moves (session.withMemory memory) := rest session memory session.halted

/-- The complete matches change in two steps. -/
theorem trans {mid : Session} (first : session.Moves mid) (second : mid.Moves after) :
    session.Moves after := by
  obtain ⟨changes, one⟩ := first
  obtain ⟨more, two⟩ := second
  exact ⟨changes ++ more, one.trans two⟩

private theorem enters {handle : Handle} {result : Except Error Unit}
    (follows : session.Follows (MatchM.assert · · handle) result after) : session.Moves after := by
  obtain ⟨matching, run, rfl⟩ := follows
  exact ⟨matching.changes, .enters run⟩

/-- Following a fact that leaves changes the complete matches only. -/
theorem leaves {handle : Handle} {result : Except Error Unit}
    (follows : session.Follows (MatchM.retract · · handle) result after) : session.Moves after := by
  obtain ⟨matching, run, rfl⟩ := follows
  exact ⟨matching.changes, .leaves run⟩

variable {handle : Handle} {fact : Object} {failures : List Error}

/-- An insertion changes the complete matches in some way. -/
theorem of_inserts {result : Except Error Handle}
    (inserts : session.Inserts fact result after failures) : session.Moves after := by
  have stores : session.Moves (session.storing fact) := withMemory session _
  cases inserts with
  | refused => exact refl session
  | inserted _ _ follows => exact stores.trans (enters follows)
  | takenBack _ _ follows back =>
      exact ((stores.trans (enters follows)).trans (leaves back)).trans (withMemory _ _)

/-- A replacement changes the complete matches in some way. -/
theorem of_updates {result : Except Error Unit}
    (updates : session.Updates handle fact result after failures) : session.Moves after := by
  cases updates with
  | refused => exact refl session
  | withdrawn _ _ _ follows => exact leaves follows
  | replaced _ _ _ first second =>
      exact ((leaves first).trans (withMemory _ _)).trans (enters second)

/-- A retraction changes the complete matches in some way. -/
theorem of_retracts {result : Except Error Object}
    (retracts : session.Retracts handle result after failures) : session.Moves after := by
  cases retracts with
  | refused => exact refl session
  | retracted _ _ follows => exact (leaves follows).trans (withMemory _ _)

end Moves

/-! ## Courses -/

/-- A course is one of operations on the agenda. -/
theorem Course.agenda {operations : List Agenda.Operation}
    (course : session.Course operations after) :
    after.agenda = session.agenda.performAll operations := by
  induction course with
  | rematches rematches => exact rematches.agenda.trans (Agenda.followAll_eq_performAll ..)
  | pops popped => exact (Agenda.perform_pop popped).symm
  | finishes | givesUp | rehosted => rfl
  | trans _ _ first second => rw [second, first, Agenda.performAll_append]

private theorem Moves.exists_course (moves : session.Moves after) :
    ∃ operations, session.Course operations after := by
  obtain ⟨changes, rematches⟩ := moves
  exact ⟨_, .rematches rematches⟩

/-- Every step of a request has a course. -/
theorem Step.exists_course {failures : List Error} (step : session.Step failures after) :
    ∃ operations, session.Course operations after := by
  cases step with
  | inserts inserts => exact (Moves.of_inserts inserts).exists_course
  | updates updates => exact (Moves.of_updates updates).exists_course
  | retracts retracts => exact (Moves.of_retracts retracts).exists_course
  | globals => exact (Moves.withMemory session _).exists_course
  | halted halted => exact (Moves.rest session session.memory halted).exists_course
  | pops popped => exact ⟨[.pop], .pops popped⟩
  | finishes => exact ⟨[.finishFiring], .finishes⟩
  | givesUp => exact ⟨[.clear], .givesUp⟩

/-- From a session on, all that requests lead to is reached by courses. -/
theorem kept_course (start : Session) :
    Session.Kept fun session _ => ∃ operations, start.Course operations session where
  step before step := by
    obtain ⟨operations, first⟩ := before
    obtain ⟨more, second⟩ := step.exists_course
    exact ⟨operations ++ more, first.trans second⟩

end Session

namespace SessionM

/-- Replacing a fact changes the complete matches in some way, however it ends. -/
theorem moves_updateFact (handle : Handle) (fact : Object) :
    Goes (fun before after => before.session.Moves after.session) (updateFact handle fact) where
  goes run := by
    obtain ⟨failures, updates, -⟩ := ends_updateFact run
    exact .of_updates updates

/-- Consequences change the complete matches, and the agenda only by that. -/
theorem composed_moves : Composed fun before after => before.session.Moves after.session where
  refl run := .refl run.session
  trans := .trans
  insert _ := ⟨fun run => by
    obtain ⟨failures, inserts, -⟩ := ends_insert run
    exact .of_inserts inserts⟩
  revises _ _ run := (moves_updateFact _ _).goes run
  retract _ := ⟨fun run => by
    obtain ⟨failures, retracts, -⟩ := ends_retract run
    exact .of_retracts retracts⟩
  globals _ := .withMemory _ _
  halted run := .rest run.session run.session.memory true

/-- Every request has a course, whether or not it fails. -/
theorem exists_course_of_perform {before after : SessionRun} {request : Request}
    {result : Except Error Answer} (run : Ends (perform request) before result after) :
    ∃ operations, before.session.Course operations after.session :=
  (Kept.perform before.session.kept_course request).keeps run
    (Session.Moves.refl before.session).exists_course

end SessionM

end Rete
