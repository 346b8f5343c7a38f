import Rete.Network.Node
import Rete.SortedMap

/-!
# The agenda

The complete matches of a session and what has become of them: waiting to fire, fired, or
suppressed because a no-loop rule brought its own match back. A match is tracked once; it waits
again only after it was withdrawn and found anew.

Waiting matches fire by salience, highest first, and among equals in the order in which they were
found. The state of a waiting match records its place in the queue.
-/

namespace Rete

/-- A complete match of a rule. -/
structure Match where
  rule : RuleId
  tuple : Tuple
  deriving DecidableEq, Inhabited

namespace Match

/-- Matches are ordered by rule, then by tuple, so that those of one rule with a common stem stand
side by side. -/
instance : Ord Match := ⟨compareLex (compareOn Match.rule) (compareOn Match.tuple)⟩

/-- Matches are ordered by their keys, so the order is transitive. -/
instance : Std.TransOrd Match :=
  inferInstanceAs (Std.TransCmp (compareLex (compareOn Match.rule) (compareOn Match.tuple)))

/-- Only one and the same match compares as equal. -/
instance : Std.LawfulEqOrd Match where
  eq_of_compare {first second} equal := by
    obtain ⟨rules, tuples⟩ := compareLex_eq_eq.mp equal
    cases first; cases second
    cases Std.LawfulEqOrd.eq_of_compare rules
    cases Std.LawfulEqOrd.eq_of_compare tuples
    rfl

/-- Whether the match is one of a rule and its tuple starts with a stem. -/
def isWithin (found : Match) (rule : RuleId) (stem : Tuple) : Bool :=
  found.rule == rule && stem.isPrefixOf found.tuple

end Match

/-- A place in the queue. -/
structure QueueKey where
  salience : Int
  /-- The number of the match in the order in which matches were found. -/
  sequence : Nat
  deriving DecidableEq, Inhabited

namespace QueueKey

/-- Higher salience comes first, then the lower number. -/
instance : Ord QueueKey :=
  ⟨compareLex (compareOn fun key => -key.salience) (compareOn QueueKey.sequence)⟩

/-- Queue keys are ordered by salience and sequence, so the order is transitive. -/
instance : Std.TransOrd QueueKey :=
  inferInstanceAs
    (Std.TransCmp (compareLex (compareOn fun key => -key.salience) (compareOn QueueKey.sequence)))

/-- Only one and the same queue key compares as equal. -/
instance : Std.LawfulEqOrd QueueKey where
  eq_of_compare {first second} equal := by
    obtain ⟨saliences, sequences⟩ := compareLex_eq_eq.mp equal
    obtain ⟨salience, sequence⟩ := first
    obtain ⟨salience', sequence'⟩ := second
    have same : -salience = -salience' := Std.LawfulEqOrd.eq_of_compare saliences
    cases Int.neg_inj.mp same
    cases Std.LawfulEqOrd.eq_of_compare sequences
    rfl

end QueueKey

/-- What became of a match that does not wait any more. -/
inductive Settled where
  | fired
  /-- A no-loop rule brought it back while firing on it. -/
  | suppressed
  deriving DecidableEq, Inhabited

/-- The state of a match. -/
inductive MatchState where
  | pending (key : QueueKey)
  | settled (how : Settled)
  deriving DecidableEq, Inhabited

/-- A match that waits to fire, with its place in the queue. -/
structure Activation extends Match, QueueKey where
  deriving DecidableEq, Inhabited

/-- The matches of a session. -/
structure Agenda where
  /-- The waiting matches in the order in which they fire. -/
  queue : SortedMap QueueKey Match := ∅
  states : SortedMap Match MatchState := ∅
  /-- The number that the next match gets. -/
  nextSequence : Nat := 0
  /-- The match whose rule is firing. -/
  firing : Option Match := none
  deriving DecidableEq

/-- The empty agenda. -/
instance : Inhabited Agenda := ⟨{}⟩

namespace Agenda

/-- The number of waiting matches. -/
def size (agenda : Agenda) : Nat := agenda.queue.size

/-- Nothing waits to be fired. -/
def isEmpty (agenda : Agenda) : Bool := agenda.queue.isEmpty

/-- Whether a match is tracked. -/
def knows (agenda : Agenda) (found : Match) : Bool := agenda.states.contains found

/-- The waiting matches in the order in which they fire. -/
def pending (agenda : Agenda) : List Activation :=
  agenda.queue.entries.map fun (key, found) => { found, key with }

/-- The match that fires next. -/
def peek? (agenda : Agenda) : Option Activation := agenda.pending.head?

/-- The tracked matches that do not wait, in their order. -/
def settled (agenda : Agenda) : List (Match × Settled) :=
  agenda.states.entries.filterMap fun (found, state) =>
    match state with
    | .pending _ => none
    | .settled how => some (found, how)

/-! ## Changes -/

/-- Lets a match wait at a place of the queue. -/
def enqueue (agenda : Agenda) (found : Match) (key : QueueKey) : Agenda :=
  { agenda with
    queue := agenda.queue.insert key found
    states := agenda.states.insert found (.pending key) }

/-- Tracks a new match of a rule; returns its number if it waits. A match that is tracked already
stays as it is. The match that a no-loop rule is firing on is suppressed. -/
def activate (agenda : Agenda) (terminal : Terminal) (tuple : Tuple) : Option Nat × Agenda :=
  let found : Match := ⟨terminal.rule, tuple⟩
  if agenda.knows found then (none, agenda)
  else if terminal.noLoop && agenda.firing == some found then
    (none, { agenda with states := agenda.states.insert found (.settled .suppressed) })
  else
    let sequence := agenda.nextSequence
    (some sequence,
      { agenda with nextSequence := sequence + 1 }.enqueue found ⟨terminal.salience, sequence⟩)

/-- Takes a match that was tracked in a given state out of the queue. -/
def unqueue (queue : SortedMap QueueKey Match) : Match × MatchState → SortedMap QueueKey Match
  | (_, .pending key) => queue.erase key
  | (_, .settled _) => queue

/-- Forgets the matches of a rule whose tuple starts with a stem; returns those that waited. -/
def deactivate (agenda : Agenda) (rule : RuleId) (stem : Tuple) : List Activation × Agenda :=
  let (forgotten, states) := agenda.states.cutRange ⟨rule, stem⟩ (·.isWithin rule stem)
  let cancelled := forgotten.filterMap fun (found, state) =>
    match state with
    | .pending key => some { found, key with }
    | .settled _ => none
  (cancelled, { agenda with states, queue := forgotten.foldl unqueue agenda.queue })

/-- Takes the match that fires next and marks it as firing. -/
def pop? (agenda : Agenda) : Option (Activation × Agenda) :=
  match agenda.queue.entries with
  | [] => none
  | (key, found) :: _ =>
    some ({ found, key with },
      { agenda with
        queue := agenda.queue.erase key
        states := agenda.states.insert found (.settled .fired)
        firing := some found })

/-- Ends the firing that `pop?` began. -/
def finishFiring (agenda : Agenda) : Agenda := { agenda with firing := none }

/-- Forgets all matches. Numbers are not given out again. -/
def clear (agenda : Agenda) : Agenda := { nextSequence := agenda.nextSequence }

/-! ## Restoring -/

/-- Puts back a waiting match; there is none if the match is tracked already. -/
def restorePending? (agenda : Agenda) (activation : Activation) : Option Agenda :=
  if agenda.knows activation.toMatch then none
  else
    let agenda := agenda.enqueue activation.toMatch activation.toQueueKey
    some { agenda with nextSequence := max agenda.nextSequence (activation.sequence + 1) }

/-- Puts back a match that does not wait; there is none if the match is tracked already. -/
def restoreSettled? (agenda : Agenda) (found : Match) (how : Settled) : Option Agenda :=
  if agenda.knows found then none
  else some { agenda with states := agenda.states.insert found (.settled how) }

/-- Sees to it that numbers below `next` are not given out any more. -/
def reserve (agenda : Agenda) (next : Nat) : Agenda :=
  { agenda with nextSequence := max agenda.nextSequence next }

end Agenda

end Rete
