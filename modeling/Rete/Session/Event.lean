import Rete.Rule

/-!
# Session events

What a session tells about its work: changes of facts, matches that begin and cease to wait, and
firings. An operation yields its events in the order in which they happened.
-/

namespace Rete

/-- A rule as events name it. -/
structure RuleRef where
  id : RuleId
  package : String
  name : String
  deriving DecidableEq, Inhabited

namespace RuleRef

/-- What an event tells of a rule of the network. -/
def ofRule (id : RuleId) (rule : Rule) : RuleRef := ⟨id, rule.package, rule.name⟩

/-- The qualified name of the rule. -/
def text (rule : RuleRef) : String := rule.package ++ "." ++ rule.name

end RuleRef

/-- Something that happened in a session. -/
inductive SessionEvent where
  | factInserted (handle : Handle) (typeName : String)
  | factUpdated (handle : Handle) (typeName : String)
  | factRetracted (handle : Handle) (typeName : String)
  /-- A match was found and waits to fire. -/
  | activationCreated (rule : RuleRef) (tuple : Tuple) (sequence : Nat)
  /-- A match that waited is gone. -/
  | activationCancelled (rule : RuleRef) (tuple : Tuple)
  /-- A consequence is about to run. -/
  | beforeFire (rule : RuleRef) (tuple : Tuple) (sequence : Nat)
  /-- A consequence has run to its end. -/
  | afterFire (rule : RuleRef) (tuple : Tuple)
  /-- A consequence has ended the firing loop. -/
  | halted
  | disposed
  deriving DecidableEq, Inhabited

namespace SessionEvent

/-- The name of the kind of an event. -/
def kindName : SessionEvent → String
  | factInserted .. => "fact-inserted"
  | factUpdated .. => "fact-updated"
  | factRetracted .. => "fact-retracted"
  | activationCreated .. => "activation-created"
  | activationCancelled .. => "activation-cancelled"
  | beforeFire .. => "before-fire"
  | afterFire .. => "after-fire"
  | halted => "halted"
  | disposed => "disposed"

/-- Whether the event is a change of a fact. -/
def isFactEvent : SessionEvent → Bool
  | factInserted .. | factUpdated .. | factRetracted .. => true
  | _ => false

/-- Whether the event is about a match or a firing. -/
def isRuleEvent : SessionEvent → Bool
  | activationCreated .. | activationCancelled .. | beforeFire .. | afterFire .. => true
  | _ => false

end SessionEvent

end Rete
