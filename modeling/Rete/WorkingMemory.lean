import Rete.Error
import Rete.Value

/-!
# Working memory

The facts of a session by handle, and the values of its globals. Handles are given out in
ascending order and never a second time: the next one is above every handle that was ever
stored or given out.
-/

namespace Rete

/-- The values of the globals that have been set. -/
abbrev Globals : Type := SortedMap String Value

/-- The live facts, by handle. -/
abbrev Facts : Type := SortedMap Handle Object

/-- The facts and globals of a session. -/
structure WorkingMemory where
  facts : Facts := ∅
  globals : Globals := ∅
  /-- The handle that the next new fact gets. -/
  nextHandle : Handle := 1
  deriving DecidableEq

/-- No facts and no globals. -/
instance : Inhabited WorkingMemory := ⟨{}⟩

namespace WorkingMemory

/-- Gives out a new handle. -/
def allocate (memory : WorkingMemory) : Handle × WorkingMemory :=
  (memory.nextHandle, { memory with nextHandle := memory.nextHandle + 1 })

/-- The live fact of a handle. -/
def fact? (memory : WorkingMemory) (handle : Handle) : Option Object := memory.facts.find? handle

/-- The handle belongs to a live fact. -/
def contains (memory : WorkingMemory) (handle : Handle) : Bool := memory.facts.contains handle

/-- Stores a fact under a handle, over the one that was there. -/
def put (memory : WorkingMemory) (handle : Handle) (fact : Object) : WorkingMemory :=
  { memory with
    facts := memory.facts.insert handle fact
    nextHandle := max memory.nextHandle (handle + 1) }

/-- Drops the fact of a handle. -/
def remove (memory : WorkingMemory) (handle : Handle) : WorkingMemory :=
  { memory with facts := memory.facts.erase handle }

/-- Sees to it that handles below `next` are not given out any more. -/
def reserve (memory : WorkingMemory) (next : Handle) : WorkingMemory :=
  { memory with nextHandle := max memory.nextHandle next }

/-- The value of a global, if it has been set. -/
def global? (memory : WorkingMemory) (name : String) : Option Value := memory.globals.find? name

/-- Sets a global, whether or not it was set. -/
def setGlobal (memory : WorkingMemory) (name : String) (value : Value) : WorkingMemory :=
  { memory with globals := memory.globals.insert name value }

end WorkingMemory

end Rete
