import Rete.Text.Split

/-!
# Dotted names

Packages, types and functions have dotted names such as `org.example.Cheese`. A name is its
list of segments; empty segments of a written name are passed over.
-/

namespace Rete

/-- A dotted name, by its segments. -/
structure QualifiedName where
  segments : List String
  deriving DecidableEq, Inhabited

namespace QualifiedName

/-- Reads a written name. -/
def ofText (text : String) : QualifiedName :=
  ⟨(Text.split '.' text).filter fun segment => !segment.isEmpty⟩

/-- The written name. -/
def text (name : QualifiedName) : String := ".".intercalate name.segments

/-- The last segment, empty for the empty name. -/
def simpleName (name : QualifiedName) : String := name.segments.getLast?.getD ""

/-- The enclosing package or type. Names of a single segment have none. -/
def parent? (name : QualifiedName) : Option QualifiedName :=
  if name.segments.length < 2 then none else some ⟨name.segments.dropLast⟩

/-- The name with one more segment. -/
def child (name : QualifiedName) (segment : String) : QualifiedName :=
  ⟨name.segments ++ [segment]⟩

/-- Whether the name has more than one segment. -/
def isQualified (name : QualifiedName) : Bool := 1 < name.segments.length

/-- The name has no segment. -/
def isEmpty (name : QualifiedName) : Bool := name.segments.isEmpty

end QualifiedName

end Rete
