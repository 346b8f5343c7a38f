import Mathlib.Logic.Basic

/-!
# Computations that may not end

A recursion that is not known to come to an end is followed as deep as its fuel allows. Where that
is not deep enough, it has no outcome; where it has one (`UnboundedM.Yields`), it is a result or an
error, and in both cases a state. The recursion ends if it has that outcome from some fuel on
(`UnboundedM.EndsWith`).
-/

namespace Rete

/-- A computation on a state that may fail, and that has no outcome if it is not followed to its
end. -/
abbrev UnboundedM (ε σ : Type) : Type → Type := ExceptT ε (StateT σ Option)

namespace UnboundedM

variable {ε σ α β : Type} {before between after : σ} {result : Except ε α}

/-- A computation that is not followed any further. -/
def outOfFuel : UnboundedM ε σ α := ExceptT.mk fun _ => none

/-- A computation is followed to its end, with a result and in a state. -/
def Yields (operation : UnboundedM ε σ α) (before : σ) (result : Except ε α) (after : σ) : Prop :=
  operation.run.run before = some (result, after)

/-- A computation is followed to its end step by step. -/
theorem Yields.bind {first : UnboundedM ε σ β} {next : β → UnboundedM ε σ α} {b : β}
    (one : first.Yields before (.ok b) between) (two : (next b).Yields between result after) :
    (first >>= next).Yields before result after := by
  change (first.run.run before).bind (fun (x, s) => (ExceptT.bindCont next x).run s) = _
  rw [show first.run.run before = some (.ok b, between) from one]
  exact two

/-- An error of the first step ends the computation. -/
theorem Yields.bind_error {first : UnboundedM ε σ β} {e : ε}
    (fails : first.Yields before (.error e) after) (next : β → UnboundedM ε σ α) :
    (first >>= next).Yields before (.error e) after := by
  change (first.run.run before).bind (fun (x, s) => (ExceptT.bindCont next x).run s) = _
  rw [show first.run.run before = some (.error e, after) from fails]
  rfl

/-- Followed deep enough, a recursion ends with a result, in a state. -/
def EndsWith (recursion : Nat → UnboundedM ε σ α) (before : σ) (result : Except ε α) (after : σ) :
    Prop :=
  ∃ enough, ∀ fuel, enough ≤ fuel → (recursion fuel).Yields before result after

/-- A recursion may be followed deeper than needed. -/
theorem EndsWith.of_extra {recursion : Nat → UnboundedM ε σ α} {enough : Nat}
    (each : ∀ extra, (recursion (extra + enough)).Yields before result after) :
    EndsWith recursion before result after := by
  refine ⟨enough, fun fuel le => ?_⟩
  obtain ⟨extra, rfl⟩ := Nat.exists_eq_add_of_le' le
  exact each extra

end UnboundedM

end Rete
