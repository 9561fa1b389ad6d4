import Mathlib.Order.Bounds.Defs
import Mathlib.Order.Defs.PartialOrder
import Mathlib.Tactic.Common

/-! Routes through a graph whose edges extend the cost of the way from the start, and the least cost
of a route. -/
namespace Phantom.Routes

section
variable {V E K : Type*} (joins : E → V → V → Prop) (extend : K → E → K)

/-- A route between two vertices, with the cost before it and after it. -/
inductive Route : V → K → V → K → Prop
  | nil (u : V) (c : K) : Route u c u c
  | cons {u v w : V} {e : E} {c d : K} (h : joins e u v) (rest : Route v (extend c e) w d) :
      Route u c w d

/-- A route from a vertex through the listed ones, with the cost before it and after it. -/
inductive Via : V → K → List V → K → Prop
  | nil (u : V) (c : K) : Via u c [] c
  | cons {u v : V} {vs : List V} {e : E} {c d : K} (h : joins e u v) (rest : Via v (extend c e) vs d) :
      Via u c (v::vs) d

/-- The least cost of a route. -/
def LeastRoute [LE K] (u : V) (c : K) (v : V) (d : K) : Prop :=
  IsLeast {d | Route joins extend u c v d} d

end

section
variable {V E K : Type*} {joins : E → V → V → Prop} {extend : K → E → K} {u v : V} {c d d' : K}

lemma LeastRoute.unique [PartialOrder K] (h : LeastRoute joins extend u c v d)
    (h' : LeastRoute joins extend u c v d') : d=d' := le_antisymm (h.2 h'.1) (h'.2 h.1)

/-- What holds at the start and is kept by every edge holds at the end. -/
lemma Route.invariant {P : V → K → Prop}
    (hedge : ∀ e u v c, joins e u v → P u c → P v (extend c e)) (h : Route joins extend u c v d)
    (hu : P u c) : P v d := by
  induction h with
  | nil => exact hu
  | cons he _ ih => exact ih (hedge _ _ _ _ he hu)

end

end Phantom.Routes
