import Mathlib.Data.Option.Basic
import Mathlib.Data.List.Basic

/-! Runs of two parties, each of which acts by itself and takes what the other one has sent, in any
order and as often as it is delivered. -/
namespace Phantom

/-- What may happen at the first party, or a change of the order. `deliver i` is the arrival of message
`i` of the other party. -/
inductive Exchange (A D : Type)
  | swap
  | act (a : A)
  | deliver (i : ℕ) (d : D)

namespace Exchange

variable {X A M D : Type} (act : X → A → Option X) (sent : X → List M) (take : X → M → D → Option X)

def apply (c : X × X) : Exchange A D → Option (X × X)
  | .swap => some (c.2,c.1)
  | .act a => (act c.1 a).map fun x ↦ (x,c.2)
  | .deliver i d => (sent c.2)[i]?.bind fun m ↦ (take c.1 m d).map fun x ↦ (x,c.2)

def run (c : X × X) (ms : List (Exchange A D)) : Option (X × X) := ms.foldlM (apply act sent take) c

variable {act sent take} {J : X → X → Prop} {c c' : X × X}

/-- A relation that no change at either party breaks holds at the end of a run. -/
lemma run_induct (swap : ∀ {x y}, J x y → J y x)
    (acts : ∀ {x y a x'}, J x y → act x a=some x' → J x' y)
    (takes : ∀ {x y m d x'}, J x y → m ∈ sent y → take x m d=some x' → J x' y)
    {ms : List (Exchange A D)} (h : J c.1 c.2) (hr : run act sent take c ms=some c') :
    J c'.1 c'.2 := by
  induction ms generalizing c with
  | nil =>
    cases hr
    exact h
  | cons m ms ih =>
    rw [run,List.foldlM_cons] at hr
    obtain ⟨d,hd,hr⟩ := Option.bind_eq_some_iff.mp hr
    refine ih ?_ hr
    cases m with
    | swap =>
      cases hd
      exact swap h
    | act a =>
      obtain ⟨x,hx,rfl⟩ := Option.map_eq_some_iff.mp hd
      exact acts h hx
    | deliver i e =>
      obtain ⟨p,hp,hd⟩ := Option.bind_eq_some_iff.mp hd
      obtain ⟨x,hx,rfl⟩ := Option.map_eq_some_iff.mp hd
      exact takes h (List.mem_of_getElem? hp) hx

end Exchange
end Phantom
