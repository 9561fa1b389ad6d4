import Mathlib.Data.List.Induction
import Mathlib.Tactic.Common

/-! Laws that hold at every step of a run exactly if every step meets a condition on the state before
it. -/
namespace Phantom

variable {σ α : Type*} (step : σ → α → σ) {s : σ} {as : List α}

/-- An invariant of the steps holds after every run. -/
lemma foldl_inv {Inv : σ → Prop} (h : Inv s) (hstep : ∀ s, ∀ a ∈ as, Inv s → Inv (step s a)) :
    Inv (as.foldl step s) := by
  induction as generalizing s with
  | nil => exact h
  | cons a as ih =>
    exact ih (hstep s a List.mem_cons_self h) fun s b hb ↦ hstep s b (List.mem_cons_of_mem a hb)

/-- A law of the steps that leaves the states good, and a condition that is equivalent to it in good
states. -/
theorem foldl_law_iff (Law : σ → α → Prop) {Inv Good : σ → Prop} {Cond : σ → α → Prop}
    (hinv : Inv s) (hgood : Good s) (hstep : ∀ s, ∀ a ∈ as, Inv s → Inv (step s a))
    (hlaw : ∀ s a, Law s a → Good (step s a))
    (hiff : ∀ s, ∀ a ∈ as, Inv s → Good s → (Law s a ↔ Cond s a)) :
    (∀ done a rest, as=done++a::rest → Law (done.foldl step s) a) ↔
    ∀ done a rest, as=done++a::rest → Cond (done.foldl step s) a := by
  have hall : ∀ done rest, as=done++rest → Inv (done.foldl step s) := by
    rintro done rest rfl
    exact foldl_inv step hinv fun s a ha ↦ hstep s a (List.mem_append_left rest ha)
  have hlast : ∀ done a, (done++[a]).foldl step s=step (done.foldl step s) a := by
    intro done a
    rw [List.foldl_append]
    rfl
  have hmem : ∀ {done a rest}, as=done++a::rest → a ∈ as := by
    rintro done a rest rfl
    simp
  constructor
  · intro h done a rest heq
    refine (hiff _ a (hmem heq) (hall _ _ heq) ?_).mp (h done a rest heq)
    cases done using List.reverseRecOn with
    | nil => exact hgood
    | append_singleton done b =>
      rw [hlast]
      exact hlaw _ b (h done b (a::rest) (by simp [heq]))
  · intro h
    have hgoods : ∀ done rest, as=done++rest → Good (done.foldl step s) := by
      intro done
      induction done using List.reverseRecOn with
      | nil => exact fun _ _ ↦ hgood
      | append_singleton done b ih =>
        intro rest heq
        have heq' : as=done++b::rest := by simp [heq]
        rw [hlast]
        exact hlaw _ b ((hiff _ b (hmem heq') (hall _ _ heq') (ih _ heq')).mpr (h done b rest heq'))
    intro done a rest heq
    exact (hiff _ a (hmem heq) (hall _ _ heq) (hgoods done _ heq)).mpr (h done a rest heq)

end Phantom
