import Mathlib.Tactic.Common

/-! Programs over a state whose assertions may fail, and what they need so that none does. -/
namespace Phantom

/-- A program is stopped by the first assertion that fails. -/
abbrev Checked (σ α : Type) := StateT σ Option α

namespace Checked

variable {σ α β : Type}

def check (c : σ → Bool) : Checked σ Unit := fun s ↦ if c s then some ((),s) else none

/-- From `s` no assertion fails, and the result and the state after it meet `Q`. -/
def wp (p : Checked σ α) (Q : α → σ → Prop) (s : σ) : Prop := ∃ a t, p s=some (a,t) ∧ Q a t

/-- From `s` no assertion fails. -/
def Passes (p : Checked σ α) (s : σ) : Prop := wp p (fun _ _ ↦ True) s

/-- From the states of `I` no assertion fails, and `I` holds of the state after it. -/
def Keeps (I : σ → Prop) (p : Checked σ α) : Prop := ∀ s, I s → wp p (fun _ t ↦ I t) s

variable {p : Checked σ α} {f : α → Checked σ β} {Q R : α → σ → Prop} {s : σ} {I : σ → Prop}

@[simp] lemma wp_pure (a : α) (Q : α → σ → Prop) (s : σ) : wp (pure a) Q s ↔ Q a s := by
  constructor
  · rintro ⟨a',t,he,hQ⟩
    cases he
    exact hQ
  · exact fun h ↦ ⟨a,s,rfl,h⟩

@[simp] lemma wp_bind (p : Checked σ α) (f : α → Checked σ β) (Q : β → σ → Prop) (s : σ) :
    wp (p >>= f) Q s ↔ wp p (fun a ↦ wp (f a) Q) s := by
  change (∃ b t, (p s).bind (fun x ↦ f x.1 x.2)=some (b,t) ∧ Q b t) ↔
    ∃ a t, p s=some (a,t) ∧ ∃ b u, f a t=some (b,u) ∧ Q b u
  cases hp : p s with
  | none =>
    constructor
    · rintro ⟨b,t,he,-⟩
      cases he
    · rintro ⟨a,t,he,-⟩
      cases he
  | some x =>
    obtain ⟨a,t⟩ := x
    constructor
    · rintro ⟨b,u,he,hQ⟩
      exact ⟨a,t,rfl,b,u,he,hQ⟩
    · rintro ⟨a',t',he,b,u,he',hQ⟩
      cases he
      exact ⟨b,u,he',hQ⟩

@[simp] lemma wp_check (c : σ → Bool) (Q : Unit → σ → Prop) (s : σ) :
    wp (check c) Q s ↔ c s=true ∧ Q () s := by
  unfold wp check
  by_cases hc : c s=true
  · rw [if_pos hc]
    constructor
    · rintro ⟨a,t,he,hQ⟩
      cases he
      exact ⟨hc,hQ⟩
    · exact fun h ↦ ⟨(),s,rfl,h.2⟩
  · rw [if_neg hc]
    constructor
    · rintro ⟨a,t,he,-⟩
      cases he
    · exact fun h ↦ absurd h.1 hc

@[simp] lemma wp_modify (g : σ → σ) (Q : Unit → σ → Prop) (s : σ) :
    wp (modify g) Q s ↔ Q () (g s) := by
  constructor
  · rintro ⟨a,t,he,hQ⟩
    cases he
    exact hQ
  · exact fun h ↦ ⟨(),g s,rfl,h⟩

lemma wp_mono (h : wp p Q s) (hQR : ∀ a t, Q a t → R a t) : wp p R s := by
  obtain ⟨a,t,he,hQ⟩ := h
  exact ⟨a,t,he,hQR a t hQ⟩

@[simp] lemma wp_ite {c : Prop} [Decidable c] (p q : Checked σ α) (Q : α → σ → Prop) (s : σ) :
    wp (if c then p else q) Q s ↔ if c then wp p Q s else wp q Q s := by
  split_ifs <;> rfl

@[simp] lemma wp_map (g : α → β) (p : Checked σ α) (Q : β → σ → Prop) (s : σ) :
    wp (g <$> p) Q s ↔ wp p (fun a ↦ Q (g a)) s := by
  have h : g <$> p=p >>= fun a ↦ pure (g a) := map_eq_pure_bind g p
  rw [h,wp_bind]
  constructor
  · exact fun h ↦ wp_mono h fun a t ↦ (wp_pure _ _ _).mp
  · exact fun h ↦ wp_mono h fun a t ↦ (wp_pure _ _ _).mpr

lemma wp_of_eq {a : α} {t : σ} (h : p s=some (a,t)) : wp p Q s ↔ Q a t := by
  constructor
  · rintro ⟨a',t',he,hQ⟩
    rw [h] at he
    cases he
    exact hQ
  · exact fun hQ ↦ ⟨a,t,h,hQ⟩

lemma Keeps.pure (I : σ → Prop) (a : α) : Keeps I (Pure.pure a : Checked σ α) :=
  fun _ h ↦ (wp_pure _ _ _).mpr h

lemma Keeps.bind (hp : Keeps I p) (hf : ∀ a, Keeps I (f a)) : Keeps I (p >>= f) :=
  fun s h ↦ (wp_bind _ _ _ _).mpr (wp_mono (hp s h) fun a t ht ↦ hf a t ht)

lemma Keeps.ite {c : Prop} [Decidable c] {q : Checked σ α} (hp : Keeps I p) (hq : Keeps I q) :
    Keeps I (if c then p else q) := by
  split_ifs
  · exact hp
  · exact hq

lemma Keeps.forM {g : β → Checked σ Unit} {l : List β} (hg : ∀ b, Keeps I (g b)) :
    Keeps I (l.forM g) := by
  induction l with
  | nil => exact Keeps.pure I _
  | cons b l ih => exact Keeps.bind (hg b) fun _ ↦ ih

lemma Passes.of_bind (h : Passes (p >>= f) s) : Passes p s :=
  wp_mono ((wp_bind _ _ _ _).mp h) fun _ _ _ ↦ trivial

lemma Keeps.passes (h : Keeps I p) (hs : I s) : Passes p s := wp_mono (h s hs) fun _ _ _ ↦ trivial

end Checked

end Phantom
