import Mathlib.Data.Nat.Basic
import Mathlib.Tactic.Common

/-! The fill level of a buffer whose size can be changed at any time: a size below the level is
kept pending while the buffer drains. -/
namespace Phantom

structure Resizable where
  length : ℕ
  size : ℕ
  pending : ℕ

namespace Resizable

/-- The size that limits what is added. -/
def inForce (b : Resizable) : ℕ := if 0<b.pending then b.pending else b.size

def resize (b : Resizable) (n : ℕ) : Resizable :=
  if b.length ≤ n then ⟨b.length,n,0⟩ else ⟨b.length,b.length,n⟩

def Fits (b : Resizable) (k : ℕ) : Prop := k ≤ b.inForce-b.length

def add (b : Resizable) (k : ℕ) : Resizable := {b with length := b.length+k}

/-- What is removed makes room for a pending size. -/
def remove (b : Resizable) (k : ℕ) : Resizable :=
  if 0<b.pending then resize {b with length := b.length-k} b.pending
  else {b with length := b.length-k}

/-- A buffer that was last given the size `n`: while it holds more, its size is what it holds and
`n` is pending, and after that its size is `n`. -/
structure Sized (n : ℕ) (b : Resizable) : Prop where
  size : b.size=max n b.length
  applied : b.length ≤ n → b.pending=0
  draining : n<b.length → b.pending=n

variable {b : Resizable} {n k : ℕ}

lemma Sized.length_le (h : Sized n b) : b.length ≤ b.size := by
  rw [h.size]
  exact le_max_right n b.length

lemma Sized.inForce (h : Sized n b) (hpos : 0<n) : b.inForce=n := by
  unfold Resizable.inForce
  rcases Nat.lt_or_ge n b.length with hlt | hle
  · rw [h.draining hlt,if_pos hpos]
  · rw [h.applied hle,if_neg (lt_irrefl 0),h.size,max_eq_left hle]

lemma sized_resize (b : Resizable) (n : ℕ) : Sized n (b.resize n) := by
  unfold resize
  split_ifs with hle
  · exact ⟨(max_eq_left hle).symm,fun _ ↦ rfl,fun hlt ↦ absurd hle (not_le.mpr hlt)⟩
  · exact ⟨(max_eq_right (Nat.le_of_not_ge hle)).symm,fun hle' ↦ absurd hle' hle,fun _ ↦ rfl⟩

lemma Sized.add (h : Sized n b) (hpos : 0<n) (hfits : b.Fits k) : Sized n (b.add k) := by
  have hle : k ≤ n-b.length := by
    rw [← h.inForce hpos]
    exact hfits
  have hsize := h.size
  constructor
  · change b.size=max n (b.length+k)
    omega
  · intro hadd
    exact h.applied (Nat.le_trans (Nat.le_add_right _ _) hadd)
  · intro hadd
    change n<b.length+k at hadd
    exact h.draining (by omega)

lemma Sized.remove (h : Sized n b) (hpos : 0<n) : Sized n (b.remove k) := by
  unfold Resizable.remove
  rcases Nat.lt_or_ge n b.length with hlt | hle
  · rw [h.draining hlt,if_pos hpos]
    exact sized_resize _ n
  · have hpending : ¬0<b.pending := by rw [h.applied hle]; exact lt_irrefl 0
    rw [if_neg hpending]
    have hsize := h.size
    have hless : b.length-k ≤ n := Nat.le_trans (Nat.sub_le _ _) hle
    refine ⟨?_,fun _ ↦ h.applied hle,fun hlt ↦ absurd hless (not_le.mpr hlt)⟩
    rw [max_eq_left hless,hsize,max_eq_left hle]

end Resizable
end Phantom
