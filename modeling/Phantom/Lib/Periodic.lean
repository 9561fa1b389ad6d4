import Mathlib.Tactic.Common
import Mathlib.Tactic.Ring

/-! Schedules that begin at an instant and repeat after a period; a period of 0 means that they do not
repeat. -/
namespace Phantom

structure Periodic where
  first : ℕ
  period : ℕ
  deriving DecidableEq, Repr

namespace Periodic

variable {p : Periodic} {k t : ℕ}

/-- The instant that `k` others come before. -/
def instant (p : Periodic) (k : ℕ) : ℕ := p.first+k*p.period

/-- The number of instants up to a time. -/
def countUpTo (p : Periodic) (t : ℕ) : ℕ :=
  if t<p.first then 0 else if p.period=0 then 1 else (t-p.first)/p.period+1

@[simp] lemma instant_zero : p.instant 0=p.first := by simp [instant]

lemma instant_succ : p.instant (k+1)=p.instant k+p.period := by
  unfold instant
  ring

lemma instant_le_iff (hp : 0<p.period) : p.instant k ≤ t ↔ k<p.countUpTo t := by
  unfold instant countUpTo
  split_ifs with hlt hzero
  · exact iff_of_false (by omega) (Nat.not_lt_zero k)
  · omega
  · rw [Nat.lt_succ_iff,Nat.le_div_iff_mul_le hp]
    omega

lemma countUpTo_of_lt (h : t<p.first) : p.countUpTo t=0 := if_pos h

lemma countUpTo_once (hp : p.period=0) (h : p.first ≤ t) : p.countUpTo t=1 := by
  unfold countUpTo
  rw [if_neg (Nat.not_lt.mpr h),if_pos hp]

lemma countUpTo_of_between (hk : k=0 ∨ 0<p.period) (hpast : ∀ j<k, p.instant j ≤ t)
    (hnext : t<p.instant k) : p.countUpTo t=k := by
  cases k with
  | zero =>
    rw [instant_zero] at hnext
    exact countUpTo_of_lt hnext
  | succ j =>
    have hp := hk.resolve_left (Nat.succ_ne_zero j)
    have hlow := (instant_le_iff hp).mp (hpast j (Nat.lt_succ_self j))
    have hhigh := (instant_le_iff hp).not.mp (Nat.not_le.mpr hnext)
    omega

/-- What runs after this schedule has passed `k` instants: at `next` it passes the next one and then goes
on after `interval`, or it has passed the only instant and `next` is 0. -/
def Follows (p : Periodic) (next interval k now : ℕ) : Prop :=
  interval=p.period ∧
    (0<next ∧ next=p.instant k ∧ (k=0 ∨ 0<p.period) ∧ (∀ j<k, p.instant j ≤ now) ∨
      next=0 ∧ p.period=0 ∧ k=1 ∧ p.first ≤ now)

namespace Follows

variable {next interval now : ℕ}

lemma start (h : 0<p.first) : Follows p p.first p.period 0 now :=
  ⟨rfl,.inl ⟨h,instant_zero.symm,.inl rfl,by simp⟩⟩

lemma later (h : Follows p next interval k now) (hle : now ≤ t) :
    Follows p next interval k t := by
  obtain ⟨hint,⟨hpos,hnext,hk,hpast⟩ | ⟨hzero,hperiod,hk,hfirst⟩⟩ := h
  · exact ⟨hint,.inl ⟨hpos,hnext,hk,fun j hj ↦ (hpast j hj).trans hle⟩⟩
  · exact ⟨hint,.inr ⟨hzero,hperiod,hk,hfirst.trans hle⟩⟩

lemma once (h : Follows p next 0 k now) (hpos : 0<next) (hle : next ≤ t) :
    Follows p 0 0 (k+1) t := by
  obtain ⟨hint,⟨-,hnext,hk,-⟩ | ⟨hzero,-⟩⟩ := h
  · obtain rfl : k=0 := by omega
    rw [instant_zero] at hnext
    exact ⟨hint,.inr ⟨rfl,hint.symm,rfl,hnext ▸ hle⟩⟩
  · omega

lemma again (h : Follows p next interval k now) (hpos : 0<next) (hnow : now ≤ t)
    (hle : next ≤ t) (hinterval : 0 < interval) :
    Follows p (next+interval) interval (k+1) t := by
  obtain ⟨rfl,⟨-,hnext,hk,hpast⟩ | ⟨hzero,-⟩⟩ := h
  · refine ⟨rfl,.inl ⟨by omega,by rw [hnext,instant_succ],.inr hinterval,fun j hj ↦ ?_⟩⟩
    obtain hj | rfl := Nat.lt_succ_iff_lt_or_eq.mp hj
    · exact (hpast j hj).trans hnow
    · exact hnext ▸ hle
  · omega

lemma countUpTo_eq (h : Follows p next interval k now) (hle : now ≤ t)
    (hlt : 0<next → t<next) : p.countUpTo t=k := by
  obtain ⟨-,⟨hpos,hnext,hk,hpast⟩ | ⟨-,hperiod,rfl,hfirst⟩⟩ := h
  · exact countUpTo_of_between hk (fun j hj ↦ (hpast j hj).trans hle) (hnext ▸ hlt hpos)
  · exact countUpTo_once hperiod (hfirst.trans hle)

end Follows

end Periodic

end Phantom
