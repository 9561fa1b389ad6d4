import Phantom.Tcp.Tuning

/-! The round-trip estimate of a connection over the samples since it was last reset. -/
namespace Phantom
namespace Tcp
namespace Endpoint

variable {t : Endpoint} {m n r : ℕ}

/-- The sample that a call of `_tcp_updateRTTEstimate` measures. -/
def rttSample (t : Endpoint) (timestamp : ℕ) : ℕ := max 1 ((t.now-timestamp)/oneMillisecond)

/-- The estimate alone: the smoothed value and the variance. -/
def estimate (t : Endpoint) : ℕ × ℕ := (t.rttSmoothed,t.rttVariance)

lemma estimate_tuneInitialBufferSizes : t.tuneInitialBufferSizes.estimate=t.estimate :=
  tuned_tuneInitialBufferSizes.view fun _ _ _ _ ↦ rfl

lemma estimate_setRetransmitTimeout (n : ℕ) : (t.setRetransmitTimeout n).estimate=t.estimate := rfl

lemma estimate_first (h : t.rttSmoothed=0) (timestamp : ℕ) :
    (t.updateRTTEstimate timestamp).estimate=
      (t.rttSample timestamp,t.rttSample timestamp/2) := by
  unfold updateRTTEstimate
  dsimp only
  rw [estimate_setRetransmitTimeout,if_pos h]
  split_ifs
  · rw [estimate_tuneInitialBufferSizes]
    rfl
  · rfl

lemma estimate_next (h : t.rttSmoothed ≠ 0) (timestamp : ℕ) :
    (t.updateRTTEstimate timestamp).estimate=
      (7*t.rttSmoothed/8+t.rttSample timestamp/8,
        3*t.rttVariance/4+((t.rttSmoothed : ℤ)-t.rttSample timestamp).natAbs/4) := by
  unfold updateRTTEstimate
  dsimp only
  rw [estimate_setRetransmitTimeout,if_neg h]
  rfl

lemma timeout_updateRTTEstimate (t : Endpoint) (timestamp : ℕ) :
    rtoMin ≤ (t.updateRTTEstimate timestamp).retransmit.timeout ∧
      (t.updateRTTEstimate timestamp).retransmit.timeout ≤ rtoMax := by
  constructor
  · exact le_max_right _ _
  · exact max_le (min_le_right _ _) (by decide)

/-- A call of `_tcp_updateRTTEstimate`: the connection that it finds and the timestamp of its
packet. -/
structure Call where
  socket : Endpoint
  timestamp : ℕ

def Call.sample (c : Call) : ℕ := c.socket.rttSample c.timestamp

def Call.after (c : Call) : Endpoint := c.socket.updateRTTEstimate c.timestamp

/-- The calls since a reset. What happens in between leaves the estimate alone. -/
structure Calls (calls : List Call) : Prop where
  reset : ∀ c ∈ calls.head?, c.socket.rttSmoothed=0
  between : calls.IsChain fun c c' ↦ c'.socket.estimate=c.after.estimate

def samples (calls : List Call) : List ℕ := calls.map Call.sample

/-- The estimate lies between the least and the largest sample, its variance is not negative (the
sum that makes the timeout stays in the range of a `gint`), and the timeout is in range. -/
structure Sound (samples : List ℕ) (t : Endpoint) : Prop where
  lower : ∃ m ∈ samples, m ≤ t.rttSmoothed
  upper : ∃ m ∈ samples, t.rttSmoothed ≤ m
  variance : t.rttSmoothed+4*t.rttVariance<2^31
  timeout : rtoMin ≤ t.retransmit.timeout ∧ t.retransmit.timeout ≤ rtoMax

/-- The average has come down to the least sample, which is no multiple of eight, and the next sample
has no more eighths than it. -/
def Slips (samples : List ℕ) (smoothed r : ℕ) : Prop :=
  (∀ m ∈ samples, smoothed ≤ m) ∧ smoothed%8 ≠ 0 ∧ r/8=smoothed/8

/-- What the truncation cannot break. -/
structure Bounded (samples : List ℕ) (t : Endpoint) : Prop where
  upper : ∃ m ∈ samples, t.rttSmoothed ≤ m
  variance : t.rttVariance ≤ rtoMax

variable {c : Call} {calls done rest : List Call} {rs : List ℕ}

lemma one_le_sample (c : Call) : 1 ≤ c.sample := le_max_left _ _

lemma samples_append (calls : List Call) (c : Call) :
    samples (calls++[c])=samples calls++[c.sample] := by
  rw [samples,List.map_append]
  rfl

lemma smoothed_of_estimate {s v : ℕ} (h : t.estimate=(s,v)) : t.rttSmoothed=s ∧ t.rttVariance=v :=
  Prod.mk.inj h

lemma Calls.left (h : Calls (calls++rest)) : Calls calls := by
  refine ⟨?_,(List.isChain_append.mp h.between).1⟩
  cases calls with
  | nil => exact fun c hc ↦ by cases hc
  | cons d calls => exact h.reset

lemma Calls.link {c' : Call} (h : Calls (calls++[c']++[c])) :
    c.socket.estimate=c'.after.estimate :=
  (List.isChain_append.mp h.between).2.2 c' (by simp) c rfl

lemma Bounded.sample (hr : c.sample ≤ rtoMax) (hrs : ∀ m ∈ rs, m ≤ rtoMax)
    (h : c.socket.rttSmoothed ≠ 0 → Bounded rs c.socket) : Bounded (rs++[c.sample]) c.after := by
  by_cases hzero : c.socket.rttSmoothed=0
  case pos =>
    obtain ⟨hs,hv⟩ := smoothed_of_estimate (estimate_first hzero c.timestamp)
    exact ⟨⟨c.sample,by simp,hs.le⟩,hv.le.trans ((Nat.div_le_self _ _).trans hr)⟩
  obtain ⟨⟨m,hm,hle⟩,hvar⟩ := h hzero
  obtain ⟨hs,hv⟩ := smoothed_of_estimate (estimate_next hzero c.timestamp)
  have hm' := hrs m hm
  change c.after.rttSmoothed=7*c.socket.rttSmoothed/8+c.sample/8 at hs
  change c.after.rttVariance=
    3*c.socket.rttVariance/4+((c.socket.rttSmoothed : ℤ)-c.sample).natAbs/4 at hv
  constructor
  · -- a weighted mean is at most the larger of its two terms
    rcases le_total m c.sample with hlt | hlt
    · exact ⟨c.sample,by simp,by omega⟩
    · exact ⟨m,by simp [hm],by omega⟩
  · rw [hv]
    omega

/-- All calls keep the bounds: induction on those before. -/
lemma bounded_after (h : Calls (done++[c])) (hle : ∀ r ∈ samples (done++[c]), r ≤ rtoMax) :
    Bounded (samples (done++[c])) c.after := by
  induction done using List.reverseRecOn generalizing c with
  | nil =>
    have hzero := h.reset c rfl
    have hnone : ∀ m ∈ ([] : List ℕ), m ≤ rtoMax := by simp
    exact Bounded.sample (hle _ (by simp [samples])) hnone fun hne ↦ absurd hzero hne
  | append_singleton done c' ih =>
    rw [samples_append] at hle ⊢
    rw [List.forall_mem_append] at hle
    refine Bounded.sample (hle.2 _ (by simp)) hle.1 fun _ ↦ ?_
    have hprev := ih h.left hle.1
    have heq := h.link
    obtain ⟨hs,hv⟩ := Prod.mk.inj heq
    exact ⟨hs ▸ hprev.upper,hv ▸ hprev.variance⟩

lemma Bounded.sound_iff (h : Bounded (samples calls) c.after)
    (hle : ∀ r ∈ samples calls, r ≤ rtoMax) :
    Sound (samples calls) c.after ↔ ∃ m ∈ samples calls, m ≤ c.after.rttSmoothed := by
  refine ⟨fun h ↦ h.lower,fun hlower ↦ ⟨hlower,h.upper,?_,timeout_updateRTTEstimate _ _⟩⟩
  obtain ⟨m,hm,hs⟩ := h.upper
  have := hle m hm
  have := h.variance
  simp only [rtoMax] at *
  omega

/-- The step lemma: a later sample keeps the lower bound exactly if the average does not slip. -/
lemma lower_iff_not_slips (hne : c.socket.rttSmoothed ≠ 0)
    (hlower : ∃ m ∈ rs, m ≤ c.socket.rttSmoothed) :
    (∃ m ∈ rs++[c.sample], m ≤ c.after.rttSmoothed) ↔
      ¬Slips (rs++[c.sample]) c.socket.rttSmoothed c.sample := by
  obtain ⟨hs,-⟩ := smoothed_of_estimate (estimate_next hne c.timestamp)
  change c.after.rttSmoothed=7*c.socket.rttSmoothed/8+c.sample/8 at hs
  generalize c.after.rttSmoothed=s' at hs ⊢
  generalize c.socket.rttSmoothed=s at hlower hs ⊢
  generalize c.sample=r at hs ⊢
  obtain ⟨m₀,hm₀,hle₀⟩ := hlower
  constructor
  · rintro ⟨m,hm,hle⟩ ⟨hleast,hmod,hdiv⟩
    have := hleast m hm
    omega
  intro hslips
  by_cases hr : r<s
  · exact ⟨r,by simp,by omega⟩
  by_cases hleast : ∀ m ∈ rs++[r], s ≤ m
  · -- the average is the least sample: its rest, or an eighth more, makes up for what is cut off
    have hkeeps : s%8=0 ∨ r/8 ≠ s/8 := by
      by_contra hnot
      rw [not_or,not_not] at hnot
      exact hslips ⟨hleast,hnot.1,hnot.2⟩
    exact ⟨m₀,List.mem_append_left _ hm₀,by omega⟩
  · simp only [not_forall] at hleast
    obtain ⟨m,hm,hlt⟩ := hleast
    exact ⟨m,hm,by omega⟩

lemma Calls.lower_before {c' : Call} (h : Calls (done++[c']++[c]))
    (hlower : ∃ m ∈ samples (done++[c']), m ≤ c'.after.rttSmoothed) :
    ∃ m ∈ samples (done++[c']), m ≤ c.socket.rttSmoothed := by
  rw [(Prod.mk.inj h.link).1]
  exact hlower

/-- The estimate that a call finds is not the value of a connection without a measurement, if the
call before it left a sound one. -/
lemma Calls.smoothed_ne {c' : Call} (h : Calls (done++[c']++[c]))
    (hlower : ∃ m ∈ samples (done++[c']), m ≤ c'.after.rttSmoothed) :
    c.socket.rttSmoothed ≠ 0 := by
  obtain ⟨m,hm,hle⟩ := h.lower_before hlower
  obtain ⟨d,-,rfl⟩ := List.mem_map.mp hm
  have := one_le_sample d
  omega

/-- Over the calls since a reset, the estimate is sound after every one of them exactly if the average
slips at no later call. -/
theorem sound_iff_not_slips (h : Calls calls) (hle : ∀ r ∈ samples calls, r ≤ rtoMax) :
    (∀ done c rest, calls=done++c::rest → Sound (samples (done++[c])) c.after) ↔
    ∀ done c rest, calls=done++c::rest → done ≠ [] →
      ¬Slips (samples (done++[c])) c.socket.rttSmoothed c.sample := by
  have hleft : ∀ {done c rest}, calls=done++c::rest → Calls (done++[c]) ∧
      ∀ r ∈ samples (done++[c]), r ≤ rtoMax := by
    rintro done c rest rfl
    have heq : done++c::rest=(done++[c])++rest := by simp
    rw [heq] at h hle
    refine ⟨h.left,fun r hr ↦ hle r ?_⟩
    rw [samples,List.map_append]
    exact List.mem_append_left _ hr
  have hsound : ∀ {done c rest}, calls=done++c::rest →
      (Sound (samples (done++[c])) c.after ↔
        ∃ m ∈ samples (done++[c]), m ≤ c.after.rttSmoothed) := fun heq ↦
    (bounded_after (hleft heq).1 (hleft heq).2).sound_iff (hleft heq).2
  constructor
  · intro hall done c rest heq hne
    cases done using List.reverseRecOn with
    | nil => exact absurd rfl hne
    | append_singleton done c' =>
      have hprev := (hall done c' (c::rest) (by simp [heq])).lower
      have hzero := (hleft heq).1.smoothed_ne hprev
      have hlower := (hall _ c rest heq).lower
      rw [samples_append] at hlower ⊢
      exact (lower_iff_not_slips hzero ((hleft heq).1.lower_before hprev)).mp hlower
  · intro hall done
    induction done using List.reverseRecOn with
    | nil =>
      intro c rest heq
      rw [hsound heq]
      have hzero := (hleft heq).1.reset c rfl
      exact ⟨c.sample,by simp [samples],
        (smoothed_of_estimate (estimate_first hzero c.timestamp)).1.ge⟩
    | append_singleton done c' ih =>
      intro c rest heq
      have hprev := (ih c' (c::rest) (by simp [heq])).lower
      have hzero := (hleft heq).1.smoothed_ne hprev
      have hkeeps := hall _ c rest heq (by simp)
      rw [hsound heq]
      rw [samples_append] at hkeeps ⊢
      exact (lower_iff_not_slips hzero ((hleft heq).1.lower_before hprev)).mpr hkeeps

/-- A connection without a measurement at a time in milliseconds. -/
def unmeasured (time : ℕ) : Endpoint :=
  {new ⟨false,false,false,0,0,fun _ ↦ 0,fun _ ↦ 0⟩ 0 0 with now := time*oneMillisecond}

/-- Two calls that measure the same sample. -/
def twice (time : ℕ) : List Call :=
  [⟨unmeasured time,0⟩,⟨(unmeasured time).updateRTTEstimate 0,0⟩]

lemma calls_twice (time : ℕ) : Calls (twice time) := by
  constructor
  · rintro c ⟨⟩
    rfl
  · simp [twice,Call.after]

/-- Two samples of eighty milliseconds. -/
theorem sound_eighty :
    Sound [80,80] (((unmeasured 80).updateRTTEstimate 0).updateRTTEstimate 0) := by
  refine (sound_iff_not_slips (calls_twice 80) (by decide)).mpr ?_ [⟨unmeasured 80,0⟩] _ [] rfl
  intro done c rest heq hne
  rcases done with _ | ⟨a,_ | ⟨b,done⟩⟩ <;> simp [twice] at heq
  · exact absurd rfl hne
  · obtain ⟨rfl,rfl,-⟩ := heq
    exact fun hslips ↦ hslips.2.1 (by decide)

/-- Two samples of one millisecond leave an estimate of zero. -/
theorem unsound_one : Calls (twice 1) ∧ (∀ r ∈ samples (twice 1), r ≤ rtoMax) ∧
    ¬∀ done c rest, twice 1=done++c::rest → Sound (samples (done++[c])) c.after := by
  refine ⟨calls_twice 1,by decide,fun h ↦ ?_⟩
  obtain ⟨m,hm,hle⟩ := (h [⟨unmeasured 1,0⟩] _ [] rfl).lower
  have hsamples : m ∈ [1,1] := hm
  have hzero : m ≤ 0 := hle
  simp at hsamples
  omega

end Endpoint
end Tcp
end Phantom
