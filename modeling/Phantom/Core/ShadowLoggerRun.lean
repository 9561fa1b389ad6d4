import Phantom.Core.ShadowLogger

/-! What holds in every state of the logger: the text of the records goes to stdout in the order of the
queue, and which of it has reached stdout when a synchronous flush returns. -/
namespace Phantom

section

variable {τ : Type}

@[simp] lemma textOf_append (rs qs : List (τ × ShadowLogRecord)) : textOf (rs++qs)=textOf rs++textOf qs := by
  simp [textOf]

lemma textOf_mono {rs qs : List (τ × ShadowLogRecord)} (h : rs <+: qs) : textOf rs <+: textOf qs := by
  obtain ⟨back,rfl⟩ := h
  rw [textOf_append]
  exact List.prefix_append _ _

lemma textOf_singleton (r : τ × ShadowLogRecord) : textOf [r]=r.2.pieces.flatten := by
  simp [textOf,ShadowLogRecord.text]

end

/-- A `BufWriter` keeps the order of what it is given. -/
lemma bufWrite_append (buffer piece : Bytes) : (bufWrite buffer piece).2++(bufWrite buffer piece).1=buffer++piece := by
  simp only [bufWrite]
  split_ifs with hlarge hspill hspill
  · simp
  · have hempty : buffer=[] := List.length_eq_zero_iff.mp (by omega)
    simp [hempty]
  · simp
  · simp

lemma holds_append (buffer : Bytes) (ps qs : List Bytes) :
    holds buffer (ps++qs)=holds (holds buffer ps) qs := List.foldl_append

lemma length_holds_le (buffer : Bytes) (pieces : List Bytes) :
    (holds buffer pieces).length ≤ buffer.length+pieces.flatten.length := by
  induction pieces generalizing buffer with
  | nil => exact Nat.le_add_right _ _
  | cons piece pieces ih =>
    have hwrite := congrArg List.length (bufWrite_append buffer piece)
    rw [List.length_append,List.length_append] at hwrite
    have hrest := ih (bufWrite buffer piece).1
    rw [List.flatten_cons,List.length_append]
    change (holds (bufWrite buffer piece).1 pieces).length ≤ _
    omega

/-- What fits in the capacity stays in a buffer that is not empty. -/
lemma holds_of_fits {buffer : Bytes} {pieces : List Bytes} (hne : buffer ≠ [])
    (hfits : buffer.length+pieces.flatten.length ≤ bufWriterCapacity) :
    holds buffer pieces=buffer++pieces.flatten := by
  induction pieces generalizing buffer with
  | nil => exact (List.append_nil _).symm
  | cons piece pieces ih =>
    have hpos := List.length_pos_iff.mpr hne
    rw [List.flatten_cons,List.length_append] at hfits
    have hwrite : (bufWrite buffer piece).1=buffer++piece := by
      simp only [bufWrite]
      rw [if_neg (by omega),if_neg (by omega)]
    change holds (bufWrite buffer piece).1 pieces=_
    rw [hwrite,ih (by simp [hne]) (by rw [List.length_append]; omega),List.flatten_cons,
      List.append_assoc]

/-- What does not fit leaves the buffer with some of the new pieces only. -/
lemma length_holds_of_spills {buffer : Bytes} {pieces : List Bytes}
    (hcapacity : buffer.length ≤ bufWriterCapacity)
    (hspills : buffer=[] ∨ bufWriterCapacity < buffer.length+pieces.flatten.length) :
    (holds buffer pieces).length ≤ pieces.flatten.length := by
  rcases hspills with rfl | hspills
  · simpa using length_holds_le [] pieces
  induction pieces generalizing buffer with
  | nil => exact absurd hspills (by simpa using hcapacity)
  | cons piece pieces ih =>
    have hrest := length_holds_le (bufWrite buffer piece).1 pieces
    rw [List.flatten_cons,List.length_append] at hspills ⊢
    change (holds (bufWrite buffer piece).1 pieces).length ≤ _
    by_cases hover : bufWriterCapacity < buffer.length+piece.length
    · have hkept : (bufWrite buffer piece).1.length ≤ piece.length := by
        simp only [bufWrite]
        rw [if_pos hover]
        split_ifs <;> simp
      omega
    by_cases hlarge : bufWriterCapacity ≤ piece.length
    · -- a large piece that fits goes past an empty buffer
      have hkept : (bufWrite buffer piece).1=buffer := by
        simp only [bufWrite]
        rw [if_neg hover,if_pos hlarge]
      rw [hkept] at hrest ⊢
      omega
    · have hkept : (bufWrite buffer piece).1=buffer++piece := by
        simp only [bufWrite]
        rw [if_neg hover,if_neg hlarge]
      have hlength : (buffer++piece).length=buffer.length+piece.length := List.length_append
      rw [hkept]
      rw [← hlength] at hover
      have := ih (Nat.le_of_not_lt hover) (by omega)
      omega

lemma length_holds_capacity {buffer : Bytes} (pieces : List Bytes)
    (hcapacity : buffer.length ≤ bufWriterCapacity) :
    (holds buffer pieces).length ≤ bufWriterCapacity := by
  induction pieces generalizing buffer with
  | nil => exact hcapacity
  | cons piece pieces ih =>
    apply ih
    simp only [bufWrite]
    split_ifs <;> simp only [List.length_nil,List.length_append] <;> omega

namespace LoggerPhase

variable {τ : Type}

/-- What the `BufWriter` holds. -/
def buffer : LoggerPhase τ → Bytes
  | flushing _ _ _ b => b
  | notified _ b => b
  | _ => []

/-- The pieces of the current record that are still to be written. -/
def pending : LoggerPhase τ → List Bytes
  | flushing _ p _ _ => p
  | _ => []

/-- The command in hand, up to its notification. -/
def inHand : LoggerPhase τ → List (Option τ)
  | received d => [d]
  | flushing _ _ d _ => [d]
  | _ => []

end LoggerPhase

namespace ShadowLogger

variable {τ : Type}

/-- The commands that are not answered yet. -/
def requests (s : ShadowLogger τ) : List (Option τ) := s.phase.inHand++s.commands

/-- The invariant. -/
structure Invariant [DecidableEq τ] (s : ShadowLogger τ) : Prop where
  /-- What was taken from the queue is on stdout, in the `BufWriter` or about to be written. -/
  written : ∃ popped, s.pushed=popped++s.records ∧
    s.stdout++(s.phase.buffer++s.phase.pending.flatten)=textOf popped
  /-- A synchronous flush is one of a thread that waits for its notification. -/
  requested : ∀ t, some t ∈ s.requests → (∃ retry, s.threads t=.waiting retry) ∧ s.done t=false
  single : ∀ t, s.requests.count (some t) ≤ 1
  /-- The snapshot covers the records of the thread that asked for the flush. -/
  covered : ∀ n p t b, s.phase=.flushing n p (some t) b → ∀ r ∈ s.records.drop n, r.1 ≠ t
  waits : ∀ t, s.done t=true → ∃ retry, s.threads t=.waiting retry
  taken : ∀ t, s.done t=true → ∀ r ∈ s.records, r.1 ≠ t
  reached : ∀ t, s.done t=true → (∀ b, s.phase ≠ .notified (some t) b) → s.LoggedBefore t

lemma split_front {front back rs qs : List (τ × ShadowLogRecord)} {t : τ} {r : ShadowLogRecord}
    (hsplit : front++back=rs++(t,r)::qs) (hback : ∀ q ∈ back, q.1 ≠ t) : ∃ ps, front=rs++(t,r)::ps := by
  rcases List.append_eq_append_iff.mp hsplit with ⟨ps,-,hq⟩ | ⟨ps,hfront,hps⟩
  · exact absurd rfl (hback (t,r) (by simp [hq]))
  · cases ps with
    | nil =>
      have hmem : (t,r) ∈ back := by
        rw [List.nil_append] at hps
        simp [← hps]
      exact absurd rfl (hback _ hmem)
    | cons x ps =>
      obtain ⟨rfl,-⟩ := List.cons.inj hps
      exact ⟨ps,hfront⟩

lemma LoggedBefore.mono {s s' : ShadowLogger τ} {t : τ} {qs : List (τ × ShadowLogRecord)}
    (h : s.LoggedBefore t) (hpushed : s'.pushed=s.pushed++qs) (hqs : ∀ r ∈ qs, r.1 ≠ t)
    (hout : s.stdout <+: s'.stdout) : s'.LoggedBefore t := by
  intro rs r rest hsplit
  obtain ⟨ps,hps⟩ := split_front (hpushed.symm.trans hsplit) hqs
  exact (h rs r ps hps).trans hout

variable [DecidableEq τ] {s s' : ShadowLogger τ}

lemma init_invariant (b : Bool) : (init b : ShadowLogger τ).Invariant where
  written := ⟨[],rfl,rfl⟩
  requested _ h := absurd h List.not_mem_nil
  single _ := Nat.zero_le 1
  covered _ _ _ _ h := nomatch h
  waits _ h := nomatch h
  taken _ h := nomatch h
  reached _ h := nomatch h

lemma Invariant.setThread (h : s.Invariant) {t : τ} (ht : ∀ retry, s.threads t ≠ .waiting retry)
    (x : LoggingThread) : (s.setThread t x).Invariant where
  written := h.written
  requested u hu := by
    obtain ⟨⟨retry,hw⟩,hdone⟩ := h.requested u hu
    have hne : u ≠ t := fun he ↦ ht retry (he ▸ hw)
    exact ⟨⟨retry,by simp [ShadowLogger.setThread,hne,hw]⟩,hdone⟩
  single := h.single
  covered := h.covered
  waits u hu := by
    obtain ⟨retry,hw⟩ := h.waits u hu
    have hne : u ≠ t := fun he ↦ ht retry (he ▸ hw)
    exact ⟨retry,by simp [ShadowLogger.setThread,hne,hw]⟩
  taken := h.taken
  reached := h.reached

lemma Invariant.queue (h : s.Invariant) {t : τ} (ht : ∀ retry, s.threads t ≠ .waiting retry)
    (r : ShadowLogRecord) : Invariant {s with records := s.records++[(t,r)],pushed := s.pushed++[(t,r)]} where
  written := by
    obtain ⟨popped,hpushed,htext⟩ := h.written
    exact ⟨popped,by rw [hpushed,List.append_assoc],htext⟩
  requested := h.requested
  single := h.single
  covered n p u b hphase q hq := by
    rw [List.drop_append] at hq
    rcases List.mem_append.mp hq with hq | hq
    · exact h.covered n p u b hphase q hq
    · change s.phase=_ at hphase
      have hrequest : some u ∈ s.requests := by
        rw [requests,hphase]
        exact List.mem_cons_self
      obtain ⟨⟨retry,hw⟩,-⟩ := h.requested u hrequest
      rintro rfl
      rw [List.mem_singleton.mp (List.mem_of_mem_drop hq)] at hw
      exact ht retry hw
  waits := h.waits
  taken u hu q hq := by
    rcases List.mem_append.mp hq with hq | hq
    · exact h.taken u hu q hq
    · obtain ⟨retry,hw⟩ := h.waits u hu
      rintro rfl
      rw [List.mem_singleton.mp hq] at hw
      exact ht retry hw
  reached u hu hphase := by
    refine (h.reached u hu hphase).mono rfl ?_ (List.prefix_refl _)
    intro q hq
    obtain ⟨retry,hw⟩ := h.waits u hu
    rintro rfl
    rw [List.mem_singleton.mp hq] at hw
    exact ht retry hw

lemma Invariant.sendAsync (h : s.Invariant) : Invariant {s with commands := s.commands++[none]} where
  written := h.written
  requested u hu := by
    refine h.requested u ?_
    have hu : some u ∈ s.phase.inHand++(s.commands++[none]) := hu
    simpa [requests] using hu
  single u := by
    have hcount : (s.phase.inHand++(s.commands++[none])).count (some u)=s.requests.count (some u) := by
      simp [requests,List.count_append]
    exact hcount ▸ h.single u
  covered := h.covered
  waits := h.waits
  taken := h.taken
  reached := h.reached

lemma Invariant.sendSync (h : s.Invariant) {t : τ} (ht : ∀ retry, s.threads t ≠ .waiting retry)
    (retry : Option ShadowLogRecord) :
    Invariant (ShadowLogger.setThread {s with
      commands := s.commands++[some t]
      done := Function.update s.done t false} t (.waiting retry)) := by
  have hnone : some t ∉ s.requests := by
    intro hmem
    obtain ⟨⟨retry',hw⟩,-⟩ := h.requested t hmem
    exact ht retry' hw
  have hdone : ∀ u, Function.update s.done t false u=true → u ≠ t ∧ s.done u=true := by
    intro u hu
    by_cases he : u=t
    · simp [he] at hu
    · exact ⟨he,by simpa [he] using hu⟩
  constructor
  · exact h.written
  · intro u hu
    have hu : some u ∈ s.phase.inHand++(s.commands++[some t]) := hu
    rw [← List.append_assoc] at hu
    rcases List.mem_append.mp hu with hold | hnew
    · obtain ⟨⟨retry',hw⟩,hd⟩ := h.requested u hold
      have hne : u ≠ t := fun he ↦ hnone (he ▸ hold)
      exact ⟨⟨retry',by simp [ShadowLogger.setThread,hne,hw]⟩,by simp [ShadowLogger.setThread,hne,hd]⟩
    · obtain rfl := Option.some.inj (List.mem_singleton.mp hnew)
      exact ⟨⟨retry,by simp [ShadowLogger.setThread]⟩,by simp [ShadowLogger.setThread]⟩
  · intro u
    change (s.phase.inHand++(s.commands++[some t])).count (some u) ≤ 1
    rw [← List.append_assoc,List.count_append]
    change s.requests.count (some u)+_ ≤ 1
    by_cases he : u=t
    · rw [he,List.count_eq_zero_of_not_mem hnone]
      simp
    · have := h.single u
      simpa [Ne.symm he] using this
  · exact h.covered
  · intro u hu
    obtain ⟨hne,hu⟩ := hdone u hu
    obtain ⟨retry',hw⟩ := h.waits u hu
    exact ⟨retry',by simp [ShadowLogger.setThread,hne,hw]⟩
  · intro u hu
    exact h.taken u (hdone u hu).2
  · intro u hu hphase
    exact h.reached u (hdone u hu).2 hphase

lemma Invariant.recv (h : s.Invariant) {t : τ} (hd : s.done t=true) (x : LoggingThread) :
    Invariant (ShadowLogger.setThread {s with done := Function.update s.done t false} t x) := by
  have hnone : some t ∉ s.requests := by
    intro hmem
    exact absurd (h.requested t hmem).2 (by simp [hd])
  have hdone : ∀ u, Function.update s.done t false u=true → u ≠ t ∧ s.done u=true := by
    intro u hu
    by_cases he : u=t
    · simp [he] at hu
    · exact ⟨he,by simpa [he] using hu⟩
  constructor
  · exact h.written
  · intro u hu
    obtain ⟨⟨retry,hw⟩,hdu⟩ := h.requested u hu
    have hne : u ≠ t := fun he ↦ hnone (he ▸ hu)
    exact ⟨⟨retry,by simp [ShadowLogger.setThread,hne,hw]⟩,by simp [ShadowLogger.setThread,hne,hdu]⟩
  · exact h.single
  · exact h.covered
  · intro u hu
    obtain ⟨hne,hu⟩ := hdone u hu
    obtain ⟨retry,hw⟩ := h.waits u hu
    exact ⟨retry,by simp [ShadowLogger.setThread,hne,hw]⟩
  · intro u hu
    exact h.taken u (hdone u hu).2
  · intro u hu hphase
    exact h.reached u (hdone u hu).2 hphase

/-- A step of the logger's thread before its notification: the command in hand and the channels stay. -/
lemma Invariant.advance (h : s.Invariant) (hold : ∀ d b, s.phase ≠ .notified d b)
    (hrequests : ∀ t, s'.requests.count (some t)=s.requests.count (some t))
    (hthreads : s'.threads=s.threads) (hdone : s'.done=s.done) (hpushed : s'.pushed=s.pushed)
    (hrecords : s'.records <:+ s.records) (hout : s.stdout <+: s'.stdout)
    (hwritten : ∃ popped, s'.pushed=popped++s'.records ∧
      s'.stdout++(s'.phase.buffer++s'.phase.pending.flatten)=textOf popped)
    (hcovered : ∀ n p t b, s'.phase=.flushing n p (some t) b → ∀ r ∈ s'.records.drop n, r.1 ≠ t) :
    s'.Invariant where
  written := hwritten
  requested t ht := by
    rw [hthreads,hdone]
    have hcount : 0 < s.requests.count (some t) := hrequests t ▸ List.count_pos_iff.mpr ht
    exact h.requested t (List.count_pos_iff.mp hcount)
  single t := hrequests t ▸ h.single t
  covered := hcovered
  waits t ht := by
    rw [hthreads]
    exact h.waits t (hdone ▸ ht)
  taken t ht r hr := h.taken t (hdone ▸ ht) r (hrecords.subset hr)
  reached t ht _ := by
    refine (h.reached t (hdone ▸ ht) fun b ↦ hold _ b).mono ?_ (fun _ hq ↦ absurd hq List.not_mem_nil) hout
    rw [hpushed,List.append_nil]

lemma Invariant.recvCommand (h : s.Invariant) (hs : s.recvCommand=some s') : s'.Invariant := by
  unfold ShadowLogger.recvCommand at hs
  split at hs
  · next c cs hphase hcommands =>
    obtain rfl := Option.some.inj hs
    refine h.advance (by simp [hphase]) ?_ rfl rfl rfl (List.suffix_refl _) (List.prefix_refl _) ?_ nofun
    · simp [requests,hphase,hcommands,LoggerPhase.inHand]
    · simpa [hphase,LoggerPhase.buffer,LoggerPhase.pending] using h.written
  · exact nomatch hs

lemma Invariant.timeout (h : s.Invariant) (hs : s.timeout=some s') : s'.Invariant := by
  unfold ShadowLogger.timeout at hs
  split at hs
  · next hphase hcommands =>
    obtain rfl := Option.some.inj hs
    refine h.advance (by simp [hphase]) ?_ rfl rfl rfl (List.suffix_refl _) (List.prefix_refl _) ?_ nofun
    · simp [requests,hphase,hcommands,LoggerPhase.inHand]
    · simpa [hphase,LoggerPhase.buffer,LoggerPhase.pending] using h.written
  · exact nomatch hs

lemma Invariant.snapshot (h : s.Invariant) (hs : s.snapshot=some s') : s'.Invariant := by
  unfold ShadowLogger.snapshot at hs
  split at hs
  · next d hphase =>
    obtain rfl := Option.some.inj hs
    refine h.advance (by simp [hphase]) ?_ rfl rfl rfl (List.suffix_refl _) (List.prefix_refl _) ?_ ?_
    · simp [requests,hphase,LoggerPhase.inHand]
    · simpa [hphase,LoggerPhase.buffer,LoggerPhase.pending] using h.written
    · intro n p t b hflush r hr
      obtain ⟨rfl,-⟩ := LoggerPhase.flushing.inj hflush
      simp at hr
  · exact nomatch hs

lemma Invariant.pop (h : s.Invariant) (hs : s.pop=some s') : s'.Invariant := by
  unfold ShadowLogger.pop at hs
  split at hs
  · next n d b hphase =>
    split at hs
    · next r rs hrecords =>
      obtain rfl := Option.some.inj hs
      obtain ⟨popped,hpushed,htext⟩ := h.written
      refine h.advance (by simp [hphase]) ?_ rfl rfl rfl ⟨[r],hrecords.symm⟩ (List.prefix_refl _)
        ⟨popped++[r],?_,?_⟩ ?_
      · simp [requests,hphase,LoggerPhase.inHand]
      · simp [hpushed,hrecords]
      · simp only [hphase,LoggerPhase.buffer,LoggerPhase.pending,List.flatten_nil,List.append_nil] at htext
        rw [textOf_append,← htext,textOf_singleton,LoggerPhase.buffer,LoggerPhase.pending,List.append_assoc]
      · intro m p t b' hflush q hq
        obtain ⟨rfl,-,hd,-⟩ := LoggerPhase.flushing.inj hflush
        refine h.covered (n+1) [] t b (hd ▸ hphase) q ?_
        rw [hrecords]
        exact hq
    · next hrecords =>
      obtain rfl := Option.some.inj hs
      refine h.advance (by simp [hphase]) ?_ rfl rfl rfl (List.suffix_refl _) (List.prefix_refl _) ?_ ?_
      · simp [requests,hphase,LoggerPhase.inHand]
      · simpa [hphase,LoggerPhase.buffer,LoggerPhase.pending] using h.written
      · intro m p t b' _ q hq
        simp [hrecords] at hq
  · exact nomatch hs

lemma Invariant.write (h : s.Invariant) (hs : s.write=some s') : s'.Invariant := by
  unfold ShadowLogger.write at hs
  split at hs
  · next n piece ps d b hphase =>
    have horder := bufWrite_append b piece
    generalize bufWrite b piece=w at hs horder
    obtain ⟨buffer,out⟩ := w
    obtain rfl := Option.some.inj hs
    obtain ⟨popped,hpushed,htext⟩ := h.written
    refine h.advance (by simp [hphase]) ?_ rfl rfl rfl (List.suffix_refl _) (List.prefix_append _ _)
      ⟨popped,hpushed,?_⟩ ?_
    · simp [requests,hphase,LoggerPhase.inHand]
    · simp only [hphase,LoggerPhase.buffer,LoggerPhase.pending,List.flatten_cons] at htext
      simp only [LoggerPhase.buffer,LoggerPhase.pending]
      rw [← htext,← List.append_assoc b,← horder]
      simp
    · intro m p t b' hflush q hq
      obtain ⟨rfl,-,hd,-⟩ := LoggerPhase.flushing.inj hflush
      exact h.covered n (piece::ps) t b (hd ▸ hphase) q hq
  · exact nomatch hs

/-- The notification of a caller: its records were in the snapshot, so the queue has none of them. -/
lemma Invariant.notifyCaller (h : s.Invariant) {t : τ} {b : Bytes} (hphase : s.phase=.flushing 0 [] (some t) b) :
    Invariant {s with done := Function.update s.done t true,phase := .notified (some t) b} := by
  have hrequests : s.requests=some t::s.commands := by
    rw [requests,hphase]
    rfl
  have hfresh : some t ∉ s.commands := by
    intro hmem
    have hsingle := h.single t
    have := List.count_pos_iff.mpr hmem
    rw [hrequests,List.count_cons_self] at hsingle
    omega
  have hdone : ∀ u, u ≠ t → Function.update s.done t true u=s.done u := fun u hu ↦ by simp [hu]
  constructor
  · simpa [hphase,LoggerPhase.buffer,LoggerPhase.pending] using h.written
  · intro u hu
    have hu : some u ∈ s.commands := hu
    have hne : u ≠ t := fun he ↦ hfresh (he ▸ hu)
    obtain ⟨hw,hd⟩ := h.requested u (hrequests ▸ List.mem_cons_of_mem _ hu)
    exact ⟨hw,(hdone u hne).trans hd⟩
  · intro u
    have hsingle := h.single u
    rw [hrequests,List.count_cons] at hsingle
    exact (Nat.le_add_right _ _).trans hsingle
  · exact nofun
  · intro u hu
    by_cases he : u=t
    · exact he ▸ (h.requested t (hrequests ▸ List.mem_cons_self)).1
    · exact h.waits u ((hdone u he).symm.trans hu)
  · intro u hu r hr
    by_cases he : u=t
    · exact he ▸ h.covered 0 [] t b hphase r hr
    · exact h.taken u ((hdone u he).symm.trans hu) r hr
  · intro u hu hnot
    have he : u ≠ t := fun he ↦ hnot b (he ▸ rfl)
    exact h.reached u ((hdone u he).symm.trans hu) fun b' ↦ by simp [hphase]

lemma Invariant.notify (h : s.Invariant) (hs : s.notify=some s') : s'.Invariant := by
  unfold ShadowLogger.notify at hs
  split at hs
  · next d b hphase =>
    obtain rfl := Option.some.inj hs
    cases d with
    | some t => exact h.notifyCaller hphase
    | none =>
      refine h.advance (by simp [hphase]) ?_ rfl rfl rfl (List.suffix_refl _) (List.prefix_refl _) ?_ nofun
      · simp [requests,hphase,LoggerPhase.inHand]
      · simpa [hphase,LoggerPhase.buffer,LoggerPhase.pending] using h.written
  · exact nomatch hs

omit [DecidableEq τ] in
/-- It is enough that the text up to the last record of a thread is on stdout. -/
lemma loggedBefore_of_prefix {front back : List (τ × ShadowLogRecord)} {t : τ} (hpushed : s.pushed=front++back)
    (hback : ∀ r ∈ back, r.1 ≠ t) (htext : textOf front <+: s.stdout) : s.LoggedBefore t := by
  intro rs r qs hsplit
  obtain ⟨ps,hps⟩ := split_front (hpushed.symm.trans hsplit) hback
  exact (textOf_mono ⟨ps,by simp [hps]⟩).trans htext

lemma Invariant.release (h : s.Invariant) (hs : s.release=some s') : s'.Invariant := by
  unfold ShadowLogger.release at hs
  split at hs
  · next d b hphase =>
    obtain rfl := Option.some.inj hs
    obtain ⟨popped,hpushed,htext⟩ := h.written
    simp only [hphase,LoggerPhase.buffer,LoggerPhase.pending,List.flatten_nil,List.append_nil] at htext
    have hrequests : s.requests=s.commands := by
      rw [requests,hphase]
      rfl
    constructor
    · exact ⟨popped,hpushed,by simp [LoggerPhase.buffer,LoggerPhase.pending,htext]⟩
    · intro t ht
      exact h.requested t (hrequests ▸ ht)
    · intro t
      exact hrequests ▸ h.single t
    · exact nofun
    · exact h.waits
    · exact h.taken
    · intro t ht _
      exact loggedBefore_of_prefix hpushed (h.taken t ht) (htext ▸ List.prefix_refl _)
  · exact nomatch hs

lemma Invariant.step (h : s.Invariant) {a : LoggerAction τ} (hs : s.step a=some s') : s'.Invariant := by
  cases a with
  | log t r =>
    simp only [ShadowLogger.step,ShadowLogger.log] at hs
    split at hs
    · next hidle =>
      obtain rfl := Option.some.inj hs
      exact h.setThread (by simp [hidle]) _
    · exact nomatch hs
  | flush t =>
    simp only [ShadowLogger.step,ShadowLogger.flush] at hs
    split at hs
    · next hidle =>
      obtain rfl := Option.some.inj hs
      exact h.setThread (by simp [hidle]) _
    · exact nomatch hs
  | push t =>
    simp only [ShadowLogger.step,ShadowLogger.push] at hs
    split at hs
    · next r hpushing =>
      have hnot : ∀ retry, s.threads t ≠ .waiting retry := by simp [hpushing]
      split at hs
      · obtain rfl := Option.some.inj hs
        exact (h.queue hnot r).setThread hnot _
      · obtain rfl := Option.some.inj hs
        exact h.setThread hnot _
    · exact nomatch hs
  | afterPush t =>
    simp only [ShadowLogger.step,ShadowLogger.afterPush] at hs
    split at hs
    · next r hpushed =>
      have hnot : ∀ retry, s.threads t ≠ .waiting retry := by simp [hpushed]
      split at hs
      · obtain rfl := Option.some.inj hs
        exact h.setThread hnot _
      · split at hs
        · obtain rfl := Option.some.inj hs
          exact h.setThread hnot _
        · obtain rfl := Option.some.inj hs
          exact h.setThread hnot _
    · exact nomatch hs
  | sendCommand t =>
    simp only [ShadowLogger.step,ShadowLogger.sendCommand] at hs
    split at hs
    · next hasync =>
      obtain rfl := Option.some.inj hs
      exact h.sendAsync.setThread (by simp [hasync]) _
    · next retry hsync =>
      obtain rfl := Option.some.inj hs
      exact h.sendSync (by simp [hsync]) retry
    · exact nomatch hs
  | recvDone t =>
    simp only [ShadowLogger.step,ShadowLogger.recvDone] at hs
    split at hs
    · split at hs
      · next hdone =>
        obtain rfl := Option.some.inj hs
        exact h.recv hdone _
      · exact nomatch hs
    · exact nomatch hs
  | setBufferingEnabled b =>
    obtain rfl := Option.some.inj hs
    exact ⟨h.written,h.requested,h.single,h.covered,h.waits,h.taken,h.reached⟩
  | recvCommand => exact h.recvCommand hs
  | timeout => exact h.timeout hs
  | snapshot => exact h.snapshot hs
  | pop => exact h.pop hs
  | write => exact h.write hs
  | notify => exact h.notify hs
  | release => exact h.release hs

lemma Reachable.invariant (h : s.Reachable) : s.Invariant := by
  induction h with
  | init b => exact init_invariant b
  | step _ hs ih => exact ih.step hs

namespace Drains

lemma trans {s₁ s₂ s₃ : ShadowLogger τ} (h : Drains s₁ s₂) (h' : Drains s₂ s₃) : Drains s₁ s₃ := by
  induction h with
  | refl => exact h'
  | step ha hs _ ih => exact .step ha hs (ih h')

lemma single {a : LoggerAction τ} (ha : a ∈ [.recvCommand,.timeout,.snapshot,.pop,.write,.notify,.release])
    (hs : s.step a=some s') : Drains s s' :=
  .step ha hs (.refl s')

lemma invariant (h : Drains s s') (hinv : s.Invariant) : s'.Invariant := by
  induction h with
  | refl => exact hinv
  | step _ hs _ ih => exact ih (hinv.step hs)

lemma writes {n : ℕ} {p : List Bytes} {d : Option τ} {b : Bytes} (hphase : s.phase=.flushing n p d b) :
    ∃ s' b', Drains s s' ∧ s'.phase=.flushing n [] d b' ∧ s'.records=s.records ∧ s'.pushed=s.pushed := by
  induction p generalizing s b with
  | nil => exact ⟨s,b,.refl s,hphase,rfl,rfl⟩
  | cons piece p ih =>
    have hw : s.step .write=some {s with
        stdout := s.stdout++(bufWrite b piece).2
        phase := .flushing n p d (bufWrite b piece).1} := by
      simp only [ShadowLogger.step,ShadowLogger.write,hphase]
    obtain ⟨s',b',hdrain,hphase',hrecords,hpushed⟩ := ih (s := {s with
      stdout := s.stdout++(bufWrite b piece).2
      phase := .flushing n p d (bufWrite b piece).1}) rfl
    exact ⟨s',b',.step (by simp) hw hdrain,hphase',hrecords,hpushed⟩

lemma flushes {n : ℕ} {d : Option τ} {b : Bytes} (hphase : s.phase=.flushing n [] d b) :
    ∃ s' b', Drains s s' ∧ s'.phase=.flushing 0 [] d b' ∧ s'.records=s.records.drop n ∧ s'.pushed=s.pushed := by
  induction n generalizing s b with
  | zero => exact ⟨s,b,.refl s,hphase,rfl,rfl⟩
  | succ n ih =>
    cases hrecords : s.records with
    | nil =>
      have hp : s.step .pop=some {s with phase := .flushing 0 [] d b} := by
        simp only [ShadowLogger.step,ShadowLogger.pop,hphase,hrecords]
      exact ⟨_,b,single (by simp) hp,rfl,by simp [hrecords],rfl⟩
    | cons r rs =>
      have hp : s.step .pop=some {s with
          records := rs, phase := .flushing n r.2.pieces d b, flushed := s.flushed++[r]} := by
        simp only [ShadowLogger.step,ShadowLogger.pop,hphase,hrecords]
      obtain ⟨s₁,b₁,hdrain₁,hphase₁,hrecords₁,hpushed₁⟩ := writes
        (s := {s with
          records := rs, phase := .flushing n r.2.pieces d b, flushed := s.flushed++[r]}) rfl
      obtain ⟨s₂,b₂,hdrain₂,hphase₂,hrecords₂,hpushed₂⟩ := ih hphase₁
      refine ⟨s₂,b₂,.step (by simp) hp (hdrain₁.trans hdrain₂),hphase₂,?_,hpushed₂.trans hpushed₁⟩
      rw [hrecords₂,hrecords₁,List.drop_succ_cons]

/-- A flush runs to the release of its `BufWriter`. -/
lemma finishes {n : ℕ} {p : List Bytes} {d : Option τ} {b : Bytes} (hphase : s.phase=.flushing n p d b) :
    ∃ s', Drains s s' ∧ s'.phase=.receiving ∧ s'.records=s.records.drop n ∧ s'.pushed=s.pushed := by
  obtain ⟨s₁,b₁,hdrain₁,hphase₁,hrecords₁,hpushed₁⟩ := writes hphase
  obtain ⟨s₂,b₂,hdrain₂,hphase₂,hrecords₂,hpushed₂⟩ := flushes hphase₁
  have hn : ∃ done, s₂.step .notify=some {s₂ with done := done,phase := .notified d b₂} := by
    simp only [ShadowLogger.step,ShadowLogger.notify,hphase₂]
    exact ⟨_,rfl⟩
  obtain ⟨done,hn⟩ := hn
  have hr : ShadowLogger.step {s₂ with done := done,phase := .notified d b₂} .release=
      some {s₂ with done := done,stdout := s₂.stdout++b₂,phase := .receiving,flushed := []} := by
    simp only [ShadowLogger.step,ShadowLogger.release]
  refine ⟨_,(hdrain₁.trans hdrain₂).trans (.step (by simp) hn (single (by simp) hr)),rfl,?_,?_⟩
  · exact hrecords₂.trans (by rw [hrecords₁])
  · exact hpushed₂.trans hpushed₁

lemma returns (s : ShadowLogger τ) : ∃ s', Drains s s' ∧ s'.phase=.receiving ∧ s'.pushed=s.pushed := by
  cases hphase : s.phase with
  | receiving => exact ⟨s,.refl s,hphase,rfl⟩
  | received d =>
    have hs : s.step .snapshot=some {s with phase := .flushing s.records.length [] d []} := by
      simp only [ShadowLogger.step,ShadowLogger.snapshot,hphase]
    obtain ⟨s',hdrain,hphase',-,hpushed⟩ := finishes
      (s := {s with phase := .flushing s.records.length [] d []}) rfl
    exact ⟨s',.step (by simp) hs hdrain,hphase',hpushed⟩
  | flushing n p d b =>
    obtain ⟨s',hdrain,hphase',-,hpushed⟩ := finishes hphase
    exact ⟨s',hdrain,hphase',hpushed⟩
  | notified d b =>
    have hr : s.step .release=some {s with stdout := s.stdout++b,phase := .receiving,flushed := []} := by
      simp only [ShadowLogger.step,ShadowLogger.release,hphase]
    exact ⟨_,single (by simp) hr,rfl,rfl⟩

lemma empties (s : ShadowLogger τ) :
    ∃ s', Drains s s' ∧ s'.phase=.receiving ∧ s'.records=[] ∧ s'.pushed=s.pushed := by
  obtain ⟨s₁,hdrain₁,hphase₁,hpushed₁⟩ := returns s
  have hreceive : ∃ d s₂, Drains s₁ s₂ ∧ s₂.phase=.received d ∧ s₂.pushed=s₁.pushed := by
    cases hcommands : s₁.commands with
    | nil =>
      have ht : s₁.step .timeout=some {s₁ with phase := .received none} := by
        simp only [ShadowLogger.step,ShadowLogger.timeout,hphase₁,hcommands]
      exact ⟨none,_,single (by simp) ht,rfl,rfl⟩
    | cons c cs =>
      have hc : s₁.step .recvCommand=some {s₁ with commands := cs,phase := .received c} := by
        simp only [ShadowLogger.step,ShadowLogger.recvCommand,hphase₁,hcommands]
      exact ⟨c,_,single (by simp) hc,rfl,rfl⟩
  obtain ⟨d,s₂,hdrain₂,hphase₂,hpushed₂⟩ := hreceive
  have hs : s₂.step .snapshot=some {s₂ with phase := .flushing s₂.records.length [] d []} := by
    simp only [ShadowLogger.step,ShadowLogger.snapshot,hphase₂]
  obtain ⟨s₃,hdrain₃,hphase₃,hrecords₃,hpushed₃⟩ := finishes
    (s := {s₂ with phase := .flushing s₂.records.length [] d []}) rfl
  refine ⟨s₃,(hdrain₁.trans hdrain₂).trans (.step (by simp) hs hdrain₃),hphase₃,?_,?_⟩
  · rw [hrecords₃]
    exact List.drop_length
  · exact hpushed₃.trans (hpushed₂.trans hpushed₁)

end Drains

/-- The flush in progress took the last records that have left the queue, and the `BufWriter` has been
given their pieces up to those that are still to be written. -/
structure Buffered (s : ShadowLogger τ) : Prop where
  order : ∃ front, s.pushed=front++(s.flushed++s.records)
  buffer : ∃ pieces, s.flushed.flatMap (fun r ↦ r.2.pieces)=pieces++s.phase.pending ∧
    s.phase.buffer=holds [] pieces

omit [DecidableEq τ] in
/-- The phase has moved on, but not the buffer. -/
lemma Buffered.phase (h : s.Buffered) (hpushed : s'.pushed=s.pushed) (hrecords : s'.records=s.records)
    (hflushed : s'.flushed=s.flushed) (hbuffer : s'.phase.buffer=s.phase.buffer)
    (hpending : s'.phase.pending=s.phase.pending) : s'.Buffered := by
  refine ⟨?_,?_⟩
  · rw [hpushed,hrecords,hflushed]
    exact h.order
  · rw [hflushed,hbuffer,hpending]
    exact h.buffer

omit [DecidableEq τ] in
lemma Buffered.push (h : s.Buffered) (x : τ → LoggingThread) (r : τ × ShadowLogRecord) :
    Buffered {s with threads := x, records := s.records++[r], pushed := s.pushed++[r]} := by
  obtain ⟨front,hfront⟩ := h.order
  exact ⟨⟨front,by simp [hfront]⟩,h.buffer⟩

lemma Buffered.step (h : s.Buffered) {a : LoggerAction τ} (hs : s.step a=some s') : s'.Buffered := by
  cases a with
  | push t =>
    simp only [ShadowLogger.step,ShadowLogger.push] at hs
    split at hs
    · split at hs
      · obtain rfl := Option.some.inj hs
        exact h.push _ _
      · obtain rfl := Option.some.inj hs
        exact h.phase rfl rfl rfl rfl rfl
    · exact nomatch hs
  | pop =>
    simp only [ShadowLogger.step,ShadowLogger.pop] at hs
    split at hs
    · next n d b hphase =>
      split at hs
      · next r rs hrecords =>
        obtain rfl := Option.some.inj hs
        obtain ⟨front,hfront⟩ := h.order
        obtain ⟨pieces,hpieces,hbuffer⟩ := h.buffer
        rw [hphase] at hpieces hbuffer
        refine ⟨⟨front,by simp [hfront,hrecords]⟩,pieces,?_,hbuffer⟩
        simp only [List.flatMap_append,hpieces]
        simp [LoggerPhase.pending]
      · obtain rfl := Option.some.inj hs
        exact h.phase rfl rfl rfl (by rw [hphase]; rfl) (by rw [hphase]; rfl)
    · exact nomatch hs
  | write =>
    simp only [ShadowLogger.step,ShadowLogger.write] at hs
    split at hs
    · next n piece ps d b hphase =>
      obtain rfl := Option.some.inj hs
      obtain ⟨pieces,hpieces,hbuffer⟩ := h.buffer
      rw [hphase] at hpieces hbuffer
      refine ⟨h.order,pieces++[piece],hpieces.trans (by simp [LoggerPhase.pending]),?_⟩
      change (bufWrite b piece).1=holds [] (pieces++[piece])
      have hb : b=holds [] pieces := hbuffer
      rw [hb,holds_append]
      rfl
    · exact nomatch hs
  | release =>
    simp only [ShadowLogger.step,ShadowLogger.release] at hs
    split at hs
    · obtain rfl := Option.some.inj hs
      obtain ⟨front,hfront⟩ := h.order
      exact ⟨⟨front++s.flushed,by rw [hfront,List.append_assoc]; rfl⟩,[],rfl,rfl⟩
    · exact nomatch hs
  | setBufferingEnabled b =>
    obtain rfl := Option.some.inj hs
    exact h.phase rfl rfl rfl rfl rfl
  | _ =>
    -- the steps of a thread, and those before and after the loop
    simp only [ShadowLogger.step,ShadowLogger.log,ShadowLogger.flush,ShadowLogger.afterPush,
      ShadowLogger.sendCommand,ShadowLogger.recvDone,ShadowLogger.recvCommand,ShadowLogger.timeout,
      ShadowLogger.snapshot,ShadowLogger.notify] at hs
    repeat' split at hs
    all_goals cases hs
    all_goals
      refine h.phase rfl rfl rfl ?_ ?_ <;> first | rfl | (simp only [*]; rfl)

lemma Reachable.buffered (h : s.Reachable) : s.Buffered := by
  induction h with
  | init b => exact ⟨⟨[],rfl⟩,[],rfl,rfl⟩
  | step _ hs ih => exact ih.step hs

omit [DecidableEq τ] in
lemma flatten_pieces (rs : List (τ × ShadowLogRecord)) :
    (rs.flatMap fun r ↦ r.2.pieces).flatten=textOf rs := by
  induction rs with
  | nil => rfl
  | cons r rs ih => rw [List.flatMap_cons,List.flatten_append,ih]; rfl

/-- The buffer that is left holds text of records behind those of a thread only, exactly if it has
overflowed. -/
lemma overflows_iff (rs : List (τ × ShadowLogRecord)) (t : τ) : Overflows rs t ↔
    (heldOf rs).length ≤ (textOf (rs.rtakeWhile fun r ↦ r.1 ≠ t)).length := by
  have hheld : heldOf rs=holds (heldOf (rs.rdropWhile fun r ↦ r.1 ≠ t))
      ((rs.rtakeWhile fun r ↦ r.1 ≠ t).flatMap fun r ↦ r.2.pieces) := by
    conv_lhs => rw [← List.rdropWhile_append_rtakeWhile (p := fun r ↦ decide (r.1 ≠ t)) (l := rs)]
    rw [heldOf,List.flatMap_append,holds_append,heldOf]
  have hcapacity : (heldOf (rs.rdropWhile fun r ↦ r.1 ≠ t)).length ≤ bufWriterCapacity :=
    length_holds_capacity _ (Nat.zero_le _)
  rw [hheld,Overflows,← flatten_pieces]
  constructor
  · exact length_holds_of_spills hcapacity
  · intro hle
    by_contra hfits
    rw [not_or,not_lt] at hfits
    rw [holds_of_fits hfits.1 hfits.2,List.length_append] at hle
    have := List.length_pos_iff.mpr hfits.1
    omega

lemma Invariant.loggedBefore_iff (h : s.Invariant) (hbuf : s.Buffered) {t : τ} (hdone : s.done t=true) :
    s.LoggedBefore t ↔ s.Released t ∨ Overflows s.flushed t := by
  by_cases hphase : s.Released t
  case pos => exact iff_of_true (h.reached t hdone hphase) (Or.inl hphase)
  rw [or_iff_right hphase]
  simp only [Released,not_forall,not_not] at hphase
  obtain ⟨b,hphase⟩ := hphase
  obtain ⟨popped,hpushed,htext⟩ := h.written
  obtain ⟨earlier,hearlier⟩ := hbuf.order
  obtain ⟨pieces,hpieces,hheld⟩ := hbuf.buffer
  simp only [hphase,LoggerPhase.buffer,LoggerPhase.pending,List.flatten_nil,List.append_nil] at htext hpieces hheld
  have hb : b=heldOf s.flushed := by rw [hheld,← hpieces]; rfl
  rw [overflows_iff,← hb]
  have hsplit := List.rdropWhile_append_rtakeWhile (p := fun r : τ × ShadowLogRecord ↦ decide (r.1 ≠ t))
    (l := s.flushed)
  have hbehind : ∀ r ∈ s.flushed.rtakeWhile fun r ↦ decide (r.1 ≠ t), r.1 ≠ t := fun r hr ↦ by
    simpa using List.mem_rtakeWhile_imp hr
  have hlast := List.rdropWhile_last_not (fun r : τ × ShadowLogRecord ↦ decide (r.1 ≠ t)) s.flushed
  generalize s.flushed.rtakeWhile (fun r ↦ decide (r.1 ≠ t))=behind at hsplit hbehind ⊢
  generalize s.flushed.rdropWhile (fun r ↦ decide (r.1 ≠ t))=front at hsplit hlast
  have hpopped : popped=earlier++(front++behind) := by
    rw [hsplit]
    rw [hearlier,← List.append_assoc] at hpushed
    exact (List.append_cancel_right hpushed).symm
  have hlengths : s.stdout.length+b.length=(textOf (earlier++front)).length+(textOf behind).length := by
    rw [← List.length_append,htext,hpopped,← List.append_assoc,textOf_append,List.length_append]
  have hlead : textOf (earlier++front) <+: s.stdout ↔ (textOf (earlier++front)).length ≤ s.stdout.length := by
    refine ⟨List.IsPrefix.length_le,fun hle ↦ ?_⟩
    exact List.prefix_of_prefix_length_le (textOf_mono ⟨behind,by rw [hpopped,List.append_assoc]⟩)
      ⟨b,htext⟩ hle
  have hlogged : s.LoggedBefore t ↔ textOf (earlier++front) <+: s.stdout := by
    have hpushed' : s.pushed=(earlier++front)++(behind++s.records) := by
      rw [hpushed,hpopped]
      simp
    constructor
    · intro hlogged
      rcases List.eq_nil_or_concat front with rfl | ⟨rs,r,hfront⟩
      · have hle : b.length ≤ (textOf behind).length := by
          rw [hb,← hsplit,List.nil_append,← flatten_pieces]
          exact (length_holds_le [] _).trans (Nat.zero_add _).le
        exact hlead.mpr (by omega)
      · rw [List.concat_eq_append] at hfront
        subst hfront
        have hr : r.1=t := by simpa using hlast (by simp)
        have := hlogged (earlier++rs) r.2 (behind++s.records) (by rw [hpushed',← hr]; simp)
        rwa [List.append_assoc,← hr] at this
    · refine fun hlead ↦ loggedBefore_of_prefix hpushed' (fun r hr ↦ ?_) hlead
      rcases List.mem_append.mp hr with hr | hr
      · exact hbehind r hr
      · exact h.taken t hdone r hr
  rw [hlogged,hlead]
  omega

lemma done_of_canReturn {t : τ} (h : s.CanReturn t) : s.done t=true := by
  obtain ⟨s',hs⟩ := Option.isSome_iff_exists.mp h
  unfold recvDone at hs
  split at hs
  · split at hs
    · assumption
    · exact nomatch hs
  · exact nomatch hs

/-- In every state of every run, stdout has the text of the records in the order of the queue, each once,
and the logger's thread can write the rest. When a synchronous flush returns, the caller's records have
reached stdout exactly if its flush has ended, or its `BufWriter` has overflowed behind them. -/
theorem flush_sync_iff (h : s.Reachable) :
    s.stdout <+: textOf s.pushed ∧
      (∃ s', s.Drains s' ∧ s'.pushed=s.pushed ∧ s'.stdout=textOf s.pushed) ∧
      ∀ t, s.CanReturn t → (s.LoggedBefore t ↔ s.Released t ∨ Overflows s.flushed t) := by
  refine ⟨?_,?_,fun t ht ↦ h.invariant.loggedBefore_iff h.buffered (done_of_canReturn ht)⟩
  · obtain ⟨popped,hpushed,htext⟩ := h.invariant.written
    exact (htext ▸ List.prefix_append _ _).trans (textOf_mono ⟨s.records,hpushed.symm⟩)
  · obtain ⟨s',hdrain,hphase,hrecords,hpushed⟩ := Drains.empties s
    obtain ⟨popped,hpushed',htext⟩ := (hdrain.invariant h.invariant).written
    refine ⟨s',hdrain,hpushed,?_⟩
    simp only [hphase,LoggerPhase.buffer,LoggerPhase.pending,List.flatten_nil,List.append_nil] at htext
    rw [htext,← hpushed,hpushed',hrecords,List.append_nil]

/-- A run. -/
def run (s : ShadowLogger τ) (as : List (LoggerAction τ)) : Option (ShadowLogger τ) := as.foldlM step s

lemma Reachable.run (h : s.Reachable) (as : List (LoggerAction τ)) (hs : s.run as=some s') : s'.Reachable := by
  induction as generalizing s with
  | nil =>
    obtain rfl := Option.some.inj hs
    exact h
  | cons a as ih =>
    obtain ⟨s₁,hs₁,hs⟩ := Option.bind_eq_some_iff.mp hs
    exact ih (h.step hs₁) hs

/-- An error message is logged and flushed, up to the notification. -/
def errorRun : List (LoggerAction Unit) :=
  [.log () ⟨true,[[69],[10]]⟩,.push (),.afterPush (),.sendCommand (),.recvCommand,.snapshot,.pop,.write,.write,.notify]

theorem flush_sync_released :
    ∃ s, (init true).run (errorRun++[.release])=some s ∧ s.CanReturn () ∧ s.LoggedBefore () := by
  have h := flush_sync_iff ((Reachable.init true).run (errorRun++[.release]) rfl)
  exact ⟨_,rfl,rfl,(h.2.2 () rfl).mpr (Or.inl nofun)⟩

/-- The call returns before the message is on stdout. -/
theorem flush_sync_notified : ∃ s, (init true).run errorRun=some s ∧ s.CanReturn () ∧ ¬ s.LoggedBefore () := by
  refine ⟨_,rfl,rfl,fun h ↦ ?_⟩
  have := (h [] _ [] rfl).length_le
  exact absurd this (by decide)

end ShadowLogger

end Phantom
