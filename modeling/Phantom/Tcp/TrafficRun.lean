import Phantom.Tcp.TrafficSteps
import Phantom.Tcp.Event

/-! What the packets of a socket keep in every run: each length is that of its container, the
receiver has what its selective acknowledgments name, and the timer is that of the timer model. -/
namespace Phantom
namespace Tcp

open Traffic
open Endpoint

variable {g : Guard} {t : Endpoint}

/-- What an event asks of the guard. -/
def Traffic.Guard.admits (g : Guard) (t : Endpoint) : Event → Prop
  | .packet p => p.flags.rst=false → PacketOk g t p
  | .retransmitTimer => g.expire
  | _ => True

lemma steps_sendto (data : List UInt8) : Steps g t.traffic (t.sendto data).2.traffic := by
  have herror := traffic_getConnectionError t
  unfold sendto
  split
  · rename_i t' hg
    rw [hg] at herror
    rw [← herror]
    exact steps_sendUserData t' data
  · rename_i t' hg
    rw [hg] at herror
    rw [← herror]
    exact steps_sendUserData t' data
  · rename_i t' _ _ hg
    rw [hg] at herror
    exact Steps.of_eq herror

lemma steps_handle (e : Event) (hok : g.admits t e) : Steps g t.traffic (t.handle e).2.traffic := by
  cases e with
  | connect => exact steps_connectToPeer t
  | sendto data => exact steps_sendto data
  | recvfrom n => exact steps_receiveUserData t n
  | shutdown read write => exact steps_shutdown t read write
  | close => exact steps_close t
  | packet p => exact steps_processPacket t p hok
  | dropPacket => exact steps_flush t
  | pull => exact steps_pullOutPacket t
  | sendACK => exact steps_sendACKTaskCallback t
  | windowUpdate => exact steps_sendWindowUpdate t
  | retransmitTimer =>
    refine Steps.trans ?_ (steps_runRetransmitTimerExpiredTask t (r := ⟨t.alarm,0,[]⟩) rfl)
    exact (Step.expire t.traffic _ hok).steps
  | closeTimer => exact steps_runCloseTimerExpiredTask t

/-! The switch over the states does not look at the time. -/

lemma clearRetransmit_atTime (n now : ℕ) (takes : List ℕ) :
    (t.atTime now takes).clearRetransmit n=(t.clearRetransmit n).atTime now takes := by
  unfold clearRetransmit writableIfSpace
  have hspace : ((t.atTime now takes).dropRetransmit fun s ↦ s<n).getBufferSpaceOut=
      (t.dropRetransmit fun s ↦ s<n).getBufferSpaceOut := rfl
  rw [hspace]
  split_ifs <;> rfl

lemma setState_atTime (s : State) (now : ℕ) (takes : List ℕ) :
    (t.atTime now takes).setState s=(t.setState s).atTime now takes := by
  cases s with
  | closed =>
    have hset : ({t.atTime now takes with state := .closed} : Endpoint)=
        ({t with state := .closed} : Endpoint).atTime now takes := rfl
    unfold setState
    dsimp only
    rw [hset,clearRetransmit_atTime]
    rfl
  | _ => rfl

lemma switchState_atTime (p : Packet) (now : ℕ) (takes : List ℕ) :
    ((t.atTime now takes).switchState p).socket=(t.switchState p).socket.atTime now takes := by
  have hstate : (t.atTime now takes).state=t.state := rfl
  have hstart : (t.atTime now takes).startReceive p=(t.startReceive p).atTime now takes := rfl
  have hremote : ∀ (u : Endpoint) n,
      (u.atTime now takes).remoteClose n=(u.remoteClose n).atTime now takes := fun _ _ ↦ rfl
  unfold switchState
  rw [hstate]
  cases t.state <;> dsimp only <;> split_ifs <;>
    simp only [hstart,setState_atTime,clearRetransmit_atTime,hremote]

lemma Traffic.Guard.admits_atTime {e : Event} (h : g.admits t e) (now : ℕ) (takes : List ℕ) :
    g.admits (t.atTime now takes) e := by
  cases e with
  | packet p =>
    intro hrst
    obtain ⟨hstart,hdata,hprune⟩ := h hrst
    refine ⟨hstart,fun hpay hin ↦ hdata hpay ?_,hprune⟩
    rw [switchState_atTime] at hin
    exact hin
  | retransmitTimer => exact h
  | _ => trivial

lemma steps_occur (e : Occurrence) (hg : g.expire) (hok : g.admits t e.event) :
    Steps g t.traffic (t.occur e).2.traffic := by
  refine Steps.trans ?_ (steps_handle e.event (Guard.admits_atTime hok e.now e.takes))
  exact (Step.expire t.traffic (t.atTime e.now e.takes).alarm hg).steps

lemma not_inWindow_start (h : t.receive.window ≤ 10) (p : Packet) :
    ¬(t.startReceive p).inWindow p := by
  rintro ⟨hge,hlt⟩
  simp only [startReceive,u32] at hge hlt
  omega

lemma steps_newChild (env : Env) (r s now : ℕ) (takes : List ℕ) (p : Packet) (hg : g.expire)
    (hprune : g.prune) :
    Steps g {(new env r s).traffic with next := u32 (p.sequence+1)}
      (newChild env r s now takes p).traffic := by
  unfold newChild
  refine Steps.trans ?_ (steps_processSwitched _ p ?_ fun _ ↦ hprune)
  · refine Steps.trans (Step.expire _ ((new env r s).atTime now takes).alarm hg).steps ?_
    exact steps_setState (((new env r s).atTime now takes).startReceive p) .synReceived
  · intro _ hin
    exact absurd hin.1 (not_inWindow_start (t := (new env r s).atTime now takes) le_rfl p)

/-- The sockets that runs of allowed events reach, also the ones that listen. -/
inductive Lives (allowed : Endpoint → Event → Prop) : Endpoint → Prop
  | client (env : Env) (receiveBufferSize sendBufferSize : ℕ) :
      Lives allowed (new env receiveBufferSize sendBufferSize)
  | child (env : Env) (receiveBufferSize sendBufferSize now : ℕ) (takes : List ℕ) (p : Packet)
      (syn : p.flags.syn=true) :
      Lives allowed (newChild env receiveBufferSize sendBufferSize now takes p)
  | listen {t : Endpoint} (h : Lives allowed t) (unused : t.state=.closed ∧ t.flags=.none) :
      Lives allowed (t.setState .listen)
  | step {t : Endpoint} (h : Lives allowed t) (e : Occurrence) (enabled : t.enabled e.event=true)
      (ok : allowed t e.event) : Lives allowed (t.occur e).2

lemma Lives.run {t' : Endpoint} {ps ps' : List Packet} (h : Lives (fun _ _ ↦ True) t)
    {es : List Occurrence} (hr : t.run ps es=some (t',ps')) : Lives (fun _ _ ↦ True) t' := by
  induction es generalizing t ps with
  | nil =>
    cases hr
    exact h
  | cons e es ih =>
    rw [Endpoint.run] at hr
    split_ifs at hr with he
    exact ih (h.step e he trivial) hr

/-- What the steps of a guard keep holds after every run whose events the guard admits. -/
lemma Lives.invariant {allowed : Endpoint → Event → Prop} {P : Traffic → Prop} (hg : g.expire)
    (hprune : g.prune) (hok : ∀ t e, allowed t e → g.admits t e)
    (hnew : ∀ env r s n, P {(new env r s).traffic with next := n})
    (hstep : ∀ {a b}, P a → Step g a b → P b) (h : Lives allowed t) : P t.traffic := by
  induction h with
  | client env r s => exact hnew env r s 1
  | child env r s now takes p syn =>
    exact (steps_newChild env r s now takes p hg hprune).invariant hstep (hnew env r s _)
  | listen h unused ih => exact ih
  | step h e enabled ok ih => exact (steps_occur e hg (hok _ _ ok)).invariant hstep ih

/-- Every step is allowed. -/
def free : Guard := ⟨fun _ _ ↦ True,fun _ _ _ ↦ True,True,True⟩

lemma admits_free (t : Endpoint) (e : Event) : free.admits t e := by
  cases e with
  | packet p => exact fun _ ↦ ⟨fun _ _ ↦ trivial,fun _ _ ↦ trivial,fun _ ↦ trivial⟩
  | _ => trivial

lemma Lives.accounted (h : Lives (fun _ _ ↦ True) t) : Accounted t.traffic :=
  h.invariant (g := free) trivial trivial (fun t e _ ↦ admits_free t e)
    (fun _ _ _ _ ↦ ⟨rfl,rfl,rfl,rfl,rfl⟩) .step

lemma payloadLength_le {ps : List Packet} {p : Packet} (h : p ∈ ps) : p.payloadLength ≤ payloadSum ps :=
  List.le_sum_of_mem (List.mem_map_of_mem h)

lemma payloadSum_filter_le (ps : List Packet) (f : Packet → Bool) :
    payloadSum (ps.filter f) ≤ payloadSum ps := by
  unfold payloadSum
  exact (List.filter_sublist.map Packet.payloadLength).sum_le_sum fun _ _ ↦ Nat.zero_le _

/-- In every run, the five lengths are the sums of the payload lengths in their containers, no length
that is taken off is larger than what it is taken from, and the free space is what the packets in the
containers leave of the buffers. -/
theorem lengths_eq_payloads (h : Lives (fun _ _ ↦ True) t) :
    (t.throttledOutputLength=payloadSum t.throttledOutput.heap ∧
      t.retransmit.queueLength=payloadSum t.retransmit.queue ∧
      t.unorderedInputLength=payloadSum t.unorderedInput.heap ∧
      t.socket.inputBufferLength=payloadSum t.socket.inputBuffer ∧
      t.socket.outputBufferLength=
        payloadSum (t.socket.outputControlBuffer++t.socket.outputBuffer)) ∧
    ((∀ p ∈ t.throttledOutput.heap, p.payloadLength ≤ t.throttledOutputLength) ∧
      (∀ f, payloadSum (t.retransmit.queue.filter f) ≤ t.retransmit.queueLength) ∧
      (∀ p ∈ t.unorderedInput.heap, p.payloadLength ≤ t.unorderedInputLength) ∧
      (∀ p ∈ t.socket.inputBuffer, p.payloadLength ≤ t.socket.inputBufferLength) ∧
      ∀ p ∈ t.socket.outputControlBuffer++t.socket.outputBuffer,
        p.payloadLength ≤ t.socket.outputBufferLength) ∧
    t.getBufferSpaceOut=t.socket.getOutputBufferSize-
      (payloadSum (t.socket.outputControlBuffer++t.socket.outputBuffer)+
        (payloadSum t.throttledOutput.heap+payloadSum t.retransmit.queue)) ∧
    t.getBufferSpaceIn=t.socket.getInputBufferSize-
      (payloadSum t.socket.inputBuffer+payloadSum t.unorderedInput.heap) := by
  obtain ⟨h₁,h₂,h₃,h₄,h₅⟩ := h.accounted
  have ht : t.throttledOutputLength=payloadSum t.throttledOutput.heap :=
    h₁.trans (totalLength_coe _)
  have hb : t.socket.outputBufferLength=
      payloadSum (t.socket.outputControlBuffer++t.socket.outputBuffer) :=
    h₂.trans (totalLength_coe _)
  have hq : t.retransmit.queueLength=payloadSum t.retransmit.queue := h₃.trans (totalLength_coe _)
  have hu : t.unorderedInputLength=payloadSum t.unorderedInput.heap := h₄.trans (totalLength_coe _)
  have hi : t.socket.inputBufferLength=payloadSum t.socket.inputBuffer :=
    h₅.trans (totalLength_coe _)
  refine ⟨⟨ht,hq,hu,hi,hb⟩,⟨?_,?_,?_,?_,?_⟩,?_,?_⟩
  · rw [ht]
    exact fun p hp ↦ payloadLength_le hp
  · rw [hq]
    exact payloadSum_filter_le _
  · rw [hu]
    exact fun p hp ↦ payloadLength_le hp
  · rw [hi]
    exact fun p hp ↦ payloadLength_le hp
  · rw [hb]
    exact fun p hp ↦ payloadLength_le hp
  · unfold getBufferSpaceOut getOutputBufferLength Socket.getOutputBufferSpace
    rw [ht,hq,hb,Nat.sub_sub]
  · unfold getBufferSpaceIn Socket.getInputBufferSpace
    rw [hu,hi,Nat.sub_sub]

/-- The run of a client that connects, sends three bytes, and takes in a byte that comes early. -/
def exchange : List Occurrence :=
  [⟨.connect,1000000,[1]⟩,
    ⟨.packet ⟨0,.synAck,0,1,100,[],2000000,1000000,[]⟩,3000000,[]⟩,
    ⟨.sendto [1,2,3],4000000,[1]⟩,
    ⟨.packet ⟨1,.ack',2,1,100,[],5000000,4000000,[7]⟩,6000000,[0]⟩]

lemma exchange_isSome : ((new plainEnv 174760 131072).run [] exchange).isSome=true := by
  decide

def exchanged : Endpoint :=
  (((new plainEnv 174760 131072).run [] exchange).get exchange_isSome).1

lemma lives_exchanged : Lives (fun _ _ ↦ True) exchanged :=
  (Lives.client plainEnv 174760 131072).run (Option.some_get exchange_isSome).symm

theorem lengths_exchanged :
    (exchanged.retransmit.queueLength=3 ∧ exchanged.unorderedInputLength=1) ∧
    exchanged.retransmit.queueLength=payloadSum exchanged.retransmit.queue ∧
    exchanged.unorderedInputLength=payloadSum exchanged.unorderedInput.heap := by
  have h := lengths_eq_payloads lives_exchanged
  exact ⟨⟨by decide,by decide⟩,h.1.2.1,h.1.2.2.1⟩

/-! Selective acknowledgments. -/

/-- The receiver has the packet of a sequence number. -/
def hasPacket (t : Endpoint) (s : ℕ) : Prop :=
  s<t.receive.next ∨ ∃ q ∈ t.unorderedInput.heap, q.sequence=s

/-- The receiver has every packet that it acknowledges selectively, now or in a packet that it has
emitted. -/
def sacksSound (t : Endpoint) : Prop :=
  (∀ s ∈ t.send.selectiveACKs, hasPacket t s) ∧
    ∀ p ∈ t.sent, ∀ s ∈ p.selectiveACKs, hasPacket t s

/-- A data packet does not have the largest sequence number, and has that of the packet in memory
which it is; a SYN that starts the receiver does not take it back. -/
def neverBack (t : Endpoint) : Event → Prop
  | .packet p => p.flags.rst=false →
      (0<p.payloadLength → p.sequence+1<2^32 ∧
        ∀ q ∈ t.unorderedInput.heap, q.id=p.id → q.sequence=p.sequence) ∧
      (t.state=.synSent → p.flags.syn=true → t.receive.next ≤ u32 (p.sequence+1))
  | _ => True

/-- The guard of `neverBack`. -/
def forward : Guard :=
  ⟨fun m p ↦ p.sequence+1<2^32 ∧ ∀ q ∈ m, q.id=p.id → q.sequence=p.sequence,fun _ n n' ↦ n ≤ n',
    True,True⟩

lemma forward_safe : forward.Safe :=
  ⟨fun _ _ h ↦ h.1,fun _ _ h ↦ h.2,fun _ _ _ h ↦ h⟩

lemma admits_forward (t : Endpoint) (e : Event) (h : neverBack t e) : forward.admits t e := by
  cases e with
  | packet p =>
    intro hrst
    obtain ⟨hdata,hstart⟩ := h hrst
    exact ⟨hstart,fun hpay _ ↦ hdata hpay,fun _ ↦ trivial⟩
  | _ => trivial

lemma sound_new (env : Env) (r s n : ℕ) : Sound {(new env r s).traffic with next := n} := by
  refine ⟨fun _ hs ↦ absurd hs List.not_mem_nil,?_,fun _ hq ↦ absurd hq (Multiset.notMem_zero _)⟩
  rintro p (hp | hp | hp | hp)
  · exact absurd hp (Multiset.notMem_zero _)
  · exact absurd hp (Multiset.notMem_zero _)
  · exact absurd hp (Multiset.notMem_zero _)
  · exact absurd hp List.not_mem_nil

lemma Lives.sound (h : Lives neverBack t) : Sound t.traffic :=
  h.invariant (g := forward) trivial trivial admits_forward sound_new (Sound.step forward_safe)

/-- In every run in which no packet takes the receiver back, it has every packet that it acknowledges
selectively. -/
theorem sacks_sound_of_neverBack (h : Lives neverBack t) : sacksSound t := by
  have hs := h.sound
  exact ⟨hs.sacks,fun p hp ↦ hs.headers p (Or.inr (Or.inr (Or.inr hp)))⟩

/-- A client connects, and a data packet comes before the one that is next. -/
def early : Endpoint :=
  let t := ((new plainEnv 174760 131072).occur ⟨.connect,1000000,[1]⟩).2
  let t := (t.occur ⟨.packet ⟨0,.synAck,0,1,100,[],2000000,1000000,[]⟩,3000000,[]⟩).2
  (t.occur ⟨.packet ⟨1,.ack',2,1,100,[],5000000,4000000,[7]⟩,6000000,[1]⟩).2

theorem sacks_sound_early :
    early.send.selectiveACKs=[2] ∧ early.sent.getLast?.map Packet.selectiveACKs=some [2] ∧
      sacksSound early := by
  have h₁ := (Lives.client plainEnv 174760 131072 : Lives neverBack _).step
    ⟨.connect,1000000,[1]⟩ (by decide) trivial
  have h₂ := h₁.step ⟨.packet ⟨0,.synAck,0,1,100,[],2000000,1000000,[]⟩,3000000,[]⟩
    (by decide) (fun _ ↦ ⟨by decide,by decide⟩)
  have h₃ := h₂.step ⟨.packet ⟨1,.ack',2,1,100,[],5000000,4000000,[7]⟩,6000000,[1]⟩
    (by decide) (fun _ ↦ ⟨by decide,by decide⟩)
  exact ⟨by decide,by decide,sacks_sound_of_neverBack h₃⟩

/-- Three data packets come, the last one first, before the SYN that starts the receiver. -/
def dataBeforeSyn : List Occurrence :=
  [⟨.connect,1000000,[1]⟩,
    ⟨.packet ⟨0,.ack',3,1,100,[],2000000,1000000,[9]⟩,3000000,[1]⟩,
    ⟨.packet ⟨1,.ack',2,1,100,[],2000000,1000000,[8]⟩,3000000,[1]⟩,
    ⟨.packet ⟨2,.ack',1,1,100,[],2000000,1000000,[7]⟩,3000000,[1]⟩,
    ⟨.packet ⟨3,.synAck,0,1,100,[],2000000,1000000,[]⟩,4000000,[1]⟩]

lemma dataBeforeSyn_isSome :
    ((new plainEnv 174760 131072).run [] dataBeforeSyn).isSome=true := by decide

def rewound : Endpoint :=
  (((new plainEnv 174760 131072).run [] dataBeforeSyn).get dataBeforeSyn_isSome).1

/-- The SYN takes the receiver back behind the packets that it has acknowledged selectively. -/
theorem sacks_unsound_rewound : Lives (fun _ _ ↦ True) rewound ∧ ¬sacksSound rewound := by
  refine ⟨(Lives.client plainEnv 174760 131072).run (Option.some_get dataBeforeSyn_isSome).symm,?_⟩
  rintro ⟨hsacks,-⟩
  have hheap : rewound.unorderedInput.heap=[] := by decide
  rcases hsacks 3 (by decide) with hlt | ⟨q,hq,-⟩
  · exact absurd hlt (by decide)
  · rw [hheap] at hq
    exact absurd hq List.not_mem_nil

/-! The timer of a socket. -/

lemma Traffic.Steps.calls {a b : Traffic} (hg : ¬g.expire) (h : Steps g a b) {r : Timer}
    (hr : r.alarm=a.alarm) :
    ∃ r', Relation.ReflTransGen Timer.Call r r' ∧ r'.alarm=b.alarm := by
  induction h with
  | refl => exact ⟨r,.refl,hr⟩
  | @tail b c _ hstep ih =>
    obtain ⟨r',hcalls,hr'⟩ := ih
    cases hstep with
    | alarm c calls =>
      obtain ⟨r'',hcalls',hr''⟩ := calls r' hr'
      exact ⟨r'',hcalls.trans hcalls',hr''⟩
    | expire c allowed => exact absurd allowed hg
    | _ => exact ⟨r',hcalls,hr'⟩

lemma Timer.Reached.calls {r r' : Timer} (h : r.Reached)
    (hc : Relation.ReflTransGen Timer.Call r r') : r'.Reached := by
  induction hc with
  | refl => exact h
  | tail _ hstep ih => exact ih.step (.call hstep)

/-- Every step but an expiration is allowed. -/
def timed : Guard := ⟨fun _ _ ↦ True,fun _ _ _ ↦ True,False,True⟩

lemma admits_timed (t : Endpoint) {e : Event} (he : e ≠ .retransmitTimer) : timed.admits t e := by
  cases e with
  | packet p => exact fun _ ↦ ⟨fun _ _ ↦ trivial,fun _ _ ↦ trivial,fun _ ↦ trivial⟩
  | retransmitTimer => exact absurd rfl he
  | _ => trivial

/-- The sockets of runs in which no scheduled event of the timer is passed over, and each fires at
its time. -/
inductive Punctual : Endpoint → Prop
  | client (env : Env) (receiveBufferSize sendBufferSize now : ℕ) (takes : List ℕ) :
      Punctual ((new env receiveBufferSize sendBufferSize).atTime now takes)
  | child (env : Env) (receiveBufferSize sendBufferSize now : ℕ) (takes : List ℕ) (p : Packet) :
      Punctual (newChild env receiveBufferSize sendBufferSize now takes p)
  | step {t : Endpoint} (h : Punctual t) (e : Occurrence) (later : t.now ≤ e.now)
      (before : ∀ n ∈ t.retransmit.scheduledTimerExpirations.heap, e.now ≤ n)
      (due : e.event=.retransmitTimer → e.now ∈ t.retransmit.scheduledTimerExpirations.heap) :
      Punctual (t.occur e).2

/-- The timer of every such socket is one that the timer model reaches. -/
theorem Punctual.timer (h : Punctual t) : ∃ r : Timer, r.Reached ∧ r.alarm=t.alarm := by
  have hquiet : ¬timed.expire := id
  induction h with
  | client env r s now takes => exact ⟨Timer.new now,.new now,rfl⟩
  | child env r s now takes p =>
    have hsteps : Steps timed ((new env r s).atTime now takes).traffic
        (newChild env r s now takes p).traffic := by
      refine Steps.trans ?_ (steps_processSwitched _ p (fun _ _ ↦ trivial) fun _ ↦ trivial)
      refine Steps.trans ?_ (steps_setState _ .synReceived)
      exact steps_startReceive _ p trivial
    obtain ⟨r',hcalls,hr'⟩ := hsteps.calls hquiet (r := Timer.new now) rfl
    exact ⟨r',(Timer.Reached.new now).calls hcalls,hr'⟩
  | @step t _ e later before due ih =>
    obtain ⟨r,hreached,hr⟩ := ih
    have hpending : ∀ n, n ∈ r.pending ↔ n ∈ t.retransmit.scheduledTimerExpirations.heap := by
      intro n
      rw [← hreached.kept.mem_heap,hr]
      rfl
    have hnow : r.alarm.now=t.now := by
      rw [hr]
      rfl
    have hat := hreached.step (.advance r e.now (hnow ▸ later)
      fun n hn ↦ before n ((hpending n).mp hn))
    have hat' : ({r with alarm := {r.alarm with now := e.now}} : Timer).alarm=
        (t.atTime e.now e.takes).alarm := by
      dsimp only
      rw [hr]
      rfl
    by_cases he : e.event=.retransmitTimer
    · have hfire := hat.step (.fire _ (t.atTime e.now e.takes).isIdle ((hpending _).mpr (due he)))
      have hsteps := steps_runRetransmitTimerExpiredTask (g := timed) _ hat'
      obtain ⟨r',hcalls,hr'⟩ := hsteps.calls hquiet rfl
      refine ⟨r',hfire.calls hcalls,?_⟩
      unfold occur
      rw [he]
      exact hr'
    · obtain ⟨r',hcalls,hr'⟩ := (steps_handle e.event (admits_timed _ he)).calls hquiet hat'
      exact ⟨r',hat.calls hcalls,hr'⟩

/-- A socket whose timer is on has an event of the timer that comes no later. -/
theorem Punctual.covered (h : Punctual t) (hon : t.retransmit.desiredTimerExpiration ≠ 0) :
    ∃ n ∈ t.retransmit.scheduledTimerExpirations.heap,
      t.now ≤ n ∧ n ≤ t.retransmit.desiredTimerExpiration := by
  obtain ⟨r,hreached,hr⟩ := h.timer
  have hk := hreached.kept
  have hdesired : r.alarm.desiredTimerExpiration=t.retransmit.desiredTimerExpiration := by
    rw [hr]
    rfl
  obtain ⟨n,hn,hle⟩ := hk.covered (hdesired ▸ hon)
  have hnow := hk.now_le n hn
  have hmem := hk.mem_heap.mpr hn
  rw [hr] at hnow hmem hle
  exact ⟨n,hmem,hnow,hle⟩

end Tcp
end Phantom
