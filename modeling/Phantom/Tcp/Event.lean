import Phantom.Tcp.User

/-! The events of one TCP socket: calls of the user, packets, tasks and the interface. -/
namespace Phantom
namespace Tcp

inductive Event
  | connect
  | sendto (data : List UInt8)
  | recvfrom (n : ℕ)
  | shutdown (read write : Bool)
  | close
  | packet (p : Packet)
  | dropPacket
  | pull
  | sendACK
  | windowUpdate
  | retransmitTimer
  | closeTimer

/-- An event with the time at which it happens, and with how many packets the interface takes each
time that the event adds one to the output buffer. -/
structure Occurrence where
  event : Event
  now : ℕ
  takes : List ℕ

namespace Endpoint

/-- The system call, which sends on a connected socket only; the result is the packets that it
created, and the socket. -/
def sendto (t : Endpoint) (data : List UInt8) : List Packet × Endpoint :=
  match t.getConnectionError with
  | (some (.ok ()),t) => ((t.sendUserData data).1,(t.sendUserData data).2.2)
  | (some (.error .eisconn),t) => ((t.sendUserData data).1,(t.sendUserData data).2.2)
  | (_,t) => ([],t)

def handle (t : Endpoint) : Event → List Packet × Endpoint
  | .connect => ([],t.connectToPeer.2)
  | .sendto data => t.sendto data
  | .recvfrom n => ([],(t.receiveUserData n).2)
  | .shutdown read write => ([],(t.shutdown read write).2)
  | .close => ([],t.close)
  | .packet p => ([],t.processPacket p)
  | .dropPacket => ([],t.flush)
  | .pull => ([],t.pullOutPacket)
  | .sendACK => ([],t.sendACKTaskCallback)
  | .windowUpdate => ([],t.sendWindowUpdate)
  | .retransmitTimer => ([],t.runRetransmitTimerExpiredTask)
  | .closeTimer => ([],t.runCloseTimerExpiredTask)

/-- The user and the interface reach a socket until it is deregistered, and a task runs when it has
been scheduled. -/
def enabled (t : Endpoint) : Event → Bool
  | .connect => !t.deregistered
  | .sendto _ => !t.deregistered
  | .recvfrom _ => !t.deregistered
  | .shutdown _ _ => !t.deregistered
  | .close => !t.deregistered
  | .packet _ => !t.deregistered
  | .dropPacket => !t.deregistered
  | .pull => true
  | .sendACK => 0<t.ackTasks
  | .windowUpdate => 0<t.windowUpdateTasks
  | .retransmitTimer => !t.retransmit.scheduledTimerExpirations.heap.isEmpty
  | .closeTimer => 0<t.closeTasks

/-- The surroundings of the socket at an event. -/
def atTime (t : Endpoint) (now : ℕ) (takes : List ℕ) : Endpoint := {t with now := now, takes := takes}

def occur (t : Endpoint) (e : Occurrence) : List Packet × Endpoint :=
  (t.atTime e.now e.takes).handle e.event

/-- The socket that a listening server makes for the peer that has sent a SYN. -/
def newChild (env : Env) (receiveBufferSize sendBufferSize now : ℕ) (takes : List ℕ) (p : Packet) :
    Endpoint :=
  processSwitched
    ⟨((((new env receiveBufferSize sendBufferSize).atTime now takes).startReceive p).setState
      .synReceived),true,.synAck,false⟩ p

end Endpoint

/-- A host without buffer tuning, away from its peer. -/
def plainEnv : Env := ⟨false,false,false,174760,131072,fun _ ↦ 6291456,fun _ ↦ 4194304⟩

open Endpoint

/-- The sockets that runs of allowed events reach, with the data packets created on the way. -/
inductive Reaches (allowed : Endpoint → Event → Prop) : Endpoint → List Packet → Prop
  | client (env : Env) (receiveBufferSize sendBufferSize : ℕ) :
      Reaches allowed (new env receiveBufferSize sendBufferSize) []
  | child (env : Env) (receiveBufferSize sendBufferSize now : ℕ) (takes : List ℕ) (p : Packet)
      (syn : p.flags.syn=true) :
      Reaches allowed (newChild env receiveBufferSize sendBufferSize now takes p) []
  | step {t : Endpoint} {ps : List Packet} (h : Reaches allowed t ps) (e : Occurrence)
      (enabled : t.enabled e.event=true) (ok : allowed t e.event) :
      Reaches allowed (t.occur e).2 (ps++(t.occur e).1)

def Reachable : Endpoint → List Packet → Prop := Reaches fun _ _ ↦ True

/-- A run of events, if each is enabled in its turn. -/
def Endpoint.run (t : Endpoint) (ps : List Packet) : List Occurrence → Option (Endpoint × List Packet)
  | [] => some (t,ps)
  | e::es => if t.enabled e.event then (t.occur e).2.run (ps++(t.occur e).1) es else none

lemma Reachable.run {t t' : Endpoint} {ps ps' : List Packet} (h : Reachable t ps)
    {es : List Occurrence} (hr : t.run ps es=some (t',ps')) : Reachable t' ps' := by
  induction es generalizing t ps with
  | nil =>
    cases hr
    exact h
  | cons e es ih =>
    rw [Endpoint.run] at hr
    split_ifs at hr with he
    exact ih (h.step e he trivial) hr

end Tcp
end Phantom
