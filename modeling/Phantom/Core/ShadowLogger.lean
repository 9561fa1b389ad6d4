import Mathlib.Logic.Function.Basic
import Mathlib.Data.List.DropRight
import Mathlib.Tactic.Common

/-! The logger: threads push records into a bounded queue and send flush commands through a channel, one
thread takes commands and writes records. -/
namespace Phantom

def asyncFlushQdLinesThreshold : ℕ := 100000

def syncFlushQdLinesThreshold : ℕ := 10*asyncFlushQdLinesThreshold

/-- The capacity of a `BufWriter`. -/
def bufWriterCapacity : ℕ := 8192

abbrev Bytes := List UInt8

/-- `ShadowLogRecord`: whether its level is `Error`, and its text, in the pieces in which it is written. -/
structure ShadowLogRecord where
  isError : Bool
  pieces : List Bytes
  deriving DecidableEq, Repr

def ShadowLogRecord.text (r : ShadowLogRecord) : Bytes := r.pieces.flatten

/-- Where a logging thread is. A synchronous flush is part of `log`, which may have to push its record
again, or the end of a call. -/
inductive LoggingThread where
  | idle
  | pushing (r : ShadowLogRecord)
  | pushed (r : ShadowLogRecord)
  | sendingAsync
  | sendingSync (retry : Option ShadowLogRecord)
  | waiting (retry : Option ShadowLogRecord)
  deriving DecidableEq, Repr

/-- Where the logger's thread is. From the snapshot of the queue's length on it owns a `BufWriter`. -/
inductive LoggerPhase (τ : Type) where
  | receiving
  | received (doneSender : Option τ)
  | flushing (toflush : ℕ) (pending : List Bytes) (doneSender : Option τ) (buffer : Bytes)
  | notified (doneSender : Option τ) (buffer : Bytes)
  deriving DecidableEq, Repr

/-- The state. A thread's channel of a synchronous flush holds a notification or not. The records that
were pushed are kept, each with its thread, and those that the flush in progress has taken. -/
structure ShadowLogger (τ : Type) where
  records : List (τ × ShadowLogRecord)
  commands : List (Option τ)
  bufferingEnabled : Bool
  threads : τ → LoggingThread
  done : τ → Bool
  phase : LoggerPhase τ
  stdout : Bytes
  pushed : List (τ × ShadowLogRecord)
  flushed : List (τ × ShadowLogRecord)

/-- A piece handed to a `BufWriter`: the new contents of the buffer and what goes to stdout. -/
def bufWrite (buffer piece : Bytes) : Bytes × Bytes :=
  let (kept,out) := if bufWriterCapacity < buffer.length+piece.length then ([],buffer) else (buffer,[])
  if bufWriterCapacity ≤ piece.length then (kept,out++piece) else (kept++piece,out)

/-- What a `BufWriter` holds after more pieces. -/
def holds (buffer : Bytes) (pieces : List Bytes) : Bytes :=
  pieces.foldl (fun buffer piece ↦ (bufWrite buffer piece).1) buffer

/-- The steps of the threads, and those of the logger's thread. -/
inductive LoggerAction (τ : Type) where
  | log (t : τ) (r : ShadowLogRecord)
  | flush (t : τ)
  | push (t : τ)
  | afterPush (t : τ)
  | sendCommand (t : τ)
  | recvDone (t : τ)
  | setBufferingEnabled (b : Bool)
  | recvCommand
  | timeout
  | snapshot
  | pop
  | write
  | notify
  | release
  deriving DecidableEq, Repr

namespace ShadowLogger

variable {τ : Type} [DecidableEq τ]

def init (bufferingEnabled : Bool) : ShadowLogger τ :=
  { records := []
    commands := []
    bufferingEnabled := bufferingEnabled
    threads := fun _ ↦ .idle
    done := fun _ ↦ false
    phase := .receiving
    stdout := []
    pushed := []
    flushed := [] }

def setThread (s : ShadowLogger τ) (t : τ) (x : LoggingThread) : ShadowLogger τ :=
  {s with threads := Function.update s.threads t x}

/-- `log` for a record that is enabled. -/
def log (s : ShadowLogger τ) (t : τ) (r : ShadowLogRecord) : Option (ShadowLogger τ) :=
  match s.threads t with
  | .idle => some (s.setThread t (.pushing r))
  | _ => none

/-- `Log::flush`. -/
def flush (s : ShadowLogger τ) (t : τ) : Option (ShadowLogger τ) :=
  match s.threads t with
  | .idle => some (s.setThread t (.sendingSync none))
  | _ => none

/-- An attempt to push a record. A full queue is flushed first. -/
def push (s : ShadowLogger τ) (t : τ) : Option (ShadowLogger τ) :=
  match s.threads t with
  | .pushing r =>
    if s.records.length < syncFlushQdLinesThreshold then
      some ({s with records := s.records++[(t,r)],pushed := s.pushed++[(t,r)]}.setThread t (.pushed r))
    else some (s.setThread t (.sendingSync (some r)))
  | _ => none

/-- The end of `log`. -/
def afterPush (s : ShadowLogger τ) (t : τ) : Option (ShadowLogger τ) :=
  match s.threads t with
  | .pushed r =>
    if r.isError then some (s.setThread t (.sendingSync none))
    else if asyncFlushQdLinesThreshold < s.records.length ∨ s.bufferingEnabled=false then
      some (s.setThread t .sendingAsync)
    else some (s.setThread t .idle)
  | _ => none

/-- `send_command`. A synchronous flush comes with a new channel. -/
def sendCommand (s : ShadowLogger τ) (t : τ) : Option (ShadowLogger τ) :=
  match s.threads t with
  | .sendingAsync => some ({s with commands := s.commands++[none]}.setThread t .idle)
  | .sendingSync retry =>
    some ({s with commands := s.commands++[some t],done := Function.update s.done t false}.setThread t
      (.waiting retry))
  | _ => none

/-- The end of `flush_sync`. -/
def recvDone (s : ShadowLogger τ) (t : τ) : Option (ShadowLogger τ) :=
  match s.threads t with
  | .waiting retry =>
    if s.done t then
      some ({s with done := Function.update s.done t false}.setThread t
        (match retry with
          | some r => .pushing r
          | none => .idle))
    else none
  | _ => none

/-- `recv_timeout` gets a command. -/
def recvCommand (s : ShadowLogger τ) : Option (ShadowLogger τ) :=
  match s.phase,s.commands with
  | .receiving,c::cs => some {s with commands := cs,phase := .received c}
  | _,_ => none

/-- `recv_timeout` times out, which it does without a command only. -/
def timeout (s : ShadowLogger τ) : Option (ShadowLogger τ) :=
  match s.phase,s.commands with
  | .receiving,[] => some {s with phase := .received none}
  | _,_ => none

/-- `flush_records` reads the length of the queue and makes its `BufWriter`. -/
def snapshot (s : ShadowLogger τ) : Option (ShadowLogger τ) :=
  match s.phase with
  | .received doneSender => some {s with phase := .flushing s.records.length [] doneSender []}
  | _ => none

/-- The next record. The loop ends early if there is none. -/
def pop (s : ShadowLogger τ) : Option (ShadowLogger τ) :=
  match s.phase with
  | .flushing (toflush+1) [] doneSender buffer =>
    match s.records with
    | r::rs =>
      some {s with
        records := rs
        phase := .flushing toflush r.2.pieces doneSender buffer
        flushed := s.flushed++[r]}
    | [] => some {s with phase := .flushing 0 [] doneSender buffer}
  | _ => none

def write (s : ShadowLogger τ) : Option (ShadowLogger τ) :=
  match s.phase with
  | .flushing toflush (piece::pending) doneSender buffer =>
    let (buffer,out) := bufWrite buffer piece
    some {s with stdout := s.stdout++out,phase := .flushing toflush pending doneSender buffer}
  | _ => none

/-- After the loop the caller is notified. -/
def notify (s : ShadowLogger τ) : Option (ShadowLogger τ) :=
  match s.phase with
  | .flushing 0 [] doneSender buffer =>
    let done := match doneSender with
      | some t => Function.update s.done t true
      | none => s.done
    some {s with done := done,phase := .notified doneSender buffer}
  | _ => none

/-- `flush_records` returns and drops its `BufWriter`. -/
def release (s : ShadowLogger τ) : Option (ShadowLogger τ) :=
  match s.phase with
  | .notified _ buffer => some {s with stdout := s.stdout++buffer,phase := .receiving,flushed := []}
  | _ => none

def step (s : ShadowLogger τ) : LoggerAction τ → Option (ShadowLogger τ)
  | .log t r => s.log t r
  | .flush t => s.flush t
  | .push t => s.push t
  | .afterPush t => s.afterPush t
  | .sendCommand t => s.sendCommand t
  | .recvDone t => s.recvDone t
  | .setBufferingEnabled b => some {s with bufferingEnabled := b}
  | .recvCommand => s.recvCommand
  | .timeout => s.timeout
  | .snapshot => s.snapshot
  | .pop => s.pop
  | .write => s.write
  | .notify => s.notify
  | .release => s.release

/-- The states of all runs. -/
inductive Reachable : ShadowLogger τ → Prop
  | init (bufferingEnabled : Bool) : Reachable (init bufferingEnabled)
  | step {s s' : ShadowLogger τ} {a : LoggerAction τ} (h : Reachable s) (hs : s.step a=some s') : Reachable s'

/-- Steps of the logger's thread alone. -/
inductive Drains : ShadowLogger τ → ShadowLogger τ → Prop
  | refl (s : ShadowLogger τ) : Drains s s
  | step {s s' s'' : ShadowLogger τ} {a : LoggerAction τ}
      (ha : a ∈ [.recvCommand,.timeout,.snapshot,.pop,.write,.notify,.release]) (hs : s.step a=some s')
      (h : Drains s' s'') : Drains s s''

end ShadowLogger

/-- The text of records. -/
def textOf {τ : Type} (rs : List (τ × ShadowLogRecord)) : Bytes := (rs.map fun r ↦ r.2.text).flatten

namespace ShadowLogger

variable {τ : Type} [DecidableEq τ]

/-- Every record of a thread has reached stdout, with all records queued before it. -/
def LoggedBefore (s : ShadowLogger τ) (t : τ) : Prop :=
  ∀ rs r qs, s.pushed=rs++(t,r)::qs → textOf (rs++[(t,r)]) <+: s.stdout

/-- A thread's synchronous flush can return. -/
def CanReturn (s : ShadowLogger τ) (t : τ) : Prop := (s.recvDone t).isSome

/-- The logger's thread is not between the notification of a thread and the end of that flush. -/
def Released (s : ShadowLogger τ) (t : τ) : Prop := ∀ buffer, s.phase ≠ .notified (some t) buffer

/-- What a `BufWriter` holds that has been given the records. -/
def heldOf (rs : List (τ × ShadowLogRecord)) : Bytes := holds [] (rs.flatMap fun r ↦ r.2.pieces)

/-- Of the records that a flush takes, the `BufWriter` holds nothing when it has been given the last one
of a thread, or the text of those behind does not fit in its capacity as well. -/
def Overflows (rs : List (τ × ShadowLogRecord)) (t : τ) : Prop :=
  let held := heldOf (rs.rdropWhile fun r ↦ r.1 ≠ t)
  held=[] ∨ bufWriterCapacity < held.length+(textOf (rs.rtakeWhile fun r ↦ r.1 ≠ t)).length

end ShadowLogger

end Phantom
