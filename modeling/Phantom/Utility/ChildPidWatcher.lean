import Mathlib.Logic.Function.Basic
import Mathlib.Data.List.Nodup
import Mathlib.Tactic.Common

/-! `ChildPidWatcher`: the callbacks that wait for the exit of children, the events and commands that
reach its thread, and the children with their process identifiers. -/
namespace Phantom.Utility

inductive Life where
  | running
  | zombie
  | reaped
  deriving DecidableEq, Repr

/-- A child. After it is reaped, its pid may be that of another one. -/
structure Child where
  pid : ℕ
  life : Life
  deriving DecidableEq, Repr

inductive Command where
  | runCallbacks (pid : ℕ)
  | finish
  deriving DecidableEq, Repr

/-- What has happened to callbacks and children; callbacks are named by their handles. -/
inductive Act where
  | registered (handle child : ℕ)
  | unwatched (handle : ℕ)
  | exited (child : ℕ)
  | ran (handle : ℕ)
  deriving DecidableEq, Repr

/-- The line of `/proc` about a child, besides its pid: its command name, which may be any bytes, the
letter of its state while it is not a zombie, and the fields behind it. -/
structure Stat where
  comm : List UInt8
  state : UInt8
  rest : List UInt8

/-- The watcher and the children. A `pidfd` is the child that it was opened for, and `epoll` watches
exactly these; `events` are the pids that the thread has fetched and not handled. The lock is poisoned
once a call has panicked while it held it. The last act comes first. -/
structure ChildPidWatcher where
  nextHandle : ℕ
  commands : List Command
  pidfds : ℕ → Option ℕ
  callbacks : ℕ → Option (List ℕ)
  notifier : ℕ
  poisoned : Bool
  events : Option (List ℕ)
  done : Bool
  children : ℕ → Child
  spawned : ℕ
  history : List Act

def contains (text pattern : List UInt8) : Bool := text.tails.any pattern.isPrefixOf

/-- The pid in digits, the command name in parentheses, and the state. -/
def statText (c : Child) (stat : Stat) : List UInt8 :=
  (Nat.toDigits 10 c.pid).map Char.toUInt8++[32,40]++stat.comm++[41,32]++
    (if c.life=.zombie then 90 else stat.state)::stat.rest

/-- Looks for `") Z"`. It panics if there is no line any more, as the child has been reaped, or if the
line is not UTF-8. -/
def isZombie (c : Child) (stat : Option Stat) : Option Bool :=
  match stat with
  | none => none
  | some stat =>
    if (ByteArray.mk (statText c stat).toArray).validateUTF8 then
      some (contains (statText c stat) [41,32,90])
    else none

namespace ChildPidWatcher

def new : ChildPidWatcher :=
  ⟨1,[],fun _ ↦ none,fun _ ↦ none,0,false,none,false,fun _ ↦ ⟨0,.reaped⟩,0,[]⟩

def sendCommand (s : ChildPidWatcher) (cmd : Command) : ChildPidWatcher :=
  {s with commands := s.commands++[cmd], notifier := s.notifier+1}

def unwatchPid (s : ChildPidWatcher) (pid : ℕ) : ChildPidWatcher :=
  {s with
    callbacks := Function.update s.callbacks pid none
    pidfds := Function.update s.pidfds pid none}

def runCallbacksForFd (s : ChildPidWatcher) (pid : ℕ) : ChildPidWatcher :=
  match s.callbacks pid with
  | none => s.unwatchPid pid
  | some handles => unwatchPid {s with history := handles.map .ran++s.history} pid

/-- The child has not been reaped. -/
def present (s : ChildPidWatcher) (c : ℕ) : Bool := c<s.spawned && (s.children c).life ≠ .reaped

/-- The child whose pid it is now. -/
def child? (s : ChildPidWatcher) (pid : ℕ) : Option ℕ :=
  (List.range s.spawned).find? fun c ↦ s.present c && (s.children c).pid=pid

def register (s : ChildPidWatcher) (c : ℕ) : ChildPidWatcher :=
  let pid := (s.children c).pid
  {s with
    nextHandle := s.nextHandle+1
    callbacks := Function.update s.callbacks pid
      (some (s.nextHandle::(s.callbacks pid).getD []))
    history := .registered s.nextHandle c::s.history}

def openPidfd (s : ChildPidWatcher) (pid c : ℕ) : ChildPidWatcher :=
  {s with pidfds := Function.update s.pidfds pid (some c)}

/-- Without a `pidfd` for the pid one is opened, which panics if no child has the pid. The callback is
for the child that has it, or else for that of the `pidfd`. -/
def watch (s : ChildPidWatcher) (pid : ℕ) (stat : Option Stat) : ChildPidWatcher :=
  if s.poisoned then s
  else
    match s.pidfds pid,s.child? pid with
    | some c',c => s.register (c.getD c')
    | none,none => {s with poisoned := true}
    | none,some c =>
      match isZombie (s.children c) stat with
      | none => {s.openPidfd pid c with poisoned := true}
      | some true => ((s.openPidfd pid c).sendCommand (.runCallbacks pid)).register c
      | some false => (s.openPidfd pid c).register c

/-- The call was for a callback that is registered for a child of that pid. -/
def isRegistered (s : ChildPidWatcher) (pid handle : ℕ) : Bool :=
  s.history.any fun
    | .registered h c => h=handle && (s.children c).pid=pid
    | _ => false

def removeCallback (s : ChildPidWatcher) (pid handle : ℕ) : ChildPidWatcher :=
  match s.callbacks pid with
  | none => s
  | some handles =>
    if (handles.erase handle).isEmpty then s.unwatchPid pid
    else {s with callbacks := Function.update s.callbacks pid (some (handles.erase handle))}

def unwatch (s : ChildPidWatcher) (pid handle : ℕ) : ChildPidWatcher :=
  if s.poisoned then s
  else
    let s' := s.removeCallback pid handle
    if s.isRegistered pid handle then {s' with history := .unwatched handle::s.history} else s'

def drop (s : ChildPidWatcher) : ChildPidWatcher :=
  if s.poisoned then s else s.sendCommand .finish

/-- What `epoll_wait` can report: the notifier, whose data is 0, and the children that have exited,
by their pids. -/
def ready (s : ChildPidWatcher) (pid : ℕ) : Bool :=
  pid=0 && 0<s.notifier || match s.pidfds pid with
    | none => false
    | some c => (s.children c).life ≠ .running

/-- `epoll_wait` returns. -/
def fetch (s : ChildPidWatcher) (pids : List ℕ) : ChildPidWatcher :=
  if s.events=none ∧ s.done=false ∧ pids ≠ [] ∧ pids.length ≤ 10 ∧ pids.Nodup ∧
    ∀ pid ∈ pids, s.ready pid=true
  then {s with events := some pids} else s

def runCommands : List Command → ChildPidWatcher → ChildPidWatcher
  | [],s => s
  | .runCallbacks pid::cmds,s => runCommands cmds (s.runCallbacksForFd pid)
  | .finish::_,s => {s with done := true}

/-- The rest of the turn of the loop, under the lock; the thread panics if that is poisoned. -/
def handle (s : ChildPidWatcher) : ChildPidWatcher :=
  match s.events with
  | none => s
  | some pids =>
    if s.poisoned then {s with events := none, done := true}
    else
      let s := pids.foldl runCallbacksForFd s
      runCommands s.commands {s with events := none, notifier := 0, commands := []}

/-- A new child. Its pid is none that another child has which is not reaped. -/
def spawn (s : ChildPidWatcher) (pid : ℕ) : ChildPidWatcher :=
  if 0<pid ∧ ∀ c<s.spawned, s.present c=true → (s.children c).pid ≠ pid then
    {s with
      children := Function.update s.children s.spawned ⟨pid,.running⟩
      spawned := s.spawned+1}
  else s

def setLife (s : ChildPidWatcher) (c : ℕ) (life : Life) : ChildPidWatcher :=
  {s with children := Function.update s.children c {s.children c with life := life}}

def exit (s : ChildPidWatcher) (c : ℕ) : ChildPidWatcher :=
  if c<s.spawned ∧ (s.children c).life=.running then
    {s.setLife c .zombie with history := .exited c::s.history}
  else s

def reap (s : ChildPidWatcher) (c : ℕ) : ChildPidWatcher :=
  if c<s.spawned ∧ (s.children c).life=.zombie then s.setLife c .reaped else s

inductive Event where
  | watch (pid : ℕ) (stat : Option Stat)
  | unwatch (pid handle : ℕ)
  | drop
  | fetch (pids : List ℕ)
  | handle
  | spawn (pid : ℕ)
  | exit (c : ℕ)
  | reap (c : ℕ)

def step (s : ChildPidWatcher) : Event → ChildPidWatcher
  | .watch pid stat => s.watch pid stat
  | .unwatch pid handle => s.unwatch pid handle
  | .drop => s.drop
  | .fetch pids => s.fetch pids
  | .handle => s.handle
  | .spawn pid => s.spawn pid
  | .exit c => s.exit c
  | .reap c => s.reap c

/-- The states before, between and after the events. -/
def states (s : ChildPidWatcher) : List Event → List ChildPidWatcher
  | [] => [s]
  | e::es => s::(s.step e).states es

/-- Each run of a callback comes after the exit of its child, and neither after another run of it nor
after `unwatch` for it. -/
def Sound : List Act → Prop
  | [] => True
  | .ran handle::older =>
    (∃ c, .registered handle c ∈ older ∧ .exited c ∈ older) ∧ .unwatched handle ∉ older ∧
      .ran handle ∉ older ∧ Sound older
  | _::older => Sound older

/-- Once the child has exited, its pid is reported, and a turn that is told of it runs the callback. -/
def Due (s : ChildPidWatcher) (handle c : ℕ) : Prop :=
  ((s.children c).life ≠ .running → s.ready (s.children c).pid=true) ∧
    ∀ pids, (s.children c).pid ∈ pids →
      .ran handle ∈ (ChildPidWatcher.handle {s with events := some pids}).history

/-- The callbacks run as they should, and each that has neither run nor been unwatched is due. -/
structure ExactlyOnce (s : ChildPidWatcher) : Prop where
  sound : Sound s.history
  due : ∀ handle c, .registered handle c ∈ s.history →
    .ran handle ∈ s.history ∨ .unwatched handle ∈ s.history ∨ s.Due handle c

/-- What a call of `watch` may find, by the `pidfd` and the child of the pid: a child that is alive has
the `pidfd`, or there is none, its line of `/proc` does not look like that of a zombie, and no event or
command for the pid is still to be handled. There is a child or a `pidfd`, and the line can be read if
it is needed. -/
def Watchable (s : ChildPidWatcher) (pid : ℕ) (stat : Option Stat) : Option ℕ → Option ℕ → Prop
  | none,none => False
  | some _,none => True
  | some c',some c => (s.children c).life=.running → c=c'
  | none,some c => (isZombie (s.children c) stat).isSome=true ∧ ((s.children c).life=.running →
      isZombie (s.children c) stat=some false ∧ pid ∉ s.events.getD [] ∧
        .runCallbacks pid ∉ s.commands)

instance (s : ChildPidWatcher) (pid : ℕ) (stat : Option Stat) :
    (fd c : Option ℕ) → Decidable (s.Watchable pid stat fd c)
  | none,none => inferInstanceAs (Decidable False)
  | some _,none => inferInstanceAs (Decidable True)
  | some _,some _ => inferInstanceAs (Decidable (_ → _))
  | none,some _ => inferInstanceAs (Decidable (_ ∧ (_ → _)))

def Orderly (s : ChildPidWatcher) : Event → Prop
  | .watch pid stat => s.Watchable pid stat (s.pidfds pid) (s.child? pid)
  | _ => True

instance (s : ChildPidWatcher) : (e : Event) → Decidable (s.Orderly e)
  | .watch _ _ => inferInstanceAs (Decidable (s.Watchable _ _ _ _))
  | .unwatch _ _ => inferInstanceAs (Decidable True)
  | .drop => inferInstanceAs (Decidable True)
  | .fetch _ => inferInstanceAs (Decidable True)
  | .handle => inferInstanceAs (Decidable True)
  | .spawn _ => inferInstanceAs (Decidable True)
  | .exit _ => inferInstanceAs (Decidable True)
  | .reap _ => inferInstanceAs (Decidable True)

/-- Every event of the run meets the condition in the state before it. -/
def Along (P : ChildPidWatcher → Event → Prop) (s : ChildPidWatcher) : List Event → Prop
  | [] => True
  | e::es => P s e ∧ (s.step e).Along P es

instance instDecidableAlong (P : ChildPidWatcher → Event → Prop) [∀ s e, Decidable (P s e)] :
    (s : ChildPidWatcher) → (es : List Event) → Decidable (s.Along P es)
  | _,[] => inferInstanceAs (Decidable True)
  | s,e::es =>
    have := instDecidableAlong P (s.step e) es
    inferInstanceAs (Decidable (_ ∧ _))

end ChildPidWatcher

end Phantom.Utility
