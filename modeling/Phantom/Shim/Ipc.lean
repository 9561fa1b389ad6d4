import Mathlib.Data.List.Basic
import Mathlib.Order.Nat
import Mathlib.Tactic.Common

/-! The message slots between Shadow and a thread of the plugin, `ipc.cc`. Each access to a slot, to
a semaphore or to the flag is one step; the watcher thread may mark the plugin as exited at any
moment. -/
namespace Phantom.Shim.Ipc

variable {α : Type}

/-- The shared block: a slot and a counting semaphore for each direction. -/
structure IPCData (α : Type) where
  pluginToShadow : α
  shadowToPlugin : α
  xferCtrlToPlugin : ℕ
  xferCtrlToShadow : ℕ
  pluginDied : Bool

/-- What the Shadow thread does next: write the slot, post, wait, load the flag or copy the slot.
It sends nothing after `SHD_SHIM_EVENT_STOP`. -/
inductive Shadow (α : Type) where
  | send
  | post (e : α)
  | wait
  | load
  | copy
  | stopped

/-- What the thread of the plugin does next. -/
inductive Plugin (α : Type) where
  | wait
  | copy
  | send
  | post (e : α)

/-- The watcher thread before, within and after `ipcData_markPluginExited`. -/
inductive Watcher where
  | watching
  | stored
  | marked
  deriving DecidableEq

/-- The block and its threads, with the events that each side has sent and has received so far.
An entry `none` is `SHD_SHIM_EVENT_STOP`. -/
structure System (α : Type) where
  ipc : IPCData α
  shadow : Shadow α
  plugin : Plugin α
  watcher : Watcher
  shadowSent : List α
  pluginSent : List α
  pluginGot : List α
  shadowGot : List (Option α)

/-- A step of one of the threads. A `Try` is a failed attempt, while spinning or in a call that does
not block. -/
inductive Action (α : Type) where
  | shadowSend (e : α)
  | shadowPost
  | shadowTry
  | shadowWait
  | shadowLoad
  | shadowCopy
  | pluginTry
  | pluginWait
  | pluginCopy
  | pluginSend (e : α)
  | pluginPost
  | markStore
  | markPost

namespace System

/-- `ipcData_init`, in memory with any contents: Shadow is to send the first event. -/
def init (x y : α) : System α := ⟨⟨x,y,0,0,false⟩,.send,.wait,.watching,[],[],[],[]⟩

/-- The state after a step, if the thread can make it. -/
def step (s : System α) : Action α → Option (System α)
  | .shadowSend e =>
    match s.shadow with
    | .send => some {s with ipc := {s.ipc with shadowToPlugin := e}, shadow := .post e}
    | _ => none
  | .shadowPost =>
    match s.shadow with
    | .post e => some {s with
        ipc := {s.ipc with xferCtrlToPlugin := s.ipc.xferCtrlToPlugin+1}
        shadow := .wait
        shadowSent := s.shadowSent++[e]}
    | _ => none
  | .shadowTry =>
    match s.shadow with
    | .wait => if s.ipc.xferCtrlToShadow=0 then some s else none
    | _ => none
  | .shadowWait =>
    match s.shadow with
    | .wait =>
      if s.ipc.xferCtrlToShadow=0 then none
      else some {s with
        ipc := {s.ipc with xferCtrlToShadow := s.ipc.xferCtrlToShadow-1}
        shadow := .load}
    | _ => none
  | .shadowLoad =>
    match s.shadow with
    | .load =>
      if s.ipc.pluginDied then some {s with shadow := .stopped, shadowGot := s.shadowGot++[none]}
      else some {s with shadow := .copy}
    | _ => none
  | .shadowCopy =>
    match s.shadow with
    | .copy => some {s with
        shadow := .send
        shadowGot := s.shadowGot++[some s.ipc.pluginToShadow]}
    | _ => none
  | .pluginTry =>
    match s.plugin with
    | .wait => if s.ipc.xferCtrlToPlugin=0 then some s else none
    | _ => none
  | .pluginWait =>
    match s.plugin with
    | .wait =>
      if s.ipc.xferCtrlToPlugin=0 then none
      else some {s with
        ipc := {s.ipc with xferCtrlToPlugin := s.ipc.xferCtrlToPlugin-1}
        plugin := .copy}
    | _ => none
  | .pluginCopy =>
    match s.plugin with
    | .copy => some {s with plugin := .send, pluginGot := s.pluginGot++[s.ipc.shadowToPlugin]}
    | _ => none
  | .pluginSend e =>
    match s.plugin with
    | .send => some {s with ipc := {s.ipc with pluginToShadow := e}, plugin := .post e}
    | _ => none
  | .pluginPost =>
    match s.plugin with
    | .post e => some {s with
        ipc := {s.ipc with xferCtrlToShadow := s.ipc.xferCtrlToShadow+1}
        plugin := .wait
        pluginSent := s.pluginSent++[e]}
    | _ => none
  | .markStore =>
    match s.watcher with
    | .watching => some {s with ipc := {s.ipc with pluginDied := true}, watcher := .stored}
    | _ => none
  | .markPost =>
    match s.watcher with
    | .stored => some {s with
        ipc := {s.ipc with xferCtrlToShadow := s.ipc.xferCtrlToShadow+1}
        watcher := .marked}
    | _ => none

def runs (s : System α) : List (Action α) → Option (System α)
  | [] => some s
  | a::as => (s.step a).bind fun s' ↦ s'.runs as

/-- The events that Shadow has received from the plugin. -/
def shadowEvents (s : System α) : List α := s.shadowGot.filterMap id

/-- The received events are the sent ones, in order and each one once; a slot is written only when
everything sent through it has been received, and an event that was sent does not leave its receiver
waiting. -/
structure Sound (s : System α) : Prop where
  plugin_receives : s.pluginGot <+: s.shadowSent
  shadow_receives : s.shadowEvents <+: s.pluginSent
  shadow_writes : s.shadow=.send → s.pluginGot=s.shadowSent
  plugin_writes : s.plugin=.send → s.shadowEvents=s.pluginSent
  plugin_waits : s.plugin=.wait → s.pluginGot ≠ s.shadowSent → 0<s.ipc.xferCtrlToPlugin
  shadow_waits : s.shadow=.wait → s.shadowEvents ≠ s.pluginSent → 0<s.ipc.xferCtrlToShadow

/-- Shadow does not block, and its next receive, or the one after an event that it is already
copying, returns `SHD_SHIM_EVENT_STOP`. -/
structure StopsNext (s : System α) : Prop where
  enabled : s.shadow=.wait → 0<s.ipc.xferCtrlToShadow
  receives : ∀ (as : List (Action α)) (s' : System α), s.runs as=some s' →
    s'.shadowGot=s.shadowGot ∨ s'.shadowGot=s.shadowGot++[none] ∨
      s.shadow=.copy ∧ ∃ e, s'.shadowGot=s.shadowGot++[some e] ∨
        s'.shadowGot=s.shadowGot++[some e,none]

end System

/-- The states that the threads reach from a fresh block. -/
inductive Reached (x y : α) : System α → Prop
  | init : Reached x y (.init x y)
  | step {s s' : System α} (h : Reached x y s) (a : Action α) (hs : s.step a=some s') :
      Reached x y s'

/-- The thread has the turn: it is between a receive and the post of its next event. -/
def Shadow.sends : Shadow α → ℕ
  | .send | .post _ => 1
  | _ => 0

/-- The thread has passed its wait and has not received, or it has received the stop. -/
def Shadow.took : Shadow α → ℕ
  | .load | .copy | .stopped => 1
  | _ => 0

def Plugin.sends : Plugin α → ℕ
  | .send | .post _ => 1
  | _ => 0

def Plugin.took : Plugin α → ℕ
  | .copy => 1
  | _ => 0

/-- The posts of the watcher. -/
def Watcher.posts : Watcher → ℕ
  | .marked => 1
  | _ => 0

namespace System

/-- The turn is at one place: with a thread, or in a slot as an event that is posted and not yet
received. The lists are what Shadow has received and what is posted in each direction. -/
structure Turn (s : System α) (got toShadow toPlugin : List α) : Prop where
  plugin_sent : s.pluginSent=got++toShadow
  shadow_sent : s.shadowSent=s.pluginGot++toPlugin
  one : s.shadow.sends+s.plugin.sends+toShadow.length+toPlugin.length=1
  to_plugin : s.ipc.xferCtrlToPlugin+s.plugin.took=toPlugin.length
  to_shadow : s.ipc.xferCtrlToShadow+s.shadow.took=toShadow.length+s.watcher.posts
  in_pluginToShadow : ∀ e ∈ toShadow, s.ipc.pluginToShadow=e
  in_shadowToPlugin : ∀ e ∈ toPlugin, s.ipc.shadowToPlugin=e
  shadow_post : ∀ e, s.shadow=.post e → s.ipc.shadowToPlugin=e
  plugin_post : ∀ e, s.plugin=.post e → s.ipc.pluginToShadow=e
  died : s.ipc.pluginDied=true ↔ s.watcher ≠ .watching
  copies : s.shadow=.copy → toShadow.length=1
  received : s.shadow ≠ .stopped ∧ s.shadowGot=got.map some ∨
    s.shadow=.stopped ∧ s.shadowGot=got.map some++[none]

variable {s s' : System α} {got toShadow toPlugin : List α}

lemma turn_init (x y : α) : Turn (init x y) [] [] [] where
  plugin_sent := rfl
  shadow_sent := rfl
  one := rfl
  to_plugin := rfl
  to_shadow := rfl
  in_pluginToShadow _ he := absurd he List.not_mem_nil
  in_shadowToPlugin _ he := absurd he List.not_mem_nil
  shadow_post _ he := nomatch he
  plugin_post _ he := nomatch he
  died := by simp [init]
  copies he := nomatch he
  received := Or.inl ⟨nofun,rfl⟩

lemma Turn.not_stopped (h : Turn s got toShadow toPlugin) (hne : s.shadow ≠ .stopped) :
    s.shadowGot=got.map some := by
  rcases h.received with hr | hr
  · exact hr.2
  · exact absurd hr.1 hne

lemma Turn.of_shadow_sends (h : Turn s got toShadow toPlugin) (hs : s.shadow.sends=1) :
    s.plugin.sends=0 ∧ toShadow=[] ∧ toPlugin=[] := by
  have := h.one
  refine ⟨by omega,List.eq_nil_of_length_eq_zero (by omega),
    List.eq_nil_of_length_eq_zero (by omega)⟩

lemma Turn.of_plugin_sends (h : Turn s got toShadow toPlugin) (hs : s.plugin.sends=1) :
    s.shadow.sends=0 ∧ toShadow=[] ∧ toPlugin=[] := by
  have := h.one
  refine ⟨by omega,List.eq_nil_of_length_eq_zero (by omega),
    List.eq_nil_of_length_eq_zero (by omega)⟩

lemma Turn.shadowSend (h : Turn s got toShadow toPlugin) (hs : s.shadow=.send) (e : α) :
    Turn {s with ipc := {s.ipc with shadowToPlugin := e}, shadow := .post e} got toShadow
      toPlugin := by
  obtain ⟨-,rfl,rfl⟩ := h.of_shadow_sends (by rw [hs]; rfl)
  have hone := h.one
  have hto := h.to_shadow
  rw [hs] at hone hto
  exact {h with
    one := hone
    to_shadow := hto
    in_shadowToPlugin := fun _ he ↦ absurd he List.not_mem_nil
    shadow_post := fun x hx ↦ Shadow.post.inj hx
    copies := nofun
    received := Or.inl ⟨nofun,h.not_stopped (by rw [hs]; nofun)⟩}

lemma Turn.shadowPost (h : Turn s got toShadow toPlugin) {e : α} (hs : s.shadow=.post e) :
    Turn {s with
      ipc := {s.ipc with xferCtrlToPlugin := s.ipc.xferCtrlToPlugin+1}
      shadow := .wait
      shadowSent := s.shadowSent++[e]} got toShadow [e] := by
  obtain ⟨hp,rfl,rfl⟩ := h.of_shadow_sends (by rw [hs]; rfl)
  have hone := h.one
  have hto := h.to_shadow
  have hplugin := h.to_plugin
  rw [hs] at hto
  exact {h with
    shadow_sent := by
      rw [h.shadow_sent,List.append_nil]
    one := by
      change 0+s.plugin.sends+0+1=1
      omega
    to_plugin := by
      change s.ipc.xferCtrlToPlugin+1+s.plugin.took=1
      rw [List.length_nil] at hplugin
      omega
    to_shadow := hto
    in_shadowToPlugin := fun x hx ↦ by
      rw [List.mem_singleton.mp hx]
      exact h.shadow_post e hs
    shadow_post := nofun
    copies := nofun
    received := Or.inl ⟨nofun,h.not_stopped (by rw [hs]; nofun)⟩}

lemma Turn.shadowWait (h : Turn s got toShadow toPlugin) (hs : s.shadow=.wait)
    (hpos : s.ipc.xferCtrlToShadow ≠ 0) :
    Turn {s with
      ipc := {s.ipc with xferCtrlToShadow := s.ipc.xferCtrlToShadow-1}
      shadow := .load} got toShadow toPlugin := by
  have hone := h.one
  have hto := h.to_shadow
  rw [hs] at hone hto
  exact {h with
    one := hone
    to_shadow := by
      change s.ipc.xferCtrlToShadow-1+1=_+s.watcher.posts
      change s.ipc.xferCtrlToShadow+0=_ at hto
      omega
    shadow_post := nofun
    copies := nofun
    received := Or.inl ⟨nofun,h.not_stopped (by rw [hs]; nofun)⟩}

lemma Turn.shadowStop (h : Turn s got toShadow toPlugin) (hs : s.shadow=.load) :
    Turn {s with shadow := .stopped, shadowGot := s.shadowGot++[none]} got toShadow toPlugin := by
  have hone := h.one
  have hto := h.to_shadow
  have hgot := h.not_stopped (by rw [hs]; nofun)
  rw [hs] at hone hto
  exact {h with
    one := hone
    to_shadow := hto
    shadow_post := nofun
    copies := nofun
    received := Or.inr ⟨rfl,by rw [hgot]⟩}

/-- The flag is not set: the watcher has not posted, so that the plugin has. -/
lemma Turn.shadowLoad (h : Turn s got toShadow toPlugin) (hs : s.shadow=.load)
    (halive : ¬s.ipc.pluginDied=true) : Turn {s with shadow := .copy} got toShadow toPlugin := by
  have hone := h.one
  have hto := h.to_shadow
  have hwatch : s.watcher=.watching := by
    by_contra hne
    exact halive (h.died.mpr hne)
  rw [hs] at hone hto
  exact {h with
    one := hone
    to_shadow := hto
    shadow_post := nofun
    copies := fun _ ↦ by
      rw [hwatch] at hto
      change s.ipc.xferCtrlToShadow+1=toShadow.length+0 at hto
      omega
    received := Or.inl ⟨nofun,h.not_stopped (by rw [hs]; nofun)⟩}

lemma Turn.shadowCopy (h : Turn s got toShadow toPlugin) (hs : s.shadow=.copy) :
    Turn {s with
      shadow := .send
      shadowGot := s.shadowGot++[some s.ipc.pluginToShadow]} (got++toShadow) [] toPlugin := by
  obtain ⟨e,rfl⟩ := List.length_eq_one_iff.mp (h.copies hs)
  have hslot : s.ipc.pluginToShadow=e := h.in_pluginToShadow e (List.mem_singleton_self e)
  have hone := h.one
  have hto := h.to_shadow
  rw [hs] at hone hto
  change 0+s.plugin.sends+1+_=1 at hone
  exact {h with
    plugin_sent := by rw [h.plugin_sent,List.append_nil]
    one := by
      change 1+s.plugin.sends+0+_=1
      omega
    to_shadow := by
      change s.ipc.xferCtrlToShadow+0=0+s.watcher.posts
      change s.ipc.xferCtrlToShadow+1=1+_ at hto
      omega
    in_pluginToShadow := fun _ he ↦ absurd he List.not_mem_nil
    shadow_post := nofun
    copies := nofun
    received := Or.inl ⟨nofun,by
      rw [h.not_stopped (by rw [hs]; nofun),hslot,List.map_append]
      rfl⟩}

lemma Turn.pluginWait (h : Turn s got toShadow toPlugin) (hs : s.plugin=.wait)
    (hpos : s.ipc.xferCtrlToPlugin ≠ 0) :
    Turn {s with
      ipc := {s.ipc with xferCtrlToPlugin := s.ipc.xferCtrlToPlugin-1}
      plugin := .copy} got toShadow toPlugin := by
  have hone := h.one
  have hto := h.to_plugin
  rw [hs] at hone hto
  exact {h with
    one := hone
    to_plugin := by
      change s.ipc.xferCtrlToPlugin-1+1=_
      change s.ipc.xferCtrlToPlugin+0=_ at hto
      omega
    plugin_post := nofun}

lemma Turn.pluginCopy (h : Turn s got toShadow toPlugin) (hs : s.plugin=.copy) :
    Turn {s with plugin := .send, pluginGot := s.pluginGot++[s.ipc.shadowToPlugin]} got toShadow
      [] := by
  have hone := h.one
  have hto := h.to_plugin
  rw [hs] at hone hto
  change s.shadow.sends+0+_+_=1 at hone
  change s.ipc.xferCtrlToPlugin+1=_ at hto
  obtain ⟨e,rfl⟩ : ∃ e, toPlugin=[e] := List.length_eq_one_iff.mp (by omega)
  have hslot : s.ipc.shadowToPlugin=e := h.in_shadowToPlugin e (List.mem_singleton_self e)
  rw [List.length_singleton] at hone hto
  exact {h with
    shadow_sent := by rw [h.shadow_sent,hslot,List.append_nil]
    one := by
      change s.shadow.sends+1+_+0=1
      omega
    to_plugin := by
      change s.ipc.xferCtrlToPlugin+0=0
      omega
    in_shadowToPlugin := fun _ he ↦ absurd he List.not_mem_nil
    plugin_post := nofun}

lemma Turn.pluginSend (h : Turn s got toShadow toPlugin) (hs : s.plugin=.send) (e : α) :
    Turn {s with ipc := {s.ipc with pluginToShadow := e}, plugin := .post e} got toShadow
      toPlugin := by
  obtain ⟨-,rfl,rfl⟩ := h.of_plugin_sends (by rw [hs]; rfl)
  have hone := h.one
  have hto := h.to_plugin
  rw [hs] at hone hto
  exact {h with
    one := hone
    to_plugin := hto
    in_pluginToShadow := fun _ he ↦ absurd he List.not_mem_nil
    plugin_post := fun x hx ↦ Plugin.post.inj hx}

lemma Turn.pluginPost (h : Turn s got toShadow toPlugin) {e : α} (hs : s.plugin=.post e) :
    Turn {s with
      ipc := {s.ipc with xferCtrlToShadow := s.ipc.xferCtrlToShadow+1}
      plugin := .wait
      pluginSent := s.pluginSent++[e]} got [e] toPlugin := by
  obtain ⟨hp,rfl,rfl⟩ := h.of_plugin_sends (by rw [hs]; rfl)
  have hto := h.to_shadow
  have hplugin := h.to_plugin
  rw [hs] at hplugin
  exact {h with
    plugin_sent := by rw [h.plugin_sent,List.append_nil]
    one := by
      change s.shadow.sends+0+1+0=1
      omega
    to_plugin := hplugin
    to_shadow := by
      change s.ipc.xferCtrlToShadow+1+s.shadow.took=1+s.watcher.posts
      change _=0+_ at hto
      omega
    in_pluginToShadow := fun x hx ↦ by
      rw [List.mem_singleton.mp hx]
      exact h.plugin_post e hs
    plugin_post := nofun
    copies := fun _ ↦ rfl}

lemma Turn.markStore (h : Turn s got toShadow toPlugin) (hs : s.watcher=.watching) :
    Turn {s with ipc := {s.ipc with pluginDied := true}, watcher := .stored} got toShadow
      toPlugin := by
  have hto := h.to_shadow
  rw [hs] at hto
  exact {h with
    to_shadow := hto
    died := ⟨fun _ ↦ nofun,fun _ ↦ rfl⟩}

lemma Turn.markPost (h : Turn s got toShadow toPlugin) (hs : s.watcher=.stored) :
    Turn {s with
      ipc := {s.ipc with xferCtrlToShadow := s.ipc.xferCtrlToShadow+1}
      watcher := .marked} got toShadow toPlugin := by
  have hto := h.to_shadow
  have hdied : s.ipc.pluginDied=true := h.died.mpr (by rw [hs]; nofun)
  rw [hs] at hto
  exact {h with
    to_shadow := by
      change s.ipc.xferCtrlToShadow+1+s.shadow.took=toShadow.length+1
      change _=_+0 at hto
      omega
    died := ⟨fun _ ↦ nofun,fun _ ↦ hdied⟩}

lemma Turn.step (h : Turn s got toShadow toPlugin) {a : Action α} (hs : s.step a=some s') :
    ∃ got toShadow toPlugin, Turn s' got toShadow toPlugin := by
  cases a with
  | shadowSend e =>
    rw [System.step] at hs
    split at hs
    · cases hs
      exact ⟨_,_,_,h.shadowSend ‹_› e⟩
    · cases hs
  | shadowPost =>
    rw [System.step] at hs
    split at hs
    · cases hs
      exact ⟨_,_,_,h.shadowPost ‹_›⟩
    · cases hs
  | shadowTry =>
    rw [System.step] at hs
    split at hs
    · split_ifs at hs
      cases hs
      exact ⟨_,_,_,h⟩
    · cases hs
  | shadowWait =>
    rw [System.step] at hs
    split at hs
    · split_ifs at hs with hzero
      cases hs
      exact ⟨_,_,_,h.shadowWait ‹_› hzero⟩
    · cases hs
  | shadowLoad =>
    rw [System.step] at hs
    split at hs
    · split_ifs at hs with hdied
      · cases hs
        exact ⟨_,_,_,h.shadowStop ‹_›⟩
      · cases hs
        exact ⟨_,_,_,h.shadowLoad ‹_› hdied⟩
    · cases hs
  | shadowCopy =>
    rw [System.step] at hs
    split at hs
    · cases hs
      exact ⟨_,_,_,h.shadowCopy ‹_›⟩
    · cases hs
  | pluginTry =>
    rw [System.step] at hs
    split at hs
    · split_ifs at hs
      cases hs
      exact ⟨_,_,_,h⟩
    · cases hs
  | pluginWait =>
    rw [System.step] at hs
    split at hs
    · split_ifs at hs with hzero
      cases hs
      exact ⟨_,_,_,h.pluginWait ‹_› hzero⟩
    · cases hs
  | pluginCopy =>
    rw [System.step] at hs
    split at hs
    · cases hs
      exact ⟨_,_,_,h.pluginCopy ‹_›⟩
    · cases hs
  | pluginSend e =>
    rw [System.step] at hs
    split at hs
    · cases hs
      exact ⟨_,_,_,h.pluginSend ‹_› e⟩
    · cases hs
  | pluginPost =>
    rw [System.step] at hs
    split at hs
    · cases hs
      exact ⟨_,_,_,h.pluginPost ‹_›⟩
    · cases hs
  | markStore =>
    rw [System.step] at hs
    split at hs
    · cases hs
      exact ⟨_,_,_,h.markStore ‹_›⟩
    · cases hs
  | markPost =>
    rw [System.step] at hs
    split at hs
    · cases hs
      exact ⟨_,_,_,h.markPost ‹_›⟩
    · cases hs

lemma Turn.shadowEvents_eq (h : Turn s got toShadow toPlugin) : s.shadowEvents=got := by
  unfold shadowEvents
  rcases h.received with ⟨-,hr⟩ | ⟨-,hr⟩
  · rw [hr,List.filterMap_map]
    exact List.filterMap_some
  · rw [hr,List.filterMap_append,List.filterMap_map]
    exact (List.append_nil _).trans List.filterMap_some

lemma Turn.sound (h : Turn s got toShadow toPlugin) : s.Sound := by
  have hgot := h.shadowEvents_eq
  refine ⟨⟨toPlugin,h.shadow_sent.symm⟩,⟨toShadow,by rw [hgot,h.plugin_sent]⟩,?_,?_,?_,?_⟩
  · intro hs
    obtain ⟨-,-,hnil⟩ := h.of_shadow_sends (by rw [hs]; rfl)
    rw [h.shadow_sent,hnil,List.append_nil]
  · intro hs
    obtain ⟨-,hnil,-⟩ := h.of_plugin_sends (by rw [hs]; rfl)
    rw [hgot,h.plugin_sent,hnil,List.append_nil]
  · intro hs hne
    have hpos : toPlugin ≠ [] := by
      rintro rfl
      exact hne (by rw [h.shadow_sent,List.append_nil])
    have := List.length_pos_of_ne_nil hpos
    have hto := h.to_plugin
    rw [hs] at hto
    change _+0=_ at hto
    omega
  · intro hs hne
    have hpos : toShadow ≠ [] := by
      rintro rfl
      exact hne (by rw [hgot,h.plugin_sent,List.append_nil])
    have := List.length_pos_of_ne_nil hpos
    have hto := h.to_shadow
    rw [hs] at hto
    change _+0=_ at hto
    omega

/-- What a step can do to Shadow once the flag is set: nothing is loaded as alive, and a receive
that ends returns the stop or the event that was being copied. -/
lemma step_of_died (hdied : s.ipc.pluginDied=true) {a : Action α} (hs : s.step a=some s') :
    s'.ipc.pluginDied=true ∧
      (s'.shadowGot=s.shadowGot ∧ (s'.shadow=.copy → s.shadow=.copy) ∧
          (s.shadow=.stopped → s'.shadow=.stopped) ∨
        s.shadow=.load ∧ s'.shadow=.stopped ∧ s'.shadowGot=s.shadowGot++[none] ∨
        s.shadow=.copy ∧ s'.shadow=.send ∧ ∃ e, s'.shadowGot=s.shadowGot++[some e]) := by
  cases a with
  | shadowSend e =>
    rw [System.step] at hs
    split at hs
    · cases hs
      exact ⟨hdied,Or.inl ⟨rfl,nofun,fun h ↦ nomatch ‹s.shadow=.send›.symm.trans h⟩⟩
    · cases hs
  | shadowPost =>
    rw [System.step] at hs
    split at hs
    · cases hs
      exact ⟨hdied,Or.inl ⟨rfl,nofun,fun h ↦ nomatch ‹s.shadow=.post _›.symm.trans h⟩⟩
    · cases hs
  | shadowTry =>
    rw [System.step] at hs
    split at hs
    · split_ifs at hs
      cases hs
      exact ⟨hdied,Or.inl ⟨rfl,id,id⟩⟩
    · cases hs
  | shadowWait =>
    rw [System.step] at hs
    split at hs
    · split_ifs at hs
      cases hs
      exact ⟨hdied,Or.inl ⟨rfl,nofun,fun h ↦ nomatch ‹s.shadow=.wait›.symm.trans h⟩⟩
    · cases hs
  | shadowLoad =>
    rw [System.step] at hs
    split at hs
    · rw [if_pos hdied] at hs
      cases hs
      exact ⟨hdied,Or.inr (Or.inl ⟨‹_›,rfl,rfl⟩)⟩
    · cases hs
  | shadowCopy =>
    rw [System.step] at hs
    split at hs
    · cases hs
      exact ⟨hdied,Or.inr (Or.inr ⟨‹_›,rfl,_,rfl⟩)⟩
    · cases hs
  | pluginTry =>
    rw [System.step] at hs
    split at hs
    · split_ifs at hs
      cases hs
      exact ⟨hdied,Or.inl ⟨rfl,id,id⟩⟩
    · cases hs
  | pluginWait =>
    rw [System.step] at hs
    split at hs
    · split_ifs at hs
      cases hs
      exact ⟨hdied,Or.inl ⟨rfl,id,id⟩⟩
    · cases hs
  | pluginCopy =>
    rw [System.step] at hs
    split at hs
    · cases hs
      exact ⟨hdied,Or.inl ⟨rfl,id,id⟩⟩
    · cases hs
  | pluginSend e =>
    rw [System.step] at hs
    split at hs
    · cases hs
      exact ⟨hdied,Or.inl ⟨rfl,id,id⟩⟩
    · cases hs
  | pluginPost =>
    rw [System.step] at hs
    split at hs
    · cases hs
      exact ⟨hdied,Or.inl ⟨rfl,id,id⟩⟩
    · cases hs
  | markStore =>
    rw [System.step] at hs
    split at hs
    · cases hs
      exact ⟨rfl,Or.inl ⟨rfl,id,id⟩⟩
    · cases hs
  | markPost =>
    rw [System.step] at hs
    split at hs
    · cases hs
      exact ⟨hdied,Or.inl ⟨rfl,id,id⟩⟩
    · cases hs

lemma runs_of_stopped {as : List (Action α)} (hdied : s.ipc.pluginDied=true)
    (hstop : s.shadow=.stopped) (hs : s.runs as=some s') : s'.shadowGot=s.shadowGot := by
  induction as generalizing s with
  | nil =>
    cases hs
    rfl
  | cons a as ih =>
    obtain ⟨s₁,hstep,hrest⟩ := Option.bind_eq_some_iff.mp hs
    obtain ⟨hdied₁,⟨hgot,-,hstill⟩ | ⟨hload,-⟩ | ⟨hcopy,-⟩⟩ := step_of_died hdied hstep
    · rw [ih hdied₁ (hstill hstop) hrest,hgot]
    · exact nomatch hload.symm.trans hstop
    · exact nomatch hcopy.symm.trans hstop

lemma runs_of_not_copy {as : List (Action α)} (hdied : s.ipc.pluginDied=true)
    (hcopy : s.shadow ≠ .copy) (hs : s.runs as=some s') :
    s'.shadowGot=s.shadowGot ∨ s'.shadowGot=s.shadowGot++[none] := by
  induction as generalizing s with
  | nil =>
    cases hs
    exact Or.inl rfl
  | cons a as ih =>
    obtain ⟨s₁,hstep,hrest⟩ := Option.bind_eq_some_iff.mp hs
    obtain ⟨hdied₁,⟨hgot,hstill,-⟩ | ⟨-,hstop,hgot⟩ | ⟨hc,-⟩⟩ := step_of_died hdied hstep
    · rw [← hgot]
      exact ih hdied₁ (fun h ↦ hcopy (hstill h)) hrest
    · right
      rw [runs_of_stopped hdied₁ hstop hrest,hgot]
    · exact absurd hc hcopy

lemma runs_of_died {as : List (Action α)} (hdied : s.ipc.pluginDied=true)
    (hs : s.runs as=some s') :
    s'.shadowGot=s.shadowGot ∨ s'.shadowGot=s.shadowGot++[none] ∨
      s.shadow=.copy ∧ ∃ e, s'.shadowGot=s.shadowGot++[some e] ∨
        s'.shadowGot=s.shadowGot++[some e,none] := by
  induction as generalizing s with
  | nil =>
    cases hs
    exact Or.inl rfl
  | cons a as ih =>
    obtain ⟨s₁,hstep,hrest⟩ := Option.bind_eq_some_iff.mp hs
    obtain ⟨hdied₁,⟨hgot,hstill,-⟩ | ⟨-,hstop,hgot⟩ | ⟨hc,hsend,e,hgot⟩⟩ := step_of_died hdied hstep
    · rw [← hgot]
      rcases ih hdied₁ hrest with h | h | ⟨hcopy,h⟩
      · exact Or.inl h
      · exact Or.inr (Or.inl h)
      · exact Or.inr (Or.inr ⟨hstill hcopy,h⟩)
    · right
      left
      rw [runs_of_stopped hdied₁ hstop hrest,hgot]
    · right
      right
      refine ⟨hc,e,?_⟩
      have hrun := runs_of_not_copy hdied₁ (by rw [hsend]; nofun) hrest
      rw [hgot,List.append_assoc] at hrun
      exact hrun

lemma Turn.stopsNext (h : Turn s got toShadow toPlugin) (hm : s.watcher=.marked) :
    s.StopsNext := by
  refine ⟨fun hs ↦ ?_,fun as s' hruns ↦ runs_of_died (h.died.mpr (by rw [hm]; nofun)) hruns⟩
  have hto := h.to_shadow
  rw [hs,hm] at hto
  change s.ipc.xferCtrlToShadow+0=_+1 at hto
  omega

end System

variable {x y : α} {s : System α}

lemma Reached.turn (h : Reached x y s) : ∃ got toShadow toPlugin, s.Turn got toShadow toPlugin := by
  induction h with
  | init => exact ⟨_,_,_,System.turn_init x y⟩
  | step h a hs ih =>
    obtain ⟨got,toShadow,toPlugin,hturn⟩ := ih
    exact hturn.step hs

/-- In every interleaving each receive returns the event of its send and no slot is overwritten
before it was received; once the plugin is marked as exited, Shadow receives the stop. -/
theorem received_once (h : Reached x y s) : s.Sound ∧ (s.watcher=.marked → s.StopsNext) := by
  obtain ⟨got,toShadow,toPlugin,hturn⟩ := h.turn
  exact ⟨hturn.sound,hturn.stopsNext⟩

lemma Reached.runs {s' : System α} (h : Reached x y s) {as : List (Action α)}
    (hs : s.runs as=some s') : Reached x y s' := by
  induction as generalizing s with
  | nil =>
    cases hs
    exact h
  | cons a as ih =>
    obtain ⟨s₁,hstep,hrest⟩ := Option.bind_eq_some_iff.mp hs
    exact ih (h.step a hstep) hrest

/-- The plugin answers and exits; Shadow has not yet received the answer. -/
def exitAfterAnswer : List (Action ℕ) :=
  [.shadowSend 1,.shadowPost,.pluginWait,.pluginCopy,.pluginSend 2,.pluginPost,.markStore,.markPost]

/-- The block with two posts of which one is the watcher's. -/
def answeredAndExited : System ℕ :=
  ⟨⟨2,1,0,2,true⟩,.wait,.wait,.marked,[1],[2],[1],[]⟩

theorem received_exitAfterAnswer : (System.init 0 0).runs exitAfterAnswer=some answeredAndExited ∧
    answeredAndExited.Sound ∧ (answeredAndExited.watcher=.marked → answeredAndExited.StopsNext) := by
  have hruns : (System.init 0 0).runs exitAfterAnswer=some answeredAndExited := rfl
  exact ⟨hruns,received_once (Reached.init.runs hruns)⟩

end Phantom.Shim.Ipc
