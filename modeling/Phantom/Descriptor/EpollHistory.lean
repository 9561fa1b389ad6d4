import Phantom.Descriptor.EpollInv

/-! Histories of an epoll descriptor, and what the trigger modes promise over them. -/
namespace Phantom.Descriptor.Epoll

/-- An operation with the world it was issued in. -/
structure Moment where
  before : World
  op : World.Op

namespace Moment

def after (m : Moment) : World := m.before.step m.op

/-- A successful `EPOLL_CTL_ADD` of the key. -/
def Adds (k : Key) (m : Moment) : Prop :=
  m.before.lookup k = none ∧ ∃ event, m.op = .add k event

/-- A successful `EPOLL_CTL_ADD` or `EPOLL_CTL_MOD` of the key. -/
def Modifies (k : Key) (m : Moment) : Prop :=
  m.Adds k ∨ (m.before.lookup k ≠ none ∧ ∃ event, m.op = .mod k event)

def Deletes (k : Key) (m : Moment) : Prop := m.op = .del k

/-- A call whose events include the watch's. -/
def Reports (k : Key) (m : Moment) : Prop :=
  ∃ now slots, m.op = .getEvents now slots ∧ k ∈ m.before.reportedKeys slots

def FlipsRead (object : ℕ) (m : Moment) : Prop :=
  (m.after.status object).readable ≠ (m.before.status object).readable

def FlipsWrite (object : ℕ) (m : Moment) : Prop :=
  (m.after.status object).writable ≠ (m.before.status object).writable

/-- The watch is modified or its object changes its readable or writable status. -/
def Changes (k : Key) (m : Moment) : Prop :=
  m.Modifies k ∨ m.FlipsRead k.object ∨ m.FlipsWrite k.object

end Moment

/-- In a past with the latest moment first, a `hit` is more recent than every `stop`. -/
def Since (stop hit : Moment → Prop) : List Moment → Prop
  | [] => False
  | m::past => hit m ∨ (¬stop m ∧ Since stop hit past)

lemma Since.mono {stop stop' hit : Moment → Prop} (hst : ∀ m, stop m → stop' m)
    {past : List Moment} (h : Since stop' hit past) : Since stop hit past := by
  induction past with
  | nil => exact h
  | cons m past ih => exact h.imp id fun h ↦ ⟨fun hm ↦ h.1 (hst m hm),ih h.2⟩

namespace World

/-- A run with its past, the latest moment first. -/
def play (w : World) (ops : List Op) : World × List Moment :=
  ops.foldl (fun s op ↦ (s.1.step op,⟨s.1,op⟩::s.2)) (w,[])

/-- The watch is one-shot and has been reported since it was last added or modified. -/
def Spent (k : Key) (watch : Watch) (past : List Moment) : Prop :=
  watch.event.epollOneShot ∧ Since (Moment.Modifies k) (Moment.Reports k) past

/-- An interesting status of the object holds and has flipped since the watch's last report. -/
def Edge (w : World) (k : Key) (watch : Watch) (past : List Moment) : Prop :=
  ((w.status k.object).readable ∧ watch.event.epollIn ∧
    Since (Moment.Reports k) (Moment.FlipsRead k.object) past) ∨
  ((w.status k.object).writable ∧ watch.event.epollOut ∧
    Since (Moment.Reports k) (Moment.FlipsWrite k.object) past)

/-- What a call with enough slots reports, by the trigger modes of the watches. -/
structure TriggerModes (w : World) (past : List Moment) (slots : ℕ) : Prop where
  level : ∀ k watch, w.lookup k = some watch → ¬watch.event.epollEt →
    (k ∈ w.reportedKeys slots ↔
      (w.status k.object).active ∧ ¬(w.status k.object).closed ∧
        Watch.interested watch.event (w.status k.object) ∧ ¬Spent k watch past)
  oneShot : ∀ k watch, w.lookup k = some watch → watch.event.epollOneShot →
    k ∈ w.reportedKeys slots → ¬Since (Moment.Modifies k) (Moment.Reports k) past
  edgeOnly : ∀ k watch, w.lookup k = some watch → watch.event.epollEt →
    k ∈ w.reportedKeys slots → ¬Since (Moment.Changes k) (Moment.Reports k) past
  edge : ∀ k watch, w.lookup k = some watch → watch.event.epollEt →
    (w.status k.object).active → ¬(w.status k.object).closed → w.Edge k watch past →
    ¬Spent k watch past → k ∈ w.reportedKeys slots
  deleted : ∀ k, Since (Moment.Adds k) (Moment.Deletes k) past → k ∉ w.reportedKeys slots

/-! What one operation does to one watch. -/

/-- The fates of the watch with key `k` in one operation. -/
inductive Fate (m : Moment) (k : Key) (watch' : Watch) : Prop
  | kept (h : m.before.lookup k = some watch') (hm : ¬m.Modifies k) (hr : ¬m.Reports k)
      (hread : ¬m.FlipsRead k.object) (hwrite : ¬m.FlipsWrite k.object)
  | stored (hm : m.Modifies k) (hr : ¬m.Reports k)
      (he : watch'.flags.edgeTriggerReported = false)
      (ho : watch'.flags.oneShotReported = false)
  | updated (watch : Watch) (h : m.before.lookup k = some watch)
      (h' : watch' = watch.updateStatus (m.after.status k.object))
      (hm : ¬m.Modifies k) (hr : ¬m.Reports k)
  | collected (watch : Watch) (now : ℕ) (h : m.before.lookup k = some watch)
      (h' : watch' = watch.collected now) (hr : m.Reports k) (hm : ¬m.Modifies k)
      (hread : ¬m.FlipsRead k.object) (hwrite : ¬m.FlipsWrite k.object)

lemma status_step_of_control (w : World) (op : Op) (h : ∀ o bits b, op ≠ .adjustStatus o bits b) :
    (w.step op).status = w.status := by
  cases op with
  | add k event =>
    simp only [step, controlAdd]
    split
    · rfl
    · rw [descriptorStatusChanged_status]
  | mod k event =>
    simp only [step, controlMod]
    split
    · rfl
    · rw [descriptorStatusChanged_status]
  | del k =>
    simp only [step, controlDel]
    split <;> rfl
  | adjustStatus o bits b => exact absurd rfl (h o bits b)
  | getEvents now slots => rfl

lemma status_step_adjustStatus (w : World) (o : ℕ) (bits : Status) (b : Bool) :
    (w.step (.adjustStatus o bits b)).status =
      Function.update w.status o ((w.status o).adjust bits b) := by
  simp only [step, adjustStatus]
  split_ifs
  · rw [foldl_descriptorStatusChanged_status]
  · rfl

section
variable {w : World} {k : Key} {watch' : Watch}

lemma Fate.of_kept {op : Op} (hop : ∀ o bits b, op ≠ .adjustStatus o bits b)
    (h : w.lookup k = some watch') (hm : ¬Moment.Modifies k ⟨w,op⟩)
    (hr : ¬Moment.Reports k ⟨w,op⟩) : Fate ⟨w,op⟩ k watch' := by
  have hst := status_step_of_control w op hop
  exact .kept h hm hr (by simp [Moment.FlipsRead, Moment.after, hst])
    (by simp [Moment.FlipsWrite, Moment.after, hst])

lemma fate_add (k' : Key) (event : Event)
    (h : (w.step (.add k' event)).lookup k = some watch') : Fate ⟨w,.add k' event⟩ k watch' := by
  have hr : ¬Moment.Reports k ⟨w,.add k' event⟩ := by simp [Moment.Reports]
  simp only [step, controlAdd] at h
  split at h
  · rename_i old hold
    refine .of_kept (by simp) h ?_ hr
    rintro (⟨hnone,event',he⟩ | ⟨_,event',he⟩)
    · cases he
      rw [hold] at hnone
      cases hnone
    · cases he
  · rename_i hnone
    rw [lookup_descriptorStatusChanged, Inv.lookup_insert] at h
    split_ifs at h with hk
    · subst hk
      cases h
      exact .stored (.inl ⟨hnone,event,rfl⟩) hr rfl rfl
    · refine .of_kept (by simp) h ?_ hr
      rintro (⟨_,event',he⟩ | ⟨_,event',he⟩)
      · cases he
        exact hk rfl
      · cases he

lemma fate_mod (k' : Key) (event : Event)
    (h : (w.step (.mod k' event)).lookup k = some watch') : Fate ⟨w,.mod k' event⟩ k watch' := by
  have hr : ¬Moment.Reports k ⟨w,.mod k' event⟩ := by simp [Moment.Reports]
  simp only [step, controlMod] at h
  split at h
  · rename_i hnone
    refine .of_kept (by simp) h ?_ hr
    rintro (⟨_,event',he⟩ | ⟨hne,event',he⟩)
    · cases he
    · cases he
      exact hne hnone
  · rename_i old hold
    rw [lookup_descriptorStatusChanged, Inv.lookup_insert] at h
    split_ifs at h with hk
    · subst hk
      cases h
      exact .stored (.inr ⟨by simp [hold],event,rfl⟩) hr rfl rfl
    · refine .of_kept (by simp) h ?_ hr
      rintro (⟨_,event',he⟩ | ⟨_,event',he⟩)
      · cases he
      · cases he
        exact hk rfl

lemma fate_del (k' : Key) (h : (w.step (.del k')).lookup k = some watch') :
    Fate ⟨w,.del k'⟩ k watch' := by
  simp only [step] at h
  rw [Inv.lookup_controlDel] at h
  split_ifs at h
  exact .of_kept (by simp) h (by simp [Moment.Modifies, Moment.Adds]) (by simp [Moment.Reports])

lemma fate_getEvents (hi : w.Inv) (now slots : ℕ)
    (h : (w.step (.getEvents now slots)).lookup k = some watch') :
    Fate ⟨w,.getEvents now slots⟩ k watch' := by
  have hm : ¬Moment.Modifies k ⟨w,.getEvents now slots⟩ := by
    simp [Moment.Modifies, Moment.Adds]
  simp only [step] at h
  rw [hi.lookup_getEvents] at h
  split_ifs at h with hrep
  · obtain ⟨watch,hw,rfl⟩ := Option.map_eq_some_iff.mp h
    exact .collected watch now hw rfl ⟨now,slots,rfl,hrep⟩ hm (fun hf ↦ hf rfl) (fun hf ↦ hf rfl)
  · refine .of_kept (by simp) h hm ?_
    rintro ⟨now',slots',he,hrep'⟩
    cases he
    exact hrep hrep'

lemma fate_adjustStatus (o : ℕ) (bits : Status) (b : Bool)
    (h : (w.step (.adjustStatus o bits b)).lookup k = some watch') :
    Fate ⟨w,.adjustStatus o bits b⟩ k watch' := by
  have hm : ¬Moment.Modifies k ⟨w,.adjustStatus o bits b⟩ := by
    simp [Moment.Modifies, Moment.Adds]
  have hr : ¬Moment.Reports k ⟨w,.adjustStatus o bits b⟩ := by simp [Moment.Reports]
  have hst := status_step_adjustStatus w o bits b
  by_cases hmon : monitored.hears
      (handleStatusChange (w.status o) ((w.status o).adjust bits b))
  · simp only [step, adjustStatus, if_pos hmon] at h
    rw [lookup_foldl] at h
    split_ifs at h with hmem
    · obtain ⟨watch,hw,rfl⟩ := Option.map_eq_some_iff.mp h
      exact .updated watch hw (by rw [Moment.after, hst]) hm hr
    · have hw : w.lookup k = some watch' := h
      have hne : k.object≠o := by
        intro ho
        refine hmem (List.mem_filter.mpr ⟨?_,by simpa using ho⟩)
        rw [← AList.mem_keys, ← AList.lookup_isSome]
        exact Option.isSome_iff_exists.mpr ⟨watch',hw⟩
      exact .kept hw hm hr (by simp [Moment.FlipsRead, Moment.after, hst, hne])
        (by simp [Moment.FlipsWrite, Moment.after, hst, hne])
  · simp only [step, adjustStatus, if_neg hmon] at h
    obtain ⟨_,hread,hwrite,_⟩ := Inv.not_monitored hmon
    refine .kept h hm hr ?_ ?_
    · simp only [Moment.FlipsRead, Moment.after, hst, ne_eq, not_not]
      by_cases ho : k.object=o
      · rw [ho, Function.update_self, hread]
      · rw [Function.update_of_ne ho]
    · simp only [Moment.FlipsWrite, Moment.after, hst, ne_eq, not_not]
      by_cases ho : k.object=o
      · rw [ho, Function.update_self, hwrite]
      · rw [Function.update_of_ne ho]

lemma fate (hi : w.Inv) (op : Op) (h : (w.step op).lookup k = some watch') :
    Fate ⟨w,op⟩ k watch' := by
  cases op with
  | add k' event => exact fate_add k' event h
  | mod k' event => exact fate_mod k' event h
  | del k' => exact fate_del k' h
  | adjustStatus o bits b => exact fate_adjustStatus o bits b h
  | getEvents now slots => exact fate_getEvents hi now slots h

end

/-! The lazily updated flags of a watch remember its past. -/

structure Remembers (k : Key) (watch : Watch) (past : List Moment) : Prop where
  oneShot : watch.flags.oneShotReported ↔ Spent k watch past
  edgeTrigger : watch.flags.edgeTriggerReported ↔
    watch.event.epollEt ∧ Since (Moment.Modifies k) (Moment.Reports k) past
  read : Since (Moment.Reports k) (Moment.FlipsRead k.object) past →
    watch.flags.readChanged ∨ ¬watch.flags.edgeTriggerReported
  write : Since (Moment.Reports k) (Moment.FlipsWrite k.object) past →
    watch.flags.writeChanged ∨ ¬watch.flags.edgeTriggerReported
  changed : watch.flags.readChanged ∨ watch.flags.writeChanged →
    ¬Since (Moment.Changes k) (Moment.Reports k) past

section
variable {m : Moment} {k : Key} {watch : Watch} {past : List Moment}

lemma Remembers.kept (h : Remembers k watch past) (hm : ¬m.Modifies k) (hr : ¬m.Reports k)
    (hread : ¬m.FlipsRead k.object) (hwrite : ¬m.FlipsWrite k.object) :
    Remembers k watch (m::past) where
  oneShot := by simpa [Spent, Since, hm, hr] using h.oneShot
  edgeTrigger := by simpa [Since, hm, hr] using h.edgeTrigger
  read := by simpa [Since, hread, hr] using h.read
  write := by simpa [Since, hwrite, hr] using h.write
  changed := by simpa [Since, Moment.Changes, hm, hr, hread, hwrite] using h.changed

lemma Remembers.stored (hm : m.Modifies k) (hr : ¬m.Reports k)
    (he : watch.flags.edgeTriggerReported = false) (ho : watch.flags.oneShotReported = false) :
    Remembers k watch (m::past) where
  oneShot := by simp [Spent, Since, hm, hr, ho]
  edgeTrigger := by simp [Since, hm, hr, he]
  read _ := by simp [he]
  write _ := by simp [he]
  changed _ := by simp [Since, Moment.Changes, hm, hr]

lemma Remembers.updated (h : Remembers k watch past)
    (hc : watch.Cached (m.before.status k.object)) (hm : ¬m.Modifies k) (hr : ¬m.Reports k) :
    Remembers k (watch.updateStatus (m.after.status k.object)) (m::past) where
  oneShot := by simpa [Spent, Since, hm, hr, Watch.updateStatus] using h.oneShot
  edgeTrigger := by simpa [Since, hm, hr, Watch.updateStatus] using h.edgeTrigger
  read hs := by
    simp only [Watch.updateStatus, Bool.or_eq_true, bne_iff_ne, hc.readable]
    rcases hs with hflip | ⟨_,hs⟩
    · exact .inl (.inr (Ne.symm hflip))
    · exact (h.read hs).imp .inl id
  write hs := by
    simp only [Watch.updateStatus, Bool.or_eq_true, bne_iff_ne, hc.writeable]
    rcases hs with hflip | ⟨_,hs⟩
    · exact .inl (.inr (Ne.symm hflip))
    · exact (h.write hs).imp .inl id
  changed hs := by
    rintro (hrep | ⟨hno,hsince⟩)
    · exact hr hrep
    simp only [Moment.Changes, Moment.FlipsRead, Moment.FlipsWrite, not_or, not_not] at hno
    simp only [Watch.updateStatus, hc.readable, hc.writeable, hno.2.1, hno.2.2, bne_self_eq_false,
      Bool.or_false] at hs
    exact h.changed hs hsince

lemma Remembers.collected (h : Remembers k watch past)
    (hc : watch.Cached (m.before.status k.object)) (now : ℕ) (hr : m.Reports k)
    (hread : ¬m.FlipsRead k.object) (hwrite : ¬m.FlipsWrite k.object) :
    Remembers k (watch.collected now) (m::past) where
  oneShot := by
    have hold : watch.flags.oneShotReported → watch.event.epollOneShot := fun hs ↦
      (h.oneShot.mp hs).1
    simpa [Spent, Since, hr, Watch.collected, hc.oneShot] using hold
  edgeTrigger := by
    have hold : watch.flags.edgeTriggerReported → watch.event.epollEt := fun hs ↦
      (h.edgeTrigger.mp hs).1
    simpa [Since, hr, Watch.collected, hc.edgeTrigger] using hold
  read hs := by simp [Since, hread, hr] at hs
  write hs := by simp [Since, hwrite, hr] at hs
  changed hs := by simp [Watch.collected] at hs

end

/-- Every watch remembers the past, and deleted keys have none. -/
structure Recalls (w : World) (past : List Moment) : Prop where
  inv : w.Inv
  watches : ∀ k watch, w.lookup k = some watch → Remembers k watch past
  deleted : ∀ k, Since (Moment.Adds k) (Moment.Deletes k) past → w.lookup k = none

namespace Recalls
variable {w : World} {past : List Moment}

lemma new (status : ℕ → Status) : (World.new status).Recalls [] where
  inv := Inv.new status
  watches k watch h := by simp [World.new, lookup] at h
  deleted k h := h.elim

lemma lookup_step (h : w.Inv) (op : Op) (k : Key) (hdel : op = .del k ∨
    (w.lookup k = none ∧ ∀ event, op ≠ .add k event)) : (w.step op).lookup k = none := by
  rcases hdel with rfl | ⟨hnone,hadd⟩
  · simp only [World.step, Inv.lookup_controlDel, if_true]
  · by_contra hne
    obtain ⟨watch,hw⟩ := Option.ne_none_iff_exists'.mp hne
    cases fate h op hw with
    | kept h' => simp [hnone] at h'
    | stored hm =>
      rcases hm with ⟨_,event,he⟩ | ⟨hsome,_⟩
      · exact hadd event he
      · exact hsome hnone
    | updated _ h' => simp [hnone] at h'
    | collected _ _ h' => simp [hnone] at h'

lemma step (h : w.Recalls past) (op : Op) : (w.step op).Recalls (⟨w,op⟩::past) where
  inv := h.inv.step op
  watches k watch' hw := by
    cases fate h.inv op hw with
    | kept h' hm hr hread hwrite => exact (h.watches k watch' h').kept hm hr hread hwrite
    | stored hm hr he ho => exact .stored hm hr he ho
    | updated watch h' he hm hr =>
      rw [he]
      exact (h.watches k watch h').updated (h.inv.cached k watch h') hm hr
    | collected watch now h' he hr hm hread hwrite =>
      rw [he]
      exact (h.watches k watch h').collected (h.inv.cached k watch h') now hr hread hwrite
  deleted k hs := by
    apply lookup_step h.inv
    rcases hs with hdel | ⟨hno,hs⟩
    · exact .inl hdel
    · have hnone := h.deleted k hs
      exact .inr ⟨hnone,fun event he ↦ hno ⟨hnone,event,he⟩⟩

lemma play (status : ℕ → Status) (ops : List Op) :
    ((World.new status).play ops).1.Recalls ((World.new status).play ops).2 := by
  have hall : ∀ (v : World) past, v.Recalls past →
      (ops.foldl (fun s op ↦ (s.1.step op,⟨s.1,op⟩::s.2)) (v,past)).1.Recalls
        (ops.foldl (fun s op ↦ (s.1.step op,⟨s.1,op⟩::s.2)) (v,past)).2 := by
    induction ops with
    | nil => exact fun v past h ↦ h
    | cons op ops ih => exact fun v past h ↦ ih _ _ (h.step op)
  exact hall _ [] (new status)

lemma triggerModes (h : w.Recalls past) {slots : ℕ} (hs : w.epoll.ready.length ≤ slots) :
    w.TriggerModes past slots := by
  have hrep : ∀ {k watch}, w.lookup k = some watch →
      (k ∈ w.reportedKeys slots ↔ watch.isReady) := by
    intro k watch hw
    rw [h.inv.mem_reportedKeys_enough hs]
    simp [hw]
  have hspent : ∀ {k watch}, w.lookup k = some watch →
      (Spent k watch past ↔ watch.event.epollOneShot ∧ watch.flags.oneShotReported) := by
    intro k watch hw
    have ho := (h.watches k watch hw).oneShot
    exact ⟨fun hsp ↦ ⟨hsp.1,ho.mpr hsp⟩,fun hsp ↦ ho.mp hsp.2⟩
  exact {
    level := fun k watch hw het ↦ by
      rw [hrep hw, (h.inv.cached k watch hw).isReady_level (by simpa using het), hspent hw]
      simp only [Bool.and_eq_true, Bool.not_eq_true', Bool.not_eq_true, and_assoc, not_and,
        Bool.and_eq_false_imp]
    oneShot := fun k watch hw hos hmem hsince ↦ by
      rw [hrep hw] at hmem
      have hsp := (hspent hw).mp ⟨hos,hsince⟩
      cases het : watch.event.epollEt with
      | true =>
        rw [(h.inv.cached k watch hw).isReady_edge het] at hmem
        simp [hsp.1, hsp.2] at hmem
      | false =>
        rw [(h.inv.cached k watch hw).isReady_level het] at hmem
        simp [hsp.1, hsp.2] at hmem
    edgeOnly := fun k watch hw het hmem hsince ↦ by
      have hr := h.watches k watch hw
      have hunchanged : watch.flags.readChanged = false ∧ watch.flags.writeChanged = false := by
        simpa using mt hr.changed (not_not.mpr hsince)
      have hreported := hr.edgeTrigger.mpr ⟨het,hsince.mono fun m ↦ .inl⟩
      rw [hrep hw, (h.inv.cached k watch hw).isReady_edge het] at hmem
      simp [hunchanged, hreported] at hmem
    edge := fun k watch hw het hactive hclosed hedge hsp ↦ by
      have hr := h.watches k watch hw
      rw [hspent hw] at hsp
      rw [hrep hw, (h.inv.cached k watch hw).isReady_edge het]
      simp only [Bool.and_eq_true, Bool.or_eq_true, Bool.not_eq_true', Bool.and_eq_false_iff]
      refine ⟨⟨⟨hactive,by simpa using hclosed⟩,?_⟩,by simpa [or_iff_not_imp_left] using hsp⟩
      rcases hedge with ⟨hread,hin,hflip⟩ | ⟨hwrite,hout,hflip⟩
      · exact .inl ⟨⟨hread,hin⟩,by simpa using hr.read hflip⟩
      · exact .inr ⟨⟨hwrite,hout⟩,by simpa using hr.write hflip⟩
    deleted := fun k hdel hmem ↦ by
      obtain ⟨watch,hw,_⟩ := (h.inv.mem_reportedKeys_enough hs).mp hmem
      rw [h.deleted k hdel] at hw
      cases hw}

end Recalls

/-- After every run, a call with enough slots reports the watches as their trigger modes say. -/
theorem triggerModes_play (status : ℕ → Status) (ops : List Op) (slots : ℕ) :
    ((new status).play ops).1.epoll.ready.length ≤ slots →
      ((new status).play ops).1.TriggerModes ((new status).play ops).2 slots :=
  (Recalls.play status ops).triggerModes

/-- An edge-triggered and a one-shot watch are reported, their objects become unreadable and readable
again, and a level-triggered watch is added. -/
def reported : List Op :=
  [.add ⟨3,0⟩ ⟨true,false,true,false,7⟩,.getEvents 0 1,.adjustStatus 0 .READABLE false,
    .add ⟨4,1⟩ ⟨true,false,false,true,8⟩,.getEvents 0 1,.adjustStatus 1 .READABLE false,
    .adjustStatus 1 .READABLE true,.adjustStatus 0 .READABLE true,
    .add ⟨5,2⟩ ⟨true,false,false,false,9⟩]

/-- All but the one-shot watch are due. -/
theorem triggerModes_play_reported :
    let s := (new fun _ ↦ {active := true, readable := true}).play reported
    s.1.TriggerModes s.2 2 ∧ ⟨3,0⟩ ∈ s.1.reportedKeys 2 ∧ ⟨4,1⟩ ∉ s.1.reportedKeys 2 ∧
      ⟨5,2⟩ ∈ s.1.reportedKeys 2 := by
  have henough : ((new fun _ ↦ {active := true, readable := true}).play reported).1.epoll.ready.length
      ≤ 2 := by decide +kernel
  have hmem := fun k ↦ ((Recalls.play (fun _ ↦ {active := true, readable := true})
    reported).inv.mem_reportedKeys_enough (k := k) henough).trans
      (Option.any_eq_true Watch.isReady _).symm
  refine ⟨triggerModes_play _ _ 2 henough,(hmem _).mpr (by decide +kernel),
    mt (hmem _).mp (by decide +kernel),(hmem _).mpr (by decide +kernel)⟩

/-- A one-shot watch stays silent after its report although its object is readable, and an edge
that still holds is not reported once the object is closed. -/
theorem modes_need_unspent_and_open :
    (let w := ((new fun _ ↦ {active := true, readable := true}).play
        [.add ⟨3,0⟩ ⟨true,false,false,true,7⟩,.getEvents 0 1]).1
      ∃ watch, w.lookup ⟨3,0⟩ = some watch ∧ ¬watch.event.epollEt ∧ (w.status 0).active ∧
        ¬(w.status 0).closed ∧ Watch.interested watch.event (w.status 0) ∧
        w.epoll.ready.length ≤ 1 ∧ ⟨3,0⟩ ∉ w.reportedKeys 1) ∧
    (let s := (new fun _ ↦ {active := true}).play
        [.add ⟨3,0⟩ ⟨true,false,true,false,7⟩,.adjustStatus 0 .READABLE true,
          .adjustStatus 0 .CLOSED true]
      ∃ watch, s.1.lookup ⟨3,0⟩ = some watch ∧ watch.event.epollEt ∧
        ¬watch.event.epollOneShot ∧ s.1.Edge ⟨3,0⟩ watch s.2 ∧
        s.1.epoll.ready.length ≤ 1 ∧ ⟨3,0⟩ ∉ s.1.reportedKeys 1) := by
  let silent : Watch := ⟨1,⟨3,0⟩,⟨true,false,false,true,7⟩,
    {active := true, readable := true, waitingRead := true, watching := true, oneShot := true,
      oneShotReported := true},0⟩
  refine ⟨⟨silent,by decide +kernel,by decide +kernel,by decide +kernel,by decide +kernel,
    by decide +kernel,by decide +kernel,by decide +kernel⟩,
    ⟨_,rfl,by decide,by decide,.inl ⟨by decide,by decide,?_⟩,
    by decide +kernel,by decide +kernel⟩⟩
  -- the flip is the last but one operation, and no call follows it
  refine .inr ⟨?_,.inl ?_⟩
  · rintro ⟨now,slots,he,_⟩
    cases he
  · show _ ≠ _
    decide

end World

end Phantom.Descriptor.Epoll
