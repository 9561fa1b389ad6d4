import Phantom.Lib.Scanf
import Mathlib.Algebra.Group.Int.Defs
import Mathlib.Data.Int.Order.Basic
import Mathlib.Data.List.Infix
import Mathlib.Data.List.TakeWhile
import Mathlib.Logic.Relation
import Mathlib.Order.Lattice
import Mathlib.Order.Nat

/-! The names of the shared memory files, `shmem_file.c`, and the removal of those that dead
processes have left behind, `shmem_cleanup.c`, while other processes start, make files and end. -/
namespace Phantom.Shmem

/-- `SHADOW_PREFIX`, "shadow_shmemfile". -/
def shadowPrefix : List Char :=
  ['s','h','a','d','o','w','_','s','h','m','e','m','f','i','l','e']

/-- What `_shmemfile_getName` writes after the slash, for a time of the monotonic clock in
nanoseconds; two of the 255 bytes are the slash and the terminator. -/
def getName (time pid : ℕ) : List Char :=
  (shadowPrefix++ '_'::printSize (time/10^9)++ '.'::printSize (time%10^9)++ '-'::printSize pid).take 253

/-- `shmemfile_nameHasShadowPrefix`: anywhere in the name. -/
def nameHasShadowPrefix (name : List Char) : Bool := decide (shadowPrefix <:+: name)

/-- `strtol` in base 10. -/
def strtol (buf : List Char) : ℤ :=
  let (negative,buf) := scanSign (buf.dropWhile isSpace)
  let n := Nat.ofDigitChars 10 (buf.takeWhile Char.isDigit) 0
  if negative then max (-n) (-2^63) else min n (2^63-1)

def intMax : ℤ := 2^31-1
def intMin : ℤ := -2^31

/-- `shmemfile_pidFromName`. -/
def pidFromName (name : List Char) : ℤ :=
  match name.dropWhile (· ≠ '-') with
  | [] => -1
  | _::rest =>
    let x := strtol rest
    if x=0 ∨ intMax < x ∨ x ≤ intMin then -1 else x

lemma strtol_printSize {n : ℕ} (hn : (n : ℤ) < 2^63) : strtol (printSize n)=n := by
  have hall : ∀ c ∈ printSize n, c.isDigit=true := fun c ↦ isDigit_of_mem_printSize
  obtain ⟨d,ds,hds⟩ := List.exists_cons_of_ne_nil (show printSize n ≠ [] from Nat.toDigits_ne_nil)
  have hd : d.isDigit=true := hall d (hds ▸ List.mem_cons_self)
  have hskip : (printSize n).dropWhile isSpace=printSize n := by
    rw [hds,List.dropWhile_cons_of_neg]
    rw [isSpace_of_isDigit hd]
    exact Bool.false_ne_true
  have hsign : scanSign (printSize n)=(false,printSize n) := by
    rw [hds]
    exact scanSign_digit hd ds
  have htake : (printSize n).takeWhile Char.isDigit=printSize n := List.takeWhile_eq_self_iff.2 hall
  have hvalue : Nat.ofDigitChars 10 (printSize n) 0=n := Nat.ofDigitChars_ten_toDigits
  simp only [strtol,hskip,hsign,htake,hvalue,Bool.false_eq_true,if_false]
  omega

lemma length_printSize {n k : ℕ} (hk : 0 < k) (hn : n < 10^k) : (printSize n).length ≤ k :=
  (Nat.length_toDigits_le_iff (by decide) hk).2 hn

/-- A process ID of Linux. -/
def IsPid (pid : ℕ) : Prop := 0 < pid ∧ (pid : ℤ) ≤ intMax

instance (pid : ℕ) : Decidable (IsPid pid) := inferInstanceAs (Decidable (_ ∧ _))

/-- No name is cut off. -/
lemma getName_eq {time pid : ℕ} (htime : time < 2^63) (hpid : IsPid pid) : getName time pid=
    shadowPrefix++ '_'::printSize (time/10^9)++ '.'::printSize (time%10^9)++ '-'::printSize pid := by
  refine List.take_of_length_le ?_
  have hsec : (printSize (time/10^9)).length ≤ 20 := length_printSize (by decide) (by omega)
  have hnsec : (printSize (time%10^9)).length ≤ 20 := length_printSize (by decide) (by omega)
  have hp : (printSize pid).length ≤ 20 := by
    have := hpid.2
    exact length_printSize (by decide) (by unfold intMax at this; omega)
  have hshadow : shadowPrefix.length=16 := by decide
  simp only [List.length_append,List.length_cons,hshadow]
  omega

lemma ne_dash_of_isDigit {c : Char} (h : c.isDigit=true) : c ≠ '-' := by
  rintro rfl
  exact absurd h (by decide)

/-- The name of a file gives the process that has made it. -/
lemma pidFromName_getName {time pid : ℕ} (htime : time < 2^63) (hpid : IsPid pid) :
    pidFromName (getName time pid)=pid := by
  have hdash : '-' ∉ shadowPrefix := by decide
  have hhead : ∀ c ∈ shadowPrefix++ '_'::printSize (time/10^9)++ '.'::printSize (time%10^9),
      c ≠ '-' := by
    intro c hc
    simp only [List.mem_append,List.mem_cons] at hc
    obtain ((hc | rfl | hc) | rfl | hc) := hc
    · exact fun h ↦ hdash (h ▸ hc)
    · decide
    · exact ne_dash_of_isDigit (isDigit_of_mem_printSize hc)
    · decide
    · exact ne_dash_of_isDigit (isDigit_of_mem_printSize hc)
  have hmax : (pid : ℤ) < 2^63 := hpid.2.trans_lt (by decide)
  have hdrop : (getName time pid).dropWhile (· ≠ '-')= '-'::printSize pid := by
    rw [getName_eq htime hpid,List.dropWhile_append_of_pos (by simpa using hhead)]
    exact List.dropWhile_cons_of_neg (by simp)
  unfold pidFromName
  rw [hdrop]
  simp only [strtol_printSize hmax]
  rw [if_neg]
  rintro (h | h | h)
  · exact absurd hpid.1 (by omega)
  · exact absurd hpid.2 (not_le.2 h)
  · unfold intMin at h
    omega

lemma nameHasShadowPrefix_getName {time pid : ℕ} (htime : time < 2^63) (hpid : IsPid pid) :
    nameHasShadowPrefix (getName time pid)=true := by
  rw [nameHasShadowPrefix,decide_eq_true_eq,getName_eq htime hpid,List.append_assoc,List.append_assoc]
  exact (List.prefix_append ..).isInfix

/-- Different times give different names. -/
lemma getName_time {time time' pid pid' : ℕ} (htime : time < 2^63) (htime' : time' < 2^63)
    (hpid : IsPid pid) (hpid' : IsPid pid') (h : getName time pid=getName time' pid') :
    time=time' := by
  rw [getName_eq htime hpid,getName_eq htime' hpid'] at h
  simp only [List.append_assoc,List.cons_append,List.append_cancel_left_eq,List.cons.injEq,
    true_and] at h
  have hdot : ∀ buf : List Char, ∀ c ∈ ('.'::buf).head?, c.isDigit=false := by simp
  have hdash : ∀ buf : List Char, ∀ c ∈ ('-'::buf).head?, c.isDigit=false := by simp
  have hsec := congrArg scanSize h
  rw [scanSize_printSize (by omega) (hdot _),scanSize_printSize (by omega) (hdot _)] at hsec
  simp only [Option.some.injEq,Prod.mk.injEq,List.cons.injEq,true_and] at hsec
  have hnsec := congrArg scanSize hsec.2
  rw [scanSize_printSize (by omega) (hdash _),scanSize_printSize (by omega) (hdash _)] at hnsec
  simp only [Option.some.injEq,Prod.mk.injEq] at hnsec
  omega

/-- `_shmemcleanup_unlinkIfShadow` removes the file, if it may. -/
def unlinkIfShadow (name : List Char) (procSet : List ℕ) : Bool :=
  nameHasShadowPrefix name && decide (0 < pidFromName name) &&
    decide ((pidFromName name).toNat ∉ procSet)

lemma unlinkIfShadow_getName {time pid : ℕ} (htime : time < 2^63) (hpid : IsPid pid)
    (procSet : List ℕ) : unlinkIfShadow (getName time pid) procSet=decide (pid ∉ procSet) := by
  have hpos : (0 : ℤ) < (pid : ℤ) := by exact_mod_cast hpid.1
  simp only [unlinkIfShadow,nameHasShadowPrefix_getName htime hpid,pidFromName_getName htime hpid,
    hpos,decide_true,Bool.true_and,Int.toNat_natCast]

/-- A process; its ID may later be that of another one. -/
@[ext]
structure Proc where
  pid : ℕ
  started : ℕ

/-- A file in `/dev/shm`. The maker of a file of Shadow has read the clock for its name. -/
structure Inode where
  number : ℕ
  maker : Option (Proc × ℕ)

structure Kernel where
  clock : ℕ
  running : ℕ → Option ℕ
  files : List Char → Option Inode
  nextInode : ℕ

namespace Kernel

def boot : Kernel := ⟨0,fun _ ↦ none,fun _ ↦ none,0⟩

def create (k : Kernel) (name : List Char) (maker : Option (Proc × ℕ)) : Kernel :=
  {k with files := Function.update k.files name (some ⟨k.nextInode,maker⟩),
          nextInode := k.nextInode+1}

def remove (k : Kernel) (name : List Char) : Kernel :=
  {k with files := Function.update k.files name none}

def start (k : Kernel) (pid : ℕ) : Kernel :=
  {k with clock := k.clock+1, running := Function.update k.running pid (some (k.clock+1))}

def exit (k : Kernel) (pid : ℕ) : Kernel :=
  {k with running := Function.update k.running pid none}

end Kernel

/-- A name that `_shmemfile_getName` does not write, and that `name_buf` has room for. -/
def Foreign (name : List Char) : Prop := name.length ≤ 253 ∧ ∀ time pid, name ≠ getName time pid

/-- What the processes of the machine do: those of Shadow make files (`shmemfile_alloc`), with a name
read from the clock some time before; files are removed by their makers (`shmemfile_free`) or by
anybody else. A process that ends may leave its files. -/
inductive Kernel.Step (k : Kernel) : Kernel → Prop where
  | tick : Step k {k with clock := k.clock+1}
  | start (pid : ℕ) (hpid : IsPid pid) (hfree : k.running pid=none) : Step k (k.start pid)
  | exit (pid : ℕ) : Step k (k.exit pid)
  | alloc (p : Proc) (time : ℕ) (hrun : k.running p.pid=some p.started) (hstart : p.started ≤ time)
      (htime : time ≤ k.clock) (hclock : time < 2^63) (hexcl : k.files (getName time p.pid)=none) :
      Step k (k.create (getName time p.pid) (some (p,time)))
  | foreign (name : List Char) (hname : Foreign name) (hexcl : k.files name=none) :
      Step k (k.create name none)
  | remove (name : List Char) : Step k (k.remove name)

/-- Where a call of `shmemcleanup_tryCleanup` is: in `_shmemcleanup_getFiles`, in
`_shmemcleanup_getProcSet` or in the loop. Only the names and the process IDs are read; the kernel's
state at `opendir` and at `openproc` says what has to be read at least. -/
inductive Cleaner where
  | idle
  | getFiles (began : Kernel) (names : List (List Char))
  | getProcSet (began scan : Kernel) (names : List (List Char)) (seen : List Proc)
  | unlinks (began : Kernel) (rest : List (List Char)) (seen : List Proc)

/-- Any number of simulations clean up at the same time. -/
structure Sys (ι : Type) where
  kernel : Kernel
  cleaner : ι → Cleaner

section
variable {ι : Type} [DecidableEq ι] {denied : List Char → Bool} {s s' : Sys ι}

def Sys.boot : Sys ι := ⟨Kernel.boot,fun _ ↦ .idle⟩

def Sys.goto (s : Sys ι) (i : ι) (c : Cleaner) : Sys ι :=
  {s with cleaner := Function.update s.cleaner i c}

/-- `shm_unlink` fails without the permission and for a file that is gone. -/
def Kernel.unlink (denied : List Char → Bool) (k : Kernel) (name : List Char) (seen : List Proc) :
    Kernel :=
  if unlinkIfShadow name (seen.map Proc.pid) && !denied name then k.remove name else k

/-- The directory and the process table change while they are read: what is there throughout is
read, what comes or goes may be. -/
inductive Sys.Step (denied : List Char → Bool) (s : Sys ι) : Sys ι → Prop where
  | kernel (k : Kernel) (h : s.kernel.Step k) : Step denied s {s with kernel := k}
  | opendir (i : ι) (hi : s.cleaner i=.idle) : Step denied s (s.goto i (.getFiles s.kernel []))
  | readdir (i : ι) (began : Kernel) (names : List (List Char)) (name : List Char) (f : Inode)
      (hi : s.cleaner i=.getFiles began names) (hf : s.kernel.files name=some f) :
      Step denied s (s.goto i (.getFiles began
        (if nameHasShadowPrefix name then names++[name] else names)))
  | closedir (i : ι) (began : Kernel) (names : List (List Char))
      (hi : s.cleaner i=.getFiles began names)
      (hall : ∀ name f, began.files name=some f → s.kernel.files name=some f →
        nameHasShadowPrefix name=true → name ∈ names) :
      Step denied s (s.goto i (.getProcSet began s.kernel names []))
  | readproc (i : ι) (began scan : Kernel) (names : List (List Char)) (seen : List Proc) (p : Proc)
      (hi : s.cleaner i=.getProcSet began scan names seen)
      (hrun : s.kernel.running p.pid=some p.started) (hnew : p.pid ∉ seen.map Proc.pid) :
      Step denied s (s.goto i (.getProcSet began scan names (seen++[p])))
  | closeproc (i : ι) (began scan : Kernel) (names : List (List Char)) (seen : List Proc)
      (hi : s.cleaner i=.getProcSet began scan names seen)
      (hall : ∀ p : Proc, scan.running p.pid=some p.started →
        s.kernel.running p.pid=some p.started → p ∈ seen) :
      Step denied s (s.goto i (.unlinks began names seen))
  | unlink (i : ι) (began : Kernel) (name : List Char) (rest : List (List Char)) (seen : List Proc)
      (hi : s.cleaner i=.unlinks began (name::rest) seen) :
      Step denied s {s.goto i (.unlinks began rest seen) with
        kernel := s.kernel.unlink denied name seen}
  | stop (i : ι) : Step denied s (s.goto i .idle)

/-- The states of the runs that start with the machine. -/
def Sys.Reachable (denied : List Char → Bool) : Sys ι → Prop :=
  Relation.ReflTransGen (Sys.Step denied) Sys.boot

end

structure Kernel.Inv (k : Kernel) : Prop where
  started : ∀ pid st, k.running pid=some st → IsPid pid ∧ st ≤ k.clock
  inode : ∀ name f, k.files name=some f → f.number < k.nextInode
  named : ∀ name f p time, k.files name=some f → f.maker=some (p,time) →
    IsPid p.pid ∧ time < 2^63 ∧ p.started ≤ time ∧ time ≤ k.clock ∧ name=getName time p.pid
  foreign : ∀ name f, k.files name=some f → f.maker=none → Foreign name

/-- The processes and the files of `k'` are those of `k` or new. -/
structure Kernel.Later (k k' : Kernel) : Prop where
  clock : k.clock ≤ k'.clock
  inode : k.nextInode ≤ k'.nextInode
  running : ∀ pid st, k'.running pid=some st → k.running pid=some st ∨ k.clock < st
  files : ∀ name f, k'.files name=some f → k.files name=some f ∨ k.nextInode ≤ f.number

namespace Kernel
variable {k k' k'' : Kernel}

lemma Later.refl (k : Kernel) : Later k k where
  clock := le_rfl
  inode := le_rfl
  running _ _ := .inl
  files _ _ := .inl

lemma Later.trans (h : Later k k') (h' : Later k' k'') : Later k k'' where
  clock := h.clock.trans h'.clock
  inode := h.inode.trans h'.inode
  running pid st hrun := by
    obtain (hrun | hrun) := h'.running pid st hrun
    · exact h.running pid st hrun
    · exact .inr (h.clock.trans_lt hrun)
  files name f hf := by
    obtain (hf | hf) := h'.files name f hf
    · exact h.files name f hf
    · exact .inr (h.inode.trans hf)

/-- A file that was there at first and is there at last has been there in between. -/
lemma Later.kept (h : Later k k') (h' : Later k' k'') (hk : k.Inv) {name : List Char}
    {f : Inode} (hf : k.files name=some f) (hf'' : k''.files name=some f) :
    k'.files name=some f := by
  obtain (hf' | hf') := h'.files name f hf''
  · exact hf'
  · have := hk.inode name f hf
    have := h.inode
    omega

lemma remove_self (k : Kernel) (name : List Char) : (k.remove name).files name=none :=
  Function.update_self ..

lemma remove_of_ne {name name' : List Char} (h : name' ≠ name) :
    (k.remove name).files name'=k.files name' :=
  Function.update_of_ne h ..

lemma create_self (k : Kernel) (name : List Char) (maker : Option (Proc × ℕ)) :
    (k.create name maker).files name=some ⟨k.nextInode,maker⟩ :=
  Function.update_self ..

lemma create_of_ne {name name' : List Char} {maker : Option (Proc × ℕ)} (h : name' ≠ name) :
    (k.create name maker).files name'=k.files name' :=
  Function.update_of_ne h ..

lemma start_cases {pid pid' st : ℕ} (h : (k.start pid).running pid'=some st) :
    (pid'=pid ∧ st=k.clock+1) ∨ k.running pid'=some st := by
  by_cases heq : pid'=pid
  · simp only [heq,start,Function.update_self] at h
    exact .inl ⟨heq,(Option.some.inj h).symm⟩
  · simp only [start,Function.update_of_ne heq] at h
    exact .inr h

lemma exit_some {pid pid' st : ℕ} (h : (k.exit pid).running pid'=some st) :
    pid' ≠ pid ∧ k.running pid'=some st := by
  by_cases heq : pid'=pid
  · simp only [heq,exit,Function.update_self] at h
    cases h
  · simp only [exit,Function.update_of_ne heq] at h
    exact ⟨heq,h⟩

lemma remove_some {name name' : List Char} {f : Inode}
    (h : (k.remove name).files name'=some f) : name' ≠ name ∧ k.files name'=some f := by
  by_cases heq : name'=name
  · rw [heq,remove_self] at h
    cases h
  · rw [remove_of_ne heq] at h
    exact ⟨heq,h⟩

lemma create_some {name name' : List Char} {maker : Option (Proc × ℕ)} {f : Inode}
    (h : (k.create name maker).files name'=some f) :
    k.files name'=some f ∨ name'=name ∧ f=⟨k.nextInode,maker⟩ := by
  by_cases heq : name'=name
  · rw [heq,create_self] at h
    exact .inr ⟨heq,(Option.some.inj h).symm⟩
  · rw [create_of_ne heq] at h
    exact .inl h

lemma later_remove (k : Kernel) (name : List Char) : Later k (k.remove name) where
  clock := le_rfl
  inode := le_rfl
  running _ _ := .inl
  files _ _ hf := .inl (remove_some hf).2

lemma later_create (k : Kernel) (name : List Char) (maker : Option (Proc × ℕ)) :
    Later k (k.create name maker) where
  clock := le_rfl
  inode := Nat.le_succ _
  running _ _ := .inl
  files name' f hf := by
    obtain (hf | ⟨-,rfl⟩) := create_some hf
    · exact .inl hf
    · exact .inr le_rfl

lemma inv_remove (hk : k.Inv) (name : List Char) : (k.remove name).Inv where
  started := hk.started
  inode name' f hf := hk.inode name' f (remove_some hf).2
  named name' f p time hf := hk.named name' f p time (remove_some hf).2
  foreign name' f hf := hk.foreign name' f (remove_some hf).2

lemma inv_create (hk : k.Inv) {name : List Char} {maker : Option (Proc × ℕ)}
    (hnamed : ∀ p time, maker=some (p,time) →
      IsPid p.pid ∧ time < 2^63 ∧ p.started ≤ time ∧ time ≤ k.clock ∧ name=getName time p.pid)
    (hforeign : maker=none → Foreign name) : (k.create name maker).Inv where
  started := hk.started
  inode name' f hf := by
    obtain (hf | ⟨-,rfl⟩) := create_some hf
    · exact (hk.inode name' f hf).trans (Nat.lt_succ_self _)
    · exact Nat.lt_succ_self _
  named name' f p time hf hmaker := by
    obtain (hf | ⟨rfl,rfl⟩) := create_some hf
    · exact hk.named name' f p time hf hmaker
    · exact hnamed p time hmaker
  foreign name' f hf hmaker := by
    obtain (hf | ⟨rfl,rfl⟩) := create_some hf
    · exact hk.foreign name' f hf hmaker
    · exact hforeign hmaker

lemma Inv.named_succ (hk : k.Inv) {name : List Char} {f : Inode} {p : Proc} {time : ℕ}
    (hf : k.files name=some f) (hmaker : f.maker=some (p,time)) :
    IsPid p.pid ∧ time < 2^63 ∧ p.started ≤ time ∧ time ≤ k.clock+1 ∧ name=getName time p.pid := by
  obtain ⟨hpid,htime,hst,hle,hname⟩ := hk.named name f p time hf hmaker
  exact ⟨hpid,htime,hst,hle.trans (Nat.le_succ _),hname⟩

lemma Inv.later_step (hk : k.Inv) (h : k.Step k') : k'.Inv ∧ Later k k' := by
  cases h with
  | tick =>
    refine ⟨⟨?_,hk.inode,?_,hk.foreign⟩,⟨Nat.le_succ _,le_rfl,fun _ _ ↦ .inl,fun _ _ ↦ .inl⟩⟩
    · intro pid st hrun
      exact ⟨(hk.started pid st hrun).1,(hk.started pid st hrun).2.trans (Nat.le_succ _)⟩
    · exact fun name f p time hf hmaker ↦ hk.named_succ hf hmaker
  | start pid hpid hfree =>
    refine ⟨⟨?_,hk.inode,?_,hk.foreign⟩,⟨Nat.le_succ _,le_rfl,?_,fun _ _ ↦ .inl⟩⟩
    · intro pid' st hrun
      obtain (⟨rfl,rfl⟩ | hrun) := start_cases hrun
      · exact ⟨hpid,le_rfl⟩
      · exact ⟨(hk.started pid' st hrun).1,(hk.started pid' st hrun).2.trans (Nat.le_succ _)⟩
    · exact fun name f p time hf hmaker ↦ hk.named_succ hf hmaker
    · intro pid' st hrun
      obtain (⟨-,rfl⟩ | hrun) := start_cases hrun
      · exact .inr (Nat.lt_succ_self _)
      · exact .inl hrun
  | exit pid =>
    exact ⟨⟨fun pid' st hrun ↦ hk.started pid' st (exit_some hrun).2,hk.inode,hk.named,hk.foreign⟩,
      ⟨le_rfl,le_rfl,fun _ _ hrun ↦ .inl (exit_some hrun).2,fun _ _ ↦ .inl⟩⟩
  | alloc p time hrun hstart htime hclock hexcl =>
    refine ⟨inv_create hk ?_ nofun,later_create k _ _⟩
    rintro p' time' heq
    obtain ⟨rfl,rfl⟩ := Prod.mk.inj (Option.some.inj heq)
    exact ⟨(hk.started _ _ hrun).1,hclock,hstart,htime,rfl⟩
  | foreign name hname hexcl => exact ⟨inv_create hk nofun fun _ ↦ hname,later_create k _ _⟩
  | remove name => exact ⟨inv_remove hk name,later_remove k name⟩

lemma Inv.later_unlink (hk : k.Inv) (denied : List Char → Bool) (name : List Char)
    (seen : List Proc) : (k.unlink denied name seen).Inv ∧ Later k (k.unlink denied name seen) := by
  unfold unlink
  split
  · exact ⟨inv_remove hk name,later_remove k name⟩
  · exact ⟨hk,Later.refl k⟩

end Kernel

/-- If Shadow has written the name, it was at most at the time `clock`. -/
def Stamped (clock : ℕ) (name : List Char) : Prop :=
  ∀ time pid, IsPid pid → time < 2^63 → name=getName time pid → time ≤ clock

/-- The processes that may have made the file and run now have been read. -/
def Guarded (k : Kernel) (seen : List Proc) (name : List Char) : Prop :=
  ∀ time pid st, IsPid pid → time < 2^63 → name=getName time pid → k.running pid=some st →
    st ≤ time → pid ∈ seen.map Proc.pid

/-- The files of Shadow that have been there since `opendir` and that `P` does not tell about. -/
def Accounted (began k : Kernel) (P : List Char → Prop) : Prop :=
  ∀ name f, began.files name=some f → k.files name=some f → nameHasShadowPrefix name=true → P name

structure Since (began k : Kernel) : Prop where
  inv : began.Inv
  later : Kernel.Later began k

/-- The processes that have been read ran at `opendir` or have started after. -/
def Read (began : Kernel) (seen : List Proc) : Prop :=
  ∀ p ∈ seen, began.running p.pid=some p.started ∨ began.clock < p.started

def Cleaner.Inv (denied : List Char → Bool) (k : Kernel) : Cleaner → Prop
  | .idle => True
  | .getFiles began names => Since began k ∧ ∀ name ∈ names, Stamped k.clock name
  | .getProcSet began scan names seen => Since began k ∧ Since scan k ∧ Read began seen ∧
      (∀ name ∈ names, Stamped scan.clock name) ∧ Accounted began k (· ∈ names)
  | .unlinks began rest seen => Since began k ∧ Read began seen ∧
      (∀ name ∈ rest, Stamped k.clock name ∧ Guarded k seen name) ∧
      Accounted began k fun name ↦ name ∈ rest ∨ denied name=true ∨
        unlinkIfShadow name (seen.map Proc.pid)=false

section
variable {began scan k k' : Kernel} {names : List (List Char)} {seen : List Proc}
  {name : List Char} {denied : List Char → Bool} {P Q : List Char → Prop} {c : Cleaner}

lemma Stamped.mono {clock clock' : ℕ} (h : Stamped clock name) (hle : clock ≤ clock') :
    Stamped clock' name :=
  fun time pid hpid htime hname ↦ (h time pid hpid htime hname).trans hle

lemma Since.refl (hk : k.Inv) : Since k k := ⟨hk,Kernel.Later.refl k⟩

lemma Since.later_trans (h : Since began k) (h' : Kernel.Later k k') : Since began k' :=
  ⟨h.inv,h.later.trans h'⟩

/-- A process that has started after the time in the name has not made the file. -/
lemma Guarded.later (hs : Stamped k.clock name) (h : Guarded k seen name) (h' : Kernel.Later k k') :
    Guarded k' seen name := by
  intro time pid st hpid htime hname hrun hst
  obtain (hrun | hrun) := h'.running pid st hrun
  · exact h time pid st hpid htime hname hrun hst
  · have := hs time pid hpid htime hname
    omega

lemma Accounted.mono (h : Accounted began k P) (hPQ : ∀ name, P name → Q name) :
    Accounted began k Q :=
  fun name f hf hf' hshadow ↦ hPQ name (h name f hf hf' hshadow)

lemma Accounted.later (hb : Since began k) (h : Accounted began k P) (h' : Kernel.Later k k') :
    Accounted began k' P :=
  fun name f hf hf' hshadow ↦ h name f hf (hb.later.kept h' hb.inv hf hf') hshadow

/-- Whatever else happens on the machine in the meantime. -/
lemma Cleaner.Inv.later (h : c.Inv denied k) (h' : Kernel.Later k k') : c.Inv denied k' := by
  cases c with
  | idle => trivial
  | getFiles began names =>
    obtain ⟨hb,hnames⟩ := h
    exact ⟨hb.later_trans h',fun name hname ↦ (hnames name hname).mono h'.clock⟩
  | getProcSet began scan names seen =>
    obtain ⟨hb,hscan,hread,hnames,hall⟩ := h
    exact ⟨hb.later_trans h',hscan.later_trans h',hread,hnames,hall.later hb h'⟩
  | unlinks began rest seen =>
    obtain ⟨hb,hread,hrest,hall⟩ := h
    refine ⟨hb.later_trans h',hread,?_,hall.later hb h'⟩
    intro name hname
    obtain ⟨hs,hg⟩ := hrest name hname
    exact ⟨hs.mono h'.clock,hg.later hs h'⟩

/-- The time in the name of a file is past. -/
lemma Kernel.Inv.stamped (hk : k.Inv) {f : Inode} (hf : k.files name=some f) :
    Stamped k.clock name := by
  intro time pid hpid htime hname
  cases hmaker : f.maker with
  | none => exact absurd hname ((hk.foreign name f hf hmaker).2 time pid)
  | some m =>
    obtain ⟨hpid',htime',-,hle,hname'⟩ := hk.named name f m.1 m.2 hf hmaker
    have : time=m.2 := getName_time htime htime' hpid hpid' (hname.symm.trans hname')
    exact this ▸ hle

/-- This is why the processes are read after the files. -/
lemma guarded_closeproc (hscan : Since scan k) (hs : Stamped scan.clock name)
    (hall : ∀ p : Proc, scan.running p.pid=some p.started → k.running p.pid=some p.started →
      p ∈ seen) : Guarded k seen name := by
  intro time pid st hpid htime hname hrun hst
  have hle := hs time pid hpid htime hname
  obtain (hrun' | hlt) := hscan.later.running pid st hrun
  · exact List.mem_map.2 ⟨⟨pid,st⟩,hall ⟨pid,st⟩ hrun' hrun,rfl⟩
  · omega

/-- After its turn a file is gone or has been kept for a reason. -/
lemma Accounted.unlink {rest : List (List Char)}
    (hall : Accounted began k fun name' ↦ name' ∈ name::rest ∨ denied name'=true ∨
      unlinkIfShadow name' (seen.map Proc.pid)=false) (hb : Since began k) (hk : k.Inv) :
    Accounted began (k.unlink denied name seen) fun name' ↦ name' ∈ rest ∨ denied name'=true ∨
      unlinkIfShadow name' (seen.map Proc.pid)=false := by
  intro name' f hf hf' hshadow
  have hkept := hb.later.kept (hk.later_unlink denied name seen).2 hb.inv hf hf'
  obtain (hmem | hreason) := hall name' f hf hkept hshadow
  · obtain (rfl | hmem) := List.mem_cons.1 hmem
    · right
      by_contra hno
      simp only [not_or,Bool.not_eq_true,Bool.not_eq_false] at hno
      rw [Kernel.unlink,if_pos (by simp [hno])] at hf'
      exact (Kernel.remove_some hf').1 rfl
    · exact .inl hmem
  · exact .inr hreason

end

section
variable {ι : Type} [DecidableEq ι] {denied : List Char → Bool} {s s' : Sys ι}

structure Sys.Inv (denied : List Char → Bool) (s : Sys ι) : Prop where
  kernel : s.kernel.Inv
  cleaner : ∀ i, (s.cleaner i).Inv denied s.kernel

namespace Sys

lemma Inv.goto (h : s.Inv denied) {i : ι} {c : Cleaner} (hc : c.Inv denied s.kernel) :
    (s.goto i c).Inv denied where
  kernel := h.kernel
  cleaner j := by
    by_cases hj : j=i
    · simpa only [hj,Sys.goto,Function.update_self] using hc
    · simpa only [Sys.goto,Function.update_of_ne hj] using h.cleaner j

omit [DecidableEq ι] in
lemma Inv.later (h : s.Inv denied) {k : Kernel} (hk : k.Inv) (h' : Kernel.Later s.kernel k) :
    Inv denied {s with kernel := k} :=
  ⟨hk,fun i ↦ (h.cleaner i).later h'⟩

lemma Inv.step (h : s.Inv denied) (hstep : s.Step denied s') : s'.Inv denied := by
  have hinv : ∀ {i : ι} {c : Cleaner}, s.cleaner i=c → c.Inv denied s.kernel :=
    fun {i c} hi ↦ hi ▸ h.cleaner i
  cases hstep with
  | kernel k hk =>
    obtain ⟨hk',hlater⟩ := h.kernel.later_step hk
    exact h.later hk' hlater
  | opendir i hi => exact h.goto ⟨Since.refl h.kernel,by simp⟩
  | readdir i began names name f hi hf =>
    obtain ⟨hb,hnames⟩ := hinv hi
    refine h.goto ⟨hb,fun name' hname' ↦ ?_⟩
    split at hname'
    · obtain (hmem | hmem) := List.mem_append.1 hname'
      · exact hnames name' hmem
      · exact List.mem_singleton.1 hmem ▸ h.kernel.stamped hf
    · exact hnames name' hname'
  | closedir i began names hi hall =>
    obtain ⟨hb,hnames⟩ := hinv hi
    exact h.goto ⟨hb,Since.refl h.kernel,by simp [Read],hnames,hall⟩
  | readproc i began scan names seen p hi hrun hnew =>
    obtain ⟨hb,hscan,hread,hnames,hall⟩ := hinv hi
    refine h.goto ⟨hb,hscan,fun q hq ↦ ?_,hnames,hall⟩
    obtain (hq | hq) := List.mem_append.1 hq
    · exact hread q hq
    · exact List.mem_singleton.1 hq ▸ hb.later.running _ _ hrun
  | closeproc i began scan names seen hi hall =>
    obtain ⟨hb,hscan,hread,hnames,hacc⟩ := hinv hi
    refine h.goto ⟨hb,hread,fun name hname ↦ ⟨?_,?_⟩,hacc.mono fun name ↦ .inl⟩
    · exact (hnames name hname).mono hscan.later.clock
    · exact guarded_closeproc hscan (hnames name hname) hall
  | unlink i began name rest seen hi =>
    obtain ⟨hb,hread,hrest,hall⟩ := hinv hi
    obtain ⟨hk',hlater⟩ := h.kernel.later_unlink denied name seen
    refine (h.later hk' hlater).goto ⟨hb.later_trans hlater,hread,fun name' hname' ↦ ?_,
      hall.unlink hb h.kernel⟩
    obtain ⟨hs,hg⟩ := hrest name' (List.mem_cons_of_mem name hname')
    exact ⟨hs.mono hlater.clock,hg.later hs hlater⟩
  | stop i => exact h.goto trivial

lemma Reachable.inv (h : s.Reachable denied) : s.Inv denied := by
  induction h with
  | refl => exact ⟨⟨nofun,nofun,nofun,nofun⟩,fun _ ↦ trivial⟩
  | tail _ hstep ih => exact ih.step hstep

end Sys

/-- A process has left a file. -/
def left : Kernel := ((Kernel.boot.start 7).create (getName 1 7) (some (⟨7,1⟩,1))).exit 7

/-- Another one has got its ID and has made a file. -/
def reused : Kernel := (left.start 7).create (getName 2 7) (some (⟨7,2⟩,2))

lemma isPid_seven : IsPid 7 := by decide

lemma getName_ne : getName 1 7 ≠ getName 2 7 := fun h ↦
  absurd (getName_time (by decide) (by decide) isPid_seven isPid_seven h) (by decide)

lemma left_old : left.files (getName 1 7)=some ⟨0,some (⟨7,1⟩,1)⟩ :=
  Kernel.create_self (Kernel.boot.start 7) (getName 1 7) (some (⟨7,1⟩,1))

lemma left_some {name : List Char} {f : Inode} (h : left.files name=some f) :
    name=getName 1 7 := by
  obtain (h | ⟨h,-⟩) := Kernel.create_some (k := Kernel.boot.start 7) h
  · cases h
  · exact h

lemma reused_old : reused.files (getName 1 7)=some ⟨0,some (⟨7,1⟩,1)⟩ :=
  (Kernel.create_of_ne getName_ne).trans left_old

lemma reused_new : reused.files (getName 2 7)=some ⟨1,some (⟨7,2⟩,2)⟩ :=
  Kernel.create_self (left.start 7) ..

lemma reused_some {name : List Char} {f : Inode} (h : reused.files name=some f) :
    name=getName 1 7 ∨ name=getName 2 7 := by
  obtain (h | ⟨h,-⟩) := Kernel.create_some h
  · exact .inl (left_some h)
  · exact .inr h

lemma reused_running {pid st : ℕ} (h : reused.running pid=some st) : pid=7 ∧ st=2 := by
  obtain (h | h) := Kernel.start_cases (show (left.start 7).running pid=some st from h)
  · exact h
  · obtain ⟨hne,h⟩ := Kernel.exit_some h
    obtain (⟨rfl,-⟩ | h) := Kernel.start_cases (k := Kernel.boot) h
    · exact absurd rfl hne
    · cases h

/-- A step of the machine while nobody cleans up. -/
lemma Sys.Reachable.kernel {k k' : Kernel}
    (h : (⟨k,fun _ ↦ .idle⟩ : Sys Unit).Reachable fun _ ↦ false) (hk : k.Step k') :
    (⟨k',fun _ ↦ .idle⟩ : Sys Unit).Reachable fun _ ↦ false :=
  h.tail (.kernel k' hk)

lemma reused_reachable : (⟨reused,fun _ ↦ .idle⟩ : Sys Unit).Reachable fun _ ↦ false := by
  have hstart : (⟨Kernel.boot.start 7,fun _ ↦ .idle⟩ : Sys Unit).Reachable fun _ ↦ false :=
    Sys.Reachable.kernel .refl (.start 7 isPid_seven rfl)
  have hleft : (⟨left,fun _ ↦ .idle⟩ : Sys Unit).Reachable fun _ ↦ false :=
    (hstart.kernel (.alloc ⟨7,1⟩ 1 rfl le_rfl le_rfl (by decide) rfl)).kernel (.exit 7)
  have hnone : left.files (getName 2 7)=none :=
    Option.eq_none_iff_forall_ne_some.2 fun f hf ↦ getName_ne (left_some hf).symm
  exact (hleft.kernel (.start 7 isPid_seven rfl)).kernel
    (.alloc ⟨7,2⟩ 2 rfl le_rfl le_rfl (by decide) hnone)

lemma goto_unit (k : Kernel) (c c' : Cleaner) :
    (⟨k,fun _ ↦ c⟩ : Sys Unit).goto () c'=⟨k,fun _ ↦ c'⟩ := by
  rw [Sys.goto,Function.update_eq_const_of_subsingleton]
  rfl

/-- Both files and the second process have been read. -/
lemma reused_unlinks : (⟨reused,fun _ ↦ .unlinks reused [getName 1 7,getName 2 7] [⟨7,2⟩]⟩ :
    Sys Unit).Reachable fun _ ↦ false := by
  have hshadow : ∀ {time : ℕ}, time < 2^63 → nameHasShadowPrefix (getName time 7)=true :=
    fun htime ↦ nameHasShadowPrefix_getName htime isPid_seven
  have h := reused_reachable.tail (.opendir () rfl)
  rw [goto_unit] at h
  replace h := h.tail (.readdir () reused [] (getName 1 7) _ rfl reused_old)
  rw [goto_unit,if_pos (hshadow (by decide))] at h
  replace h := h.tail (.readdir () reused _ (getName 2 7) _ rfl reused_new)
  rw [goto_unit,if_pos (hshadow (by decide))] at h
  replace h := h.tail (.closedir () reused _ rfl fun name f hf _ _ ↦ by
    simpa using reused_some hf)
  rw [goto_unit] at h
  replace h := h.tail (.readproc () reused reused _ [] ⟨7,2⟩ rfl rfl (by simp))
  rw [goto_unit] at h
  replace h := h.tail (.closeproc () reused reused _ _ rfl fun p hrun _ ↦ by
    obtain ⟨hpid,hst⟩ := reused_running hrun
    exact List.mem_singleton.2 (Proc.ext hpid hst))
  rwa [goto_unit] at h

/-- Neither file is removed. -/
lemma reused_done : (⟨reused,fun _ ↦ .unlinks reused [] [⟨7,2⟩]⟩ : Sys Unit).Reachable
    fun _ ↦ false := by
  have hspare : ∀ {time : ℕ}, time < 2^63 →
      reused.unlink (fun _ ↦ false) (getName time 7) [⟨7,2⟩]=reused := by
    intro time htime
    simp [Kernel.unlink,unlinkIfShadow_getName htime isPid_seven]
  have h := reused_unlinks.tail (.unlink () reused (getName 1 7) _ _ rfl)
  rw [goto_unit,hspare (by decide)] at h
  replace h := h.tail (.unlink () reused (getName 2 7) _ _ rfl)
  rwa [goto_unit,hspare (by decide)] at h

/-- Whatever starts, ends, makes and removes files while any number of simulations clean up, and
though process IDs are used again: no file of a process that runs is removed by the cleaning. -/
theorem cleanup_spares_running (h : s.Reachable denied) {i : ι} {began : Kernel}
    {name name' : List Char} {rest : List (List Char)} {seen : List Proc} {f : Inode} {p : Proc}
    {time : ℕ} (hi : s.cleaner i=.unlinks began (name::rest) seen)
    (hf : s.kernel.files name'=some f) (hmaker : f.maker=some (p,time))
    (hrun : s.kernel.running p.pid=some p.started) :
    (s.kernel.unlink denied name seen).files name'=some f := by
  have hc := h.inv.cleaner i
  rw [hi] at hc
  obtain ⟨-,-,hrest,-⟩ := hc
  obtain ⟨hpid,htime,hst,-,hname⟩ := h.inv.kernel.named name' f p time hf hmaker
  by_cases heq : name'=name
  · have hmem := (hrest name List.mem_cons_self).2 time p.pid p.started hpid htime (heq ▸ hname)
      hrun hst
    have hspare : unlinkIfShadow name (seen.map Proc.pid)=false := by
      rw [← heq,hname,unlinkIfShadow_getName htime hpid]
      exact decide_eq_false (not_not.2 hmem)
    rwa [Kernel.unlink,hspare]
  · unfold Kernel.unlink
    split
    next => rwa [Kernel.remove_of_ne heq]
    next => exact hf

theorem cleanup_spares_running_reused :
    (reused.unlink (fun _ ↦ false) (getName 1 7) [⟨7,2⟩]).files (getName 2 7)=
      some ⟨1,some (⟨7,2⟩,2)⟩ :=
  cleanup_spares_running reused_unlinks (i := ()) rfl reused_new rfl rfl
/-- When the loop ends: a file that has been there since `opendir`, may be removed and belongs to a
process that had ended by then is still there only because another process had got its ID when the
process table was read. -/
theorem cleanup_leaves_reused (h : s.Reachable denied) {i : ι} {began : Kernel} {name : List Char}
    {seen : List Proc} {f : Inode} {p : Proc} {time : ℕ} (hi : s.cleaner i=.unlinks began [] seen)
    (hfile : began.files name=some f) (hstill : s.kernel.files name=some f)
    (hmaker : f.maker=some (p,time)) (hended : began.running p.pid ≠ some p.started)
    (hmay : denied name=false) : ∃ q ∈ seen, q.pid=p.pid ∧ q ≠ p := by
  have hc := h.inv.cleaner i
  rw [hi] at hc
  obtain ⟨hb,hread,-,hall⟩ := hc
  obtain ⟨hpid,htime,hst,hle,hname⟩ := hb.inv.named name f p time hfile hmaker
  have hshadow : nameHasShadowPrefix name=true := hname ▸ nameHasShadowPrefix_getName htime hpid
  have hspare : unlinkIfShadow name (seen.map Proc.pid)=false := by
    simpa [hmay] using hall name f hfile hstill hshadow
  rw [hname,unlinkIfShadow_getName htime hpid] at hspare
  obtain ⟨q,hq,heq⟩ := List.mem_map.1 (not_not.1 (of_decide_eq_false hspare))
  refine ⟨q,hq,heq,?_⟩
  rintro rfl
  obtain (hrun | hlt) := hread q hq
  · exact hended hrun
  · omega

theorem cleanup_leaves_reused_seven : ∃ q ∈ ([⟨7,2⟩] : List Proc), q.pid=7 ∧ q ≠ ⟨7,1⟩ :=
  cleanup_leaves_reused reused_done (i := ()) rfl reused_old reused_old rfl (by decide) rfl
end

end Phantom.Shmem
