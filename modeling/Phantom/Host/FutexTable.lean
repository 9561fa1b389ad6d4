import Phantom.Descriptor.WakeOrder
import Mathlib.Algebra.Group.Nat.Defs

/-! The futexes of a host and the table in which they are found, by the process and the address of
their words. -/
namespace Phantom.Host
open Descriptor

/-- `process_getPhysicalAddress` for a process ID and a virtual address; `none` if an assertion
fails. -/
def getPhysicalAddress (pid vPtr : ℕ) : Option ℕ :=
  let pidBits := 16
  let pidShift := 64-pidBits
  let high := (pid <<< pidShift)%2^64
  if high >>> pidShift ≠ pid then none
  else if vPtr >>> pidShift ≠ 0 then none
  else some (vPtr ||| high)

/-- A `Futex` with its physical address. -/
structure PhysicalFutex where
  word : ℕ
  listeners : Futex

/-- `futex_new`. -/
def PhysicalFutex.new (word : ℕ) : PhysicalFutex := ⟨word,.new⟩

/-- The futexes of a host by their identities, which are not used again, and the hash table of
`FutexTable` with its keys and the futexes under them. -/
structure FutexTable where
  heap : ℕ → PhysicalFutex
  next : ℕ
  entries : List (ℕ × ℕ)
  nodup : (entries.map Prod.fst).Nodup

namespace FutexTable

/-- `futextable_new`, before there is any futex. -/
def new : FutexTable := ⟨fun _ ↦ .new 0,0,[],List.nodup_nil⟩

/-- The allocation of a futex. -/
def alloc (table : FutexTable) (word : ℕ) : FutexTable :=
  {table with heap := Function.update table.heap table.next (.new word), next := table.next+1}

/-- What one call does to the listeners of a futex. -/
def adjust (table : FutexTable) (futex : ℕ) (f : Futex → Futex) : FutexTable :=
  {table with
    heap := Function.update table.heap futex ⟨(table.heap futex).word,f (table.heap futex).listeners⟩}

/-- `futextable_get`. -/
def get (table : FutexTable) (ptr : ℕ) : Option ℕ := table.entries.lookup ptr

/-- `futextable_add`. -/
def add (table : FutexTable) (futex : ℕ) : Bool × FutexTable :=
  let index := (table.heap futex).word
  if h : index ∈ table.entries.map Prod.fst then (false,table)
  else (true,{table with
    entries := table.entries++[(index,futex)]
    nodup := by
      rw [List.map_append,List.map_singleton]
      exact table.nodup.append (List.nodup_singleton _) (by simpa using h)})

/-- `futextable_remove`. -/
def remove (table : FutexTable) (futex : ℕ) : Bool × FutexTable :=
  let index := (table.heap futex).word
  if index ∈ table.entries.map Prod.fst then
    (true,{table with
      entries := table.entries.filter (·.1 ≠ index)
      nodup := table.nodup.sublist (List.filter_sublist.map _)})
  else (false,table)

end FutexTable

lemma getPhysicalAddress_eq_some {pid vPtr ptr : ℕ} :
    getPhysicalAddress pid vPtr=some ptr ↔ pid<2^16 ∧ vPtr<2^48 ∧ ptr=2^48*pid+vPtr := by
  unfold getPhysicalAddress
  simp only [Nat.shiftLeft_eq,Nat.shiftRight_eq_div_pow,Nat.reduceSub,ne_eq]
  have hhigh : pid*2^48%2^64/2^48=pid ↔ pid<2^16 := by omega
  have hlow : vPtr/2^48=0 ↔ vPtr<2^48 := by omega
  simp only [hhigh,hlow]
  by_cases hpid : pid<2^16
  · by_cases hv : vPtr<2^48
    · rw [if_neg (not_not_intro hpid),if_neg (not_not_intro hv),show pid*2^48%2^64=2^48*pid by omega,
        Nat.or_comm,← Nat.two_pow_add_eq_or_of_lt hv pid,Option.some.injEq]
      exact ⟨fun h ↦ ⟨hpid,hv,h.symm⟩,fun h ↦ h.2.2.symm⟩
    · rw [if_neg (not_not_intro hpid),if_pos hv]
      exact iff_of_false (by simp) fun h ↦ hv h.2.1
  · rw [if_pos hpid]
    exact iff_of_false (by simp) fun h ↦ hpid h.1

lemma getPhysicalAddress_inj {pid pid' vPtr vPtr' ptr : ℕ} (h : getPhysicalAddress pid vPtr=some ptr)
    (h' : getPhysicalAddress pid' vPtr'=some ptr) : pid=pid' ∧ vPtr=vPtr' := by
  obtain ⟨-,hv,rfl⟩ := getPhysicalAddress_eq_some.mp h
  obtain ⟨-,hv',heq⟩ := getPhysicalAddress_eq_some.mp h'
  omega

namespace FutexTable

variable {table : FutexTable} {ptr futex futex' word : ℕ}

lemma lookup_eq_some {entries : List (ℕ × ℕ)} (hnodup : (entries.map Prod.fst).Nodup) :
    entries.lookup ptr=some futex ↔ (ptr,futex) ∈ entries := by
  induction entries with
  | nil => simp
  | cons e entries ih =>
    obtain ⟨index,f⟩ := e
    rw [List.map_cons,List.nodup_cons] at hnodup
    rw [List.lookup_cons,List.mem_cons]
    by_cases heq : ptr=index
    · subst heq
      have hnot : (ptr,futex) ∉ entries := fun hmem ↦ hnodup.1 (List.mem_map.mpr ⟨_,hmem,rfl⟩)
      simp [hnot,eq_comm]
    · rw [beq_false_of_ne heq]
      simpa [heq] using ih hnodup.2

lemma get_eq_some : table.get ptr=some futex ↔ (ptr,futex) ∈ table.entries :=
  lookup_eq_some table.nodup

lemma get_eq_none : table.get ptr=none ↔ ptr ∉ table.entries.map Prod.fst := by
  rw [Option.eq_none_iff_forall_ne_some]
  simp only [ne_eq,get_eq_some,List.mem_map,Prod.exists,exists_eq_right,exists_and_right,not_exists]

lemma add_of_none (h : table.get (table.heap futex).word=none) :
    (table.add futex).1=true ∧ (table.add futex).2.heap=table.heap ∧
      (table.add futex).2.next=table.next ∧
      (table.add futex).2.entries=table.entries++[((table.heap futex).word,futex)] := by
  unfold add
  dsimp only
  rw [dif_neg (get_eq_none.mp h)]
  exact ⟨rfl,rfl,rfl,rfl⟩

lemma remove_of_some (h : table.get (table.heap futex).word=some futex) :
    (table.remove futex).1=true ∧ (table.remove futex).2.heap=table.heap ∧
      (table.remove futex).2.next=table.next ∧
      ∀ e, e ∈ (table.remove futex).2.entries ↔ e ∈ table.entries ∧ e.1 ≠ (table.heap futex).word := by
  have hmem : (table.heap futex).word ∈ table.entries.map Prod.fst :=
    List.mem_map_of_mem (get_eq_some.mp h)
  unfold remove
  dsimp only
  rw [if_pos hmem]
  exact ⟨rfl,rfl,rfl,fun e ↦ by simp [List.mem_filter]⟩

lemma adjust_self {f : Futex → Futex} :
    (table.adjust futex f).heap futex=⟨(table.heap futex).word,f (table.heap futex).listeners⟩ :=
  Function.update_self ..

lemma adjust_of_ne {f : Futex → Futex} (h : futex' ≠ futex) :
    (table.adjust futex f).heap futex'=table.heap futex' :=
  Function.update_of_ne h ..

@[simp] lemma adjust_word {f : Futex → Futex} :
    ((table.adjust futex f).heap futex').word=(table.heap futex').word := by
  by_cases h : futex'=futex
  · rw [h,adjust_self]
  · rw [adjust_of_ne h]

end FutexTable

end Phantom.Host
