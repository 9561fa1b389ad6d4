import Mathlib.Data.Nat.ModEq
import Mathlib.Tactic

/-! Numbers as bytes, the low byte first. -/
namespace FixedWidth

def leBytes : ℕ → ℕ → List UInt8
  | 0,_ => []
  | k+1,v => UInt8.ofNat v::leBytes k (v/256)

def ofLeBytes : List UInt8 → ℕ
  | [] => 0
  | b::bs => b.toNat+256*ofLeBytes bs

@[simp] lemma length_leBytes (k v : ℕ) : (leBytes k v).length=k := by
  induction k generalizing v with
  | zero => rfl
  | succ k ih => simp [leBytes,ih]

@[simp] lemma ofLeBytes_leBytes (k v : ℕ) : ofLeBytes (leBytes k v)=v%256^k := by
  induction k generalizing v with
  | zero => simp [leBytes,ofLeBytes,Nat.mod_one]
  | succ k ih =>
    rw [leBytes,ofLeBytes,ih,Nat.pow_succ',Nat.mod_mul]
    simp

lemma ofLeBytes_lt (bs : List UInt8) : ofLeBytes bs < 256^bs.length := by
  induction bs with
  | nil => simp [ofLeBytes]
  | cons b bs ih =>
    have hb : b.toNat < 256 := b.toNat_lt
    simp only [ofLeBytes,List.length_cons,Nat.pow_succ]
    omega

/-- The high byte first. -/
def beBytes (k v : ℕ) : List UInt8 := (leBytes k v).reverse

def ofBeBytes (bs : List UInt8) : ℕ := ofLeBytes bs.reverse

@[simp] lemma ofBeBytes_beBytes (k v : ℕ) : ofBeBytes (beBytes k v)=v%256^k := by simp [ofBeBytes,beBytes]

lemma ofBeBytes_lt (bs : List UInt8) : ofBeBytes bs < 256^bs.length := by
  simpa [ofBeBytes] using ofLeBytes_lt bs.reverse

end FixedWidth
