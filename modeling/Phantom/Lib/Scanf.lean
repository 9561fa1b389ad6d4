import Mathlib.Algebra.Group.Nat.Defs
import Mathlib.Tactic.Common

/-! Decimal numbers and words as `printf` writes them and `scanf` reads them. -/
namespace Phantom

/-- `isspace`. -/
def isSpace (c : Char) : Bool :=
  c = ' ' || c = '\t' || c = '\n' || c = '\x0b' || c = '\x0c' || c = '\r'

/-- What `printf` writes for `%zu`. -/
def printSize (n : ℕ) : List Char := Nat.toDigits 10 n

/-- A sign in front of a number. -/
def scanSign : List Char → Bool × List Char
  | '-'::buf => (true,buf)
  | '+'::buf => (false,buf)
  | buf => (false,buf)

/-- What `scanf` reads for `%zu`: white space, a sign and digits. A number of more than 64 bits gives the
greatest one. -/
def scanSize (buf : List Char) : Option (ℕ × List Char) :=
  let (negative,buf) := scanSign (buf.dropWhile isSpace)
  let digits := buf.takeWhile Char.isDigit
  let n := Nat.ofDigitChars 10 digits 0
  if digits=[] then none
  else some (if 2^64 ≤ n then 2^64-1 else if negative then (2^64-n)%2^64 else n,
    buf.dropWhile Char.isDigit)

/-- A character of the format. -/
def scanChar (c : Char) : List Char → Option (List Char)
  | [] => none
  | d::buf => if d=c then some buf else none

/-- What `scanf` reads for `%s`: white space and the word after it. -/
def scanText (buf : List Char) : Option (List Char) :=
  let text := (buf.dropWhile isSpace).takeWhile fun c ↦ !isSpace c
  if text=[] then none else some text

lemma isDigit_of_mem_printSize {n : ℕ} {c : Char} (h : c ∈ printSize n) : c.isDigit=true :=
  Nat.isDigit_of_mem_toDigits (by decide) (by decide) h

lemma isSpace_of_isDigit {c : Char} (h : c.isDigit=true) : isSpace c=false := by
  by_contra hs
  simp only [isSpace,Bool.or_eq_true,decide_eq_true_eq,Bool.not_eq_false] at hs
  rcases hs with ((((rfl | rfl) | rfl) | rfl) | rfl) | rfl <;> exact absurd h (by decide)

lemma scanSign_digit {c : Char} (h : c.isDigit=true) (buf : List Char) :
    scanSign (c::buf)=(false,c::buf) := by
  unfold scanSign
  split
  · next heq =>
    cases heq
    exact absurd h (by decide)
  · next heq =>
    cases heq
    exact absurd h (by decide)
  · rfl

/-- A number is read back up to what follows it. -/
theorem scanSize_printSize {n : ℕ} (hn : n<2^64) {buf : List Char}
    (hbuf : ∀ c ∈ buf.head?, c.isDigit=false) : scanSize (printSize n++buf)=some (n,buf) := by
  have hall : ∀ c ∈ printSize n, c.isDigit=true := fun c ↦ isDigit_of_mem_printSize
  have hvalue : Nat.ofDigitChars 10 (printSize n) 0=n := Nat.ofDigitChars_ten_toDigits
  obtain ⟨d,ds,hds⟩ := List.exists_cons_of_ne_nil (show printSize n ≠ [] from Nat.toDigits_ne_nil)
  have hd : d.isDigit=true := hall d (hds ▸ List.mem_cons_self)
  have hskip : (printSize n++buf).dropWhile isSpace=printSize n++buf := by
    rw [hds,List.cons_append,List.dropWhile_cons_of_neg]
    rw [isSpace_of_isDigit hd]
    exact Bool.false_ne_true
  have hsign : scanSign (printSize n++buf)=(false,printSize n++buf) := by
    rw [hds,List.cons_append]
    exact scanSign_digit hd _
  have htake : buf.takeWhile Char.isDigit=[] ∧ buf.dropWhile Char.isDigit=buf := by
    cases buf with
    | nil => exact ⟨rfl,rfl⟩
    | cons c buf =>
      have hc : ¬c.isDigit=true := by
        rw [hbuf c rfl]
        exact Bool.false_ne_true
      exact ⟨List.takeWhile_cons_of_neg hc,List.dropWhile_cons_of_neg hc⟩
  rw [scanSize,hskip,hsign]
  dsimp only
  rw [List.takeWhile_append_of_pos hall,List.dropWhile_append_of_pos hall,htake.1,htake.2,
    List.append_nil,hvalue,if_neg (show printSize n ≠ [] from Nat.toDigits_ne_nil),
    if_neg (Nat.not_le.mpr hn)]
  rfl

/-- A word is read back whole. -/
theorem scanText_word {text : List Char} (h : ∀ c ∈ text, isSpace c=false) :
    scanText text=if text=[] then none else some text := by
  have hskip : text.dropWhile isSpace=text := by
    cases text with
    | nil => rfl
    | cons c text =>
      rw [List.dropWhile_cons_of_neg]
      rw [h c List.mem_cons_self]
      exact Bool.false_ne_true
  have htake : List.takeWhile (fun c ↦ !isSpace c) (text++[])=
      text++List.takeWhile (fun c ↦ !isSpace c) [] :=
    List.takeWhile_append_of_pos fun c hc ↦ by
      rw [h c hc]
      rfl
  rw [List.append_nil,List.takeWhile_nil,List.append_nil] at htake
  rw [scanText,hskip,htake]

end Phantom
