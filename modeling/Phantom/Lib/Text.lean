import Mathlib.Data.Nat.Digits.Defs
import Mathlib.Data.List.DropRight
import Mathlib.Data.List.Forall2

/-! White space and numbers in text. A text is a list of Unicode scalar values. -/
namespace Phantom

/-- The characters with the property `White_Space`: `\s` of a regular expression. -/
def isWhitespace (c : Char) : Bool :=
  decide (9 ≤ c.toNat ∧ c.toNat ≤ 13 ∨ 0x2000 ≤ c.toNat ∧ c.toNat ≤ 0x200a) ||
    c.toNat ∈ [0x20,0x85,0xa0,0x1680,0x2028,0x2029,0x202f,0x205f,0x3000]

/-- `str::trim`. -/
def trim (s : List Char) : List Char := (s.dropWhile isWhitespace).rdropWhile isWhitespace

/-- `str::strip_suffix`. -/
def stripSuffix (t s : List Char) : Option (List Char) :=
  if t <:+ s then some (s.take (s.length-t.length)) else none

/-- Why a text is no number. -/
inductive IntErrorKind
  | empty
  | invalidDigit
  | posOverflow
  | negOverflow
  deriving DecidableEq, Repr

def IntErrorKind.message : IntErrorKind → String
  | empty => "cannot parse integer from empty string"
  | invalidDigit => "invalid digit found in string"
  | posOverflow => "number too large to fit in target type"
  | negOverflow => "number too small to fit in target type"

/-- The digits of radix 36. -/
def digitValue (c : Char) : Option ℕ :=
  if '0' ≤ c ∧ c ≤ '9' then some (c.toNat-48)
  else if 'a' ≤ c ∧ c ≤ 'z' then some (c.toNat-87)
  else if 'A' ≤ c ∧ c ≤ 'Z' then some (c.toNat-55)
  else none

/-- `char::to_digit`. -/
def toDigit (radix : ℕ) (c : Char) : Option ℕ := (digitValue c).filter fun d ↦ decide (d<radix)

/-- Read digits behind the value `acc`, up to `hi`. -/
def addDigits (radix hi : ℕ) (overflow : IntErrorKind) (acc : ℕ) : List Char → Except IntErrorKind ℕ
  | [] => .ok acc
  | c::cs =>
    match toDigit radix c with
    | none => .error .invalidDigit
    | some d =>
      if acc*radix+d ≤ hi then addDigits radix hi overflow (acc*radix+d) cs else .error overflow

/-- `from_str_radix` of an unsigned type whose greatest value is `hi`. -/
def parseUnsigned (radix hi : ℕ) : List Char → Except IntErrorKind ℕ
  | [] => .error .empty
  | ['+'] => .error .invalidDigit
  | ['-'] => .error .invalidDigit
  | '+'::cs => addDigits radix hi .posOverflow 0 cs
  | cs => addDigits radix hi .posOverflow 0 cs

/-- `from_str_radix` of a signed type whose greatest value is `hi`. -/
def parseSigned (radix hi : ℕ) : List Char → Except IntErrorKind ℤ
  | [] => .error .empty
  | ['+'] => .error .invalidDigit
  | ['-'] => .error .invalidDigit
  | '+'::cs => (addDigits radix hi .posOverflow 0 cs).map Int.ofNat
  | '-'::cs => (addDigits radix (hi+1) .negOverflow 0 cs).map fun n ↦ -Int.ofNat n
  | cs => (addDigits radix hi .posOverflow 0 cs).map Int.ofNat

/-- The number that digits denote behind the value `acc`. -/
def ofDigits (radix acc : ℕ) (ds : List ℕ) : ℕ := ds.foldl (fun acc d ↦ acc*radix+d) acc

/-- Digits in their usual order, with leading zeros up to a width. -/
def printPadded (radix width n : ℕ) : List Char :=
  List.replicate (width-(Nat.digits radix n).length) '0'++
    (Nat.digits radix n).reverse.map Nat.digitChar

variable {radix hi acc n : ℕ} {overflow : IntErrorKind} {cs : List Char} {ds : List ℕ}

lemma toDigit_lt {c : Char} {d : ℕ} (h : toDigit radix c=some d) : d<radix := by
  exact of_decide_eq_true (Option.filter_eq_some_iff.mp h).2

lemma le_ofDigits (hradix : 0<radix) (acc : ℕ) (ds : List ℕ) : acc ≤ ofDigits radix acc ds := by
  induction ds generalizing acc with
  | nil => exact le_rfl
  | cons d ds ih =>
    have hle := Nat.le_mul_of_pos_right acc hradix
    exact (Nat.le_add_right_of_le hle).trans (ih (acc*radix+d))

/-- A number is read exactly if all its characters are digits and it is not too large. -/
lemma addDigits_eq_ok (hacc : acc ≤ hi) : addDigits radix hi overflow acc cs=.ok n ↔
    ∃ ds, List.Forall₂ (fun c d ↦ toDigit radix c=some d) cs ds ∧ n=ofDigits radix acc ds ∧ n ≤ hi := by
  induction cs generalizing acc with
  | nil =>
    constructor
    · intro h
      injection h with h
      exact ⟨[],List.Forall₂.nil,h.symm,h ▸ hacc⟩
    · rintro ⟨ds,hds,rfl,-⟩
      rw [List.forall₂_nil_left_iff.mp hds]
      rfl
  | cons c cs ih =>
    unfold addDigits
    cases hc : toDigit radix c with
    | none =>
      constructor
      · exact fun h ↦ nomatch h
      · rintro ⟨ds,hds,-⟩
        obtain ⟨d,ds,hd,-,rfl⟩ := List.forall₂_cons_left_iff.mp hds
        rw [hc] at hd
        cases hd
    | some d =>
      dsimp only
      have hradix : 0<radix := (Nat.zero_le d).trans_lt (toDigit_lt hc)
      split_ifs with hle
      · rw [ih hle]
        constructor
        · rintro ⟨ds,hds,hn,hhi⟩
          exact ⟨d::ds,List.Forall₂.cons hc hds,hn,hhi⟩
        · rintro ⟨ds,hds,hn,hhi⟩
          obtain ⟨e,es,he,hes,rfl⟩ := List.forall₂_cons_left_iff.mp hds
          rw [hc] at he
          cases he
          exact ⟨es,hes,hn,hhi⟩
      · constructor
        · exact fun h ↦ nomatch h
        · rintro ⟨ds,hds,hn,hhi⟩
          obtain ⟨e,es,he,hes,rfl⟩ := List.forall₂_cons_left_iff.mp hds
          rw [hc] at he
          cases he
          have hge := le_ofDigits hradix (acc*radix+d) es
          have hn : n=ofDigits radix (acc*radix+d) es := hn
          omega

lemma toDigit_digitChar {d : ℕ} (hd : d<radix) (hradix : radix ≤ 16) :
    toDigit radix (Nat.digitChar d)=some d := by
  have hvalue : ∀ d<16, digitValue (Nat.digitChar d)=some d := by decide
  rw [toDigit,hvalue d (hd.trans_le hradix),Option.filter_some,if_pos (decide_eq_true hd)]

lemma ofDigits_replicate_zero (k : ℕ) (es : List ℕ) :
    ofDigits radix 0 (List.replicate k 0++es)=ofDigits radix 0 es := by
  induction k with
  | zero => rfl
  | succ k ih =>
    rw [List.replicate_succ,List.cons_append]
    show ofDigits radix (0*radix+0) _=_
    rw [Nat.zero_mul]
    exact ih

lemma ofDigits_reverse (ds : List ℕ) : ofDigits radix 0 ds.reverse=Nat.ofDigits radix ds := by
  rw [ofDigits,List.foldl_reverse,Nat.ofDigits_eq_foldr]
  congr 1
  funext d acc
  rw [Nat.mul_comm,Nat.add_comm]
  rfl

/-- A printed number is read back. -/
theorem addDigits_printPadded (hradix : 1<radix) (hle : radix ≤ 16) (width : ℕ) (hn : n ≤ hi) :
    addDigits radix hi overflow 0 (printPadded radix width n)=.ok n := by
  rw [addDigits_eq_ok (Nat.zero_le hi)]
  refine ⟨List.replicate (width-(Nat.digits radix n).length) 0++(Nat.digits radix n).reverse,?_,?_,hn⟩
  · refine List.rel_append ?_ ?_
    · rw [List.forall₂_iff_get]
      refine ⟨by rw [List.length_replicate,List.length_replicate],fun i _ _ ↦ ?_⟩
      simp only [List.get_eq_getElem,List.getElem_replicate]
      exact toDigit_digitChar (d := 0) (Nat.zero_lt_of_lt hradix) hle
    · rw [List.forall₂_map_left_iff,List.forall₂_same]
      intro d hd
      exact toDigit_digitChar (Nat.digits_lt_base hradix (List.mem_reverse.mp hd)) hle
  · rw [ofDigits_replicate_zero,ofDigits_reverse,Nat.ofDigits_digits]

lemma toDigit_sign {c : Char} (h : c = '+' ∨ c = '-') : toDigit radix c=none := by
  rcases h with rfl | rfl <;> rfl

lemma not_sign_of_addDigits {c : Char} (h : addDigits radix hi overflow acc (c::cs)=.ok n) :
    c ≠ '+' ∧ c ≠ '-' := by
  refine not_or.mp fun hsign ↦ ?_
  rw [addDigits,toDigit_sign hsign] at h
  cases h

/-- An unsigned number has an optional plus sign and at least one digit. -/
theorem parseUnsigned_eq_ok : parseUnsigned radix hi cs=.ok n ↔ ∃ sign digits, cs=sign++digits ∧
    (sign=[] ∨ sign=['+']) ∧ digits ≠ [] ∧ addDigits radix hi .posOverflow 0 digits=.ok n := by
  constructor
  · intro h
    unfold parseUnsigned at h
    split at h
    · cases h
    · cases h
    · cases h
    · next cs hne =>
      refine ⟨['+'],cs,rfl,Or.inr rfl,?_,h⟩
      rintro rfl
      exact hne rfl
    · next hnil _ _ _ => exact ⟨[],cs,rfl,Or.inl rfl,fun hcs ↦ hnil hcs,h⟩
  · rintro ⟨sign,digits,rfl,hsign,hne,h⟩
    obtain ⟨c,ds,rfl⟩ := List.exists_cons_of_ne_nil hne
    obtain ⟨hplus,hminus⟩ := not_sign_of_addDigits h
    rcases hsign with rfl | rfl
    · unfold parseUnsigned
      split
      · next heq => cases heq
      · next heq =>
        injection heq with hc
        exact absurd hc hplus
      · next heq =>
        injection heq with hc
        exact absurd hc hminus
      · next heq =>
        injection heq with hc
        exact absurd hc hplus
      · exact h
    · exact h

lemma mem_printPadded (hradix : 1<radix) {width : ℕ} {c : Char} (hc : c ∈ printPadded radix width n) :
    ∃ d<radix, c=Nat.digitChar d := by
  rcases List.mem_append.mp hc with hc | hc
  · exact ⟨0,Nat.zero_lt_of_lt hradix,List.eq_of_mem_replicate hc⟩
  · obtain ⟨d,hd,rfl⟩ := List.mem_map.mp hc
    exact ⟨d,Nat.digits_lt_base hradix (List.mem_reverse.mp hd),rfl⟩

lemma printPadded_ne_nil {width : ℕ} (hwidth : 0<width) : printPadded radix width n ≠ [] := by
  intro hnil
  have hlen := congrArg List.length hnil
  simp only [printPadded,List.length_append,List.length_replicate,List.length_map,List.length_reverse,
    List.length_nil] at hlen
  omega

theorem parseUnsigned_printPadded (hradix : 1<radix) (hle : radix ≤ 16) {width : ℕ} (hwidth : 0<width)
    (hn : n ≤ hi) : parseUnsigned radix hi (printPadded radix width n)=.ok n :=
  parseUnsigned_eq_ok.mpr ⟨[],_,rfl,Or.inl rfl,printPadded_ne_nil hwidth,
    addDigits_printPadded hradix hle width hn⟩

theorem parseSigned_printPadded (hradix : 1<radix) (hle : radix ≤ 16) {width : ℕ} (hwidth : 0<width)
    (hn : n ≤ hi) : parseSigned radix hi (printPadded radix width n)=.ok (n : ℤ) := by
  have h : addDigits radix hi .posOverflow 0 (printPadded radix width n)=.ok n :=
    addDigits_printPadded hradix hle width hn
  obtain ⟨c,cs,hcs⟩ := List.exists_cons_of_ne_nil (printPadded_ne_nil (n := n) hwidth)
  rw [hcs] at h ⊢
  obtain ⟨hplus,hminus⟩ := not_sign_of_addDigits h
  unfold parseSigned
  split
  · next heq => cases heq
  · next heq =>
    injection heq with hc
    exact absurd hc hplus
  · next heq =>
    injection heq with hc
    exact absurd hc hminus
  · next heq =>
    injection heq with hc
    exact absurd hc hplus
  · next heq =>
    injection heq with hc
    exact absurd hc hminus
  · rw [h]
    rfl

lemma parseSigned_le {z : ℤ} (h : parseSigned radix hi cs=.ok z) : z ≤ hi := by
  have hup : ∀ ds, (addDigits radix hi .posOverflow 0 ds).map Int.ofNat=.ok z → z ≤ hi := by
    intro ds h
    cases hds : addDigits radix hi .posOverflow 0 ds with
    | error e =>
      rw [hds] at h
      cases h
    | ok n =>
      rw [hds] at h
      injection h with h
      obtain ⟨-,-,-,hle⟩ := (addDigits_eq_ok (Nat.zero_le hi)).mp hds
      rw [← h]
      exact Int.ofNat_le.mpr hle
  unfold parseSigned at h
  split at h
  · cases h
  · cases h
  · cases h
  · exact hup _ h
  · next ds _ =>
    cases hds : addDigits radix (hi+1) .negOverflow 0 ds with
    | error e =>
      rw [hds] at h
      cases h
    | ok n =>
      rw [hds] at h
      injection h with h
      rw [← h]
      exact (Int.neg_nonpos_of_nonneg (Int.natCast_nonneg n)).trans (Int.natCast_nonneg hi)
  · exact hup _ h

/-! Trimming. -/

variable {s t u : List Char}

lemma trim_split (s : List Char) : ∃ lead tail, s=lead++trim s++tail ∧
    (∀ c ∈ lead, isWhitespace c=true) ∧ ∀ c ∈ tail, isWhitespace c=true := by
  refine ⟨s.takeWhile isWhitespace,(s.dropWhile isWhitespace).rtakeWhile isWhitespace,?_,
    fun c ↦ List.mem_takeWhile_imp,fun c ↦ List.mem_rtakeWhile_imp⟩
  rw [trim,List.append_assoc,List.rdropWhile_append_rtakeWhile,List.takeWhile_append_dropWhile]

lemma trim_append (hs : ∀ c ∈ s, isWhitespace c=false) (ht : ∀ c ∈ t, isWhitespace c=true) :
    trim (s++t)=s := by
  cases s with
  | nil =>
    rw [List.nil_append,trim,List.dropWhile_eq_nil_iff.mpr ht,List.rdropWhile_nil]
  | cons c s =>
    have hc : ¬ isWhitespace c=true := by
      rw [hs c List.mem_cons_self]
      exact Bool.false_ne_true
    have hlast : ∀ hne : c::s ≠ [], ¬ isWhitespace ((c::s).getLast hne)=true := by
      intro hne
      rw [hs _ (List.getLast_mem hne)]
      exact Bool.false_ne_true
    rw [trim,List.cons_append,List.dropWhile_cons_of_neg hc,← List.cons_append]
    induction t using List.reverseRecOn with
    | nil => rw [List.append_nil,List.rdropWhile_eq_self_iff.mpr hlast]
    | append_singleton t d ih =>
      rw [← List.append_assoc,List.rdropWhile_concat_pos _ _ _
        (ht d (List.mem_append_right _ (List.mem_singleton.mpr rfl)))]
      exact ih fun c hc ↦ ht c (List.mem_append_left _ hc)

lemma trim_eq (hs : ∀ c ∈ s, isWhitespace c=false) : trim s=s := by
  have htrim := trim_append hs (t := []) fun c hc ↦ absurd hc List.not_mem_nil
  rwa [List.append_nil] at htrim

lemma stripSuffix_append (s t : List Char) : stripSuffix t (s++t)=some s := by
  rw [stripSuffix,if_pos (List.suffix_append s t),List.length_append,Nat.add_sub_cancel,List.take_left]

lemma stripSuffix_eq_some : stripSuffix t s=some u ↔ s=u++t := by
  constructor
  · intro h
    unfold stripSuffix at h
    split_ifs at h with hsuffix
    obtain ⟨v,rfl⟩ := hsuffix
    rw [List.length_append,Nat.add_sub_cancel,List.take_left] at h
    rw [Option.some.inj h]
  · rintro rfl
    exact stripSuffix_append u t

end Phantom
