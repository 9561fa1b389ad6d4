import Phantom.Core.Units

/-! What the parsers of unit values read, and what the conversions give. -/
namespace Phantom.Units

open Regex

variable {T : Type} [Prefix T] {suffixes : List String} {s name base : List Char} {q : Quantity T}
  {magnitude : T}

/-- The names of a magnitude, possibly with a suffix. -/
def Named (suffixes : List String) (name : List Char) (magnitude : T) : Prop :=
  ∃ base suffix, name=base++suffix ∧ (suffix=[] ∨ ∃ t ∈ suffixes, suffix=t.toList) ∧
    Quantity.parseMagnitude base=.ok magnitude

/-- A text for a value: an optional plus sign, digits, white space and a name. -/
def Written (suffixes : List String) (s : List Char) (q : Quantity T) : Prop :=
  ∃ sign digits spaces name tail ds, s=sign++digits++spaces++name++tail ∧ (sign=[] ∨ sign=['+']) ∧
    digits ≠ [] ∧ List.Forall₂ (fun c d ↦ toDigit 10 c=some d) digits ds ∧
    q.value.toNat=ofDigits 10 0 ds ∧ (∀ c ∈ spaces, isWhitespace c=true) ∧
    Named suffixes name q.magnitude ∧ ∀ c ∈ tail, isWhitespace c=true ∧ c ≠ '\n'

/-- The letters that the names consist of. -/
def isLetter (c : Char) : Bool := c.isAlpha || c = 'μ'

/-- The names are words, and the first suffix that fits is the one that was added. -/
structure Plain (suffixes : List String) (T : Type) [Prefix T] : Prop where
  letters : ∀ name (magnitude : T), Named suffixes name magnitude → ∀ c ∈ name, isLetter c=true
  stripped : ∀ base suffix (magnitude : T), Quantity.parseMagnitude base=.ok magnitude →
    (suffix=[] ∨ ∃ t ∈ suffixes, suffix=t.toList) →
      Quantity.stripSuffixes suffixes (base++suffix)=base

lemma isWhitespace_eq_false {c : Char} (h : 33 ≤ c.toNat ∧ c.toNat ≤ 122 ∨ c.toNat=956) :
    isWhitespace c=false := by
  simp only [isWhitespace,Bool.or_eq_false_iff,decide_eq_false_iff_not,List.mem_cons,
    List.not_mem_nil,or_false]
  omega

lemma isNumeral_iff {c : Char} : isNumeral c=true ↔ 48 ≤ c.toNat ∧ c.toNat ≤ 57 ∨ c = '.' := by
  simp only [isNumeral,Bool.or_eq_true,decide_eq_true_eq]
  rfl

lemma isSign_iff {c : Char} : isSign c=true ↔ c = '+' ∨ c = '-' := by
  simp only [isSign,Bool.or_eq_true,decide_eq_true_eq]

lemma isLetter_spec {c : Char} (h : isLetter c=true) :
    isWhitespace c=false ∧ isNumeral c=false ∧ isSign c=false ∧ c ≠ '\n' := by
  have hcode : c.toNat=956 ∨ 65 ≤ c.toNat ∧ c.toNat ≤ 90 ∨ 97 ≤ c.toNat ∧ c.toNat ≤ 122 := by
    unfold isLetter Char.isAlpha Char.isUpper Char.isLower at h
    simp only [Bool.or_eq_true,Bool.and_eq_true,decide_eq_true_eq] at h
    rcases h with (h | h) | rfl
    · exact Or.inr (Or.inl ⟨h.1,h.2⟩)
    · exact Or.inr (Or.inr ⟨h.1,h.2⟩)
    · exact Or.inl rfl
  refine ⟨isWhitespace_eq_false (by omega),?_,?_,?_⟩
  · rw [Bool.eq_false_iff,Ne,isNumeral_iff]
    rintro (hnum | rfl)
    · omega
    · exact absurd hcode (by decide)
  · rw [Bool.eq_false_iff,Ne,isSign_iff]
    rintro (rfl | rfl) <;> exact absurd hcode (by decide)
  · rintro rfl
    exact absurd hcode (by decide)

lemma digit_spec {c : Char} {d : ℕ} (h : toDigit 10 c=some d) : 48 ≤ c.toNat ∧ c.toNat ≤ 57 := by
  obtain ⟨hvalue,hlt⟩ := Option.filter_eq_some_iff.mp h
  have hlt := of_decide_eq_true hlt
  unfold digitValue at hvalue
  split_ifs at hvalue with hnum hlower hupper
  · exact hnum
  · have hlower : 97 ≤ c.toNat ∧ c.toNat ≤ 122 := hlower
    have hd := Option.some.inj hvalue
    omega
  · have hupper : 65 ≤ c.toNat ∧ c.toNat ≤ 90 := hupper
    have hd := Option.some.inj hvalue
    omega

/-- The part of the value, and what the regular expression leaves for the unit. -/
lemma accepts_unitRegex {value unit : List Char} (h : Accepts unitRegex s [value,unit]) :
    ∃ spaces, s=value++spaces++unit ∧ (∀ c ∈ value, isSign c=true ∨ isNumeral c=true) ∧
      (∀ c ∈ spaces, isWhitespace c=true) ∧ ∀ c ∈ unit, c ≠ '\n' := by
  simp only [unitRegex,accepts_seq,accepts_group,accepts_opt,accepts_many] at h
  obtain ⟨s₁,g₁,s₂,g₂,rfl,hg,⟨g₁',rfl,s₃,g₃,s₄,g₄,rfl,rfl,⟨rfl,hsign⟩,rfl,hnum⟩,
    spaces,g₅,s₆,g₆,rfl,rfl,⟨rfl,hspaces⟩,g₆',rfl,rfl,hline⟩ := h
  simp only [List.append_nil,List.nil_append,List.singleton_append,List.cons.injEq,and_true] at hg
  obtain ⟨rfl,rfl⟩ := hg
  refine ⟨spaces,by simp only [List.append_assoc],fun c hc ↦ ?_,hspaces,fun c hc ↦ ?_⟩
  · rcases List.mem_append.mp hc with hc | hc
    · rcases hsign with rfl | ⟨a,rfl,ha⟩
      · exact absurd hc List.not_mem_nil
      · rw [List.mem_singleton.mp hc]
        exact Or.inl ha
    · exact Or.inr (hnum c hc)
  · exact of_decide_eq_true (hline c hc)

/-- A text as it should be is taken apart before the white space and before the name. -/
lemma captures_unitRegex {sign digits spaces rest : List Char} (hsign : sign=[] ∨ sign=['+'])
    (hdigits : ∀ c ∈ digits, isNumeral c=true) (hspaces : ∀ c ∈ spaces, isWhitespace c=true)
    (hfirst : ∀ c ∈ (digits++spaces++rest).head?, isSign c=false)
    (hnumeral : ∀ c ∈ (spaces++rest).head?, isNumeral c=false)
    (hword : ∀ c ∈ rest.head?, isWhitespace c=false) (hline : ∀ c ∈ rest, c ≠ '\n') :
    unitRegex.captures (sign++digits++spaces++rest)=some [sign++digits,rest] := by
  obtain ⟨whole,hwhole⟩ : ∃ whole, whole=sign++digits++spaces++rest := ⟨_,rfl⟩
  have htake : whole.take (whole.length-(spaces++rest).length)=sign++digits := by
    rw [hwhole,List.append_assoc _ spaces,List.length_append,Nat.add_sub_cancel,List.take_left]
  rw [← hwhole]
  simp only [captures,unitRegex,search]
  have hunit : ∀ g : List (List Char), searchMany isInLine (fun rest' ↦
      if rest'.isEmpty=true then some (g++([]++(rest.take (rest.length-rest'.length)::[]))) else none)
      rest=some (g++[rest]) := by
    intro g
    have hrest : rest=rest++[] := (List.append_nil rest).symm
    conv_lhs => rw [hrest]
    refine searchMany_greedy (fun c hc ↦ decide_eq_true (hline c hc))
      (fun c hc ↦ absurd hc (Option.not_mem_none c)) ?_
    simp
  have hvalue : searchMany isNumeral (fun rest₁ ↦ searchMany isWhitespace (fun rest₂ ↦
      searchMany isInLine (fun rest' ↦
        if rest'.isEmpty=true then
          some ((whole.take (whole.length-rest₁.length)::([]++[]))++
            ([]++(rest₂.take (rest₂.length-rest'.length)::[])))
        else none) rest₂) rest₁) (digits++(spaces++rest))=some [sign++digits,rest] := by
    refine searchMany_greedy hdigits hnumeral (searchMany_greedy hspaces hword ?_)
    rw [htake]
    exact hunit _
  rcases hsign with rfl | rfl
  · rw [List.nil_append] at hwhole
    have hskip : ∀ c ∈ whole.head?, isSign c=false := by
      rw [hwhole]
      exact hfirst
    rw [search_opt_skip hskip]
    rwa [← List.append_assoc,← hwhole] at hvalue
  · rw [List.append_assoc,List.append_assoc,List.singleton_append] at hwhole
    conv_lhs =>
      arg 3
      rw [hwhole]
    exact search_opt_take rfl hvalue

lemma stripSuffixes_split (suffixes : List String) (unit : List Char) :
    ∃ suffix, unit=Quantity.stripSuffixes suffixes unit++suffix ∧
      (suffix=[] ∨ ∃ t ∈ suffixes, suffix=t.toList) := by
  unfold Quantity.stripSuffixes
  cases hfind : suffixes.findSome? fun suffix ↦ stripSuffix suffix.toList unit with
  | none => exact ⟨[],(List.append_nil unit).symm,Or.inl rfl⟩
  | some base =>
    obtain ⟨t,ht,hstrip⟩ := List.exists_of_findSome?_eq_some hfind
    exact ⟨t.toList,stripSuffix_eq_some.mp hstrip,Or.inr ⟨t,ht,rfl⟩⟩

lemma numeral_of_digits {digits : List Char} {ds : List ℕ}
    (h : List.Forall₂ (fun c d ↦ toDigit 10 c=some d) digits ds) :
    ∀ c ∈ digits, 48 ≤ c.toNat ∧ c.toNat ≤ 57 := by
  induction h with
  | nil => exact fun c hc ↦ absurd hc List.not_mem_nil
  | cons hd _ ih =>
    intro c hc
    rcases List.mem_cons.mp hc with rfl | hc
    · exact digit_spec hd
    · exact ih c hc

lemma head_of_mem {p : Char → Prop} {text : List Char} (h : ∀ c ∈ text, p c) : ∀ c ∈ text.head?, p c :=
  fun c hc ↦ h c (List.mem_of_mem_head? hc)

lemma whitespace_not_numeral {c : Char} (h : isWhitespace c=true) : isNumeral c=false := by
  rw [Bool.eq_false_iff]
  intro hnum
  rcases isNumeral_iff.mp hnum with hnum | rfl
  · rw [isWhitespace_eq_false (by omega)] at h
    cases h
  · exact absurd h (by decide)

lemma Written.captures (hplain : Plain suffixes T) (h : Written suffixes s q) :
    ∃ value unit, unitRegex.captures s=some [value,unit] ∧
      parseUnsigned 10 (2^64-1) (trim value)=.ok q.value.toNat ∧
      Quantity.parseMagnitude (Quantity.stripSuffixes suffixes (trim unit))=.ok q.magnitude := by
  obtain ⟨sign,digits,spaces,name,tail,ds,rfl,hsign,hne,hds,hvalue,hspaces,hnamed,htail⟩ := h
  have hdigits := numeral_of_digits hds
  have hletters := hplain.letters name q.magnitude hnamed
  have hparse : parseUnsigned 10 (2^64-1) (trim (sign++digits))=.ok q.value.toNat := by
    rw [trim_eq]
    · refine parseUnsigned_eq_ok.mpr ⟨sign,digits,rfl,hsign,hne,?_⟩
      exact (addDigits_eq_ok (Nat.zero_le _)).mpr ⟨ds,hds,hvalue,Nat.le_pred_of_lt q.value.toNat_lt⟩
    · intro c hc
      rcases List.mem_append.mp hc with hc | hc
      · rcases hsign with rfl | rfl
        · exact absurd hc List.not_mem_nil
        · rw [List.mem_singleton.mp hc]
          rfl
      · have hc := hdigits c hc
        exact isWhitespace_eq_false (by omega)
  have hnum : ∀ c ∈ digits, isNumeral c=true := fun c hc ↦ isNumeral_iff.mpr (Or.inl (hdigits c hc))
  have hfirst : ∀ text : List Char, ∀ c ∈ (digits++text).head?, isSign c=false := by
    intro text c hc
    obtain ⟨d,digits,rfl⟩ := List.exists_cons_of_ne_nil hne
    obtain rfl := Option.some.inj hc
    have hc := hdigits d List.mem_cons_self
    rw [Bool.eq_false_iff,Ne,isSign_iff]
    rintro (rfl | rfl) <;> exact absurd hc (by decide)
  have hbase : Quantity.parseMagnitude (Quantity.stripSuffixes suffixes name)=.ok q.magnitude := by
    obtain ⟨base,suffix,rfl,hsuffix,hbase⟩ := hnamed
    rw [hplain.stripped base suffix q.magnitude hbase hsuffix]
    exact hbase
  cases name with
  | nil =>
    refine ⟨sign++digits,[],?_,hparse,hbase⟩
    have hall : ∀ c ∈ spaces++tail, isWhitespace c=true := fun c hc ↦
      (List.mem_append.mp hc).elim (hspaces c) fun hc ↦ (htail c hc).1
    rw [List.append_nil,List.append_assoc _ spaces,← List.append_nil (sign++digits++(spaces++tail))]
    refine captures_unitRegex hsign hnum hall ?_ ?_ (fun c hc ↦ nomatch hc) fun c hc ↦ nomatch hc
    · rw [List.append_nil]
      exact hfirst _
    · rw [List.append_nil]
      exact head_of_mem fun c hc ↦ whitespace_not_numeral (hall c hc)
  | cons l name =>
    obtain ⟨hl,hlnum,-,-⟩ := isLetter_spec (hletters l List.mem_cons_self)
    refine ⟨sign++digits,l::name++tail,?_,hparse,?_⟩
    · rw [List.append_assoc _ (l::name)]
      refine captures_unitRegex hsign hnum hspaces ?_ ?_ ?_ ?_
      · rw [List.append_assoc]
        exact hfirst _
      · cases spaces with
        | nil =>
          intro c hc
          cases hc
          exact hlnum
        | cons d spaces =>
          intro c hc
          cases hc
          exact whitespace_not_numeral (hspaces d List.mem_cons_self)
      · intro c hc
        cases hc
        exact hl
      · intro c hc
        rcases List.mem_append.mp hc with hc | hc
        · exact (isLetter_spec (hletters c hc)).2.2.2
        · exact (htail c hc).2
    · rwa [trim_append (fun c hc ↦ (isLetter_spec (hletters c hc)).1) fun c hc ↦ (htail c hc).1]

/-- What is read is what is written. -/
theorem fromStr_eq_ok (hplain : Plain suffixes T) :
    Quantity.fromStr suffixes s=.ok q ↔ Written suffixes s q := by
  constructor
  · intro h
    unfold Quantity.fromStr at h
    split at h
    · next value unit hcaptures =>
      obtain ⟨spaces,rfl,hvalue,hspaces,hline⟩ := accepts_unitRegex (captures_sound hcaptures)
      split at h
      · cases h
      · next magnitude hmagnitude =>
        have htrim : trim value=value := trim_eq fun c hc ↦ by
          rcases hvalue c hc with hsign | hnum
          · rcases isSign_iff.mp hsign with rfl | rfl <;> rfl
          · rcases isNumeral_iff.mp hnum with hnum | rfl
            · exact isWhitespace_eq_false (by omega)
            · rfl
        rw [htrim] at h
        split at h
        · cases h
        · next n hn =>
          injection h with h
          obtain ⟨sign,digits,rfl,hsign,hne,hdigits⟩ := parseUnsigned_eq_ok.mp hn
          obtain ⟨ds,hds,hvalue,hle⟩ := (addDigits_eq_ok (Nat.zero_le _)).mp hdigits
          obtain ⟨lead,tail,hunit,hlead,htail⟩ := trim_split unit
          refine ⟨sign,digits,spaces++lead,trim unit,tail,ds,?_,hsign,hne,hds,?_,?_,?_,?_⟩
          · conv_lhs => rw [hunit]
            simp only [List.append_assoc]
          · rw [← h,← hvalue]
            exact UInt64.toNat_ofNat_of_lt' (Nat.lt_of_le_pred (by decide) hle)
          · intro c hc
            exact (List.mem_append.mp hc).elim (hspaces c) (hlead c)
          · obtain ⟨suffix,hsplit,hsuffix⟩ := stripSuffixes_split suffixes (trim unit)
            rw [← h]
            exact ⟨_,suffix,hsplit,hsuffix,hmagnitude⟩
          · intro c hc
            refine ⟨htail c hc,hline c ?_⟩
            rw [hunit]
            exact List.mem_append_right _ hc
    · cases h
  · intro h
    obtain ⟨value,unit,hcaptures,hvalue,hunit⟩ := h.captures hplain
    unfold Quantity.fromStr
    rw [hcaptures]
    dsimp only
    rw [hunit,hvalue]
    dsimp only
    rw [UInt64.ofNat_toNat]

lemma plain_of_names (names : List String)
    (hnames : ∀ name (magnitude : T), Prefix.fromStr name=.ok magnitude → name ∈ names)
    (hletters : ((names++suffixes).all fun t ↦ t.toList.all isLetter)=true)
    (hstrip : ∀ base ∈ ""::names, ∀ suffix ∈ ""::suffixes,
      Quantity.stripSuffixes suffixes (base.toList++suffix.toList)=base.toList) : Plain suffixes T := by
  have hbase : ∀ base (magnitude : T), Quantity.parseMagnitude base=.ok magnitude →
      ∃ t ∈ ""::names, base=t.toList := by
    intro base magnitude h
    cases base with
    | nil => exact ⟨"",List.mem_cons_self,rfl⟩
    | cons c base =>
      exact ⟨_,List.mem_cons_of_mem _ (hnames _ _ h),String.toList_ofList.symm⟩
  have hsuffix : ∀ suffix : List Char, (suffix=[] ∨ ∃ t ∈ suffixes, suffix=t.toList) →
      ∃ t ∈ ""::suffixes, suffix=t.toList := by
    rintro suffix (rfl | ⟨t,ht,rfl⟩)
    · exact ⟨"",List.mem_cons_self,rfl⟩
    · exact ⟨t,List.mem_cons_of_mem _ ht,rfl⟩
  have hletter : ∀ t ∈ names++suffixes, ∀ c ∈ t.toList, isLetter c=true := fun t ht ↦
    List.all_eq_true.mp (List.all_eq_true.mp hletters t ht)
  constructor
  · rintro name magnitude ⟨base,suffix,rfl,hs,hb⟩ c hc
    obtain ⟨t,ht,rfl⟩ := hbase base magnitude hb
    obtain ⟨t',ht',rfl⟩ := hsuffix suffix hs
    rcases List.mem_append.mp hc with hc | hc
    · rcases List.mem_cons.mp ht with rfl | ht
      · exact absurd hc List.not_mem_nil
      · exact hletter t (List.mem_append_left _ ht) c hc
    · rcases List.mem_cons.mp ht' with rfl | ht'
      · exact absurd hc List.not_mem_nil
      · exact hletter t' (List.mem_append_right _ ht') c hc
  · intro base suffix magnitude hb hs
    obtain ⟨t,ht,rfl⟩ := hbase base magnitude hb
    obtain ⟨t',ht',rfl⟩ := hsuffix suffix hs
    exact hstrip t ht t' ht'

lemma plain_time : Plain [""] TimePrefix := by
  refine plain_of_names ["ns","nanosecond","nanoseconds","us","μs","microsecond",
    "microseconds","ms","millisecond","milliseconds","s","sec","secs","second","seconds","m","min",
    "mins","minute","minutes","h","hr","hrs","hour","hours"] ?_ (by decide) (by decide)
  intro name magnitude h
  have h : TimePrefix.fromStr name=.ok magnitude := h
  unfold TimePrefix.fromStr at h
  split at h
  all_goals first | decide | cases h

lemma plain_bits : Plain ["bit","bits"] SiPrefixUpper := by
  refine plain_of_names ["K","kilo","Ki","kibi","M","mega","Mi","mebi","G","giga","Gi",
    "gibi","T","tera","Ti","tebi"] ?_ (by decide) (by decide)
  intro name magnitude h
  have h : SiPrefixUpper.fromStr name=.ok magnitude := h
  unfold SiPrefixUpper.fromStr at h
  split at h
  all_goals first | decide | cases h

/-- The value in the smallest unit. -/
def Quantity.scaled (q : Quantity T) : ℕ := q.value.toNat*Prefix.relativeMagnitude q.magnitude

/-- A conversion succeeds just when the factor is an integer and the result has 64 bits. -/
lemma convert_spec (q : Quantity T) (target : T) :
    (Prefix.relativeMagnitude target ∣ Prefix.relativeMagnitude q.magnitude →
      Prefix.relativeMagnitude q.magnitude/Prefix.relativeMagnitude target<2^64 →
      (q.value.toNat*(Prefix.relativeMagnitude q.magnitude/Prefix.relativeMagnitude target)<2^64 →
        ∃ r, q.convert target=some (.ok r) ∧ r.magnitude=target ∧ r.value.toNat=
          q.value.toNat*(Prefix.relativeMagnitude q.magnitude/Prefix.relativeMagnitude target)) ∧
      (2^64 ≤ q.value.toNat*(Prefix.relativeMagnitude q.magnitude/Prefix.relativeMagnitude target) →
        ∃ e, q.convert target=some (.error e))) ∧
    (¬ Prefix.relativeMagnitude target ∣ Prefix.relativeMagnitude q.magnitude →
      ∃ e, q.convert target=some (.error e)) := by
  unfold Quantity.convert Prefix.conversionFactor
  refine ⟨fun hdvd hfactor ↦ ?_,fun hdvd ↦ ?_⟩
  · rw [if_neg (not_not.mpr (Nat.mod_eq_zero_of_dvd hdvd))]
    dsimp only
    rw [if_pos hfactor]
    refine ⟨fun hlt ↦ ?_,fun hle ↦ ?_⟩
    · rw [if_pos hlt]
      exact ⟨_,rfl,rfl,UInt64.toNat_ofNat_of_lt' hlt⟩
    · rw [if_neg (not_lt.mpr hle)]
      exact ⟨_,rfl⟩
  · rw [if_pos fun hmod ↦ hdvd (Nat.dvd_of_mod_eq_zero hmod)]
    exact ⟨_,rfl⟩

lemma exported_spec (target : T) (parsed : Except String (Quantity T))
    (hone : Prefix.relativeMagnitude target=1)
    (hbound : ∀ magnitude : T, Prefix.relativeMagnitude magnitude<2^64) :
    (∀ q, parsed=.ok q → q.scaled<2^63 → exported target parsed=some (q.scaled : ℤ)) ∧
    ((∀ q, parsed=.ok q → 2^63 ≤ q.scaled ∧ q.scaled<2^64) → exported target parsed=some (-1)) := by
  have hconvert : ∀ q : Quantity T, q.scaled<2^64 →
      ∃ r, q.convert target=some (.ok r) ∧ r.value.toNat=q.scaled := by
    intro q hlt
    have hspec := (convert_spec q target).1
    rw [hone,Nat.div_one] at hspec
    obtain ⟨r,hr,-,hvalue⟩ := (hspec (one_dvd _) (hbound _)).1 hlt
    exact ⟨r,hr,hvalue⟩
  constructor
  · rintro q rfl hlt
    obtain ⟨r,hr,hvalue⟩ := hconvert q (hlt.trans (by decide))
    unfold exported
    dsimp only
    rw [hr]
    dsimp only
    rw [if_pos (hvalue ▸ hlt),hvalue]
  · intro h
    cases parsed with
    | error e => rfl
    | ok q =>
      obtain ⟨hle,hlt⟩ := h q rfl
      obtain ⟨r,hr,hvalue⟩ := hconvert q hlt
      unfold exported
      dsimp only
      rw [hr]
      dsimp only
      rw [if_neg (not_lt.mpr (hvalue ▸ hle))]

/-- Parsing a time or a bandwidth gives the exact number of nanoseconds or bits per second where it
fits, and `-1` where it does not fit or nothing is written; conversions are exact. -/
theorem units_exact :
    (∀ s, (∀ q : Quantity TimePrefix, Written [""] s q → q.scaled<2^63 →
        parseTimeNanosec s=some (q.scaled : ℤ)) ∧
      ((∀ q : Quantity TimePrefix, Written [""] s q → 2^63 ≤ q.scaled ∧ q.scaled<2^64) →
        parseTimeNanosec s=some (-1))) ∧
    (∀ s, (∀ q : Quantity SiPrefixUpper, Written ["bit","bits"] s q → q.scaled<2^63 →
        parseBandwidth s=some (q.scaled : ℤ)) ∧
      ((∀ q : Quantity SiPrefixUpper, Written ["bit","bits"] s q → 2^63 ≤ q.scaled ∧ q.scaled<2^64) →
        parseBandwidth s=some (-1))) ∧
    ∀ (T : Type) [Prefix T] (q : Quantity T) (target : T),
      (Prefix.relativeMagnitude target ∣ Prefix.relativeMagnitude q.magnitude →
        Prefix.relativeMagnitude q.magnitude/Prefix.relativeMagnitude target<2^64 →
        (q.value.toNat*(Prefix.relativeMagnitude q.magnitude/Prefix.relativeMagnitude target)<2^64 →
          ∃ r, q.convert target=some (.ok r) ∧ r.magnitude=target ∧ r.value.toNat=
            q.value.toNat*(Prefix.relativeMagnitude q.magnitude/Prefix.relativeMagnitude target)) ∧
        (2^64 ≤ q.value.toNat*(Prefix.relativeMagnitude q.magnitude/Prefix.relativeMagnitude target) →
          ∃ e, q.convert target=some (.error e))) ∧
      (¬ Prefix.relativeMagnitude target ∣ Prefix.relativeMagnitude q.magnitude →
        ∃ e, q.convert target=some (.error e)) := by
  refine ⟨fun s ↦ ?_,fun s ↦ ?_,fun T _ q target ↦ convert_spec q target⟩
  · have hspec := exported_spec TimePrefix.nano (Time.fromStr s) rfl
      fun magnitude ↦ by cases magnitude <;> decide
    refine ⟨fun q hq ↦ hspec.1 q ((fromStr_eq_ok plain_time).mpr hq),fun h ↦ hspec.2 fun q hq ↦ ?_⟩
    exact h q ((fromStr_eq_ok plain_time).mp hq)
  · have hspec := exported_spec SiPrefixUpper.base (BitsPerSec.fromStr s) rfl
      fun magnitude ↦ by cases magnitude <;> decide
    refine ⟨fun q hq ↦ hspec.1 q ((fromStr_eq_ok plain_bits).mpr hq),fun h ↦ hspec.2 fun q hq ↦ ?_⟩
    exact h q ((fromStr_eq_ok plain_bits).mp hq)

/-- Two values with a unit, one without, and a conversion. -/
theorem units_exact_of_texts :
    parseTimeNanosec "10 ms".toList=some 10000000 ∧ parseBandwidth "+5 Kbit".toList=some 5000 ∧
      parseTimeNanosec "10.5 s".toList=some (-1) ∧
      ∃ r, (⟨70,.min⟩ : Quantity TimePrefix).convert .sec=some (.ok r) ∧ r.value.toNat=4200 := by
  have htime : Written [""] "10 ms".toList (⟨10,.milli⟩ : Quantity TimePrefix) :=
    ⟨[],['1','0'],[' '],['m','s'],[],[1,0],rfl,Or.inl rfl,by decide,
      .cons rfl (.cons rfl .nil),rfl,List.forall_mem_singleton.mpr rfl,⟨['m','s'],[],rfl,Or.inl rfl,rfl⟩,
      fun c hc ↦ absurd hc List.not_mem_nil⟩
  have hbits : Written ["bit","bits"] "+5 Kbit".toList (⟨5,.kilo⟩ : Quantity SiPrefixUpper) :=
    ⟨['+'],['5'],[' '],['K','b','i','t'],[],[5],rfl,Or.inr rfl,by decide,.cons rfl .nil,rfl,
      List.forall_mem_singleton.mpr rfl,
      ⟨['K'],['b','i','t'],rfl,Or.inr ⟨"bit",by decide,rfl⟩,rfl⟩,fun c hc ↦ absurd hc List.not_mem_nil⟩
  have hfraction : ∀ q : Quantity TimePrefix, Written [""] "10.5 s".toList q →
      2^63 ≤ q.scaled ∧ q.scaled<2^64 := by
    intro q hq
    have hread := (fromStr_eq_ok plain_time).mpr hq
    have herror : (Quantity.fromStr [""] "10.5 s".toList : Except String (Quantity TimePrefix))=
        .error "invalid digit found in string" := by decide
    rw [herror] at hread
    cases hread
  obtain ⟨r,hr,-,hvalue⟩ :=
    ((units_exact.2.2 TimePrefix ⟨70,.min⟩ .sec).1 (by decide) (by decide)).1 (by decide)
  exact ⟨(units_exact.1 _).1 _ htime (by decide),(units_exact.2.1 _).1 _ hbits (by decide),
    (units_exact.1 _).2 hfraction,r,hr,hvalue⟩

/-- 1024 kilobits are 1000 kibibits, but the conversion is refused. -/
theorem convert_refused :
    (⟨1024,.kilo⟩ : Quantity SiPrefixUpper).convert .kibi=
        some (.error "Conversion would lose precision") ∧
      1024*SiPrefixUpper.relativeMagnitude .kilo=1000*SiPrefixUpper.relativeMagnitude .kibi :=
  ⟨rfl,rfl⟩

end Phantom.Units
