import Phantom.Utility.ProcMaps

/-! Which of the lines that the kernel prints are parsed, and with which result. -/
namespace Phantom.ProcMaps

open Regex

/-- The names and paths of a line. -/
def PathPrintable : MappingPath → Prop
  | .threadStack tid => tid<2^31
  | .otherSpecial name => name ≠ "" ∧ name ∉ ["stack","vdso","heap"] ∧
      threadStackRegex.captures name.toList=none
  | .path path => path.toList.head?=some '/'
  | _ => True

/-- What the kernel prints a line for. -/
structure Printable (m : Mapping) : Prop where
  start_lt : m.start < m.stop
  stop_lt : m.stop<2^64
  offset_lt : m.offset<2^64
  deviceMajor : 0 ≤ m.deviceMajor ∧ m.deviceMajor<2^12
  deviceMinor : 0 ≤ m.deviceMinor ∧ m.deviceMinor<2^20
  inode : 0 ≤ m.inode ∧ m.inode<2^64
  path : ∀ path, m.path=some path → PathPrintable path
  deleted : m.deleted=true → ∃ path, m.path=some (.path path)

/-- No white space in the name. -/
def Solid : MappingPath → Prop
  | .otherSpecial name => ∀ c ∈ name.toList, isSolid c=true
  | .path path => ∀ c ∈ path.toList, isSolid c=true
  | _ => True

/-- What `from_str` is made for: an inode number of 31 bits, and a path without white space. -/
def Readable (m : Mapping) : Prop := m.inode<2^31 ∧ ∀ path, m.path=some path → Solid path

variable {m : Mapping} {padding : ℕ}

/-! The fields. -/

lemma all_solid {s : List Char} (h : s.all isSolid=true) : ∀ c ∈ s, isSolid c=true := List.all_eq_true.mp h

lemma digitChar_spec {d : ℕ} (hd : d<16) : isSolid (Nat.digitChar d)=true ∧ Nat.digitChar d ≠ '-' ∧
    Nat.digitChar d ≠ ':' := by
  have hall : ∀ d<16, isSolid (Nat.digitChar d)=true ∧ Nat.digitChar d ≠ '-' ∧ Nat.digitChar d ≠ ':' := by
    decide
  exact hall d hd

lemma solid_printPadded {radix width n : ℕ} (hradix : 1<radix) (hle : radix ≤ 16) :
    ∀ c ∈ printPadded radix width n, isSolid c=true ∧ c ≠ '-' ∧ c ≠ ':' := by
  intro c hc
  obtain ⟨d,hd,rfl⟩ := mem_printPadded hradix hc
  exact digitChar_spec (hd.trans_le hle)

lemma unsignedField_printPadded {width n : ℕ} (hwidth : 0<width) (hn : n<2^64) (fieldName : String) :
    unsignedField (printPadded 16 width n) fieldName=.ok n := by
  rw [unsignedField,parseUnsigned_printPadded (by decide) le_rfl hwidth (Nat.le_sub_one_of_lt hn)]
  rfl

lemma signedField_printPadded {radix width : ℕ} {z : ℤ} (hradix : 1<radix) (hle : radix ≤ 16)
    (hwidth : 0<width) (hz : 0 ≤ z ∧ z<2^31) (fieldName : String) :
    signedField radix (printPadded radix width z.toNat) fieldName=.ok z := by
  rw [signedField,parseSigned_printPadded hradix hle hwidth (by omega),Int.toNat_of_nonneg hz.1]
  rfl

lemma bitField_bit {letter : Char} (hletter : letter ≠ '-') (b : Bool) (fieldName : String) :
    bitField letter [bit letter b] fieldName=.ok b := by
  cases b with
  | true => exact if_pos rfl
  | false =>
    have hne : [bit letter false] ≠ [letter] := fun heq ↦ hletter (List.singleton_inj.mp heq).symm
    rw [bitField,if_neg hne]
    exact if_pos rfl

lemma sharingFromStr_sharingChar (sharing : Sharing) :
    sharingFromStr [sharingChar sharing]=.ok sharing := by
  cases sharing <;> rfl

/-! Names in brackets. -/

lemma accepts_char {c : Char} {s : List Char} {g : List (List Char)} :
    Accepts (char c) s g ↔ g=[] ∧ s=[c] := by
  simp only [char,accepts_one,beq_iff_eq,exists_eq_right]

lemma accepts_plus {p : Char → Bool} {s : List Char} {g : List (List Char)} :
    Accepts (plus p) s g ↔ g=[] ∧ s ≠ [] ∧ ∀ a ∈ s, p a=true := by
  simp only [plus,accepts_seq,accepts_one,accepts_many]
  constructor
  · rintro ⟨s₁,g₁,s₂,g₂,rfl,rfl,⟨rfl,a,rfl,ha⟩,rfl,hall⟩
    refine ⟨rfl,List.cons_ne_nil _ _,fun c hc ↦ ?_⟩
    rcases List.mem_cons.mp hc with rfl | hc
    · exact ha
    · exact hall c hc
  · rintro ⟨rfl,hne,hall⟩
    obtain ⟨a,s,rfl⟩ := List.exists_cons_of_ne_nil hne
    exact ⟨[a],[],s,[],rfl,rfl,⟨rfl,a,rfl,hall a List.mem_cons_self⟩,rfl,
      fun c hc ↦ hall c (List.mem_cons_of_mem _ hc)⟩

lemma accepts_special {s : List Char} {g : List (List Char)} : Accepts specialRegex s g ↔
    ∃ label, g=[label] ∧ s = '['::(label++[']']) ∧ label ≠ [] ∧ ∀ c ∈ label, isSolid c=true := by
  simp only [specialRegex,accepts_seq,accepts_group,accepts_char,accepts_plus]
  constructor
  · rintro ⟨s₁,g₁,s₂,g₂,rfl,rfl,⟨rfl,rfl⟩,s₃,g₃,s₄,g₄,rfl,rfl,⟨g₅,rfl,rfl,hne,hall⟩,rfl,rfl⟩
    exact ⟨s₃,rfl,rfl,hne,hall⟩
  · rintro ⟨label,rfl,rfl,hne,hall⟩
    exact ⟨['['],[],label++[']'],[label],rfl,rfl,⟨rfl,rfl⟩,label,[label],[']'],[],rfl,rfl,
      ⟨[],rfl,rfl,hne,hall⟩,rfl,rfl⟩

lemma accepts_threadStack {s : List Char} {g : List (List Char)} : Accepts threadStackRegex s g ↔
    ∃ digits, g=[digits] ∧ s="stack:".toList++digits ∧ digits ≠ [] ∧ ∀ c ∈ digits, isDecimal c=true := by
  constructor
  · simp only [threadStackRegex,accepts_seq,accepts_group,accepts_char,accepts_plus]
    rintro ⟨_,_,_,_,rfl,rfl,⟨rfl,rfl⟩,_,_,_,_,rfl,rfl,⟨rfl,rfl⟩,_,_,_,_,rfl,rfl,⟨rfl,rfl⟩,_,_,_,_,rfl,rfl,
      ⟨rfl,rfl⟩,_,_,_,_,rfl,rfl,⟨rfl,rfl⟩,_,_,digits,_,rfl,rfl,⟨rfl,rfl⟩,_,rfl,rfl,hne,hall⟩
    exact ⟨digits,rfl,rfl,hne,hall⟩
  · rintro ⟨digits,rfl,rfl,hne,hall⟩
    have hchar : ∀ c, Accepts (char c) [c] [] := fun c ↦ accepts_char.mpr ⟨rfl,rfl⟩
    have hdigits : Accepts (group (plus isDecimal)) digits [digits] :=
      accepts_group.mpr ⟨[],rfl,accepts_plus.mpr ⟨rfl,hne,hall⟩⟩
    exact Accepts.seq (hchar 's') (Accepts.seq (hchar 't') (Accepts.seq (hchar 'a')
      (Accepts.seq (hchar 'c') (Accepts.seq (hchar 'k') (Accepts.seq (hchar ':') hdigits)))))

lemma captures_unique {r : Regex Char} {s : List Char} {g : List (List Char)} (h : Accepts r s g)
    (hunique : ∀ g', Accepts r s g' → g'=g) : r.captures s=some g := by
  cases hcap : r.captures s with
  | none => exact absurd h (captures_eq_none_iff.mp hcap g)
  | some g' => rw [hunique g' (captures_sound hcap)]

lemma captures_special {label : List Char} (hne : label ≠ []) (hall : ∀ c ∈ label, isSolid c=true) :
    specialRegex.captures ('['::(label++[']']))=some [label] := by
  refine captures_unique (accepts_special.mpr ⟨label,rfl,rfl,hne,hall⟩) fun g' hg ↦ ?_
  obtain ⟨label',rfl,heq,-⟩ := accepts_special.mp hg
  injection heq with _ heq
  rw [List.append_cancel_right heq]

lemma captures_threadStack {digits : List Char} (hne : digits ≠ [])
    (hall : ∀ c ∈ digits, isDecimal c=true) :
    threadStackRegex.captures ("stack:".toList++digits)=some [digits] := by
  refine captures_unique (accepts_threadStack.mpr ⟨digits,rfl,rfl,hne,hall⟩) fun g' hg ↦ ?_
  obtain ⟨digits',rfl,heq,-⟩ := accepts_threadStack.mp hg
  rw [List.append_cancel_left heq]

lemma labelFromStr_threadStack {tid : ℕ} (htid : tid<2^31) :
    labelFromStr ("stack:".toList++printPadded 10 1 tid)=.ok (.threadStack tid) := by
  have hdecimal : ∀ c ∈ printPadded 10 1 tid, isDecimal c=true := by
    intro c hc
    obtain ⟨d,hd,rfl⟩ := mem_printPadded (by decide) hc
    have hall : ∀ d<10, isDecimal (Nat.digitChar d)=true := by decide
    exact hall d hd
  rw [labelFromStr,captures_threadStack (printPadded_ne_nil Nat.one_pos) hdecimal]
  dsimp only
  rw [parseSigned_printPadded (by decide) (by decide) Nat.one_pos (Nat.le_sub_one_of_lt htid)]
  rfl

lemma labelFromStr_otherSpecial {name : String} (h : PathPrintable (.otherSpecial name)) :
    labelFromStr name.toList=.ok (.otherSpecial name) := by
  obtain ⟨-,hname,hthread⟩ := h
  rw [labelFromStr,hthread]
  dsimp only
  rw [String.ofList_toList]
  split
  · exact absurd (by decide) hname
  · exact absurd (by decide) hname
  · exact absurd (by decide) hname
  · rfl

lemma pathFromStr_special (label : List Char) (hne : label ≠ []) (hall : ∀ c ∈ label, isSolid c=true) :
    pathFromStr ('['::(label++[']']))=labelFromStr label := by
  have hslash : ('['::(label++[']'])).head? ≠ some '/' := by
    rw [List.head?_cons]
    decide
  rw [pathFromStr,if_neg hslash,captures_special hne hall]

lemma flatMap_escape {path : List Char} (h : ∀ c ∈ path, isSolid c=true) :
    (path.flatMap fun c ↦ if c = '\n' then "\\012".toList else [c])=path := by
  induction path with
  | nil => rfl
  | cons c path ih =>
    have hc : c ≠ '\n' := by
      rintro rfl
      exact absurd (h _ List.mem_cons_self) (by decide)
    rw [List.flatMap_cons,if_neg hc,ih fun c hc ↦ h c (List.mem_cons_of_mem _ hc),List.singleton_append]

lemma pathFromStr_pathText {path : MappingPath} (h : PathPrintable path) (hsolid : Solid path) :
    pathFromStr (pathText path)=.ok path := by
  cases path with
  | initialStack => exact pathFromStr_special "stack".toList (by decide) (all_solid rfl)
  | vdso => exact pathFromStr_special "vdso".toList (by decide) (all_solid rfl)
  | heap => exact pathFromStr_special "heap".toList (by decide) (all_solid rfl)
  | threadStack tid =>
    refine (pathFromStr_special ("stack:".toList++printPadded 10 1 tid) ?_ ?_).trans
      (labelFromStr_threadStack h)
    · exact List.append_ne_nil_of_left_ne_nil (by decide) _
    · intro c hc
      rcases List.mem_append.mp hc with hc | hc
      · exact all_solid (s := "stack:".toList) rfl c hc
      · exact (solid_printPadded (show 1<10 by decide) (show 10 ≤ 16 by decide) c hc).1
  | otherSpecial name =>
    have hne : name.toList ≠ [] := fun hnil ↦ h.1 (String.toList_eq_nil_iff.mp hnil)
    show pathFromStr ('['::(name.toList++[']']))=_
    rw [pathFromStr_special _ hne hsolid]
    exact labelFromStr_otherSpecial h
  | path path =>
    show pathFromStr (path.toList.flatMap fun c ↦ if c = '\n' then "\\012".toList else [c])=_
    have hslash : path.toList.head?=some '/' := h
    rw [flatMap_escape hsolid,pathFromStr,if_pos hslash,String.ofList_toList]

lemma solid_of_pathFromStr {s : List Char} {path : MappingPath} (hs : ∀ c ∈ s, isSolid c=true)
    (h : pathFromStr s=.ok path) : Solid path := by
  unfold pathFromStr at h
  split_ifs at h with hslash
  · injection h with h
    rw [← h]
    show ∀ c ∈ (String.ofList s).toList, isSolid c=true
    rwa [String.toList_ofList]
  · split at h
    · next label hcap =>
      obtain ⟨label',heq,-,-,hall⟩ := accepts_special.mp (captures_sound hcap)
      obtain rfl := List.singleton_inj.mp heq
      unfold labelFromStr at h
      split at h
      · split at h
        · cases h
        · injection h with h
          rw [← h]
          trivial
      · split at h
        · injection h with h
          rw [← h]
          trivial
        · injection h with h
          rw [← h]
          trivial
        · injection h with h
          rw [← h]
          trivial
        · injection h with h
          rw [← h]
          show ∀ c ∈ (String.ofList label).toList, isSolid c=true
          rwa [String.toList_ofList]
    · cases h

/-! Whole lines. -/

/-- The text of the path, if there is one. -/
def pathPart (m : Mapping) : List Char := m.path.elim [] pathText

def deletedPart (m : Mapping) : List Char := if m.deleted then "(deleted)".toList else []

lemma solid_not_whitespace {c : Char} (h : isSolid c=true) : isWhitespace c=false := by
  rwa [isSolid,Bool.not_eq_true'] at h

lemma pathText_solid {path : MappingPath} (hsolid : Solid path) : ∀ c ∈ pathText path, isSolid c=true := by
  cases path with
  | initialStack => exact all_solid rfl
  | vdso => exact all_solid rfl
  | heap => exact all_solid rfl
  | threadStack tid =>
    show ∀ c ∈ "[stack:".toList++(printPadded 10 1 tid++[']']), _
    intro c hc
    rcases List.mem_append.mp hc with hc | hc
    · exact all_solid (s := "[stack:".toList) rfl c hc
    · rcases List.mem_append.mp hc with hc | hc
      · exact (solid_printPadded (show 1<10 by decide) (show 10 ≤ 16 by decide) c hc).1
      · rw [List.mem_singleton.mp hc]
        rfl
  | otherSpecial name =>
    show ∀ c ∈ '['::(name.toList++[']']), _
    intro c hc
    rcases List.mem_cons.mp hc with rfl | hc
    · rfl
    · rcases List.mem_append.mp hc with hc | hc
      · exact hsolid c hc
      · rw [List.mem_singleton.mp hc]
        rfl
  | path path =>
    show ∀ c ∈ path.toList.flatMap fun c ↦ if c = '\n' then "\\012".toList else [c], _
    rw [flatMap_escape hsolid]
    exact hsolid

lemma pathPart_solid (hr : Readable m) : ∀ c ∈ pathPart m, isSolid c=true := by
  unfold pathPart
  cases hpath : m.path with
  | none => exact fun c hc ↦ absurd hc List.not_mem_nil
  | some path => exact pathText_solid (hr.2 path hpath)

lemma pathPart_ne_nil (h : Printable m) (hr : Readable m) (hpath : m.path ≠ none) : pathPart m ≠ [] := by
  obtain ⟨path,hsome⟩ := Option.ne_none_iff_exists'.mp hpath
  have hread := pathFromStr_pathText (h.path path hsome) (hr.2 path hsome)
  unfold pathPart
  rw [hsome]
  intro hnil
  have hnil : pathText path=[] := hnil
  rw [hnil] at hread
  cases hread

lemma deleted_eq_false (h : Printable m) (hpath : m.path=none) : m.deleted=false := by
  cases hdeleted : m.deleted with
  | false => rfl
  | true =>
    obtain ⟨path,hsome⟩ := h.deleted hdeleted
    rw [hpath] at hsome
    cases hsome

lemma captures_printLine (h : Printable m) (hr : Readable m) (hpadding : m.path ≠ none → 0<padding) :
    lineRegex.captures (printLine m padding)=some [printPadded 16 8 m.start,printPadded 16 8 m.stop,
      [bit 'r' m.read],[bit 'w' m.write],[bit 'x' m.execute],[sharingChar m.sharing],
      printPadded 16 8 m.offset,printPadded 16 2 m.deviceMajor.toNat,
      printPadded 16 2 m.deviceMinor.toNat,printPadded 10 1 m.inode.toNat,pathPart m,deletedPart m] := by
  have hhex : ∀ {width n : ℕ}, ∀ c ∈ printPadded 16 width n, isSolid c=true := fun c hc ↦
    (solid_printPadded (show 1<16 by decide) le_rfl c hc).1
  have hdec : ∀ {width n : ℕ}, ∀ c ∈ printPadded 10 width n, isSolid c=true := fun c hc ↦
    (solid_printPadded (show 1<10 by decide) (show 10 ≤ 16 by decide) c hc).1
  have hspace : ∀ (v : List Char), ∀ c ∈ (' '::v).head?, isSolid c=false := by
    intro v c hc
    cases hc
    rfl
  have hblank : ∀ c ∈ [' '], isWhitespace c=true := List.forall_mem_singleton.mpr rfl
  have hbit : ∀ {letter : Char}, isSolid letter=true → ∀ b, isSolid (bit letter b)=true := by
    intro letter hletter b
    cases b
    · rfl
    · exact hletter
  have hsharing : isSolid (sharingChar m.sharing)=true := by
    cases m.sharing <;> rfl
  have hhead : ∀ {u : List Char} (w : List Char), u ≠ [] → (∀ c ∈ u, isSolid c=true) →
      ∀ d ∈ (u++w).head?, isWhitespace d=false := by
    intro u w hne hall d hd
    obtain ⟨c,u,rfl⟩ := List.exists_cons_of_ne_nil hne
    cases hd
    exact solid_not_whitespace (hall _ List.mem_cons_self)
  have hne : ∀ {width n : ℕ}, 0<width → printPadded 16 width n ≠ [] := fun hwidth ↦
    printPadded_ne_nil hwidth
  unfold captures lineRegex printLine
  refine search_until (hne (by decide)) hhex rfl ?_ ?_ ?_
  · intro c hc
    exact beq_eq_false_iff_ne.mpr (solid_printPadded (show 1<16 by decide) le_rfl c hc).2.1
  · intro c hc
    cases hc
    exact ⟨rfl,rfl⟩
  refine search_token (hne (by decide)) hhex (hspace _) ?_
  refine search_plus (u := [' ']) (List.cons_ne_nil _ _) hblank ?_ ?_
  · intro c hc
    cases hc
    exact solid_not_whitespace (hbit rfl _)
  refine search_char (hbit rfl _) (search_char (hbit rfl _) (search_char (hbit rfl _)
    (search_char hsharing ?_)))
  refine search_plus (u := [' ']) (List.cons_ne_nil _ _) hblank (hhead _ (hne (by decide)) hhex) ?_
  refine search_token (hne (by decide)) hhex (hspace _) ?_
  refine search_plus (u := [' ']) (List.cons_ne_nil _ _) hblank (hhead _ (hne (by decide)) hhex) ?_
  refine search_until (hne (by decide)) hhex rfl ?_ ?_ ?_
  · intro c hc
    exact beq_eq_false_iff_ne.mpr (solid_printPadded (show 1<16 by decide) le_rfl c hc).2.2
  · intro c hc
    cases hc
    exact ⟨rfl,rfl⟩
  refine search_token (hne (by decide)) hhex (hspace _) ?_
  refine search_plus (u := [' ']) (List.cons_ne_nil _ _) hblank
    (hhead _ (printPadded_ne_nil Nat.one_pos) hdec) ?_
  have hnone : m.path=none → (m.path.elim [] pathText)++(if m.deleted then " (deleted)".toList else [])=[] := by
    intro hpath
    rw [hpath,deleted_eq_false h hpath]
    rfl
  refine search_token (printPadded_ne_nil Nat.one_pos) hdec ?_ ?_
  · cases padding with
    | zero =>
      have hpath : m.path=none := by
        by_contra hpath
        exact absurd (hpadding hpath) (lt_irrefl 0)
      rw [hnone hpath]
      exact fun c hc ↦ nomatch hc
    | succ padding => exact hspace _
  refine search_many ?_ ?_ ?_
  · intro c hc
    rw [List.eq_of_mem_replicate hc]
    rfl
  · by_cases hpath : m.path=none
    · rw [hnone hpath]
      exact fun c hc ↦ nomatch hc
    · exact hhead _ (pathPart_ne_nil h hr hpath) (pathPart_solid hr)
  refine search_group_many (u := pathPart m) (pathPart_solid hr) ?_ ?_
  · cases m.deleted with
    | false => exact fun c hc ↦ nomatch hc
    | true => exact hspace _
  unfold deletedPart
  cases m.deleted with
  | false => rfl
  | true =>
    refine search_many (u := [' ']) (v := "(deleted)".toList) hblank ?_ ?_
    · intro c hc
      cases hc
      rfl
    · exact search_last (all_solid rfl) rfl

lemma pathField_pathPart (h : Printable m) (hr : Readable m) : pathField (pathPart m)=.ok m.path := by
  by_cases hpath : m.path=none
  · rw [pathPart,hpath]
    rfl
  · rw [pathField,if_neg (pathPart_ne_nil h hr hpath)]
    obtain ⟨path,hsome⟩ := Option.ne_none_iff_exists'.mp hpath
    have hread := pathFromStr_pathText (h.path path hsome) (hr.2 path hsome)
    rw [pathPart,hsome]
    show parseField _ _ ((pathFromStr (pathText path)).map some)=_
    rw [hread]
    rfl

lemma deletedField_deletedPart : deletedField (deletedPart m)=.ok m.deleted := by
  unfold deletedPart
  cases m.deleted <;> rfl

/-- A readable line is read back. -/
theorem fromStr_printLine (h : Printable m) (hr : Readable m) (hpadding : m.path ≠ none → 0 < padding) :
    fromStr (printLine m padding)=.ok m := by
  have hmajor : 0 ≤ m.deviceMajor ∧ m.deviceMajor<2^31 := ⟨h.deviceMajor.1,h.deviceMajor.2.trans (by decide)⟩
  have hminor : 0 ≤ m.deviceMinor ∧ m.deviceMinor<2^31 := ⟨h.deviceMinor.1,h.deviceMinor.2.trans (by decide)⟩
  rw [fromStr,captures_printLine h hr hpadding]
  dsimp only
  rw [unsignedField_printPadded (by decide) (h.start_lt.trans h.stop_lt),
    unsignedField_printPadded (by decide) h.stop_lt,unsignedField_printPadded (by decide) h.offset_lt,
    bitField_bit (by decide),bitField_bit (by decide),bitField_bit (by decide),
    sharingFromStr_sharingChar,signedField_printPadded (by decide) le_rfl (by decide) hmajor,
    signedField_printPadded (by decide) le_rfl (by decide) hminor,
    signedField_printPadded (by decide) (by decide) Nat.one_pos ⟨h.inode.1,hr.1⟩,
    pathField_pathPart h hr,deletedField_deletedPart]
  rfl

/-! What a line that is read says. -/

lemma of_bind_eq_ok {ε α β : Type} {x : Except ε α} {f : α → Except ε β} {b : β} (h : x >>= f=.ok b) :
    ∃ a, x=.ok a ∧ f a=.ok b := by
  cases x with
  | error e => cases h
  | ok a => exact ⟨a,rfl,h⟩

lemma parseField_eq_ok {α : Type} {field : List Char} {fieldName : String} {parsed : Except String α}
    {res : α} (h : parseField field fieldName parsed=.ok res) : parsed=.ok res := by
  cases parsed with
  | ok res' => exact h
  | error err => cases h

lemma signedField_lt {radix : ℕ} {field : List Char} {fieldName : String} {z : ℤ}
    (h : signedField radix field fieldName=.ok z) : z<2^31 := by
  have hparsed := parseField_eq_ok h
  cases hz : parseSigned radix (2^31-1) field with
  | error kind =>
    rw [hz] at hparsed
    cases hparsed
  | ok z' =>
    rw [hz] at hparsed
    injection hparsed with heq
    have hle := parseSigned_le hz
    omega

lemma pathField_solid {field : List Char} {path : MappingPath} (hfield : ∀ c ∈ field, isSolid c=true)
    (h : pathField field=.ok (some path)) : Solid path := by
  have hparsed := parseField_eq_ok h
  split_ifs at hparsed with hnil
  · cases hparsed
  · cases hread : pathFromStr field with
    | error err =>
      rw [hread] at hparsed
      cases hparsed
    | ok path' =>
      rw [hread] at hparsed
      injection hparsed with heq
      injection heq with heq
      exact heq ▸ solid_of_pathFromStr hfield hread

lemma fromStr_eq_ok {line : List Char} (h : fromStr line=.ok m) : ∃ inode path,
    signedField 10 inode "inode"=.ok m.inode ∧ pathField path=.ok m.path ∧ ∀ c ∈ path, isSolid c=true := by
  unfold fromStr at h
  split at h
  · next start stop read write execute sharing offset major minor inode path deleted hcap =>
    refine ⟨inode,path,?_⟩
    have hsolid : ∀ c ∈ path, isSolid c=true := by
      have hgroups := (captures_sound hcap).groups
      have hpath : ∃ g, Accepts (many isSolid) path g := by
        have hdrop := List.forall₂_drop 10 hgroups
        exact (List.forall₂_cons.mp hdrop).1
      obtain ⟨g,hg⟩ := hpath
      exact (accepts_many.mp hg).2
    obtain ⟨_,-,h⟩ := of_bind_eq_ok h
    obtain ⟨_,-,h⟩ := of_bind_eq_ok h
    obtain ⟨_,-,h⟩ := of_bind_eq_ok h
    obtain ⟨_,-,h⟩ := of_bind_eq_ok h
    obtain ⟨_,-,h⟩ := of_bind_eq_ok h
    obtain ⟨_,-,h⟩ := of_bind_eq_ok h
    obtain ⟨_,-,h⟩ := of_bind_eq_ok h
    obtain ⟨_,-,h⟩ := of_bind_eq_ok h
    obtain ⟨_,-,h⟩ := of_bind_eq_ok h
    obtain ⟨_,hinode,h⟩ := of_bind_eq_ok h
    obtain ⟨_,hpath,h⟩ := of_bind_eq_ok h
    obtain ⟨_,-,h⟩ := of_bind_eq_ok h
    injection h with h
    subst h
    exact ⟨hinode,hpath,hsolid⟩
  · cases h

/-- Whatever the line is: what is read has a small inode number and a path without white space. -/
theorem readable_of_fromStr {line : List Char} (h : fromStr line=.ok m) : Readable m := by
  obtain ⟨inode,path,hinode,hpath,hsolid⟩ := fromStr_eq_ok h
  refine ⟨signedField_lt hinode,fun path' hsome ↦ ?_⟩
  rw [hsome] at hpath
  exact pathField_solid hsolid hpath

/-! The file. -/

lemma solid_printLine (hr : Readable m) (padding : ℕ) : ∀ c ∈ printLine m padding, isSolid c=true ∨ c = ' ' := by
  have hnum : ∀ {radix width n : ℕ}, 1 < radix → radix ≤ 16 → ∀ c ∈ printPadded radix width n,
      isSolid c=true ∨ c = ' ' := fun hradix hle c hc ↦ Or.inl (solid_printPadded hradix hle c hc).1
  have hbit : ∀ letter b, isSolid letter=true → isSolid (bit letter b)=true := by
    intro letter b hletter
    cases b
    · rfl
    · exact hletter
  have hsharing : isSolid (sharingChar m.sharing)=true := by
    cases m.sharing <;> rfl
  have happend : ∀ {u v : List Char}, (∀ c ∈ u, isSolid c=true ∨ c = ' ') →
      (∀ c ∈ v, isSolid c=true ∨ c = ' ') → ∀ c ∈ u++v, isSolid c=true ∨ c = ' ' :=
    fun hu hv c hc ↦ (List.mem_append.mp hc).elim (hu c) (hv c)
  have hcons : ∀ {a : Char} {v : List Char}, isSolid a=true ∨ a = ' ' →
      (∀ c ∈ v, isSolid c=true ∨ c = ' ') → ∀ c ∈ a::v, isSolid c=true ∨ c = ' ' :=
    fun ha hv ↦ List.forall_mem_cons.mpr ⟨ha,hv⟩
  have hdeleted : ∀ c ∈ if m.deleted then " (deleted)".toList else [], isSolid c=true ∨ c = ' ' := by
    cases m.deleted with
    | false => exact fun c hc ↦ absurd hc List.not_mem_nil
    | true => exact hcons (Or.inr rfl) fun c hc ↦ Or.inl (all_solid (s := "(deleted)".toList) rfl c hc)
  refine happend (hnum (by decide) le_rfl) (hcons (Or.inl rfl) ?_)
  refine happend (hnum (by decide) le_rfl) (hcons (Or.inr rfl) ?_)
  refine hcons (Or.inl (hbit _ _ rfl)) (hcons (Or.inl (hbit _ _ rfl)) ?_)
  refine hcons (Or.inl (hbit _ _ rfl)) (hcons (Or.inl hsharing) (hcons (Or.inr rfl) ?_))
  refine happend (hnum (by decide) le_rfl) (hcons (Or.inr rfl) ?_)
  refine happend (hnum (by decide) le_rfl) (hcons (Or.inl rfl) ?_)
  refine happend (hnum (by decide) le_rfl) (hcons (Or.inr rfl) ?_)
  refine happend (hnum (by decide) (by decide)) (happend ?_ (happend ?_ hdeleted))
  · exact fun c hc ↦ Or.inr (List.eq_of_mem_replicate hc)
  · exact fun c hc ↦ Or.inl (pathPart_solid hr c hc)

lemma splitLines_append {line : List Char} (hline : '\n' ∉ line) (s : List Char) :
    splitLines (line++ '\n'::s)=line::splitLines s := by
  induction line with
  | nil => rfl
  | cons c line ih =>
    have hc : c ≠ '\n' := (List.ne_of_not_mem_cons hline).symm
    rw [List.cons_append,splitLines,if_neg hc,ih (List.not_mem_of_not_mem_cons hline)]

lemma stripSuffix_of_not_mem {line : List Char} (hline : '\r' ∉ line) :
    (stripSuffix [ '\r'] line).getD line=line := by
  have hsuffix : ¬ [ '\r'] <:+ line := fun hsuffix ↦ hline (hsuffix.subset (List.mem_singleton_self _))
  rw [stripSuffix,if_neg hsuffix]
  rfl

lemma lines_printFile {mappings : List (Mapping × ℕ)} (hr : ∀ e ∈ mappings, Readable e.1) :
    lines (printFile mappings)=mappings.map fun e ↦ printLine e.1 e.2 := by
  induction mappings with
  | nil => rfl
  | cons e mappings ih =>
    have hsolid := solid_printLine (hr e List.mem_cons_self) e.2
    have hmem : ∀ c, isSolid c=false → c ≠ ' ' → c ∉ printLine e.1 e.2 := by
      intro c hc hspace hmem
      rcases hsolid c hmem with h | h
      · rw [hc] at h
        cases h
      · exact hspace h
    have hfile : printFile (e::mappings)=printLine e.1 e.2++ '\n'::printFile mappings := by
      rw [printFile,List.flatMap_cons,List.append_assoc]
      rfl
    rw [lines,hfile,splitLines_append (hmem '\n' rfl (by decide)),List.map_cons,
      stripSuffix_of_not_mem (hmem '\r' rfl (by decide)),List.map_cons]
    exact congrArg _ (ih fun e he ↦ hr e (List.mem_cons_of_mem _ he))

lemma mapM_eq_ok {α β ε : Type} {f : α → Except ε β} {as : List α} {bs : List β} :
    as.mapM f=.ok bs ↔ List.Forall₂ (fun a b ↦ f a=.ok b) as bs := by
  induction as generalizing bs with
  | nil =>
    rw [List.mapM_nil,List.forall₂_nil_left_iff]
    exact ⟨fun h ↦ (Except.ok.inj h).symm,fun h ↦ congrArg Except.ok h.symm⟩
  | cons a as ih =>
    rw [List.mapM_cons,List.forall₂_cons_left_iff]
    constructor
    · intro h
      obtain ⟨b,hb,h⟩ := of_bind_eq_ok h
      obtain ⟨bs',hbs,h⟩ := of_bind_eq_ok h
      exact ⟨b,bs',hb,ih.mp hbs,(Except.ok.inj h).symm⟩
    · rintro ⟨b,bs',hb,hbs,rfl⟩
      rw [hb,ih.mpr hbs]
      rfl

lemma mapError_eq_ok {α ε ε' : Type} {f : ε → ε'} {x : Except ε α} {a : α} :
    x.mapError f=.ok a ↔ x=.ok a := by
  cases x with
  | error e =>
    constructor
    · intro h
      cases h
    · intro h
      cases h
  | ok b => exact ⟨fun h ↦ congrArg _ (Except.ok.inj h),fun h ↦ congrArg _ (Except.ok.inj h)⟩

lemma parseFileContents_eq_ok {s : List Char} {parsed : List Mapping} :
    parseFileContents s=.ok parsed ↔ List.Forall₂ (fun line m ↦ fromStr line=.ok m) (lines s) parsed := by
  rw [parseFileContents,mapM_eq_ok]
  simp only [mapError_eq_ok]

/-- The mappings that are read. -/
theorem readable_of_parseFileContents {s : List Char} {parsed : List Mapping}
    (h : parseFileContents s=.ok parsed) : ∀ m ∈ parsed, Readable m := by
  have hall := parseFileContents_eq_ok.mp h
  clear h
  generalize lines s=texts at hall
  induction hall with
  | nil => exact fun m hm ↦ absurd hm List.not_mem_nil
  | cons hm _ ih => exact List.forall_mem_cons.mpr ⟨readable_of_fromStr hm,ih⟩

/-- A mapping with the padding that is printed for it. -/
def Line (e : Mapping × ℕ) : Prop := Printable e.1 ∧ (e.1.path ≠ none → 0 < e.2)

/-- The lines that are read back are the readable ones, alone and in a file. -/
theorem reads_iff_readable (mappings : List (Mapping × ℕ)) (h : ∀ e ∈ mappings, Line e) :
    (∀ e ∈ mappings, fromStr (printLine e.1 e.2)=.ok e.1 ↔ Readable e.1) ∧
    (parseFileContents (printFile mappings)=.ok (mappings.map Prod.fst) ↔
      ∀ e ∈ mappings, Readable e.1) := by
  refine ⟨fun e he ↦ ?_,?_,?_⟩
  · exact ⟨readable_of_fromStr,fun hr ↦ fromStr_printLine (h e he).1 hr (h e he).2⟩
  · intro hparsed e he
    exact readable_of_parseFileContents hparsed e.1 (List.mem_map_of_mem he)
  · intro hr
    rw [parseFileContents_eq_ok,lines_printFile hr,List.forall₂_map_left_iff,List.forall₂_map_right_iff,
      List.forall₂_same]
    exact fun e he ↦ fromStr_printLine (h e he).1 (hr e he) (h e he).2

/-- A file under a directory whose name has a space in it. -/
def spaced : Mapping :=
  ⟨0x400000,0x401000,true,false,true,.priv,0,8,1,42,some (.path "/a b"),false⟩

/-- A file whose name has no space. -/
def joined : Mapping := {spaced with path := some (.path "/ab")}

lemma line_path {path : String} (h : path.toList.head?=some '/') :
    Line ({spaced with path := some (.path path)},1) := by
  refine ⟨?_,fun _ ↦ Nat.one_pos⟩
  have hfields : spaced.start<spaced.stop ∧ spaced.stop<2^64 ∧ spaced.offset<2^64 ∧
      (0 ≤ spaced.deviceMajor ∧ spaced.deviceMajor<2^12) ∧
      (0 ≤ spaced.deviceMinor ∧ spaced.deviceMinor<2^20) ∧ 0 ≤ spaced.inode ∧ spaced.inode<2^64 := by
    decide
  obtain ⟨hstart,hstop,hoffset,hmajor,hminor,hinode⟩ := hfields
  refine ⟨hstart,hstop,hoffset,hmajor,hminor,hinode,fun path' hpath ↦ ?_,fun hdeleted ↦ ?_⟩
  · injection hpath with hpath
    rw [← hpath]
    exact h
  · cases hdeleted

lemma line_spaced : Line (spaced,1) := line_path (by decide)

lemma not_readable_spaced : ¬ Readable spaced := by
  intro hr
  have hsolid : ∀ c ∈ "/a b".toList, isSolid c=true := hr.2 _ rfl
  exact absurd (hsolid ' ' (by decide)) (by decide)

/-- The name without a space is read back, and with a line of the other one the file is not. -/
theorem reads_iff_readable_of_spaced :
    fromStr (printLine joined 1)=.ok joined ∧
      parseFileContents (printFile [(joined,1)])=.ok [joined] ∧
      parseFileContents (printFile [(joined,1),(spaced,1)]) ≠ .ok [joined,spaced] := by
  have hline : ∀ e ∈ [(joined,1)], Line e := List.forall_mem_singleton.mpr (line_path (by decide))
  have hreadable : ∀ e ∈ [(joined,1)], Readable e.1 := by
    refine List.forall_mem_singleton.mpr ⟨by decide,fun path hpath ↦ ?_⟩
    cases hpath
    exact all_solid (s := "/ab".toList) (by decide)
  obtain ⟨hread,hfile⟩ := reads_iff_readable [(joined,1)] hline
  refine ⟨(hread _ List.mem_cons_self).mpr (hreadable _ List.mem_cons_self),hfile.mpr hreadable,
    fun hboth ↦ ?_⟩
  have hlines : ∀ e ∈ [(joined,1),(spaced,1)], Line e :=
    List.forall_mem_cons.mpr ⟨hline _ List.mem_cons_self,List.forall_mem_singleton.mpr line_spaced⟩
  exact not_readable_spaced ((reads_iff_readable _ hlines).2.mp hboth (spaced,1) (by simp))

/-- Its line is printed, and is not read. -/
theorem not_reads_spaced : (∀ e ∈ [(spaced,1)], Line e) ∧ fromStr (printLine spaced 1) ≠ .ok spaced ∧
    parseFileContents (printFile [(spaced,1)]) ≠ .ok [spaced] :=
  ⟨List.forall_mem_singleton.mpr line_spaced,fun h ↦ not_readable_spaced (readable_of_fromStr h),
    fun h ↦ not_readable_spaced (readable_of_parseFileContents h spaced List.mem_cons_self)⟩

end Phantom.ProcMaps
