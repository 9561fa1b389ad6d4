import Mathlib.Data.List.Forall2
import Mathlib.Tactic.Common

/-! Regular expressions with captured groups. A backtracking matcher tries the ways to match in a
fixed order, in which a repetition takes as much as it can at first. -/
namespace Phantom

inductive Regex (α : Type)
  | one (p : α → Bool)
  | opt (p : α → Bool)
  | many (p : α → Bool)
  | seq (r r' : Regex α)
  | group (r : Regex α)

namespace Regex

variable {α β : Type}

def plus (p : α → Bool) : Regex α := seq (one p) (many p)

/-- Some of the elements with `p`, as many as possible at first, and then `k`. -/
def searchMany (p : α → Bool) (k : List α → Option β) : List α → Option β
  | [] => k []
  | a::s => if p a then (searchMany p k s).or (k (a::s)) else k (a::s)

/-- The first way to match the expression and then `k`, which is given the groups and the rest. -/
def search : Regex α → (List (List α) → List α → Option β) → List α → Option β
  | one _,_,[] => none
  | one p,k,a::s => if p a then k [] s else none
  | opt _,k,[] => k [] []
  | opt p,k,a::s => if p a then (k [] s).or (k [] (a::s)) else k [] (a::s)
  | many p,k,s => searchMany p (k []) s
  | seq r r',k,s => r.search (fun groups rest ↦
      r'.search (fun groups' rest' ↦ k (groups++groups') rest') rest) s
  | group r,k,s => r.search (fun groups rest ↦ k (s.take (s.length-rest.length)::groups) rest) s

/-- The groups of an expression that is anchored at both ends. -/
def captures (r : Regex α) (s : List α) : Option (List (List α)) :=
  r.search (fun groups rest ↦ if rest.isEmpty then some groups else none) s

/-- The expression matches a list, with these groups. -/
inductive Accepts : Regex α → List α → List (List α) → Prop
  | one {p : α → Bool} {a : α} (h : p a=true) : Accepts (one p) [a] []
  | skip (p : α → Bool) : Accepts (opt p) [] []
  | take {p : α → Bool} {a : α} (h : p a=true) : Accepts (opt p) [a] []
  | many {p : α → Bool} {s : List α} (h : ∀ a ∈ s, p a=true) : Accepts (many p) s []
  | seq {r r' : Regex α} {s s' : List α} {g g' : List (List α)} (h : Accepts r s g)
      (h' : Accepts r' s' g') : Accepts (seq r r') (s++s') (g++g')
  | group {r : Regex α} {s : List α} {g : List (List α)} (h : Accepts r s g) :
      Accepts (group r) s (s::g)

variable {p : α → Bool} {r r' : Regex α} {s t u v : List α} {b : β} {g : List (List α)}

lemma searchMany_sound {k : List α → Option β} (h : searchMany p k s=some b) :
    ∃ u v, s=u++v ∧ (∀ a ∈ u, p a=true) ∧ k v=some b := by
  induction s with
  | nil => exact ⟨[],[],rfl,by simp,h⟩
  | cons a s ih =>
    unfold searchMany at h
    split_ifs at h with ha
    · rcases Option.or_eq_some_iff.mp h with h | ⟨-,h⟩
      · obtain ⟨u,v,rfl,hu,hk⟩ := ih h
        exact ⟨a::u,v,rfl,by simpa [ha] using hu,hk⟩
      · exact ⟨[],a::s,rfl,by simp,h⟩
    · exact ⟨[],a::s,rfl,by simp,h⟩

/-- The longest repetition after which `k` succeeds is taken. -/
lemma searchMany_eq {k : List α → Option β} (hu : ∀ a ∈ u, p a=true) (hk : k v=some b)
    (hlonger : ∀ w x, v=w++x → w ≠ [] → (∀ a ∈ w, p a=true) → k x=none) :
    searchMany p k (u++v)=some b := by
  induction u with
  | nil =>
    rw [List.nil_append]
    cases v with
    | nil => exact hk
    | cons a v =>
      unfold searchMany
      split_ifs with ha
      · have hnone : searchMany p k v=none := by
          by_contra hne
          obtain ⟨c,hc⟩ := Option.ne_none_iff_exists'.mp hne
          obtain ⟨w,x,rfl,hw,hx⟩ := searchMany_sound hc
          rw [hlonger (a::w) x rfl (List.cons_ne_nil _ _) (by simpa [ha] using hw)] at hx
          cases hx
        rw [hnone,Option.none_or,hk]
      · exact hk
  | cons a u ih =>
    rw [List.cons_append]
    unfold searchMany
    rw [if_pos (hu a List.mem_cons_self),ih fun a ha ↦ hu a (List.mem_cons_of_mem _ ha),Option.some_or]

lemma searchMany_greedy {k : List α → Option β} (hu : ∀ a ∈ u, p a=true)
    (hv : ∀ a ∈ v.head?, p a=false) (hk : k v=some b) :
    searchMany p k (u++v)=some b := by
  refine searchMany_eq hu hk fun w x hwx hne hw ↦ ?_
  obtain ⟨a,w,rfl⟩ := List.exists_cons_of_ne_nil hne
  rw [hwx] at hv
  have ha := hv a rfl
  rw [hw a List.mem_cons_self] at ha
  exact Bool.noConfusion ha

/-- What is found is a match. -/
theorem search_sound {k : List (List α) → List α → Option β} (h : r.search k s=some b) :
    ∃ u v g, s=u++v ∧ Accepts r u g ∧ k g v=some b := by
  induction r generalizing k s b with
  | one p =>
    cases s with
    | nil => cases h
    | cons a s =>
      unfold search at h
      split_ifs at h with ha
      exact ⟨[a],s,[],rfl,Accepts.one ha,h⟩
  | opt p =>
    cases s with
    | nil => exact ⟨[],[],[],rfl,Accepts.skip p,h⟩
    | cons a s =>
      unfold search at h
      split_ifs at h with ha
      · rcases Option.or_eq_some_iff.mp h with h | ⟨-,h⟩
        · exact ⟨[a],s,[],rfl,Accepts.take ha,h⟩
        · exact ⟨[],a::s,[],rfl,Accepts.skip p,h⟩
      · exact ⟨[],a::s,[],rfl,Accepts.skip p,h⟩
  | many p =>
    obtain ⟨u,v,rfl,hu,hk⟩ := searchMany_sound h
    exact ⟨u,v,[],rfl,Accepts.many hu,hk⟩
  | seq r r' ih ih' =>
    obtain ⟨u,v,g,rfl,hacc,hk⟩ := ih h
    obtain ⟨u',v',g',rfl,hacc',hk'⟩ := ih' hk
    exact ⟨u++u',v',g++g',(List.append_assoc u u' v').symm,Accepts.seq hacc hacc',hk'⟩
  | group r ih =>
    obtain ⟨u,v,g,rfl,hacc,hk⟩ := ih h
    refine ⟨u,v,u::g,rfl,Accepts.group hacc,?_⟩
    rwa [List.length_append,Nat.add_sub_cancel,List.take_left] at hk

/-- A match that satisfies `k` is found, though not always this one. -/
theorem search_complete (h : Accepts r u g) :
    ∀ {k : List (List α) → List α → Option β}, k g v ≠ none → r.search k (u++v) ≠ none := by
  induction h generalizing v with
  | one ha =>
    intro k hk
    rw [List.singleton_append,search,if_pos ha]
    exact hk
  | skip p =>
    intro k hk
    cases v with
    | nil => exact hk
    | cons a v =>
      rw [List.nil_append,search]
      split_ifs with ha
      · exact fun hnone ↦ hk (Option.or_eq_none_iff.mp hnone).2
      · exact hk
  | take ha =>
    intro k hk
    rw [List.singleton_append,search,if_pos ha]
    exact fun hnone ↦ hk (Option.or_eq_none_iff.mp hnone).1
  | @many p u hu =>
    intro k hk
    rw [search]
    induction u with
    | nil =>
      rw [List.nil_append]
      cases v with
      | nil => exact hk
      | cons a v =>
        unfold searchMany
        split_ifs with ha
        · exact fun hnone ↦ hk (Option.or_eq_none_iff.mp hnone).2
        · exact hk
    | cons a u ih =>
      rw [List.cons_append,searchMany,if_pos (hu a List.mem_cons_self)]
      have hrest := ih fun a ha ↦ hu a (List.mem_cons_of_mem _ ha)
      exact fun hnone ↦ hrest (Option.or_eq_none_iff.mp hnone).1
  | seq h h' ih ih' =>
    intro k hk
    rw [List.append_assoc,search]
    exact ih (ih' hk)
  | group h ih =>
    intro k hk
    rw [search]
    refine ih ?_
    rwa [List.length_append,Nat.add_sub_cancel,List.take_left]

theorem captures_sound (h : r.captures s=some g) : Accepts r s g := by
  obtain ⟨u,v,g',rfl,hacc,hk⟩ := search_sound h
  split_ifs at hk with hv
  rw [List.isEmpty_iff.mp hv,List.append_nil]
  exact Option.some.inj hk ▸ hacc

theorem captures_eq_none_iff : r.captures s=none ↔ ∀ g, ¬ Accepts r s g := by
  constructor
  · intro hnone g hacc
    refine search_complete (v := []) hacc ?_ ((List.append_nil s).symm ▸ hnone)
    exact Option.some_ne_none g
  · intro hnot
    by_contra hne
    obtain ⟨g,hg⟩ := Option.ne_none_iff_exists'.mp hne
    exact hnot g (captures_sound hg)

/-! What each kind of expression matches. -/

lemma accepts_one : Accepts (one p) s g ↔ g=[] ∧ ∃ a, s=[a] ∧ p a=true := by
  constructor
  · rintro ⟨ha⟩
    exact ⟨rfl,_,rfl,ha⟩
  · rintro ⟨rfl,a,rfl,ha⟩
    exact Accepts.one ha

lemma accepts_opt : Accepts (opt p) s g ↔ g=[] ∧ (s=[] ∨ ∃ a, s=[a] ∧ p a=true) := by
  constructor
  · intro h
    cases h with
    | skip => exact ⟨rfl,Or.inl rfl⟩
    | take ha => exact ⟨rfl,Or.inr ⟨_,rfl,ha⟩⟩
  · rintro ⟨rfl,rfl | ⟨a,rfl,ha⟩⟩
    · exact Accepts.skip p
    · exact Accepts.take ha

lemma accepts_many : Accepts (many p) s g ↔ g=[] ∧ ∀ a ∈ s, p a=true := by
  constructor
  · intro h
    cases h with
    | many h => exact ⟨rfl,h⟩
  · rintro ⟨rfl,h⟩
    exact Accepts.many h

lemma accepts_seq : Accepts (seq r r') s g ↔ ∃ s₁ g₁ s₂ g₂, s=s₁++s₂ ∧ g=g₁++g₂ ∧
    Accepts r s₁ g₁ ∧ Accepts r' s₂ g₂ := by
  constructor
  · intro h
    cases h with
    | seq h h' => exact ⟨_,_,_,_,rfl,rfl,h,h'⟩
  · rintro ⟨s₁,g₁,s₂,g₂,rfl,rfl,h,h'⟩
    exact Accepts.seq h h'

lemma accepts_group : Accepts (group r) s g ↔ ∃ g', g=s::g' ∧ Accepts r s g' := by
  constructor
  · intro h
    cases h with
    | group h => exact ⟨_,rfl,h⟩
  · rintro ⟨g',rfl,h⟩
    exact Accepts.group h

/-- The expressions of the groups, in the order of the groups. -/
def groups : Regex α → List (Regex α)
  | one _ => []
  | opt _ => []
  | many _ => []
  | seq r r' => r.groups++r'.groups
  | group r => r::r.groups

/-- Every group is matched by its own expression. -/
theorem Accepts.groups (h : Accepts r s g) :
    List.Forall₂ (fun r u ↦ ∃ g, Accepts r u g) r.groups g := by
  induction h with
  | one => exact List.Forall₂.nil
  | skip => exact List.Forall₂.nil
  | take => exact List.Forall₂.nil
  | many => exact List.Forall₂.nil
  | seq _ _ ih ih' => exact List.rel_append ih ih'
  | group h ih => exact List.Forall₂.cons ⟨_,h⟩ ih

/-! How a matcher that succeeds at once goes on. -/

variable {a : α} {k : List (List α) → List α → Option β}

lemma search_opt_take (ha : p a=true) (hk : k [] s=some b) : (opt p).search k (a::s)=some b := by
  rw [search,if_pos ha,hk,Option.some_or]

lemma search_opt_skip (hs : ∀ a ∈ s.head?, p a=false) : (opt p).search k s=k [] s := by
  cases s with
  | nil => rfl
  | cons a s =>
    rw [search,if_neg]
    rw [hs a rfl]
    exact Bool.false_ne_true

lemma take_sub_length (u v : List α) : (u++v).take ((u++v).length-v.length)=u := by
  rw [List.length_append,Nat.add_sub_cancel,List.take_left]

lemma search_seq_one (ha : p a=true) (hk : r.search (fun g rest ↦ k ([]++g) rest) v=some b) :
    (seq (one p) r).search k (a::v)=some b := by
  rw [search,search,if_pos ha]
  exact hk

lemma search_char (ha : p a=true) (hk : r.search (fun g rest ↦ k ([[a]]++g) rest) v=some b) :
    (seq (group (one p)) r).search k (a::v)=some b := by
  have htake : (a::v).take ((a::v).length-v.length)=[a] := take_sub_length [a] v
  rw [search,search,search,if_pos ha,htake]
  exact hk

lemma search_many (hu : ∀ a ∈ u, p a=true) (hv : ∀ a ∈ v.head?, p a=false)
    (hk : r.search (fun g rest ↦ k ([]++g) rest) v=some b) :
    (seq (many p) r).search k (u++v)=some b := by
  rw [search,search]
  exact searchMany_greedy hu hv hk

lemma search_group_many (hu : ∀ a ∈ u, p a=true) (hv : ∀ a ∈ v.head?, p a=false)
    (hk : r.search (fun g rest ↦ k ([u]++g) rest) v=some b) :
    (seq (group (many p)) r).search k (u++v)=some b := by
  rw [search,search,search]
  refine searchMany_greedy hu hv ?_
  rw [take_sub_length]
  exact hk

lemma search_last (hu : ∀ a ∈ u, p a=true) (hk : k [u] []=some b) :
    (group (many p)).search k u=some b := by
  rw [search,search]
  have hsearch : searchMany p (fun rest ↦ k [u.take (u.length-rest.length)] rest) (u++[])=some b := by
    refine searchMany_greedy hu (fun a ha ↦ nomatch ha) ?_
    rw [List.length_nil,Nat.sub_zero,List.take_length]
    exact hk
  rwa [List.append_nil] at hsearch

lemma search_plus (hne : u ≠ []) (hu : ∀ a ∈ u, p a=true) (hv : ∀ a ∈ v.head?, p a=false)
    (hk : r.search (fun g rest ↦ k ([]++g) rest) v=some b) :
    (seq (plus p) r).search k (u++v)=some b := by
  obtain ⟨a,u,rfl⟩ := List.exists_cons_of_ne_nil hne
  rw [List.cons_append,search,plus,search,search,if_pos (hu a List.mem_cons_self),search]
  exact searchMany_greedy (fun c hc ↦ hu c (List.mem_cons_of_mem _ hc)) hv hk

lemma search_token (hne : u ≠ []) (hu : ∀ a ∈ u, p a=true) (hv : ∀ a ∈ v.head?, p a=false)
    (hk : r.search (fun g rest ↦ k ([u]++g) rest) v=some b) :
    (seq (group (plus p)) r).search k (u++v)=some b := by
  obtain ⟨a,u,rfl⟩ := List.exists_cons_of_ne_nil hne
  rw [List.cons_append,search,search,plus,search,search,if_pos (hu a List.mem_cons_self),search]
  refine searchMany_greedy (fun c hc ↦ hu c (List.mem_cons_of_mem _ hc)) hv ?_
  have htake : (a::(u++v)).take ((a::(u++v)).length-v.length)=a::u := take_sub_length (a::u) v
  rw [htake]
  exact hk

/-- A token that a separator ends, although the separator and what follows it could belong to it. -/
lemma search_until {q : α → Bool} (hne : u ≠ []) (hu : ∀ a ∈ u, p a=true) (ha : q a=true)
    (ht : ∀ c ∈ t, q c=false) (hv : ∀ c ∈ v.head?, p c=false ∧ q c=false)
    (hk : r.search (fun g rest ↦ k ([u]++([]++g)) rest) (t++v)=some b) :
    (seq (group (plus p)) (seq (one q) r)).search k (u++(a::(t++v)))=some b := by
  obtain ⟨c,u,rfl⟩ := List.exists_cons_of_ne_nil hne
  rw [List.cons_append,search,search,plus,search,search,if_pos (hu c List.mem_cons_self),search]
  refine searchMany_eq (fun c hc ↦ hu c (List.mem_cons_of_mem _ hc)) ?_ fun w x hwx hw hall ↦ ?_
  · have htake : (c::(u++a::(t++v))).take ((c::(u++a::(t++v))).length-(a::(t++v)).length)=c::u :=
      take_sub_length (c::u) (a::(t++v))
    rw [htake]
    exact search_seq_one ha hk
  · -- behind a longer token there is no separator
    obtain ⟨d,w,rfl⟩ := List.exists_cons_of_ne_nil hw
    injection hwx with _ hwx
    have hx : ∀ e ∈ x.head?, q e=false := by
      rcases List.append_eq_append_iff.mp hwx with ⟨y,rfl,rfl⟩ | ⟨y,rfl,rfl⟩
      · intro e he
        cases y with
        | nil => exact (hv e he).2
        | cons f y =>
          have hf := (hv f rfl).1
          rw [hall f (List.mem_cons_of_mem _ (List.mem_append_right _ List.mem_cons_self))] at hf
          cases hf
      · intro e he
        cases y with
        | nil => exact (hv e he).2
        | cons f y =>
          obtain rfl := Option.some.inj he
          exact ht f (List.mem_append_right _ List.mem_cons_self)
    cases x with
    | nil => rfl
    | cons e x =>
      rw [search,search,if_neg]
      rw [hx e rfl]
      exact Bool.false_ne_true

end Regex

end Phantom
