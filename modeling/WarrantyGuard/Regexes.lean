import Mathlib.Data.List.Basic
import Mathlib.Data.List.Infix
import Mathlib.Logic.Relation

/-!
# Backtracking regular expressions

A match of an expression at some place of a text leaves a rest of it. `rests` are
the rests of all matches, in the order in which a backtracking matcher tries
them; the whole text matches when one of them is empty. `start` and `stop` are
the anchors, of which `stop` also holds before a last line terminator, `ahead`
is a look-ahead, and `star` is greedy and goes on only where it has taken
something.
-/

namespace Regexes

variable {α : Type*}

inductive Regex (α : Type*) where
  | start
  | stop (last : List α → Bool)
  | set (p : α → Bool)
  | seq (r s : Regex α)
  | star (r : Regex α)
  | ahead (r : Regex α)

/-- `r{n,}` -/
def Regex.atLeast : Nat → Regex α → Regex α
  | 0, r => star r
  | n + 1, r => seq r (atLeast n r)

def starRests (f : List α → List (List α)) : Nat → List α → List (List α)
  | 0, l => [l]
  | n + 1, l => ((f l).filter (·.length < l.length)).flatMap (starRests f n) ++ [l]

def rests (text : List α) : Regex α → List α → List (List α)
  | .start, l => if l.length = text.length then [l] else []
  | .stop last, l => if l.isEmpty || last l then [l] else []
  | .set _, [] => []
  | .set p, c :: l => if p c then [l] else []
  | .seq r s, l => (rests text r l).flatMap (rests text s)
  | .star r, l => starRests (rests text r) l.length l
  | .ahead r, l => if (rests text r l).isEmpty then [] else [l]

def isMatch (r : Regex α) (text : List α) : Bool := (rests text r text).any List.isEmpty

theorem isMatch_iff (r : Regex α) (text : List α) : isMatch r text ↔ [] ∈ rests text r text := by
  simp [isMatch]

/-! ## The rests of each expression -/

section
variable {text l m : List α}

theorem mem_rests_start : m ∈ rests text .start l ↔ m = l ∧ l.length = text.length := by
  show m ∈ (if l.length = text.length then [l] else []) ↔ _
  by_cases h : l.length = text.length
  · simp [h]
  · simp [h]

theorem mem_rests_stop {last : List α → Bool} : m ∈ rests text (.stop last) l ↔ m = l ∧ (l = [] ∨ last l) := by
  show m ∈ (if l.isEmpty || last l then [l] else []) ↔ _
  by_cases h : l = [] ∨ last l
  · simp [h]
  · simp [h]

theorem mem_rests_set {p : α → Bool} : m ∈ rests text (.set p) l ↔ ∃ c, l = c :: m ∧ p c := by
  cases l with
  | nil =>
    show m ∈ [] ↔ _
    simp
  | cons c l =>
    show m ∈ (if p c then [l] else []) ↔ _
    by_cases h : p c
    · simp only [h, if_true, List.mem_singleton, List.cons.injEq]
      exact ⟨fun hm => ⟨c, ⟨rfl, hm.symm⟩, h⟩, fun ⟨_, hm, _⟩ => hm.2.symm⟩
    · simp only [h, List.cons.injEq]
      refine ⟨nofun, fun ⟨c', hm, hc⟩ => ?_⟩
      exact absurd (hm.1 ▸ hc) h

theorem mem_rests_seq {r s : Regex α} : m ∈ rests text (.seq r s) l ↔ ∃ k ∈ rests text r l, m ∈ rests text s k :=
  List.mem_flatMap

theorem mem_rests_ahead {r : Regex α} : m ∈ rests text (.ahead r) l ↔ m = l ∧ ∃ k, k ∈ rests text r l := by
  show m ∈ (if (rests text r l).isEmpty then [] else [l]) ↔ _
  cases rests text r l with
  | nil => simp
  | cons k ks =>
    simp only [List.isEmpty_cons, Bool.false_eq_true, if_false, List.mem_singleton]
    exact ⟨fun hm => ⟨hm, k, List.mem_cons_self⟩, And.left⟩

theorem mem_starRests_suffix {f : List α → List (List α)} (hf : ∀ l m, m ∈ f l → m <:+ l) :
    ∀ {n : Nat} {l m : List α}, m ∈ starRests f n l → m <:+ l
  | 0, l, m, h => by rw [List.mem_singleton.mp h]
  | n + 1, l, m, h => by
    rcases List.mem_append.mp h with h | h
    · obtain ⟨k, hk, hm⟩ := List.mem_flatMap.mp h
      exact (mem_starRests_suffix hf hm).trans (hf l k (List.mem_of_mem_filter hk))
    · rw [List.mem_singleton.mp h]

theorem mem_rests_suffix {r : Regex α} : ∀ {l m : List α}, m ∈ rests text r l → m <:+ l := by
  induction r with
  | start => intro l m h; rw [(mem_rests_start.mp h).1]
  | stop last => intro l m h; rw [(mem_rests_stop.mp h).1]
  | set p =>
    intro l m h
    obtain ⟨c, rfl, -⟩ := mem_rests_set.mp h
    exact List.suffix_cons c m
  | seq r s ihr ihs =>
    intro l m h
    obtain ⟨k, hk, hm⟩ := mem_rests_seq.mp h
    exact (ihs hm).trans (ihr hk)
  | star r ih => intro l m h; exact mem_starRests_suffix (fun _ _ h => ih h) h
  | ahead r => intro l m h; rw [(mem_rests_ahead.mp h).1]

section
variable {r s : Regex α}

theorem mem_rests_seq_start : m ∈ rests text (.seq .start s) l ↔ l.length = text.length ∧ m ∈ rests text s l := by
  rw [mem_rests_seq]
  constructor
  · intro h
    obtain ⟨k, hk, hm⟩ := h
    obtain ⟨rfl, hlen⟩ := mem_rests_start.mp hk
    exact ⟨hlen, hm⟩
  · intro h
    exact ⟨l, mem_rests_start.mpr ⟨rfl, h.1⟩, h.2⟩

theorem mem_rests_seq_ahead :
    m ∈ rests text (.seq (.ahead r) s) l ↔ l ∈ rests text (.ahead r) l ∧ m ∈ rests text s l := by
  rw [mem_rests_seq]
  constructor
  · intro h
    obtain ⟨k, hk, hm⟩ := h
    obtain ⟨rfl, -⟩ := mem_rests_ahead.mp hk
    exact ⟨hk, hm⟩
  · intro h
    exact ⟨l, h⟩

/-- At the end of a match of the whole text, `stop` asks for nothing more. -/
theorem nil_mem_rests_seq_stop {last : List α → Bool} :
    [] ∈ rests text (.seq r (.stop last)) l ↔ [] ∈ rests text r l := by
  rw [mem_rests_seq]
  constructor
  · intro h
    obtain ⟨k, hk, hm⟩ := h
    obtain ⟨rfl, -⟩ := mem_rests_stop.mp hm
    exact hk
  · intro h
    exact ⟨[], h, mem_rests_stop.mpr ⟨rfl, .inl rfl⟩⟩

end

/-! ## Repetition -/

/-- A chain of steps that each leave a suffix either stays or first takes something. -/
theorem chain_progress {f : List α → List (List α)} (hf : ∀ l m, m ∈ f l → m <:+ l)
    (h : Relation.ReflTransGen (fun a b => b ∈ f a) l m) :
    l = m ∨ ∃ k ∈ f l, k.length < l.length ∧ Relation.ReflTransGen (fun a b => b ∈ f a) k m := by
  induction h using Relation.ReflTransGen.head_induction_on with
  | refl => exact .inl rfl
  | @head a b hab hbm ih =>
    have hs := hf a b hab
    by_cases hlt : b.length < a.length
    · exact .inr ⟨b, hab, hlt, hbm⟩
    · obtain rfl : b = a := hs.eq_of_length_le (by omega)
      exact ih

theorem mem_starRests {f : List α → List (List α)} (hf : ∀ l m, m ∈ f l → m <:+ l) :
    ∀ {n : Nat} {l : List α}, l.length ≤ n →
      (m ∈ starRests f n l ↔ Relation.ReflTransGen (fun a b => b ∈ f a) l m) := by
  intro n
  induction n with
  | zero =>
    intro l hl
    rw [starRests, List.mem_singleton]
    constructor
    · intro h; rw [h]
    · intro h
      rcases chain_progress hf h with h | ⟨k, -, hlt, -⟩
      · exact h.symm
      · omega
  | succ n ih =>
    intro l hl
    rw [starRests, List.mem_append, List.mem_flatMap, List.mem_singleton]
    constructor
    · intro h
      rcases h with ⟨k, hk, hm⟩ | h
      · obtain ⟨hk, hlt⟩ := List.mem_filter.mp hk
        have hlt : k.length < l.length := of_decide_eq_true hlt
        exact .head hk ((ih (by omega)).mp hm)
      · rw [h]
    · intro h
      rcases chain_progress hf h with h | ⟨k, hk, hlt, hm⟩
      · exact .inr h.symm
      · exact .inl ⟨k, List.mem_filter.mpr ⟨hk, decide_eq_true hlt⟩, (ih (by omega)).mpr hm⟩

theorem mem_rests_star {r : Regex α} :
    m ∈ rests text (.star r) l ↔ Relation.ReflTransGen (fun a b => b ∈ rests text r a) l m :=
  mem_starRests (fun _ _ => mem_rests_suffix) (Nat.le_refl _)

variable {p q : α → Bool}

theorem mem_rests_star_set : m ∈ rests text (.star (.set p)) l ↔ ∃ pre, l = pre ++ m ∧ ∀ c ∈ pre, p c := by
  rw [mem_rests_star]
  constructor
  · intro h
    induction h using Relation.ReflTransGen.head_induction_on with
    | refl => exact ⟨[], rfl, nofun⟩
    | head hab _ ih =>
      obtain ⟨c, rfl, hc⟩ := mem_rests_set.mp hab
      obtain ⟨pre, rfl, hpre⟩ := ih
      exact ⟨c :: pre, rfl, List.forall_mem_cons.mpr ⟨hc, hpre⟩⟩
  · intro h
    obtain ⟨pre, rfl, hpre⟩ := h
    induction pre with
    | nil => exact .refl
    | cons c pre ih =>
      obtain ⟨hc, hpre⟩ := List.forall_mem_cons.mp hpre
      exact .head (mem_rests_set.mpr ⟨c, rfl, hc⟩) (ih hpre)

theorem mem_rests_atLeast_set {n : Nat} :
    m ∈ rests text (.atLeast n (.set p)) l ↔ ∃ pre, l = pre ++ m ∧ n ≤ pre.length ∧ ∀ c ∈ pre, p c := by
  induction n generalizing l with
  | zero =>
    rw [Regex.atLeast, mem_rests_star_set]
    simp
  | succ n ih =>
    rw [Regex.atLeast, mem_rests_seq]
    constructor
    · intro h
      obtain ⟨k, hk, hm⟩ := h
      obtain ⟨c, rfl, hc⟩ := mem_rests_set.mp hk
      obtain ⟨pre, rfl, hn, hpre⟩ := ih.mp hm
      exact ⟨c :: pre, rfl, Nat.succ_le_succ hn, List.forall_mem_cons.mpr ⟨hc, hpre⟩⟩
    · intro h
      obtain ⟨pre, rfl, hn, hpre⟩ := h
      cases pre with
      | nil => cases hn
      | cons c pre =>
        obtain ⟨hc, hpre⟩ := List.forall_mem_cons.mp hpre
        exact ⟨pre ++ m, mem_rests_set.mpr ⟨c, rfl, hc⟩, ih.mpr ⟨pre, rfl, Nat.le_of_succ_le_succ hn, hpre⟩⟩

/-- The look-ahead `(?=p*q)` over a text of `p`s asks for a `q` anywhere in it. -/
theorem mem_rests_ahead_set (hp : ∀ c ∈ l, p c) :
    m ∈ rests text (.ahead (.seq (.star (.set p)) (.set q))) l ↔ m = l ∧ ∃ c ∈ l, q c := by
  rw [mem_rests_ahead]
  apply and_congr_right; intro _
  constructor
  · intro h
    obtain ⟨k, hk⟩ := h
    obtain ⟨k', hstar, hset⟩ := mem_rests_seq.mp hk
    obtain ⟨pre, rfl, -⟩ := mem_rests_star_set.mp hstar
    obtain ⟨c, rfl, hc⟩ := mem_rests_set.mp hset
    exact ⟨c, by simp, hc⟩
  · intro h
    obtain ⟨c, hcl, hc⟩ := h
    obtain ⟨pre, post, rfl⟩ := List.append_of_mem hcl
    refine ⟨post, mem_rests_seq.mpr ⟨c :: post, mem_rests_star_set.mpr ⟨pre, rfl, ?_⟩, ?_⟩⟩
    · exact fun d hd => hp d (List.mem_append_left _ hd)
    · exact mem_rests_set.mpr ⟨c, rfl, hc⟩

end

end Regexes
