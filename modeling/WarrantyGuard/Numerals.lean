import Mathlib.Data.List.DropRight
import Mathlib.Data.List.Basic

/-!
# Decimal numerals in a text

A numeral is a non-empty run of digits, leading zeros included. `pad` writes a
number with at least so many digits. `cut` takes the numeral at the end of a
text together with the separator before it; since the separator ends in no
digit, the numeral is the whole run and the cut is unique.
-/

namespace Numerals

def numeral (l : List Char) : Option Nat :=
  if l ≠ [] ∧ l.all Char.isDigit then some (Nat.ofDigitChars 10 l 0) else none

def pad (width n : Nat) : List Char :=
  List.replicate (width - (Nat.toDigits 10 n).length) '0' ++ Nat.toDigits 10 n

def cut (sep l : List Char) : Option (List Char × Nat) :=
  (numeral (l.rtakeWhile Char.isDigit)).bind fun n =>
    ((l.rdropWhile Char.isDigit).dropSuffix? sep).map fun rest => (rest, n)

theorem numeral_some {l : List Char} {n : Nat} (h : numeral l = some n) : l ≠ [] ∧ ∀ c ∈ l, c.isDigit := by
  obtain ⟨hl, -⟩ := Option.ite_none_right_eq_some.mp h
  exact ⟨hl.1, List.all_eq_true.mp hl.2⟩

theorem numeral_pad (width n : Nat) : numeral (pad width n) = some n := by
  unfold numeral pad
  rw [if_pos, Nat.ofDigitChars_append, Nat.ofDigitChars_replicate_zero, Nat.mul_zero,
    Nat.ofDigitChars_ten_toDigits]
  refine ⟨fun h => ?_, List.all_eq_true.mpr fun c hc => ?_⟩
  · exact Nat.toDigits_ne_nil (List.append_eq_nil_iff.mp h).2
  · rcases List.mem_append.mp hc with hc | hc
    · rw [List.eq_of_mem_replicate hc]; rfl
    · exact Nat.isDigit_of_mem_toDigits (b := 10) (by decide) (by decide) hc

theorem numeral_toDigits (n : Nat) : numeral (Nat.toDigits 10 n) = some n := by
  have := numeral_pad 0 n
  rwa [pad, Nat.zero_sub, List.replicate_zero, List.nil_append] at this

/-! ## Cutting -/

section
variable {α : Type*} {p : α → Bool}

theorem rtakeWhile_append {l ds : List α} {c : α} (hc : p c = false) (hds : ∀ d ∈ ds, p d) :
    (l ++ [c] ++ ds).rtakeWhile p = ds := by
  induction ds using List.reverseRecOn with
  | nil => rw [List.append_nil, List.rtakeWhile_concat_neg _ _ _ (by rw [hc]; exact Bool.false_ne_true)]
  | append_singleton ds d ih =>
    rw [← List.append_assoc, List.rtakeWhile_concat_pos _ _ _ (hds d (by simp)), ih]
    exact fun e he => hds e (List.mem_append_left _ he)

theorem rdropWhile_append {l ds : List α} {c : α} (hc : p c = false) (hds : ∀ d ∈ ds, p d) :
    (l ++ [c] ++ ds).rdropWhile p = l ++ [c] := by
  induction ds using List.reverseRecOn with
  | nil => rw [List.append_nil, List.rdropWhile_concat_neg _ _ _ (by rw [hc]; exact Bool.false_ne_true)]
  | append_singleton ds d ih =>
    rw [← List.append_assoc, List.rdropWhile_concat_pos _ _ _ (hds d (by simp)), ih]
    exact fun e he => hds e (List.mem_append_left _ he)

end

theorem cut_iff (sep : List Char) {c : Char} (hc : c.isDigit = false) {l rest : List Char} {n : Nat} :
    cut (sep ++ [c]) l = some (rest, n) ↔ ∃ ds, numeral ds = some n ∧ l = rest ++ (sep ++ [c]) ++ ds := by
  unfold cut
  constructor
  · intro h
    obtain ⟨m, hm, h⟩ := Option.bind_eq_some_iff.mp h
    obtain ⟨rest', hrest, h⟩ := Option.map_eq_some_iff.mp h
    cases h
    obtain ⟨sep', hl, hsep⟩ := List.dropSuffix?_eq_some_iff.mp hrest
    obtain rfl := eq_of_beq hsep
    exact ⟨_, hm, by rw [← hl, List.rdropWhile_append_rtakeWhile]⟩
  · intro h
    obtain ⟨ds, hn, rfl⟩ := h
    have hds := (numeral_some hn).2
    rw [← List.append_assoc rest sep [c], rtakeWhile_append hc hds, rdropWhile_append hc hds, hn, Option.bind_some,
      List.append_assoc, List.dropSuffix?_eq_some_iff.mpr ⟨sep ++ [c], rfl, beq_self_eq_true _⟩, Option.map_some]

end Numerals
