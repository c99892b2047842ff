import Mathlib.Data.List.Basic

/-!
# The standard library's part

Array and string operations under the names the source calls them by:
`removeAll()`, `remove(at:)` and `trimmingCharacters(in:
.whitespacesAndNewlines)`. An operation that traps returns `none`. The trimmed
characters are tab, the line terminators, the space separators and the
zero-width space next to them.
-/

namespace WarrantyGuard

section
variable {α : Type*}

def removeAll (_ : List α) : List α := []

def removeAt (l : List α) (i : Nat) : Option (List α) :=
  if i < l.length then some (l.eraseIdx i) else none

@[simp] theorem removeAll_eq (l : List α) : removeAll l = [] := rfl

theorem removeAt_some {l l' : List α} {i : Nat} (h : removeAt l i = some l') :
    i < l.length ∧ l' = l.eraseIdx i := by
  unfold removeAt at h
  split at h
  · exact ⟨‹_›, (Option.some.inj h).symm⟩
  · cases h

theorem removeAt_of_getElem? {l : List α} {i : Nat} {a : α} (h : l[i]? = some a) :
    removeAt l i = some (l.eraseIdx i) :=
  if_pos (List.getElem?_eq_some_iff.mp h).1

end

def isWhitespaceOrNewline (c : Char) : Bool :=
  c.toNat ∈ [0x9, 0xA, 0xB, 0xC, 0xD, 0x20, 0x85, 0xA0, 0x1680, 0x2028, 0x2029, 0x202F, 0x205F, 0x3000] ||
    (0x2000 ≤ c.toNat && c.toNat ≤ 0x200B)

def trimmingCharacters (s : String) : String :=
  String.ofList ((s.toList.dropWhile isWhitespaceOrNewline).reverse.dropWhile isWhitespaceOrNewline).reverse

end WarrantyGuard
