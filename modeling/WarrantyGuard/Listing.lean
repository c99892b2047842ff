import Mathlib.Data.List.AList
import Mathlib.Data.List.Nodup
import Mathlib.Data.List.Perm.Basic
import Mathlib.Data.List.Sort

/-!
# Lists filled by loops and by queries

A loop that appends the images of the elements it keeps is a filter followed by
a map, whatever the list held before; where it must read something of each
element first, it fails at the first element that lacks it. A query over a keyed store filters and
sorts its entries; erasing a key from the store takes that key's entry out of
the query's result and moves nothing else. What is true of every element but one
is a matter of that one.
-/

namespace Listing

/-! ## Appending loops -/

theorem foldl_keep {α β : Type*} (p : α → Bool) (f : α → β) (l : List α) (acc : List β) :
    l.foldl (fun acc a => if p a then acc ++ [f a] else acc) acc = acc ++ (l.filter p).map f := by
  induction l generalizing acc with
  | nil => simp
  | cons a l ih =>
    rw [List.foldl_cons, ih, List.filter_cons]
    split <;> simp

theorem foldlM_keep {α β γ : Type*} (g : α → Option γ) (p : γ → α → Bool) (f : α → β) (l : List α)
    (acc : List β) :
    l.foldlM (fun acc a => (g a).map fun c => if p c a then acc ++ [f a] else acc) acc =
      if l.all (fun a => (g a).isSome) then
        some (acc ++ (l.filter fun a => (g a).any (p · a)).map f) else none := by
  induction l generalizing acc with
  | nil => simp
  | cons a l ih =>
    rw [List.foldlM_cons]
    cases hg : g a with
    | none => simp [hg]
    | some c =>
      simp only [Option.map_some, Option.bind_eq_bind, Option.bind_some]
      rw [ih]
      by_cases hc : p c a = true
      · simp [hg, hc]
      · simp [hg, hc]

theorem filterMap_sublist {α β : Type*} {f g : α → Option β} (h : ∀ a b, f a = some b → g a = some b)
    (l : List α) :
    (l.filterMap f).Sublist (l.filterMap g) := by
  induction l with
  | nil => exact List.Sublist.refl _
  | cons a l ih =>
    rw [List.filterMap_cons, List.filterMap_cons]
    cases hf : f a with
    | none =>
      cases g a with
      | none => exact ih
      | some b => exact ih.cons b
    | some b => rw [h a b hf]; exact ih.cons_cons b

/-! ## Sorted filters -/

section
variable {α : Type*} (r : α → α → Prop) [DecidableRel r] [Std.Total r] [IsTrans α r]

theorem insertionSort_filter (p : α → Bool) {l : List α} (h : ∀ a ∈ l, ∀ b ∈ l, r a b → r b a → a = b) :
    (l.filter p).insertionSort r = (l.insertionSort r).filter p := by
  refine List.Perm.eq_of_pairwise ?_ (List.pairwise_insertionSort r _)
    ((List.pairwise_insertionSort r l).filter p) ?_
  · intro a b ha hb hab hba
    have ha' := (List.perm_insertionSort r _).subset ha
    have hb' := (List.perm_insertionSort r l).subset (List.mem_of_mem_filter hb)
    exact h a (List.mem_of_mem_filter ha') b hb' hab hba
  · exact (List.perm_insertionSort r _).trans ((List.perm_insertionSort r l).filter p).symm

theorem insertionSort_cons_iff {a : α} {l : List α} :
    (a :: l).insertionSort r = a :: l.insertionSort r ↔ ∀ b ∈ l, r a b := by
  constructor
  · intro h b hb
    have hsorted := List.pairwise_insertionSort r (a :: l)
    rw [h] at hsorted
    exact (List.pairwise_cons.mp hsorted).1 b ((List.perm_insertionSort r l).mem_iff.mpr hb)
  · exact List.insertionSort_cons_of_forall_rel r

end

/-- `a` in front, in place of what had its key. -/
def toFront {α κ : Type*} [DecidableEq κ] (key : α → κ) (a : α) (l : List α) : List α :=
  a :: l.filter fun b => key b ≠ key a

theorem filter_key_ne {α κ : Type*} [DecidableEq κ] (key : α → κ) :
    ∀ {l : List α} {i : Nat} {a : α}, (l.map key).Nodup → l[i]? = some a →
      l.filter (fun b => key b ≠ key a) = l.eraseIdx i
  | [], _, _, _, h => by simp at h
  | b :: l, 0, a, hn, h => by
    obtain rfl : b = a := by simpa using h
    rw [List.map_cons, List.nodup_cons] at hn
    have : l.filter (fun c => key c ≠ key b) = l := by
      refine List.filter_eq_self.mpr fun c hc => decide_eq_true fun he => hn.1 ?_
      exact he ▸ List.mem_map_of_mem hc
    rw [List.filter_cons_of_neg (by simp), this]; rfl
  | b :: l, i + 1, a, hn, h => by
    rw [List.map_cons, List.nodup_cons] at hn
    have ha : a ∈ l := List.mem_of_getElem? (by simpa using h)
    have hb : key b ≠ key a := fun he => hn.1 (he ▸ List.mem_map_of_mem ha)
    rw [List.filter_cons_of_pos (by simpa using hb), filter_key_ne key hn.2 (by simpa using h)]; rfl

theorem perm_cons_filter_ne {α κ : Type*} [DecidableEq κ] (key : α → κ) {l : List α} {a : α}
    (hn : (l.map key).Nodup) (ha : a ∈ l) : l.Perm (a :: l.filter fun b => key b ≠ key a) := by
  obtain ⟨i, hi, rfl⟩ := List.mem_iff_getElem.mp ha
  have h : l[i]? = some l[i] := List.getElem?_eq_getElem hi
  rw [filter_key_ne key hn h]
  exact (List.getElem_cons_eraseIdx_perm hi).symm

/-! ## One element replaced, one added -/

section
variable {α : Type*} {l : List α} {i : Nat} {a : α} {Q : α → Prop}

theorem forall_mem_set (hl : ∀ b ∈ l, Q b) (ha : Q a) : ∀ b ∈ l.set i a, Q b := by
  intro b hb
  rcases List.mem_or_eq_of_mem_set hb with hb | rfl
  · exact hl b hb
  · exact ha

theorem forall_mem_snoc : (∀ b ∈ l ++ [a], Q b) ↔ (∀ b ∈ l, Q b) ∧ Q a := by
  rw [List.forall_mem_append, List.forall_mem_singleton]

theorem nodup_snoc : (l ++ [a]).Nodup ↔ a ∉ l ∧ l.Nodup := by
  rw [← List.concat_eq_append, List.nodup_concat]

variable (h : l[i]? = some a)
include h

theorem perm_cons_eraseIdx : l.Perm (a :: l.eraseIdx i) := by
  obtain ⟨hi, rfl⟩ := List.getElem?_eq_some_iff.mp h
  exact (List.getElem_cons_eraseIdx_perm hi).symm

theorem set_perm (b : α) : (l.set i b).Perm (b :: l.eraseIdx i) :=
  List.set_perm_cons_eraseIdx (List.getElem?_eq_some_iff.mp h).1 b

theorem forall_mem_iff : (∀ b ∈ l, Q b) ↔ Q a ∧ ∀ b ∈ l.eraseIdx i, Q b := by
  simp only [(perm_cons_eraseIdx h).mem_iff, List.forall_mem_cons]

theorem forall_mem_set_iff (b : α) : (∀ c ∈ l.set i b, Q c) ↔ Q b ∧ ∀ c ∈ l.eraseIdx i, Q c := by
  simp only [(set_perm h b).mem_iff, List.forall_mem_cons]

theorem exists_mem_iff : (∃ b ∈ l, Q b) ↔ Q a ∨ ∃ b ∈ l.eraseIdx i, Q b := by
  simp only [(perm_cons_eraseIdx h).mem_iff, List.exists_mem_cons_iff]

theorem exists_mem_set_iff (b : α) : (∃ c ∈ l.set i b, Q c) ↔ Q b ∨ ∃ c ∈ l.eraseIdx i, Q c := by
  simp only [(set_perm h b).mem_iff, List.exists_mem_cons_iff]

end

/-! ## Entries of a keyed store -/

section
variable {κ ν : Type*} [DecidableEq κ]

theorem erase_entries (k : κ) (c : AList fun _ : κ => ν) :
    (c.erase k).entries = c.entries.filter fun e => e.1 ≠ k := by
  have hn := c.nodupKeys
  change List.kerase k c.entries = _
  generalize c.entries = l at hn
  induction l with
  | nil => rfl
  | cons e l ih =>
    by_cases he : k = e.1
    · subst he
      have : l.filter (fun e' => decide (e'.1 ≠ e.1)) = l := by
        refine List.filter_eq_self.mpr fun e' he' => decide_eq_true fun heq => ?_
        exact (List.nodupKeys_cons.mp hn).1 (heq ▸ List.mem_keys_of_mem he')
      rw [List.kerase_cons_eq rfl, List.filter_cons_of_neg (by simp), this]
    · rw [List.kerase_cons_ne he, ih (List.nodupKeys_cons.mp hn).2,
        List.filter_cons_of_pos (by simpa using Ne.symm he)]

theorem mem_entries {k : κ} {v : ν} {c : AList fun _ : κ => ν} :
    (⟨k, v⟩ : Σ _ : κ, ν) ∈ c.entries ↔ c.lookup k = some v :=
  AList.mem_lookup_iff.symm

theorem lookup_insert_of_notMem {k : κ} (v : ν) {c : AList fun _ : κ => ν} (h : k ∉ c) :
    ∀ k' v', c.lookup k' = some v' → (c.insert k v).lookup k' = some v' := by
  intro k' v' hk'
  rw [AList.lookup_insert_ne, hk']
  rintro rfl
  apply h
  exact AList.lookup_isSome.mp (by simp [hk'])

theorem length_insert_of_notMem {k : κ} {v : ν} {c : AList fun _ : κ => ν} (h : k ∉ c) :
    (c.insert k v).entries.length = c.entries.length + 1 := by
  rw [AList.entries_insert_of_notMem h, List.length_cons]

theorem length_insert_of_mem {k : κ} {v : ν} {c : AList fun _ : κ => ν} (h : k ∈ c) :
    (c.insert k v).entries.length = c.entries.length := by
  have hl : (c.insert k v).keys.length = c.keys.length := by
    rw [AList.keys_insert, List.length_cons, List.length_erase_of_mem (AList.mem_keys.mp h)]
    have := List.length_pos_of_mem (AList.mem_keys.mp h)
    omega
  simpa [AList.keys, List.keys] using hl

/-- The values of a store, in no order that counts. -/
def values (c : AList fun _ : κ => ν) : List ν := c.entries.map (·.2)

theorem mem_values {v : ν} {c : AList fun _ : κ => ν} : v ∈ values c ↔ ∃ k, c.lookup k = some v := by
  unfold values
  rw [List.mem_map]
  constructor
  · rintro ⟨⟨k, v⟩, he, rfl⟩
    exact ⟨k, mem_entries.mp he⟩
  · intro h
    obtain ⟨k, hk⟩ := h
    exact ⟨⟨k, v⟩, mem_entries.mpr hk, rfl⟩

theorem values_insert {k : κ} (v : ν) {c : AList fun _ : κ => ν} (h : k ∉ c) :
    values (c.insert k v) = v :: values c := by
  rw [values, AList.entries_insert_of_notMem h]
  rfl

theorem values_erase {k : κ} {v : ν} {c : AList fun _ : κ => ν} (h : c.lookup k = some v) :
    (values c).Perm (v :: values (c.erase k)) := by
  have hp := perm_cons_filter_ne Sigma.fst c.nodupKeys (mem_entries.mpr h)
  rw [values, values, erase_entries]
  exact hp.map (·.2)

end

/-! ## A keyed store with its values mapped -/

section
variable {κ ν ν' : Type*} (f : ν → ν')

def mapValues (c : AList fun _ : κ => ν) : AList fun _ : κ => ν' where
  entries := c.entries.map fun e => ⟨e.1, f e.2⟩
  nodupKeys := by
    have h : (c.entries.map fun e => (⟨e.1, f e.2⟩ : Σ _ : κ, ν')).keys = c.entries.keys := List.map_map
    rw [List.NodupKeys, h]
    exact c.nodupKeys

theorem entries_mapValues (c : AList fun _ : κ => ν) :
    (mapValues f c).entries = c.entries.map fun e => ⟨e.1, f e.2⟩ := rfl

variable [DecidableEq κ] (c : AList fun _ : κ => ν) (k : κ)

theorem lookup_mapValues : (mapValues f c).lookup k = (c.lookup k).map f := by
  apply Option.ext
  intro v'
  rw [← mem_entries, Option.map_eq_some_iff]
  simp only [← mem_entries]
  constructor
  · intro h
    obtain ⟨⟨k', v⟩, he, heq⟩ := List.mem_map.mp h
    cases heq
    exact ⟨v, he, rfl⟩
  · rintro ⟨v, he, rfl⟩
    exact List.mem_map.mpr ⟨⟨k, v⟩, he, rfl⟩

theorem mem_mapValues : k ∈ mapValues f c ↔ k ∈ c := by
  rw [← AList.lookup_isSome, lookup_mapValues, Option.isSome_map, AList.lookup_isSome]

theorem mapValues_insert {k : κ} (h : k ∉ c) (v : ν) :
    mapValues f (c.insert k v) = (mapValues f c).insert k (f v) := by
  apply AList.ext
  rw [AList.entries_insert_of_notMem ((mem_mapValues f c k).not.mpr h), entries_mapValues, entries_mapValues,
    AList.entries_insert_of_notMem h, List.map_cons]

theorem mapValues_erase : mapValues f (c.erase k) = (mapValues f c).erase k := by
  apply AList.ext
  rw [erase_entries, entries_mapValues, entries_mapValues, erase_entries, List.filter_map]
  rfl

end

end Listing
