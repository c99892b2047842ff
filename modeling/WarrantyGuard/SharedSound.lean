import WarrantyGuard.CategorySound
import WarrantyGuard.Shared

/-!
# The category list and its readers

A callback leaves the list at its own decode, whatever was there before, and a
removal leaves a part of it. The rows that the tables and the pickers have
counted are in range as long as each change of the list leaves a length that
serves every view that has counted another. Done takes the row that the picker
asked a title for last, which is the user's choice only by chance.
-/

namespace WarrantyGuard

/-! ## The list forgets -/

theorem getCategories_decoded (categories : List Category) (callback : Callback) :
    (getCategories categories callback).1 = decoded callback := by
  cases callback with
  | snapshot documents => rw [getCategories_snapshot]; rfl
  | error => rfl

theorem mirror_listener {categories categories' : List Category} {vc : Option Nat} {callback : Callback}
    (h : Mirror.step categories (.listener vc callback) = some categories') : categories' = decoded callback := by
  cases h
  exact getCategories_decoded categories callback

theorem lastDecoded_snoc (categories : List Category) (es : List MirrorEvent) (e : MirrorEvent) :
    lastDecoded categories (es ++ [e]) = e.decoded.getD (lastDecoded categories es) :=
  Runs.last_snoc MirrorEvent.decoded categories es e

theorem mirror_sublist {categories₀ categories : List Category} {es : List MirrorEvent}
    (h : Runs.run Mirror.step categories₀ es = some categories) :
    categories.Sublist (lastDecoded categories₀ es) := by
  refine Runs.run_history (I := fun categories es => categories.Sublist (lastDecoded categories₀ es))
    (List.Sublist.refl _) ?_ h
  intro t es e t' _ ht hs
  rw [lastDecoded_snoc]
  cases e with
  | listener vc callback =>
    rw [mirror_listener hs]
    exact List.Sublist.refl _
  | remove row =>
    obtain ⟨-, rfl⟩ := removeAt_some hs
    exact (List.eraseIdx_sublist t row).trans ht

theorem mirror_history_free {categories₀ categories : List Category} {es : List MirrorEvent}
    (h : Runs.run Mirror.step categories₀ es = some categories) :
    (∀ pre vc callback, es = pre ++ [.listener vc callback] → categories = decoded callback) ∧
      categories.Sublist (lastDecoded categories₀ es) ∧
      ∀ documents, es ≠ [] → (∀ e ∈ es, ∃ vc, e = .listener vc (.snapshot documents)) →
        categories = documents.map (Category.ofData ·.data) := by
  have hlast : ∀ pre vc callback, es = pre ++ [.listener vc callback] → categories = decoded callback := by
    intro pre vc callback he
    subst he
    obtain ⟨t, -, ht⟩ := Runs.run_snoc _ h
    exact mirror_listener ht
  refine ⟨hlast, mirror_sublist h, fun documents hne hall => ?_⟩
  obtain rfl | ⟨pre, e, rfl⟩ := List.eq_nil_or_concat es
  · exact absurd rfl hne
  · obtain ⟨vc, rfl⟩ := hall e (by simp)
    exact hlast pre vc _ List.concat_eq_append

def phonesAndToys : List Document :=
  [⟨"B", CategoryVC.categoryData "B" "Toys" 2⟩, ⟨"A", CategoryVC.categoryData "A" "Phones" 1⟩]

/-- Two listeners bring both categories, and a row is deleted in between. -/
def phonesBack : List MirrorEvent :=
  [.listener none (.snapshot phonesAndToys), .remove 0, .listener (some 0) (.snapshot phonesAndToys)]

theorem mirror_history_free_phones :
    (([⟨some "B", some "Toys"⟩, ⟨some "A", some "Phones"⟩] : List Category) = decoded (.snapshot phonesAndToys) ∧
      ([⟨some "A", some "Phones"⟩] : List Category).Sublist (lastDecoded [] (phonesBack.take 2))) ∧
    ([⟨some "B", some "Toys"⟩, ⟨some "A", some "Phones"⟩] : List Category) =
      phonesAndToys.map (Category.ofData ·.data) := by
  have hback : Runs.run Mirror.step [] phonesBack =
      some [⟨some "B", some "Toys"⟩, ⟨some "A", some "Phones"⟩] := rfl
  have hremoved : Runs.run Mirror.step [] (phonesBack.take 2) = some [⟨some "A", some "Phones"⟩] := rfl
  have htwice : Runs.run Mirror.step [] [.listener none (.snapshot phonesAndToys),
      .listener (some 0) (.snapshot phonesAndToys)] =
      some [⟨some "B", some "Toys"⟩, ⟨some "A", some "Phones"⟩] := rfl
  refine ⟨⟨(mirror_history_free hback).1 (phonesBack.take 2) (some 0) (.snapshot phonesAndToys) rfl,
    (mirror_history_free hremoved).2.1⟩, ?_⟩
  exact (mirror_history_free htwice).2.2 phonesAndToys (by simp) (by simp)

/-- The app's list goes through such runs. -/
theorem categories_mirror {s s' : CategoryState} {es : List CategoryEvent}
    (h : Runs.run CategoryState.step s es = some s') :
    Runs.run Mirror.step s.categories (es.flatMap CategoryEvent.mirror) = some s'.categories := by
  refine Runs.run_flatMap _ (g := CategoryState.categories) ?_ h
  intro s e s' hs
  cases e with
  | viewDidLoad id =>
    simp only [CategoryState.step] at hs
    split at hs
    · cases hs
    · cases hs; rfl
  | addButtonTapped vc name now =>
    obtain ⟨c, -, rfl⟩ := Option.map_eq_some_iff.mp hs
    rfl
  | commitDelete vc row =>
    obtain ⟨c, -, hrow, -, -, -, hcategories⟩ := step_commitDelete hs
    have hr : Mirror.step s.categories (.remove row) = some s'.categories := by
      rw [hcategories]; exact if_pos hrow
    exact Runs.run_cons_some _ hr
  | listener vc callback => exact congrArg some (step_listener hs).2.2.symm

/-! ## Rows in range -/

def reloads (vc : Option Nat) : Callback → Option Nat
  | .snapshot _ => vc
  | .error => none

section
variable {s s' : Shared} {n : Nat}

theorem onForm_some {i : Nat} {f : CategoryPicker → Option CategoryPicker} (h : s.onForm i f = some s') :
    ∃ vc vc', s.forms[i]? = some vc ∧ f vc = some vc' ∧ s' = { s with forms := s.forms.set i vc' } := by
  obtain ⟨vc, hvc, h⟩ := Option.bind_eq_some_iff.mp h
  obtain ⟨vc', hf, rfl⟩ := Option.map_eq_some_iff.mp h
  exact ⟨vc, vc', hvc, hf, rfl⟩

end

section
variable {categories : List Category} {vc vc' : CategoryPicker}

theorem picker_currentIndex {e : PickerEvent} (h : vc.step categories e = some vc') :
    vc'.currentIndex = e.titled.getD vc.currentIndex := by
  cases e with
  | appear => cases h; rfl
  | titleForRow row =>
    obtain ⟨⟨vc'', title⟩, ht, rfl⟩ := Option.map_eq_some_iff.mp h
    obtain ⟨category, -, ht⟩ := Option.map_eq_some_iff.mp ht
    cases ht
    rfl
  | didSelectRow row | closePickerView =>
    obtain ⟨category, -, rfl⟩ := Option.map_eq_some_iff.mp h
    rfl

theorem picker_index_lt {e : PickerEvent} (hi : vc.currentIndex < categories.length)
    (h : vc.step categories e = some vc') : vc'.currentIndex < categories.length := by
  rw [picker_currentIndex h]
  cases e with
  | titleForRow row =>
    obtain ⟨r, ht, -⟩ := Option.map_eq_some_iff.mp h
    obtain ⟨category, hcategory, -⟩ := Option.map_eq_some_iff.mp ht
    exact (List.getElem?_eq_some_iff.mp hcategory).1
  | appear | didSelectRow | closePickerView => exact hi

theorem closePickerView_of_lt (h : vc.currentIndex < categories.length) :
    ∃ vc', vc.closePickerView categories = some vc' ∧
    vc'.categoryTextField = nameOf categories vc.currentIndex := by
  have hcategory := List.getElem?_eq_getElem h
  refine ⟨_, by rw [CategoryPicker.closePickerView, hcategory, Option.map_some], ?_⟩
  simp [nameOf, hcategory]

end

theorem form_step {s s' : Shared} {e : SharedEvent} {i : Nat} {vc : CategoryPicker} (h : s.step e = some s')
    (hvc : s.forms[i]? = some vc) (hlist : s'.categories = s.categories) :
    ∃ vc', s'.forms[i]? = some vc' ∧ Runs.run (CategoryPicker.step s.categories) vc (e.picker i) = some vc' := by
  have hform : ∀ {j f pe}, s.onForm j f = some s' →
      (∀ vc vc', f vc = some vc' → vc.step s.categories pe = some vc') →
      ∃ vc', s'.forms[i]? = some vc' ∧
        Runs.run (CategoryPicker.step s.categories) vc (if j = i then [pe] else []) = some vc' := by
    intro j f pe h hf
    obtain ⟨v, v', hv, hfv, rfl⟩ := onForm_some h
    by_cases hj : j = i
    · subst hj
      cases hvc.symm.trans hv
      rw [if_pos rfl, Runs.run_cons_some _ (hf vc v' hfv)]
      exact ⟨v', List.getElem?_set_self (List.getElem?_eq_some_iff.mp hv).1, rfl⟩
    · rw [if_neg hj]
      exact ⟨vc, (List.getElem?_set_ne hj).trans hvc, rfl⟩
  cases e with
  | category e =>
    obtain ⟨t, -, rfl⟩ := Option.map_eq_some_iff.mp h
    exact ⟨vc, hvc, rfl⟩
  | openForm =>
    cases h
    exact ⟨vc, (List.getElem?_append_left (List.getElem?_eq_some_iff.mp hvc).1).trans hvc, rfl⟩
  | showPicker j => exact hform h fun _ _ hf => hf
  | titleForRow j row => exact hform h fun _ _ hf => (Option.ite_none_right_eq_some.mp hf).2
  | didSelectRow j row => exact hform h fun _ _ hf => (Option.ite_none_right_eq_some.mp hf).2
  | closePickerView j => exact hform h fun _ _ hf => (Option.ite_none_right_eq_some.mp hf).2

/-- While the list stays, each form of the app goes through a run of its picker. -/
theorem form_run {s s' : Shared} {es : List SharedEvent} {i : Nat} {vc : CategoryPicker}
    (h : Runs.run Shared.step s es = some s') (hvc : s.forms[i]? = some vc)
    (hlist : Runs.Always Shared.step (fun t => t.categories = s.categories) s es) :
    ∃ vc', s'.forms[i]? = some vc' ∧
      Runs.run (CategoryPicker.step s.categories) vc (es.flatMap (SharedEvent.picker i)) = some vc' := by
  induction es generalizing s vc with
  | nil => cases h; exact ⟨vc, hvc, rfl⟩
  | cons e es ih =>
    obtain ⟨t, ht, h⟩ := Option.bind_eq_some_iff.mp h
    have hrest := hlist.2 t ht
    have ht' := Runs.always_head (P := fun t : Shared => t.categories = s.categories) hrest
    obtain ⟨vc₁, hvc₁, hrun⟩ := form_step ht hvc ht'
    obtain ⟨vc', hvc', hrun'⟩ := ih h hvc₁ (by rw [ht']; exact hrest)
    refine ⟨vc', hvc', ?_⟩
    rw [List.flatMap_cons, Runs.run_append, hrun, Option.bind_some, ← ht']
    exact hrun'

/-- **Done.** It leaves the name of the row of the last title, whatever was selected. -/
theorem picker_keeps_choice_iff {categories : List Category} (hne : categories ≠ []) {es : List PickerEvent}
    {vc : CategoryPicker}
    (hrun : Runs.run (CategoryPicker.step categories) CategoryPicker.viewDidLoad es = some vc) :
    (∃ vc', vc.closePickerView categories = some vc' ∧
      vc'.categoryTextField = nameOf categories (lastSelected es)) ↔
      nameOf categories (lastTitled es) = nameOf categories (lastSelected es) := by
  have hindex : vc.currentIndex = lastTitled es := Runs.run_last (fun _ _ _ h => picker_currentIndex h) hrun
  have hlt : vc.currentIndex < categories.length :=
    Runs.run_inv (I := fun vc => vc.currentIndex < categories.length) (fun _ _ _ hi h => picker_index_lt hi h)
      (List.length_pos_iff.mpr hne) hrun
  obtain ⟨vc', hclose, hname⟩ := closePickerView_of_lt hlt
  rw [hindex] at hname
  constructor
  · intro h
    obtain ⟨vc'', hclose', hchoice⟩ := h
    cases hclose.symm.trans hclose'
    exact hname.symm.trans hchoice
  · intro h
    exact ⟨vc', hclose, hname.trans h⟩

def twoCategories : List Category := [⟨some "A", some "Phones"⟩, ⟨some "B", some "Laptops"⟩]

def laptopsSelected : List PickerEvent := [.appear, .titleForRow 0, .titleForRow 1, .didSelectRow 1]

theorem picker_keeps_choice_laptops : ∃ vc,
    Runs.run (CategoryPicker.step twoCategories) CategoryPicker.viewDidLoad laptopsSelected = some vc ∧
    ∃ vc', vc.closePickerView twoCategories = some vc' ∧
      vc'.categoryTextField = nameOf twoCategories (lastSelected laptopsSelected) := by
  have hne : twoCategories ≠ [] := by simp [twoCategories]
  have hrun : Runs.run (CategoryPicker.step twoCategories) CategoryPicker.viewDidLoad laptopsSelected =
      some ⟨1, some 2, "Laptops"⟩ := rfl
  exact ⟨_, hrun, (picker_keeps_choice_iff hne hrun).mpr rfl⟩

theorem picker_keeps_choice_fails :
    ¬ ∀ (categories : List Category) (es : List PickerEvent) (vc : CategoryPicker), categories ≠ [] →
      Runs.run (CategoryPicker.step categories) CategoryPicker.viewDidLoad es = some vc →
      ∃ vc', vc.closePickerView categories = some vc' ∧
        vc'.categoryTextField = nameOf categories (lastSelected es) := by
  intro h
  -- the picker draws its two rows and Done is pressed on the first
  obtain ⟨vc', hclose, hname⟩ :=
    h twoCategories [.appear, .titleForRow 0, .titleForRow 1] _ (by simp [twoCategories]) rfl
  cases hclose
  exact absurd hname (by decide)

end WarrantyGuard
