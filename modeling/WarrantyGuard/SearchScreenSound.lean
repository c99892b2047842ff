import WarrantyGuard.ScreenSound
import WarrantyGuard.SearchSound

/-!
# A tap on a found row

The list of a `SearchVC` is the one that its table has loaded, or empty. So a tap on
a row in view opens the product that the row shows or traps: on a list that has been
cleared under it, or on a product without a warranty image. It never opens another
product.
-/

namespace WarrantyGuard

/-- The list is the table's or empty, and each row in view shows the name that the table has for it. -/
structure Backed (s : SearchScreen) : Prop where
  list : s.search.vc.products = s.search.vc.loaded ∨ s.search.vc.products = []
  visible : ∀ r ∈ s.visible, ∃ product, s.search.vc.loaded[r.row]? = some product ∧
    r.productNameLabel = product.productName

/-- Every row in view has a product behind it. -/
def RowsOpen (s : SearchScreen) : Prop := ∀ r ∈ s.visible, (s.search.vc.didSelectRowAt r.row).isSome

/-- A change of the text or an error finds no row in view. -/
def NothingInView (response : Nat → Callback) (s : SearchScreen) : SearchScreenEvent → Prop
  | .search e => e.reloads response = false → s.visible = []
  | _ => True

section
variable {ops : StringOps} {response : Nat → Callback}

/-- A search step reloads the table with its list, or empties the list. -/
theorem search_loaded {s s' : Search} {e : SearchEvent} (h : s.step ops response e = some s') :
    (e.reloads response = true ∧ s'.vc.products = s'.vc.loaded) ∨
      (e.reloads response = false ∧ s'.vc.products = [] ∧ s'.vc.loaded = s.vc.loaded) := by
  cases e with
  | textDidChange text =>
    obtain rfl := Option.some.inj h
    rw [(search_textDidChange s text).1]
    exact .inr ⟨rfl, rfl, rfl⟩
  | deliver i =>
    obtain ⟨-, query, -, hv, -⟩ := search_deliver h
    cases hr : response i with
    | error =>
      rw [hr] at hv
      obtain ⟨hp, hl, -⟩ := getProducts_error hv
      exact .inr ⟨by simp only [SearchEvent.reloads, hr], hp, hl⟩
    | snapshot documents =>
      rw [hr] at hv
      obtain ⟨hp, hl, -⟩ := getProducts_snapshot hv
      exact .inl ⟨by simp only [SearchEvent.reloads, hr], hp.trans hl.symm⟩

variable {s s' : SearchScreen}

theorem backed_step {e : SearchScreenEvent} (hs : Backed s) (h : s.step ops response e = some s') : Backed s' := by
  cases e with
  | search e =>
    obtain ⟨search, hsearch, rfl⟩ := Option.map_eq_some_iff.mp h
    obtain ⟨hr, hp⟩ | ⟨hr, hp, hl⟩ := search_loaded hsearch
    · simp only [hr, if_true]
      exact ⟨.inl hp, fun r hm => (List.not_mem_nil hm).elim⟩
    · simp only [hr, Bool.false_eq_true, if_false]
      refine ⟨.inr hp, fun r hm => ?_⟩
      rw [hl]; exact hs.visible r hm
  | rowAppears row =>
    obtain ⟨hrow, h⟩ := Option.ite_none_right_eq_some.mp h
    obtain ⟨label, hlabel, rfl⟩ := Option.map_eq_some_iff.mp h
    obtain ⟨product, hproduct, rfl⟩ := Option.map_eq_some_iff.mp hlabel
    refine ⟨hs.list, Listing.forall_mem_snoc.mpr ⟨hs.visible, product, ?_, rfl⟩⟩
    rcases hs.list with hp | hp
    · rw [← hp]; exact hproduct
    · rw [hp] at hproduct
      cases hproduct
  | rowDisappears i =>
    obtain ⟨-, h⟩ := Option.ite_none_right_eq_some.mp h
    cases h
    exact ⟨hs.list, fun r hm => hs.visible r (List.mem_of_mem_eraseIdx hm)⟩
  | didSelectRow i =>
    obtain ⟨-, h⟩ := Option.ite_none_left_eq_some.mp h
    obtain ⟨r, -, h⟩ := Option.bind_eq_some_iff.mp h
    obtain ⟨product, -, h⟩ := Option.bind_eq_some_iff.mp h
    obtain ⟨display, -, rfl⟩ := Option.map_eq_some_iff.mp h
    exact ⟨hs.list, hs.visible⟩
  | back =>
    obtain ⟨display, -, rfl⟩ := Option.map_eq_some_iff.mp h
    exact ⟨hs.list, hs.visible⟩

theorem rowsOpen_step {e : SearchScreenEvent} (ho : RowsOpen s) (h : s.step ops response e = some s') :
    RowsOpen s' ↔ NothingInView response s e := by
  cases e with
  | search e =>
    obtain ⟨search, hsearch, rfl⟩ := Option.map_eq_some_iff.mp h
    obtain ⟨hr, hp⟩ | ⟨hr, hp, hl⟩ := search_loaded hsearch
    · simp only [RowsOpen, NothingInView, hr, if_true, Bool.true_eq_false, false_implies, iff_true]
      exact fun r hm => (List.not_mem_nil hm).elim
    · simp only [RowsOpen, NothingInView, hr, Bool.false_eq_true, if_false, true_implies,
        SearchVC.didSelectRowAt, hp, List.getElem?_nil, Option.isSome_none, imp_false]
      exact List.eq_nil_iff_forall_not_mem.symm
  | rowAppears row =>
    obtain ⟨-, h⟩ := Option.ite_none_right_eq_some.mp h
    obtain ⟨label, hlabel, rfl⟩ := Option.map_eq_some_iff.mp h
    obtain ⟨product, hproduct, -⟩ := Option.map_eq_some_iff.mp hlabel
    have hopen : (s.search.vc.didSelectRowAt row).isSome := Option.isSome_iff_exists.mpr ⟨product, hproduct⟩
    exact iff_of_true (Listing.forall_mem_snoc.mpr ⟨ho, hopen⟩) trivial
  | rowDisappears i =>
    obtain ⟨-, h⟩ := Option.ite_none_right_eq_some.mp h
    cases h
    exact iff_of_true (fun r hm => ho r (List.mem_of_mem_eraseIdx hm)) trivial
  | didSelectRow i =>
    obtain ⟨-, h⟩ := Option.ite_none_left_eq_some.mp h
    obtain ⟨r, -, h⟩ := Option.bind_eq_some_iff.mp h
    obtain ⟨product, -, h⟩ := Option.bind_eq_some_iff.mp h
    obtain ⟨display, -, rfl⟩ := Option.map_eq_some_iff.mp h
    exact iff_of_true ho trivial
  | back =>
    obtain ⟨display, -, rfl⟩ := Option.map_eq_some_iff.mp h
    exact iff_of_true ho trivial

/-- On the emptied list the tap traps; on the list that the table has, it opens the row's product. -/
structure FoundRow (ops : StringOps) (response : Nat → Callback) (s : SearchScreen) (i : Nat) (r : SearchRow)
    (product : Product) : Prop where
  loaded : s.search.vc.loaded[r.row]? = some product
  productNameLabel : r.productNameLabel = product.productName
  emptied : s.search.vc.products = [] → s.step ops response (.didSelectRow i) = none
  listed : s.search.vc.products ≠ [] → s.search.vc.didSelectRowAt r.row = some product ∧
    TapOpens SearchScreen.display s (s.step ops response (.didSelectRow i)) product

theorem search_didSelectRow (hs : Backed s) {i : Nat} {r : SearchRow} (hr : s.visible[i]? = some r) :
    ∃ product, FoundRow ops response s i r product := by
  obtain ⟨product, hloaded, hname⟩ := hs.visible r (List.mem_of_getElem? hr)
  refine ⟨product, hloaded, hname, fun hp => ?_, fun hp => ?_⟩
  · have hselect : s.search.vc.didSelectRowAt r.row = none := by rw [SearchVC.didSelectRowAt, hp]; rfl
    simp only [SearchScreen.step, hr, hselect, Option.bind_some, Option.bind_none, ite_self]
  · have hselect : s.search.vc.didSelectRowAt r.row = some product := by
      rw [SearchVC.didSelectRowAt, hs.list.resolve_right hp]
      exact hloaded
    refine ⟨hselect, ?_⟩
    apply tapOpens_of_eq (fun vc => { s with display := some vc }) fun vc => rfl
    simp only [SearchScreen.step, hr, hselect, Option.bind_some, SearchVC.prepare]

end

/-- **Rows of a search.** Every row in view has a product behind it exactly as long as the list
is not emptied under rows in view. A tap opens the product that the row shows and no other; with
nothing on top of the screen it traps on the emptied list and on a product without a warranty image. -/
theorem found_rows_open_iff (ops : StringOps) (response : Nat → Callback) (currentUser : Option String)
    (es : List SearchScreenEvent) :
    (Runs.Always (SearchScreen.step ops response) RowsOpen (SearchScreen.viewDidLoad currentUser) es ↔
      Runs.Along (SearchScreen.step ops response) (NothingInView response)
        (SearchScreen.viewDidLoad currentUser) es) ∧
    ∀ s, Runs.run (SearchScreen.step ops response) (SearchScreen.viewDidLoad currentUser) es = some s →
      ∀ i r, s.visible[i]? = some r → ∃ product, FoundRow ops response s i r product ∧
        (s.display = none → (s.step ops response (.didSelectRow i) = none ↔
          s.search.vc.products = [] ∨ product.warrantyImage = none)) := by
  have hstart : Backed (SearchScreen.viewDidLoad currentUser) := ⟨.inl rfl, fun r hm => (List.not_mem_nil hm).elim⟩
  refine ⟨Runs.always_iff_along (fun _ _ _ => backed_step) (fun _ _ _ _ => rowsOpen_step) hstart
    fun r hm => (List.not_mem_nil hm).elim, fun s h i r hr => ?_⟩
  have hs : Backed s := Runs.run_inv (fun _ _ _ => backed_step) hstart h
  obtain ⟨product, hrow⟩ := search_didSelectRow hs hr
  refine ⟨product, hrow, fun hd => ?_⟩
  by_cases hp : s.search.vc.products = []
  · exact iff_of_true (hrow.emptied hp) (.inl hp)
  · rw [or_iff_right hp, ← Option.not_isSome_iff_eq_none, ← Option.not_isSome_iff_eq_none]
    exact not_congr ((hrow.listed hp).2.isSome hd)

end WarrantyGuard
