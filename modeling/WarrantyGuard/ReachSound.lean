import WarrantyGuard.AddFlowSound
import WarrantyGuard.ScreenSound

/-!
# Where a saved product is found again

A product has its category by name, as a row of the list had it when it was chosen.
It is in reach of the rows with that name, whichever documents they are from: with
the last of them deleted it is out of reach, and another category of the same name
brings it back.
-/

namespace WarrantyGuard

open AddFlow

/-- A row of the list opens a screen whose query finds the document and whose callback lists it. -/
def Reaches (categories : List Category) (user : String) (produts : Collection) (d : Document) : Prop :=
  ∃ row vc, CategoryVC.opened categories (some user) row = some vc ∧
    d ∈ produts.whereField "category" (.string vc.category) ∧
    Product.ofData d.data ∈ (vc.getProductForCategory
      (.snapshot (produts.whereField "category" (.string vc.category)))).products

theorem opened_iff {categories : List Category} {currentUser : Option String} {vc : DetailVC} :
    (∃ row, CategoryVC.opened categories currentUser row = some vc) ↔
      ∃ c ∈ categories, ∃ name, c.categoryName = some name ∧ vc = DetailVC.viewDidLoad name currentUser := by
  constructor
  · intro h
    obtain ⟨row, h⟩ := h
    obtain ⟨sender, hsender, h⟩ := Option.bind_eq_some_iff.mp h
    obtain ⟨c, hc, rfl⟩ := Option.map_eq_some_iff.mp hsender
    obtain ⟨name, hname, rfl⟩ := Option.map_eq_some_iff.mp h
    exact ⟨c, List.mem_of_getElem? hc, name, hname, rfl⟩
  · intro h
    obtain ⟨c, hc, name, hname, rfl⟩ := h
    obtain ⟨row, hrow⟩ := List.mem_iff_getElem?.mp hc
    refine ⟨row, ?_⟩
    rw [CategoryVC.opened, CategoryVC.didSelectRowAt, hrow, Option.map_some, hname]
    rfl

section
variable {produts : Collection} {d : Document} {category user : String}

theorem reaches_iff (hlookup : produts.lookup d.id = some d.data) (huser : d.data.string "userID" = some user)
    (hcategory : d.data.lookup "category" = some (.string category)) (categories : List Category) :
    Reaches categories user produts d ↔ ∃ c ∈ categories, c.categoryName = some category := by
  constructor
  · intro h
    obtain ⟨row, vc, hopened, hfound, -⟩ := h
    obtain ⟨c, hc, name, hname, rfl⟩ := opened_iff.mp ⟨row, hopened⟩
    have hsame := hcategory.symm.trans ((mem_whereField "category").mp hfound).2
    obtain rfl : category = name := Value.string.inj (Option.some.inj hsame)
    exact ⟨c, hc, hname⟩
  · intro h
    obtain ⟨c, hc, hname⟩ := h
    obtain ⟨row, hopened⟩ := opened_iff.mpr ⟨c, hc, category, hname, rfl⟩
    have hfound : d ∈ produts.whereField "category" (.string category) :=
      (mem_whereField "category").mpr ⟨hlookup, hcategory⟩
    refine ⟨row, _, hopened, hfound, ?_⟩
    rw [getProductForCategory_snapshot rfl]
    apply List.mem_append_right
    exact List.mem_map_of_mem (List.mem_filter.mpr ⟨hfound, (isOwn_iff huser).mpr rfl⟩)

end

section
variable {Image Bytes : Type} {L : Locale} {p : Platform Image Bytes} {storage : Storage Bytes}
  {produts : Collection} {currentUser : Option String} {es : List (FlowEvent Image)}

/-- The category that is handed on with a product has been the name of a category that a snapshot brought. -/
theorem handed_category {product : ProductComponents Image}
    (h : Handed L p (launch storage produts currentUser) es product) :
    ∃ category, product.category = some category ∧ Filled category ∧
      ∃ d ∈ es.flatMap heard, d.data.string "categoryName" = some category := by
  obtain ⟨form, image, ⟨i, pre, mid, post, t, tab, rfl, ht, htab, rfl, -⟩, hvalid, rfl⟩ := handed_form h
  have hfilled : Filled tab.form.vc.categoryTextField := ((validateFields_iff tab.form.vc).mp hvalid).2.2.2
  refine ⟨tab.form.vc.categoryTextField, rfl, hfilled, ?_⟩
  rcases (heard_run ht).texts i tab htab with hempty | ⟨d, hd, hname⟩
  · rw [hempty] at hfilled
    exact absurd hfilled not_filled_empty
  · refine ⟨d, ?_, hname⟩
    rw [List.flatMap_append]
    exact List.mem_append_left _ hd

/-- **Saved and found again.** The category of a document that the app has added is the name of one that a
snapshot brought, and the user it was saved for gets to it from the list of the categories exactly if
a category of that name is in the list. -/
theorem saved_products_reached {s : AddFlow Image Bytes}
    (hrun : Runs.run (AddFlow.step L p) (launch storage produts currentUser) es = some s) {id : String}
    {data : Data} (hd : s.uploads.produts.lookup id = some data) (hnew : id ∉ produts) :
    ∃ category, data.string "category" = some category ∧ Filled category ∧
      (∃ d ∈ es.flatMap heard, d.data.string "categoryName" = some category) ∧
      ∀ user, data.string "userID" = some user → ∀ categories : List Category,
        Reaches categories user s.uploads.produts ⟨id, data⟩ ↔
        ∃ c ∈ categories, c.categoryName = some category := by
  obtain ⟨c, hc, -, notes, ref, shown, productUrl, uid, rfl, -⟩ := added_recorded (uploads_run hrun) hd hnew
  obtain ⟨category, hcategory, hfilled, hheard⟩ := handed_category ((sourced_run hrun).chains c hc)
  have hlookup : (productData c.finalProduct notes (p.absoluteString ref) productUrl uid).lookup "category" =
      some (.string category) := by
    rw [productData, hcategory]; rfl
  have hstring : Data.string (productData c.finalProduct notes (p.absoluteString ref) productUrl uid) "category" =
      some category := by
    rw [Data.string, hlookup]; rfl
  refine ⟨category, hstring, hfilled, hheard, fun user huser categories => ?_⟩
  exact @reaches_iff s.uploads.produts ⟨id, _⟩ category user hd huser hlookup categories

end

theorem saved_products_reached_phone : ∃ s,
    Runs.run (AddFlow.step en_US textImages) (launch ∅ ∅ (some "u")) phoneFlow = some s ∧
      (s.uploads.produts.lookup "C").isSome ∧ ∀ data, s.uploads.produts.lookup "C" = some data →
        ∃ category, data.string "category" = some category ∧
          ∃ d ∈ phoneFlow.flatMap heard, d.data.string "categoryName" = some category := by
  refine ⟨_, rfl, rfl, fun data hd => ?_⟩
  obtain ⟨category, hcategory, -, hheard, -⟩ :=
    @saved_products_reached String String en_US textImages ∅ ∅ (some "u") phoneFlow _ rfl "C" data hd
      (AList.notMem_empty "C")
  exact ⟨category, hcategory, hheard⟩

end WarrantyGuard
