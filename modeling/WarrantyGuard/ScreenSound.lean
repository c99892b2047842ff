import WarrantyGuard.DetailSound
import WarrantyGuard.DisplaySound
import WarrantyGuard.Screen
import WarrantyGuard.SharedSound
import WarrantyGuard.TableSound

/-!
# A tap opens what the row shows

The list of a `DetailVC` only grows, so a row in view goes on standing for the
product that its cell was filled from, and a tap on it opens that product. What
the table sees of a screen is a run of the table by itself. A category's row
opens under its own text, as long as it has one.
-/

namespace WarrantyGuard

open DetailScreen

/-! ## Cells and displays -/

theorem cellForRowAt_productName {L : Locale} {now : Int} {cell cell' : DetailTableViewCell} {product : Product}
    (h : DetailVC.cellForRowAt L now cell product = some cell') : cell'.productName = product.productName := by
  have himage : ∀ (cell : DetailTableViewCell) url,
      (DetailVC.showImage cell url).productName = cell.productName := by
    intro cell url
    cases url <;> rfl
  unfold DetailVC.cellForRowAt at h
  split at h
  · obtain ⟨⟨daysLeft, totalDays⟩, -, rfl⟩ := Option.map_eq_some_iff.mp h
    rw [himage, (showDuration_keeps _ daysLeft totalDays).1]
  · cases h
    rw [himage]

/-- From a screen with nothing on top of it, the tap traps only on a product without a warranty
image; where it does not trap, it opens the product. -/
structure TapOpens {σ : Type} (display : σ → Option DisplayVC) (s : σ) (tap : Option σ) (product : Product) :
    Prop where
  isSome : display s = none → (tap.isSome ↔ product.warrantyImage.isSome)
  opens : ∀ s', tap = some s' → ∃ vc, display s' = some vc ∧ Displayed product vc

theorem tapOpens_of_eq {σ : Type} {display : σ → Option DisplayVC} {s : σ} {tap : Option σ} {product : Product}
    (f : DisplayVC → σ) (hf : ∀ vc, display (f vc) = some vc)
    (htap : tap = if (display s).isSome then none else (DisplayVC.viewDidLoad (some product)).map f) :
    TapOpens display s tap product := by
  refine ⟨fun hd => ?_, fun s' h => ?_⟩
  · rw [htap, hd, Option.isSome_none, if_neg Bool.false_ne_true, Option.isSome_map, displayProduct_isSome]
  · obtain ⟨-, h⟩ := Option.ite_none_left_eq_some.mp (htap.symm.trans h)
    obtain ⟨vc, hvc, rfl⟩ := Option.map_eq_some_iff.mp h
    exact ⟨vc, hf vc, viewDidLoad_displayed hvc⟩

theorem getProductForCategory_rows {vc : DetailVC} {userID : String} (h : vc.userID = some userID)
    (hrows : vc.rows = vc.products.length) (callback : Callback) :
    (vc.getProductForCategory callback).rows = (vc.getProductForCategory callback).products.length := by
  have hhide : ∀ vc : DetailVC, vc.hideTableView.rows = vc.rows := by
    intro vc
    unfold DetailVC.hideTableView
    split <;> rfl
  cases callback with
  | snapshot documents => simp only [DetailVC.getProductForCategory, h, hhide, hideTableView_products]
  | error => simp only [DetailVC.getProductForCategory, h, hhide, hideTableView_products, hrows]

/-! ## The steps of a screen -/

/-- Each row in view has been filled from its product. -/
def FilledRows (L : Locale) (s : DetailTable) : Prop :=
  ∀ r ∈ s.visible, ∃ product cell, s.products[r.row]? = some product ∧
    DetailVC.cellForRowAt L r.now cell product = some r.cell

theorem filledRows_step {L : Locale} {prototype : DetailTableViewCell} {s s' : DetailTable} {e : TableEvent}
    (hs : FilledRows L s) (h : s.step L prototype e = some s') : FilledRows L s' := by
  cases e with
  | rowAppears row reused now =>
    obtain ⟨product, hproduct, h⟩ := Option.bind_eq_some_iff.mp h
    obtain ⟨r, -, h⟩ := Option.bind_eq_some_iff.mp h
    obtain ⟨cell, hcell, rfl⟩ := Option.map_eq_some_iff.mp h
    exact Listing.forall_mem_snoc.mpr ⟨hs, product, r.1, hproduct, hcell⟩
  | rowDisappears i =>
    obtain ⟨r, -, rfl⟩ := Option.map_eq_some_iff.mp h
    exact fun r hr => hs r (List.mem_of_mem_eraseIdx hr)
  | reloadData products =>
    obtain rfl := Option.some.inj h
    exact fun r hr => (List.not_mem_nil hr).elim

/-- The rows count the products, each row in view has been filled from its product,
and what is displayed is one of them. -/
structure Standing (L : Locale) (userID : String) (s : DetailScreen) : Prop where
  userID : s.vc.userID = some userID
  rows : s.vc.rows = s.vc.products.length
  visible : FilledRows L s.table
  display : ∀ display, s.display = some display →
    ∃ product ∈ s.vc.products, DetailVC.prepare product = some display

/-- A callback, a step of the table, or a display that comes or goes. -/
inductive Shift (L : Locale) (prototype : DetailTableViewCell) (s : DetailScreen) :
    ScreenEvent → DetailScreen → Prop
  | listener {callback : Callback} : Shift L prototype s (.listener callback) (s.listener callback)
  | table {e : ScreenEvent} {te : TableEvent} {t : DetailTable} (htable : s.asTable e = [te])
      (hcallbacks : callbacks e = []) (ht : s.table.step L prototype te = some t)
      (hproducts : t.products = s.vc.products) :
      Shift L prototype s e (s.withTable t)
  | display {e : ScreenEvent} {display : Option DisplayVC} (htable : s.asTable e = [])
      (hcallbacks : callbacks e = [])
      (hdisplay : ∀ d, display = some d → ∃ product ∈ s.vc.products, DetailVC.prepare product = some d) :
      Shift L prototype s e { s with display := display }

section
variable {L : Locale} {prototype : DetailTableViewCell} {s s' : DetailScreen} {userID : String}

theorem screen_shift {e : ScreenEvent} (h : s.step L prototype e = some s') : Shift L prototype s e s' := by
  cases e with
  | listener callback =>
    obtain ⟨_, -, rfl⟩ := Option.map_eq_some_iff.mp h
    exact .listener
  | rowAppears row reused now =>
    obtain ⟨-, h⟩ := Option.ite_none_right_eq_some.mp h
    obtain ⟨t, ht, rfl⟩ := Option.map_eq_some_iff.mp h
    refine .table rfl rfl ht ?_
    obtain ⟨product, -, ht⟩ := Option.bind_eq_some_iff.mp ht
    obtain ⟨r, -, ht⟩ := Option.bind_eq_some_iff.mp ht
    obtain ⟨cell, -, rfl⟩ := Option.map_eq_some_iff.mp ht
    rfl
  | rowDisappears i =>
    obtain ⟨t, ht, rfl⟩ := Option.map_eq_some_iff.mp h
    refine .table rfl rfl ht ?_
    obtain ⟨r, -, rfl⟩ := Option.map_eq_some_iff.mp ht
    rfl
  | didSelectRow i =>
    obtain ⟨-, h⟩ := Option.ite_none_left_eq_some.mp h
    obtain ⟨r, -, h⟩ := Option.bind_eq_some_iff.mp h
    obtain ⟨product, hproduct, h⟩ := Option.bind_eq_some_iff.mp h
    obtain ⟨display, hdisplay, rfl⟩ := Option.map_eq_some_iff.mp h
    refine .display rfl rfl fun d hd => ?_
    cases hd
    exact ⟨product, List.mem_of_getElem? hproduct, hdisplay⟩
  | back =>
    obtain ⟨display, -, rfl⟩ := Option.map_eq_some_iff.mp h
    exact .display rfl rfl fun d hd => absurd hd.symm (Option.some_ne_none d)

theorem withTable_table {t : DetailTable} (h : t.products = s.vc.products) : (s.withTable t).table = t := by
  cases t
  cases h
  rfl

theorem listener_products (hu : s.vc.userID = some userID) (callback : Callback) :
    (s.listener callback).vc.products = s.vc.products ++ brought userID callback := by
  rw [← getProductForCategory_products hu]
  cases callback <;> rfl

/-- What a callback is to the table: a snapshot reloads it. -/
theorem listener_table (hu : s.vc.userID = some userID) (callback : Callback) :
    Runs.run (DetailTable.step L prototype) s.table (s.asTable (.listener callback)) =
      some (s.listener callback).table := by
  cases callback with
  | snapshot documents => rfl
  | error =>
    have hproducts := getProductForCategory_error hu
    simp only [asTable, Runs.run, DetailScreen.listener, table, hproducts]

theorem screen_table {e : ScreenEvent} (hu : s.vc.userID = some userID) (h : s.step L prototype e = some s') :
    Runs.run (DetailTable.step L prototype) s.table (s.asTable e) = some s'.table := by
  cases screen_shift h with
  | listener => exact listener_table hu _
  | table htable _ ht hproducts =>
    rw [htable, Runs.run_cons_some _ ht, Runs.run, withTable_table hproducts]
  | display htable => rw [htable]; rfl

theorem screen_products {e : ScreenEvent} (hu : s.vc.userID = some userID) (h : s.step L prototype e = some s') :
    s'.vc.products = s.vc.products ++ (callbacks e).flatMap (brought userID) := by
  cases screen_shift h with
  | listener => rw [listener_products hu, callbacks, List.flatMap_singleton]
  | table _ hcallbacks => rw [hcallbacks]; exact (List.append_nil _).symm
  | display _ hcallbacks => rw [hcallbacks]; exact (List.append_nil _).symm

theorem standing_listener (hs : Standing L userID s) (callback : Callback) :
    Standing L userID (s.listener callback) := by
  have hvc : (s.listener callback).vc = s.vc.getProductForCategory callback := by cases callback <;> rfl
  have hdisplay : (s.listener callback).display = s.display := by cases callback <;> rfl
  refine ⟨?_, ?_, ?_, ?_⟩
  · rw [hvc]; exact getProductForCategory_userID hs.userID callback
  · rw [hvc]; exact getProductForCategory_rows hs.userID hs.rows callback
  · have htable : Runs.run (DetailTable.step L ⟨none, none, none, none⟩) s.table (s.asTable (.listener callback)) =
        some (s.listener callback).table := listener_table hs.userID callback
    exact Runs.run_inv (fun _ _ _ => filledRows_step) hs.visible htable
  · intro display hd
    obtain ⟨product, hp, hprepare⟩ := hs.display display (hdisplay.symm.trans hd)
    rw [listener_products hs.userID]
    exact ⟨product, List.mem_append_left _ hp, hprepare⟩

theorem standing_step {e : ScreenEvent} (hs : Standing L userID s) (h : s.step L prototype e = some s') :
    Standing L userID s' := by
  cases screen_shift h with
  | listener => exact standing_listener hs _
  | table _ _ ht hproducts =>
    refine ⟨hs.userID, hs.rows, ?_, hs.display⟩
    rw [withTable_table hproducts]
    exact filledRows_step hs.visible ht
  | display _ _ hdisplay => exact ⟨hs.userID, hs.rows, hs.visible, hdisplay⟩

theorem standing_viewDidLoad (L : Locale) (category userID : String) :
    Standing L userID (viewDidLoad category (some userID)) :=
  ⟨rfl, rfl, fun _ hr => (List.not_mem_nil hr).elim, fun d hd => absurd hd.symm (Option.some_ne_none d)⟩

theorem standing_run {category : String} {es : List ScreenEvent}
    (h : Runs.run (DetailScreen.step L prototype) (viewDidLoad category (some userID)) es = some s) :
    Standing L userID s ∧ s.vc.products = (es.flatMap callbacks).flatMap (brought userID) := by
  refine Runs.run_history (I := fun s es => Standing L userID s ∧
    s.vc.products = (es.flatMap callbacks).flatMap (brought userID))
    ⟨standing_viewDidLoad L category userID, rfl⟩ ?_ h
  intro t es e t' _ ih ht
  refine ⟨standing_step ih.1 ht, ?_⟩
  rw [screen_products ih.1.userID ht, ih.2, List.flatMap_append, List.flatMap_append, List.flatMap_singleton]

end

/-! ## What a tap opens -/

section
variable {L : Locale} {prototype : DetailTableViewCell} {s : DetailScreen} {userID : String}

theorem didSelectRow_opens (hs : Standing L userID s) {i : Nat} {r : VisibleRow} (hr : s.visible[i]? = some r) :
    ∃ product, s.vc.didSelectRowAt r.row = some product ∧ r.cell.productName = product.productName ∧
      TapOpens DetailScreen.display s (s.step L prototype (.didSelectRow i)) product := by
  obtain ⟨product, cell, hproduct, hcell⟩ := hs.visible r (List.mem_of_getElem? hr)
  have hselect : s.vc.didSelectRowAt r.row = some product := hproduct
  refine ⟨product, hselect, cellForRowAt_productName hcell, ?_⟩
  apply tapOpens_of_eq (fun vc => { s with display := some vc }) fun vc => rfl
  simp only [DetailScreen.step, hr, hselect, Option.bind_some, DetailVC.prepare]

end

/-- **Rows of a category.** The list is what the callbacks have brought; each row in view shows
the name of the product behind it, and a tap opens that product. -/
theorem rows_open_what_they_show {L : Locale} {prototype : DetailTableViewCell} {category userID : String}
    {es : List ScreenEvent} {s : DetailScreen}
    (h : Runs.run (DetailScreen.step L prototype) (viewDidLoad category (some userID)) es = some s) :
    s.vc.products = (es.flatMap callbacks).flatMap (brought userID) ∧
      (∀ row < s.vc.rows, (s.vc.didSelectRowAt row).isSome) ∧
      (∀ i r, s.visible[i]? = some r → ∃ product, s.vc.didSelectRowAt r.row = some product ∧
        r.cell.productName = product.productName ∧
        TapOpens DetailScreen.display s (s.step L prototype (.didSelectRow i)) product) ∧
      ∀ vc, s.display = some vc → ∃ product ∈ s.vc.products, Displayed product vc := by
  obtain ⟨hs, hproducts⟩ := standing_run h
  refine ⟨hproducts, fun row hrow => ?_, fun i r => didSelectRow_opens hs, fun vc hd => ?_⟩
  · rw [hs.rows] at hrow
    exact Option.isSome_iff_exists.mpr ⟨_, List.getElem?_eq_getElem hrow⟩
  · obtain ⟨product, hp, hprepare⟩ := hs.display vc hd
    exact ⟨product, hp, viewDidLoad_displayed hprepare⟩

def phoneShown : List ScreenEvent :=
  [.listener (.snapshot
    [⟨"d1", [("productName", .string "Phone"), ("warrantyImage", .string "w"), ("userID", .string "u")]⟩]),
    .rowAppears 0 none 18982]

theorem rows_open_what_they_show_phone : ∃ s,
    Runs.run (DetailScreen.step en_US ⟨none, none, none, none⟩) (viewDidLoad "Phones" (some "u")) phoneShown =
        some s ∧
      ∀ i r, s.visible[i]? = some r → ∃ product, s.vc.didSelectRowAt r.row = some product ∧
        r.cell.productName = product.productName ∧
        TapOpens DetailScreen.display s (s.step en_US ⟨none, none, none, none⟩ (.didSelectRow i)) product := by
  obtain ⟨s, hs⟩ : ∃ s, Runs.run (DetailScreen.step en_US ⟨none, none, none, none⟩)
      (viewDidLoad "Phones" (some "u")) phoneShown = some s := ⟨_, rfl⟩
  exact ⟨s, hs, (rows_open_what_they_show hs).2.2.1⟩

/-! ## The screen's table -/

/-- What reaches the table gives each row a cell that is a new one but for what its product writes. -/
def ScreenKeepsOwn (prototype : DetailTableViewCell) (s : DetailScreen) (e : ScreenEvent) : Prop :=
  ∀ te ∈ s.asTable e, KeepsOwn prototype s.table te

theorem asTable_cases (s : DetailScreen) (e : ScreenEvent) : s.asTable e = [] ∨ ∃ te, s.asTable e = [te] := by
  cases e with
  | listener callback =>
    cases callback with
    | snapshot documents => exact .inr ⟨_, rfl⟩
    | error => exact .inl rfl
  | rowAppears | rowDisappears => exact .inr ⟨_, rfl⟩
  | didSelectRow | back => exact .inl rfl

theorem screen_showsOwn_step {L : Locale} {prototype : DetailTableViewCell} {s s' : DetailScreen} {userID : String}
    {e : ScreenEvent} (hu : s.vc.userID = some userID) (hs : ShowsOwn L prototype s.table)
    (h : s.step L prototype e = some s') : ShowsOwn L prototype s'.table ↔ ScreenKeepsOwn prototype s e := by
  have hrun := screen_table hu h
  unfold ScreenKeepsOwn
  obtain hte | ⟨te, hte⟩ := asTable_cases s e
  · rw [hte] at hrun ⊢
    rw [← Option.some.inj hrun]
    exact iff_of_true hs fun _ hm => (List.not_mem_nil hm).elim
  · rw [hte] at hrun ⊢
    obtain ⟨t, ht, hrun⟩ := Option.bind_eq_some_iff.mp hrun
    rw [← Option.some.inj hrun, List.forall_mem_singleton]
    exact showsOwn_step hs ht

theorem screen_cells_iff (L : Locale) (prototype : DetailTableViewCell) (category userID : String)
    (es : List ScreenEvent) :
    (∀ s, Runs.run (DetailScreen.step L prototype) (viewDidLoad category (some userID)) es = some s →
      Runs.run (DetailTable.step L prototype) DetailTable.viewDidLoad
        (Runs.log (DetailScreen.step L prototype) asTable (viewDidLoad category (some userID)) es) =
      some s.table) ∧
    (Runs.Always (DetailScreen.step L prototype) (fun s => ShowsOwn L prototype s.table)
        (viewDidLoad category (some userID)) es ↔
      Runs.Along (DetailScreen.step L prototype) (ScreenKeepsOwn prototype)
        (viewDidLoad category (some userID)) es) := by
  have hstart := standing_viewDidLoad L category userID
  constructor
  · have htable : ∀ s e s', Standing L userID s → s.step L prototype e = some s' →
        Runs.run (DetailTable.step L prototype) s.table (s.asTable e) = some s'.table :=
      fun _ _ _ hs h => screen_table hs.userID h
    intro s h
    exact Runs.run_log (fun _ _ _ => standing_step) htable hstart h
  · exact Runs.always_iff_along (fun _ _ _ => standing_step)
      (fun _ _ _ hs hown ht => screen_showsOwn_step hs.userID hown ht) hstart
      fun _ hr => (List.not_mem_nil hr).elim

/-! ## A category's row -/

/-- Every row shows a name and opens the products of that name. -/
def Opens (currentUser : Option String) (categories : List Category) : Prop :=
  ∀ row < categories.length, ∃ name, CategoryVC.cellForRowAt categories row = some (some name) ∧
    CategoryVC.opened categories currentUser row = some (DetailVC.viewDidLoad name currentUser)

/-- A document of `Category` with a name. -/
def Titled (d : Document) : Prop := (d.data.string "categoryName").isSome

def BringsTitled : CategoryEvent → Prop
  | .listener _ (.snapshot documents) => ∀ d ∈ documents, Titled d
  | _ => True

theorem opens_iff (currentUser : Option String) (categories : List Category) :
    Opens currentUser categories ↔ ∀ category ∈ categories, category.categoryName.isSome := by
  constructor
  · intro h category hm
    obtain ⟨row, hrow, rfl⟩ := List.mem_iff_getElem.mp hm
    obtain ⟨name, hname, -⟩ := h row hrow
    obtain ⟨category, hc, hname⟩ := Option.map_eq_some_iff.mp hname
    rw [List.getElem?_eq_getElem hrow] at hc
    rw [Option.some.inj hc, hname]
    rfl
  · intro h row hrow
    obtain ⟨name, hname⟩ := Option.isSome_iff_exists.mp (h _ (List.getElem_mem hrow))
    have hc : categories[row]? = some categories[row] := List.getElem?_eq_getElem hrow
    refine ⟨name, ?_, ?_⟩
    · rw [CategoryVC.cellForRowAt, hc, Option.map_some, hname]
    · rw [CategoryVC.opened, CategoryVC.didSelectRowAt, hc, Option.map_some, hname]
      rfl

theorem opens_decoded (currentUser : Option String) (documents : List Document) :
    Opens currentUser (decoded (.snapshot documents)) ↔ ∀ d ∈ documents, Titled d := by
  rw [opens_iff, decoded]
  exact List.forall_mem_map

theorem opens_step {currentUser : Option String} {s s' : CategoryState} {e : CategoryEvent}
    (hs : Opens currentUser s.categories) (h : s.step e = some s') :
    Opens currentUser s'.categories ↔ BringsTitled e := by
  have hm : Runs.run Mirror.step s.categories ([e].flatMap CategoryEvent.mirror) = some s'.categories :=
    categories_mirror (Runs.run_cons_some _ h)
  rw [List.flatMap_singleton] at hm
  cases e with
  | viewDidLoad | addButtonTapped =>
    rw [← Option.some.inj hm]
    exact iff_of_true hs trivial
  | commitDelete vc row =>
    obtain ⟨categories, hr, hm⟩ := Option.bind_eq_some_iff.mp hm
    obtain ⟨-, rfl⟩ := removeAt_some hr
    rw [← Option.some.inj hm]
    rw [opens_iff] at hs ⊢
    exact iff_of_true (fun category hc => hs category (List.mem_of_mem_eraseIdx hc)) trivial
  | listener vc callback =>
    obtain ⟨categories, hl, hm⟩ := Option.bind_eq_some_iff.mp hm
    rw [← Option.some.inj hm, mirror_listener hl]
    cases callback with
    | snapshot documents => exact opens_decoded currentUser documents
    | error => exact iff_of_true (fun row hrow => absurd hrow (Nat.not_lt_zero row)) trivial

/-! ### Documents of the collection -/

/-- A snapshot's documents have been in the collection, now or earlier. -/
def BringsOld (s₀ : CategoryState) (es : List CategoryEvent) : Prop :=
  ∀ pre vc documents post, es = pre ++ .listener vc (.snapshot documents) :: post → ∀ d ∈ documents,
    ∃ earlier later s, pre = earlier ++ later ∧ Runs.run CategoryState.step s₀ earlier = some s ∧
      s.collection.lookup d.id = some d.data

theorem titled_step {s s' : CategoryState} {e : CategoryEvent}
    (hs : ∀ d : Document, s.collection.lookup d.id = some d.data → Titled d) (h : s.step e = some s') :
    ∀ d : Document, s'.collection.lookup d.id = some d.data → Titled d := by
  cases e with
  | viewDidLoad id =>
    obtain ⟨-, -, -, hc⟩ := step_viewDidLoad h
    rw [hc]; exact hs
  | addButtonTapped vc name now =>
    obtain ⟨id, -, -, hc⟩ := step_addButtonTapped h
    intro d hd
    rw [hc, Collection.setData] at hd
    by_cases hid : d.id = id
    · rw [hid, AList.lookup_insert] at hd
      rw [Titled, ← Option.some.inj hd, categoryData_categoryName]
      rfl
    · rw [AList.lookup_insert_ne hid] at hd
      exact hs d hd
  | commitDelete vc row =>
    obtain ⟨c, -, -, -, -, hc, -⟩ := step_commitDelete h
    intro d hd
    rw [hc, lookup_delete] at hd
    exact hs d hd.1
  | listener vc callback =>
    obtain ⟨-, hc, -⟩ := step_listener h
    rw [hc]; exact hs

theorem categories_open_iff (currentUser : Option String) (collection : Collection) (es : List CategoryEvent) :
    (Runs.Always CategoryState.step (fun s => Opens currentUser s.categories)
        (CategoryState.launch collection) es ↔
      Runs.Along CategoryState.step (fun _ e => BringsTitled e) (CategoryState.launch collection) es) ∧
    ((∀ d ∈ collection.documents, Titled d) → BringsOld (CategoryState.launch collection) es →
      Runs.Always CategoryState.step (fun s => Opens currentUser s.categories)
        (CategoryState.launch collection) es) := by
  have hiff : Runs.Always CategoryState.step (fun s => Opens currentUser s.categories)
        (CategoryState.launch collection) es ↔
      Runs.Along CategoryState.step (fun _ e => BringsTitled e) (CategoryState.launch collection) es :=
    Runs.always_iff_along (I := fun _ => True) (fun _ _ _ _ _ => trivial)
      (fun _ _ _ _ hs h => opens_step hs h) trivial
      fun row hrow => absurd hrow (Nat.not_lt_zero row)
  refine ⟨hiff, fun hc hold => hiff.mpr (Runs.along_iff.mpr ?_)⟩
  intro pre e post s s' he _ _
  cases e with
  | listener vc callback =>
    cases callback with
    | snapshot documents =>
      intro d hd
      obtain ⟨earlier, later, t, -, ht, hlookup⟩ := hold pre vc documents post he d hd
      exact Runs.run_inv (fun _ _ _ => titled_step) (fun d hd => hc d (mem_documents.mpr hd)) ht d hlookup
    | error => trivial
  | viewDidLoad | addButtonTapped | commitDelete => trivial

end WarrantyGuard
