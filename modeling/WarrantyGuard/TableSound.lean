import WarrantyGuard.Listing
import WarrantyGuard.Table

/-!
# What a reused cell keeps

Filling a cell writes the days left and the progress only if the product has both
dates, and asks for an image only if it has an image's URL. What it does not
write stays from the row that the cell showed before.
-/

namespace WarrantyGuard

open DetailVC

/-! ## Two fillings -/

/-- What filling for `product` leaves of two cells is the same. -/
structure Alike (product : Product) (cell₁ cell₂ : DetailTableViewCell) : Prop where
  duration : (product.purchaseDate.isSome ∧ product.expiryDate.isSome) ∨
    cell₁.daysLeftLabel = cell₂.daysLeftLabel ∧ cell₁.progress = cell₂.progress
  image : product.productImage.isSome ∨ cell₁.productImageView = cell₂.productImageView

section
variable (cell₁ cell₂ : DetailTableViewCell)

theorem showImage_eq_iff (url : Option String) : showImage cell₁ url = showImage cell₂ url ↔
    cell₁.productName = cell₂.productName ∧
      (cell₁.daysLeftLabel = cell₂.daysLeftLabel ∧ cell₁.progress = cell₂.progress) ∧
      (url.isSome ∨ cell₁.productImageView = cell₂.productImageView) := by
  cases cell₁
  cases cell₂
  cases url with
  | none => simp [showImage, and_assoc]
  | some url => simp [showImage]

theorem showDuration_keeps (daysLeft totalDays : Int) :
    (showDuration cell₁ daysLeft totalDays).productName = cell₁.productName ∧
      (showDuration cell₁ daysLeft totalDays).productImageView = cell₁.productImageView := by
  unfold showDuration
  split
  · exact ⟨rfl, rfl⟩
  · exact ⟨rfl, rfl⟩

theorem showDuration_writes (daysLeft totalDays : Int) :
    (showDuration cell₁ daysLeft totalDays).daysLeftLabel = (showDuration cell₂ daysLeft totalDays).daysLeftLabel ∧
      (showDuration cell₁ daysLeft totalDays).progress = (showDuration cell₂ daysLeft totalDays).progress := by
  unfold showDuration
  split
  · exact ⟨rfl, rfl⟩
  · exact ⟨rfl, rfl⟩

/-- Whether a forced unwrap traps does not depend on the cell. -/
theorem cellForRowAt_isSome (L : Locale) (now : Int) (product : Product) :
    (cellForRowAt L now cell₁ product).isSome = (cellForRowAt L now cell₂ product).isSome := by
  unfold cellForRowAt
  split
  · simp only [Option.isSome_map]
  · rfl

theorem cellForRowAt_eq_iff {L : Locale} {now : Int} {product : Product}
    (h : (cellForRowAt L now cell₁ product).isSome) :
    cellForRowAt L now cell₁ product = cellForRowAt L now cell₂ product ↔ Alike product cell₁ cell₂ := by
  cases hp : product.purchaseDate with
  | none =>
    simp only [cellForRowAt, hp, Option.some_inj, showImage_eq_iff, true_and]
    exact ⟨fun h => ⟨.inr h.1, h.2⟩, fun h => ⟨h.duration.resolve_left (by simp [hp]), h.image⟩⟩
  | some purchase =>
    cases he : product.expiryDate with
    | none =>
      simp only [cellForRowAt, hp, he, Option.some_inj, showImage_eq_iff, true_and]
      exact ⟨fun h => ⟨.inr h.1, h.2⟩, fun h => ⟨h.duration.resolve_left (by simp [he]), h.image⟩⟩
    | some expiry =>
      simp only [cellForRowAt, hp, he, Option.isSome_map] at h ⊢
      obtain ⟨⟨daysLeft, totalDays⟩, hd⟩ := Option.isSome_iff_exists.mp h
      simp only [hd, Option.map_some, Option.some_inj, showImage_eq_iff, showDuration_keeps, true_and]
      have hdated : product.purchaseDate.isSome ∧ product.expiryDate.isSome := by simp [hp, he]
      exact ⟨fun h => ⟨.inl hdated, h.2⟩, fun h => ⟨showDuration_writes _ _ daysLeft totalDays, h.image⟩⟩

end

def WritesAll (product : Product) : Prop :=
  product.purchaseDate.isSome ∧ product.expiryDate.isSome ∧ product.productImage.isSome

theorem alike_iff_writesAll (product : Product) :
    (∀ cell₁ cell₂, Alike product cell₁ cell₂) ↔ WritesAll product := by
  constructor
  · intro h
    -- two cells that differ in what may be left
    have h := h ⟨none, none, none, none⟩ ⟨none, some "Expired", none, some ""⟩
    have hdated := h.duration.resolve_right (by simp)
    exact ⟨hdated.1, hdated.2, h.image.resolve_right (by simp)⟩
  · intro h cell₁ cell₂
    exact ⟨.inl ⟨h.1, h.2.1⟩, .inl h.2.2⟩

/-! ## The rows of a table -/

/-- Every row shows what a new cell shows for its product. -/
def ShowsOwn (L : Locale) (prototype : DetailTableViewCell) (s : DetailTable) : Prop :=
  ∀ r ∈ s.visible, ∃ product, s.products[r.row]? = some product ∧
    cellForRowAt L r.now prototype product = some r.cell

/-- A row gets a cell that is a new one but for what its product writes. -/
def KeepsOwn (prototype : DetailTableViewCell) (s : DetailTable) : TableEvent → Prop
  | .rowAppears row reused _ => ∀ product r, s.products[row]? = some product →
    s.dequeueReusableCell prototype reused = some r → Alike product r.1 prototype
  | _ => True

section
variable {L : Locale} {prototype : DetailTableViewCell} {s s' : DetailTable}

theorem showsOwn_step {e : TableEvent} (hs : ShowsOwn L prototype s) (h : s.step L prototype e = some s') :
    ShowsOwn L prototype s' ↔ KeepsOwn prototype s e := by
  cases e with
  | rowAppears row reused now =>
    obtain ⟨product, hproduct, h⟩ := Option.bind_eq_some_iff.mp h
    obtain ⟨r, hr, h⟩ := Option.bind_eq_some_iff.mp h
    obtain ⟨cell, hcell, rfl⟩ := Option.map_eq_some_iff.mp h
    have hsame : cellForRowAt L now prototype product = some cell ↔ Alike product r.1 prototype := by
      rw [← cellForRowAt_eq_iff r.1 prototype (by rw [hcell]; rfl), hcell]
      exact eq_comm
    unfold ShowsOwn
    rw [Listing.forall_mem_snoc]
    constructor
    · intro hown product' r' hproduct' hr'
      cases hproduct.symm.trans hproduct'
      cases hr.symm.trans hr'
      obtain ⟨product', hproduct', hcell'⟩ := hown.2
      cases hproduct.symm.trans hproduct'
      exact hsame.mp hcell'
    · intro hkeeps
      exact ⟨hs, product, hproduct, hsame.mpr (hkeeps product r hproduct hr)⟩
  | rowDisappears i =>
    obtain ⟨r, -, rfl⟩ := Option.map_eq_some_iff.mp h
    exact iff_of_true (fun r hr => hs r (List.mem_of_mem_eraseIdx hr)) trivial
  | reloadData products =>
    obtain rfl := Option.some.inj h
    exact iff_of_true (fun r hr => by cases hr) trivial

end

/-- **Reused cells.** A product leaves nothing of an earlier cell exactly when it has
both dates and an image's URL, and the rows of a table show only their own products
exactly as long as each cell they get is, but for what is written, a new one. -/
theorem cells_carry_nothing_iff (L : Locale) (prototype : DetailTableViewCell) :
    (∀ now product, (∃ cell, (cellForRowAt L now cell product).isSome) →
      ((∀ cell₁ cell₂, cellForRowAt L now cell₁ product = cellForRowAt L now cell₂ product) ↔ WritesAll product)) ∧
    ∀ es, Runs.Always (DetailTable.step L prototype) (ShowsOwn L prototype) DetailTable.viewDidLoad es ↔
      Runs.Along (DetailTable.step L prototype) (KeepsOwn prototype) DetailTable.viewDidLoad es := by
  constructor
  · intro now product h
    obtain ⟨cell, h⟩ := h
    rw [← alike_iff_writesAll]
    refine forall_congr' fun cell₁ => forall_congr' fun cell₂ => cellForRowAt_eq_iff cell₁ cell₂ ?_
    rw [cellForRowAt_isSome cell₁ cell]; exact h
  · intro es
    exact Runs.always_iff_along (I := fun _ => True) (fun _ _ _ _ _ => trivial)
      (fun _ _ _ _ hs h => showsOwn_step hs h)
      trivial (fun r hr => by cases hr)

theorem cells_carry_nothing_fails :
    ¬ ∀ (L : Locale) (now : Int) (product : Product) (cell₁ cell₂ : DetailTableViewCell),
      (cellForRowAt L now cell₁ product).isSome →
        cellForRowAt L now cell₁ product = cellForRowAt L now cell₂ product := by
  intro h
  -- a product without dates, in a new cell and in one that showed an expired product
  have hcells := h en_US 18982 ⟨some "Phone", none, none, some "Phones", some "w", none, none⟩
    ⟨none, none, none, none⟩ ⟨some "Tea", some "Expired", some 1, none⟩ rfl
  cases hcells

end WarrantyGuard
