import WarrantyGuard.Detail

/-!
# The list against the snapshots

The listener's callback appends: after a successful snapshot the list holds what
it held before and the snapshot's own documents. It mirrors the snapshot exactly
when it was empty before. The table and the placeholder fit the list as long as
the first callback brings a product: nothing shows a hidden table again.
-/

namespace WarrantyGuard

open DetailVC

@[simp] theorem hideTableView_products (vc : DetailVC) : vc.hideTableView.products = vc.products := by
  unfold DetailVC.hideTableView; split <;> rfl

@[simp] theorem hideTableView_userID (vc : DetailVC) : vc.hideTableView.userID = vc.userID := by
  unfold DetailVC.hideTableView; split <;> rfl

def brought (userID : String) : Callback → List Product
  | .snapshot documents => mirror userID documents
  | .error => []

section
variable {vc : DetailVC} {userID : String} (h : vc.userID = some userID)
include h

theorem getProductForCategory_snapshot (documents : List Document) :
    (vc.getProductForCategory (.snapshot documents)).products = vc.products ++ mirror userID documents := by
  simp only [getProductForCategory, h, hideTableView_products]
  exact Listing.foldl_keep (isOwn userID) (fun i : Document => Product.ofData i.data) documents vc.products

theorem getProductForCategory_error : (vc.getProductForCategory .error).products = vc.products := by
  simp only [getProductForCategory, h, hideTableView_products]

theorem getProductForCategory_products (callback : Callback) :
    (vc.getProductForCategory callback).products = vc.products ++ brought userID callback := by
  cases callback with
  | snapshot documents => exact getProductForCategory_snapshot h documents
  | error => rw [brought, List.append_nil]; exact getProductForCategory_error h

theorem getProductForCategory_userID (callback : Callback) :
    (vc.getProductForCategory callback).userID = some userID := by
  cases callback with
  | snapshot documents => simp only [getProductForCategory, h, hideTableView_userID]
  | error => simp only [getProductForCategory, h, hideTableView_userID]

end

def Mirrors (userID : String) (s : Watch) : Prop := s.vc.products = mirror userID s.latest

def FindsEmpty (s : Watch) : Callback → Prop
  | .snapshot _ => s.vc.products = []
  | .error => True

theorem mirrors_step {userID : String} {s s' : Watch} {callback : Callback} (hu : s.vc.userID = some userID)
    (hm : Mirrors userID s) (hs : s.step callback = some s') : Mirrors userID s' ↔ FindsEmpty s callback := by
  obtain rfl := Option.some.inj hs
  cases callback with
  | snapshot documents =>
    simp only [Mirrors, FindsEmpty, getProductForCategory_snapshot hu]
    exact List.append_left_eq_self
  | error =>
    simp only [Mirrors, FindsEmpty, getProductForCategory_error hu, iff_true]
    exact hm

theorem products_run {category userID : String} {callbacks : List Callback} {s : Watch}
    (hs : Runs.run Watch.step (Watch.init category (some userID)) callbacks = some s) :
    s.vc.userID = some userID ∧ s.vc.products = callbacks.flatMap (brought userID) := by
  refine Runs.run_history (I := fun s callbacks => s.vc.userID = some userID ∧
    s.vc.products = callbacks.flatMap (brought userID)) ⟨rfl, rfl⟩ ?_ hs
  intro t callbacks callback t' _ ⟨hu, hp⟩ ht
  obtain rfl := Option.some.inj ht
  refine ⟨getProductForCategory_userID hu callback, ?_⟩
  rw [List.flatMap_append, ← hp, List.flatMap_singleton]
  exact getProductForCategory_products hu callback

theorem along_findsEmpty_iff (category userID : String) (callbacks : List Callback) :
    Runs.Along Watch.step FindsEmpty (Watch.init category (some userID)) callbacks ↔
      ∀ pre documents post, callbacks = pre ++ .snapshot documents :: post → ∀ c ∈ pre, brought userID c = [] := by
  rw [Runs.along_iff]
  constructor
  · intro h pre documents post he c hc
    obtain ⟨s, hs⟩ := Runs.run_total Watch.step (fun _ _ => rfl) (Watch.init category (some userID)) pre
    have hp : s.vc.products = [] := h pre _ post s _ he hs rfl
    rw [(products_run hs).2, List.flatMap_eq_nil_iff] at hp
    exact hp c hc
  · intro h pre callback post s s' he hs _
    cases callback with
    | snapshot documents =>
      show s.vc.products = []
      rw [(products_run hs).2, List.flatMap_eq_nil_iff]
      exact h pre documents post he
    | error => trivial

theorem products_mirror_iff (category userID : String) (callbacks : List Callback) :
    Runs.Always Watch.step (Mirrors userID) (Watch.init category (some userID)) callbacks ↔
      ∀ pre documents post, callbacks = pre ++ .snapshot documents :: post → ∀ c ∈ pre, brought userID c = [] := by
  rw [← along_findsEmpty_iff]
  refine Runs.always_iff_along (I := fun s => s.vc.userID = some userID) ?_ ?_ rfl rfl
  · intro s callback s' hu hs
    obtain rfl := Option.some.inj hs
    exact getProductForCategory_userID hu callback
  · exact fun s callback s' hu hm hs => mirrors_step hu hm hs

theorem products_mirror_fails :
    ¬ ∀ (category userID : String) (callbacks : List Callback),
      Runs.Always Watch.step (Mirrors userID) (Watch.init category (some userID)) callbacks := by
  intro h
  let phone : Document := ⟨"d1", [("productName", .string "Phone"), ("userID", .string "u")]⟩
  let case : Document := ⟨"d2", [("productName", .string "Case"), ("userID", .string "u")]⟩
  -- a second product of the user is saved
  have hm : Mirrors "u" _ := Runs.always_last (h "Phones" "u" [.snapshot [phone], .snapshot [phone, case]]) rfl
  exact absurd (congrArg List.length hm) (by decide)

/-! ## The table and the placeholder -/

section
variable {vc : DetailVC} {userID : String} (h : vc.userID = some userID) (callback : Callback)
include h

theorem getProductForCategory_hides : ∃ vc' : DetailVC, vc.getProductForCategory callback = vc'.hideTableView ∧
    vc'.products = vc.products ++ brought userID callback ∧ vc'.isHidden = vc.isHidden ∧
    vc'.noData = vc.noData := by
  cases callback with
  | snapshot documents =>
    have hp := getProductForCategory_snapshot h documents
    simp only [getProductForCategory, h, hideTableView_products] at hp ⊢
    exact ⟨_, rfl, hp, rfl, rfl⟩
  | error =>
    simp only [getProductForCategory, h]
    exact ⟨vc, rfl, (List.append_nil _).symm, rfl, rfl⟩

theorem getProductForCategory_empty (hp : vc.products ++ brought userID callback = []) :
    (vc.getProductForCategory callback).isHidden = true ∧
    (vc.getProductForCategory callback).noData = vc.noData + 1 := by
  obtain ⟨vc', he, hproducts, -, hn⟩ := getProductForCategory_hides h callback
  rw [he, DetailVC.hideTableView, if_pos (by simp [hproducts, hp])]
  exact ⟨rfl, congrArg (· + 1) hn⟩

theorem getProductForCategory_nonempty (hp : vc.products ++ brought userID callback ≠ []) :
    (vc.getProductForCategory callback).isHidden = vc.isHidden ∧
      (vc.getProductForCategory callback).noData = vc.noData := by
  obtain ⟨vc', he, hproducts, hh, hn⟩ := getProductForCategory_hides h callback
  rw [he, DetailVC.hideTableView, if_neg (by rw [hproducts, List.length_eq_zero_iff]; exact hp)]
  exact ⟨hh, hn⟩

end

/-- The table is hidden behind one placeholder if the list is empty, and in sight
with none if it is not. -/
def Coherent (vc : DetailVC) : Prop :=
  (vc.products = [] → vc.isHidden = true ∧ vc.noData = 1) ∧
    (vc.products ≠ [] → vc.isHidden = false ∧ vc.noData = 0)

/-- The table is in sight with products in it: no callback hides it any more. -/
structure InSight (userID : String) (vc : DetailVC) : Prop where
  userID : vc.userID = some userID
  products : vc.products ≠ []
  isHidden : vc.isHidden = false
  noData : vc.noData = 0

theorem inSight_step {userID : String} {vc : DetailVC} (h : InSight userID vc) (callback : Callback) :
    InSight userID (vc.getProductForCategory callback) := by
  have hp : vc.products ++ brought userID callback ≠ [] := List.append_ne_nil_of_left_ne_nil h.products _
  obtain ⟨hh, hn⟩ := getProductForCategory_nonempty h.userID callback hp
  refine ⟨getProductForCategory_userID h.userID callback, ?_, hh.trans h.isHidden, hn.trans h.noData⟩
  rw [getProductForCategory_products h.userID]; exact hp

theorem inSight_coherent {userID : String} {vc : DetailVC} (h : InSight userID vc) : Coherent vc :=
  ⟨fun hp => absurd hp h.products, fun _ => ⟨h.isHidden, h.noData⟩⟩

/-- After a first callback that brings nothing, none leaves the screen coherent. -/
theorem not_coherent_second {userID : String} {vc : DetailVC} (hu : vc.userID = some userID)
    (hh : vc.isHidden = true) (hn : vc.noData = 1) (callback : Callback) :
    ¬ Coherent (vc.getProductForCategory callback) := by
  intro hc
  have hp := getProductForCategory_products hu callback
  by_cases h : vc.products ++ brought userID callback = []
  · have := (hc.1 (hp.trans h)).2
    rw [(getProductForCategory_empty hu callback h).2] at this
    omega
  · have := (hc.2 (by rw [hp]; exact h)).1
    rw [(getProductForCategory_nonempty hu callback h).1, hh] at this
    cases this

theorem noData_coherent_iff (category userID : String) (callbacks : List Callback) :
    Runs.Along Watch.step (fun s callback => Coherent (s.vc.getProductForCategory callback))
        (Watch.init category (some userID)) callbacks ↔
      ∀ first second rest, callbacks = first :: second :: rest → brought userID first ≠ [] := by
  have hu : (DetailVC.viewDidLoad category (some userID)).userID = some userID := rfl
  constructor
  · intro h first second rest he hfirst
    subst he
    obtain ⟨-, h⟩ := h _ rfl
    obtain ⟨hc, -⟩ := h _ rfl
    obtain ⟨hh, hn⟩ := getProductForCategory_empty hu first hfirst
    exact not_coherent_second (getProductForCategory_userID hu first) hh hn second hc
  · intro h
    cases callbacks with
    | nil => trivial
    | cons first callbacks =>
      intro s hs
      obtain rfl := Option.some.inj hs
      by_cases hfirst : brought userID first = []
      · have hc : Coherent ((DetailVC.viewDidLoad category (some userID)).getProductForCategory first) := by
          refine ⟨fun _ => getProductForCategory_empty hu first hfirst, fun hp => absurd ?_ hp⟩
          rw [getProductForCategory_products hu]; exact hfirst
        refine ⟨hc, ?_⟩
        cases callbacks with
        | nil => trivial
        | cons second rest => exact absurd hfirst (h first second rest rfl)
      · obtain ⟨hh, hn⟩ := getProductForCategory_nonempty hu first hfirst
        have hi : InSight userID ((DetailVC.viewDidLoad category (some userID)).getProductForCategory first) := by
          refine ⟨getProductForCategory_userID hu first, ?_, hh, hn⟩
          rw [getProductForCategory_products hu]; exact hfirst
        refine ⟨inSight_coherent hi, ?_⟩
        refine Runs.along_of_inv (I := fun s => InSight userID s.vc) ?_ hi
        intro s callback s' hs hstep
        obtain rfl := Option.some.inj hstep
        exact ⟨inSight_coherent (inSight_step hs callback), inSight_step hs callback⟩

theorem noData_coherent_fails :
    ¬ ∀ (category userID : String) (callbacks : List Callback),
      Runs.Along Watch.step (fun s callback => Coherent (s.vc.getProductForCategory callback))
        (Watch.init category (some userID)) callbacks := by
  intro h
  let phone : Document := ⟨"d1", [("productName", .string "Phone"), ("userID", .string "u")]⟩
  -- the cache is empty, then the server's documents arrive
  obtain ⟨-, h⟩ := h "Phones" "u" [.snapshot [], .snapshot [phone]] _ rfl
  obtain ⟨hc, -⟩ := h _ rfl
  exact absurd (hc.2 (by decide)).1 (by decide)

end WarrantyGuard
