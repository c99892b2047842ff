import WarrantyGuard.Search

/-!
# The list, the table and the latest text

A completed call leaves the list at what its own query asks for; only a
successful one reloads the table. So the rows of the table have products behind
them until the list is cleared under a table that shows some, and the screen
shows the latest text's products when the last answer to arrive has them.
-/

namespace WarrantyGuard

open SearchVC

section
variable {ops : StringOps} {response : Nat → Callback} {vc vc' : SearchVC} {query : Query}

theorem getProducts_snapshot {documents : List Document}
    (h : vc.getProducts ops query (.snapshot documents) = some vc') :
    vc'.products = found ops query (.snapshot documents) ∧ vc'.loaded = found ops query (.snapshot documents) ∧
      vc'.searchText = vc.searchText := by
  simp only [SearchVC.getProducts, removeAll_eq] at h
  rw [Listing.foldlM_keep (fun i : Document => i.data.string "productName")
    (fun name i => ops.contains (ops.lowercased name) (ops.lowercased query.searchText) && isOwn query.userID i)
    (fun i : Document => Product.ofData i.data)] at h
  split at h
  · cases h; exact ⟨rfl, rfl, rfl⟩
  · cases h

theorem getProducts_error (h : vc.getProducts ops query .error = some vc') :
    vc'.products = [] ∧ vc'.loaded = vc.loaded ∧ vc'.searchText = vc.searchText := by
  cases h; exact ⟨rfl, rfl, rfl⟩

theorem search_deliver {s s' : Search} {i : Nat} (h : s.step ops response (.deliver i) = some s') :
    i ∈ s.outstanding ∧ ∃ query, s.queries[i]? = some query ∧
      s.vc.getProducts ops query (response i) = some s'.vc ∧ s'.outstanding = s.outstanding.erase i ∧
      s'.queries = s.queries ∧ s'.currentUser = s.currentUser := by
  simp only [Search.step] at h
  split at h
  · rename_i hi
    obtain ⟨query, hq, h⟩ := Option.bind_eq_some_iff.mp h
    obtain ⟨vc', hv, rfl⟩ := Option.map_eq_some_iff.mp h
    exact ⟨hi, query, hq, hv, rfl, rfl, rfl⟩
  · cases h

theorem search_textDidChange (s : Search) (text : String) :
    (s.textDidChange text).vc = { s.vc with searchText := text, products := [] } ∧
      (s.textDidChange text).currentUser = s.currentUser := by
  unfold Search.textDidChange
  dsimp only
  split
  · exact ⟨rfl, rfl⟩
  · exact ⟨rfl, rfl⟩

end

/-! ## Rows and products -/

/-- Every row the table may ask for has a product. -/
def RowsInRange (s : Search) : Prop :=
  ∀ row < s.vc.numberOfRows, (s.vc.cellForRowAt row).isSome ∧ (s.vc.didSelectRowAt row).isSome

/-- The list is not cleared under a table that shows rows. -/
def NoRowsToClear (response : Nat → Callback) (s : Search) : SearchEvent → Prop
  | .textDidChange _ => s.vc.numberOfRows = 0
  | .deliver i => response i = .error → s.vc.numberOfRows = 0

theorem rowsInRange_iff (s : Search) : RowsInRange s ↔ s.vc.numberOfRows ≤ s.vc.products.length := by
  simp only [RowsInRange, SearchVC.cellForRowAt, SearchVC.didSelectRowAt, Option.isSome_map, and_self]
  constructor
  · intro h
    by_contra hlt
    have := h s.vc.products.length (by omega)
    simp at this
  · intro h row hrow
    rw [List.getElem?_eq_getElem (Nat.lt_of_lt_of_le hrow h), Option.isSome_some]

theorem rowsInRange_step {ops : StringOps} {response : Nat → Callback} {s s' : Search} {e : SearchEvent}
    (h : s.step ops response e = some s') : RowsInRange s' ↔ NoRowsToClear response s e := by
  rw [rowsInRange_iff]
  cases e with
  | textDidChange text =>
    obtain rfl := Option.some.inj h
    rw [(search_textDidChange s text).1]
    exact Nat.le_zero
  | deliver i =>
    obtain ⟨-, query, -, hv, -⟩ := search_deliver h
    show s'.vc.loaded.length ≤ _ ↔ (response i = .error → s.vc.loaded.length = 0)
    cases hr : response i with
    | error =>
      rw [hr] at hv
      obtain ⟨hp, hl, -⟩ := getProducts_error hv
      simp [hp, hl]
    | snapshot documents =>
      rw [hr] at hv
      obtain ⟨hp, hl, -⟩ := getProducts_snapshot hv
      simp [hp, hl]

theorem search_rows_iff (ops : StringOps) (currentUser : Option String) (response : Nat → Callback)
    (es : List SearchEvent) :
    Runs.Always (Search.step ops response) RowsInRange (Search.init currentUser) es ↔
      Runs.Along (Search.step ops response) (NoRowsToClear response) (Search.init currentUser) es :=
  Runs.always_iff_along (I := fun _ => True) (fun _ _ _ _ _ => trivial) (fun _ _ _ _ _ h => rowsInRange_step h)
    trivial (fun row hrow => absurd hrow (Nat.not_lt_zero row))

/-- ASCII letters and substrings, for the fixed inputs below. -/
def asciiOps : StringOps where
  lowercased := fun s => String.ofList (s.toList.map Char.toLower)
  contains := fun s t => s.toList.tails.any t.toList.isPrefixOf

theorem search_rows_fails :
    ¬ ∀ (ops : StringOps) (currentUser : Option String) (response : Nat → Callback) (es : List SearchEvent),
      Runs.Always (Search.step ops response) RowsInRange (Search.init currentUser) es := by
  intro h
  let tea : Document := ⟨"d1", [("productName", .string "Tea"), ("userID", .string "u")]⟩
  -- one row is loaded, then the next key clears the list under it
  have hr : RowsInRange _ := Runs.always_last (h asciiOps (some "u") (fun _ => .snapshot [tea])
    [.textDidChange "t", .deliver 0, .textDidChange "te"]) rfl
  exact absurd ((rowsInRange_iff _).mp hr) (by decide)

/-! ## The latest text -/

/-- Once no call is outstanding, the list and the table show what the latest
text asks of the answer to its call. -/
def ShowsLatest (ops : StringOps) (response : Nat → Callback) (userID : String) (s : Search) : Prop :=
  s.outstanding = [] → s.queries ≠ [] →
    s.vc.products = found ops ⟨userID, s.vc.searchText⟩ (response (s.queries.length - 1)) ∧
      s.vc.loaded = found ops ⟨userID, s.vc.searchText⟩ (response (s.queries.length - 1))

/-- The answer that ends the waiting has what the latest text asks for, and is
no error while the table shows rows. -/
def EndsLatest (ops : StringOps) (response : Nat → Callback) (userID : String) (s : Search) : SearchEvent → Prop
  | .textDidChange _ => True
  | .deliver i => s.outstanding.erase i = [] → ∀ query, s.queries[i]? = some query →
      found ops query (response i) = found ops ⟨userID, s.vc.searchText⟩ (response (s.queries.length - 1)) ∧
        (response i = .error → s.vc.loaded = [])

theorem showsLatest_step {ops : StringOps} {response : Nat → Callback} {userID : String} {s s' : Search}
    {e : SearchEvent} (hu : s.currentUser = some userID) (h : s.step ops response e = some s') :
    ShowsLatest ops response userID s' ↔ EndsLatest ops response userID s e := by
  cases e with
  | textDidChange text =>
    obtain rfl := Option.some.inj h
    have hne : (s.textDidChange text).outstanding ≠ [] := by
      simp [Search.textDidChange, SearchVC.textDidChange, hu]
    exact ⟨fun _ => trivial, fun _ ho => absurd ho hne⟩
  | deliver i =>
    obtain ⟨-, query, hq, hv, ho, hqs, -⟩ := search_deliver h
    have hne : s.queries ≠ [] := by
      rintro hnil; rw [hnil] at hq; cases hq
    unfold ShowsLatest EndsLatest
    rw [ho, hqs]
    apply imp_congr_right; intro _
    simp only [ne_eq, hne, not_false_eq_true, true_imp_iff, hq, Option.some.injEq, forall_eq']
    cases hr : response i with
    | error =>
      rw [hr] at hv
      obtain ⟨hp, hl, ht⟩ := getProducts_error hv
      rw [hp, hl, ht]
      show _ ↔ (_ ∧ (Callback.error = Callback.error → _))
      rw [eq_self, true_imp_iff]
      exact and_congr_right fun he => by rw [← he]
    | snapshot documents =>
      rw [hr] at hv
      obtain ⟨hp, hl, ht⟩ := getProducts_snapshot hv
      simp [hp, hl, ht]

theorem search_latest_iff (ops : StringOps) (userID : String) (response : Nat → Callback) (es : List SearchEvent) :
    Runs.Always (Search.step ops response) (ShowsLatest ops response userID) (Search.init (some userID)) es ↔
      Runs.Along (Search.step ops response) (EndsLatest ops response userID) (Search.init (some userID)) es := by
  refine Runs.always_iff_along (I := fun s => s.currentUser = some userID) ?_
    (fun _ _ _ hu _ h => showsLatest_step hu h) rfl (fun _ hq => absurd rfl hq)
  intro s e s' hu h
  cases e with
  | textDidChange text =>
    obtain rfl := Option.some.inj h
    rw [(search_textDidChange s text).2, hu]
  | deliver i =>
    obtain ⟨-, -, -, -, -, -, hc⟩ := search_deliver h
    rw [hc, hu]

theorem search_latest_fails :
    ¬ ∀ (ops : StringOps) (userID : String) (response : Nat → Callback) (es : List SearchEvent),
      Runs.Always (Search.step ops response) (ShowsLatest ops response userID) (Search.init (some userID)) es := by
  intro h
  let tea : Document := ⟨"d1", [("productName", .string "Tea"), ("userID", .string "u")]⟩
  -- the answer to "t" fills the table, the call for "te" fails
  have hs : ShowsLatest _ _ _ _ := Runs.always_last
    (h asciiOps "u" (fun i => if i = 0 then .snapshot [tea] else .error)
      [.textDidChange "t", .deliver 0, .textDidChange "te", .deliver 1]) rfl
  exact absurd (congrArg List.length (hs rfl (by decide)).2) (by decide)

/-! ## Other users' documents -/

theorem getProducts_isSome (ops : StringOps) (vc : SearchVC) (query : Query) (documents : List Document) :
    (vc.getProducts ops query (.snapshot documents)).isSome ↔
    ∀ i ∈ documents, (i.data.string "productName").isSome := by
  simp only [SearchVC.getProducts, removeAll_eq, Option.isSome_map]
  rw [Listing.foldlM_keep (fun i : Document => i.data.string "productName")
    (fun name i => ops.contains (ops.lowercased name) (ops.lowercased query.searchText) && isOwn query.userID i)
    (fun i : Document => Product.ofData i.data), ← List.all_eq_true]
  split
  · rename_i h; simp [h]
  · rename_i h; simp [h]

theorem isOwn_of_isMatch {ops : StringOps} {query : Query} {i : Document} (h : isMatch ops query i = true) :
    isOwn query.userID i = true := by
  obtain ⟨name, -, h⟩ := (Option.any_eq_true _ _).mp h
  exact ((Bool.and_eq_true _ _).mp h).2

/-- A search finds among all documents what it finds among the user's own. -/
theorem found_own (ops : StringOps) (query : Query) (documents : List Document) :
    found ops query (.snapshot documents) = found ops query
      (.snapshot (documents.filter (isOwn query.userID))) := by
  have h : documents.filter (isMatch ops query) =
      (documents.filter (isOwn query.userID)).filter (isMatch ops query) := by
    rw [List.filter_filter]
    apply List.filter_congr
    intro i _
    by_cases hi : isMatch ops query i = true
    · simp [hi, isOwn_of_isMatch hi]
    · simp [hi]
  exact congrArg (List.map _) h

theorem search_undisturbed_iff (ops : StringOps) (vc₁ vc₂ : SearchVC) (query : Query)
    (value₁ value₂ : List Document)
    (hown : value₁.filter (isOwn query.userID) = value₂.filter (isOwn query.userID)) :
    (∃ vc₁' vc₂', vc₁.getProducts ops query (.snapshot value₁) = some vc₁' ∧
      vc₂.getProducts ops query (.snapshot value₂) = some vc₂' ∧ vc₁'.products = vc₂'.products) ↔
      ∀ i ∈ value₁ ++ value₂, (i.data.string "productName").isSome := by
  rw [List.forall_mem_append, ← getProducts_isSome ops vc₁ query, ← getProducts_isSome ops vc₂ query]
  constructor
  · intro h
    obtain ⟨vc₁', vc₂', h₁, h₂, -⟩ := h
    simp [h₁, h₂]
  · intro h
    obtain ⟨vc₁', h₁⟩ := Option.isSome_iff_exists.mp h.1
    obtain ⟨vc₂', h₂⟩ := Option.isSome_iff_exists.mp h.2
    refine ⟨vc₁', vc₂', h₁, h₂, ?_⟩
    rw [(getProducts_snapshot h₁).1, (getProducts_snapshot h₂).1, found_own, hown, ← found_own]

theorem search_undisturbed_tea :
    ∃ vc₁' vc₂', (⟨"t", [], []⟩ : SearchVC).getProducts asciiOps ⟨"u", "t"⟩ (.snapshot
        [⟨"d1", [("productName", .string "Tea"), ("userID", .string "u")]⟩]) = some vc₁' ∧
      (⟨"t", [], []⟩ : SearchVC).getProducts asciiOps ⟨"u", "t"⟩ (.snapshot
        [⟨"d0", [("productName", .string "Tin")]⟩,
          ⟨"d1", [("productName", .string "Tea"), ("userID", .string "u")]⟩]) =
        some vc₂' ∧ vc₁'.products = vc₂'.products :=
  (search_undisturbed_iff asciiOps ⟨"t", [], []⟩ ⟨"t", [], []⟩ ⟨"u", "t"⟩ _ _ (by decide)).mpr (by decide)

theorem search_undisturbed_fails :
    ¬ ∀ (ops : StringOps) (vc₁ vc₂ : SearchVC) (query : Query) (value₁ value₂ : List Document),
      value₁.filter (isOwn query.userID) = value₂.filter (isOwn query.userID) →
      ∃ vc₁' vc₂', vc₁.getProducts ops query (.snapshot value₁) = some vc₁' ∧
        vc₂.getProducts ops query (.snapshot value₂) = some vc₂' ∧ vc₁'.products = vc₂'.products := by
  intro h
  -- a document of nobody, without a name
  obtain ⟨vc₁, vc₂, -, h₂, -⟩ := h asciiOps SearchVC.viewDidLoad SearchVC.viewDidLoad ⟨"u", "t"⟩ []
      [⟨"d1", []⟩] rfl
  cases h₂

end WarrantyGuard
