import Mathlib.Data.List.InsertIdx
import WarrantyGuard.Category

/-!
# The rows and the documents of the categories

`commitDelete` takes the row from the list and `categoryID`'s document from the
collection: these are the same category exactly when the row was added through
the same controller. `addButtonTapped` writes every category of one controller
under one key: nothing is lost exactly when no controller adds twice.
-/

namespace WarrantyGuard

open CategoryState CategoryVC

theorem getCategories_snapshot (categories : List Category) (documents : List Document) :
    getCategories categories (.snapshot documents) = (documents.map (Category.ofData ·.data), true) := by
  have := Listing.foldl_keep (fun _ => true) (fun i : Document => Category.ofData i.data) documents []
  simpa [getCategories] using this

theorem nextSnapshot_eq (s : CategoryState) :
    s.nextSnapshot = (s.collection.orderDescending "timestamp").map (Category.ofData ·.data) := by
  unfold nextSnapshot; rw [getCategories_snapshot]

theorem categoryData_categoryID (id name : String) (now : ℚ) :
    Data.string (categoryData id name now) "categoryID" = some id := rfl

theorem categoryData_categoryName (id name : String) (now : ℚ) :
    Data.string (categoryData id name now) "categoryName" = some name := by
  simp [categoryData, Data.string, List.lookup_cons]

/-! ## What a step does -/

theorem commitDelete_some {vc c : CategoryVC} {db db' : Collection} {cs cs' : List Category} {row : Nat}
    (h : vc.commitDelete db cs row = some (c, db', cs')) :
    row < cs.length ∧ vc.rows = cs.length ∧ c.categoryID = vc.categoryID ∧ db' = db.delete vc.categoryID ∧
      cs' = cs.eraseIdx row := by
  obtain ⟨cs₁, hcs, h⟩ := Option.bind_eq_some_iff.mp h
  obtain ⟨hrow, rfl⟩ := removeAt_some hcs
  split at h
  · rename_i hrows
    have hlen := List.length_eraseIdx_of_lt hrow
    cases h
    exact ⟨hrow, by omega, rfl, rfl, rfl⟩
  · cases h

theorem commitDelete_of_row {vc : CategoryVC} (db : Collection) {cs : List Category} {row : Nat} {r : Category}
    (hr : cs[row]? = some r) (hrows : vc.rows = cs.length) :
    vc.commitDelete db cs row =
      some ({ vc with rows := (cs.eraseIdx row).length }, db.delete vc.categoryID, cs.eraseIdx row) := by
  have hlt := (List.getElem?_eq_some_iff.mp hr).1
  have hlen := List.length_eraseIdx_of_lt hlt
  unfold CategoryVC.commitDelete
  rw [removeAt_of_getElem? hr, Option.bind_some, if_pos (by omega)]

section
variable {s s' : CategoryState}

theorem ids_getElem? (s : CategoryState) (vc : Nat) : s.ids[vc]? = (s.controllers[vc]?).map (·.categoryID) :=
  List.getElem?_map

theorem ids_set {vc : Nat} {c c' : CategoryVC} (h : s.controllers[vc]? = some c)
    (hc : c'.categoryID = c.categoryID) :
    (s.controllers.set vc c').map (·.categoryID) = s.ids := by
  unfold ids
  rw [List.map_set, hc]
  apply List.ext_getElem?
  intro i
  rw [List.getElem?_set]
  split
  · rename_i hi; subst hi
    have := (List.getElem?_eq_some_iff.mp h).1
    rw [List.getElem?_map, h]; simp [this]
  · rfl

theorem step_viewDidLoad {id : String} (h : s.step (.viewDidLoad id) = some s') :
    id ∉ s.ids ∧ id ∉ s.collection ∧ s'.ids = s.ids ++ [id] ∧ s'.collection = s.collection := by
  simp only [CategoryState.step] at h
  split at h
  · cases h
  · rename_i hf
    cases h
    exact ⟨fun hm => hf (.inl hm), fun hm => hf (.inr hm), by simp [ids], rfl⟩

theorem step_addButtonTapped {vc : Nat} {name : String} {now : ℚ}
    (h : s.step (.addButtonTapped vc name now) = some s') :
    ∃ id, s.ids[vc]? = some id ∧ s'.ids = s.ids ∧
      s'.collection = s.collection.setData id (categoryData id name now) := by
  obtain ⟨c, hc, rfl⟩ := Option.map_eq_some_iff.mp h
  exact ⟨c.categoryID, by rw [ids_getElem?, hc]; rfl, rfl, rfl⟩

theorem step_commitDelete {vc row : Nat} (h : s.step (.commitDelete vc row) = some s') :
    ∃ c, s.controllers[vc]? = some c ∧ row < s.categories.length ∧ c.rows = s.categories.length ∧
      s'.ids = s.ids ∧ s'.collection = s.collection.delete c.categoryID ∧
      s'.categories = s.categories.eraseIdx row := by
  obtain ⟨c, hc, h⟩ := Option.bind_eq_some_iff.mp h
  obtain ⟨⟨c', db', cs'⟩, hd, rfl⟩ := Option.map_eq_some_iff.mp h
  obtain ⟨hrow, hrows, hid, rfl, rfl⟩ := commitDelete_some hd
  exact ⟨c, hc, hrow, hrows, ids_set hc hid, rfl, rfl⟩

theorem step_listener {vc : Option Nat} {callback : Callback} (h : s.step (.listener vc callback) = some s') :
    s'.ids = s.ids ∧ s'.collection = s.collection ∧ s'.categories = (getCategories s.categories callback).1 := by
  simp only [CategoryState.step] at h
  split at h
  · cases vc with
    | none => cases h; exact ⟨rfl, rfl, rfl⟩
    | some vc =>
      obtain ⟨c, hc, rfl⟩ := Option.map_eq_some_iff.mp h
      exact ⟨ids_set hc rfl, rfl, rfl⟩
  · cases h; exact ⟨rfl, rfl, rfl⟩

/-! ## Deleting a row -/

/-- The step removed the row's documents and no others, and where the list
showed the collection, the next snapshot is the list that is left. -/
def RemovesRow (s s' : CategoryState) (r : Category) : Prop :=
  (∀ k d, s'.collection.lookup k = some d ↔
    s.collection.lookup k = some d ∧ Data.string d "categoryID" ≠ r.categoryId) ∧
  (s.nextSnapshot = s.categories → s'.nextSnapshot = s'.categories)

def OwnRow (s : CategoryState) (c : CategoryVC) (r : Category) : Prop :=
  ∀ k d, s.collection.lookup k = some d → (k = c.categoryID ↔ Data.string d "categoryID" = r.categoryId)

theorem lookup_delete (db : Collection) (id k : String) (d : Data) :
    (db.delete id).lookup k = some d ↔ db.lookup k = some d ∧ k ≠ id := by
  unfold Collection.delete
  by_cases h : k = id
  · subst h; rw [AList.lookup_erase]; simp
  · rw [AList.lookup_erase_ne h]; simp [h]

theorem nextSnapshot_delete {r : Category} {row : Nat} {c : CategoryVC} (hsync : s.nextSnapshot = s.categories)
    (hr : s.categories[row]? = some r) (hown : OwnRow s c r) :
    ((s.collection.delete c.categoryID).orderDescending "timestamp").map (Category.ofData ·.data) =
      s.categories.eraseIdx row := by
  rw [nextSnapshot_eq] at hsync
  rw [← hsync, List.getElem?_map] at hr
  obtain ⟨d, hd, rfl⟩ := Option.map_eq_some_iff.mp hr
  have hid : d.id = c.categoryID :=
    (hown d.id d.data (mem_orderDescending "timestamp" (List.mem_of_getElem? hd))).mpr rfl
  rw [orderDescending_delete, ← hid, Listing.filter_key_ne Document.id
    (orderDescending_ids_nodup "timestamp" s.collection) hd, ← List.eraseIdx_map, hsync]

theorem removesRow_iff {vc row : Nat} {c : CategoryVC} {r : Category} (hc : s.controllers[vc]? = some c)
    (hr : s.categories[row]? = some r) :
    (∃ s', s.step (.commitDelete vc row) = some s' ∧ RemovesRow s s' r) ↔
      c.rows = s.categories.length ∧ OwnRow s c r := by
  constructor
  · intro h
    obtain ⟨s', hs, hrem, -⟩ := h
    obtain ⟨c', hc', -, hrows, -, hcol, -⟩ := step_commitDelete hs
    obtain rfl : c' = c := Option.some.inj (hc'.symm.trans hc)
    refine ⟨hrows, fun k d hd => ?_⟩
    have h := hrem k d
    rw [hcol, lookup_delete] at h
    simp only [hd, true_and] at h
    exact not_iff_not.mp h
  · intro h
    obtain ⟨hrows, hown⟩ := h
    refine ⟨_, by
      simp only [CategoryState.step, hc, Option.bind_some, commitDelete_of_row s.collection hr hrows]; rfl, ?_, ?_⟩
    · intro k d
      show (s.collection.delete c.categoryID).lookup k = some d ↔ _
      rw [lookup_delete]
      exact and_congr_right fun hd => not_congr (hown k d hd)
    · intro hsync
      rw [nextSnapshot_eq]
      exact nextSnapshot_delete hsync hr hown

end

/-!
## Rows of app-written documents

`setData` keeps every document under its own `categoryID`.
-/

def Keyed (c : Collection) : Prop := ∀ k d, c.lookup k = some d → Data.string d "categoryID" = some k

theorem keyed_setData {c : Collection} (h : Keyed c) (id name : String) (now : ℚ) :
    Keyed (c.setData id (categoryData id name now)) := by
  intro k d hd
  unfold Collection.setData at hd
  by_cases hk : k = id
  · subst hk
    rw [AList.lookup_insert] at hd
    cases hd; rfl
  · rw [AList.lookup_insert_ne hk] at hd
    exact h k d hd

theorem step_keyed (s : CategoryState) (e : CategoryEvent) (s' : CategoryState) (h : Keyed s.collection)
    (hs : s.step e = some s') : Keyed s'.collection := by
  cases e with
  | viewDidLoad id => rw [(step_viewDidLoad hs).2.2.2]; exact h
  | addButtonTapped vc name now =>
    obtain ⟨id, -, -, hcol⟩ := step_addButtonTapped hs
    rw [hcol]; exact keyed_setData h id name now
  | commitDelete vc row =>
    obtain ⟨c, -, -, -, -, hcol, -⟩ := step_commitDelete hs
    rw [hcol]
    exact fun k d hd => h k d ((lookup_delete s.collection c.categoryID k d).mp hd).1
  | listener vc callback => rw [(step_listener hs).2.1]; exact h

theorem ownRow_iff {collection : Collection} (hk : Keyed collection) {es : List CategoryEvent} {s : CategoryState}
    (hs : Runs.run CategoryState.step (launch collection) es = some s) (c : CategoryVC) {r : Category}
    {id : String} (hid : r.categoryId = some id) (hmem : id ∈ s.collection) :
    OwnRow s c r ↔ id = c.categoryID := by
  have hk' := Runs.run_inv (I := fun s => Keyed s.collection) step_keyed hk hs
  obtain ⟨d, hd⟩ := Option.isSome_iff_exists.mp (AList.lookup_isSome.mpr hmem)
  constructor
  · intro h
    exact (h id d hd).mpr (by rw [hk' id d hd, hid])
  · rintro rfl k d' hd'
    rw [hk' k d' hd', hid, Option.some.injEq]

/-- A controller's key is a document's only after an "Add" on it. -/
structure Added (s : CategoryState) (es : List CategoryEvent) : Prop where
  nodup : s.ids.Nodup
  added : ∀ vc id, s.ids[vc]? = some id → id ∈ s.collection →
    ∃ name now, CategoryEvent.addButtonTapped vc name now ∈ es

theorem added_step {s s' : CategoryState} {es : List CategoryEvent} {e : CategoryEvent} (h : Added s es)
    (hs : s.step e = some s') : Added s' (es ++ [e]) := by
  have hold : ∀ vc id, s.ids[vc]? = some id → id ∈ s.collection →
      ∃ name now, CategoryEvent.addButtonTapped vc name now ∈ es ++ [e] := by
    intro vc id hid hm
    obtain ⟨name, now, hadd⟩ := h.added vc id hid hm
    exact ⟨name, now, List.mem_append_left _ hadd⟩
  cases e with
  | viewDidLoad id =>
    obtain ⟨hid, hm, hids, hcol⟩ := step_viewDidLoad hs
    refine ⟨?_, fun vc id' hid' hm' => ?_⟩
    · rw [hids]; exact Listing.nodup_snoc.mpr ⟨hid, h.nodup⟩
    · rw [hcol] at hm'
      rw [hids] at hid'
      by_cases hvc : vc < s.ids.length
      · rw [List.getElem?_append_left hvc] at hid'
        exact hold vc id' hid' hm'
      · -- the new controller's key is no document's
        rw [List.getElem?_append_right (by omega)] at hid'
        rw [List.mem_singleton.mp (List.mem_of_getElem? hid')] at hm'
        exact absurd hm' hm
  | addButtonTapped vc name now =>
    obtain ⟨id, hid, hids, hcol⟩ := step_addButtonTapped hs
    refine ⟨by rw [hids]; exact h.nodup, fun vc' id' hid' hm' => ?_⟩
    rw [hids] at hid'
    rw [hcol, Collection.setData, AList.mem_insert] at hm'
    rcases hm' with rfl | hm'
    · have hlt := (List.getElem?_eq_some_iff.mp hid).1
      obtain rfl : vc = vc' := (List.getElem?_inj hlt h.nodup).mp (hid.trans hid'.symm)
      exact ⟨name, now, List.mem_append_right _ List.mem_cons_self⟩
    · exact hold vc' id' hid' hm'
  | commitDelete vc row =>
    obtain ⟨c, -, -, -, hids, hcol, -⟩ := step_commitDelete hs
    refine ⟨by rw [hids]; exact h.nodup, fun vc' id' hid' hm' => hold vc' id' (hids ▸ hid') ?_⟩
    rw [hcol, Collection.delete, AList.mem_erase] at hm'
    exact hm'.2
  | listener vc callback =>
    obtain ⟨hids, hcol, -⟩ := step_listener hs
    exact ⟨by rw [hids]; exact h.nodup, fun vc' id' hid' hm' => hold vc' id' (hids ▸ hid') (hcol ▸ hm')⟩

theorem added_run {collection : Collection} {s : CategoryState} {es : List CategoryEvent}
    (hs : Runs.run CategoryState.step (launch collection) es = some s) : Added s es := by
  have hlaunch : Added (launch collection) [] := ⟨List.nodup_nil, fun vc id hid => by cases hid⟩
  exact Runs.run_history (I := Added) hlaunch (fun _ _ _ _ _ h ht => added_step h ht) hs

/-- **Deleting a row.** The delete does what it should exactly if the documents of the row are those of the
controller's key. Where all documents stand under their own keys and the row's is still there, its key has to
be the controller's, so it has been added on this very controller. -/
theorem commitDelete_removes_iff (collection : Collection) (es : List CategoryEvent) (s : CategoryState)
    (hrun : Runs.run CategoryState.step (launch collection) es = some s) (vc row : Nat) (c : CategoryVC)
    (r : Category) (hc : s.controllers[vc]? = some c) (hr : s.categories[row]? = some r) :
    ((∃ s', s.step (.commitDelete vc row) = some s' ∧ RemovesRow s s' r) ↔
      c.rows = s.categories.length ∧ OwnRow s c r) ∧
    (Keyed collection → ∀ id, r.categoryId = some id → id ∈ s.collection →
      (OwnRow s c r ↔ id = c.categoryID) ∧
      (OwnRow s c r → ∃ name now, CategoryEvent.addButtonTapped vc name now ∈ es)) := by
  refine ⟨removesRow_iff hc hr, fun hk id hid hmem => ?_⟩
  have hown := ownRow_iff hk hrun c hid hmem
  refine ⟨hown, fun h => (added_run hrun).added vc id ?_ hmem⟩
  rw [ids_getElem?, hc, hown.mp h]; rfl

theorem commitDelete_removes_added :
    ∃ s', (CategoryState.mk ((∅ : Collection).setData "A" (categoryData "A" "Phones" 1))
        [⟨some "A", some "Phones"⟩] [⟨"A", 1⟩]).step (.commitDelete 0 0) = some s' ∧
      RemovesRow (CategoryState.mk ((∅ : Collection).setData "A" (categoryData "A" "Phones" 1))
        [⟨some "A", some "Phones"⟩] [⟨"A", 1⟩]) s' ⟨some "A", some "Phones"⟩ := by
  have hrun : Runs.run CategoryState.step (launch ∅) [.viewDidLoad "A", .addButtonTapped 0 "Phones" 1,
      .listener (some 0) (.snapshot [⟨"A", categoryData "A" "Phones" 1⟩])] =
      some ⟨(∅ : Collection).setData "A" (categoryData "A" "Phones" 1),
        [⟨some "A", some "Phones"⟩], [⟨"A", 1⟩]⟩ := rfl
  obtain ⟨hiff, hown⟩ := commitDelete_removes_iff _ _ _ hrun 0 0 _ _ rfl rfl
  exact hiff.mpr ⟨rfl, (hown (fun k d hd => by cases hd) "A" rfl (AList.mem_keys.mpr (by decide))).1.mpr rfl⟩

theorem commitDelete_removes_fails :
    ¬ ∀ (collection : Collection) (es : List CategoryEvent) (s : CategoryState) (vc row : Nat) (c : CategoryVC)
      (r : Category), Runs.run CategoryState.step (launch collection) es = some s → s.controllers[vc]? = some c →
      s.categories[row]? = some r → ∃ s', s.step (.commitDelete vc row) = some s' ∧ RemovesRow s s' r := by
  intro h
  let phones := categoryData "A" "Phones" 1
  -- the row was loaded, the controller is new
  obtain ⟨s', hs, hrem, -⟩ := h (AList.singleton "A" phones)
    [.viewDidLoad "B", .listener (some 0) (.snapshot [⟨"A", phones⟩])] _ 0 0 _ _ rfl rfl rfl
  cases hs
  exact ((hrem "A" phones).mp rfl).2 rfl

/-!
## Adding categories

Two controllers with one category each lose nothing; the second category of one
controller overwrites the first.
-/

def adds (es : List CategoryEvent) : List (Nat × String) := es.filterMap CategoryEvent.added

/-- `after` is `before` and one new document for each name, in order, with
pairwise distinct `categoryID`s. -/
def AddsAll (before after : Collection) (names : List String) : Prop :=
  ∃ new : List Document, new.map (fun d => d.data.string "categoryName") = names.map some ∧
    (∀ d ∈ new, d.data.string "categoryID" = some d.id ∧ d.id ∉ before) ∧ (new.map Document.id).Nodup ∧
    after.entries.Perm (before.entries ++ new)

theorem addsAll_length {before after : Collection} {names : List String} (h : AddsAll before after names) :
    after.entries.length = before.entries.length + names.length := by
  obtain ⟨new, hn, -, -, hp⟩ := h
  have hl := congrArg List.length hn
  rw [List.length_map, List.length_map] at hl
  rw [hp.length_eq, List.length_append, hl]

theorem addsAll_setData {before after : Collection} {names : List String} (h : AddsAll before after names)
    {id : String} (hid : id ∉ after) (name : String) (now : ℚ) :
    AddsAll before (after.setData id (categoryData id name now)) (names ++ [name]) := by
  obtain ⟨new, hn, hk, hd, hp⟩ := h
  have hmem : ∀ d ∈ before.entries ++ new, d.1 ≠ id := fun d hd' he =>
    hid (AList.mem_keys.mpr (he ▸ List.mem_keys_of_mem (hp.symm.subset hd')))
  have hold : id ∉ before := fun hm => by
    obtain ⟨d, hd'⟩ := List.mem_keys.mp (AList.mem_keys.mp hm)
    exact hmem ⟨id, d⟩ (List.mem_append_left _ hd') rfl
  refine ⟨new ++ [⟨id, categoryData id name now⟩], ?_, ?_, ?_, ?_⟩
  · rw [List.map_append, List.map_append, hn]
    exact congrArg _ (congrArg (· :: []) (categoryData_categoryName id name now))
  · exact Listing.forall_mem_snoc.mpr ⟨hk, categoryData_categoryID id name now, hold⟩
  · rw [List.map_append]
    refine Listing.nodup_snoc.mpr ⟨fun hm => ?_, hd⟩
    obtain ⟨d, hd', he⟩ := List.mem_map.mp hm
    exact hmem d (List.mem_append_right _ hd') he
  · unfold Collection.setData
    rw [AList.entries_insert_of_notMem hid, ← List.append_assoc]
    exact (hp.cons _).trans (List.perm_append_singleton _ _).symm

/-- What a run without deletes has done: the keys are the old ones and those of
the controllers that added, and the collection has grown by one document an
addition exactly as long as no controller has added twice. -/
structure AddHistory (collection : Collection) (s : CategoryState) (es : List CategoryEvent) : Prop where
  ids_nodup : s.ids.Nodup
  ids_new : ∀ id ∈ s.ids, id ∉ collection
  loaded : ∀ a ∈ adds es, a.1 < s.ids.length
  keys : ∀ k, k ∈ s.collection ↔ k ∈ collection ∨ ∃ a ∈ adds es, s.ids[a.1]? = some k
  length_le : s.collection.entries.length ≤ collection.entries.length + (adds es).length
  length_eq : s.collection.entries.length = collection.entries.length + (adds es).length →
    ((adds es).map Prod.fst).Nodup
  all : ((adds es).map Prod.fst).Nodup → AddsAll collection s.collection ((adds es).map Prod.snd)

theorem addHistory_launch (collection : Collection) : AddHistory collection (launch collection) [] where
  ids_nodup := List.nodup_nil
  ids_new := fun id hid => by cases hid
  loaded := fun a ha => by cases ha
  keys := fun k => by simp [launch, adds]
  length_le := Nat.le_refl _
  length_eq := fun _ => List.nodup_nil
  all := fun _ => ⟨[], rfl, by simp, List.nodup_nil, by rw [List.append_nil]; rfl⟩

section
variable {collection : Collection} {s s' : CategoryState} {es : List CategoryEvent}

theorem addHistory_keep (h : AddHistory collection s es) {e : CategoryEvent} (he : e.added = none)
    {new : List String} (hids : s'.ids = s.ids ++ new) (hcol : s'.collection = s.collection)
    (hnew : (s.ids ++ new).Nodup) (hfresh : ∀ id ∈ new, id ∉ s.collection) :
    AddHistory collection s' (es ++ [e]) := by
  have hadds : adds (es ++ [e]) = adds es := by simp [adds, he]
  have hat : ∀ a ∈ adds es, (s.ids ++ new)[a.1]? = s.ids[a.1]? := fun a ha =>
    List.getElem?_append_left (h.loaded a ha)
  refine ⟨by rwa [hids], ?_, fun a ha => ?_, fun k => ?_, ?_, ?_, ?_⟩
  · rw [hids]
    refine List.forall_mem_append.mpr ⟨h.ids_new, fun id hid hm => hfresh id hid ?_⟩
    exact (h.keys id).mpr (.inl hm)
  · rw [hadds] at ha
    rw [hids, List.length_append]
    exact Nat.lt_add_right _ (h.loaded a ha)
  · rw [hcol, hids, hadds, h.keys k]
    exact or_congr_right (exists_congr fun a => and_congr_right fun ha => by rw [hat a ha])
  · rw [hcol, hadds]; exact h.length_le
  · rw [hcol, hadds]; exact h.length_eq
  · rw [hcol, hadds]; exact h.all

theorem addHistory_add (h : AddHistory collection s es) {vc : Nat} {name id : String} {now : ℚ}
    (hid : s.ids[vc]? = some id) (hids : s'.ids = s.ids)
    (hcol : s'.collection = s.collection.setData id (categoryData id name now)) :
    AddHistory collection s' (es ++ [.addButtonTapped vc name now]) := by
  have hadds : adds (es ++ [.addButtonTapped vc name now]) = adds es ++ [(vc, name)] := by
    simp [adds, CategoryEvent.added]
  have hvc := (List.getElem?_eq_some_iff.mp hid).1
  have hnew := h.ids_new id (List.mem_of_getElem? hid)
  -- the document exists already exactly when this controller has added before
  have hin : id ∈ s.collection ↔ vc ∈ (adds es).map Prod.fst := by
    rw [h.keys id]
    constructor
    · rintro (hm | ⟨a, ha, hk⟩)
      · exact absurd hm hnew
      · have : a.1 = vc := (List.getElem?_inj (h.loaded a ha) h.ids_nodup).mp (hk.trans hid.symm)
        exact this ▸ List.mem_map_of_mem ha
    · intro hm
      obtain ⟨a, ha, rfl⟩ := List.mem_map.mp hm
      exact .inr ⟨a, ha, hid⟩
  have hnodup : ((adds es ++ [(vc, name)]).map Prod.fst).Nodup ↔
      ((adds es).map Prod.fst).Nodup ∧ id ∉ s.collection := by
    rw [List.map_append, List.map_cons, List.map_nil, Listing.nodup_snoc, hin, and_comm]
  have hlen : s'.collection.entries.length = s.collection.entries.length + if id ∈ s.collection then 0 else 1 := by
    rw [hcol]
    split
    · exact Listing.length_insert_of_mem ‹_›
    · exact Listing.length_insert_of_notMem ‹_›
  have hle := h.length_le
  refine ⟨by rw [hids]; exact h.ids_nodup, by rw [hids]; exact h.ids_new, ?_, fun k => ?_, ?_, ?_, ?_⟩
  · rw [hids, hadds]
    exact Listing.forall_mem_snoc.mpr ⟨h.loaded, hvc⟩
  · rw [hcol, hids, hadds]
    unfold Collection.setData
    rw [AList.mem_insert, h.keys k]
    simp only [List.mem_append, List.mem_singleton, or_and_right, exists_or, exists_eq_left, hid,
      Option.some.injEq]
    rw [or_left_comm, or_comm (a := k = id), eq_comm (a := k)]
  · rw [hadds, List.length_append, hlen, List.length_singleton]
    split <;> omega
  · rw [hadds, hnodup, List.length_append, hlen, List.length_singleton]
    split
    · omega
    · exact fun he => ⟨h.length_eq (by omega), ‹_›⟩
  · rw [hcol, hadds, hnodup, List.map_append]
    intro hfresh
    obtain ⟨hn, hm⟩ := hfresh
    exact addsAll_setData (h.all hn) hm name now

theorem addHistory_step (h : AddHistory collection s es) {e : CategoryEvent} (he : e.isDelete = false)
    (hs : s.step e = some s') : AddHistory collection s' (es ++ [e]) := by
  cases e with
  | viewDidLoad id =>
    obtain ⟨hid, hm, hids, hcol⟩ := step_viewDidLoad hs
    refine addHistory_keep h rfl hids hcol ?_ (fun id' hid' => by rwa [List.mem_singleton.mp hid'])
    exact Listing.nodup_snoc.mpr ⟨hid, h.ids_nodup⟩
  | addButtonTapped vc name now =>
    obtain ⟨id, hid, hids, hcol⟩ := step_addButtonTapped hs
    exact addHistory_add h hid hids hcol
  | commitDelete vc row => cases he
  | listener vc callback =>
    obtain ⟨hids, hcol, -⟩ := step_listener hs
    have hnil : s'.ids = s.ids ++ [] := by rw [hids, List.append_nil]
    exact addHistory_keep h rfl hnil hcol (by rw [List.append_nil]; exact h.ids_nodup) (fun id hid => by cases hid)

theorem addHistory_run (hs : Runs.run CategoryState.step (launch collection) es = some s)
    (hd : ∀ e ∈ es, e.isDelete = false) : AddHistory collection s es := by
  refine Runs.run_history (I := fun s es => (∀ e ∈ es, e.isDelete = false) → AddHistory collection s es)
    (fun _ => addHistory_launch collection) ?_ hs hd
  intro t es e t' _ ih ht hd
  exact addHistory_step (ih fun e he => hd e (List.mem_append_left _ he)) (hd e (by simp)) ht

end

theorem addButtonTapped_adds_iff (collection : Collection) (es : List CategoryEvent) (s : CategoryState)
    (hs : Runs.run CategoryState.step (launch collection) es = some s) (hd : ∀ e ∈ es, e.isDelete = false) :
    AddsAll collection s.collection ((adds es).map Prod.snd) ↔ ((adds es).map Prod.fst).Nodup := by
  have h := addHistory_run hs hd
  refine ⟨fun ha => h.length_eq ?_, h.all⟩
  have := addsAll_length ha
  rwa [List.length_map] at this

theorem addButtonTapped_adds_two :
    ∃ s, Runs.run CategoryState.step (launch ∅) [.viewDidLoad "A", .viewDidLoad "B", .addButtonTapped 0 "Phones" 1,
      .listener none .error, .addButtonTapped 1 "Toys" 2] = some s ∧ AddsAll ∅ s.collection ["Phones", "Toys"] :=
  ⟨_, rfl, (addButtonTapped_adds_iff ∅ [.viewDidLoad "A", .viewDidLoad "B", .addButtonTapped 0 "Phones" 1,
    .listener none .error, .addButtonTapped 1 "Toys" 2] _ rfl (by decide)).mpr (by decide)⟩

theorem addButtonTapped_adds_fails :
    ¬ ∀ (collection : Collection) (es : List CategoryEvent) (s : CategoryState),
      Runs.run CategoryState.step (launch collection) es = some s → (∀ e ∈ es, e.isDelete = false) →
      AddsAll collection s.collection ((adds es).map Prod.snd) := by
  intro h
  have := addsAll_length (h ∅ [.viewDidLoad "A", .addButtonTapped 0 "Phones" 1, .addButtonTapped 0 "Toys" 2] _ rfl
    (by decide))
  exact absurd this (by decide)

end WarrantyGuard
