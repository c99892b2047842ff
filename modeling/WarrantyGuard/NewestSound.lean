import WarrantyGuard.CategorySound
import WarrantyGuard.Newest

/-!
# When the newest category comes first

The query sorts by the timestamp alone, so a category that is added comes first
exactly if no other has a later one; its clock may be behind another's.
-/

namespace WarrantyGuard

open Ordered

section
variable {field id : String} {data : Data} {c : Collection}

theorem orderDescending_setData (h : (data.lookup field).isSome) : (c.setData id data).orderDescending field =
    (⟨id, data⟩ :: (c.delete id).entries.filter fun d : Document => (d.data.lookup field).isSome).insertionSort
      fun a b => Collection.place field b ≤ Collection.place field a := by
  unfold Collection.orderDescending Collection.setData
  rw [AList.entries_insert, List.filter_cons_of_pos]
  · rfl
  · exact h

theorem orderDescending_setData_iff (h : (data.lookup field).isSome) :
    (c.setData id data).orderDescending field = Listing.toFront Document.id ⟨id, data⟩ (c.orderDescending field) ↔
      ∀ d ∈ c.orderDescending field, d.id ≠ id → Collection.place field d ≤ Collection.place field ⟨id, data⟩ := by
  have hrest := orderDescending_delete field c id
  have hmem : ∀ d, d ∈ ((c.delete id).entries.filter fun d : Document => (d.data.lookup field).isSome) ↔
      d ∈ c.orderDescending field ∧ d.id ≠ id := by
    intro d
    have hperm := List.perm_insertionSort (fun a b => Collection.place field b ≤ Collection.place field a)
      ((c.delete id).entries.filter fun d : Document => (d.data.lookup field).isSome)
    rw [← hperm.mem_iff, ← Collection.orderDescending, hrest, List.mem_filter, decide_eq_true_eq]
  have hfront : Listing.toFront Document.id ⟨id, data⟩ (c.orderDescending field) =
      ⟨id, data⟩ :: (c.delete id).orderDescending field := by
    rw [hrest]; rfl
  rw [orderDescending_setData h, hfront, Collection.orderDescending, Listing.insertionSort_cons_iff]
  simp only [hmem, and_imp]

end

/-- The list is in the order the categories were added. -/
def InOrder (s : Ordered) : Prop := s.app.collection.orderDescending "timestamp" = s.recent

/-- No other category has a later place than the one that is added. -/
def Latest (s : Ordered) : CategoryEvent → Prop
  | .addButtonTapped vc newCategory now => ∀ id, s.app.ids[vc]? = some id →
    ∀ d ∈ s.app.collection.orderDescending "timestamp", d.id ≠ id →
      Collection.place "timestamp" d ≤
        Collection.place "timestamp" ⟨id, CategoryVC.categoryData id newCategory now⟩
  | _ => True

theorem inOrder_step {s s' : Ordered} {e : CategoryEvent} (hs : InOrder s) (h : s.step e = some s') :
    InOrder s' ↔ Latest s e := by
  obtain ⟨app, happ, rfl⟩ := Option.map_eq_some_iff.mp h
  unfold InOrder at hs ⊢
  cases e with
  | viewDidLoad id =>
    obtain ⟨-, -, -, hcollection⟩ := step_viewDidLoad happ
    exact iff_of_true (by rw [hcollection]; exact hs) trivial
  | listener vc callback =>
    obtain ⟨-, hcollection, -⟩ := step_listener happ
    exact iff_of_true (by rw [hcollection]; exact hs) trivial
  | commitDelete vc row =>
    obtain ⟨c, hc, -, -, -, hcollection, -⟩ := step_commitDelete happ
    have hid : s.app.ids[vc]? = some c.categoryID := by rw [ids_getElem?, hc]; rfl
    refine iff_of_true ?_ trivial
    simp only [hcollection, recentAfter, hid]
    rw [orderDescending_delete, hs]
  | addButtonTapped vc newCategory now =>
    obtain ⟨id, hid, -, hcollection⟩ := step_addButtonTapped happ
    have hlast : (Listing.toFront Document.id ⟨id, CategoryVC.categoryData id newCategory now⟩ s.recent) =
        s.recentAfter (.addButtonTapped vc newCategory now) := by
      simp only [recentAfter, hid]
    rw [hcollection, ← hlast, ← hs, orderDescending_setData_iff rfl]
    constructor
    · intro hlater id' hid'
      cases hid.symm.trans hid'
      exact hlater
    · intro hlater
      exact hlater id hid

/-! ## A clock that goes on -/

/-- The timestamp of a document. -/
def timestamp (d : Document) : Value := (d.data.lookup "timestamp").getD .null

theorem place_le {d d' : Document} (h : (timestamp d).place < (timestamp d').place) :
    Collection.place "timestamp" d ≤ Collection.place "timestamp" d' :=
  (Prod.Lex.toLex_le_toLex).mpr (.inl h)

theorem number_place_lt {t t' : ℚ} (h : t < t') : (Value.number t).place < (Value.number t').place :=
  (Prod.Lex.toLex_lt_toLex).mpr (.inr ⟨rfl, (Prod.Lex.toLex_lt_toLex).mpr (.inl h)⟩)

/-- A document has been there from the start or has the time at which it was added. -/
def Dated (collection : Collection) (c : Collection) (times : List ℚ) : Prop :=
  ∀ d : Document, c.lookup d.id = some d.data →
    collection.lookup d.id = some d.data ∨ ∃ t ∈ times, d.data.lookup "timestamp" = some (.number t)

theorem dated_step {collection : Collection} {s s' : CategoryState} {e : CategoryEvent} {times : List ℚ}
    (hd : Dated collection s.collection times) (h : s.step e = some s') :
    Dated collection s'.collection (times ++ e.now.toList) := by
  have hkeep : ∀ d : Document, s.collection.lookup d.id = some d.data →
      collection.lookup d.id = some d.data ∨
        ∃ t ∈ times ++ e.now.toList, d.data.lookup "timestamp" = some (.number t) := by
    intro d hl
    rcases hd d hl with h | ⟨t, ht, h⟩
    · exact .inl h
    · exact .inr ⟨t, List.mem_append_left _ ht, h⟩
  intro d hl
  cases e with
  | viewDidLoad id =>
    obtain ⟨-, -, -, hc⟩ := step_viewDidLoad h
    rw [hc] at hl
    exact hkeep d hl
  | addButtonTapped vc newCategory now =>
    obtain ⟨id, -, -, hc⟩ := step_addButtonTapped h
    rw [hc, Collection.setData] at hl
    by_cases hid : d.id = id
    · rw [hid, AList.lookup_insert] at hl
      rw [← Option.some.inj hl]
      exact .inr ⟨now, List.mem_append_right _ (List.mem_singleton_self now), rfl⟩
    · rw [AList.lookup_insert_ne hid] at hl
      exact hkeep d hl
  | commitDelete vc row =>
    obtain ⟨c, -, -, -, -, hc, -⟩ := step_commitDelete h
    rw [hc, lookup_delete] at hl
    exact hkeep d hl.1
  | listener vc callback =>
    obtain ⟨-, hc, -⟩ := step_listener h
    rw [hc] at hl
    exact hkeep d hl

theorem dated_run {collection : Collection} {s : Ordered} {es : List CategoryEvent}
    (h : Runs.run Ordered.step (launch collection) es = some s) :
    Dated collection s.app.collection (es.filterMap CategoryEvent.now) := by
  refine Runs.run_history (I := fun s es => Dated collection s.app.collection (es.filterMap CategoryEvent.now))
    (fun d hd => .inl hd) ?_ h
  intro t es e t' _ hd ht
  obtain ⟨app, happ, rfl⟩ := Option.map_eq_some_iff.mp ht
  have hnow : [e].filterMap CategoryEvent.now = e.now.toList := by
    rw [List.filterMap_cons]
    cases e.now <;> rfl
  rw [List.filterMap_append, hnow]
  exact dated_step hd happ

/-- Each time is later than all that were there before. -/
theorem latest_of_clock {collection : Collection} {es : List CategoryEvent}
    (hclock : (es.filterMap CategoryEvent.now).Pairwise (· < ·))
    (hstart : ∀ d ∈ collection.documents, ∀ t ∈ es.filterMap CategoryEvent.now,
      (timestamp d).place < (Value.number t).place) : Runs.Along Ordered.step Latest (launch collection) es := by
  refine Runs.along_iff.mpr fun pre e post s s' he hs _ => ?_
  subst he
  cases e with
  | addButtonTapped vc newCategory now =>
    intro id _ d hd _
    have hnow : now ∈ (pre ++ .addButtonTapped vc newCategory now :: post).filterMap CategoryEvent.now :=
      List.mem_filterMap.mpr ⟨_, List.mem_append_right _ List.mem_cons_self, rfl⟩
    apply place_le
    rcases dated_run hs d (mem_orderDescending "timestamp" hd) with h | ⟨t, ht, h⟩
    · exact hstart d (mem_documents.mpr h) now hnow
    · rw [List.filterMap_append, List.filterMap_cons] at hclock
      have hlt : t < now := (List.pairwise_append.mp hclock).2.2 t ht now List.mem_cons_self
      rw [timestamp, h]
      exact number_place_lt hlt
  | viewDidLoad | commitDelete | listener => trivial

/-- **The newest first.** The query lists the categories in the order they were added exactly
as long as each gets the latest timestamp, as from a clock that goes on. -/
theorem newest_first_iff (collection : Collection) (es : List CategoryEvent) :
    (Runs.Always Ordered.step InOrder (launch collection) es ↔
      Runs.Along Ordered.step Latest (launch collection) es) ∧
    ((es.filterMap CategoryEvent.now).Pairwise (· < ·) →
      (∀ d ∈ collection.documents, ∀ t ∈ es.filterMap CategoryEvent.now,
        (timestamp d).place < (Value.number t).place) →
      Runs.Always Ordered.step InOrder (launch collection) es) := by
  have hiff : Runs.Always Ordered.step InOrder (launch collection) es ↔
      Runs.Along Ordered.step Latest (launch collection) es :=
    Runs.always_iff_along (I := fun _ => True) (fun _ _ _ _ _ => trivial) (fun _ _ _ _ hs h => inOrder_step hs h)
      trivial rfl
  exact ⟨hiff, fun hclock hstart => hiff.mpr (latest_of_clock hclock hstart)⟩

end WarrantyGuard
