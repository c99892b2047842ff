import Mathlib.Algebra.BigOperators.Ring.List
import Mathlib.Algebra.Ring.Nat
import Mathlib.Data.Fintype.EquivFin
import WarrantyGuard.TrailSound

/-!
# What the taps come to

A chain waits for at most six completions, and until it is settled a success
always finds its way: nothing that the completions unwrap is missing. When no
chain waits any more, `performSegue` has been called once for each document that the
app has added. A document never changes: it goes only where its own `setData` fails.
-/

namespace WarrantyGuard

open Uploads

section
variable {Image Bytes : Type} {p : Platform Image Bytes} {s s' : Uploads Image Bytes} {k : Nat}
  {c : Chain Image Bytes} {produts : Collection}

/-! ## The completions to come -/

def Stage.remaining : Stage Bytes → Nat
  | .putWarranty _ _ => 6
  | .warrantyURL _ => 5
  | .putProduct _ _ _ => 4
  | .productURL _ _ => 3
  | .setData _ => 2
  | .productAdded _ => 1
  | .performed _ => 0
  | .ended => 0

def Uploads.remaining (s : Uploads Image Bytes) : Nat := (s.chains.map (·.stage.remaining)).sum

def UploadEvent.completes : UploadEvent Image → Nat
  | .success _ _ => 1
  | .failure _ => 1
  | _ => 0

def UploadEvent.starts : UploadEvent Image → Nat
  | .nextButtonPressed _ _ => 1
  | _ => 0

/-- Chain `k` moves on to a stage that waits for less. -/
def Advances (s s' : Uploads Image Bytes) (k : Nat) (c : Chain Image Bytes) : Prop :=
  ∃ stage, s'.chains = s.chains.set k { c with stage := stage } ∧ stage.remaining < c.stage.remaining

theorem hop_advances (h : Hop p s k c s') : Advances s s' k c := by
  cases h with
  | @stored ref data stage h =>
    refine ⟨stage, rfl, ?_⟩
    generalize c.stage = st at h
    cases h <;> simp [Stage.remaining]
  | named h => exact ⟨_, rfl, by simp [h, Stage.remaining]⟩
  | wrote _ h =>
    refine ⟨_, rfl, ?_⟩
    generalize c.stage = st at h
    cases h <;> simp [Stage.remaining]
  | acknowledged h => exact ⟨_, rfl, by simp [h, Stage.remaining]⟩
  | performed h => exact ⟨_, rfl, by simp [h, Stage.remaining]⟩
  | unencodable h => exact ⟨_, rfl, by simp [h, Stage.remaining]⟩

theorem stop_advances (h : s.fail k c = some s') : Advances s s' k c := by
  unfold Uploads.fail at h
  cases hc : c.stage with
  | putWarranty | warrantyURL | putProduct | productURL | setData =>
    rw [hc] at h
    cases h
    exact ⟨_, rfl, by simp [hc, Stage.remaining]⟩
  | productAdded | performed | ended => rw [hc] at h; cases h

theorem remaining_advances (hc : s.chains[k]? = some c) (h : Advances s s' k c) : s'.remaining < s.remaining := by
  obtain ⟨stage, hchains, hlt⟩ := h
  unfold Uploads.remaining
  rw [hchains, ((Listing.set_perm hc { c with stage := stage }).map _).sum_nat,
    ((Listing.perm_cons_eraseIdx hc).map _).sum_nat]
  simp only [List.map_cons, List.sum_cons]
  omega

theorem remaining_step {e : UploadEvent Image} (h : s.step p e = some s') :
    s'.remaining + e.completes ≤ s.remaining + 6 * e.starts := by
  cases e with
  | viewDidLoad product => cases h; exact Nat.le_refl _
  | notesChanged i notes | imagePicked i image =>
    obtain ⟨vc, -, rfl⟩ := Option.map_eq_some_iff.mp h
    exact Nat.le_refl _
  | authChanged uid => cases h; exact Nat.le_refl _
  | nextButtonPressed i uuid =>
    cases step_act h with
    | screen => exact Nat.le_add_right _ _
    | started => simp [Uploads.remaining, Stage.remaining, UploadEvent.completes, UploadEvent.starts]
  | success k uuid =>
    obtain ⟨c, vc, hc, hvc, huuid, h⟩ := step_success h
    have := remaining_advances hc (hop_advances (succeed_hop huuid hvc h))
    simp only [UploadEvent.completes]
    omega
  | failure k =>
    obtain ⟨c, hc, h⟩ := Option.bind_eq_some_iff.mp h
    have := remaining_advances hc (stop_advances h)
    simp only [UploadEvent.completes]
    omega

/-! ## A success always finds its way -/

/-- The controllers that the chains' closures keep. -/
def Seats (s : Uploads Image Bytes) : Prop := ∀ c ∈ s.chains, c.vc < s.controllers.length

theorem step_tap {i : Nat} {uuid : String} (h : s.step p (.nextButtonPressed i uuid) = some s') :
    s' = s ∨ i < s.controllers.length ∧ s'.controllers = s.controllers ∧ ∃ c, c.vc = i ∧
    s'.chains = s.chains ++ [c] := by
  obtain ⟨-, h⟩ := Option.ite_none_left_eq_some.mp h
  obtain ⟨vc, hvc, rfl⟩ := Option.map_eq_some_iff.mp h
  unfold Uploads.nextButtonPressed
  split
  · exact .inl rfl
  · split
    · exact .inl rfl
    · exact .inr ⟨(List.getElem?_eq_some_iff.mp hvc).1, rfl, _, rfl, rfl⟩

theorem seats_step {e : UploadEvent Image} (hs : Seats s) (h : s.step p e = some s') : Seats s' := by
  have hmoved : ∀ {k c s'}, s.chains[k]? = some c → s'.controllers = s.controllers → Renames s s' k c →
      Seats s' := by
    intro k c s' hc hcontrollers hr
    obtain ⟨stage, hchains, -⟩ := hr
    unfold Seats
    rw [hchains, hcontrollers]
    exact Listing.forall_mem_set hs (hs c (List.mem_of_getElem? hc))
  cases e with
  | viewDidLoad product =>
    cases h
    intro c hc
    apply Nat.lt_of_lt_of_le (hs c hc)
    simp
  | notesChanged i notes | imagePicked i image =>
    obtain ⟨vc, -, rfl⟩ := Option.map_eq_some_iff.mp h
    intro c hc
    simpa using hs c hc
  | authChanged uid => cases h; exact hs
  | nextButtonPressed i uuid =>
    obtain rfl | ⟨hi, hcontrollers, c, rfl, hchains⟩ := step_tap h
    · exact hs
    · unfold Seats
      rw [hchains, hcontrollers]
      exact Listing.forall_mem_snoc.mpr ⟨hs, hi⟩
  | success k uuid =>
    obtain ⟨c, vc, hc, hvc, huuid, h⟩ := step_success h
    have hhop := succeed_hop huuid hvc h
    refine hmoved hc ?_ (hop_renames hhop)
    cases hhop <;> rfl
  | failure k =>
    obtain ⟨c, hc, h⟩ := Option.bind_eq_some_iff.mp h
    have hstop := fail_stop h
    refine hmoved hc ?_ (stop_renames hstop)
    cases hstop <;> rfl

theorem succeed_isSome (vc : OptionalDataVC Image) (uuid : String) :
    (s.succeed p k c vc uuid).isSome ↔ 0 < c.stage.remaining := by
  unfold Uploads.succeed
  cases c.stage with
  | warrantyURL ref =>
    cases vc.productImageView with
    | none => simp [Stage.remaining]
    | some image => cases hdata : p.jpegData image <;> simp [Stage.remaining, hdata]
  | _ => simp [Stage.remaining]

theorem success_iff (hs : Seats s) (hc : s.chains[k]? = some c) :
    (∃ uuid s', s.step p (.success k uuid) = some s') ↔ 0 < c.stage.remaining := by
  constructor
  · intro h
    obtain ⟨uuid, s', h⟩ := h
    obtain ⟨c', vc, hc', -, -, hs'⟩ := step_success h
    cases hc.symm.trans hc'
    exact (succeed_isSome vc uuid).mp (by rw [hs']; rfl)
  · intro h
    have hlt := hs c (List.mem_of_getElem? hc)
    have hvc := List.getElem?_eq_getElem hlt
    obtain ⟨uuid, huuid⟩ := Infinite.exists_notMem_finset s.issued.toFinset
    obtain ⟨s', hs'⟩ := Option.isSome_iff_exists.mp ((succeed_isSome (p := p) (s := s) (k := k)
      s.controllers[c.vc] uuid).mpr h)
    refine ⟨uuid, s', ?_⟩
    rw [Uploads.step, if_neg (by simpa using huuid), hc, Option.bind_some, hvc, Option.bind_some, hs']

/-! ## At rest -/

theorem segues_perm (hs : ∀ i, SeguesOf i s) :
    s.segues.Perm ((s.chains.filter (·.stage.isPerformed)).map (·.vc)) := by
  rw [List.perm_iff_count]
  intro i
  rw [hs i, List.count_eq_countP, List.countP_map, List.countP_filter]
  apply List.countP_congr
  intro c _
  simp

theorem isPerformed_of_remaining (h : c.stage.remaining = 0) : c.stage.isPerformed = c.document.isSome := by
  unfold Chain.document
  cases hst : c.stage <;> simp_all [Stage.remaining, Stage.isPerformed, Stage.document]

/-- The ids of the chains' documents are those that the collection has not had at the launch. -/
theorem documents_perm (hi : Inv produts s) :
    (s.produts.keys.filter (· ∉ produts)).Perm (s.chains.filterMap Chain.document) := by
  have hnodup : (s.chains.filterMap Chain.document).Nodup :=
    hi.names.nodup.sublist (Listing.filterMap_sublist (fun c id h => document_name h) _)
  rw [List.perm_ext_iff_of_nodup (s.produts.keys_nodup.filter _) hnodup]
  intro id
  simp only [List.mem_filter, decide_eq_true_eq, List.mem_filterMap, ← AList.mem_keys, hi.collection.documents id]
  constructor
  · rintro ⟨h | h, hnew⟩
    · exact absurd h hnew
    · exact h
  · intro h
    obtain ⟨c, hc, hid⟩ := h
    exact ⟨.inr ⟨c, hc, hid⟩, (hi.names.issued id (List.mem_filterMap.mpr ⟨c, hc, document_name hid⟩)).2⟩

/-- **What the taps come to.** They are settled after six completions each; until
then a success can come in; at rest there are as many documents added as calls of `performSegue`. -/
theorem taps_settle (p : Platform Image Bytes) (storage : Storage Bytes) (produts : Collection)
    (currentUser : Option String) (es : List (UploadEvent Image))
    (hrun : Runs.run (Uploads.step p) (launch storage produts currentUser) es = some s) :
    (es.map UploadEvent.completes).sum + s.remaining ≤ 6 * (es.map UploadEvent.starts).sum ∧
    (∀ k c, s.chains[k]? = some c →
      ((∃ uuid s', s.step p (.success k uuid) = some s') ↔ 0 < c.stage.remaining)) ∧
    (s.remaining = 0 → (s.produts.keys.filter (· ∉ produts)).length = s.segues.length) := by
  have hi : Inv produts s :=
    Runs.run_inv (fun _ _ _ hi h => inv_step hi h) (inv_launch storage produts currentUser) hrun
  have hseats : Seats s := Runs.run_inv (fun _ _ _ hs h => seats_step hs h) (fun c hc => by cases hc) hrun
  have hsegues : ∀ i, SeguesOf i s := by
    intro i
    have hlaunch : SeguesOf i (launch storage produts currentUser : Uploads Image Bytes) := rfl
    exact Runs.run_inv (fun _ _ _ hs h => seguesOf_change i hs (step_change h)) hlaunch hrun
  refine ⟨?_, fun k c hc => success_iff hseats hc, fun hrest => ?_⟩
  · have hlaunch : (launch storage produts currentUser : Uploads Image Bytes).remaining = 0 := rfl
    have hsum : s.remaining + (es.map UploadEvent.completes).sum ≤
        (launch storage produts currentUser : Uploads Image Bytes).remaining +
        (es.map fun e => 6 * e.starts).sum :=
      Runs.sum_cost_le (fun _ _ _ h => remaining_step h) hrun
    have hcredit : (es.map fun e => 6 * e.starts).sum = 6 * (es.map UploadEvent.starts).sum :=
      List.sum_map_mul_left ..
    omega
  · have hsettled : ∀ c ∈ s.chains, c.stage.remaining = 0 := fun c hc =>
      List.sum_eq_zero_iff_forall_eq_nat.mp hrest _ (List.mem_map_of_mem hc)
    rw [(documents_perm hi).length_eq, (segues_perm hsegues).length_eq, List.length_filterMap_eq_countP,
      List.length_map, ← List.countP_eq_length_filter]
    apply List.countP_congr
    intro c hc
    rw [isPerformed_of_remaining (hsettled c hc)]

end

def savedEvents : List (UploadEvent String) :=
  [.viewDidLoad (some phone), .nextButtonPressed 0 "A", .success 0 "B", .success 0 "C", .success 0 "D"]

theorem taps_settle_phone : ∃ s, Runs.run (Uploads.step textImages) (launch ∅ ∅ (some "u")) savedEvents = some s ∧
    3 + s.remaining ≤ 6 * 1 :=
  ⟨_, rfl, (taps_settle textImages ∅ ∅ (some "u") savedEvents rfl).1⟩

section
variable {Image Bytes : Type} {p : Platform Image Bytes} {s s' : Uploads Image Bytes} {k : Nat}
  {c : Chain Image Bytes} {produts : Collection}

/-! ## Documents stay as they are -/

/-- The event is the failure of the `setData` of the document `id`. -/
def WriteFails (id : String) (s : Uploads Image Bytes) : UploadEvent Image → Prop
  | .failure k => ∃ c, s.chains[k]? = some c ∧ c.stage = .setData id
  | _ => False

theorem document_step {id : String} {data : Data} {e : UploadEvent Image} (hi : Inv produts s)
    (hd : s.produts.lookup id = some data) (h : s.step p e = some s') :
    s'.produts.lookup id = some data ∧ ¬ WriteFails id s e ∨ s'.produts.lookup id = none ∧ WriteFails id s e := by
  have hissued : id ∈ s.issued := hi.collection.issued id (AList.lookup_isSome.mp (by rw [hd]; rfl))
  cases e with
  | success k uuid =>
    obtain ⟨c, vc, hc, hvc, huuid, h⟩ := step_success h
    refine .inl ⟨?_, not_false⟩
    cases succeed_hop huuid hvc h with
    | wrote _ _ huuid =>
      apply (AList.lookup_insert_ne _).trans hd
      rintro rfl
      exact huuid hissued
    | stored | named | acknowledged | performed | unencodable => exact hd
  | failure k =>
    obtain ⟨c, hc, h⟩ := Option.bind_eq_some_iff.mp h
    unfold Uploads.fail at h
    cases hst : c.stage with
    | setData id' =>
      rw [hst] at h
      cases h
      by_cases hid : id = id'
      · subst hid
        exact .inr ⟨AList.lookup_erase _ _, c, hc, hst⟩
      · refine .inl ⟨(AList.lookup_erase_ne hid).trans hd, ?_⟩
        rintro ⟨c', hc', hst'⟩
        cases hc.symm.trans hc'
        exact hid (Stage.setData.inj (hst'.symm.trans hst))
    | putWarranty | warrantyURL | putProduct | productURL =>
      rw [hst] at h
      cases h
      refine .inl ⟨hd, ?_⟩
      rintro ⟨c', hc', hst'⟩
      cases hc.symm.trans hc'
      cases hst.symm.trans hst'
    | productAdded | performed | ended => rw [hst] at h; cases h
  | viewDidLoad | notesChanged | imagePicked | authChanged =>
    cases step_act h with
    | screen => exact .inl ⟨hd, not_false⟩
  | nextButtonPressed =>
    cases step_act h with
    | screen | started => exact .inl ⟨hd, not_false⟩

theorem issued_step {e : UploadEvent Image} (h : s.step p e = some s') : s.issued ⊆ s'.issued := by
  cases step_change h with
  | screen => exact List.Subset.refl _
  | started => exact List.subset_cons_self _ _
  | hop _ h =>
    cases h with
    | named | wrote => exact List.subset_cons_self _ _
    | stored | acknowledged | performed | unencodable => exact List.Subset.refl _
  | stop _ h => cases h <;> exact List.Subset.refl _

/-- An id that the collection has lost does not come back. -/
theorem document_gone {id : String} {e : UploadEvent Image} (hissued : id ∈ s.issued)
    (hd : s.produts.lookup id = none) (h : s.step p e = some s') : s'.produts.lookup id = none := by
  cases step_change h with
  | screen | started => exact hd
  | hop _ h =>
    cases h with
    | wrote _ _ huuid =>
      apply (AList.lookup_insert_ne _).trans hd
      rintro rfl
      exact huuid hissued
    | stored | named | acknowledged | performed | unencodable => exact hd
  | stop _ h =>
    cases h with
    | stopped => exact hd
    | @rolledBack id' =>
      by_cases hid : id = id'
      · subst hid; exact AList.lookup_erase _ _
      · exact (AList.lookup_erase_ne hid).trans hd

/-- The document was there at the launch, or its write has been acknowledged. -/
def Acknowledged (produts : Collection) (id : String) (s : Uploads Image Bytes) : Prop :=
  id ∈ produts ∨ ∃ c ∈ s.chains, c.stage = .productAdded id ∨ c.stage = .performed id

theorem acknowledged_step {id : String} {e : UploadEvent Image} (ha : Acknowledged produts id s)
    (h : s.step p e = some s') : Acknowledged produts id s' := by
  rcases ha with ha | ⟨c, hc, hst⟩
  · exact .inl ha
  · obtain ⟨k, hk⟩ := List.mem_iff_getElem?.mp hc
    have hlt := (List.getElem?_eq_some_iff.mp hk).1
    rcases chain_change hk (step_change h) with hk' | h | h
    · exact .inr ⟨c, List.mem_of_getElem? hk', hst⟩
    · cases h with
      | performed hst' =>
        refine .inr ⟨_, List.mem_of_getElem? (List.getElem?_set_self hlt), .inr ?_⟩
        rw [hst'] at hst
        simpa using hst
      | stored h' => rcases hst with hst | hst <;> rw [hst] at h' <;> cases h'
      | wrote _ h' => rcases hst with hst | hst <;> rw [hst] at h' <;> cases h'
      | named h' | acknowledged h' | unencodable h' => rw [h'] at hst; simp at hst
    · cases h with
      | stopped h' => rcases hst with hst | hst <;> rw [Chain.document, hst] at h' <;> cases h'
      | rolledBack h' => rw [h'] at hst; simp at hst

theorem not_writeFails {id : String} (hi : Inv produts s) (ha : Acknowledged produts id s)
    (e : UploadEvent Image) :
    ¬ WriteFails id s e := by
  cases e with
  | failure k =>
    rintro ⟨c, hc, hst⟩
    have hname : c.name = some id := by rw [Chain.name, hst]; rfl
    rcases ha with ha | ⟨d, hd, hst'⟩
    · exact (hi.names.issued id (List.mem_filterMap.mpr ⟨c, List.mem_of_getElem? hc, hname⟩)).2 ha
    · have hdname : d.name = some id := by rcases hst' with h | h <;> rw [Chain.name, h] <;> rfl
      rcases List.mem_cons.mp ((Listing.perm_cons_eraseIdx hc).subset hd) with rfl | hd'
      · rw [hst] at hst'; simp at hst'
      · exact name_ne hi.names hc hd' hname hdname
  | _ => exact not_false

end

section
variable {Image Bytes : Type} {s s' : Uploads Image Bytes}

/-- **Documents stay.** A document that is there stays as it is until its own `setData`
fails, and then never comes back; one that is acknowledged stays for good. -/
theorem documents_stay (p : Platform Image Bytes) (storage : Storage Bytes) (produts : Collection)
    (currentUser : Option String) (es es' : List (UploadEvent Image))
    (hrun : Runs.run (Uploads.step p) (launch storage produts currentUser) es = some s)
    (hrun' : Runs.run (Uploads.step p) s es' = some s') (id : String) (data : Data)
    (hd : s.produts.lookup id = some data) :
    (s'.produts.lookup id = some data ∧ ¬ Runs.Meets (Uploads.step p) (WriteFails id) s es' ∨
      s'.produts.lookup id = none ∧ Runs.Meets (Uploads.step p) (WriteFails id) s es') ∧
    (Acknowledged produts id s → s'.produts.lookup id = some data) := by
  have hi : Inv produts s :=
    Runs.run_inv (fun _ _ _ hi h => inv_step hi h) (inv_launch storage produts currentUser) hrun
  have hissued : id ∈ s.issued := hi.collection.issued id (AList.lookup_isSome.mp (by rw [hd]; rfl))
  constructor
  · refine (Runs.run_history (I := fun t es => (Inv produts t ∧ id ∈ t.issued) ∧
      (t.produts.lookup id = some data ∧ ¬ Runs.Meets (Uploads.step p) (WriteFails id) s es ∨
        t.produts.lookup id = none ∧ Runs.Meets (Uploads.step p) (WriteFails id) s es)) ?_ ?_ hrun').2
    · exact ⟨⟨hi, hissued⟩, .inl ⟨hd, Runs.not_meets_nil _ s⟩⟩
    · intro t es e t' hes ⟨⟨hit, hissued⟩, ih⟩ ht
      refine ⟨⟨inv_step hit ht, issued_step ht hissued⟩, ?_⟩
      rw [Runs.meets_snoc _ hes]
      rcases ih with ⟨hdata, hnot⟩ | ⟨hnone, hmeets⟩
      · rcases document_step hit hdata ht with ⟨h, hn⟩ | ⟨h, hw⟩
        · exact .inl ⟨h, not_or.mpr ⟨hnot, hn⟩⟩
        · exact .inr ⟨h, .inr hw⟩
      · exact .inr ⟨document_gone hissued hnone ht, .inl hmeets⟩
  · intro ha
    refine (Runs.run_inv (I := fun t => Inv produts t ∧ Acknowledged produts id t ∧
      t.produts.lookup id = some data) ?_ ⟨hi, ha, hd⟩ hrun').2.2
    intro t e t' ⟨hit, hat, hdata⟩ ht
    refine ⟨inv_step hit ht, acknowledged_step hat ht, ?_⟩
    rcases document_step hit hdata ht with ⟨h, -⟩ | ⟨-, hw⟩
    · exact h
    · exact absurd hw (not_writeFails hit hat e)

end

theorem documents_stay_phone : ∃ s s' data, Runs.run (Uploads.step textImages)
    (launch ∅ ∅ (some "u")) savedEvents = some s ∧
    Runs.run (Uploads.step textImages) s [.success 0 "E", .notesChanged 0 "late"] = some s' ∧
    s.produts.lookup "C" = some data ∧ s'.produts.lookup "C" = some data :=
  ⟨_, _, _, rfl, rfl, rfl, (documents_stay textImages ∅ ∅ (some "u") savedEvents
    [.success 0 "E", .notesChanged 0 "late"] rfl rfl "C" _ rfl).2 (.inr ⟨_, List.mem_cons_self, .inl rfl⟩)⟩

end WarrantyGuard
