import WarrantyGuard.TrailSound

/-!
# The objects behind the documents

The document of a chain links to its uploads and to nothing else. No step takes an
object out of the storage, so a chain that ends without a document leaves all it
has uploaded.
-/

namespace WarrantyGuard

open Uploads

section
variable {Image Bytes : Type} {p : Platform Image Bytes} {s s' : Uploads Image Bytes} {k : Nat}
  {c : Chain Image Bytes} {storage : Storage Bytes} {produts : Collection} {up : Nat → List (Ref × Bytes)}

/-! ## Links -/

/-- The images' URLs in `data` are those of objects that the chain has uploaded, the
warranty's that of the image its product carried. -/
def LinksUploads (p : Platform Image Bytes) (storage : Storage Bytes) (c : Chain Image Bytes)
    (uploads : List (Ref × Bytes)) (data : Data) : Prop :=
  (∃ ref bytes, data.string "warrantyImage" = some (p.absoluteString ref) ∧ (ref, bytes) ∈ uploads ∧
      storage.lookup ref = some bytes ∧ c.finalProduct.warrantyImage.bind p.jpegData = some bytes) ∧
    (data.string "productImage" = some "" ∨
      ∃ ref bytes, data.string "productImage" = some (p.absoluteString ref) ∧ (ref, bytes) ∈ uploads ∧
        storage.lookup ref = some bytes)

/-- An upload or URL step of chain `k` fails in the run. -/
def UploadFails (p : Platform Image Bytes) (k : Nat) (s : Uploads Image Bytes)
    (es : List (UploadEvent Image)) : Prop :=
  ∃ pre post t c, es = pre ++ .failure k :: post ∧ Runs.run (Uploads.step p) s pre = some t ∧
    t.chains[k]? = some c ∧ c.document = none

/-- Chain `k` is that of a tap in the run, on the controller `c.vc` with the product `c.finalProduct`. -/
def StartedBy (p : Platform Image Bytes) (k : Nat) (c : Chain Image Bytes) (s : Uploads Image Bytes)
    (es : List (UploadEvent Image)) : Prop :=
  ∃ pre uuid post t vc, es = pre ++ .nextButtonPressed c.vc uuid :: post ∧
    Runs.run (Uploads.step p) s pre = some t ∧
    t.chains.length = k ∧ t.controllers[c.vc]? = some vc ∧ vc.product = some c.finalProduct

theorem chain_before {e : UploadEvent Image} (h : s.step p e = some s') (hc : s'.chains[k]? = some c) :
    (∃ d, s.chains[k]? = some d ∧ c.vc = d.vc ∧ c.finalProduct = d.finalProduct) ∨
      s.chains.length = k ∧ ∃ uuid vc, e = .nextButtonPressed c.vc uuid ∧ s.controllers[c.vc]? = some vc ∧
        vc.product = some c.finalProduct := by
  have hmoved : ∀ {j d}, s.chains[j]? = some d → Renames s s' j d →
      ∃ d, s.chains[k]? = some d ∧ c.vc = d.vc ∧ c.finalProduct = d.finalProduct := by
    intro j d hd hr
    obtain ⟨stage, hchains, -⟩ := hr
    rw [hchains] at hc
    by_cases hj : j = k
    · subst hj
      rw [List.getElem?_set_self (List.getElem?_eq_some_iff.mp hd).1] at hc
      obtain rfl := Option.some.inj hc
      exact ⟨d, hd, rfl, rfl⟩
    · rw [List.getElem?_set_ne hj] at hc
      exact ⟨c, hc, rfl, rfl⟩
  cases step_act h with
  | screen => exact .inl ⟨c, hc, rfl, rfl⟩
  | @started vc i finalProduct data uuid hvc hp =>
    by_cases hk : k < s.chains.length
    · rw [List.getElem?_append_left hk] at hc
      exact .inl ⟨c, hc, rfl, rfl⟩
    · rw [List.getElem?_append_right (by omega)] at hc
      obtain ⟨hlt, -⟩ := List.getElem?_eq_some_iff.mp hc
      obtain rfl := List.mem_singleton.mp (List.mem_of_getElem? hc)
      rw [List.length_singleton] at hlt
      exact .inr ⟨by omega, uuid, vc, rfl, hvc, hp⟩
  | hop hd _ h => exact .inl (hmoved hd (hop_renames h))
  | stop hd h => exact .inl (hmoved hd (stop_renames h))

theorem startedBy_run {currentUser : Option String} {es : List (UploadEvent Image)}
    (hrun : Runs.run (Uploads.step p) (launch storage produts currentUser) es = some s) :
    ∀ k c, s.chains[k]? = some c → StartedBy p k c (launch storage produts currentUser) es := by
  refine Runs.run_history (I := fun s es => ∀ k c, s.chains[k]? = some c →
    StartedBy p k c (launch storage produts currentUser) es) (fun k c hc => by cases hc) ?_ hrun
  intro t es e t' hes ih ht k c hc
  rcases chain_before ht hc with ⟨d, hd, hvc, hproduct⟩ | ⟨hk, uuid, vc, rfl, hvc, hproduct⟩
  · obtain ⟨pre, uuid, post, u, vc, rfl, hu, hlen, huvc, hup⟩ := ih k d hd
    exact ⟨pre, uuid, post ++ [e], u, vc, by simp [hvc], hu, hlen, hvc ▸ huvc, hproduct ▸ hup⟩
  · exact ⟨es, uuid, [], t, vc, rfl, hes, hk, hvc, hproduct⟩

theorem trail_links (hl : Linked p storage s up) (hc : s.chains[k]? = some c) {id : String}
    (hid : c.document = some id) :
    ∃ data, s.produts.lookup id = some data ∧ LinksUploads p s.storage c (up k) data := by
  have hstored : ∀ x ∈ up k, s.storage.lookup x.1 = some x.2 := fun x hx => (hl.stored x.1 x.2).mpr (.inr ⟨k, hx⟩)
  obtain ⟨x, data, hx, hdata, hw, hproduct⟩ := trail_of_document hid (hl.trails k c hc)
  refine ⟨data, hdata, ?_⟩
  rcases hproduct with ⟨hup, hp⟩ | ⟨y, -, hup, hp⟩
  · rw [hup] at hstored ⊢
    exact ⟨⟨x.1, x.2, hw, by simp, hstored x (by simp), hx.2⟩, .inl hp⟩
  · rw [hup] at hstored ⊢
    exact ⟨⟨x.1, x.2, hw, by simp, hstored x (by simp), hx.2⟩, .inr ⟨y.1, y.2, hp, by simp, hstored y (by simp)⟩⟩

theorem uploadFails_document {s₀ : Uploads Image Bytes} {es : List (UploadEvent Image)}
    (hrun : Runs.run (Uploads.step p) s₀ es = some s) (hf : UploadFails p k s₀ es)
    {pre post : List (UploadEvent Image)} {t : Uploads Image Bytes} (he : es = pre ++ post)
    (ht : Runs.run (Uploads.step p) s₀ pre = some t) (hc : t.chains[k]? = some c) : c.document = none := by
  obtain ⟨pre', post', t', c', he', ht', hc', hdoc⟩ := hf
  obtain ⟨u, hu⟩ : ∃ u, t'.step p (.failure k) = some u := by
    rw [he', Runs.run_append, ht', Option.bind_some] at hrun
    obtain ⟨u, hu, -⟩ := Option.bind_eq_some_iff.mp hrun
    exact ⟨u, hu⟩
  have hfail : t'.fail k c' = some u := by simpa [Uploads.step, hc'] using hu
  have hended : EndedAt k u := stop_ended hc' (fail_stop hfail)
  have hlive : c'.stage ≠ .ended := by
    intro h
    rw [Uploads.fail, h] at hfail
    cases hfail
  rcases List.append_eq_append_iff.mp (he.symm.trans he') with ⟨mid, rfl, -⟩ | ⟨mid, rfl, hmid⟩
  · -- a document now would be there, or taken back, at the failure
    rw [Runs.run_append, ht, Option.bind_some] at ht'
    by_contra hsome
    have hs : DoneAt k t := ⟨c, hc, .inl (Option.isSome_iff_ne_none.mpr hsome)⟩
    obtain ⟨d, hd, hdone⟩ := Runs.run_inv (fun _ _ _ hs h => doneAt_step hs h) hs ht'
    cases hc'.symm.trans hd
    rcases hdone with h | h
    · rw [hdoc] at h; cases h
    · exact hlive h
  · rw [Runs.run_append, ht', Option.bind_some] at ht
    cases mid with
    | nil =>
      cases ht
      cases hc'.symm.trans hc
      exact hdoc
    | cons e mid =>
      obtain ⟨rfl, -⟩ := List.cons.inj hmid
      rw [Runs.run_cons_some _ hu] at ht
      obtain ⟨d, hd, hst⟩ := Runs.run_inv (fun _ _ _ hs h => endedAt_step hs h) hended ht
      cases hc.symm.trans hd
      rw [Chain.document, hst]; rfl

theorem documents_link_uploads (p : Platform Image Bytes) (storage : Storage Bytes) (produts : Collection)
    (currentUser : Option String) (es : List (UploadEvent Image))
    (hrun : Runs.run (Uploads.step p) (launch storage produts currentUser) es = some s) :
    (∀ id ∈ s.produts, id ∉ produts → ∃ k c data, s.chains[k]? = some c ∧ c.document = some id ∧
      StartedBy p k c (launch storage produts currentUser) es ∧ s.produts.lookup id = some data ∧
      LinksUploads p s.storage c (uploads p k (launch storage produts currentUser) es) data) ∧
    ∀ k, UploadFails p k (launch storage produts currentUser) es → ∀ pre post t c, es = pre ++ post →
      Runs.run (Uploads.step p) (launch storage produts currentUser) pre = some t → t.chains[k]? = some c →
      c.document = none := by
  obtain ⟨hi, hl⟩ := linked_run hrun
  refine ⟨fun id hid hnew => ?_, fun k hf pre post t c he ht hc => uploadFails_document hrun hf he ht hc⟩
  obtain hold | ⟨c, hcm, hcid⟩ := (hi.collection.documents id).mp hid
  · exact absurd hold hnew
  · obtain ⟨k, hc⟩ := List.mem_iff_getElem?.mp hcm
    obtain ⟨data, hdata, hlinks⟩ := trail_links hl hc hcid
    exact ⟨k, c, data, hc, hcid, startedBy_run hrun k c hc, hdata, hlinks⟩

/-! ## Leftovers -/

def Refers (p : Platform Image Bytes) (data : Data) (ref : Ref) : Prop :=
  data.string "warrantyImage" = some (p.absoluteString ref) ∨
    data.string "productImage" = some (p.absoluteString ref)

/-- The event ends chain `k` where it stands at `c`. -/
def Ends (p : Platform Image Bytes) (k : Nat) (s : Uploads Image Bytes) (c : Chain Image Bytes)
    (e : UploadEvent Image) : Prop :=
  s.chains[k]? = some c ∧ c.stage ≠ .ended ∧ ∃ s', s.step p e = some s' ∧ EndedAt k s'

theorem trail_refers (hl : Linked p storage s up) (hc : s.chains[k]? = some c) {id : String}
    (hid : c.document = some id) :
    ∃ data, s.produts.lookup id = some data ∧ ∀ ref, Refers p data ref ↔ ∃ x ∈ up k, x.1 = ref := by
  have hurl : ∀ {ref ref' : Ref}, some (p.absoluteString ref) = some (p.absoluteString ref') ↔ ref = ref' :=
    Option.some_inj.trans p.absoluteString_injective.eq_iff
  have hempty : ∀ ref, ¬ (some "" : Option String) = some (p.absoluteString ref) := fun ref h =>
    p.absoluteString_ne_empty ref (Option.some.inj h).symm
  obtain ⟨x, data, -, hdata, hw, hproduct⟩ := trail_of_document hid (hl.trails k c hc)
  refine ⟨data, hdata, fun ref => ?_⟩
  rcases hproduct with ⟨hup, hp⟩ | ⟨y, -, hup, hp⟩
  · rw [Refers, hw, hp, hurl, hup]
    simp [hempty]
  · rw [Refers, hw, hp, hurl, hurl, hup]
    simp

theorem ends_completed {e : UploadEvent Image} (h : Ends p k s c e) : completed k s e = [] := by
  obtain ⟨hc, -, s', hs, d, hd, hended⟩ := h
  cases e with
  | success j uuid =>
    by_cases hj : j = k
    · subst hj
      refine completed_not_stores hc (fun ref data stage hst => ?_) uuid
      -- a chain that stores goes on to ask for the URL
      obtain ⟨c', vc, hc', -, -, hsucceed⟩ := step_success hs
      cases hc.symm.trans hc'
      have hk := (List.getElem?_eq_some_iff.mp hc).1
      unfold Uploads.succeed at hsucceed
      generalize c.stage = st at hst hsucceed
      cases hst with
      | warranty | product =>
        cases hsucceed
        cases (List.getElem?_set_self hk).symm.trans hd
        cases hended
    · exact completed_success_ne hj uuid
  | _ => rfl

theorem ended_uploads {s₀ t : Uploads Image Bytes} {pre post : List (UploadEvent Image)} {e : UploadEvent Image}
    (ht : Runs.run (Uploads.step p) s₀ pre = some t) (h : Ends p k t c e) :
    uploads p k s₀ (pre ++ e :: post) = uploads p k s₀ pre := by
  obtain ⟨-, -, t', ht', d, hd, hst⟩ := id h
  have hs : DoneAt k t' := ⟨d, hd, .inr hst⟩
  have hpost : Runs.log (Uploads.step p) (completed k) t' post = [] :=
    Runs.log_eq_nil (fun _ _ _ hs h => doneAt_step hs h) (fun _ e hs => completed_doneAt hs e) hs
  rw [uploads, Runs.log_append _ ht, Runs.log, ht', Option.map_some, Option.getD_some, hpost, ends_completed h]
  simp [uploads]

/-- **What a failed upload leaves.** The storage is what it was and every upload a
chain completed. A chain's document refers to all of its uploads; a chain that
ends without one leaves those it had made by then, which no document of the app
refers to. -/
theorem storage_keeps_uploads (p : Platform Image Bytes) (storage : Storage Bytes) (produts : Collection)
    (currentUser : Option String) (es : List (UploadEvent Image))
    (hrun : Runs.run (Uploads.step p) (launch storage produts currentUser) es = some s) :
    (∀ ref data, s.storage.lookup ref = some data ↔ storage.lookup ref = some data ∨
      ∃ k, (ref, data) ∈ uploads p k (launch storage produts currentUser) es) ∧
    (∀ k c id, s.chains[k]? = some c → c.document = some id → ∃ data, s.produts.lookup id = some data ∧
      ∀ ref, Refers p data ref ↔ ∃ x ∈ uploads p k (launch storage produts currentUser) es, x.1 = ref) ∧
    ∀ k c pre e post t, es = pre ++ e :: post →
      Runs.run (Uploads.step p) (launch storage produts currentUser) pre = some t → Ends p k t c e →
      Trail p t.produts c (uploads p k (launch storage produts currentUser) es) ∧
      ∀ x ∈ uploads p k (launch storage produts currentUser) es, ∀ id data, id ∉ produts →
        s.produts.lookup id = some data → ¬ Refers p data x.1 := by
  obtain ⟨hi, hl⟩ := linked_run hrun
  refine ⟨hl.stored, fun k c id hc hid => trail_refers hl hc hid, fun k c pre e post t he ht hends => ?_⟩
  subst he
  obtain ⟨-, hlt⟩ := linked_run ht
  refine ⟨?_, fun x hx id data hnew hdata hrefers => ?_⟩
  · rw [ended_uploads ht hends]
    exact hlt.trails k c hends.1
  · obtain ⟨-, -, t', ht', hended⟩ := hends
    rw [Runs.run_append, ht, Option.bind_some, Runs.run_cons_some _ ht'] at hrun
    obtain ⟨c', hc', hst⟩ := Runs.run_inv (fun _ _ _ hs h => endedAt_step hs h) hended hrun
    obtain hold | ⟨d, hdm, hid⟩ := (hi.collection.documents id).mp (AList.lookup_isSome.mp (by rw [hdata]; rfl))
    · exact hnew hold
    · obtain ⟨j, hd⟩ := List.mem_iff_getElem?.mp hdm
      obtain ⟨data', hdata', hrefs⟩ := trail_refers hl hd hid
      cases hdata.symm.trans hdata'
      obtain ⟨y, hy, hyx⟩ := (hrefs x.1).mp hrefers
      -- the document's chain would be the ended one
      obtain rfl : j = k := hl.apart j k x.1 y.2 x.2 (hyx ▸ hy) hx
      cases hc'.symm.trans hd
      rw [Chain.document, hst] at hid
      cases hid

end

/-- A tap with a product image, and one whose warranty URL does not come. -/
def phoneEvents : List (UploadEvent String) :=
  [.viewDidLoad (some phone), .imagePicked 0 (some "photo"), .nextButtonPressed 0 "A", .nextButtonPressed 0 "B",
    .success 1 "C", .failure 1, .success 0 "C", .success 0 "D", .success 0 "E", .success 0 "F"]

theorem documents_link_uploads_phone : ∃ s,
    Runs.run (Uploads.step textImages) (launch ∅ ∅ (some "u")) phoneEvents = some s ∧
    ∃ k c data, s.chains[k]? = some c ∧ c.document = some "F" ∧
      StartedBy textImages k c (launch ∅ ∅ (some "u")) phoneEvents ∧ s.produts.lookup "F" = some data ∧
      LinksUploads textImages s.storage c (uploads textImages k (launch ∅ ∅ (some "u")) phoneEvents) data :=
  ⟨_, rfl, (documents_link_uploads textImages ∅ ∅ (some "u") phoneEvents rfl).1 "F" (by decide) (by decide)⟩

/-- The chain that gets no URL leaves its warranty image, and no document refers to it. -/
theorem storage_keeps_uploads_phone : ∃ s c,
    Runs.run (Uploads.step textImages) (launch ∅ ∅ (some "u")) phoneEvents = some s ∧
    (∀ ref data, s.storage.lookup ref = some data ↔ (∅ : Storage String).lookup ref = some data ∨
      ∃ k, (ref, data) ∈ uploads textImages k (launch ∅ ∅ (some "u")) phoneEvents) ∧
    uploads textImages 1 (launch ∅ ∅ (some "u")) phoneEvents = [(⟨.warranty, "B"⟩, "receipt")] ∧
    c.stage = .warrantyURL ⟨.warranty, "B"⟩ ∧
    Trail textImages ∅ c (uploads textImages 1 (launch ∅ ∅ (some "u")) phoneEvents) ∧
    ∀ data, s.produts.lookup "F" = some data → ¬ Refers textImages data ⟨.warranty, "B"⟩ := by
  obtain ⟨s, hs⟩ : ∃ s, Runs.run (Uploads.step textImages) (launch ∅ ∅ (some "u")) phoneEvents = some s := ⟨_, rfl⟩
  obtain ⟨t, c, ht, hproduts, hends, hstage⟩ : ∃ t c,
      Runs.run (Uploads.step textImages) (launch ∅ ∅ (some "u")) (phoneEvents.take 5) = some t ∧ t.produts = ∅ ∧
      Ends textImages 1 t c (.failure 1) ∧ c.stage = .warrantyURL ⟨.warranty, "B"⟩ :=
    ⟨_, _, rfl, rfl, ⟨rfl, by simp, _, rfl, _, rfl, rfl⟩, rfl⟩
  have huploads : uploads textImages 1 (launch ∅ ∅ (some "u")) phoneEvents = [(⟨.warranty, "B"⟩, "receipt")] := rfl
  obtain ⟨hstorage, -, hresidue⟩ := storage_keeps_uploads textImages ∅ ∅ (some "u") phoneEvents hs
  obtain ⟨htrail, hrefers⟩ := hresidue 1 c (phoneEvents.take 5) (.failure 1) (phoneEvents.drop 6) t rfl ht hends
  rw [hproduts] at htrail
  refine ⟨s, c, hs, hstorage, huploads, hstage, htrail, fun data hdata => ?_⟩
  exact hrefers (⟨.warranty, "B"⟩, "receipt") (by rw [huploads]; exact List.mem_singleton_self _) "F" data
    (AList.notMem_empty "F") hdata

theorem storage_restored_fails :
    ¬ ∀ (Image Bytes : Type) (p : Platform Image Bytes) (storage : Storage Bytes) (produts : Collection)
      (currentUser : Option String) (es : List (UploadEvent Image)) (s : Uploads Image Bytes),
      Runs.run (Uploads.step p) (launch storage produts currentUser) es = some s →
      (∀ c ∈ s.chains, c.stage = .ended) → ∀ ref, s.storage.lookup ref = storage.lookup ref := by
  intro h
  -- the warranty image is stored, its URL does not come
  have hlookup := h String String textImages ∅ ∅ (some "u")
    [.viewDidLoad (some phone), .nextButtonPressed 0 "A", .success 0 "B", .failure 0] _ rfl
    (fun c hc => by obtain rfl := List.mem_singleton.mp hc; rfl) ⟨.warranty, "A"⟩
  exact absurd hlookup (by decide)

end WarrantyGuard
