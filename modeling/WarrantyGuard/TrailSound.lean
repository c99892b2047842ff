import WarrantyGuard.TapSound

/-!
# The uploads of a chain

`uploads` are the objects whose `putData` a chain has completed, in order. Where
the chain stands says what they are: nothing, the warranty image, or that and the
product image. The storage is what it was and all chains' uploads, each chain's
under names of its own.
-/

namespace WarrantyGuard

open Uploads

section
variable {Image Bytes : Type}

/-- The object that a completion of chain `k` stores. -/
def completed (k : Nat) (s : Uploads Image Bytes) : UploadEvent Image → List (Ref × Bytes)
  | .success j _ =>
    if j = k then
      match (s.chains[k]?).map Chain.stage with
      | some (.putWarranty ref data) => [(ref, data)]
      | some (.putProduct _ ref data) => [(ref, data)]
      | _ => []
    else []
  | _ => []

/-- The uploads that chain `k` has completed. -/
def uploads (p : Platform Image Bytes) (k : Nat) (s : Uploads Image Bytes) (es : List (UploadEvent Image)) :
    List (Ref × Bytes) :=
  Runs.log (Uploads.step p) (completed k) s es

variable {p : Platform Image Bytes} {s s' : Uploads Image Bytes} {k : Nat} {c : Chain Image Bytes}

theorem completed_of_ne (k : Nat) {e : UploadEvent Image} (he : ∀ j uuid, e ≠ .success j uuid) :
    completed k s e = [] := by
  cases e with
  | success j uuid => exact absurd rfl (he j uuid)
  | _ => rfl

theorem completed_success_ne {j : Nat} (h : k ≠ j) (uuid : String) : completed j s (.success k uuid) = [] :=
  if_neg h

theorem completed_stores (hc : s.chains[k]? = some c) {ref : Ref} {data : Bytes} {stage : Stage Bytes}
    (h : c.stage.Stores ref data stage) (uuid : String) : completed k s (.success k uuid) = [(ref, data)] := by
  simp only [completed, if_true, hc, Option.map_some]
  generalize c.stage = st at h
  cases h <;> rfl

theorem completed_not_stores (hc : s.chains[k]? = some c) (h : ∀ ref data stage, ¬ c.stage.Stores ref data stage)
    (uuid : String) : completed k s (.success k uuid) = [] := by
  simp only [completed, if_true, hc, Option.map_some]
  cases hst : c.stage with
  | putWarranty ref data => exact absurd (hst ▸ .warranty ref data) (h ref data (.warrantyURL ref))
  | putProduct url ref data => exact absurd (hst ▸ .product url ref data) (h ref data (.productURL url ref))
  | _ => rfl

/-! ## What a chain has uploaded where it stands -/

def IsWarranty (p : Platform Image Bytes) (c : Chain Image Bytes) (x : Ref × Bytes) : Prop :=
  x.1.folder = .warranty ∧ c.finalProduct.warrantyImage.bind p.jpegData = some x.2

inductive Trail (p : Platform Image Bytes) (produts : Collection) (c : Chain Image Bytes) :
    List (Ref × Bytes) → Prop
  | putWarranty {x : Ref × Bytes} (hst : c.stage = .putWarranty x.1 x.2) (hx : IsWarranty p c x) :
      Trail p produts c []
  | warrantyURL {x : Ref × Bytes} (hst : c.stage = .warrantyURL x.1) (hx : IsWarranty p c x) :
      Trail p produts c [x]
  | putProduct {x y : Ref × Bytes} (hst : c.stage = .putProduct (p.absoluteString x.1) y.1 y.2)
      (hx : IsWarranty p c x) (hy : y.1.folder = .product) : Trail p produts c [x]
  | productURL {x y : Ref × Bytes} (hst : c.stage = .productURL (p.absoluteString x.1) y.1) (hx : IsWarranty p c x)
      (hy : y.1.folder = .product) : Trail p produts c [x, y]
  | without {x : Ref × Bytes} {id : String} {data : Data} (hid : c.document = some id)
      (hdata : produts.lookup id = some data)
      (hwarranty : data.string "warrantyImage" = some (p.absoluteString x.1))
      (hproduct : data.string "productImage" = some "") (hx : IsWarranty p c x) : Trail p produts c [x]
  | having {x y : Ref × Bytes} {id : String} {data : Data} (hid : c.document = some id)
      (hdata : produts.lookup id = some data)
      (hwarranty : data.string "warrantyImage" = some (p.absoluteString x.1))
      (hproduct : data.string "productImage" = some (p.absoluteString y.1)) (hx : IsWarranty p c x)
      (hy : y.1.folder = .product) : Trail p produts c [x, y]
  | ended {l : List (Ref × Bytes)} (hst : c.stage = .ended) : Trail p produts c l

/-- What the stage of a chain says of its uploads, while there is no document. -/
theorem trail_stage {produts : Collection} {l : List (Ref × Bytes)} (ht : Trail p produts c l) :
    match c.stage with
    | .putWarranty ref data => l = [] ∧ IsWarranty p c (ref, data)
    | .warrantyURL ref => ∃ data, l = [(ref, data)] ∧ IsWarranty p c (ref, data)
    | .putProduct warantyUrl ref _ =>
      ∃ x, warantyUrl = p.absoluteString x.1 ∧ l = [x] ∧ IsWarranty p c x ∧ ref.folder = .product
    | .productURL warantyUrl ref => ∃ x data, warantyUrl = p.absoluteString x.1 ∧ l = [x, (ref, data)] ∧
        IsWarranty p c x ∧ ref.folder = .product
    | _ => True := by
  have hdocument : ∀ {id}, c.document = some id →
      ∃ id, c.stage = .setData id ∨ c.stage = .productAdded id ∨ c.stage = .performed id := by
    intro id hid
    unfold Chain.document at hid
    cases hst : c.stage <;> simp_all [Stage.document]
  cases ht with
  | putWarranty hst hx => rw [hst]; exact ⟨rfl, hx⟩
  | @warrantyURL x hst hx => rw [hst]; exact ⟨x.2, rfl, hx⟩
  | @putProduct x y hst hx hy => rw [hst]; exact ⟨x, rfl, rfl, hx, hy⟩
  | @productURL x y hst hx hy => rw [hst]; exact ⟨x, y.2, rfl, rfl, hx, hy⟩
  | without hid | having hid => obtain ⟨id, hst | hst | hst⟩ := hdocument hid <;> rw [hst] <;> trivial
  | ended hst => rw [hst]; trivial

theorem trail_of_document {produts : Collection} {l : List (Ref × Bytes)} {id : String}
    (hid : c.document = some id) (ht : Trail p produts c l) : ∃ x data, IsWarranty p c x ∧
    produts.lookup id = some data ∧
      data.string "warrantyImage" = some (p.absoluteString x.1) ∧
      (l = [x] ∧ data.string "productImage" = some "" ∨
        ∃ y, y.1.folder = .product ∧ l = [x, y] ∧ data.string "productImage" = some (p.absoluteString y.1)) := by
  cases ht with
  | putWarranty hst | warrantyURL hst | putProduct hst | productURL hst | ended hst =>
    rw [Chain.document, hst] at hid; cases hid
  | @without x _ data hid' hdata hw hp hx =>
    cases hid.symm.trans hid'
    exact ⟨x, data, hx, hdata, hw, .inl ⟨rfl, hp⟩⟩
  | @having x y _ data hid' hdata hw hp hx hy =>
    cases hid.symm.trans hid'
    exact ⟨x, data, hx, hdata, hw, .inr ⟨y, hy, rfl, hp⟩⟩

theorem trail_document {produts : Collection} {l : List (Ref × Bytes)} {stage : Stage Bytes} {id : String}
    (hid : c.document = some id) (hstage : stage.document = some id) (ht : Trail p produts c l) :
    Trail p produts { c with stage := stage } l := by
  obtain ⟨x, data, hx, hdata, hw, ⟨rfl, hp⟩ | ⟨y, hy, rfl, hp⟩⟩ := trail_of_document hid ht
  · exact .without hstage hdata hw hp hx
  · exact .having hstage hdata hw hp hx hy

theorem trail_frame {produts produts' : Collection} {l : List (Ref × Bytes)}
    (h : ∀ id, c.document = some id → produts'.lookup id = produts.lookup id) (ht : Trail p produts c l) :
    Trail p produts' c l := by
  cases ht with
  | putWarranty hst hx => exact .putWarranty hst hx
  | warrantyURL hst hx => exact .warrantyURL hst hx
  | putProduct hst hx hy => exact .putProduct hst hx hy
  | productURL hst hx hy => exact .productURL hst hx hy
  | without hid hdata hw hp hx => exact .without hid ((h _ hid).trans hdata) hw hp hx
  | having hid hdata hw hp hx hy => exact .having hid ((h _ hid).trans hdata) hw hp hx hy
  | ended hst => exact .ended hst

/-- The storage is what it was and the chains' uploads, each chain's its own. -/
structure Linked (p : Platform Image Bytes) (storage : Storage Bytes) (s : Uploads Image Bytes)
    (uploads : Nat → List (Ref × Bytes)) : Prop where
  trails : ∀ k c, s.chains[k]? = some c → Trail p s.produts c (uploads k)
  unborn : ∀ k, s.chains[k]? = none → uploads k = []
  stored : ∀ ref data, s.storage.lookup ref = some data ↔
    storage.lookup ref = some data ∨ ∃ k, (ref, data) ∈ uploads k
  apart : ∀ j k ref data data', (ref, data) ∈ uploads j → (ref, data') ∈ uploads k → j = k

variable {storage : Storage Bytes} {produts : Collection} {up : Nat → List (Ref × Bytes)}

theorem trails_moved (hl : Linked p storage s up) (hc : s.chains[k]? = some c) {c' : Chain Image Bytes}
    (hchains : s'.chains = s.chains.set k c') {up' : Nat → List (Ref × Bytes)} (hup : ∀ j ≠ k, up' j = up j)
    (hproduts : ∀ d ∈ s.chains.eraseIdx k, ∀ id, d.document = some id → s'.produts.lookup id = s.produts.lookup id)
    (ht : Trail p s'.produts c' (up' k)) : ∀ j d, s'.chains[j]? = some d → Trail p s'.produts d (up' j) := by
  intro j d hd
  rw [hchains] at hd
  by_cases hj : j = k
  · subst hj
    rw [List.getElem?_set_self (List.getElem?_eq_some_iff.mp hc).1] at hd
    cases hd
    exact ht
  · rw [List.getElem?_set_ne (Ne.symm hj)] at hd
    rw [hup j hj]
    refine trail_frame (hproduts d ?_) (hl.trails j d hd)
    exact List.mem_eraseIdx_iff_getElem?.mpr ⟨j, hj, hd⟩

theorem unborn_moved (hl : Linked p storage s up) (hc : s.chains[k]? = some c) {c' : Chain Image Bytes}
    (hchains : s'.chains = s.chains.set k c') {up' : Nat → List (Ref × Bytes)} (hup : ∀ j ≠ k, up' j = up j) :
    ∀ j, s'.chains[j]? = none → up' j = [] := by
  intro j hj
  rw [hchains, List.getElem?_eq_none_iff, List.length_set, ← List.getElem?_eq_none_iff] at hj
  by_cases hjk : j = k
  · subst hjk; cases hc.symm.trans hj
  · rw [hup j hjk]; exact hl.unborn j hj

theorem linked_moved (hl : Linked p storage s up) (hc : s.chains[k]? = some c) {c' : Chain Image Bytes}
    (hchains : s'.chains = s.chains.set k c') (hstorage : s'.storage = s.storage)
    (hproduts : ∀ d ∈ s.chains.eraseIdx k, ∀ id, d.document = some id → s'.produts.lookup id = s.produts.lookup id)
    (ht : Trail p s'.produts c' (up k)) : Linked p storage s' up where
  trails := trails_moved hl hc hchains (fun _ _ => rfl) hproduts ht
  unborn := unborn_moved hl hc hchains fun _ _ => rfl
  stored := by rw [hstorage]; exact hl.stored
  apart := hl.apart

theorem log_not_stores (hc : s.chains[k]? = some c) (h : ∀ ref data stage, ¬ c.stage.Stores ref data stage)
    (uuid : String) : (fun j => up j ++ completed j s (.success k uuid)) = up := by
  funext j
  by_cases hj : k = j
  · subst hj; rw [completed_not_stores hc h, List.append_nil]
  · rw [completed_success_ne hj, List.append_nil]

theorem trail_stores {ref : Ref} {data : Bytes} {stage : Stage Bytes}
    (h : c.stage.Stores ref data stage) {l : List (Ref × Bytes)} (ht : Trail p s.produts c l) :
    Trail p s.produts { c with stage := stage } (l ++ [(ref, data)]) := by
  have hstage := trail_stage ht
  generalize hst : c.stage = st at h hstage
  cases h with
  | warranty =>
    obtain ⟨rfl, hx⟩ := hstage
    exact .warrantyURL rfl hx
  | product =>
    obtain ⟨x, rfl, rfl, hx, hy⟩ := hstage
    exact .productURL (y := (ref, data)) rfl hx hy

theorem linked_stored (hi : Inv produts s) (hl : Linked p storage s up) (hc : s.chains[k]? = some c) {ref : Ref}
    {data : Bytes} {stage : Stage Bytes} (h : c.stage.Stores ref data stage) (uuid : String) :
    Linked p storage ({ s with storage := s.storage.insert ref data }.setStage k c stage)
      fun j => up j ++ completed j s (.success k uuid) := by
  have hnew : ref ∉ s.storage := hi.storage.waiting c (List.mem_of_getElem? hc) _ _ _ h
  have hup : ∀ j ≠ k, up j ++ completed j s (.success k uuid) = up j := fun j hj => by
    rw [completed_success_ne (Ne.symm hj), List.append_nil]
  have hupk : up k ++ completed k s (.success k uuid) = up k ++ [(ref, data)] := by rw [completed_stores hc h]
  have hmem : ∀ j x, x ∈ up j ++ completed j s (.success k uuid) ↔ x ∈ up j ∨ j = k ∧ x = (ref, data) := by
    intro j x
    by_cases hj : j = k
    · subst hj; rw [hupk]; simp
    · rw [hup j hj]; simp [hj]
  have hold : ∀ d, s.storage.lookup ref ≠ some d := by
    intro d hd
    rw [AList.lookup_eq_none.mpr hnew] at hd
    cases hd
  refine ⟨trails_moved hl hc rfl hup (fun _ _ _ _ => rfl) ?_, unborn_moved hl hc rfl hup, fun r d => ?_, ?_⟩
  · rw [hupk]; exact trail_stores h (hl.trails k c hc)
  · show (s.storage.insert ref data).lookup r = some d ↔ _
    simp only [hmem]
    by_cases hr : r = ref
    · subst hr
      have hnone := (hl.stored r d).not.mp (hold d)
      rw [not_or, not_exists] at hnone
      rw [AList.lookup_insert]
      simp [hnone.1, hnone.2, eq_comm]
    · rw [AList.lookup_insert_ne hr, hl.stored r d]
      simp [hr]
  · intro i j r d d' hi hj
    have hne : ∀ i d, (r, d) ∈ up i → r ≠ ref := fun i d h hr => hold d (hr ▸ (hl.stored r d).mpr (.inr ⟨i, h⟩))
    rcases (hmem i _).mp hi with hiold | ⟨rfl, hinew⟩
    · rcases (hmem j _).mp hj with hjold | ⟨-, hjnew⟩
      · exact hl.apart i j r d d' hiold hjold
      · exact absurd (congrArg Prod.fst hjnew) (hne i d hiold)
    · rcases (hmem j _).mp hj with hjold | ⟨rfl, -⟩
      · exact absurd (congrArg Prod.fst hinew) (hne j d' hjold)
      · rfl

theorem linked_hop (hi : Inv produts s) (hl : Linked p storage s up) (hc : s.chains[k]? = some c)
    (h : Hop p s k c s') (uuid : String) :
    Linked p storage s' fun j => up j ++ completed j s (.success k uuid) := by
  have ht := hl.trails k c hc
  have hstage := trail_stage ht
  have hframe : ∀ d ∈ s.chains.eraseIdx k, ∀ id, d.document = some id →
      s.produts.lookup id = s.produts.lookup id :=
    fun _ _ _ _ => rfl
  cases h with
  | stored h => exact linked_stored hi hl hc h uuid
  | @named vc ref image data uuid h =>
    rw [log_not_stores hc (by rw [h]; rintro _ _ _ ⟨⟩)]
    rw [h] at hstage
    obtain ⟨warranty, hup, hx⟩ := hstage
    exact linked_moved hl hc rfl rfl hframe (hup ▸ .putProduct (y := (⟨.product, uuid⟩, data)) rfl hx rfl)
  | @wrote vc warrantyUrl productUrl uuid hvc h huuid =>
    have hother : ∀ d ∈ s.chains.eraseIdx k, ∀ id, d.document = some id →
        (s.uploadProduct k c vc warrantyUrl productUrl uuid).produts.lookup id = s.produts.lookup id := by
      intro d hd id hid
      apply AList.lookup_insert_ne
      intro he
      exact huuid (he ▸ document_issued hi (List.mem_of_mem_eraseIdx hd) hid)
    rw [log_not_stores hc (by generalize c.stage = st at h; cases h <;> rintro _ _ _ ⟨⟩)]
    refine linked_moved hl hc rfl rfl hother ?_
    have hdata : (s.uploadProduct k c vc warrantyUrl productUrl uuid).produts.lookup uuid =
        some (productData c.finalProduct vc.notesTV warrantyUrl productUrl s.currentUser) := AList.lookup_insert _
    generalize c.stage = st at h hstage
    cases h with
    | without ref =>
      obtain ⟨warranty, hup, hx⟩ := hstage
      rw [hup]
      exact .without rfl hdata (productData_warrantyImage ..) (productData_productImage ..) hx
    | having warantyUrl ref =>
      obtain ⟨x, product, rfl, hup, hx, hy⟩ := hstage
      rw [hup]
      exact .having rfl hdata (productData_warrantyImage ..) (productData_productImage ..) hx hy
  | acknowledged h =>
    rw [log_not_stores hc (by rw [h]; rintro _ _ _ ⟨⟩)]
    exact linked_moved hl hc rfl rfl hframe (trail_document (by rw [Chain.document, h]; rfl) rfl ht)
  | performed h =>
    rw [log_not_stores hc (by rw [h]; rintro _ _ _ ⟨⟩)]
    exact linked_moved hl hc rfl rfl hframe (trail_document (by rw [Chain.document, h]; rfl) rfl ht)
  | unencodable h =>
    rw [log_not_stores hc (by rw [h]; rintro _ _ _ ⟨⟩)]
    exact linked_moved hl hc rfl rfl hframe (.ended rfl)

theorem linked_stop (hi : Inv produts s) (hl : Linked p storage s up) (hc : s.chains[k]? = some c)
    (h : Stop s k c s') :
    Linked p storage s' up := by
  cases h with
  | stopped => exact linked_moved hl hc rfl rfl (fun _ _ _ _ => rfl) (.ended rfl)
  | @rolledBack id h =>
    have hid : c.document = some id := by rw [Chain.document, h]; rfl
    refine linked_moved hl hc rfl rfl (fun d hd id' hid' => AList.lookup_erase_ne ?_) (.ended rfl)
    intro he
    exact name_ne hi.names hc hd (document_name hid) (he ▸ document_name hid')

theorem linked_started (hl : Linked p storage s up) {x : Ref × Bytes} (hst : c.stage = .putWarranty x.1 x.2)
    (hx : IsWarranty p c x) (hchains : s'.chains = s.chains ++ [c]) (hstorage : s'.storage = s.storage)
    (hproduts : s'.produts = s.produts) : Linked p storage s' up := by
  refine ⟨fun j d hd => ?_, fun j hj => ?_, by rw [hstorage]; exact hl.stored, hl.apart⟩
  · rw [hchains] at hd
    rw [hproduts]
    by_cases hj : j < s.chains.length
    · rw [List.getElem?_append_left hj] at hd
      exact hl.trails j d hd
    · rw [List.getElem?_append_right (by omega)] at hd
      obtain rfl : c = d := List.mem_singleton.mp (List.mem_of_getElem? hd) |>.symm
      rw [hl.unborn j (List.getElem?_eq_none (by omega))]
      exact .putWarranty hst hx
  · rw [hchains, List.getElem?_eq_none_iff, List.length_append] at hj
    exact hl.unborn j (List.getElem?_eq_none (by omega))

theorem linked_step {e : UploadEvent Image} (hi : Inv produts s) (hl : Linked p storage s up)
    (h : s.step p e = some s') :
    Linked p storage s' fun j => up j ++ completed j s e := by
  have hquiet : (∀ j, completed j s e = []) → (fun j => up j ++ completed j s e) = up := fun h => by
    funext j
    rw [h j, List.append_nil]
  cases step_act h with
  | screen he =>
    rw [hquiet fun j => completed_of_ne j he]
    exact ⟨hl.trails, hl.unborn, hl.stored, hl.apart⟩
  | @started vc i finalProduct data uuid _ _ hdata =>
    rw [hquiet fun _ => rfl]
    exact linked_started hl (x := (⟨.warranty, uuid⟩, data)) rfl ⟨rfl, hdata⟩ rfl rfl rfl
  | @hop _ _ _ uuid _ hc _ h => exact linked_hop hi hl hc h uuid
  | stop hc h =>
    rw [hquiet fun _ => rfl]
    exact linked_stop hi hl hc h

theorem linked_launch (currentUser : Option String) :
    Linked p storage (launch storage produts currentUser : Uploads Image Bytes) fun _ => [] where
  trails := fun k c hc => by cases hc
  unborn := fun _ _ => rfl
  stored := fun ref data => by simp [launch]
  apart := fun _ _ _ _ _ h => by cases h

theorem linked_run {currentUser : Option String} {es : List (UploadEvent Image)}
    (hrun : Runs.run (Uploads.step p) (launch storage produts currentUser) es = some s) :
    Inv produts s ∧ Linked p storage s fun k => uploads p k (launch storage produts currentUser) es := by
  refine Runs.run_history (I := fun s es => Inv produts s ∧
    Linked p storage s fun k => uploads p k (launch storage produts currentUser) es) ?_ ?_ hrun
  · exact ⟨inv_launch storage produts currentUser, linked_launch currentUser⟩
  · intro t es e t' hes ⟨hi, hl⟩ ht
    refine ⟨inv_step hi ht, ?_⟩
    simp only [uploads, Runs.log_snoc _ hes]
    exact linked_step hi hl ht

/-! ## Chains that are done -/

/-- The chain has come to its document or to its end: it uploads nothing more. -/
def Done (c : Chain Image Bytes) : Prop := c.document.isSome ∨ c.stage = .ended

theorem chain_change (hc : s.chains[k]? = some c) (h : Change p s s') :
    s'.chains[k]? = some c ∨ Hop p s k c s' ∨ Stop s k c s' := by
  have hother : ∀ {j d}, s.chains[j]? = some d → Renames s s' j d → j ≠ k → s'.chains[k]? = some c := by
    intro j d _ hr hj
    obtain ⟨stage, hchains, -⟩ := hr
    rw [hchains, List.getElem?_set_ne hj, hc]
  cases h with
  | screen => exact .inl hc
  | started => exact .inl ((List.getElem?_append_left (List.getElem?_eq_some_iff.mp hc).1).trans hc)
  | @hop j d _ hd h =>
    by_cases hj : j = k
    · subst hj
      cases hc.symm.trans hd
      exact .inr (.inl h)
    · exact .inl (hother hd (hop_renames h) hj)
  | @stop j d _ hd h =>
    by_cases hj : j = k
    · subst hj
      cases hc.symm.trans hd
      exact .inr (.inr h)
    · exact .inl (hother hd (stop_renames h) hj)

theorem stop_ended (hc : s.chains[k]? = some c) (h : Stop s k c s') :
    ∃ c', s'.chains[k]? = some c' ∧ c'.stage = .ended := by
  have hk := (List.getElem?_eq_some_iff.mp hc).1
  cases h with
  | stopped => exact ⟨_, List.getElem?_set_self hk, rfl⟩
  | rolledBack => exact ⟨_, List.getElem?_set_self hk, rfl⟩

theorem hop_done (hc : s.chains[k]? = some c) (hs : Done c) (h : Hop p s k c s') :
    ∃ c', s'.chains[k]? = some c' ∧ c'.document.isSome := by
  have hk := (List.getElem?_eq_some_iff.mp hc).1
  have hurl : ∀ ref, c.stage ≠ .warrantyURL ref := by
    intro ref hst
    rcases hs with hs | hs
    · rw [Chain.document, hst] at hs; cases hs
    · cases hst.symm.trans hs
  cases h with
  | stored h => exact absurd h (not_stores hs)
  | named h => exact absurd h (hurl _)
  | wrote _ h =>
    generalize hst : c.stage = st at h
    cases h with
    | without ref => exact absurd hst (hurl ref)
    | having url ref => exact absurd hst (ne_productURL hs)
  | acknowledged h => exact ⟨_, List.getElem?_set_self hk, rfl⟩
  | performed h => exact ⟨_, List.getElem?_set_self hk, rfl⟩
  | unencodable h => exact absurd h (hurl _)

theorem not_hop_ended (hst : c.stage = .ended) : ¬ Hop p s k c s' := by
  intro h
  cases h with
  | stored h => exact not_stores (.inr hst) h
  | wrote _ h => rw [hst] at h; cases h
  | named h | acknowledged h | performed h | unencodable h => cases h.symm.trans hst

def DoneAt (k : Nat) (s : Uploads Image Bytes) : Prop := ∃ c, s.chains[k]? = some c ∧ Done c

def EndedAt (k : Nat) (s : Uploads Image Bytes) : Prop := ∃ c, s.chains[k]? = some c ∧ c.stage = .ended

theorem doneAt_step {e : UploadEvent Image} (hs : DoneAt k s) (h : s.step p e = some s') : DoneAt k s' := by
  obtain ⟨c, hc, hs⟩ := hs
  rcases chain_change hc (step_change h) with hc' | h | h
  · exact ⟨c, hc', hs⟩
  · obtain ⟨c', hc', hd⟩ := hop_done hc hs h
    exact ⟨c', hc', .inl hd⟩
  · obtain ⟨c', hc', hst⟩ := stop_ended hc h
    exact ⟨c', hc', .inr hst⟩

theorem endedAt_step {e : UploadEvent Image} (hs : EndedAt k s) (h : s.step p e = some s') : EndedAt k s' := by
  obtain ⟨c, hc, hs⟩ := hs
  rcases chain_change hc (step_change h) with hc' | h | h
  · exact ⟨c, hc', hs⟩
  · exact absurd h (not_hop_ended hs)
  · exact stop_ended hc h

theorem completed_doneAt (hs : DoneAt k s) (e : UploadEvent Image) : completed k s e = [] := by
  obtain ⟨c, hc, hs⟩ := hs
  cases e with
  | success j uuid =>
    by_cases hj : j = k
    · subst hj; exact completed_not_stores hc (fun _ _ _ => not_stores hs) uuid
    · exact completed_success_ne hj uuid
  | _ => rfl

end

end WarrantyGuard
