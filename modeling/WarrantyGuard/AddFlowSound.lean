import WarrantyGuard.AddFlow
import WarrantyGuard.DisplaySound
import WarrantyGuard.FormSound
import WarrantyGuard.LinkSound
import WarrantyGuard.RecordSound
import WarrantyGuard.SettleSound

/-!
# Where a saved product comes from

What an event does to a tab is one of six turns. From them, each tab's form is a
run of a form by itself, and all tabs' controllers together make a run of the
uploads. And every product that a tap saves has been collected in one tab: its
texts are those of a form at a Continue that was accepted, its image the last one
picked between that Continue and a Next, its category that of a document which a
listener had brought. A document that is added is such a product, with the notes,
the product image and the user that its completions have found.
-/

namespace WarrantyGuard

open AddFlow
open AddForm (lastTyped lastDay lastChosen)

section
variable {Image Bytes : Type} {L : Locale} {p : Platform Image Bytes} {s s' : AddFlow Image Bytes} {i : Nat}
  {tab tab' : AddTab Image} {e : FlowEvent Image}

/-! ## What an event does to a tab -/

inductive TabTurn (L : Locale) (categories : List Category) (i : Nat) (tab : AddTab Image) :
    FlowEvent Image → AddTab Image → Prop
  | still {e : FlowEvent Image} (he : e.onTab ≠ some i) : TabTurn L categories i tab e tab
  | form {e : FormEvent} {form : AddForm} (habove : tab.above = .nothing)
      (h : tab.form.step L (categories, e) = some form) :
      TabTurn L categories i tab (.form i e) ⟨form, tab.pushed e⟩
  | covered {authorized : Bool} {form : AddForm}
      (h : tab.form.step L (categories, .notificationSettings authorized) = some form) :
      TabTurn L categories i tab (.form i (.notificationSettings authorized)) ⟨form, tab.above⟩
  | picked {camera : CameraVC Image} (habove : tab.above = .camera camera) (originalImage : Option Image) :
      TabTurn L categories i tab (.warrantyPicked i originalImage)
        { tab with above := .camera (camera.imagePickerController originalImage) }
  | next {camera : CameraVC Image} {above : Above Image} (habove : tab.above = .camera camera)
      (h : above = .camera camera.nextButtonPressed.1 ∨
        ∃ vc, above = .optionalData camera.nextButtonPressed.1 vc) :
      TabTurn L categories i tab (.nextButtonPressed i) { tab with above := above }
  | back {above : Above Image}
      (h : above = .nothing ∨ ∃ camera vc, tab.above = .optionalData camera vc ∧ above = .camera camera) :
      TabTurn L categories i tab (.back i) { tab with above := above }

theorem formEvent_turn {categories : List Category} {e : FormEvent}
    (h : tab.formEvent L categories e = some tab') :
    TabTurn L categories i tab (.form i e) tab' := by
  unfold AddTab.formEvent at h
  split at h
  · rename_i habove
    obtain ⟨form, hform, rfl⟩ := Option.map_eq_some_iff.mp h
    exact .form habove hform
  · obtain ⟨htouch, h⟩ := Option.ite_none_left_eq_some.mp h
    obtain ⟨form, hform, rfl⟩ := Option.map_eq_some_iff.mp h
    cases e with
    | notificationSettings authorized => exact .covered hform
    | _ => exact absurd rfl htouch

theorem warrantyPicked_turn {categories : List Category} {originalImage : Option Image}
    (h : tab.warrantyPicked originalImage = some tab') :
    TabTurn L categories i tab (.warrantyPicked i originalImage) tab' := by
  unfold AddTab.warrantyPicked at h
  split at h
  · rename_i habove
    cases h
    exact .picked habove originalImage
  · cases h

theorem back_turn {categories : List Category} (h : tab.back = some tab') :
    TabTurn L categories i tab (.back i) tab' := by
  unfold AddTab.back at h
  split at h
  · rename_i camera vc habove
    cases h
    exact .back (.inr ⟨camera, vc, habove, rfl⟩)
  · cases h; exact .back (.inl rfl)
  · cases h

theorem onTab_some {f : AddTab Image → Option (AddTab Image)} (h : s.onTab i f = some s') :
    ∃ tab tab', s.tabs[i]? = some tab ∧ f tab = some tab' ∧ s' = { s with tabs := s.tabs.set i tab' } := by
  obtain ⟨tab, htab, h⟩ := Option.bind_eq_some_iff.mp h
  obtain ⟨tab', hf, rfl⟩ := Option.map_eq_some_iff.mp h
  exact ⟨tab, tab', htab, hf, rfl⟩

/-- What an event does to the whole way; Next makes a controller where it has an image. -/
inductive FlowTurn (L : Locale) (p : Platform Image Bytes) (s : AddFlow Image Bytes) :
    FlowEvent Image → AddFlow Image Bytes → Prop
  | list {m : MirrorEvent} {categories : List Category} (h : Mirror.step s.categories m = some categories) :
      FlowTurn L p s (.list m) { s with categories := categories }
  | opened {purchase expiry : Int} :
      FlowTurn L p s (.viewDidLoad purchase expiry)
        { s with tabs := s.tabs ++ [AddTab.viewDidLoad purchase expiry] }
  | turned {i : Nat} {tab tab' : AddTab Image} {e : FlowEvent Image} (he : e.onTab = some i)
      (hupload : asUpload s e = []) (htab : s.tabs[i]? = some tab) (h : TabTurn L s.categories i tab e tab') :
      FlowTurn L p s e { s with tabs := s.tabs.set i tab' }
  | pushed {i : Nat} {tab : AddTab Image} {camera : CameraVC Image} {product : ProductComponents Image}
      (htab : s.tabs[i]? = some tab) (habove : tab.above = .camera camera)
      (hproduct : camera.nextButtonPressed.2 = some product) :
      FlowTurn L p s (.nextButtonPressed i) { s with
        tabs := s.tabs.set i
          { tab with above := .optionalData camera.nextButtonPressed.1 s.uploads.controllers.length },
        uploads := { s.uploads with controllers := s.uploads.controllers ++ [⟨some product, none, ""⟩] } }
  | upload {e : UploadEvent Image} {uploads : Uploads Image Bytes} (hadmits : s.admits e)
      (h : s.uploads.step p e = some uploads) :
      FlowTurn L p s (.upload e) { s with uploads := uploads }

theorem next_turn (htab : s.tabs[i]? = some tab) (h : s.nextButtonPressed i tab = some s') :
    FlowTurn L p s (.nextButtonPressed i) s' := by
  unfold AddFlow.nextButtonPressed at h
  split at h
  · rename_i camera habove
    cases hproduct : camera.nextButtonPressed.2 with
    | none =>
      simp only [hproduct] at h
      cases h
      refine .turned rfl ?_ htab (.next habove (.inl rfl))
      simp [asUpload, htab, habove, hproduct]
    | some product =>
      simp only [hproduct] at h
      cases h
      exact .pushed htab habove hproduct
  · cases h

theorem flow_turn (h : s.step L p e = some s') : FlowTurn L p s e s' := by
  cases e with
  | list m =>
    obtain ⟨categories, hm, rfl⟩ := Option.map_eq_some_iff.mp h
    exact .list hm
  | viewDidLoad purchase expiry => cases h; exact .opened
  | form j e =>
    obtain ⟨u, u', hu, hf, rfl⟩ := onTab_some h
    exact .turned rfl rfl hu (formEvent_turn hf)
  | warrantyPicked j originalImage =>
    obtain ⟨u, u', hu, hf, rfl⟩ := onTab_some h
    exact .turned rfl rfl hu (warrantyPicked_turn hf)
  | back j =>
    obtain ⟨u, u', hu, hf, rfl⟩ := onTab_some h
    exact .turned rfl rfl hu (back_turn hf)
  | nextButtonPressed j =>
    obtain ⟨u, hu, h⟩ := Option.bind_eq_some_iff.mp h
    exact next_turn hu h
  | upload e =>
    obtain ⟨hadmits, h⟩ := Option.ite_none_right_eq_some.mp h
    obtain ⟨uploads, hu, rfl⟩ := Option.map_eq_some_iff.mp h
    exact .upload hadmits hu

/-- A tab of the state after an event has turned or has just been opened. -/
theorem tab_step {s s' : AddFlow Image Bytes} (h : s.step L p e = some s') (htab : s'.tabs[i]? = some tab') :
    (∃ tab, s.tabs[i]? = some tab ∧ TabTurn L s.categories i tab e tab') ∨
      i = s.tabs.length ∧ ∃ purchase expiry, e = .viewDidLoad purchase expiry ∧
      tab' = AddTab.viewDidLoad purchase expiry := by
  have hset : ∀ {j : Nat} {u u' : AddTab Image} {tabs}, s.tabs[j]? = some u → tabs = s.tabs.set j u' →
      TabTurn L s.categories j u e u' → e.onTab = some j → tabs[i]? = some tab' →
      ∃ tab, s.tabs[i]? = some tab ∧ TabTurn L s.categories i tab e tab' := by
    intro j u u' tabs hu htabs hturn he htab
    by_cases hj : j = i
    · subst hj
      rw [htabs, List.getElem?_set_self (List.getElem?_eq_some_iff.mp hu).1] at htab
      obtain rfl := Option.some.inj htab
      exact ⟨u, hu, hturn⟩
    · rw [htabs, List.getElem?_set_ne hj] at htab
      refine ⟨tab', htab, .still ?_⟩
      rw [he]
      intro hi
      exact hj (Option.some.inj hi)
  cases flow_turn h with
  | list | upload => exact .inl ⟨tab', htab, .still (by simp [FlowEvent.onTab])⟩
  | turned he _ hu hturn => exact .inl (hset hu rfl hturn he htab)
  | pushed hu habove => exact .inl (hset hu rfl (.next habove (.inr ⟨_, rfl⟩)) rfl htab)
  | @opened purchase expiry =>
    by_cases hi : i < s.tabs.length
    · rw [List.getElem?_append_left hi] at htab
      exact .inl ⟨tab', htab, .still (by simp [FlowEvent.onTab])⟩
    · rw [List.getElem?_append_right (by omega)] at htab
      obtain ⟨hlt, htab⟩ := List.getElem?_eq_some_iff.mp htab
      rw [List.length_singleton] at hlt
      refine .inr ⟨by omega, purchase, expiry, rfl, ?_⟩
      rw [← htab, List.getElem_singleton]

/-! ## The uploads and the forms by themselves -/

theorem asUpload_step {s s' : AddFlow Image Bytes} (h : s.step L p e = some s') :
    Runs.run (Uploads.step p) s.uploads (asUpload s e) = some s'.uploads := by
  cases flow_turn h with
  | list | opened => rfl
  | turned _ hupload => rw [hupload]; rfl
  | pushed hu habove hproduct => simp only [asUpload, hu, Option.map_some, habove, hproduct]; rfl
  | upload _ hu => exact Runs.run_cons_some (Uploads.step p) hu

theorem form_turn (h : TabTurn L s.categories i tab e tab') :
    Runs.run (AddForm.step L) tab.form (moments i s e) = some tab'.form := by
  cases h with
  | still he =>
    have hmoments : moments i s e = [] := by
      cases e with
      | form j e => exact if_neg fun hj => he (congrArg some hj)
      | _ => rfl
    rw [hmoments]; rfl
  | form _ h =>
    rw [moments, if_pos rfl]
    exact Runs.run_cons_some (AddForm.step L) h
  | covered h =>
    rw [moments, if_pos rfl]
    exact Runs.run_cons_some (AddForm.step L) h
  | picked | next | back => rfl

theorem form_lt {s s' : AddFlow Image Bytes} {j : Nat} {e : FormEvent} (h : s.step L p (.form j e) = some s') :
    j < s.tabs.length := by
  obtain ⟨tab, -, htab, -, -⟩ := onTab_some h
  exact (List.getElem?_eq_some_iff.mp htab).1

theorem openings_onTab (he : e.onTab = some i) : openings e = none := by
  cases e with
  | viewDidLoad => cases he
  | _ => rfl

theorem tabs_length_step {s s' : AddFlow Image Bytes} (h : s.step L p e = some s') :
    s'.tabs.length = s.tabs.length + (openings e).toList.length := by
  cases flow_turn h with
  | list | upload => rfl
  | opened => exact List.length_append
  | turned he => rw [openings_onTab he]; exact List.length_set
  | pushed => exact List.length_set

variable {storage : Storage Bytes} {produts : Collection} {currentUser : Option String}
  {es : List (FlowEvent Image)}

theorem tabs_length (hrun : Runs.run (AddFlow.step L p) (launch storage produts currentUser) es = some s) :
    s.tabs.length = (es.filterMap openings).length := by
  refine Runs.run_history (I := fun s es => s.tabs.length = (es.filterMap openings).length) rfl ?_ hrun
  intro t es e t' _ ih ht
  rw [tabs_length_step ht, ih, List.filterMap_append, List.length_append]
  cases h : openings e <;> simp [h]

/-- A form has seen nothing before its tab is there. -/
theorem moments_unborn (hrun : Runs.run (AddFlow.step L p) (launch storage produts currentUser) es = some s) :
    ∀ i, s.tabs.length ≤ i → Runs.log (AddFlow.step L p) (moments i)
      (launch storage produts currentUser) es = [] := by
  refine Runs.run_history (I := fun s es => ∀ i, s.tabs.length ≤ i →
    Runs.log (AddFlow.step L p) (moments i) (launch storage produts currentUser) es = []) (fun _ _ => rfl) ?_ hrun
  intro t es e t' hes ih ht i hi
  rw [tabs_length_step ht] at hi
  rw [Runs.log_snoc _ hes, ih i (by omega), List.nil_append]
  cases e with
  | form j e =>
    have := form_lt ht
    exact if_neg (by omega)
  | _ => rfl

theorem tab_form_run (hrun : Runs.run (AddFlow.step L p) (launch storage produts currentUser) es = some s) :
    ∀ i tab, s.tabs[i]? = some tab → ∃ purchase expiry, (es.filterMap openings)[i]? = some (purchase, expiry) ∧
      Runs.run (AddForm.step L) (AddForm.viewDidLoad purchase expiry)
        (Runs.log (AddFlow.step L p) (moments i) (launch storage produts currentUser) es) = some tab.form := by
  refine Runs.run_history (I := fun s es => ∀ i tab, s.tabs[i]? = some tab → ∃ purchase expiry,
      (es.filterMap openings)[i]? = some (purchase, expiry) ∧
      Runs.run (AddForm.step L) (AddForm.viewDidLoad purchase expiry)
        (Runs.log (AddFlow.step L p) (moments i) (launch storage produts currentUser) es) = some tab.form)
    (fun i tab htab => by cases htab) ?_ hrun
  intro t es e t' hes ih ht i tab' htab'
  rw [Runs.log_snoc _ hes, List.filterMap_append]
  rcases tab_step ht htab' with ⟨tab, htab, hturn⟩ | ⟨hi, purchase, expiry, rfl, rfl⟩
  · obtain ⟨purchase, expiry, hopening, hform⟩ := ih i tab htab
    refine ⟨purchase, expiry, ?_, ?_⟩
    · rw [List.getElem?_append_left (List.getElem?_eq_some_iff.mp hopening).1, hopening]
    · rw [Runs.run_append, hform, Option.bind_some, form_turn hturn]
  · refine ⟨purchase, expiry, ?_, ?_⟩
    · rw [hi, tabs_length hes, List.getElem?_append_right (Nat.le_refl _), Nat.sub_self]
      rfl
    · rw [moments_unborn hes i (Nat.le_of_eq hi.symm)]
      rfl

theorem uploads_run (hrun : Runs.run (AddFlow.step L p) (launch storage produts currentUser) es = some s) :
    Runs.run (Uploads.step p) (Uploads.launch storage produts currentUser)
      (Runs.log (AddFlow.step L p) asUpload (launch storage produts currentUser) es) = some s.uploads :=
  Runs.run_log (I := fun _ => True) (g := AddFlow.uploads) (fun _ _ _ _ _ => trivial)
    (fun _ _ _ _ h => asUpload_step h) trivial hrun

/-- **The parts of the way.** The uploads and each tab's form go their own way. -/
theorem flow_parts (L : Locale) (p : Platform Image Bytes) (storage : Storage Bytes) (produts : Collection)
    (currentUser : Option String) (es : List (FlowEvent Image)) {s : AddFlow Image Bytes}
    (hrun : Runs.run (AddFlow.step L p) (launch storage produts currentUser) es = some s) :
    Runs.run (Uploads.step p) (Uploads.launch storage produts currentUser)
      (Runs.log (AddFlow.step L p) asUpload (launch storage produts currentUser) es) = some s.uploads ∧
    ∀ i tab, s.tabs[i]? = some tab → ∃ purchase expiry, (es.filterMap openings)[i]? = some (purchase, expiry) ∧
      Runs.run (AddForm.step L) (AddForm.viewDidLoad purchase expiry)
        (Runs.log (AddFlow.step L p) (moments i) (launch storage produts currentUser) es) = some tab.form := by
  exact ⟨uploads_run hrun, tab_form_run hrun⟩

/-! ## What a screen has been sent -/

/-- The form of tab `i` has been accepted, and `camera` is what the tab has made of it since. -/
def Sent (L : Locale) (p : Platform Image Bytes) (s : AddFlow Image Bytes) (es : List (FlowEvent Image)) (i : Nat)
    (camera : CameraVC Image) : Prop :=
  ∃ pre post t tab, es = pre ++ .form i .continueButtonPressed :: post ∧
    Runs.run (AddFlow.step L p) s pre = some t ∧
    t.tabs[i]? = some tab ∧ (tab.form.vc.continueButtonPressed Image).2 = camera.product ∧ camera.product.isSome ∧
    camera.warrantyImageView = (post.filterMap (picked i)).getLast?

def Above.camera? (above : Above Image) : Option (CameraVC Image) :=
  match above with
  | .nothing => none
  | .camera vc => some vc
  | .optionalData vc _ => some vc

theorem sent_append {s₀ : AddFlow Image Bytes} {camera : CameraVC Image} (h : Sent L p s₀ es i camera)
    (he : picked i e = none) : Sent L p s₀ (es ++ [e]) i camera := by
  obtain ⟨pre, post, t, tab, rfl, ht, htab, hproduct, hsome, himage⟩ := h
  refine ⟨pre, post ++ [e], t, tab, by simp, ht, htab, hproduct, hsome, ?_⟩
  rw [himage, List.filterMap_append, List.filterMap_cons_none he, List.filterMap_nil, List.append_nil]

/-- Continue pushes a new camera screen with the form's product. -/
theorem pushed_camera {e : FormEvent} {camera : CameraVC Image} (h : (tab.pushed e).camera? = some camera) :
    e = .continueButtonPressed ∧ (tab.form.vc.continueButtonPressed Image).2 = camera.product ∧
    camera.product.isSome ∧
      camera.warrantyImageView = none := by
  cases e with
  | continueButtonPressed =>
    simp only [AddTab.pushed] at h
    cases hproduct : (tab.form.vc.continueButtonPressed Image).2 with
    | none => rw [hproduct] at h; cases h
    | some product =>
      rw [hproduct] at h
      cases h
      exact ⟨rfl, rfl, rfl, rfl⟩
  | _ => cases h

/-- Next changes nothing of the camera screen but its error. -/
theorem sent_next {s₀ : AddFlow Image Bytes} {camera : CameraVC Image} (h : Sent L p s₀ es i camera) :
    Sent L p s₀ es i camera.nextButtonPressed.1 := by
  have hsame : camera.nextButtonPressed.1.product = camera.product ∧
      camera.nextButtonPressed.1.warrantyImageView = camera.warrantyImageView := by
    unfold CameraVC.nextButtonPressed
    split <;> exact ⟨rfl, rfl⟩
  unfold Sent
  rw [hsame.1, hsame.2]
  exact h

theorem sent_turn {s₀ : AddFlow Image Bytes} (hes : Runs.run (AddFlow.step L p) s₀ es = some s)
    (htab : s.tabs[i]? = some tab) (h : ∀ camera, tab.above.camera? = some camera → Sent L p s₀ es i camera)
    (hturn : TabTurn L s.categories i tab e tab') :
    ∀ camera, tab'.above.camera? = some camera → Sent L p s₀ (es ++ [e]) i camera := by
  intro camera hcamera
  cases hturn with
  | still he =>
    refine sent_append (h camera hcamera) ?_
    cases e with
    | warrantyPicked j image => exact if_neg fun hj => he (congrArg some hj)
    | _ => rfl
  | form =>
    obtain ⟨rfl, hproduct, hsome, himage⟩ := pushed_camera hcamera
    exact ⟨es, [], s, tab, rfl, hes, htab, hproduct, hsome, himage⟩
  | covered => exact sent_append (h camera hcamera) rfl
  | @picked camera₀ habove originalImage =>
    cases hcamera
    have hsent := h camera₀ (by rw [habove]; rfl)
    cases originalImage with
    | none => exact sent_append hsent (by simp [picked])
    | some image =>
      obtain ⟨pre, post, t, u, rfl, ht, hu, hproduct, hsome, -⟩ := hsent
      refine ⟨pre, post ++ [.warrantyPicked i (some image)], t, u, by simp, ht, hu, hproduct, hsome, ?_⟩
      simp [picked, CameraVC.imagePickerController]
  | @next camera₀ above habove hnext =>
    have hcamera' : camera = camera₀.nextButtonPressed.1 := by
      rcases hnext with rfl | ⟨vc, rfl⟩ <;> exact (Option.some.inj hcamera).symm
    rw [hcamera']
    exact sent_next (sent_append (h camera₀ (by rw [habove]; rfl)) rfl)
  | @back above hback =>
    rcases hback with rfl | ⟨camera₀, vc, habove, rfl⟩
    · cases hcamera
    · cases hcamera
      exact sent_append (h camera (by rw [habove]; rfl)) rfl

/-- The product is what a Next has sent on from a camera that Continue had sent it to. -/
def Handed (L : Locale) (p : Platform Image Bytes) (s : AddFlow Image Bytes) (es : List (FlowEvent Image))
    (product : ProductComponents Image) : Prop :=
  ∃ i pre post camera, es = pre ++ .nextButtonPressed i :: post ∧ Sent L p s pre i camera ∧
    camera.nextButtonPressed.2 = some product

theorem handed_append {s₀ : AddFlow Image Bytes} {product : ProductComponents Image} (h : Handed L p s₀ es product)
    (e : FlowEvent Image) : Handed L p s₀ (es ++ [e]) product := by
  obtain ⟨i, pre, post, camera, rfl, hsent, hproduct⟩ := h
  exact ⟨i, pre, post ++ [e], camera, by simp, hsent, hproduct⟩

theorem controllers_before {u u' : Uploads Image Bytes} {e : UploadEvent Image}
    (he : ∀ product, e ≠ .viewDidLoad product) (h : u.step p e = some u') :
    ∀ vc ∈ u'.controllers, ∃ vc₀ ∈ u.controllers, vc.product = vc₀.product := by
  have hset : ∀ {j vc vc'}, u.controllers[j]? = some vc → vc'.product = vc.product →
      ∀ d ∈ u.controllers.set j vc', ∃ vc₀ ∈ u.controllers, d.product = vc₀.product := by
    intro j vc vc' hvc hproduct
    exact Listing.forall_mem_set (fun d hd => ⟨d, hd, rfl⟩) ⟨vc, List.mem_of_getElem? hvc, hproduct⟩
  cases e with
  | viewDidLoad product => exact absurd rfl (he product)
  | notesChanged j notes =>
    obtain ⟨vc, hvc, rfl⟩ := Option.map_eq_some_iff.mp h
    exact hset hvc rfl
  | imagePicked j image =>
    obtain ⟨vc, hvc, rfl⟩ := Option.map_eq_some_iff.mp h
    refine hset hvc ?_
    cases image <;> rfl
  | authChanged uid => cases h; exact fun vc hvc => ⟨vc, hvc, rfl⟩
  | nextButtonPressed j uuid =>
    obtain rfl | ⟨-, hcontrollers, -⟩ := step_tap h
    · exact fun vc hvc => ⟨vc, hvc, rfl⟩
    · rw [hcontrollers]
      exact fun vc hvc => ⟨vc, hvc, rfl⟩
  | success k uuid =>
    obtain ⟨c, vc, -, hvc, huuid, h⟩ := step_success h
    cases succeed_hop huuid hvc h <;> exact fun vc hvc => ⟨vc, hvc, rfl⟩
  | failure k =>
    obtain ⟨c, -, h⟩ := Option.bind_eq_some_iff.mp h
    cases fail_stop h <;> exact fun vc hvc => ⟨vc, hvc, rfl⟩

/-- What the screens, the controllers and the chains of a run have been sent. -/
structure Sourced (L : Locale) (p : Platform Image Bytes) (s₀ : AddFlow Image Bytes) (es : List (FlowEvent Image))
    (s : AddFlow Image Bytes) : Prop where
  tabs : ∀ i tab, s.tabs[i]? = some tab → ∀ camera, tab.above.camera? = some camera → Sent L p s₀ es i camera
  controllers : ∀ vc ∈ s.uploads.controllers, ∀ product, vc.product = some product → Handed L p s₀ es product
  chains : ∀ c ∈ s.uploads.chains, Handed L p s₀ es c.finalProduct

theorem sourced_uploads {s₀ s s' : AddFlow Image Bytes} (hs : Sourced L p s₀ es s)
    (h : s.step L p e = some s') :
    (∀ vc ∈ s'.uploads.controllers, ∀ product, vc.product = some product → Handed L p s₀ (es ++ [e]) product) ∧
      ∀ c ∈ s'.uploads.chains, Handed L p s₀ (es ++ [e]) c.finalProduct := by
  have hsame : s'.uploads = s.uploads →
      (∀ vc ∈ s'.uploads.controllers, ∀ product, vc.product = some product → Handed L p s₀ (es ++ [e]) product) ∧
        ∀ c ∈ s'.uploads.chains, Handed L p s₀ (es ++ [e]) c.finalProduct := by
    intro hu
    rw [hu]
    exact ⟨fun vc hvc product hproduct => handed_append (hs.controllers vc hvc product hproduct) e,
      fun c hc => handed_append (hs.chains c hc) e⟩
  cases flow_turn h with
  | list | opened | turned => exact hsame rfl
  | @pushed j u camera product hu habove hproduct =>
    refine ⟨Listing.forall_mem_snoc.mpr ⟨fun vc hvc product hvcp => ?_, fun product' hproduct' => ?_⟩,
      fun c hc => ?_⟩
    · exact handed_append (hs.controllers vc hvc product hvcp) _
    · obtain rfl := Option.some.inj hproduct'
      exact ⟨j, es, [], camera, rfl, hs.tabs j u hu camera (by rw [habove]; rfl), hproduct⟩
    · exact handed_append (hs.chains c hc) _
  | @upload e uploads hadmits hstep =>
    have hload : ∀ product, e ≠ .viewDidLoad product := by
      rintro product rfl
      cases hadmits
    refine ⟨fun vc hvc product hproduct => ?_, fun c hc => ?_⟩
    · obtain ⟨vc₀, hvc₀, hsame⟩ := controllers_before hload hstep vc hvc
      exact handed_append (hs.controllers vc₀ hvc₀ product (hsame.symm.trans hproduct)) _
    · obtain ⟨k, hk⟩ := List.mem_iff_getElem?.mp hc
      rcases chain_before hstep hk with ⟨d, hd, -, hproduct⟩ | ⟨-, uuid, vc, -, hvc, hproduct⟩
      · rw [hproduct]
        exact handed_append (hs.chains d (List.mem_of_getElem? hd)) _
      · exact handed_append (hs.controllers vc (List.mem_of_getElem? hvc) _ hproduct) _

theorem sourced_run (hrun : Runs.run (AddFlow.step L p) (launch storage produts currentUser) es = some s) :
    Sourced L p (launch storage produts currentUser) es s := by
  refine Runs.run_history (I := fun s es => Sourced L p (launch storage produts currentUser) es s) ?_ ?_ hrun
  · refine ⟨fun i tab htab => ?_, fun vc hvc => ?_, fun c hc => ?_⟩
    · cases htab
    · cases hvc
    · cases hc
  · intro t es e t' hes hs ht
    obtain ⟨hcontrollers, hchains⟩ := sourced_uploads hs ht
    refine ⟨fun i tab' htab' => ?_, hcontrollers, hchains⟩
    rcases tab_step ht htab' with ⟨tab, htab, hturn⟩ | ⟨-, purchase, expiry, -, rfl⟩
    · exact sent_turn hes htab (hs.tabs i tab htab) hturn
    · intro camera hcamera
      cases hcamera

/-! ## The names of the categories -/

/-- The text is empty or the name of a category in one of the documents. -/
def NamedIn (documents : List Document) (text : String) : Prop :=
  text = "" ∨ ∃ d ∈ documents, d.data.string "categoryName" = some text

def Loaded (documents : List Document) (categories : List Category) : Prop :=
  ∀ category ∈ categories, ∃ d ∈ documents, Category.ofData d.data = category

section
variable {documents documents' : List Document} {categories : List Category}

theorem namedIn_mono (h : documents ⊆ documents') {text : String} (ht : NamedIn documents text) :
    NamedIn documents' text := by
  rcases ht with ht | ⟨d, hd, hname⟩
  · exact .inl ht
  · exact .inr ⟨d, h hd, hname⟩

theorem namedIn_nameOf (h : Loaded documents categories) (row : Nat) :
    NamedIn documents (nameOf categories row) := by
  unfold nameOf
  cases hc : categories[row]? with
  | none => exact .inl rfl
  | some category =>
    obtain ⟨d, hd, rfl⟩ := h category (List.mem_of_getElem? hc)
    cases hname : d.data.string "categoryName" with
    | none => exact .inl (by simp [Category.ofData, hname])
    | some name => exact .inr ⟨d, hd, by simp [Category.ofData, hname]⟩

theorem namedIn_step {form form' : AddForm} {e : FormEvent} (h : Loaded documents categories)
    (ht : NamedIn documents form.vc.categoryTextField) (hstep : form.step L (categories, e) = some form') :
    NamedIn documents form'.vc.categoryTextField := by
  rw [step_category hstep]
  cases e with
  | didSelectRow row => exact namedIn_nameOf h row
  | closePickerView => exact namedIn_nameOf h form.currentIndex
  | _ => exact ht

theorem loaded_step {e : MirrorEvent} {categories' : List Category} (h : Loaded documents categories)
    (hstep : Mirror.step categories e = some categories') :
    Loaded (documents ++ heard (.list e : FlowEvent Image)) categories' := by
  cases e with
  | listener vc callback =>
    rw [mirror_listener hstep]
    cases callback with
    | error => intro category hc; cases hc
    | snapshot value =>
      intro category hc
      obtain ⟨d, hd, rfl⟩ := List.mem_map.mp hc
      exact ⟨d, List.mem_append_right _ hd, rfl⟩
  | remove row =>
    obtain ⟨-, rfl⟩ := removeAt_some hstep
    intro category hc
    obtain ⟨d, hd, hdc⟩ := h category (List.mem_of_mem_eraseIdx hc)
    exact ⟨d, List.mem_append_left _ hd, hdc⟩

end

structure Heard (documents : List Document) (s : AddFlow Image Bytes) : Prop where
  categories : Loaded documents s.categories
  texts : ∀ (i : Nat) (tab : AddTab Image), s.tabs[i]? = some tab → NamedIn documents tab.form.vc.categoryTextField

theorem categories_step {s s' : AddFlow Image Bytes} (h : s.step L p e = some s') :
    (∃ m, e = .list m ∧ Mirror.step s.categories m = some s'.categories) ∨ s'.categories = s.categories := by
  cases flow_turn h with
  | list hm => exact .inl ⟨_, rfl, hm⟩
  | opened | turned | pushed | upload => exact .inr rfl

theorem heard_step {s s' : AddFlow Image Bytes} {documents : List Document} (hh : Heard documents s)
    (h : s.step L p e = some s') : Heard (documents ++ heard e) s' := by
  have hsub : documents ⊆ documents ++ heard e := List.subset_append_left _ _
  refine ⟨?_, fun i tab' htab' => ?_⟩
  · rcases categories_step h with ⟨m, rfl, hm⟩ | hsame
    · exact loaded_step hh.categories hm
    · rw [hsame]
      intro category hc
      obtain ⟨d, hd, hdc⟩ := hh.categories category hc
      exact ⟨d, hsub hd, hdc⟩
  · apply namedIn_mono hsub
    rcases tab_step h htab' with ⟨tab, htab, hturn⟩ | ⟨-, purchase, expiry, -, rfl⟩
    · have ht := hh.texts i tab htab
      cases hturn with
      | form _ hform => exact namedIn_step hh.categories ht hform
      | covered hform => exact namedIn_step hh.categories ht hform
      | still | picked | next | back => exact ht
    · exact .inl rfl

theorem heard_run (hrun : Runs.run (AddFlow.step L p) (launch storage produts currentUser) es = some s) :
    Heard (es.flatMap heard) s := by
  refine Runs.run_history (I := fun s es => Heard (es.flatMap heard) s) ?_ ?_ hrun
  · refine ⟨fun category hc => ?_, fun i tab htab => ?_⟩
    · cases hc
    · cases htab
  · intro t es e t' _ ih ht
    rw [List.flatMap_append, List.flatMap_singleton]
    exact heard_step ih ht

/-! ## What is saved -/

theorem nextButtonPressed_iff {camera : CameraVC Image} {product : ProductComponents Image} :
    camera.nextButtonPressed.2 = some product ↔ ∃ image, camera.warrantyImageView = some image ∧
      product = ⟨camera.product.bind (·.productName), camera.product.bind (·.purchaseDate),
        camera.product.bind (·.expiryDate), camera.product.bind (·.category), some image, none, none⟩ := by
  unfold CameraVC.nextButtonPressed
  cases camera.warrantyImageView with
  | none => simp
  | some image => simp [eq_comm]

/-- What Next sends on of a form and a picked image. -/
def collected (form : AddProductVC) (image : Image) : ProductComponents Image :=
  ⟨some form.productNameTextField, some form.purchaseDateTextField, some form.expiryDateTextField,
    some form.categoryTextField, some image, none, none⟩

/-- A tab had this form at a Continue, and this image as the last one picked before a Next that followed. -/
def Collected (L : Locale) (p : Platform Image Bytes) (s : AddFlow Image Bytes) (es : List (FlowEvent Image))
    (form : AddProductVC) (image : Image) : Prop :=
  ∃ i pre mid post t tab, es = pre ++ .form i .continueButtonPressed :: (mid ++ .nextButtonPressed i :: post) ∧
    Runs.run (AddFlow.step L p) s pre = some t ∧ t.tabs[i]? = some tab ∧ tab.form.vc = form ∧
    (mid.filterMap (picked i)).getLast? = some image

theorem handed_form {s₀ : AddFlow Image Bytes} {product : ProductComponents Image} (h : Handed L p s₀ es product) :
    ∃ form image, Collected L p s₀ es form image ∧ form.validateFields = none ∧
    product = collected form image := by
  obtain ⟨i, pre', post, camera, rfl, ⟨pre, mid, t, tab, rfl, ht, htab, hproduct, hsome, himage⟩, hnext⟩ := h
  obtain ⟨product', hsent⟩ := Option.isSome_iff_exists.mp hsome
  obtain ⟨image, hi, rfl⟩ := nextButtonPressed_iff.mp hnext
  obtain ⟨hvalid, rfl⟩ := continueButtonPressed_iff.mp (hproduct.trans hsent)
  refine ⟨tab.form.vc, image, ⟨i, pre, mid, post, t, tab, ?_, ht, htab, rfl, himage.symm.trans hi⟩, hvalid, ?_⟩
  · rw [List.append_assoc, List.cons_append]
  · rw [hsent]; rfl

end

/-! ## A run -/

/-- The phone's documents come, its form is filled, its receipt picked, and it is saved. -/
def phoneFlow : List (FlowEvent String) :=
  [.list (.listener none (.snapshot [⟨"1", [("categoryID", .string "1"), ("categoryName", .string "Phones")]⟩])),
    .viewDidLoad 18983 19347, .form 0 (.productNameChanged "Phone"), .form 0 .showPicker,
    .form 0 (.titleForRow 0), .form 0 .closePickerView, .form 0 (.editingBegan .purchase), .form 0 .donePressed,
    .form 0 .continueButtonPressed, .warrantyPicked 0 (some "receipt"), .nextButtonPressed 0,
    .upload (.notesChanged 0 "blue"), .upload (.nextButtonPressed 0 "A"), .upload (.success 0 "B"),
    .upload (.success 0 "C"), .upload (.success 0 "D")]

theorem flow_parts_phone : ∃ s, Runs.run (AddFlow.step en_US textImages)
    (launch ∅ ∅ (some "u")) phoneFlow = some s ∧
    Runs.run (Uploads.step textImages) (Uploads.launch ∅ ∅ (some "u"))
      (Runs.log (AddFlow.step en_US textImages) asUpload (launch ∅ ∅ (some "u")) phoneFlow) = some s.uploads :=
  ⟨_, rfl, (flow_parts en_US textImages ∅ ∅ (some "u") phoneFlow rfl).1⟩

end WarrantyGuard
