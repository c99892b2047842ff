import Mathlib.Data.List.TakeWhile
import WarrantyGuard.SignUp

/-!
# What a sign-up accepts and leaves

The password's expression accepts the texts of its set that have eight
characters and a digit, a lower-case and an upper-case letter among them,
anywhere: the look-aheads cannot see a line terminator or a digit that the set
does not have. A sign-up leaves an account, a document and Home together, or an
error and none of them, unless the screen was left or the document was not saved.
-/

namespace WarrantyGuard

open Regexes SignUp

/-! ## The password -/

theorem between_digit : between '0' '9' = Char.isDigit := rfl

theorem between_lower : between 'a' 'z' = Char.isLower := rfl

theorem between_upper : between 'A' 'Z' = Char.isUpper := by
  funext c
  exact (Bool.decide_and ('A'.val ≤ c.val) (c.val ≤ 'Z'.val)).symm

theorem passwordSet_iff (c : Char) :
    passwordSet c ↔ c.isDigit ∨ c.isLower ∨ c.isUpper ∨ c ∈ punctuation := by
  simp [passwordSet, between_digit, between_lower, between_upper, or_assoc]

theorem punctuation_toNat : ∀ c ∈ punctuation, 32 < c.toNat ∧ (c.toNat < 128 ∨ c = '\u2019') := by
  intro c hc
  have hall : (punctuation.all fun c => 32 < c.toNat && (c.toNat < 128 || c == '\u2019')) = true := by decide
  simpa using List.all_eq_true.mp hall c hc

theorem between_toNat {a z c : Char} (h : between a z c) : a.toNat ≤ c.toNat ∧ c.toNat ≤ z.toNat := by
  simpa [between, Char.le_def, UInt32.le_iff_toNat_le] using h

theorem passwordSet_toNat {c : Char} (h : passwordSet c) : 32 < c.toNat ∧ (c.toNat < 128 ∨ c = '\u2019') := by
  simp only [passwordSet, Bool.or_eq_true, List.contains_eq_mem, decide_eq_true_eq] at h
  obtain ((h | h) | h) | h := h
  · have hd : 48 ≤ c.toNat ∧ c.toNat ≤ 57 := between_toNat h
    exact ⟨by omega, .inl (by omega)⟩
  · have hl : 97 ≤ c.toNat ∧ c.toNat ≤ 122 := between_toNat h
    exact ⟨by omega, .inl (by omega)⟩
  · have hu : 65 ≤ c.toNat ∧ c.toNat ≤ 90 := between_toNat h
    exact ⟨by omega, .inl (by omega)⟩
  · exact punctuation_toNat c h

theorem not_isLineTerminator {c : Char} (h : passwordSet c) : isLineTerminator c = false := by
  obtain ⟨h₁, h₂⟩ := passwordSet_toNat h
  rcases h₂ with h₂ | rfl
  · simp [isLineTerminator]
    omega
  · decide

theorem isDecimalDigit_eq (u : DecimalDigits) {c : Char} (h : passwordSet c) : u.isDecimalDigit c = c.isDigit := by
  rcases (passwordSet_toNat h).2 with h | rfl
  · exact u.ascii c h
  · exact u.quotation

theorem mem_rests_lookAhead {text l : List Char} {p : Char → Bool} (hl : ∀ c ∈ l, passwordSet c) :
    l ∈ rests text (lookAhead p) l ↔ ∃ c ∈ l, p c := by
  have hdot : ∀ c ∈ l, !isLineTerminator c := fun c hc => by simp [not_isLineTerminator (hl c hc)]
  rw [lookAhead, mem_rests_ahead_set hdot]
  simp

theorem isPasswordValid_iff (u : DecimalDigits) (password : String) :
    SignUpVC.isPasswordValid u password ↔ (∀ c ∈ password.toList, passwordSet c) ∧ 8 ≤ password.length ∧
      (∃ c ∈ password.toList, c.isDigit) ∧ (∃ c ∈ password.toList, c.isLower) ∧
      ∃ c ∈ password.toList, c.isUpper := by
  -- read from the left: each look-ahead is a condition, and the rest goes on from the same place
  have hseq : ∀ {p s} {l m : List Char}, m ∈ rests password.toList (.seq (lookAhead p) s) l ↔
      l ∈ rests password.toList (lookAhead p) l ∧ m ∈ rests password.toList s l := mem_rests_seq_ahead
  rw [SignUpVC.isPasswordValid, isMatch_iff, passwordPattern, mem_rests_seq_start, hseq, hseq, hseq,
    nil_mem_rests_seq_stop, mem_rests_atLeast_set, between_lower, between_upper]
  simp only [List.append_nil, exists_eq_left', String.length_toList, true_and]
  have hdigit : (∀ c ∈ password.toList, passwordSet c) →
      ((∃ c ∈ password.toList, u.isDecimalDigit c) ↔ ∃ c ∈ password.toList, c.isDigit) := fun h => by
    refine exists_congr fun c => and_congr_right fun hc => ?_
    rw [isDecimalDigit_eq u (h c hc)]
  constructor
  · intro h
    obtain ⟨hd, hl, hu, hn, hset⟩ := h
    rw [mem_rests_lookAhead hset] at hd hl hu
    exact ⟨hset, hn, (hdigit hset).mp hd, hl, hu⟩
  · intro h
    obtain ⟨hset, hn, hd, hl, hu⟩ := h
    simp only [mem_rests_lookAhead hset]
    exact ⟨(hdigit hset).mpr hd, hl, hu, hn, hset⟩

theorem isPasswordValid_perm (u : DecimalDigits) {password password' : String}
    (h : password.toList.Perm password'.toList) :
    SignUpVC.isPasswordValid u password = SignUpVC.isPasswordValid u password' := by
  have hlen : password.length = password'.length := by
    rw [← String.length_toList, ← String.length_toList]
    exact h.length_eq
  rw [Bool.eq_iff_iff, isPasswordValid_iff, isPasswordValid_iff]
  simp only [h.mem_iff, hlen]

/-- What the form accepts: three texts that are not blank, and a password of eight
characters of the set with a digit, a lower-case and an upper-case letter. -/
theorem signUp_accepts_iff (u : DecimalDigits) (vc : SignUpVC) :
    let password := trimmingCharacters vc.passwordTextField
    vc.validateFields u = none ↔
      trimmingCharacters vc.firstNameTextField ≠ "" ∧ trimmingCharacters vc.lastNameTextField ≠ "" ∧
      trimmingCharacters vc.emailTextField ≠ "" ∧
      (∀ c ∈ password.toList, c.isDigit ∨ c.isLower ∨ c.isUpper ∨ c ∈ punctuation) ∧ 8 ≤ password.length ∧
      (∃ c ∈ password.toList, c.isDigit) ∧ (∃ c ∈ password.toList, c.isLower) ∧
      ∃ c ∈ password.toList, c.isUpper := by
  intro password
  have hvalid := isPasswordValid_iff u password
  simp only [passwordSet_iff] at hvalid
  rw [← hvalid, SignUpVC.validateFields]
  constructor
  · intro h
    by_cases hblank : trimmingCharacters vc.firstNameTextField = "" ∨
      trimmingCharacters vc.lastNameTextField = "" ∨
        trimmingCharacters vc.emailTextField = "" ∨ trimmingCharacters vc.passwordTextField = ""
    · simp [hblank] at h
    · simp only [hblank, if_false] at h
      simp only [not_or] at hblank
      refine ⟨hblank.1, hblank.2.1, hblank.2.2.1, ?_⟩
      cases hp : SignUpVC.isPasswordValid u password with
      | true => rfl
      | false => simp [password, hp] at h
  · intro h
    obtain ⟨hfirst, hlast, hemail, hp⟩ := h
    have hpassword : trimmingCharacters vc.passwordTextField ≠ "" := by
      intro hempty
      have hn := (hvalid.mp hp).2.1
      simp [password, hempty] at hn
    simp [hfirst, hlast, hemail, hpassword]
    exact hp

/-! ## The account, its document and Home -/

def Documented (users : Collection) (uid : String) : Prop :=
  ∃ id data, users.lookup id = some data ∧ data.string "uid" = some uid

def SavedAs (users : Collection) (uid firstName lastName : String) : Prop :=
  ∃ id data, users.lookup id = some data ∧ data.string "uid" = some uid ∧
    data.string "firstname" = some firstName ∧ data.string "lastname" = some lastName

/-- All of a sign-up or, with an error in sight, nothing of it. -/
def Atomic (s : SignUp) (firstName lastName : String) : Prop :=
  (∃ uid, s.account = some uid ∧ SavedAs s.users uid firstName lastName ∧ s.isHome) ∨
    (s.isHome = false ∧ s.errorShown ∧ ∀ uid, s.account = some uid → Documented s.users uid)

def appearance : SignUpEvent → Option Bool
  | .appears appears => some appears
  | _ => none

/-- Whether the screen that was there at the tap is in the window after the events. -/
def shown (es : List SignUpEvent) : Bool := (es.filterMap appearance).getLast?.getD true

def isCreation : SignUpEvent → Bool
  | .createUserCompleted (some _) _ => true
  | _ => false

def beforeCreation (es : List SignUpEvent) : List SignUpEvent := es.takeWhile (!isCreation ·)

theorem shown_snoc (es : List SignUpEvent) (e : SignUpEvent) :
    shown (es ++ [e]) = (appearance e).getD (shown es) :=
  Runs.last_snoc appearance true es e

theorem beforeCreation_snoc {es : List SignUpEvent} {e : SignUpEvent} (h : es.any isCreation = true) :
    beforeCreation (es ++ [e]) = beforeCreation es := by
  unfold beforeCreation
  rw [List.takeWhile_append, if_neg]
  intro hlen
  obtain ⟨a, ha, hc⟩ := List.any_eq_true.mp h
  have he := (List.takeWhile_prefix (l := es) (p := (!isCreation ·))).eq_of_length hlen
  have := List.takeWhile_eq_self_iff.mp he a ha
  simp [hc] at this

theorem beforeCreation_creation {es : List SignUpEvent} {e : SignUpEvent} (h : es.any isCreation = false)
    (he : isCreation e = true) : beforeCreation (es ++ [e]) = es := by
  unfold beforeCreation
  rw [List.takeWhile_append_of_pos fun a ha => by simp [List.any_eq_false.mp h a ha]]
  simp [he]

theorem hasUser_iff {users : Collection} {uid : String} : hasUser users uid ↔ Documented users uid := by
  unfold hasUser Documented
  rw [List.any_eq_true]
  constructor
  · intro h
    obtain ⟨⟨id, data⟩, hd, hu⟩ := h
    exact ⟨id, data, Listing.mem_entries.mp hd, eq_of_beq hu⟩
  · intro h
    obtain ⟨id, data, hd, hu⟩ := h
    exact ⟨⟨id, data⟩, Listing.mem_entries.mpr hd, beq_iff_eq.mpr hu⟩

theorem savedAs_setData (users : Collection) (documentID firstName lastName uid : String) :
    SavedAs (users.setData documentID (userData firstName lastName uid)) uid firstName lastName :=
  ⟨documentID, userData firstName lastName uid, AList.lookup_insert _, rfl, rfl, rfl⟩

theorem not_documented_delete {users : Collection} {documentID uid : String} {data : Data}
    (h : hasUser users uid = false) : ¬ Documented ((users.setData documentID data).delete documentID) uid := by
  intro hd
  obtain ⟨id, data', hl, hu⟩ := hd
  by_cases hid : id = documentID
  · subst hid
    rw [Collection.delete, AList.lookup_erase] at hl
    cases hl
  · rw [Collection.delete, AList.lookup_erase_ne hid, Collection.setData, AList.lookup_insert_ne hid] at hl
    have := hasUser_iff.mpr ⟨id, data', hl, hu⟩
    rw [h] at this
    cases this

/-! ## Up to the last callback -/

structure Unmade (s : SignUp) (es : List SignUpEvent) : Prop where
  creation : es.any isCreation = false
  account : s.account = none
  isHome : s.isHome = false
  inWindow : s.inWindow = shown es

/-- The account is made: Home is shown if the sign-up screen was in the window then. -/
structure Made (uid : String) (s : SignUp) (es : List SignUpEvent) : Prop where
  creation : es.any isCreation = true
  account : s.account = some uid
  isHome : s.isHome = shown (beforeCreation es)
  inWindow : s.isHome = false → s.inWindow = shown es

/-- The callback each phase waits for, and what the callbacks so far have done. -/
inductive Progress (vc : SignUpVC) (users : Collection) (firstName lastName : String) (s : SignUp)
    (es : List SignUpEvent) : Prop where
  | creating {email password : String} (h : Unmade s es)
      (hcall : s.call = some (.createUser firstName lastName email password)) (halpha : s.vc.alpha = vc.alpha)
      (husers : s.users = users) (hsaved : .addDocumentCompleted true ∉ es)
  | failed (h : Unmade s es) (hcall : s.call = none) (halpha : s.vc.alpha = 1)
  | saving {uid documentID : String} (h : Made uid s es) (hcall : s.call = some (.addDocument documentID))
      (halpha : s.vc.alpha = vc.alpha) (hfresh : hasUser users uid = false)
      (husers : s.users = users.setData documentID (userData firstName lastName uid))
      (hsaved : .addDocumentCompleted true ∉ es)
  | saved {uid : String} (h : Made uid s es) (hcall : s.call = none) (halpha : s.vc.alpha = vc.alpha)
      (husers : SavedAs s.users uid firstName lastName) (hsaved : .addDocumentCompleted true ∈ es)
  | unsaved {uid : String} (h : Made uid s es) (hcall : s.call = none) (husers : ¬ Documented s.users uid)
      (hsaved : .addDocumentCompleted true ∉ es)

structure Quiet (s : SignUp) (e : SignUpEvent) (s' : SignUp) : Prop where
  creation : isCreation e = false
  saved : .addDocumentCompleted true ≠ e
  call : s'.call = s.call
  account : s'.account = s.account
  users : s'.users = s.users
  isHome : s'.isHome = s.isHome
  alpha : s'.vc.alpha = s.vc.alpha
  inWindow : s'.inWindow = (appearance e).getD s.inWindow

section
variable {s s' : SignUp} {e : SignUpEvent} {es : List SignUpEvent}

theorem unmade_quiet (hq : Quiet s e s') (h : Unmade s es) : Unmade s' (es ++ [e]) where
  creation := by simp [h.creation, hq.creation]
  account := hq.account.trans h.account
  isHome := hq.isHome.trans h.isHome
  inWindow := by rw [hq.inWindow, shown_snoc, h.inWindow]

theorem made_quiet {uid : String} (hq : Quiet s e s') (h : Made uid s es) : Made uid s' (es ++ [e]) where
  creation := by simp [h.creation]
  account := hq.account.trans h.account
  isHome := by rw [hq.isHome, beforeCreation_snoc h.creation, h.isHome]
  inWindow := fun hh => by rw [hq.inWindow, shown_snoc, h.inWindow (hq.isHome.symm.trans hh)]

theorem progress_quiet {vc : SignUpVC} {users : Collection} {firstName lastName : String} (hq : Quiet s e s')
    (hp : Progress vc users firstName lastName s es) : Progress vc users firstName lastName s' (es ++ [e]) := by
  have hmem : .addDocumentCompleted true ∈ es ++ [e] ↔ .addDocumentCompleted true ∈ es := by simp [hq.saved]
  cases hp with
  | creating h hcall halpha husers hsaved =>
    exact .creating (unmade_quiet hq h) (hq.call.trans hcall) (hq.alpha.trans halpha) (hq.users.trans husers)
      (hmem.not.mpr hsaved)
  | failed h hcall halpha => exact .failed (unmade_quiet hq h) (hq.call.trans hcall) (hq.alpha.trans halpha)
  | saving h hcall halpha hfresh husers hsaved =>
    exact .saving (made_quiet hq h) (hq.call.trans hcall) (hq.alpha.trans halpha) hfresh (hq.users.trans husers)
      (hmem.not.mpr hsaved)
  | saved h hcall halpha husers hsaved =>
    exact .saved (made_quiet hq h) (hq.call.trans hcall) (hq.alpha.trans halpha) (hq.users ▸ husers)
      (hmem.mpr hsaved)
  | unsaved h hcall husers hsaved =>
    exact .unsaved (made_quiet hq h) (hq.call.trans hcall) (hq.users ▸ husers) (hmem.not.mpr hsaved)

theorem step_cases (h : s.step e = some s') : Quiet s e s' ∨
    (∃ firstName lastName email password uid documentID, e = .createUserCompleted uid documentID ∧
      s.call = some (.createUser firstName lastName email password) ∧
      s.createUserCompleted firstName lastName uid documentID = some s') ∨
    ∃ documentID succeeds, e = .addDocumentCompleted succeeds ∧ s.call = some (.addDocument documentID) ∧
      s' = s.addDocumentCompleted documentID succeeds := by
  cases e with
  | fieldsChanged firstName lastName email password =>
    obtain rfl := Option.some.inj h
    exact .inl ⟨rfl, nofun, rfl, rfl, rfl, rfl, rfl, rfl⟩
  | appears appears =>
    simp only [SignUp.step] at h
    split at h
    · cases h
    · obtain rfl := Option.some.inj h
      exact .inl ⟨rfl, nofun, rfl, rfl, rfl, rfl, rfl, rfl⟩
  | createUserCompleted uid documentID =>
    simp only [SignUp.step] at h
    split at h
    · exact .inr (.inl ⟨_, _, _, _, uid, documentID, rfl, ‹_›, h⟩)
    · cases h
  | addDocumentCompleted succeeds =>
    simp only [SignUp.step] at h
    split at h
    · exact .inr (.inr ⟨_, succeeds, rfl, ‹_›, (Option.some.inj h).symm⟩)
    · cases h

end

section
variable {vc : SignUpVC} {users : Collection} {firstName lastName : String} {s s' : SignUp} {es : List SignUpEvent}

theorem made_transitionToHome {uid documentID : String} (hc : es.any isCreation = false)
    (ha : s.account = some uid) (hh : s.isHome = false) (hw : s.inWindow = shown es) :
    Made uid s.transitionToHome (es ++ [.createUserCompleted (some uid) documentID]) := by
  refine ⟨by simp [isCreation], by simp [ha], ?_, fun hhome => ?_⟩
  · rw [beforeCreation_creation hc rfl, transitionToHome_isHome, hh, hw, Bool.or_false]
  · simp only [transitionToHome_isHome, hw, Bool.or_eq_false_iff] at hhome
    rw [transitionToHome_inWindow, shown_snoc]
    exact hhome.1.symm

theorem progress_createUser {uid : Option String} {documentID : String} (h : Unmade s es)
    (halpha : s.vc.alpha = vc.alpha) (husers : s.users = users) (hsaved : .addDocumentCompleted true ∉ es)
    (hs : s.createUserCompleted firstName lastName uid documentID = some s') :
    Progress vc users firstName lastName s' (es ++ [.createUserCompleted uid documentID]) := by
  cases uid with
  | none =>
    obtain rfl := Option.some.inj hs
    refine .failed ⟨?_, h.account, h.isHome, ?_⟩ rfl rfl
    · simp [h.creation, isCreation]
    · rw [shown_snoc]; exact h.inWindow
  | some uid =>
    simp only [SignUp.createUserCompleted] at hs
    split at hs
    · cases hs
    · have hfresh := (not_or.mp ‹_›).2
      obtain rfl := Option.some.inj hs
      refine .saving (made_transitionToHome h.creation rfl h.isHome h.inWindow)
        (transitionToHome_call _) ?_ ?_ ?_ ?_
      · rw [transitionToHome_vc]; exact halpha
      · rw [← husers]; simpa using hfresh
      · rw [transitionToHome_users, husers]
      · simp [hsaved]

theorem progress_addDocument {uid documentID : String} {succeeds : Bool} (h : Made uid s es)
    (halpha : s.vc.alpha = vc.alpha) (hfresh : hasUser users uid = false)
    (husers : s.users = users.setData documentID (userData firstName lastName uid))
    (hsaved : .addDocumentCompleted true ∉ es) :
    Progress vc users firstName lastName (s.addDocumentCompleted documentID succeeds)
      (es ++ [.addDocumentCompleted succeeds]) := by
  have hmade : ∀ t : SignUp, t.account = s.account → t.isHome = s.isHome → t.inWindow = s.inWindow →
      Made uid t (es ++ [.addDocumentCompleted succeeds]) := by
    intro t ha hh hw
    refine ⟨by simp [h.creation], ha.trans h.account, ?_, fun hhome => ?_⟩
    · rw [hh, beforeCreation_snoc h.creation, h.isHome]
    · rw [hw, shown_snoc]; exact h.inWindow (hh.symm.trans hhome)
  cases succeeds with
  | true =>
    refine .saved (hmade _ rfl rfl rfl) rfl halpha ?_ (by simp)
    simp only [SignUp.addDocumentCompleted, if_true, husers]
    exact savedAs_setData users documentID firstName lastName uid
  | false =>
    refine .unsaved (hmade _ rfl rfl rfl) rfl ?_ (by simp [hsaved])
    simp only [SignUp.addDocumentCompleted, Bool.false_eq_true, if_false, husers]
    exact not_documented_delete hfresh

theorem progress_step {e : SignUpEvent} (hp : Progress vc users firstName lastName s es)
    (hs : s.step e = some s') :
    Progress vc users firstName lastName s' (es ++ [e]) := by
  obtain hq | ⟨_, _, _, _, uid, documentID, rfl, hcall', hs⟩ | ⟨documentID, succeeds, rfl, hcall', rfl⟩ :=
    step_cases hs
  · exact progress_quiet hq hp
  · cases hp with
    | creating h hcall halpha husers hsaved =>
      cases hcall.symm.trans hcall'
      exact progress_createUser h halpha husers hsaved hs
    | failed _ hcall | saving _ hcall | saved _ hcall | unsaved _ hcall => cases hcall.symm.trans hcall'
  · cases hp with
    | saving h hcall halpha hfresh husers hsaved =>
      cases hcall.symm.trans hcall'
      exact progress_addDocument h halpha hfresh husers hsaved
    | creating _ hcall | failed _ hcall | saved _ hcall | unsaved _ hcall => cases hcall.symm.trans hcall'

theorem progress_run {u : DecimalDigits} (hv : vc.validateFields u = none)
    (hrun : Runs.run SignUp.step ((SignUp.opened vc users).createAccountTapped u) es = some s) :
    Progress vc users (trimmingCharacters vc.firstNameTextField) (trimmingCharacters vc.lastNameTextField) s
      es := by
  refine Runs.run_history ?_ (fun t es e t' _ hp ht => progress_step hp ht) hrun
  have htap : (SignUp.opened vc users).createAccountTapped u = { SignUp.opened vc users with
      call := some (.createUser
        (trimmingCharacters vc.firstNameTextField) (trimmingCharacters vc.lastNameTextField)
        (trimmingCharacters vc.emailTextField) (trimmingCharacters vc.passwordTextField)) } := by
    simp only [createAccountTapped, opened, hv]
  rw [htap]
  exact .creating ⟨rfl, rfl, rfl, rfl⟩ rfl rfl rfl (by simp)

end

/-- **Sign-up.** A sign-up that `createUser` refuses is atomic if its screen stays. One
that makes the account is atomic if the document is saved too and the screen was
there to be replaced by Home; `transitionToHome` does not wait for `addDocument`,
whose error then comes to a screen that is gone. -/
theorem signUp_atomic_iff (u : DecimalDigits) (vc : SignUpVC) (users : Collection) (es : List SignUpEvent)
    {s : SignUp} (hv : vc.validateFields u = none)
    (hrun : Runs.run SignUp.step ((SignUp.opened vc users).createAccountTapped u) es = some s)
    (hcall : s.call = none) :
    Atomic s (trimmingCharacters vc.firstNameTextField) (trimmingCharacters vc.lastNameTextField) ↔
      if es.any isCreation then
        .addDocumentCompleted true ∈ es ∧ (shown (beforeCreation es) ∨ vc.alpha = 1 ∧ shown es)
      else shown es := by
  cases progress_run hv hrun with
  | creating _ h => cases h.symm.trans hcall
  | saving _ h => cases h.symm.trans hcall
  | failed h _ halpha =>
    simp [Atomic, errorShown, h.creation, h.account, h.isHome, h.inWindow, halpha]
  | saved h _ halpha husers hsaved =>
    have hdoc : Documented s.users _ := (fun ⟨id, data, hl, hu, _⟩ => ⟨id, data, hl, hu⟩) husers
    rw [if_pos h.creation, ← h.isHome, ← halpha]
    cases hhome : s.isHome with
    | true => simp [Atomic, hhome, h.account, husers, hsaved]
    | false => simp [Atomic, errorShown, hhome, h.account, h.inWindow hhome, hdoc, hsaved]
  | unsaved h _ husers hsaved =>
    have hnot : ∀ firstName lastName, ¬ SavedAs s.users _ firstName lastName := fun _ _ ⟨id, data, hl, hu, _⟩ =>
      husers ⟨id, data, hl, hu⟩
    simp [Atomic, h.creation, h.account, hnot, husers, hsaved]

def asciiDigits : DecimalDigits := ⟨Char.isDigit, fun _ _ => rfl, by decide⟩

def filledIn : SignUpVC := ⟨" First", "Last ", "first@mail.com", "Passw0rd", "", 0⟩

theorem signUp_atomic_filledIn : ∃ s,
    Runs.run SignUp.step ((SignUp.opened filledIn ∅).createAccountTapped asciiDigits)
      [.createUserCompleted (some "u") "d", .addDocumentCompleted true] = some s ∧ Atomic s "First" "Last" :=
  ⟨_, rfl, (signUp_atomic_iff asciiDigits filledIn ∅
    [.createUserCompleted (some "u") "d", .addDocumentCompleted true] (by decide) rfl rfl).mpr (by decide)⟩

theorem signUp_atomic_fails :
    ¬ ∀ (u : DecimalDigits) (vc : SignUpVC) (users : Collection) (es : List SignUpEvent) (s : SignUp),
      vc.validateFields u = none →
      Runs.run SignUp.step ((SignUp.opened vc users).createAccountTapped u) es = some s → s.call = none →
      Atomic s (trimmingCharacters vc.firstNameTextField) (trimmingCharacters vc.lastNameTextField) := by
  intro h
  -- the account is made and Home is shown, then the document is refused
  have ha := h asciiDigits filledIn ∅ [.createUserCompleted (some "u") "d", .addDocumentCompleted false] _
      (by decide) rfl rfl
  obtain ⟨uid, hu, ⟨id, data, hl, -⟩, -⟩ | ⟨hhome, -⟩ := ha
  · cases hl
  · cases hhome

end WarrantyGuard
