import WarrantyGuard.OwnProfile
import WarrantyGuard.ProfileSound
import WarrantyGuard.SessionSound

/-!
# Whose profile is in the window

A profile stays its user's for as long as its root is the window's, unless a sign-in
of another user completes on a screen that has left the window. Home is there for a
signed-in user only, so loading the profile does not trap.
-/

namespace WarrantyGuard

open ProfileApp

/-- The profiles in the window are the signed-in user's. -/
def OwnProfiles (s : ProfileApp) : Prop :=
  ∀ sc ∈ s.profiles, s.inWindow sc → s.app.currentUser = some sc.vc.uid

/-- A sign-in of `uid` completes on a screen that has left the window. -/
def Detached (s : App) (e : AppEvent) (uid : String) : Prop :=
  ∃ k i a, e = .signInCompleted k (some uid) ∧ s.signIns[k]? = some i ∧ s.authScreens[i]? = some a ∧
    s.authInWindow a = false

/-- No sign-in changes the user under a profile in the window, and a profile that comes into
the window is the user's. -/
def KeepsOwnProfiles (s : ProfileApp) : ProfileEvent → Prop
  | .app e => ∀ uid, Detached s.app e uid → ∀ sc ∈ s.profiles, s.inWindow sc → sc.vc.uid = uid
  | .profileAppears k true => ∀ sc, s.profiles[k]? = some sc → s.app.currentUser = some sc.vc.uid
  | _ => True

/-! ## The user and the root -/

section
variable {ops : StringOps} {s s' : App}

/-- Only a detached sign-in changes the user of a root. -/
theorem step_root {e : AppEvent} (h : s.step ops e = some s') :
    (∃ uid, Detached s e uid ∧ s'.root = s.root ∧ s'.isHome = s.isHome ∧ s'.currentUser = some uid) ∨
      (∀ uid, ¬ Detached s e uid) ∧
        (s'.root = s.root ∧ s'.isHome = s.isHome ∧ s'.currentUser = s.currentUser ∨ s'.root = s.root + 1) := by
  have hnot : (∀ k uid, e ≠ .signInCompleted k (some uid)) → ∀ uid, ¬ Detached s e uid := by
    rintro he uid ⟨k, i, a, rfl, -⟩
    exact he k uid rfl
  cases step_turn h with
  | @signInCompleted k i a result hi ha =>
    cases result with
    | none => exact .inr ⟨hnot (by simp), .inl ⟨rfl, rfl, rfl⟩⟩
    | some uid =>
      cases hw : s.authInWindow a with
      | true =>
        refine .inr ⟨?_, .inr ?_⟩
        · rintro uid' ⟨k', i', a', he, hi', ha', hw'⟩
          cases he
          cases hi.symm.trans hi'
          cases ha.symm.trans ha'
          rw [hw] at hw'
          cases hw'
        · rw [signInCompleted_inWindow (s := { s with signIns := s.signIns.eraseIdx k }) hw uid]
          rfl
      | false =>
        have hs' := signInCompleted_detached (s := { s with signIns := s.signIns.eraseIdx k }) hw uid
        exact .inl ⟨uid, ⟨k, i, a, rfl, hi, ha, hw⟩, by rw [hs'], by rw [hs'], by rw [hs']⟩
  | loggedOut => exact .inr ⟨hnot (by simp), .inr rfl⟩
  | openAuth | authAppears | signInTapped | logoutFailed | openDetail | openSearch | listAppears | listener
    | textDidChange | response => exact .inr ⟨hnot (by simp), .inl ⟨rfl, rfl, rfl⟩⟩

end

/-! ## A step of the profiles -/

/-- A profile belongs to this root or to an earlier one. -/
structure Placed (s : ProfileApp) : Prop where
  seated : Seated s.app
  roots : ∀ sc ∈ s.profiles, sc.root ≤ s.app.root

section
variable {ops : StringOps} {s s' : ProfileApp}

theorem onProfile_some {k : Nat} {f : ProfileScreen → Option ProfileScreen} (h : s.onProfile k f = some s') :
    ∃ sc sc', s.profiles[k]? = some sc ∧ f sc = some sc' ∧ s' = { s with profiles := s.profiles.set k sc' } := by
  obtain ⟨sc, hsc, h⟩ := Option.bind_eq_some_iff.mp h
  obtain ⟨sc', hf, rfl⟩ := Option.map_eq_some_iff.mp h
  exact ⟨sc, sc', hsc, hf, rfl⟩

theorem listener_uid {vc vc' : ProfileVC} {callback : Callback} (h : vc.listener callback = some vc') :
    vc'.uid = vc.uid := by
  cases callback with
  | snapshot documents => exact (listener_shows h).1
  | error => cases h; rfl

/-- A step of the app, a new profile of the user, or a profile that comes, goes or is brought documents. -/
inductive ProfileTurn (ops : StringOps) (s : ProfileApp) : ProfileEvent → ProfileApp → Prop
  | app {e : AppEvent} {app : App} (h : s.app.step ops e = some app) : ProfileTurn ops s (.app e)
        { s with app := app }
  | opened {vc : ProfileVC} (hhome : s.app.isHome) (hvc : s.app.currentUser = some vc.uid) :
      ProfileTurn ops s .openProfile { s with profiles := s.profiles ++ [⟨s.app.root, true, vc⟩] }
  | appears {k : Nat} {sc : ProfileScreen} {appears : Bool} (hsc : s.profiles[k]? = some sc)
      (hroot : sc.root = s.app.root) :
      ProfileTurn ops s (.profileAppears k appears)
        { s with profiles := s.profiles.set k { sc with appears := appears } }
  | listener {k : Nat} {sc : ProfileScreen} {vc : ProfileVC} {callback : Callback} (hsc : s.profiles[k]? = some sc)
      (huid : vc.uid = sc.vc.uid) :
      ProfileTurn ops s (.listener k callback) { s with profiles := s.profiles.set k { sc with vc := vc } }

theorem profile_turn {e : ProfileEvent} (h : s.step ops e = some s') : ProfileTurn ops s e s' := by
  cases e with
  | app e =>
    obtain ⟨app, happ, rfl⟩ := Option.map_eq_some_iff.mp h
    exact .app happ
  | openProfile =>
    obtain ⟨hhome, h⟩ := Option.ite_none_right_eq_some.mp h
    obtain ⟨vc, hvc, rfl⟩ := Option.map_eq_some_iff.mp h
    obtain ⟨uid, huid, rfl⟩ := Option.map_eq_some_iff.mp hvc
    exact .opened hhome huid
  | profileAppears k appears =>
    obtain ⟨sc, sc', hsc, hf, rfl⟩ := onProfile_some h
    obtain ⟨hroot, hf⟩ := Option.ite_none_right_eq_some.mp hf
    cases hf; exact .appears hsc hroot
  | listener k callback =>
    obtain ⟨sc, sc', hsc, hf, rfl⟩ := onProfile_some h
    obtain ⟨vc, hvc, rfl⟩ := Option.map_eq_some_iff.mp hf
    exact .listener hsc (listener_uid hvc)

theorem placed_step {e : ProfileEvent} (hs : Placed s) (h : s.step ops e = some s') : Placed s' := by
  cases profile_turn h with
  | app happ =>
    refine ⟨seated_step hs.seated happ, fun sc hsc => ?_⟩
    have hle := hs.roots sc hsc
    obtain ⟨-, -, hroot, -⟩ | ⟨-, ⟨hroot, -⟩ | hroot⟩ := step_root happ
    · exact hroot ▸ hle
    · exact hroot ▸ hle
    · exact hroot ▸ Nat.le_succ_of_le hle
  | opened => exact ⟨hs.seated, Listing.forall_mem_snoc.mpr ⟨hs.roots, Nat.le_refl _⟩⟩
  | @appears k sc _ hsc =>
    exact ⟨hs.seated, Listing.forall_mem_set hs.roots (hs.roots sc (List.mem_of_getElem? hsc))⟩
  | @listener k sc _ _ hsc =>
    exact ⟨hs.seated, Listing.forall_mem_set hs.roots (hs.roots sc (List.mem_of_getElem? hsc))⟩

theorem inWindow_iff {sc : ProfileScreen} : s.inWindow sc ↔ sc.root = s.app.root ∧ sc.appears := by
  rw [inWindow, Bool.and_eq_true, decide_eq_true_eq]

theorem detached_uid {s : App} {e : AppEvent} {uid uid' : String} (h : Detached s e uid) (h' : Detached s e uid') :
    uid' = uid := by
  obtain ⟨k, i, a, rfl, -⟩ := h
  obtain ⟨k', i', a', he, -⟩ := h'
  cases he
  rfl

theorem ownProfiles_app {e : AppEvent} {app : App} (hs : Placed s) (ho : OwnProfiles s)
    (h : s.app.step ops e = some app) :
    OwnProfiles { s with app := app } ↔ KeepsOwnProfiles s (.app e) := by
  have hsame : app.root = s.app.root → ∀ sc, ({ s with app := app } : ProfileApp).inWindow sc = s.inWindow sc := by
    intro hroot sc
    rw [inWindow, inWindow, hroot]
  obtain ⟨uid, hd, hroot, -, huser⟩ | ⟨hnot, ⟨hroot, -, huser⟩ | hroot⟩ := step_root h
  · simp only [OwnProfiles, hsame hroot, huser, Option.some_inj]
    constructor
    · intro hown uid' hd' sc hsc hw
      rw [detached_uid hd hd', hown sc hsc hw]
    · exact fun hkeeps sc hsc hw => (hkeeps uid hd sc hsc hw).symm
  · refine iff_of_true (fun sc hsc hw => ?_) fun uid hd => absurd hd (hnot uid)
    rw [hsame hroot] at hw
    exact huser.trans (ho sc hsc hw)
  · refine iff_of_true (fun sc hsc hw => ?_) fun uid hd => absurd hd (hnot uid)
    have hnew : sc.root = app.root := (inWindow_iff.mp hw).1
    have hle := hs.roots sc hsc
    omega

theorem ownProfiles_step {e : ProfileEvent} (hs : Placed s) (ho : OwnProfiles s) (h : s.step ops e = some s') :
    OwnProfiles s' ↔ KeepsOwnProfiles s e := by
  cases profile_turn h with
  | app happ => exact ownProfiles_app hs ho happ
  | opened hhome hvc => exact iff_of_true (Listing.forall_mem_snoc.mpr ⟨ho, fun _ => hvc⟩) trivial
  | @appears k sc appears hsc hroot =>
    have hrest := (Listing.forall_mem_iff hsc).mp ho
    unfold OwnProfiles
    rw [Listing.forall_mem_set_iff hsc]
    cases appears with
    | true =>
      constructor
      · intro hown sc' hsc'
        cases hsc.symm.trans hsc'
        exact hown.1 (inWindow_iff.mpr ⟨hroot, rfl⟩)
      · intro hkeeps
        exact ⟨fun _ => hkeeps sc hsc, hrest.2⟩
    | false => exact iff_of_true ⟨fun hw => absurd (inWindow_iff.mp hw).2 Bool.false_ne_true, hrest.2⟩ trivial
  | @listener k sc vc _ hsc huid =>
    have hrest := (Listing.forall_mem_iff hsc).mp ho
    refine iff_of_true ((Listing.forall_mem_set_iff hsc _).mpr ⟨fun hw => ?_, hrest.2⟩) trivial
    rw [huid]
    exact hrest.1 hw

/-! ## Sign-ins on time -/

/-- The profiles of a root in Home are those of the signed-in user. -/
structure Lasting (s : ProfileApp) : Prop where
  placed : Placed s
  captured : ∀ sc ∈ s.profiles, sc.root = s.app.root → s.app.isHome ∧ s.app.currentUser = some sc.vc.uid

def ProfileOnTime (s : ProfileApp) : ProfileEvent → Prop
  | .app e => OnTime s.app e
  | _ => True

theorem lasting_own (hs : Lasting s) : OwnProfiles s :=
  fun sc hsc hw => (hs.captured sc hsc (inWindow_iff.mp hw).1).2

theorem onTime_detached {s : App} {e : AppEvent} {uid : String} (h : OnTime s e) (hd : Detached s e uid)
    (hhome : s.isHome) :
    s.currentUser = some uid := by
  obtain ⟨k, i, a, rfl, hi, ha, hw⟩ := hd
  exact h i a hi ha hw hhome

theorem lasting_step {e : ProfileEvent} (hs : Lasting s) (hC : ProfileOnTime s e) (h : s.step ops e = some s') :
    Lasting s' := by
  refine ⟨placed_step hs.placed h, ?_⟩
  cases profile_turn h with
  | @app e app happ =>
    intro sc hsc hroot'
    have hle := hs.placed.roots sc hsc
    obtain ⟨uid, hd, hroot, hhome, huser⟩ | ⟨-, ⟨hroot, hhome, huser⟩ | hroot⟩ := step_root happ
    · obtain ⟨hh, hu⟩ := hs.captured sc hsc (hroot'.trans hroot)
      have hcurrent := onTime_detached hC hd hh
      exact ⟨hhome.trans hh, huser.trans (hcurrent.symm.trans hu)⟩
    · obtain ⟨hh, hu⟩ := hs.captured sc hsc (hroot'.trans hroot)
      exact ⟨hhome.trans hh, huser.trans hu⟩
    · have hroot' : sc.root = app.root := hroot'
      omega
  | opened hhome hvc => exact Listing.forall_mem_snoc.mpr ⟨hs.captured, fun _ => ⟨hhome, hvc⟩⟩
  | @appears k sc _ hsc => exact Listing.forall_mem_set hs.captured (hs.captured sc (List.mem_of_getElem? hsc))
  | @listener k sc vc _ hsc huid =>
    refine Listing.forall_mem_set hs.captured fun hroot => ?_
    rw [huid]
    exact hs.captured sc (List.mem_of_getElem? hsc) hroot

end

/-- **Whose profile.** The profiles in the window are the signed-in user's exactly as long as no sign-in
changes the user under one and none comes back for another user; sign-ins on time are enough. In Home
loading the profile never traps. -/
theorem profile_own_iff (ops : StringOps) (currentUser : Option String) (es : List ProfileEvent) :
    (Runs.Always (ProfileApp.step ops) OwnProfiles (ProfileApp.launch currentUser) es ↔
      Runs.Along (ProfileApp.step ops) KeepsOwnProfiles (ProfileApp.launch currentUser) es) ∧
    (Runs.Along (ProfileApp.step ops) ProfileOnTime (ProfileApp.launch currentUser) es →
      Runs.Always (ProfileApp.step ops) OwnProfiles (ProfileApp.launch currentUser) es) ∧
    ∀ s, Runs.run (ProfileApp.step ops) (ProfileApp.launch currentUser) es = some s →
      ((s.step ops .openProfile).isSome ↔ s.app.isHome) := by
  have hplaced : Placed (ProfileApp.launch currentUser) :=
    ⟨⟨nofun, nofun, nofun⟩, fun _ hsc => (List.not_mem_nil hsc).elim⟩
  refine ⟨?_, fun hC => ?_, fun s h => ?_⟩
  · exact Runs.always_iff_along (fun _ _ _ => placed_step) (fun _ _ _ => ownProfiles_step) hplaced
      fun _ hsc => (List.not_mem_nil hsc).elim
  · have hlasting : Lasting (ProfileApp.launch currentUser) := ⟨hplaced, fun _ hsc => (List.not_mem_nil hsc).elim⟩
    exact Runs.always_mono (fun _ => lasting_own) (Runs.always_of_along (fun _ _ _ => lasting_step) hlasting hC)
  · have hs : Placed s := Runs.run_inv (fun _ _ _ => placed_step) hplaced h
    constructor
    · intro hsome
      obtain ⟨s', hs'⟩ := Option.isSome_iff_exists.mp hsome
      exact (Option.ite_none_right_eq_some.mp hs').1
    · intro hhome
      obtain ⟨uid, huid⟩ := Option.ne_none_iff_exists'.mp (hs.seated.signedIn hhome)
      simp only [ProfileApp.step, hhome, if_true, huid, ProfileVC.viewDidLoad, Option.map_some, Option.isSome_some]

end WarrantyGuard
