import WarrantyGuard.DetailSound
import WarrantyGuard.SearchSound
import WarrantyGuard.Session

/-!
# Whose products are in the window

Home is in the window only with somebody signed in. Its lists show the signed-in
user's products until a sign-in completes on a screen that has left the window:
then the user changes and the root does not.
-/

namespace WarrantyGuard

open App

def Owned (currentUser : Option String) (d : Document) : Prop :=
  ∃ userID, currentUser = some userID ∧ isOwn userID d

def Traced (sc : ListScreen) : Prop := sc.vc.products = sc.shown.map (Product.ofData ·.data)

/-- Home has a signed-in user, and the products of the lists in the window come
from that user's documents. -/
def Isolated (s : App) : Prop :=
  (s.isHome → s.currentUser ≠ none) ∧
    ∀ sc ∈ s.lists, s.listInWindow sc → Traced sc ∧ ∀ d ∈ sc.shown, Owned s.currentUser d

/-! ## What a list's step shows -/

section
variable {ops : StringOps} {sc sc' : ListScreen}

theorem listener_some {callback : Callback} (h : sc.listener callback = some sc') :
    ∃ vc userID, sc.vc = .detail vc ∧ vc.userID = some userID ∧ sc'.root = sc.root ∧ sc'.appears = sc.appears ∧
      (Traced sc → Traced sc') ∧ sc'.shown = sc.shown ++ ownDocuments userID callback ∧
      sc'.vc = .detail (vc.getProductForCategory callback) := by
  unfold ListScreen.listener at h
  cases hvc : sc.vc with
  | search vc queries => simp only [hvc] at h; cases h
  | detail vc =>
    simp only [hvc] at h
    obtain ⟨userID, hu, rfl⟩ := Option.map_eq_some_iff.mp h
    refine ⟨vc, userID, rfl, hu, rfl, rfl, fun ht => ?_, rfl, rfl⟩
    unfold Traced at ht ⊢
    rw [hvc] at ht
    rw [List.map_append, ← ht]
    cases callback with
    | snapshot documents => exact getProductForCategory_snapshot hu documents
    | error => exact (getProductForCategory_error hu).trans (List.append_nil _).symm

theorem response_some {j : Nat} {callback : Callback} (h : sc.response ops j callback = some sc') :
    ∃ vc queries query, sc.vc = .search vc queries ∧ queries[j]? = some query ∧ sc'.root = sc.root ∧
      sc'.appears = sc.appears ∧ Traced sc' ∧ sc'.shown = matchingDocuments ops query callback ∧
      ∃ vc', sc'.vc = .search vc' (queries.eraseIdx j) := by
  unfold ListScreen.response at h
  cases hvc : sc.vc with
  | detail vc => simp only [hvc] at h; cases h
  | search vc queries =>
    simp only [hvc] at h
    obtain ⟨query, hq, h⟩ := Option.bind_eq_some_iff.mp h
    obtain ⟨vc', hv, rfl⟩ := Option.map_eq_some_iff.mp h
    refine ⟨vc, queries, query, rfl, hq, rfl, rfl, ?_, rfl, vc', rfl⟩
    cases callback with
    | snapshot documents => exact (getProducts_snapshot hv).1
    | error => exact (getProducts_error hv).1

theorem textDidChange_some {currentUser : Option String} {text : String}
    (h : sc.textDidChange currentUser text = some sc') :
    ∃ vc queries, sc.vc = .search vc queries ∧ sc'.root = sc.root ∧ sc'.appears = sc.appears ∧ Traced sc' ∧
      sc'.shown = [] ∧
      sc'.vc = .search (vc.textDidChange currentUser text).1
        (queries ++ (vc.textDidChange currentUser text).2.toList) := by
  unfold ListScreen.textDidChange at h
  cases hvc : sc.vc with
  | detail vc => simp only [hvc] at h; cases h
  | search vc queries => simp only [hvc] at h; cases h; exact ⟨vc, queries, rfl, rfl, rfl, rfl, rfl, rfl⟩

end

/-! ## What an event does -/

/-- Every event with what it needs to happen and the app it leaves. -/
inductive Turn (ops : StringOps) (s : App) : AppEvent → App → Prop
  | openAuth (hhome : ¬ s.isHome) :
      Turn ops s .openAuth { s with authScreens := s.authScreens ++ [⟨s.root, true⟩] }
  | authAppears {i : Nat} {a : AuthScreen} {appears : Bool} (ha : s.authScreens[i]? = some a)
      (hroot : a.root = s.root) :
      Turn ops s (.authAppears i appears)
        { s with authScreens := s.authScreens.set i { a with appears := appears } }
  | signInTapped {i : Nat} {a : AuthScreen} (ha : s.authScreens[i]? = some a) (hw : s.authInWindow a) :
      Turn ops s (.signInTapped i) { s with signIns := s.signIns ++ [i] }
  | signInCompleted {k i : Nat} {a : AuthScreen} {result : Option String} (hi : s.signIns[k]? = some i)
      (ha : s.authScreens[i]? = some a) :
      Turn ops s (.signInCompleted k result) ({ s with signIns := s.signIns.eraseIdx k }.signInCompleted a result)
  | loggedOut (hhome : s.isHome) : Turn ops s (.logoutButtonPressed true)
      ({ s with currentUser := none }.replaceRoot false)
  | logoutFailed (hhome : s.isHome) : Turn ops s (.logoutButtonPressed false) s
  | openDetail {category : String} (hhome : s.isHome) : Turn ops s (.openDetail category)
        { s with lists := s.lists ++ [⟨s.root, true, .detail (DetailVC.viewDidLoad category s.currentUser), []⟩] }
  | openSearch (hhome : s.isHome) : Turn ops s .openSearch
        { s with lists := s.lists ++ [⟨s.root, true, .search SearchVC.viewDidLoad [], []⟩] }
  | listAppears {i : Nat} {sc : ListScreen} {appears : Bool} (hsc : s.lists[i]? = some sc)
      (hroot : sc.root = s.root) :
      Turn ops s (.listAppears i appears) { s with lists := s.lists.set i { sc with appears := appears } }
  | listener {i : Nat} {sc sc' : ListScreen} {callback : Callback} (hsc : s.lists[i]? = some sc)
      (h : sc.listener callback = some sc') : Turn ops s (.listener i callback)
        { s with lists := s.lists.set i sc' }
  | textDidChange {i : Nat} {sc sc' : ListScreen} {text : String} (hsc : s.lists[i]? = some sc)
      (hw : s.listInWindow sc) (h : sc.textDidChange s.currentUser text = some sc') :
      Turn ops s (.textDidChange i text) { s with lists := s.lists.set i sc' }
  | response {i j : Nat} {sc sc' : ListScreen} {callback : Callback} (hsc : s.lists[i]? = some sc)
      (h : sc.response ops j callback = some sc') : Turn ops s (.response i j callback)
        { s with lists := s.lists.set i sc' }

section
variable {ops : StringOps} {s s' : App}

theorem onList_some {i : Nat} {f : ListScreen → Option ListScreen} (h : s.onList i f = some s') :
    ∃ sc sc', s.lists[i]? = some sc ∧ f sc = some sc' ∧ s' = { s with lists := s.lists.set i sc' } := by
  obtain ⟨sc, hsc, h⟩ := Option.bind_eq_some_iff.mp h
  obtain ⟨sc', hf, rfl⟩ := Option.map_eq_some_iff.mp h
  exact ⟨sc, sc', hsc, hf, rfl⟩

theorem step_turn {e : AppEvent} (h : s.step ops e = some s') : Turn ops s e s' := by
  cases e with
  | openAuth =>
    obtain ⟨hhome, h⟩ := Option.ite_none_left_eq_some.mp h
    cases h; exact .openAuth hhome
  | authAppears i appears =>
    obtain ⟨a, ha, h⟩ := Option.bind_eq_some_iff.mp h
    obtain ⟨hroot, h⟩ := Option.ite_none_right_eq_some.mp h
    cases h; exact .authAppears ha hroot
  | signInTapped i =>
    obtain ⟨a, ha, h⟩ := Option.bind_eq_some_iff.mp h
    obtain ⟨hw, h⟩ := Option.ite_none_right_eq_some.mp h
    cases h; exact .signInTapped ha hw
  | signInCompleted k result =>
    obtain ⟨i, hi, h⟩ := Option.bind_eq_some_iff.mp h
    obtain ⟨a, ha, rfl⟩ := Option.map_eq_some_iff.mp h
    exact .signInCompleted hi ha
  | logoutButtonPressed signsOut =>
    obtain ⟨hhome, h⟩ := Option.ite_none_right_eq_some.mp h
    cases signsOut with
    | true => cases h; exact .loggedOut hhome
    | false => cases h; exact .logoutFailed hhome
  | openDetail category =>
    obtain ⟨hhome, h⟩ := Option.ite_none_right_eq_some.mp h
    cases h; exact .openDetail hhome
  | openSearch =>
    obtain ⟨hhome, h⟩ := Option.ite_none_right_eq_some.mp h
    cases h; exact .openSearch hhome
  | listAppears i appears =>
    obtain ⟨sc, sc', hsc, hf, rfl⟩ := onList_some h
    obtain ⟨hroot, hf⟩ := Option.ite_none_right_eq_some.mp hf
    cases hf; exact .listAppears hsc hroot
  | listener i callback =>
    obtain ⟨sc, sc', hsc, hf, rfl⟩ := onList_some h
    exact .listener hsc hf
  | textDidChange i text =>
    obtain ⟨sc, sc', hsc, hf, rfl⟩ := onList_some h
    obtain ⟨hw, hf⟩ := Option.ite_none_right_eq_some.mp hf
    exact .textDidChange hsc hw hf
  | response i j callback =>
    obtain ⟨sc, sc', hsc, hf, rfl⟩ := onList_some h
    exact .response hsc hf

theorem signInCompleted_inWindow {a : AuthScreen} (h : s.authInWindow a) (uid : String) :
    s.signInCompleted a (some uid) = { s with currentUser := some uid }.replaceRoot true :=
  if_pos h

theorem signInCompleted_detached {a : AuthScreen} (h : s.authInWindow a = false) (uid : String) :
    s.signInCompleted a (some uid) = { s with currentUser := some uid } :=
  if_neg (by simp [h])

end

/-! ## What every reachable state has -/

structure Seated (s : App) : Prop where
  signedIn : s.isHome → s.currentUser ≠ none
  roots : ∀ sc ∈ s.lists, sc.root ≤ s.root
  traced : ∀ sc ∈ s.lists, Traced sc

section
variable {ops : StringOps} {s s' : App}

theorem seated_set (hs : Seated s) {i : Nat} {sc sc' : ListScreen} (hsc : s.lists[i]? = some sc)
    (hroot : sc'.root = sc.root) (ht : Traced sc → Traced sc') :
    Seated { s with lists := s.lists.set i sc' } := by
  have hmem := List.mem_of_getElem? hsc
  refine ⟨hs.signedIn, Listing.forall_mem_set hs.roots ?_, Listing.forall_mem_set hs.traced ?_⟩
  · rw [hroot]; exact hs.roots sc hmem
  · exact ht (hs.traced sc hmem)

theorem seated_open (hs : Seated s) {vc : ListVC} (hvc : vc.products = []) :
    Seated { s with lists := s.lists ++ [⟨s.root, true, vc, []⟩] } :=
  ⟨hs.signedIn, Listing.forall_mem_snoc.mpr ⟨hs.roots, Nat.le_refl _⟩,
    Listing.forall_mem_snoc.mpr ⟨hs.traced, hvc⟩⟩

theorem seated_signInCompleted (hs : Seated s) {a : AuthScreen} {result : Option String} :
    Seated (s.signInCompleted a result) := by
  cases result with
  | none => exact hs
  | some uid =>
    cases h : s.authInWindow a with
    | true =>
      rw [signInCompleted_inWindow h]
      exact ⟨fun _ => Option.some_ne_none uid, fun sc hsc => Nat.le_succ_of_le (hs.roots sc hsc), hs.traced⟩
    | false =>
      rw [signInCompleted_detached h]
      exact ⟨fun _ => Option.some_ne_none uid, hs.roots, hs.traced⟩

theorem seated_step {e : AppEvent} (hs : Seated s) (h : s.step ops e = some s') : Seated s' := by
  cases step_turn h with
  | openAuth | authAppears | signInTapped => exact ⟨hs.signedIn, hs.roots, hs.traced⟩
  | signInCompleted =>
    apply seated_signInCompleted
    exact ⟨hs.signedIn, hs.roots, hs.traced⟩
  | loggedOut => exact ⟨nofun, fun sc hsc => Nat.le_succ_of_le (hs.roots sc hsc), hs.traced⟩
  | logoutFailed => exact hs
  | openDetail => exact seated_open hs rfl
  | openSearch => exact seated_open hs rfl
  | listAppears hsc => exact seated_set hs hsc rfl id
  | listener hsc hf =>
    obtain ⟨vc, userID, -, -, hroot, -, ht, -⟩ := listener_some hf
    exact seated_set hs hsc hroot ht
  | textDidChange hsc _ hf =>
    obtain ⟨vc, queries, -, hroot, -, ht, -⟩ := textDidChange_some hf
    exact seated_set hs hsc hroot fun _ => ht
  | response hsc hf =>
    obtain ⟨vc, queries, query, -, -, hroot, -, ht, -⟩ := response_some hf
    exact seated_set hs hsc hroot fun _ => ht

end

/-! ## The steps that keep the lists the user's own -/

/-- A sign-in that completes on a screen out of the window finds only the new user's documents
listed in it; a list that comes into the window shows the signed-in user's documents; and a
list in the window is brought documents for the signed-in user only. -/
def KeepsIsolated (ops : StringOps) (s : App) : AppEvent → Prop
  | .signInCompleted k (some uid) => ∀ i a, s.signIns[k]? = some i → s.authScreens[i]? = some a →
      s.authInWindow a = false → ∀ sc ∈ s.lists, s.listInWindow sc → ∀ d ∈ sc.shown, Owned (some uid) d
  | .listAppears i true => ∀ sc, s.lists[i]? = some sc → ∀ d ∈ sc.shown, Owned s.currentUser d
  | .listener i callback => ∀ sc vc userID, s.lists[i]? = some sc → s.listInWindow sc → sc.vc = .detail vc →
      vc.userID = some userID → ownDocuments userID callback ≠ [] → s.currentUser = some userID
  | .response i j callback => ∀ sc vc queries query, s.lists[i]? = some sc → s.listInWindow sc →
      sc.vc = .search vc queries → queries[j]? = some query → matchingDocuments ops query callback ≠ [] →
      s.currentUser = some query.userID
  | _ => True

def ListsOwned (s : App) : Prop := ∀ sc ∈ s.lists, s.listInWindow sc → ∀ d ∈ sc.shown, Owned s.currentUser d

theorem isolated_iff {s : App} (hs : Seated s) : Isolated s ↔ ListsOwned s := by
  constructor
  · exact fun h sc hsc hw => (h.2 sc hsc hw).2
  · exact fun h => ⟨hs.signedIn, fun sc hsc hw => ⟨hs.traced sc hsc, h sc hsc hw⟩⟩

theorem owned_all_iff {currentUser : Option String} {userID : String} {l : List Document}
    (h : ∀ d ∈ l, isOwn userID d) :
    (∀ d ∈ l, Owned currentUser d) ↔ (l ≠ [] → currentUser = some userID) := by
  constructor
  · intro ho hne
    obtain ⟨d, hd⟩ := List.exists_mem_of_ne_nil l hne
    obtain ⟨u, hu, hdu⟩ := ho d hd
    have : u = userID := Option.some.inj ((beq_iff_eq.mp hdu).symm.trans (beq_iff_eq.mp (h d hd)))
    rw [hu, this]
  · intro hu d hd
    exact ⟨userID, hu (List.ne_nil_of_mem hd), h d hd⟩

theorem isOwn_of_ownDocuments {userID : String} {callback : Callback} :
    ∀ d ∈ ownDocuments userID callback, isOwn userID d := by
  cases callback with
  | snapshot documents => exact fun d hd => (List.mem_filter.mp hd).2
  | error => exact fun d hd => by cases hd

theorem isOwn_of_matchingDocuments {ops : StringOps} {query : Query} {callback : Callback} :
    ∀ d ∈ matchingDocuments ops query callback, isOwn query.userID d := by
  cases callback with
  | snapshot documents => exact fun d hd => isOwn_of_isMatch (List.mem_filter.mp hd).2
  | error => exact fun d hd => by cases hd

section
variable {ops : StringOps} {s s' : App}

theorem listsOwned_set (ho : ListsOwned s) {i : Nat} {sc sc' : ListScreen} (hsc : s.lists[i]? = some sc) :
    ListsOwned { s with lists := s.lists.set i sc' } ↔
    (s.listInWindow sc' → ∀ d ∈ sc'.shown, Owned s.currentUser d) := by
  constructor
  · intro h
    exact h sc' (List.mem_set (List.getElem?_eq_some_iff.mp hsc).1 _)
  · intro h
    exact Listing.forall_mem_set ho h

theorem listsOwned_replaceRoot (hs : Seated s) (isHome : Bool) (currentUser : Option String) :
    ListsOwned ({ s with currentUser := currentUser }.replaceRoot isHome) := by
  intro sc hsc hw
  have hroot : sc.root = s.root + 1 := by
    unfold listInWindow at hw
    exact of_decide_eq_true (Bool.and_eq_true _ _ ▸ hw).1
  have := hs.roots sc hsc
  omega

theorem listInWindow_eq {sc sc' : ListScreen} (hroot : sc'.root = sc.root) (happears : sc'.appears = sc.appears) :
    s.listInWindow sc' = s.listInWindow sc := by
  unfold listInWindow; rw [hroot, happears]

theorem listsOwned_open (ho : ListsOwned s) (vc : ListVC) :
    ListsOwned { s with lists := s.lists ++ [⟨s.root, true, vc, []⟩] } :=
  Listing.forall_mem_snoc.mpr ⟨ho, fun _ _ hd => by cases hd⟩

theorem listsOwned_signInCompleted (hs : Seated s) (ho : ListsOwned s) {k i : Nat} {a : AuthScreen}
    {result : Option String} (hi : s.signIns[k]? = some i) (ha : s.authScreens[i]? = some a) :
    ListsOwned ({ s with signIns := s.signIns.eraseIdx k }.signInCompleted a result) ↔
      KeepsIsolated ops s (.signInCompleted k result) := by
  cases result with
  | none => exact iff_of_true ho trivial
  | some uid =>
    cases hw : s.authInWindow a with
    | true =>
      rw [signInCompleted_inWindow (s := { s with signIns := s.signIns.eraseIdx k }) hw]
      refine iff_of_true (listsOwned_replaceRoot (s := { s with signIns := s.signIns.eraseIdx k })
        ⟨hs.signedIn, hs.roots, hs.traced⟩ true (some uid)) ?_
      intro i' a' hi' ha' hw'
      cases hi.symm.trans hi'
      cases ha.symm.trans ha'
      simp [hw] at hw'
    | false =>
      rw [signInCompleted_detached (s := { s with signIns := s.signIns.eraseIdx k }) hw]
      constructor
      · exact fun h i' a' _ _ _ sc hsc => h sc hsc
      · exact fun h sc hsc => h i a hi ha hw sc hsc

theorem listsOwned_listAppears (ho : ListsOwned s) {i : Nat} {sc : ListScreen} (appears : Bool)
    (hsc : s.lists[i]? = some sc) (hroot : sc.root = s.root) :
    ListsOwned { s with lists := s.lists.set i { sc with appears := appears } } ↔
      KeepsIsolated ops s (.listAppears i appears) := by
  rw [listsOwned_set ho hsc]
  cases appears with
  | true =>
    have hw : s.listInWindow { sc with appears := true } = true := by simp [listInWindow, hroot]
    constructor
    · intro h sc' hsc'
      cases hsc.symm.trans hsc'
      exact h hw
    · exact fun h _ => h sc hsc
  | false =>
    refine iff_of_true (fun hw => ?_) trivial
    simp [listInWindow] at hw

theorem listsOwned_listener (ho : ListsOwned s) {i : Nat} {sc sc' : ListScreen} {callback : Callback}
    (hsc : s.lists[i]? = some sc) (h : sc.listener callback = some sc') :
    ListsOwned { s with lists := s.lists.set i sc' } ↔ KeepsIsolated ops s (.listener i callback) := by
  obtain ⟨vc, userID, hvc, hu, hroot, happears, -, hshown, -⟩ := listener_some h
  rw [listsOwned_set ho hsc, listInWindow_eq hroot happears, hshown, List.forall_mem_append,
    owned_all_iff isOwn_of_ownDocuments]
  constructor
  · intro h sc₁ vc₁ userID₁ hsc₁ hw hvc₁ hu₁
    cases hsc.symm.trans hsc₁
    cases hvc.symm.trans hvc₁
    cases hu.symm.trans hu₁
    exact (h hw).2
  · exact fun h hw => ⟨ho sc (List.mem_of_getElem? hsc) hw, h sc vc userID hsc hw hvc hu⟩

theorem listsOwned_response (ho : ListsOwned s) {i j : Nat} {sc sc' : ListScreen} {callback : Callback}
    (hsc : s.lists[i]? = some sc) (h : sc.response ops j callback = some sc') :
    ListsOwned { s with lists := s.lists.set i sc' } ↔ KeepsIsolated ops s (.response i j callback) := by
  obtain ⟨vc, queries, query, hvc, hq, hroot, happears, -, hshown, -⟩ := response_some h
  rw [listsOwned_set ho hsc, listInWindow_eq hroot happears, hshown, owned_all_iff isOwn_of_matchingDocuments]
  constructor
  · intro h sc₁ vc₁ queries₁ query₁ hsc₁ hw hvc₁ hq₁
    cases hsc.symm.trans hsc₁
    cases hvc.symm.trans hvc₁
    cases hq.symm.trans hq₁
    exact h hw
  · exact fun h hw => h sc vc queries query hsc hw hvc hq

theorem listsOwned_step {e : AppEvent} (hs : Seated s) (ho : ListsOwned s) (h : s.step ops e = some s') :
    ListsOwned s' ↔ KeepsIsolated ops s e := by
  cases step_turn h with
  | openAuth | authAppears | signInTapped | logoutFailed => exact iff_of_true ho trivial
  | signInCompleted hi ha => exact listsOwned_signInCompleted hs ho hi ha
  | loggedOut => exact iff_of_true (listsOwned_replaceRoot hs false none) trivial
  | openDetail => exact iff_of_true (listsOwned_open ho _) trivial
  | openSearch => exact iff_of_true (listsOwned_open ho _) trivial
  | listAppears hsc hroot => exact listsOwned_listAppears ho _ hsc hroot
  | listener hsc hf => exact listsOwned_listener ho hsc hf
  | textDidChange hsc _ hf =>
    obtain ⟨vc, queries, -, -, -, -, hshown, -⟩ := textDidChange_some hf
    rw [listsOwned_set ho hsc, hshown]
    exact iff_of_true (fun _ d hd => by cases hd) trivial
  | response hsc hf => exact listsOwned_response ho hsc hf

end

/-! ## Sign-ins on time

If no sign-in of another user completes on a screen that has left the window
while Home is in it, the user stays the same for as long as a root does, and
everything the root's screens have captured is this user's.
-/

def OnTime (s : App) : AppEvent → Prop
  | .signInCompleted k (some uid) => ∀ i a, s.signIns[k]? = some i → s.authScreens[i]? = some a →
      s.authInWindow a = false → s.isHome → s.currentUser = some uid
  | _ => True

def CapturedBy (currentUser : Option String) : ListVC → Prop
  | .detail vc => ∀ userID, vc.userID = some userID → currentUser = some userID
  | .search _ queries => ∀ query ∈ queries, currentUser = some query.userID

structure Settled (s : App) : Prop where
  seated : Seated s
  home : ∀ sc ∈ s.lists, sc.root = s.root → s.isHome
  captured : ∀ sc ∈ s.lists, sc.root = s.root → CapturedBy s.currentUser sc.vc
  owned : ∀ sc ∈ s.lists, sc.root = s.root → ∀ d ∈ sc.shown, Owned s.currentUser d

section
variable {ops : StringOps} {s s' : App}

theorem settled_isolated (h : Settled s) : Isolated s := by
  rw [isolated_iff h.seated]
  intro sc hsc hw
  unfold listInWindow at hw
  exact h.owned sc hsc (of_decide_eq_true (Bool.and_eq_true _ _ ▸ hw).1)

theorem settled_set (h : Settled s) {i : Nat} {sc sc' : ListScreen} (hsc : s.lists[i]? = some sc)
    (hs : Seated { s with lists := s.lists.set i sc' }) (hroot : sc'.root = sc.root)
    (hc : sc.root = s.root → CapturedBy s.currentUser sc'.vc ∧ ∀ d ∈ sc'.shown, Owned s.currentUser d) :
    Settled { s with lists := s.lists.set i sc' } := by
  refine ⟨hs, Listing.forall_mem_set h.home ?_, Listing.forall_mem_set h.captured ?_,
    Listing.forall_mem_set h.owned ?_⟩
  · intro hr
    exact h.home sc (List.mem_of_getElem? hsc) (hroot.symm.trans hr)
  · intro hr
    exact (hc (hroot.symm.trans hr)).1
  · intro hr
    exact (hc (hroot.symm.trans hr)).2

theorem settled_open (h : Settled s) (hhome : s.isHome) {vc : ListVC} (hs : vc.products = [])
    (hc : CapturedBy s.currentUser vc) : Settled { s with lists := s.lists ++ [⟨s.root, true, vc, []⟩] } := by
  refine ⟨seated_open h.seated hs, fun _ _ _ => hhome, Listing.forall_mem_snoc.mpr ⟨h.captured, fun _ => hc⟩,
    Listing.forall_mem_snoc.mpr ⟨h.owned, ?_⟩⟩
  intro _ d hd; cases hd

theorem settled_of_newRoot (hs : Seated s') (h : Seated s) (hlists : s'.lists = s.lists)
    (hroot : s'.root = s.root + 1) :
    Settled s' := by
  have hne : ∀ sc ∈ s'.lists, sc.root ≠ s'.root := by
    intro sc hsc
    have := h.roots sc (hlists ▸ hsc)
    omega
  exact ⟨hs, fun sc hsc hr => absurd hr (hne sc hsc), fun sc hsc hr => absurd hr (hne sc hsc),
    fun sc hsc hr => absurd hr (hne sc hsc)⟩

theorem settled_signInCompleted (h : Settled s) {k i : Nat} {a : AuthScreen} {result : Option String}
    (hi : s.signIns[k]? = some i) (ha : s.authScreens[i]? = some a) (hC : OnTime s (.signInCompleted k result))
    (hseated : Seated ({ s with signIns := s.signIns.eraseIdx k }.signInCompleted a result)) :
    Settled ({ s with signIns := s.signIns.eraseIdx k }.signInCompleted a result) := by
  cases result with
  | none => exact ⟨hseated, h.home, h.captured, h.owned⟩
  | some uid =>
    cases hw : s.authInWindow a with
    | true =>
      rw [signInCompleted_inWindow (s := { s with signIns := s.signIns.eraseIdx k }) hw] at hseated ⊢
      exact settled_of_newRoot hseated h.seated rfl rfl
    | false =>
      rw [signInCompleted_detached (s := { s with signIns := s.signIns.eraseIdx k }) hw] at hseated ⊢
      have hu : ∀ sc ∈ s.lists, sc.root = s.root → s.currentUser = some uid :=
        fun sc hsc hr => hC i a hi ha hw (h.home sc hsc hr)
      refine ⟨hseated, h.home, fun sc hsc hr => ?_, fun sc hsc hr => ?_⟩
      · show CapturedBy (some uid) sc.vc
        rw [← hu sc hsc hr]; exact h.captured sc hsc hr
      · show ∀ d ∈ sc.shown, Owned (some uid) d
        rw [← hu sc hsc hr]; exact h.owned sc hsc hr

section
variable {i : Nat} {sc sc' : ListScreen} (hsc : s.lists[i]? = some sc)
  (hseated : Seated { s with lists := s.lists.set i sc' })
include hsc hseated

theorem settled_listener (h : Settled s) {callback : Callback} (hf : sc.listener callback = some sc') :
    Settled { s with lists := s.lists.set i sc' } := by
  obtain ⟨vc, userID, hvc, hu, hroot, -, -, hshown, hvc'⟩ := listener_some hf
  apply settled_set h hsc hseated hroot
  intro hr
  have hmem := List.mem_of_getElem? hsc
  have hcaptured := h.captured sc hmem hr
  rw [hvc] at hcaptured
  rw [hshown, hvc', List.forall_mem_append, owned_all_iff isOwn_of_ownDocuments]
  refine ⟨fun userID' hu' => ?_, h.owned sc hmem hr, fun _ => hcaptured userID hu⟩
  rw [getProductForCategory_userID hu] at hu'
  cases hu'
  exact hcaptured userID hu

theorem settled_textDidChange (h : Settled s) {text : String}
    (hf : sc.textDidChange s.currentUser text = some sc') :
    Settled { s with lists := s.lists.set i sc' } := by
  obtain ⟨vc, queries, hvc, hroot, -, -, hshown, hvc'⟩ := textDidChange_some hf
  apply settled_set h hsc hseated hroot
  intro hr
  have hcaptured := h.captured sc (List.mem_of_getElem? hsc) hr
  rw [hvc] at hcaptured
  rw [hshown, hvc']
  refine ⟨List.forall_mem_append.mpr ⟨hcaptured, fun query hq => ?_⟩, fun d hd => by cases hd⟩
  obtain ⟨userID, hu, rfl⟩ := Option.map_eq_some_iff.mp (Option.mem_toList.mp hq)
  exact hu

theorem settled_response (h : Settled s) {j : Nat} {callback : Callback}
    (hf : sc.response ops j callback = some sc') :
    Settled { s with lists := s.lists.set i sc' } := by
  obtain ⟨vc, queries, query, hvc, hq, hroot, -, -, hshown, vc', hvc'⟩ := response_some hf
  apply settled_set h hsc hseated hroot
  intro hr
  have hcaptured := h.captured sc (List.mem_of_getElem? hsc) hr
  rw [hvc] at hcaptured
  rw [hshown, hvc', owned_all_iff isOwn_of_matchingDocuments]
  refine ⟨fun query' hq' => hcaptured query' (List.mem_of_mem_eraseIdx hq'), fun _ => ?_⟩
  exact hcaptured query (List.mem_of_getElem? hq)

end

theorem settled_step {e : AppEvent} (h : Settled s) (hC : OnTime s e) (hs : s.step ops e = some s') :
    Settled s' := by
  have hseated := seated_step h.seated hs
  cases step_turn hs with
  | openAuth | authAppears | signInTapped => exact ⟨hseated, h.home, h.captured, h.owned⟩
  | signInCompleted hi ha => exact settled_signInCompleted h hi ha hC hseated
  | loggedOut => exact settled_of_newRoot hseated h.seated rfl rfl
  | logoutFailed => exact h
  | openDetail hhome => exact settled_open h hhome rfl fun userID hu => hu
  | openSearch hhome => exact settled_open h hhome rfl fun query hq => by cases hq
  | @listAppears i sc appears hsc =>
    have hmem := List.mem_of_getElem? hsc
    exact settled_set h hsc hseated rfl fun hr => ⟨h.captured sc hmem hr, h.owned sc hmem hr⟩
  | listener hsc hf => exact settled_listener hsc hseated h hf
  | textDidChange hsc _ hf => exact settled_textDidChange hsc hseated h hf
  | response hsc hf => exact settled_response hsc hseated h hf

theorem isolated_of_onTime (ops : StringOps) (currentUser : Option String) {es : List AppEvent}
    (h : Runs.Along (App.step ops) OnTime (launch currentUser) es) :
    Runs.Always (App.step ops) Isolated (launch currentUser) es := by
  have hlaunch : Settled (launch currentUser) := ⟨⟨nofun, nofun, nofun⟩, nofun, nofun, nofun⟩
  exact Runs.always_mono (fun _ hs => settled_isolated hs)
    (Runs.always_of_along (fun _ _ _ hs hC h => settled_step hs hC h) hlaunch h)

end

/-! ## The session of a run -/

theorem session_isolated_iff (ops : StringOps) (currentUser : Option String) (es : List AppEvent) :
    Runs.Always (App.step ops) Isolated (launch currentUser) es ↔
      Runs.Along (App.step ops) (KeepsIsolated ops) (launch currentUser) es := by
  refine Runs.always_iff_along (I := Seated) (fun _ _ _ hs h => seated_step hs h) ?_ ?_ ?_
  · intro s e s' hs hi h
    rw [isolated_iff (seated_step hs h)]
    exact listsOwned_step hs ((isolated_iff hs).mp hi) h
  · exact ⟨nofun, nofun, nofun⟩
  · exact ⟨nofun, nofun⟩

theorem session_isolated_fails :
    ¬ ∀ (ops : StringOps) (currentUser : Option String) (es : List AppEvent),
      Runs.Always (App.step ops) Isolated (launch currentUser) es := by
  intro h
  let phone : Document := ⟨"d1", [("productName", .string "Phone"), ("userID", .string "a")]⟩
  -- two logins in flight; b's completes after a has opened a category
  have hi : Isolated _ := Runs.always_last (h asciiOps none [.openAuth, .signInTapped 0, .signInTapped 0,
    .signInCompleted 0 (some "a"), .openDetail "Phones", .listener 0 (.snapshot [phone]),
    .signInCompleted 0 (some "b")]) rfl
  obtain ⟨u, hu, hown⟩ := (hi.2 _ List.mem_cons_self rfl).2 phone List.mem_cons_self
  cases hu
  exact absurd hown (by decide)

end WarrantyGuard
