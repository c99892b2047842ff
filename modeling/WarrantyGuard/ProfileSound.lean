import WarrantyGuard.Profile
import WarrantyGuard.SignUpSound

/-!
# From the sign-up to the profile

The collection holds what it held at the launch and one document for each account
made, with the names of its sign-up, unless the account's `addDocument` has failed.
A profile of such an account shows those names as soon as it shows any, and its
listener does not trap.
-/

namespace WarrantyGuard

open Members

/-! ## What a step does -/

inductive MembersTurn (u : DecimalDigits) (s : Members) : MembersEvent → Members → Prop
  | tapped {vc : SignUpVC} : MembersTurn u s (.createAccountTapped vc)
      { s with signUps := s.signUps ++ [(SignUp.opened vc s.users).createAccountTapped u] }
  | waits {i : Nat} {su su' : SignUp} {e : SignUpEvent} (hsu : s.signUps[i]? = some su) (huid : e.uid = none)
      (he : e ≠ .addDocumentCompleted false) (husers : su'.users = s.users)
      (hcall : su'.call = su.call ∨ su'.call = none) (haccount : su'.account = su.account) :
      MembersTurn u s (.signUp i e) (s.signedUp i none su')
  | created {i : Nat} {su su' : SignUp} {m : Member} {email password documentID : String}
      (hsu : s.signUps[i]? = some su)
      (hcall : su.call = some (.createUser m.firstName m.lastName email password))
      (haccount : m.uid ∉ s.accounts) (hid : documentID ∉ s.users) (huser : hasUser s.users m.uid = false)
      (husers : su'.users = s.users.setData documentID m.data) (hcall' : su'.call = some (.addDocument documentID))
      (haccount' : su'.account = some m.uid) :
      MembersTurn u s (.signUp i (.createUserCompleted (some m.uid) documentID)) (s.signedUp i (some m.uid) su')
  | refused {i : Nat} {su su' : SignUp} {documentID : String} (hsu : s.signUps[i]? = some su)
      (hcall : su.call = some (.addDocument documentID)) (husers : su'.users = s.users.delete documentID)
      (hcall' : su'.call = none) (haccount : su'.account = su.account) :
      MembersTurn u s (.signUp i (.addDocumentCompleted false)) (s.signedUp i none su')
  | authChanged {currentUser : Option String} :
      MembersTurn u s (.authChanged currentUser) { s with currentUser := currentUser }
  | openProfile {vc : ProfileVC} (hvc : ProfileVC.viewDidLoad s.currentUser = some vc) :
      MembersTurn u s .openProfile { s with profiles := s.profiles ++ [vc] }
  | listener {k : Nat} {vc vc' : ProfileVC} {callback : Callback} (hvc : s.profiles[k]? = some vc)
      (hanswers : s.answers vc callback) (hlistener : vc.listener callback = some vc') :
      MembersTurn u s (.listener k callback) { s with profiles := s.profiles.set k vc' }

section
variable {u : DecimalDigits} {s s' : Members}

theorem signUp_turn {i : Nat} {su su' : SignUp} {e : SignUpEvent} (hsu : s.signUps[i]? = some su)
    (huid : ¬ e.uid.any (· ∈ s.accounts)) (h : SignUp.step { su with users := s.users } e = some su') :
    MembersTurn u s (.signUp i e) (s.signedUp i e.uid su') := by
  cases e with
  | fieldsChanged firstName lastName email password =>
    obtain rfl := Option.some.inj h
    exact .waits hsu rfl (by simp) rfl (.inl rfl) rfl
  | appears appears =>
    obtain ⟨-, h⟩ := Option.ite_none_left_eq_some.mp h
    obtain rfl := Option.some.inj h
    exact .waits hsu rfl (by simp) rfl (.inl rfl) rfl
  | createUserCompleted uid documentID =>
    simp only [SignUp.step] at h
    split at h
    · rename_i firstName lastName email password hcall
      cases uid with
      | none =>
        obtain rfl := Option.some.inj h
        exact .waits hsu rfl (by simp) rfl (.inr rfl) rfl
      | some uid =>
        obtain ⟨hnew, h⟩ := Option.ite_none_left_eq_some.mp h
        obtain ⟨hid, huser⟩ := not_or.mp hnew
        obtain rfl := Option.some.inj h
        refine @MembersTurn.created u s i su _ ⟨uid, firstName, lastName⟩
          email password documentID hsu hcall ?_ hid ?_ ?_
          (SignUp.transitionToHome_call _) (SignUp.transitionToHome_account _)
        · simpa [SignUpEvent.uid] using huid
        · simpa using huser
        · rw [SignUp.transitionToHome_users]; rfl
    · cases h
  | addDocumentCompleted succeeds =>
    simp only [SignUp.step] at h
    split at h
    · rename_i documentID hcall
      obtain rfl := Option.some.inj h
      cases succeeds with
      | true => exact .waits hsu rfl (by simp) rfl (.inr rfl) rfl
      | false => exact .refused hsu hcall rfl rfl rfl
    · cases h

theorem members_turn {e : MembersEvent} (h : s.step u e = some s') : MembersTurn u s e s' := by
  cases e with
  | createAccountTapped vc => cases h; exact .tapped
  | signUp i e =>
    obtain ⟨su, hsu, h⟩ := Option.bind_eq_some_iff.mp h
    obtain ⟨huid, h⟩ := Option.ite_none_left_eq_some.mp h
    obtain ⟨su', hstep, rfl⟩ := Option.map_eq_some_iff.mp h
    exact signUp_turn hsu huid hstep
  | authChanged currentUser => cases h; exact .authChanged
  | openProfile =>
    obtain ⟨vc, hvc, rfl⟩ := Option.map_eq_some_iff.mp h
    exact .openProfile hvc
  | listener k callback =>
    obtain ⟨vc, hvc, h⟩ := Option.bind_eq_some_iff.mp h
    obtain ⟨hanswers, h⟩ := Option.ite_none_right_eq_some.mp h
    obtain ⟨vc', hlistener, rfl⟩ := Option.map_eq_some_iff.mp h
    exact .listener hvc hanswers hlistener

end

theorem data_uid (m : Member) : m.data.string "uid" = some m.uid := rfl

/-! ## The collection -/

/-- The members whose `addDocument` has not failed. -/
def enrolled (members : List Member) (refused : List String) : List Member :=
  members.filter fun m => m.uid ∉ refused

/-- `taken` at the launch and one document for each member enrolled. -/
structure Roster (taken : Collection) (members : List Member) (refused : List String) (s : Members) : Prop where
  accounts : s.accounts = members.map (·.uid)
  nodup : (members.map (·.uid)).Nodup
  known : ∀ uid ∈ refused, uid ∈ s.accounts
  values : (Listing.values s.users).Perm
    (Listing.values taken ++ (enrolled members refused).map Member.data)
  fresh : ∀ m ∈ members, ∀ data ∈ Listing.values taken, data.string "uid" ≠ some m.uid
  seen : ∀ d ∈ s.seen, d.data ∈ Listing.values taken ∨ ∃ m ∈ members, d.data = m.data

section
variable {taken : Collection} {members : List Member} {refused : List String} {s : Members}

theorem roster_value (hr : Roster taken members refused s) {data : Data} (h : data ∈ Listing.values s.users) :
    data ∈ Listing.values taken ∨ ∃ m ∈ members, data = m.data := by
  rcases List.mem_append.mp (hr.values.mem_iff.mp h) with h | h
  · exact .inl h
  · obtain ⟨m, hm, rfl⟩ := List.mem_map.mp h
    exact .inr ⟨m, List.mem_of_mem_filter hm, rfl⟩

/-- A document with a member's uid is the member's. -/
theorem seen_data (hr : Roster taken members refused s) {m : Member} (hm : m ∈ members) {d : Document}
    (hd : d ∈ s.seen) (huid : d.data.string "uid" = some m.uid) : d.data = m.data := by
  rcases hr.seen d hd with h | h
  · exact absurd huid (hr.fresh m hm _ h)
  · obtain ⟨m', hm', hdata⟩ := h
    rw [hdata, data_uid, Option.some_inj] at huid
    rw [hdata, List.inj_on_of_nodup_map hr.nodup hm' hm huid]

theorem roster_seen (hr : Roster taken members refused s) {users : Collection}
    (husers : ∀ data ∈ Listing.values users, data ∈ Listing.values taken ∨ ∃ m ∈ members, data = m.data) :
    ∀ d ∈ s.seen ++ users.documents, d.data ∈ Listing.values taken ∨ ∃ m ∈ members, d.data = m.data := by
  intro d hd
  rcases List.mem_append.mp hd with hd | hd
  · exact hr.seen d hd
  · exact husers _ (mem_values_documents hd)

theorem roster_waits (hr : Roster taken members refused s) {i : Nat} {su' : SignUp}
    (husers : su'.users = s.users) :
    Roster taken members refused (s.signedUp i none su') where
  accounts := by rw [← hr.accounts]; exact List.append_nil _
  nodup := hr.nodup
  known uid hm := List.mem_append_left _ (hr.known uid hm)
  values := by simp only [Members.signedUp, husers]; exact hr.values
  fresh := hr.fresh
  seen := by
    simp only [Members.signedUp, husers]
    exact roster_seen hr fun data => roster_value hr

theorem roster_created (hr : Roster taken members refused s) {i : Nat} {su' : SignUp} {m : Member}
    {documentID : String} (haccount : m.uid ∉ s.accounts) (hid : documentID ∉ s.users)
    (huser : hasUser s.users m.uid = false) (husers : su'.users = s.users.setData documentID m.data) :
    Roster taken (members ++ [m]) refused (s.signedUp i (some m.uid) su') := by
  have hvalues : Listing.values su'.users = m.data :: Listing.values s.users := by
    rw [husers]; exact Listing.values_insert m.data hid
  have hnone : ∀ data ∈ Listing.values s.users, data.string "uid" ≠ some m.uid := by
    intro data hdata huid
    obtain ⟨id, hlookup⟩ := Listing.mem_values.mp hdata
    have := hasUser_iff.mpr ⟨id, data, hlookup, huid⟩
    rw [huser] at this
    cases this
  have hlive : m.uid ∉ refused := fun hm => haccount (hr.known _ hm)
  have hperm : (Listing.values su'.users).Perm
      (Listing.values taken ++ (enrolled (members ++ [m]) refused).map Member.data) := by
    rw [hvalues, enrolled, List.filter_append, List.filter_cons_of_pos (by simpa using hlive),
      List.filter_nil, List.map_append, ← List.append_assoc]
    exact (hr.values.cons m.data).trans (List.perm_append_singleton m.data _).symm
  refine ⟨?_, ?_, fun uid hm => List.mem_append_left _ (hr.known uid hm), hperm, ?_, ?_⟩
  · rw [List.map_append, ← hr.accounts]; rfl
  · rw [List.map_append, List.map_singleton, Listing.nodup_snoc]
    exact ⟨by rw [← hr.accounts]; exact haccount, hr.nodup⟩
  · refine Listing.forall_mem_snoc.mpr ⟨hr.fresh, fun data hdata => hnone data ?_⟩
    exact hr.values.mem_iff.mpr (List.mem_append_left _ hdata)
  · intro d hd
    rcases List.mem_append.mp hd with hd | hd
    · rcases hr.seen d hd with h | h
      · exact .inl h
      · obtain ⟨m', hm', hdata⟩ := h
        exact .inr ⟨m', List.mem_append_left _ hm', hdata⟩
    · rcases List.mem_append.mp (hperm.mem_iff.mp (mem_values_documents hd)) with h | h
      · exact .inl h
      · obtain ⟨m', hm', hdata⟩ := List.mem_map.mp h
        exact .inr ⟨m', List.mem_of_mem_filter hm', hdata.symm⟩

theorem enrolled_refused (hn : (members.map (·.uid)).Nodup) {m : Member} (hm : m ∈ members)
    (hlive : m.uid ∉ refused) :
    (enrolled members refused).Perm (m :: enrolled members (refused ++ [m.uid])) := by
  have hmem : m ∈ enrolled members refused := List.mem_filter.mpr ⟨hm, by simpa using hlive⟩
  have hnodup : ((enrolled members refused).map (·.uid)).Nodup := hn.sublist (List.filter_sublist.map _)
  have heq : enrolled members (refused ++ [m.uid]) =
      (enrolled members refused).filter fun m' => m'.uid ≠ m.uid := by
    unfold enrolled
    rw [List.filter_filter]
    apply List.filter_congr
    intro m' _
    by_cases h : m'.uid = m.uid <;> simp [h]
  rw [heq]
  exact Listing.perm_cons_filter_ne (·.uid) hnodup hmem

theorem roster_refused (hr : Roster taken members refused s) {i : Nat} {su' : SignUp} {m : Member}
    {documentID : String} (hm : m ∈ members) (hlive : m.uid ∉ refused)
    (hlookup : s.users.lookup documentID = some m.data) (husers : su'.users = s.users.delete documentID) :
    Roster taken members (refused ++ [m.uid]) (s.signedUp i none su') := by
  have hold : (Listing.values s.users).Perm (m.data :: Listing.values su'.users) := by
    rw [husers]; exact Listing.values_erase hlookup
  have hperm : (Listing.values su'.users).Perm
      (Listing.values taken ++ (enrolled members (refused ++ [m.uid])).map Member.data) := by
    have hrest := ((enrolled_refused hr.nodup hm hlive).map Member.data).append_left (Listing.values taken)
    exact (hold.symm.trans (hr.values.trans (hrest.trans List.perm_middle))).cons_inv
  have haccounts : (s.signedUp i none su').accounts = s.accounts := List.append_nil _
  refine ⟨haccounts.trans hr.accounts, hr.nodup, ?_, hperm, hr.fresh, ?_⟩
  · rw [haccounts]
    refine Listing.forall_mem_snoc.mpr ⟨hr.known, ?_⟩
    rw [hr.accounts]; exact List.mem_map_of_mem hm
  · exact roster_seen hr fun data hdata => roster_value hr (hold.mem_iff.mpr (List.mem_cons_of_mem _ hdata))

end

/-! ## The calls -/

/-- The names are those of the fields at an accepted tap. -/
def SignedUp (u : DecimalDigits) (taps : List SignUpVC) (firstName lastName : String) : Prop :=
  ∃ vc ∈ taps, vc.validateFields u = none ∧ firstName = trimmingCharacters vc.firstNameTextField ∧
    lastName = trimmingCharacters vc.lastNameTextField

/-- What a sign-up waits for. -/
inductive Phase (u : DecimalDigits) (taps : List SignUpVC) (members : List Member) (refused : List String)
    (users : Collection) (su : SignUp) : Prop
  | idle (hcall : su.call = none)
  | creating {firstName lastName email password : String}
      (hcall : su.call = some (.createUser firstName lastName email password))
      (h : SignedUp u taps firstName lastName)
  | saving {documentID : String} {m : Member} (hcall : su.call = some (.addDocument documentID)) (hm : m ∈ members)
      (hlive : m.uid ∉ refused) (haccount : su.account = some m.uid)
      (hlookup : users.lookup documentID = some m.data)

/-- Each sign-up waits for its own account's document. -/
structure Pending (u : DecimalDigits) (taps : List SignUpVC) (members : List Member) (refused : List String)
    (s : Members) : Prop where
  signedUp : ∀ m ∈ members, SignedUp u taps m.firstName m.lastName
  phases : ∀ su ∈ s.signUps, Phase u taps members refused s.users su
  owners : ∀ uid ∈ s.signUps.filterMap (·.account), uid ∈ s.accounts
  distinct : (s.signUps.filterMap (·.account)).Nodup

section
variable {u : DecimalDigits} {taken : Collection} {taps : List SignUpVC} {members : List Member}
  {refused : List String} {s : Members}

theorem phase_mono {users users' : Collection} {taps' : List SignUpVC} {members' : List Member}
    {refused' : List String} {su : SignUp} (h : Phase u taps members refused users su) (htaps : taps ⊆ taps')
    (hmembers : members ⊆ members')
    (hlive : ∀ m : Member, su.account = some m.uid → m.uid ∉ refused → m.uid ∉ refused')
    (hlookup : ∀ (m : Member) id, su.account = some m.uid → users.lookup id = some m.data →
      users'.lookup id = some m.data) :
    Phase u taps' members' refused' users' su := by
  cases h with
  | idle hcall => exact .idle hcall
  | creating hcall h =>
    obtain ⟨vc, hvc, h⟩ := h
    exact .creating hcall ⟨vc, htaps hvc, h⟩
  | saving hcall hm hl ha hd => exact .saving hcall (hmembers hm) (hlive _ ha hl) ha (hlookup _ _ ha hd)

theorem phase_call {users : Collection} {su su' : SignUp} (h : Phase u taps members refused users su)
    (hcall : su'.call = su.call ∨ su'.call = none) (haccount : su'.account = su.account) :
    Phase u taps members refused users su' := by
  rcases hcall with hcall | hcall
  · cases h with
    | idle h => exact .idle (hcall.trans h)
    | creating h he => exact .creating (hcall.trans h) he
    | saving h hm hl ha hd => exact .saving (hcall.trans h) hm hl (haccount.trans ha) hd
  · exact .idle hcall

theorem accounts_set {l : List SignUp} {i : Nat} {su su' : SignUp} (hsu : l[i]? = some su)
    (haccount : su'.account = su.account) :
    ((l.set i su').filterMap (·.account)).Perm (l.filterMap (·.account)) := by
  have hold := (Listing.perm_cons_eraseIdx hsu).filterMap (·.account)
  have hnew := (Listing.set_perm hsu su').filterMap (·.account)
  rw [List.filterMap_cons, haccount, ← List.filterMap_cons] at hnew
  exact hnew.trans hold.symm

theorem phase_tapped (vc : SignUpVC) (hvc : vc ∈ taps) (users users' : Collection) :
    Phase u taps members refused users ((SignUp.opened vc users').createAccountTapped u) := by
  cases hv : vc.validateFields u with
  | some error => exact .idle (by simp only [SignUp.createAccountTapped, SignUp.opened, hv])
  | none =>
    have hcall : ((SignUp.opened vc users').createAccountTapped u).call = some (.createUser
        (trimmingCharacters vc.firstNameTextField) (trimmingCharacters vc.lastNameTextField)
        (trimmingCharacters vc.emailTextField) (trimmingCharacters vc.passwordTextField)) := by
      simp only [SignUp.createAccountTapped, SignUp.opened, hv]
    exact .creating hcall ⟨vc, hvc, hv, rfl, rfl⟩

theorem pending_tapped (hp : Pending u taps members refused s) (vc : SignUpVC) :
    Pending u (taps ++ [vc]) members refused
      { s with signUps := s.signUps ++ [(SignUp.opened vc s.users).createAccountTapped u] } := by
  have htaps : taps ⊆ taps ++ [vc] := List.subset_append_left _ _
  have haccount : ((SignUp.opened vc s.users).createAccountTapped u).account = none := by
    unfold SignUp.createAccountTapped
    split <;> rfl
  have haccounts : (s.signUps ++ [(SignUp.opened vc s.users).createAccountTapped u]).filterMap (·.account) =
      s.signUps.filterMap (·.account) := by
    rw [List.filterMap_append, List.filterMap_cons, haccount, List.filterMap_nil, List.append_nil]
  refine ⟨fun m hm => ?_, Listing.forall_mem_snoc.mpr ⟨fun su hsu => ?_, phase_tapped vc (by simp) _ _⟩, ?_, ?_⟩
  · obtain ⟨vc', hvc', h⟩ := hp.signedUp m hm
    exact ⟨vc', htaps hvc', h⟩
  · exact phase_mono (hp.phases su hsu) htaps (List.Subset.refl _) (fun _ _ => id) fun _ _ _ => id
  · rw [haccounts]; exact hp.owners
  · rw [haccounts]; exact hp.distinct

theorem pending_waits (hp : Pending u taps members refused s) {i : Nat} {su su' : SignUp}
    (hsu : s.signUps[i]? = some su) (husers : su'.users = s.users)
    (hcall : su'.call = su.call ∨ su'.call = none) (haccount : su'.account = su.account) :
    Pending u taps members refused (s.signedUp i none su') := by
  have hperm := accounts_set hsu haccount
  have hphase := phase_call (hp.phases su (List.mem_of_getElem? hsu)) hcall haccount
  refine ⟨hp.signedUp, ?_, fun uid hm => ?_, hperm.nodup_iff.mpr hp.distinct⟩
  · simp only [Members.signedUp, husers]
    exact Listing.forall_mem_set hp.phases hphase
  · exact List.mem_append_left _ (hp.owners uid (hperm.mem_iff.mp hm))

theorem pending_created (hp : Pending u taps members refused s) (hr : Roster taken members refused s) {i : Nat}
    {su su' : SignUp} {m : Member} {email password documentID : String} (hsu : s.signUps[i]? = some su)
    (hcall : su.call = some (.createUser m.firstName m.lastName email password)) (haccount : m.uid ∉ s.accounts)
    (hid : documentID ∉ s.users) (husers : su'.users = s.users.setData documentID m.data)
    (hcall' : su'.call = some (.addDocument documentID)) (haccount' : su'.account = some m.uid) :
    Pending u taps (members ++ [m]) refused (s.signedUp i (some m.uid) su') := by
  have hsigned : SignedUp u taps m.firstName m.lastName := by
    cases hp.phases su (List.mem_of_getElem? hsu) with
    | creating h he => cases hcall.symm.trans h; exact he
    | idle h | saving h => cases hcall.symm.trans h
  have hperm : ((s.signUps.set i su').filterMap (·.account)).Perm
      (m.uid :: (s.signUps.eraseIdx i).filterMap (·.account)) := by
    have h := (Listing.set_perm hsu su').filterMap (·.account)
    rwa [List.filterMap_cons_some haccount'] at h
  have hsub := (List.eraseIdx_sublist s.signUps i).filterMap (·.account)
  have hnew : m.uid ∉ (s.signUps.eraseIdx i).filterMap (·.account) :=
    fun hm => haccount (hp.owners _ (hsub.subset hm))
  refine ⟨Listing.forall_mem_snoc.mpr ⟨hp.signedUp, hsigned⟩, ?_, fun uid hm => ?_, ?_⟩
  · simp only [Members.signedUp, husers]
    refine Listing.forall_mem_set (fun su hsu => ?_) ?_
    · exact phase_mono (hp.phases su hsu) (List.Subset.refl _) (List.subset_append_left _ _) (fun _ _ => id)
        fun m' id _ => Listing.lookup_insert_of_notMem m.data hid id m'.data
    · refine .saving hcall' (List.mem_append_right _ (List.mem_singleton_self m)) (fun hm => ?_) haccount'
        (AList.lookup_insert _)
      exact haccount (hr.known _ hm)
  · rcases List.mem_cons.mp (hperm.mem_iff.mp hm) with rfl | hm
    · exact List.mem_append_right _ (List.mem_singleton_self _)
    · exact List.mem_append_left _ (hp.owners uid (hsub.subset hm))
  · exact hperm.nodup_iff.mpr (List.nodup_cons.mpr ⟨hnew, hp.distinct.sublist hsub⟩)

/-- The account whose document a sign-up waits for. -/
theorem phase_saving {su : SignUp} {documentID : String} (h : Phase u taps members refused s.users su)
    (hcall : su.call = some (.addDocument documentID)) : ∃ m ∈ members, m.uid ∉ refused ∧ su.account = some m.uid ∧
      s.users.lookup documentID = some m.data := by
  cases h with
  | saving h hm hlive ha hd => cases hcall.symm.trans h; exact ⟨_, hm, hlive, ha, hd⟩
  | idle h | creating h => cases hcall.symm.trans h

theorem pending_refused (hp : Pending u taps members refused s) {i : Nat} {su su' : SignUp} {m : Member}
    {documentID : String} (hsu : s.signUps[i]? = some su) (haccount : su.account = some m.uid)
    (hlookup : s.users.lookup documentID = some m.data) (husers : su'.users = s.users.delete documentID)
    (hcall' : su'.call = none) (haccount' : su'.account = su.account) :
    Pending u taps members (refused ++ [m.uid]) (s.signedUp i none su') := by
  have hperm := accounts_set hsu haccount'
  have hothers : ∀ m' : Member, ∀ su'' ∈ s.signUps.eraseIdx i, su''.account = some m'.uid → m'.uid ≠ m.uid := by
    intro m' su'' hm ha huid
    have hold := (Listing.perm_cons_eraseIdx hsu).filterMap (·.account)
    rw [List.filterMap_cons_some haccount] at hold
    refine (List.nodup_cons.mp (hold.nodup_iff.mp hp.distinct)).1 (List.mem_filterMap.mpr ⟨su'', hm, ?_⟩)
    rw [ha, huid]
  refine ⟨hp.signedUp, ?_, fun uid hm => ?_, hperm.nodup_iff.mpr hp.distinct⟩
  · simp only [Members.signedUp, husers]
    refine (Listing.forall_mem_set_iff hsu su').mpr ⟨.idle hcall', fun su'' hm => ?_⟩
    refine phase_mono (hp.phases su'' (List.mem_of_mem_eraseIdx hm)) (List.Subset.refl _)
      (List.Subset.refl _) ?_ ?_
    · intro m' ha hlive
      simpa [hlive] using hothers m' su'' hm ha
    · intro m' id ha hd
      rw [Collection.delete, AList.lookup_erase_ne, hd]
      rintro rfl
      have := congrArg (Data.string · "uid") (Option.some.inj (hd.symm.trans hlookup))
      exact hothers m' su'' hm ha (Option.some.inj this)
  · exact List.mem_append_left _ (hp.owners uid (hperm.mem_iff.mp hm))

end

/-! ## Over a run -/

section
variable {u : DecimalDigits} {taken : Collection} {taps : List SignUpVC} {members : List Member}
  {refused : List String} {s s' : Members} {es : List MembersEvent}

theorem created_eq_nil {i : Nat} {e : SignUpEvent} (huid : e.uid = none) : s.created (.signUp i e) = [] := by
  cases e with
  | createUserCompleted uid documentID => cases huid; rfl
  | fieldsChanged | appears | addDocumentCompleted => rfl

theorem refused_eq_nil {i : Nat} {e : SignUpEvent} (he : e ≠ .addDocumentCompleted false) :
    s.refused (.signUp i e) = [] := by
  cases e with
  | addDocumentCompleted succeeds =>
    cases succeeds with
    | true => rfl
    | false => exact absurd rfl he
  | fieldsChanged | appears | createUserCompleted => rfl

theorem roster_step {e : MembersEvent} (hr : Roster taken members refused s)
    (hp : Pending u taps members refused s) (h : s.step u e = some s') :
    Roster taken (members ++ s.created e) (refused ++ s.refused e) s' ∧
      Pending u (taps ++ e.tapped) (members ++ s.created e) (refused ++ s.refused e) s' := by
  have hsame : ∀ t : Members, t.users = s.users → t.seen = s.seen → t.accounts = s.accounts →
      Roster taken members refused t := by
    intro t husers hseen haccounts
    refine ⟨haccounts.trans hr.accounts, hr.nodup, ?_, ?_, hr.fresh, ?_⟩
    · rw [haccounts]; exact hr.known
    · rw [husers]; exact hr.values
    · rw [hseen]; exact hr.seen
  cases members_turn h with
  | tapped =>
    simp only [Members.created, Members.refused, MembersEvent.tapped, List.append_nil]
    exact ⟨hsame _ rfl rfl rfl, pending_tapped hp _⟩
  | waits hsu huid he husers hcall haccount =>
    have htapped : ∀ i e, (MembersEvent.signUp i e).tapped = [] := fun _ _ => rfl
    rw [created_eq_nil huid, refused_eq_nil he, htapped, List.append_nil, List.append_nil, List.append_nil]
    exact ⟨roster_waits hr husers, pending_waits hp hsu husers hcall haccount⟩
  | created hsu hcall haccount hid huser husers hcall' haccount' =>
    simp only [Members.created, Members.refused, MembersEvent.tapped, hsu, hcall, Option.bind_some,
      List.append_nil]
    exact ⟨roster_created hr haccount hid huser husers,
      pending_created hp hr hsu hcall haccount hid husers hcall' haccount'⟩
  | refused hsu hcall husers hcall' haccount' =>
    obtain ⟨m, hm, hlive, ha, hlookup⟩ := phase_saving (hp.phases _ (List.mem_of_getElem? hsu)) hcall
    simp only [Members.created, Members.refused, MembersEvent.tapped, hsu, ha, Option.bind_some,
      Option.toList_some, List.append_nil]
    exact ⟨roster_refused hr hm hlive hlookup husers, pending_refused hp hsu ha hlookup husers hcall' haccount'⟩
  | authChanged | openProfile | listener =>
    simp only [Members.created, Members.refused, MembersEvent.tapped, List.append_nil]
    exact ⟨hsame _ rfl rfl rfl, hp.signedUp, hp.phases, hp.owners, hp.distinct⟩

theorem roster_launch (taken : Collection) (currentUser : Option String) :
    Roster taken [] [] (launch taken currentUser) where
  accounts := rfl
  nodup := List.nodup_nil
  known := fun _ hm => (List.not_mem_nil hm).elim
  values := by simp [launch, enrolled]
  fresh := fun _ hm => (List.not_mem_nil hm).elim
  seen := fun _ hd => .inl (mem_values_documents hd)

theorem pending_launch (u : DecimalDigits) (taken : Collection) (currentUser : Option String) :
    Pending u [] [] [] (launch taken currentUser) where
  signedUp := fun _ hm => (List.not_mem_nil hm).elim
  phases := fun _ hm => (List.not_mem_nil hm).elim
  owners := fun _ hm => (List.not_mem_nil hm).elim
  distinct := List.nodup_nil

theorem roster_run {currentUser : Option String}
    (hrun : Runs.run (Members.step u) (launch taken currentUser) es = some s) :
    Roster taken (Runs.log (Members.step u) created (launch taken currentUser) es)
        (Runs.log (Members.step u) Members.refused (launch taken currentUser) es) s ∧
      Pending u (es.flatMap MembersEvent.tapped) (Runs.log (Members.step u) created (launch taken currentUser) es)
        (Runs.log (Members.step u) Members.refused (launch taken currentUser) es) s := by
  refine Runs.run_history (I := fun s es =>
    Roster taken (Runs.log (Members.step u) created (launch taken currentUser) es)
        (Runs.log (Members.step u) Members.refused (launch taken currentUser) es) s ∧
      Pending u (es.flatMap MembersEvent.tapped) (Runs.log (Members.step u) created (launch taken currentUser) es)
        (Runs.log (Members.step u) Members.refused (launch taken currentUser) es) s)
    ⟨roster_launch taken currentUser, pending_launch u taken currentUser⟩ ?_ hrun
  intro t es e t' hes ih ht
  rw [Runs.log_snoc _ hes, Runs.log_snoc _ hes, List.flatMap_append, List.flatMap_singleton]
  exact roster_step ih.1 ih.2 ht

end

theorem signedUp_names {u : DecimalDigits} {taps : List SignUpVC} {firstName lastName : String}
    (h : SignedUp u taps firstName lastName) : firstName ≠ "" ∧ lastName ≠ "" := by
  obtain ⟨vc, -, hv, rfl, rfl⟩ := h
  constructor
  · intro h
    simp [SignUpVC.validateFields, h] at hv
  · intro h
    simp [SignUpVC.validateFields, h] at hv

/-- **The roster.** Over any run `users` gains exactly one document for each account made
whose `addDocument` has not failed, no account is made twice, and a document holds the
trimmed names of the fields at an accepted tap, neither of them empty. -/
theorem users_gain_members (u : DecimalDigits) (users : Collection) (currentUser : Option String)
    (es : List MembersEvent) {s : Members}
    (hrun : Runs.run (Members.step u) (launch users currentUser) es = some s) :
    ∃ members refused, members = Runs.log (Members.step u) created (launch users currentUser) es ∧
      refused = Runs.log (Members.step u) Members.refused (launch users currentUser) es ∧
      (members.map (·.uid)).Nodup ∧
      (Listing.values s.users).Perm (Listing.values users ++ (enrolled members refused).map Member.data) ∧
      ∀ m ∈ members, SignedUp u (es.flatMap MembersEvent.tapped) m.firstName m.lastName ∧ m.firstName ≠ "" ∧
        m.lastName ≠ "" := by
  obtain ⟨hr, hp⟩ := roster_run hrun
  exact ⟨_, _, rfl, rfl, hr.nodup, hr.values, fun m hm => ⟨hp.signedUp m hm, signedUp_names (hp.signedUp m hm)⟩⟩

def joins : List MembersEvent :=
  [.createAccountTapped filledIn, .signUp 0 (.createUserCompleted (some "u") "A"), .openProfile,
    .listener 0 (.snapshot [⟨"A", userData "First" "Last" "u"⟩])]

theorem users_gain_members_filledIn : ∃ s,
    Runs.run (Members.step asciiDigits) (launch ∅ none) joins = some s ∧
      (Listing.values s.users).Perm (Listing.values (∅ : Collection) ++ [userData "First" "Last" "u"]) ∧
      SignedUp asciiDigits (joins.flatMap MembersEvent.tapped) "First" "Last" := by
  obtain ⟨s, hs⟩ : ∃ s, Runs.run (Members.step asciiDigits) (launch ∅ none) joins = some s := ⟨_, rfl⟩
  have hmembers : Runs.log (Members.step asciiDigits) created
      (launch ∅ none) joins = [⟨"u", "First", "Last"⟩] := rfl
  have hrefused : Runs.log (Members.step asciiDigits) Members.refused (launch ∅ none) joins = [] := rfl
  obtain ⟨_, _, rfl, rfl, -, hvalues, hsigned⟩ := users_gain_members asciiDigits ∅ none joins hs
  rw [hmembers, hrefused] at hvalues
  rw [hmembers] at hsigned
  exact ⟨s, hs, hvalues, (hsigned _ (List.mem_singleton_self _)).1⟩

/-! ## What a profile shows -/

def Named (d : Document) : Prop := (d.data.string "firstname").isSome ∧ (d.data.string "lastname").isSome

structure Shows (vc : ProfileVC) (d : Document) : Prop where
  firstname : d.data.string "firstname" = some vc.firstNameTextView
  lastname : d.data.string "lastname" = some vc.lastNameTextView

theorem showDocument_some {vc vc' : ProfileVC} {d : Document} (h : vc.showDocument d = some vc') :
    vc'.uid = vc.uid ∧ Shows vc' d := by
  obtain ⟨firstName, hfirst, h⟩ := Option.bind_eq_some_iff.mp h
  obtain ⟨lastName, hlast, rfl⟩ := Option.map_eq_some_iff.mp h
  exact ⟨rfl, hfirst, hlast⟩

theorem showDocument_isSome (vc : ProfileVC) (d : Document) : (vc.showDocument d).isSome ↔ Named d := by
  unfold ProfileVC.showDocument Named
  cases d.data.string "firstname" <;> cases d.data.string "lastname" <;> simp

/-- The listener traps on a document without both names and on no other. -/
theorem listener_isSome (vc : ProfileVC) (documents : List Document) :
    (vc.listener (.snapshot documents)).isSome ↔ ∀ d ∈ documents, Named d := by
  simp only [ProfileVC.listener]
  induction documents generalizing vc with
  | nil => simp
  | cons d documents ih =>
    rw [List.foldlM_cons, List.forall_mem_cons, ← showDocument_isSome vc]
    cases vc.showDocument d with
    | none => simp
    | some vc' => simpa using ih vc'

/-- The last document of the snapshot stays. -/
theorem listener_shows {vc vc' : ProfileVC} {documents : List Document}
    (h : vc.listener (.snapshot documents) = some vc') :
    vc'.uid = vc.uid ∧ (documents = [] ∧ vc' = vc ∨ ∃ d, documents.getLast? = some d ∧ Shows vc' d) := by
  simp only [ProfileVC.listener] at h
  induction documents using List.reverseRecOn generalizing vc' with
  | nil => cases h; exact ⟨rfl, .inl ⟨rfl, rfl⟩⟩
  | append_singleton documents d ih =>
    rw [List.foldlM_append] at h
    obtain ⟨vc₁, h₁, h⟩ := Option.bind_eq_some_iff.mp h
    rw [List.foldlM_cons] at h
    obtain ⟨vc₂, h₂, h⟩ := Option.bind_eq_some_iff.mp h
    cases h
    obtain ⟨huid, hshows⟩ := showDocument_some h₂
    exact ⟨huid.trans (ih h₁).1, .inr ⟨d, List.getLast?_concat, hshows⟩⟩

/-- A profile shows nothing yet, or a document with its uid that `users` has held. -/
def Shown (s : Members) : Prop := ∀ vc ∈ s.profiles, (vc.firstNameTextView = "" ∧ vc.lastNameTextView = "") ∨
  ∃ d ∈ s.seen, d.data.string "uid" = some vc.uid ∧ Shows vc d

section
variable {u : DecimalDigits} {taken : Collection} {members : List Member} {refused : List String} {s s' : Members}

theorem answers_mem {vc : ProfileVC} {documents : List Document} (h : s.answers vc (.snapshot documents)) :
    ∀ d ∈ documents, d ∈ s.seen ∧ d.data.string "uid" = some vc.uid := by
  intro d hd
  obtain ⟨hseen, huid⟩ := Bool.and_eq_true_iff.mp (List.all_eq_true.mp h d hd)
  exact ⟨of_decide_eq_true hseen, string_eq_some.mpr (of_decide_eq_true huid)⟩

theorem shown_listener (hs : Shown s) {k : Nat} {vc vc' : ProfileVC} {callback : Callback}
    (hvc : s.profiles[k]? = some vc) (hanswers : s.answers vc callback) (h : vc.listener callback = some vc') :
    Shown { s with profiles := s.profiles.set k vc' } := by
  refine Listing.forall_mem_set hs ?_
  have hold := hs vc (List.mem_of_getElem? hvc)
  cases callback with
  | error => cases h; exact hold
  | snapshot documents =>
    obtain ⟨huid, ⟨-, rfl⟩ | ⟨d, hd, hshows⟩⟩ := listener_shows h
    · exact hold
    · obtain ⟨hseen, hd⟩ := answers_mem hanswers d (List.mem_of_getLast? hd)
      exact .inr ⟨d, hseen, by rw [hd, huid], hshows⟩

theorem shown_step {e : MembersEvent} (hs : Shown s) (h : s.step u e = some s') : Shown s' := by
  have hgrows : ∀ i uid su, Shown (s.signedUp i uid su) := by
    intro i uid su vc hvc
    rcases hs vc hvc with h | ⟨d, hd, h⟩
    · exact .inl h
    · exact .inr ⟨d, List.mem_append_left _ hd, h⟩
  cases members_turn h with
  | tapped | authChanged => exact hs
  | waits | created | refused => exact hgrows _ _ _
  | openProfile hvc =>
    obtain ⟨uid, -, rfl⟩ := Option.map_eq_some_iff.mp hvc
    exact Listing.forall_mem_snoc.mpr ⟨hs, .inl ⟨rfl, rfl⟩⟩
  | listener hvc hanswers hlistener => exact shown_listener hs hvc hanswers hlistener

theorem shows_member {vc : ProfileVC} {d : Document} {m : Member} (h : Shows vc d) (hd : d.data = m.data) :
    vc.firstNameTextView = m.firstName ∧ vc.lastNameTextView = m.lastName := by
  have hfirst := h.firstname
  have hlast := h.lastname
  rw [hd] at hfirst hlast
  exact ⟨(Option.some.inj hfirst).symm, (Option.some.inj hlast).symm⟩

/-! ### The profile's query -/

theorem enrolled_filter (m : Member) (h : m.uid ∈ refused) :
    (enrolled members refused).filter (·.uid = m.uid) = [] := by
  rw [enrolled, List.filter_filter]
  refine List.filter_eq_nil_iff.mpr fun m' _ => ?_
  by_cases huid : m'.uid = m.uid
  · simp [huid, h]
  · simp [huid]

/-- The query finds the enrolled documents with the member's uid. -/
theorem whereField_enrolled (hr : Roster taken members refused s) {m : Member} (hm : m ∈ members) :
    ((s.users.whereField "uid" (.string m.uid)).map Document.data).Perm
      (((enrolled members refused).filter (·.uid = m.uid)).map Member.data) := by
  have hnone : (Listing.values taken).filter (fun data => data.lookup "uid" = some (.string m.uid)) = [] := by
    refine List.filter_eq_nil_iff.mpr fun data hdata => ?_
    simpa [← string_eq_some] using hr.fresh m hm data hdata
  have hp := hr.values.filter fun data => data.lookup "uid" = some (.string m.uid)
  rw [List.filter_append, hnone, List.nil_append, List.filter_map] at hp
  refine (whereField_values _ _ _).trans (hp.trans (.of_eq ?_))
  congr 1
  apply List.filter_congr
  intro m' _
  simp [← string_eq_some, data_uid]

theorem whereField_refused (hr : Roster taken members refused s) {m : Member} (hm : m ∈ members)
    (h : m.uid ∈ refused) :
    s.users.whereField "uid" (.string m.uid) = [] := by
  have hp := whereField_enrolled hr hm
  rw [enrolled_filter m h, List.map_nil] at hp
  exact List.map_eq_nil_iff.mp hp.eq_nil

theorem whereField_live (hr : Roster taken members refused s) {m : Member} (hm : m ∈ members)
    (h : m.uid ∉ refused) :
    ∃ id, s.users.whereField "uid" (.string m.uid) = [⟨id, m.data⟩] := by
  have hone := (enrolled_refused hr.nodup hm h).filter (·.uid = m.uid)
  have hgone : (enrolled members (refused ++ [m.uid])).filter (·.uid = m.uid) = [] := enrolled_filter m (by simp)
  rw [List.filter_cons_of_pos (by simp), hgone] at hone
  have hp := (whereField_enrolled hr hm).trans (hone.map Member.data)
  obtain ⟨⟨id, data⟩, hd, hdata⟩ := List.map_eq_singleton_iff.mp (List.perm_singleton.mp hp)
  cases hdata
  exact ⟨id, hd⟩

end

/-- **The profile.** What the fields held at the tap is what the profile of the account
shows: its query finds the one document, its listener does not trap on anything that it is
brought, and what it shows is nothing or those names. -/
theorem profile_shows_member (u : DecimalDigits) (users : Collection) (currentUser : Option String)
    (es : List MembersEvent) {s : Members}
    (hrun : Runs.run (Members.step u) (launch users currentUser) es = some s) {m : Member}
    (hm : m ∈ Runs.log (Members.step u) created (launch users currentUser) es) :
    let refused := Runs.log (Members.step u) Members.refused (launch users currentUser) es
    let found := s.users.whereField "uid" (.string m.uid)
    (if m.uid ∈ refused then found = [] else ∃ id, found = [⟨id, m.data⟩]) ∧
      ∀ vc ∈ s.profiles, vc.uid = m.uid →
        ((vc.firstNameTextView = "" ∧ vc.lastNameTextView = "") ∨
          (vc.firstNameTextView = m.firstName ∧ vc.lastNameTextView = m.lastName)) ∧
        (∀ callback, s.answers vc callback → (vc.listener callback).isSome) ∧
        vc.listener (.snapshot found) =
          some (if m.uid ∈ refused then vc else ⟨m.uid, m.firstName, m.lastName⟩) := by
  intro refused found
  obtain ⟨hr, -⟩ := roster_run hrun
  have hshown : Shown s := Runs.run_inv (fun _ _ _ => shown_step) (fun _ hvc => (List.not_mem_nil hvc).elim) hrun
  constructor
  · by_cases h : m.uid ∈ refused
    · rw [if_pos h]; exact whereField_refused hr hm h
    · rw [if_neg h]; exact whereField_live hr hm h
  · intro vc hvc huid
    refine ⟨?_, fun callback hanswers => ?_, ?_⟩
    · rcases hshown vc hvc with h | ⟨d, hd, hduid, hshows⟩
      · exact .inl h
      · exact .inr (shows_member hshows (seen_data hr hm hd (by rw [hduid, huid])))
    · cases callback with
      | error => rfl
      | snapshot documents =>
        refine (listener_isSome vc documents).mpr fun d hd => ?_
        obtain ⟨hseen, hduid⟩ := answers_mem hanswers d hd
        have hdata := seen_data hr hm hseen (by rw [hduid, huid])
        rw [Named, hdata]
        exact ⟨rfl, rfl⟩
    · by_cases h : m.uid ∈ refused
      · rw [if_pos h, show found = [] from whereField_refused hr hm h]
        rfl
      · obtain ⟨id, hfound⟩ := whereField_live hr hm h
        rw [if_neg h, show found = _ from hfound, ← huid]
        rfl

theorem profile_shows_member_filledIn : ∃ (s : Members) (m : Member),
    Runs.run (Members.step asciiDigits) (launch ∅ none) joins = some s ∧
      ∀ vc ∈ s.profiles, vc.uid = m.uid →
        ((vc.firstNameTextView = "" ∧ vc.lastNameTextView = "") ∨
          (vc.firstNameTextView = m.firstName ∧ vc.lastNameTextView = m.lastName)) := by
  obtain ⟨s, hs⟩ : ∃ s, Runs.run (Members.step asciiDigits) (launch ∅ none) joins = some s := ⟨_, rfl⟩
  have hm : (⟨"u", "First", "Last"⟩ : Member) ∈ Runs.log (Members.step asciiDigits) created
      (launch ∅ none) joins :=
    List.mem_singleton_self _
  exact ⟨s, _, hs, fun vc hvc huid => ((profile_shows_member asciiDigits ∅ none joins hs hm).2 vc hvc huid).1⟩

end WarrantyGuard
