import WarrantyGuard.SignUpSound

/-!
# The announced policy

The message that refuses a password asks for eight characters, a special one and
a number. The expression asks for more, both cases of letters and no character
out of its set, and for less: nothing special. The two agree on a password unless
it is plain, eight letters and digits or more, or has all that the message asks
for and lacks something else.
-/

namespace WarrantyGuard

/-- Unicode's letters and numbers, which have ASCII's among them and no punctuation. -/
structure Alphanumerics where
  isAlphanumeric : Char → Bool
  ascii : ∀ c, c.toNat < 128 → isAlphanumeric c = c.isAlphanum
  quotation : isAlphanumeric '\u2019' = false

def securityMessage : String :=
  "Please make sure your password is at least 8 characters, contains a special character and number "

/-- What the message asks for. -/
def Announced (u : DecimalDigits) (a : Alphanumerics) (password : String) : Prop :=
  8 ≤ password.length ∧ (∃ c ∈ password.toList, u.isDecimalDigit c) ∧
    ∃ c ∈ password.toList, a.isAlphanumeric c = false

def KeepsPolicy (u : DecimalDigits) (a : Alphanumerics) (vc : SignUpVC) : Prop :=
  let password := trimmingCharacters vc.passwordTextField
  (vc.validateFields u = none → Announced u a password) ∧
    (vc.validateFields u = some securityMessage → ¬ Announced u a password)

def SignUpVC.hasBlank (vc : SignUpVC) : Prop :=
  trimmingCharacters vc.firstNameTextField = "" ∨ trimmingCharacters vc.lastNameTextField = "" ∨
    trimmingCharacters vc.emailTextField = "" ∨ trimmingCharacters vc.passwordTextField = ""

structure Mixed (password : String) : Prop where
  digit : ∃ c ∈ password.toList, c.isDigit
  lower : ∃ c ∈ password.toList, c.isLower
  upper : ∃ c ∈ password.toList, c.isUpper

/-- Nothing special in it, and yet accepted. -/
def Plain (password : String) : Prop :=
  8 ≤ password.length ∧ (∀ c ∈ password.toList, c.isAlphanum) ∧ Mixed password

/-- All that the message asks for, and yet refused. -/
def Overdone (u : DecimalDigits) (a : Alphanumerics) (password : String) : Prop :=
  Announced u a password ∧ ((∃ c ∈ password.toList, ¬ passwordSet c) ∨ ¬ Mixed password)

/-! ## Where the two differ -/

theorem isPasswordValid_mixed (u : DecimalDigits) (password : String) : SignUpVC.isPasswordValid u password ↔
    (∀ c ∈ password.toList, passwordSet c) ∧ 8 ≤ password.length ∧ Mixed password := by
  rw [isPasswordValid_iff]
  exact and_congr_right fun _ => and_congr_right fun _ => ⟨fun h => ⟨h.1, h.2.1, h.2.2⟩, fun h => ⟨h.1, h.2, h.3⟩⟩

theorem isAlphanumeric_eq (a : Alphanumerics) {c : Char} (h : passwordSet c) :
    a.isAlphanumeric c = c.isAlphanum := by
  rcases (passwordSet_toNat h).2 with h | rfl
  · exact a.ascii c h
  · rw [a.quotation]; decide

theorem passwordSet_of_isAlphanum {c : Char} (h : c.isAlphanum) : passwordSet c := by
  have h : (c.isUpper || c.isLower || c.isDigit) = true := h
  simp only [Bool.or_eq_true] at h
  rw [passwordSet_iff]
  rcases h with (h | h) | h
  · exact .inr (.inr (.inl h))
  · exact .inr (.inl h)
  · exact .inl h

section
variable (u : DecimalDigits) (a : Alphanumerics) {password : String}

/-- An accepted password misses the policy by having nothing special. -/
theorem valid_announced_iff :
    (SignUpVC.isPasswordValid u password → Announced u a password) ↔ ¬ Plain password := by
  rw [isPasswordValid_mixed]
  constructor
  · intro h hplain
    obtain ⟨hn, halnum, hmixed⟩ := hplain
    have hset : ∀ c ∈ password.toList, passwordSet c := fun c hc => passwordSet_of_isAlphanum (halnum c hc)
    obtain ⟨-, -, c, hc, hspecial⟩ := h ⟨hset, hn, hmixed⟩
    rw [isAlphanumeric_eq a (hset c hc), halnum c hc] at hspecial
    cases hspecial
  · intro h hvalid
    obtain ⟨hset, hn, hmixed⟩ := hvalid
    obtain ⟨c, hc, hdigit⟩ := hmixed.digit
    refine ⟨hn, ⟨c, hc, by rw [isDecimalDigit_eq u (hset c hc), hdigit]⟩, ?_⟩
    by_contra hnone
    refine h ⟨hn, fun c hc => ?_, hmixed⟩
    rw [← isAlphanumeric_eq a (hset c hc)]
    exact Bool.eq_true_of_not_eq_false fun hspecial => hnone ⟨c, hc, hspecial⟩

/-- A refused password meets the policy if it is refused for more than the message says. -/
theorem invalid_announced_iff :
    (SignUpVC.isPasswordValid u password = false → ¬ Announced u a password) ↔ ¬ Overdone u a password := by
  have hvalid := isPasswordValid_mixed u password
  constructor
  · intro h hover
    obtain ⟨hannounced, hrefused⟩ := hover
    refine h (Bool.eq_false_iff.mpr fun hv => ?_) hannounced
    obtain ⟨hset, -, hmixed⟩ := hvalid.mp hv
    rcases hrefused with ⟨c, hc, hout⟩ | hout
    · exact hout (hset c hc)
    · exact hout hmixed
  · intro h hv hannounced
    refine h ⟨hannounced, ?_⟩
    by_contra hkept
    rw [not_or, not_not] at hkept
    have hset : ∀ c ∈ password.toList, passwordSet c := fun c hc => by
      by_contra hout
      exact hkept.1 ⟨c, hc, hout⟩
    rw [hvalid.mpr ⟨hset, hannounced.1, hkept.2⟩] at hv
    cases hv

end

theorem policy_kept_iff (u : DecimalDigits) (a : Alphanumerics) (vc : SignUpVC) :
    KeepsPolicy u a vc ↔ vc.hasBlank ∨
      ¬ Plain (trimmingCharacters vc.passwordTextField) ∧
      ¬ Overdone u a (trimmingCharacters vc.passwordTextField) := by
  unfold KeepsPolicy
  by_cases hblank : vc.hasBlank
  · have hv : vc.validateFields u = some "Please fill in all fields" := if_pos hblank
    refine iff_of_true ⟨fun h => ?_, fun h => ?_⟩ (.inl hblank)
    · rw [hv] at h; cases h
    · rw [hv] at h; exact absurd (Option.some.inj h) (by decide)
  · rw [or_iff_right hblank, ← valid_announced_iff u a, ← invalid_announced_iff u a]
    have hv : vc.validateFields u =
        if SignUpVC.isPasswordValid u (trimmingCharacters vc.passwordTextField) = false then
          some securityMessage
        else none :=
      if_neg hblank
    rw [hv]
    cases SignUpVC.isPasswordValid u (trimmingCharacters vc.passwordTextField) with
    | true => simp
    | false => simp

def asciiAlphanumerics : Alphanumerics := ⟨Char.isAlphanum, fun _ _ => rfl, by decide⟩

theorem policy_kept_fails : ¬ ∀ (u : DecimalDigits) (a : Alphanumerics) (vc : SignUpVC), KeepsPolicy u a vc := by
  intro h
  -- "Passw0rd"
  obtain ⟨-, -, c, hc, hspecial⟩ := (h asciiDigits asciiAlphanumerics filledIn).1 (by decide)
  have hplain : (trimmingCharacters filledIn.passwordTextField).toList.all Char.isAlphanum = true := by decide
  exact absurd (List.all_eq_true.mp hplain c hc) (Bool.eq_false_iff.mp hspecial)

end WarrantyGuard
