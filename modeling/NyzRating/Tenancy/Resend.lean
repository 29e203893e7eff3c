import NyzRating.Tenancy.OneBusiness

/-!
# Which business a resend is about

A signup for a business that waits for its confirmation sends the mail again. That there is such a session is found by the
review link, but the session that is renewed is looked up again, by the address alone: the latest one of the address, which
another business of the same owner may have.
-/

namespace NyzRating.Tenancy.Business

open Program

/-! ### What a resend returns and mails -/

structure DemoSignupResult where
  slug : String
  hostHint : String
  createdNew : Bool
  resentExisting : Bool
  awaitingEmailVerification : Bool
  deriving DecidableEq, Repr

/-- The mail with the link to confirm; the link has the token. -/
structure ConfirmMail where
  email : String
  tenantSlug : String
  lang : String
  token : Nat
  deriving DecidableEq, Repr

def demoHostHint (slug tenantBaseDomain : String) : String := slug ++ "." ++ tenantBaseDomain

/-- What is saved of the session `pending` when it is renewed. -/
def renewal (cfg : Config) (pending : Session) (preferredLocale : Option String) (now : Int) : Desk.Pending where
  expiresAt := now + cfg.verificationTtl
  ownerName := firstText [pending.ownerName.getD "", pending.requestedName] pending.tenantSlug
  tenantName := firstText [pending.tenantName.getD "", pending.requestedName] pending.tenantSlug
  preferredLocale := shortLocale (firstText [preferredLocale.getD "", pending.preferredLocale.getD ""] "hu")
  planCode := firstText [pending.planCode.getD ""] "free"
  subscriptionPeriod := firstText [pending.subscriptionPeriod.getD ""] "monthly"
  googleReviewUrl := pending.googleReviewUrl.getD ""

/-- `resend_pending_verification` with its result and its mail. -/
def resend (cfg : Config) (tenantBaseDomain email : String) (preferredLocale : Option String) (now : Int) (mailSent : Bool) :
    DeskM (DemoSignupResult × ConfirmMail) := do
  match (← get).findLatestPendingSessionByEmail email with
  | none => throw .verificationInvalid
  | some pending =>
    if pending.verificationExpiresAt.any (· ≤ now) then
      modify (·.deleteSession pending.sessionId)
      throw .verificationExpired
    let slug := pending.tenantSlug
    let token ← newToken
    let saved := renewal cfg pending preferredLocale now
    savePendingVerification pending.sessionId token saved
    sendConfirmSignupEmail mailSent
    return (
      { slug, hostHint := demoHostHint slug tenantBaseDomain, createdNew := false, resentExisting := true,
        awaitingEmailVerification := true },
      { email := pending.email, tenantSlug := slug, lang := saved.preferredLocale, token })

/-- `signup` with its result and its mail. -/
def signupAnswer (cfg : Config) (tenantBaseDomain : String) (c : SignupCall) : DeskM (DemoSignupResult × ConfirmMail) := do
  match admission (← get) c with
  | .refused e => throw e
  | .resend =>
    resend cfg tenantBaseDomain c.normalizedEmail (some (normalizeDemoLocale c.locale)) c.now c.mailSent
  | .admitted =>
    let slug ← reserve cfg
      { sessionId := c.sessionId, requestedName := c.slugSource, email := c.normalizedEmail, tenantSlug := "", createdAt := c.now }
    if !slugIsValid slug then throw .invalidSlug
    let token := (← get).nextToken
    startPending cfg c slug
    return (
      { slug, hostHint := demoHostHint slug tenantBaseDomain, createdNew := true, resentExisting := false,
        awaitingEmailVerification := true },
      { email := c.normalizedEmail, tenantSlug := slug, lang := normalizeDemoLocale c.locale, token })

section
variable {cfg : Config} {tenantBaseDomain email : String} {preferredLocale : Option String} {now : Int} {mailSent : Bool}
variable {s t : Desk} {c : SignupCall} {p q : Session}

/-- Without its result it is the resend of the runs. -/
theorem resend_forget : resendPendingVerification cfg email preferredLocale now mailSent =
    resend cfg tenantBaseDomain email preferredLocale now mailSent >>= fun _ => pure () := by
  unfold resendPendingVerification resend
  rw [bind_assoc]
  refine bind_congr fun s => ?_
  cases s.findLatestPendingSessionByEmail email with
  | none => rfl
  | some pending =>
    dsimp only
    split
    · rw [bind_assoc]
      rfl
    · simp only [bind_assoc, pure_bind, bind_pure_unit]
      rfl

/-- Without its result it is the signup of the runs. -/
theorem signup_forget : signup cfg c = signupAnswer cfg tenantBaseDomain c >>= fun _ => pure () := by
  unfold signup signupAnswer
  rw [bind_assoc]
  refine bind_congr fun s => ?_
  cases admission s c with
  | refused e => rfl
  | resend => exact resend_forget
  | admitted =>
    dsimp only
    rw [bind_assoc]
    refine bind_congr fun slug => ?_
    split
    · rw [bind_assoc]
      rfl
    · simp only [bind_assoc, pure_bind, bind_pure_unit]
      rfl

/-! ### The session that is renewed -/

def Expired (now : Int) (r : Session) : Prop := r.verificationExpiresAt.any (· ≤ now) = true

/-- The session `p` is the one that the resend looks up. -/
def Renews (s : Desk) (email : String) (now : Int) (p : Session) : Prop :=
  s.findLatestPendingSessionByEmail email = some p ∧ ¬Expired now p

/-- The tables when the session has its new token. -/
def renewed (s : Desk) (cfg : Config) (preferredLocale : Option String) (now : Int) (p : Session) : Desk :=
  (minted s).writePending p.sessionId (renewal cfg p preferredLocale now) s.nextToken

/-- A resend renews the session that it looks up, or writes no token. -/
theorem resend_renews (cfg : Config) (tenantBaseDomain email : String) (preferredLocale : Option String) (now : Int)
    (mailSent : Bool) (s : Desk) : Settles (· = s) (resend cfg tenantBaseDomain email preferredLocale now mailSent)
    (fun answer t => ∃ p, Renews s email now p ∧ t = renewed s cfg preferredLocale now p ∧ answer.1.slug = p.tenantSlug ∧
      answer.2.email = p.email ∧ answer.2.tenantSlug = p.tenantSlug ∧ answer.2.token = s.nextToken)
    fun _ t => (∃ p, Renews s email now p ∧ t = renewed s cfg preferredLocale now p) ∨
      ((∀ p, ¬Renews s email now p) ∧ t.sessions ⊆ s.sessions) := by
  unfold resend
  refine Settles.get_bind ?_
  rintro s rfl
  split
  · next none_found =>
    refine Settles.throw ?_
    rintro s rfl
    exact .inr ⟨fun p renews => (nomatch none_found.symm.trans renews.1), fun _ mem => mem⟩
  · next pending found =>
    refine Settles.ite (fun expired => ?_) fun inTime => ?_
    · refine Settles.bind (R := fun _ t => t = s.deleteSession pending.sessionId) (Settles.modify ?_) fun _ => Settles.throw_bind ?_
      · rintro s rfl
        rfl
      · rintro _ rfl
        refine .inr ⟨fun p renews => renews.2 ?_, fun _ mem => List.mem_of_mem_filter mem⟩
        rw [← Option.some.inj (found.symm.trans renews.1)]
        exact expired
    · have renews : Renews s email now pending := ⟨found, inTime⟩
      refine Settles.bind newToken_settles fun k => Settles.given ?_
      rintro rfl
      refine Settles.bind (R := fun _ t => t = renewed s cfg preferredLocale now pending)
        ((savePendingVerification_settles _ _ _).mono ?_ ?_) fun _ => ?_
      · rintro _ _ ⟨-, rfl⟩
        rfl
      · rintro _ _ ⟨missing, -⟩
        obtain ⟨mem, open_, -⟩ := pending_mem found
        exact absurd ⟨pending, mem, rfl, open_⟩ missing
      · unfold sendConfirmSignupEmail
        refine Settles.bind (R := fun _ t => t = renewed s cfg preferredLocale now pending)
          (Settles.ite (fun _ => Settles.throw ?_) fun _ => Settles.pure fun _ same => same) fun _ => Settles.pure ?_
        · rintro _ rfl
          exact .inl ⟨pending, renews, rfl⟩
        · rintro _ rfl
          exact ⟨pending, renews, rfl, rfl, rfl, rfl, rfl⟩

/-! ### The business that was asked for -/

/-- The link of the session is the link asked for, in the eyes of the repository or of the orchestrator. -/
def sameLink (url : String) (r : Session) : Prop :=
  Desk.linkMatches url r = true ∨ normalizeGoogleReviewUrl (r.googleReviewUrl.getD "") = url

instance (url : String) (r : Session) : Decidable (sameLink url r) := by
  unfold sameLink
  infer_instance

/-- A pending session with the address and the link. -/
structure OfBusiness (s : Desk) (email url : String) (r : Session) : Prop where
  mem : r ∈ s.sessions
  pending : Desk.isPending r = true
  address : Text.lower (sqlTrim r.email.toList) = (Text.stripLower email).toList
  link : sameLink url r

/-- The row of the session has the token in `t`. -/
def HasToken (t : Desk) (r : Session) (token : Nat) : Prop :=
  ∃ row ∈ t.sessions, row.sessionId = r.sessionId ∧ row.verificationToken = some token

/-- What a resend from `s` to `t` renews, returns and mails is of sessions with the address and the link. -/
structure Concerns (s t : Desk) (answer : Option (DemoSignupResult × ConfirmMail)) (email url : String) : Prop where
  renewed : ∀ r ∈ s.sessions, HasToken t r s.nextToken → OfBusiness s email url r
  answered : ∀ result mail, answer = some (result, mail) → ∃ r, OfBusiness s email url r ∧ result.slug = r.tenantSlug ∧
    mail.tenantSlug = r.tenantSlug ∧ mail.email = r.email ∧ HasToken t r mail.token

/-- Session ids are unique, and no token has been drawn that comes later. -/
structure Keyed (s : Desk) : Prop where
  ids : (s.sessions.map (·.sessionId)).Nodup
  tokens : ∀ r ∈ s.sessions, ∀ token, r.verificationToken = some token → token < s.nextToken

/-- What a call has answered, and the tables after it. -/
def outcome (m : DeskM (DemoSignupResult × ConfirmMail)) (s : Desk) : Option (DemoSignupResult × ConfirmMail) × Desk :=
  match m.run s with
  | .ok answer t => (some answer, t)
  | .error _ t => (none, t)

def ResendConcerns (cfg : Config) (tenantBaseDomain : String) (s : Desk) (c : SignupCall) : Prop :=
  Concerns s (outcome (signupAnswer cfg tenantBaseDomain c) s).2 (outcome (signupAnswer cfg tenantBaseDomain c) s).1
    c.normalizedEmail c.reviewUrl

theorem outcome_cases {m : DeskM (DemoSignupResult × ConfirmMail)} {R : DemoSignupResult × ConfirmMail → Desk → Prop}
    {F : SignupFailure → Desk → Prop} (settled : Settled R F (m.run s)) :
    (∃ answer, (outcome m s).1 = some answer ∧ R answer (outcome m s).2) ∨
      ∃ e, (outcome m s).1 = none ∧ F e (outcome m s).2 := by
  unfold outcome
  cases run : m.run s with
  | ok answer t =>
    rw [run] at settled
    cases settled with
    | returned h => exact .inl ⟨answer, rfl, h⟩
  | error e t =>
    rw [run] at settled
    cases settled with
    | raised h => exact .inr ⟨e, rfl, h⟩

theorem Renews.ofBusiness {url : String} (renews : Renews s email now p) (link : sameLink url p) : OfBusiness s email url p := by
  have found := renews.1
  unfold Desk.findLatestPendingSessionByEmail at found
  dsimp only at found
  split at found
  · cases found
  · obtain ⟨mem, hit⟩ := latest_mem found
    simp only [Bool.and_eq_true, decide_eq_true_eq] at hit
    exact ⟨mem, hit.2, hit.1, link⟩

theorem Renews.mem (renews : Renews s email now p) : p ∈ s.sessions := (pending_mem renews.1).1

theorem hasToken_renewed (renews : Renews s email now p) : HasToken (renewed s cfg preferredLocale now p) p s.nextToken := by
  obtain ⟨mem, open_, -⟩ := pending_mem renews.1
  refine ⟨(renewal cfg p preferredLocale now).write s.nextToken p, List.mem_map.mpr ⟨p, mem, if_pos ⟨rfl, open_⟩⟩, rfl, rfl⟩

/-- Only the session that is looked up gets the token. -/
theorem Keyed.renewed_self (keyed : Keyed s) (renews : Renews s email now p) (mem : q ∈ s.sessions)
    (token : HasToken (renewed s cfg preferredLocale now p) q s.nextToken) : q = p := by
  obtain ⟨row, row_mem, own, has⟩ := token
  obtain ⟨old, old_mem, rfl⟩ := List.mem_map.mp row_mem
  split at own
  · next written =>
    exact List.inj_on_of_nodup_map keyed.ids mem renews.mem (own.symm.trans written.1)
  · next kept =>
    rw [if_neg kept] at has
    exact absurd (keyed.tokens old old_mem _ has) (Nat.lt_irrefl _)

theorem Keyed.not_hasToken (keyed : Keyed s) (fewer : t.sessions ⊆ s.sessions) : ¬HasToken t q s.nextToken := by
  rintro ⟨row, mem, -, has⟩
  exact Nat.lt_irrefl _ (keyed.tokens row (fewer mem) _ has)

/-- What a signup ends with that takes a resend branch. -/
theorem signupAnswer_cases (cfg : Config) (tenantBaseDomain : String) (resends : admission s c = .resend) :
    ∃ answer t, outcome (signupAnswer cfg tenantBaseDomain c) s = (answer, t) ∧
      ((∃ p, Renews s c.normalizedEmail c.now p ∧ t = renewed s cfg (some (normalizeDemoLocale c.locale)) c.now p ∧
        ∀ result mail, answer = some (result, mail) → result.slug = p.tenantSlug ∧ mail.email = p.email ∧
          mail.tenantSlug = p.tenantSlug ∧ mail.token = s.nextToken) ∨
      (∀ p, ¬Renews s c.normalizedEmail c.now p) ∧ answer = none ∧ t.sessions ⊆ s.sessions) := by
  have taken : (signupAnswer cfg tenantBaseDomain c).run s =
      (resend cfg tenantBaseDomain c.normalizedEmail (some (normalizeDemoLocale c.locale)) c.now c.mailSent).run s := by
    have read {α : Type} (f : Desk → DeskM α) : (get >>= f).run s = (f s).run s := rfl
    rw [signupAnswer, read, resends]
  have settled := resend_renews cfg tenantBaseDomain c.normalizedEmail (some (normalizeDemoLocale c.locale)) c.now c.mailSent s s rfl
  rw [← taken] at settled
  refine ⟨_, _, rfl, ?_⟩
  rcases outcome_cases settled with ⟨answer, answered, p, renews, after, told⟩ | ⟨e, silent, ⟨p, renews, after⟩ | none_renewed⟩
  · refine .inl ⟨p, renews, after, fun result mail same => ?_⟩
    cases answered.symm.trans same
    exact told
  · refine .inl ⟨p, renews, after, fun result mail same => ?_⟩
    cases silent.symm.trans same
  · exact .inr ⟨none_renewed.1, silent, none_renewed.2⟩

/-- The resend is about the business that was asked for exactly when the session it looks up by the address alone has the
review link, or is over. -/
theorem resend_concerns_iff (keyed : Keyed s) (resends : admission s c = .resend) : ResendConcerns cfg tenantBaseDomain s c ↔
    ∀ p, s.findLatestPendingSessionByEmail c.normalizedEmail = some p → sameLink c.reviewUrl p ∨ Expired c.now p := by
  obtain ⟨answer, t, ends, cases⟩ := signupAnswer_cases cfg tenantBaseDomain resends
  have unfolded : ResendConcerns cfg tenantBaseDomain s c ↔ Concerns s t answer c.normalizedEmail c.reviewUrl := by
    rw [ResendConcerns, ends]
  rw [unfolded]
  constructor
  · intro concerns p found
    by_cases expired : Expired c.now p
    · exact .inr expired
    · have renews : Renews s c.normalizedEmail c.now p := ⟨found, expired⟩
      rcases cases with ⟨q, renews', rfl, -⟩ | ⟨none_renewed, -⟩
      · cases Option.some.inj (renews'.1.symm.trans found)
        exact .inl (concerns.renewed _ renews.mem (hasToken_renewed renews)).link
      · exact absurd renews (none_renewed p)
  · intro link
    rcases cases with ⟨p, renews, rfl, told⟩ | ⟨-, rfl, fewer⟩
    · have business := renews.ofBusiness ((link p renews.1).resolve_right renews.2)
      refine ⟨fun r mem token => ?_, fun result mail answered => ?_⟩
      · rw [keyed.renewed_self renews mem token]
        exact business
      · obtain ⟨slug, email, tenant, token⟩ := told result mail answered
        rw [token]
        exact ⟨p, business, slug, tenant, email, hasToken_renewed renews⟩
    · exact ⟨fun r _ token => absurd token (keyed.not_hasToken fewer), fun _ _ answered => nomatch answered⟩

end

/-! ### Two shops of one owner -/

namespace TwoShops

def shop (session company url : String) (valid : isValidGoogleReviewUrl url = true) (now : Int) : SignupCall where
  email := "anna@example.com"
  name := "Anna"
  companyName := some company
  demoSessionId := some session
  googleReviewUrl := url
  valid := valid
  now := now

def bakery (session : String) (now : Int) : SignupCall :=
  shop session "Pek" "https://g.page/r/pek/review" (by decide +kernel) now

def florist (session : String) (now : Int) : SignupCall :=
  shop session "Virag" "https://g.page/r/virag/review" (by decide +kernel) now

def config : Config := { nfkd := id, verificationTtl := 86400 }

/-- Both wait for their confirmation. -/
def waiting : Desk := Runs.final (step config) {} [.signup (bakery "s1" 0), .signup (florist "s2" 1)]

/-- Only the florist does. -/
def onlyFlorist : Desk := Runs.final (step config) {} [.signup (florist "s2" 1)]

theorem keyed_of_checked {s : Desk} (ids : (s.sessions.map (·.sessionId)).Nodup)
    (tokens : ∀ r ∈ s.sessions, r.verificationToken.all (· < s.nextToken) = true) : Keyed s where
  ids := ids
  tokens r mem token has := by
    have below := tokens r mem
    rw [has] at below
    exact of_decide_eq_true below

end TwoShops

open TwoShops in
/-- The bakery is asked for again, and the florist gets the mail. -/
theorem not_resend_concerns : ¬ ∀ (cfg : Config) (tenantBaseDomain : String) (s : Desk) (c : SignupCall), Keyed s →
    admission s c = .resend → ResendConcerns cfg tenantBaseDomain s c := by
  intro claim
  have resends : admission waiting (bakery "s3" 2) = .resend := by decide +kernel
  have concerns := claim config "example.com" waiting (bakery "s3" 2) (keyed_of_checked (by decide +kernel) (by decide +kernel)) resends
  have slug : (outcome (signupAnswer config "example.com" (bakery "s3" 2)) waiting).1.map (·.1.slug) = some "virag" := by
    decide +kernel
  obtain ⟨⟨result, mail⟩, answered, is_slug⟩ := Option.map_eq_some_iff.mp slug
  obtain ⟨r, business, same, -⟩ := concerns.answered result mail answered
  have other : ∀ r ∈ waiting.sessions, r.tenantSlug = "virag" → ¬sameLink (bakery "s3" 2).reviewUrl r := by decide +kernel
  exact other r business.mem (same.symm.trans is_slug) business.link

open TwoShops in
theorem resend_concerns_florist : ResendConcerns config "example.com" onlyFlorist (florist "s3" 2) := by
  refine (resend_concerns_iff (keyed_of_checked (by decide +kernel) (by decide +kernel)) (by decide +kernel)).mpr ?_
  intro p found
  have link : ∀ r ∈ onlyFlorist.sessions, sameLink (florist "s3" 2).reviewUrl r := by decide +kernel
  exact .inl (link p (pending_mem found).1)

end NyzRating.Tenancy.Business
