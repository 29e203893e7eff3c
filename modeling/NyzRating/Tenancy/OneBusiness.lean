import NyzRating.Tenancy.SignupSessions

/-!
# One business, one demo

The row of a completed session is what remembers that a business has had its demo. Only a signup can take it away: one that
passes its checks gives up whatever session its id names.
-/

namespace NyzRating.Tenancy.Business

open Program Runs

/-! ### Links -/

theorem foldChar_space {c : Char} (space : Text.isSpace c = true) : foldChar c = c := by
  have apart : c.toNat ≠ 304 ∧ c.toNat ≠ 305 ∧ c.toNat ≠ 383 ∧ c.toNat ≠ 8490 ∧ ¬(65 ≤ c.toNat ∧ c.toNat ≤ 90) := by
    simp only [Text.isSpace, Bool.or_eq_true, Bool.and_eq_true, decide_eq_true_eq, beq_iff_eq] at space
    omega
  obtain ⟨dotted, dotless, long, kelvin, small⟩ := apart
  have dotted : c ≠ '\u0130' := fun same => dotted (by rw [same]; rfl)
  have dotless : c ≠ '\u0131' := fun same => dotless (by rw [same]; rfl)
  have long : c ≠ '\u017f' := fun same => long (by rw [same]; rfl)
  have kelvin : c ≠ '\u212a' := fun same => kelvin (by rw [same]; rfl)
  unfold foldChar
  rw [if_neg (by simp [dotted, dotless]), if_neg long, if_neg kelvin]
  refine dif_neg ?_
  simp only [UInt32.le_iff_toNat_le, ge_iff_le]
  exact small

/-- What a link that is let through begins and ends with. -/
theorem valid_ends {url : String} (valid : isValidGoogleReviewUrl url = true) :
    (∃ c, url.toList.head? = some c ∧ foldChar c = 'h') ∧ ∃ c, url.toList.getLast? = some c ∧ foldChar c = 'w' := by
  simp only [isValidGoogleReviewUrl, Bool.and_eq_true, beq_iff_eq] at valid
  obtain ⟨⟨⟨start, -⟩, -⟩, ending⟩ := valid
  constructor
  · have first := congrArg List.head? start
    rw [List.head?_map, List.head?_take] at first
    have first : Option.map foldChar url.toList.head? = some 'h' := by simpa using first
    obtain ⟨c, at_first, folds⟩ := Option.map_eq_some_iff.mp first
    exact ⟨c, at_first, folds⟩
  · have last := congrArg List.getLast? ending
    rw [List.getLast?_map, List.getLast?_drop] at last
    have last : Option.map foldChar (if url.toList.length ≤ url.toList.length - 7 then none else url.toList.getLast?) = some 'w' := by
      simpa using last
    obtain ⟨c, at_last, folds⟩ := Option.map_eq_some_iff.mp last
    split at at_last
    · cases at_last
    · exact ⟨c, at_last, folds⟩

/-- Neither the service nor the database cuts anything from such a link. -/
theorem valid_uncut {url : String} (valid : isValidGoogleReviewUrl url = true) :
    url.toList ≠ [] ∧ rstripSlash url.toList = url.toList ∧ Text.strip url.toList = url.toList ∧ sqlTrim url.toList = url.toList := by
  obtain ⟨⟨c, at_first, first⟩, d, at_last, last⟩ := valid_ends valid
  have solid : ∀ e, Text.isSpace e = true → e ≠ c ∧ e ≠ d := by
    intro e space
    have same := foldChar_space space
    refine ⟨?_, ?_⟩
    · rintro rfl
      rw [← same, first] at space
      cases space
    · rintro rfl
      rw [← same, last] at space
      cases space
  have first_solid : Text.isSpace c = false := Bool.eq_false_iff.mpr fun space => (solid c space).1 rfl
  have last_solid : Text.isSpace d = false := Bool.eq_false_iff.mpr fun space => (solid d space).2 rfl
  have blank : Text.isSpace ' ' = true := rfl
  refine ⟨?_, ?_, ?_, ?_⟩
  · intro empty
    rw [empty] at at_first
    cases at_first
  · refine Text.dropWhile_reverse_of_last at_last (decide_eq_false ?_)
    rintro rfl
    exact absurd last (by decide)
  · exact Text.strip_of_ends at_first first_solid at_last last_solid
  · unfold sqlTrim
    rw [Text.dropWhile_of_head at_first (decide_eq_false (solid ' ' blank).1.symm),
      Text.dropWhile_reverse_of_last at_last (decide_eq_false (solid ' ' blank).2.symm)]

theorem normalize_valid {url : String} (valid : isValidGoogleReviewUrl url = true) : normalizeGoogleReviewUrl url = url := by
  obtain ⟨-, slash, strip, -⟩ := valid_uncut valid
  rw [normalizeGoogleReviewUrl, strip, slash, String.ofList_toList]

/-- A row with the link is found by the link. -/
theorem linkMatches_valid {url : String} (valid : isValidGoogleReviewUrl url = true) {r : Session}
    (link : r.googleReviewUrl = some url) : Desk.linkMatches url r = true := by
  obtain ⟨some_text, slash, strip, trim⟩ := valid_uncut valid
  unfold Desk.linkMatches
  dsimp only
  rw [link, Option.getD_some, strip, trim, slash]
  simp [some_text]

/-! ### Reserving -/

/-- The row was added under a slug that was free. -/
structure Inserted (s t : Desk) (row : Session) (slug : String) : Prop where
  result : t = { s with sessions := s.sessions ++ [{ row with tenantSlug := slug }] }
  apart : ∀ r ∈ s.sessions, r.sessionId ≠ row.sessionId ∧ r.tenantSlug ≠ slug
  free : s.hasTenant slug = false

section
variable {s t : Desk} {row : Session}

theorem inserted_of_reserved {slug : String} (free : s.hasTenant slug = false)
    (reserved : (s.reserveSlug { row with tenantSlug := slug }).1 = true) :
    Inserted s (s.reserveSlug { row with tenantSlug := slug }).2 row slug := by
  unfold Desk.reserveSlug at reserved ⊢
  split at reserved
  · cases reserved
  · next none_like =>
    rw [if_neg none_like]
    refine ⟨rfl, fun r mem => ?_, free⟩
    have unlike : ¬(r.sessionId = row.sessionId ∨ r.tenantSlug = slug) := fun like =>
      none_like (List.any_eq_true.mpr ⟨r, mem, by simpa using like⟩)
    exact not_or.mp unlike

theorem unreserved {slug : String} (taken : (s.reserveSlug { row with tenantSlug := slug }).1 ≠ true) :
    (s.reserveSlug { row with tenantSlug := slug }).2 = s := by
  unfold Desk.reserveSlug at taken ⊢
  split
  · rfl
  · next none_like =>
    rw [if_neg none_like] at taken
    exact absurd rfl taken

/-- The slug is one of those that are tried for the base. -/
def IsCandidate (base slug : String) : Prop := ∃ suffix < 10000, slug = candidateDemoSlug base suffix

/-- With no slug reserved for the session, the first free candidate is. -/
theorem reserveFrom_settles (base : String) (absent : (s.getReservedSlug row.sessionId).filter (· ≠ "") = none)
    (attempts suffix : Nat) (few : suffix + attempts ≤ 10000) :
    Settles (· = s) (reserveFrom base row attempts suffix) (fun slug t => IsCandidate base slug ∧ Inserted s t row slug)
      fun _ t => t = s := by
  induction attempts generalizing suffix with
  | zero => exact Settles.throw fun _ same => same
  | succ attempts ih =>
    have next := ih (suffix + 1) (by omega)
    unfold reserveFrom
    refine Settles.get_bind ?_
    rintro s rfl
    refine Settles.ite (fun _ => next) fun free => ?_
    have free := Bool.eq_false_iff.mpr free
    have reserves : Settles (· = s) (modifyGet (·.reserveSlug { row with tenantSlug := candidateDemoSlug base suffix }) : DeskM Bool)
        (fun reserved t => if reserved then Inserted s t row (candidateDemoSlug base suffix) else t = s) fun _ t => t = s := by
      refine Settles.modifyGet ?_
      rintro s rfl
      split
      · next reserved => exact inserted_of_reserved free reserved
      · next taken => exact unreserved taken
    refine Settles.bind reserves fun reserved => Settles.ite (fun is_reserved => ?_) fun taken => ?_
    · simp only [is_reserved, if_true]
      exact Settles.pure fun _ inserted => ⟨⟨suffix, by omega, rfl⟩, inserted⟩
    · simp only [taken]
      refine Settles.get_bind ?_
      rintro s rfl
      rw [absent]
      exact next

theorem getReservedSlug_deleteSession (sessionId : String) : (s.deleteSession sessionId).getReservedSlug sessionId = none := by
  simp [Desk.getReservedSlug, Desk.deleteSession]

theorem getReservedSlug_row {sessionId slug : String} (reserved : s.getReservedSlug sessionId = some slug) :
    ∃ r ∈ s.sessions, r.sessionId = sessionId ∧ r.tenantSlug = slug := by
  obtain ⟨r, first, slug⟩ := Option.map_eq_some_iff.mp reserved
  exact ⟨r, List.mem_of_find?_eq_some first, by simpa using List.find?_some first, slug⟩

/-- The session keeps its slug, or gets a free one; another slug of its own is given up first. -/
theorem reserve_settles (cfg : Config) :
    Settles (· = s) (reserve cfg row)
      (fun slug t => (t = s ∧ s.getReservedSlug row.sessionId = some slug ∧
          slugMatchesDemoBase slug (demoSlugBase cfg.nfkd row.requestedName) = true) ∨
        IsCandidate (demoSlugBase cfg.nfkd row.requestedName) slug ∧
          (Inserted s t row slug ∨ Inserted (s.deleteSession row.sessionId) t row slug))
      fun _ t => (t = s ∧ (s.getReservedSlug row.sessionId).filter (· ≠ "") = none) ∨ t = s.deleteSession row.sessionId := by
  unfold reserve
  refine Settles.get_bind ?_
  rintro s rfl
  split
  · next absent =>
    refine (reserveFrom_settles _ absent 9999 1 (Nat.le_refl _)).mono ?_ fun _ _ same => .inl ⟨same, absent⟩
    exact fun _ _ fresh => .inr ⟨fresh.1, .inl fresh.2⟩
  · next existing found =>
    obtain ⟨reserved, -⟩ := Option.filter_eq_some_iff.mp found
    refine Settles.ite (fun like => ?_) fun _ => ?_
    · refine Settles.pure ?_
      rintro s rfl
      exact .inl ⟨rfl, reserved, like⟩
    · refine Settles.bind (R := fun _ t => t = s.deleteSession row.sessionId) (Settles.modify ?_) fun _ => ?_
      · rintro s rfl
        rfl
      · have absent : ((s.deleteSession row.sessionId).getReservedSlug row.sessionId).filter (· ≠ "") = none := by
          rw [getReservedSlug_deleteSession]
          rfl
        refine (reserveFrom_settles _ absent 9999 1 (Nat.le_refl _)).mono ?_ fun _ _ same => .inr same
        exact fun _ _ fresh => .inr ⟨fresh.1, .inr fresh.2⟩

/-! ### Saving the verification -/

def minted (s : Desk) : Desk := { s with nextToken := s.nextToken + 1 }

theorem newToken_settles {F : SignupFailure → Desk → Prop} : Settles (· = s) newToken (fun k t => k = s.nextToken ∧ t = minted s) F := by
  rintro s rfl
  exact .returned ⟨rfl, rfl⟩

theorem savePendingVerification_settles (sessionId : String) (token : Nat) (d : Desk.Pending) :
    Settles (· = s) (savePendingVerification sessionId token d)
      (fun _ t => (∃ r ∈ s.sessions, r.sessionId = sessionId ∧ r.completedAt = none) ∧ t = s.writePending sessionId d token)
      fun _ t => (¬∃ r ∈ s.sessions, r.sessionId = sessionId ∧ r.completedAt = none) ∧ t = s := by
  unfold savePendingVerification
  refine Settles.get_bind ?_
  rintro s rfl
  refine Settles.ite (fun found => ?_) fun none_found => ?_
  · refine Settles.modify ?_
    rintro s rfl
    exact ⟨by simpa using found, rfl⟩
  · refine Settles.throw ?_
    rintro s rfl
    exact ⟨by simpa using none_found, rfl⟩

/-- Rows of the session are given up, whatever was written to them. -/
theorem deleteSession_writePending (sessionId : String) (d : Desk.Pending) (token : Nat) :
    (s.writePending sessionId d token).deleteSession sessionId = s.deleteSession sessionId := by
  unfold Desk.writePending Desk.deleteSession
  congr 1
  dsimp only
  induction s.sessions with
  | nil => rfl
  | cons r rows ih =>
    by_cases own : r.sessionId = sessionId
    · have written : (if r.sessionId = sessionId ∧ r.completedAt = none then d.write token r else r).sessionId = sessionId := by
        split <;> exact own
      rw [List.map_cons, List.filter_cons_of_neg (by simp [written]), List.filter_cons_of_neg (by simp [own]), ih]
    · have other : (if r.sessionId = sessionId ∧ r.completedAt = none then d.write token r else r) = r :=
        if_neg fun both => own both.1
      rw [List.map_cons, other, List.filter_cons_of_pos (by simp [own]), List.filter_cons_of_pos (by simp [own]), ih]

theorem startPending_settles (cfg : Config) (c : SignupCall) (slug : String) :
    Settles (· = s) (startPending cfg c slug)
      (fun _ t => (∃ r ∈ s.sessions, r.sessionId = c.sessionId ∧ r.completedAt = none) ∧
        ∃ d, d.googleReviewUrl = c.reviewUrl ∧ t = (minted s).writePending c.sessionId d s.nextToken)
      fun _ t => t = (minted s).deleteSession c.sessionId := by
  unfold startPending
  refine Settles.bind newToken_settles fun token => Settles.given ?_
  rintro rfl
  refine Settles.tryCatch (G := fun _ t => t.deleteSession c.sessionId = (minted s).deleteSession c.sessionId) ?_ fun e => ?_
  · refine Settles.bind ((savePendingVerification_settles _ _ _).mono (fun _ _ saved => saved) ?_) fun _ => ?_
    · rintro _ _ ⟨-, rfl⟩
      rfl
    · unfold sendConfirmSignupEmail
      refine Settles.ite (fun _ => Settles.throw ?_) fun _ => Settles.pure ?_
      · rintro _ ⟨-, rfl⟩
        exact deleteSession_writePending _ _ _
      · rintro _ ⟨found, rfl⟩
        refine ⟨found, _, ?_, rfl⟩
        rfl
  · refine Settles.bind (R := fun _ t => t = (minted s).deleteSession c.sessionId) (Settles.modify fun _ h => h) fun _ => ?_
    exact Settles.throw fun _ h => h

end

/-! ### The invariant -/

/-- What holds of one row. -/
structure RowSound (s : Desk) (r : Session) : Prop where
  link : r.verificationToken.isSome → slugIsValid r.tenantSlug = true ∧
    ∃ url, r.googleReviewUrl = some url ∧ isValidGoogleReviewUrl url = true
  free : r.completedAt = none → s.hasTenant r.tenantSlug = false
  completed : r.completedAt.isSome → r.verificationToken.isSome ∧ s.hasOwner r.tenantSlug (Text.stripLower r.email) = true

structure Sound (s : Desk) : Prop where
  ids : (s.sessions.map (·.sessionId)).Nodup
  slugs : (s.sessions.map (·.tenantSlug)).Nodup
  rows : ∀ r ∈ s.sessions, RowSound s r
  /-- No two sessions wait for, or have had, the demo of one business. -/
  links : ∀ r ∈ s.sessions, ∀ r' ∈ s.sessions, r.verificationToken.isSome → r'.verificationToken.isSome →
    r.googleReviewUrl = r'.googleReviewUrl → r = r'
  /-- A completed session remembers each tenant. -/
  remembered : ∀ p ∈ s.provisioned, ∃ r ∈ s.sessions, r.completedAt.isSome ∧ r.tenantSlug = p.slug ∧
    r.googleReviewUrl = some p.reviewUrl
  once : (s.provisioned.map (·.slug)).Nodup

/-- The completed sessions of `s` are those of `t` still. -/
def Keeps (s t : Desk) : Prop := ∀ r ∈ s.sessions, r.completedAt.isSome → r ∈ t.sessions

section
variable {s t : Desk} {r : Session}

theorem Keeps.refl (s : Desk) : Keeps s s := fun _ mem _ => mem

theorem Keeps.trans {u : Desk} (h : Keeps s t) (h' : Keeps t u) : Keeps s u := fun r mem done => h' r (h r mem done) done

theorem Sound.same_id (h : Sound s) {r' : Session} (mem : r ∈ s.sessions) (mem' : r' ∈ s.sessions)
    (same : r.sessionId = r'.sessionId) : r = r' := List.inj_on_of_nodup_map h.ids mem mem' same

theorem Sound.onePerUrl (h : Sound s) : OnePerUrl s := by
  intro url
  refine Lists.length_le_one ((h.once.of_map.filter _).imp_of_mem fun {p q} mem mem' apart => apart ?_)
  obtain ⟨mem, of_url⟩ := List.mem_filter.mp mem
  obtain ⟨mem', of_url'⟩ := List.mem_filter.mp mem'
  obtain ⟨r, r_mem, done, slug, link⟩ := h.remembered p mem
  obtain ⟨r', r_mem', done', slug', link'⟩ := h.remembered q mem'
  have same_url : p.reviewUrl = q.reviewUrl := (of_decide_eq_true of_url).trans (of_decide_eq_true of_url').symm
  obtain rfl := h.links r r_mem r' r_mem' ((h.rows r r_mem).completed done).1 ((h.rows r' r_mem').completed done').1
    (by rw [link, link', same_url])
  exact List.inj_on_of_nodup_map h.once mem mem' (slug.symm.trans slug')

theorem Sound.mint (h : Sound s) : Sound (minted s) :=
  ⟨h.ids, h.slugs, fun r mem => ⟨(h.rows r mem).link, (h.rows r mem).free, (h.rows r mem).completed⟩, h.links, h.remembered, h.once⟩

/-- Sessions that are not completed may go. -/
theorem Sound.filter (h : Sound s) {p : Session → Bool} (spares : ∀ r ∈ s.sessions, r.completedAt.isSome → p r = true) :
    Sound { s with sessions := s.sessions.filter p } ∧ Keeps s { s with sessions := s.sessions.filter p } := by
  have sub : (s.sessions.filter p).Sublist s.sessions := List.filter_sublist
  refine ⟨⟨(sub.map _).nodup h.ids, (sub.map _).nodup h.slugs, fun r mem => ?_, fun r mem r' mem' => ?_, fun q mem => ?_, h.once⟩, ?_⟩
  · have row := h.rows r (sub.subset mem)
    exact ⟨row.link, row.free, row.completed⟩
  · exact h.links r (sub.subset mem) r' (sub.subset mem')
  · obtain ⟨r, r_mem, done, rest⟩ := h.remembered q mem
    exact ⟨r, List.mem_filter.mpr ⟨r_mem, spares r r_mem done⟩, done, rest⟩
  · exact fun r mem done => List.mem_filter.mpr ⟨mem, spares r mem done⟩

theorem Sound.deleteSession (h : Sound s) {sessionId : String}
    (pending : ∀ r ∈ s.sessions, r.sessionId = sessionId → r.completedAt = none) :
    Sound (s.deleteSession sessionId) ∧ Keeps s (s.deleteSession sessionId) := by
  refine h.filter fun r mem done => decide_eq_true fun own => ?_
  rw [pending r mem own] at done
  cases done

theorem Sound.inserted {row : Session} {slug : String} (h : Sound s) (inserted : Inserted s t row slug)
    (fresh : row.verificationToken = none ∧ row.completedAt = none) : Sound t ∧ Keeps s t := by
  obtain ⟨rfl, apart, free⟩ := inserted
  refine ⟨⟨?_, ?_, ?_, ?_, ?_, h.once⟩, fun r mem _ => List.mem_append_left _ mem⟩
  · rw [List.map_append]
    refine List.nodup_append.mpr ⟨h.ids, List.nodup_singleton _, ?_⟩
    rintro _ mem _ last rfl
    obtain ⟨r, r_mem, rfl⟩ := List.mem_map.mp mem
    exact (apart r r_mem).1 (List.mem_singleton.mp last)
  · rw [List.map_append]
    refine List.nodup_append.mpr ⟨h.slugs, List.nodup_singleton _, ?_⟩
    rintro _ mem _ last rfl
    obtain ⟨r, r_mem, rfl⟩ := List.mem_map.mp mem
    exact (apart r r_mem).2 (List.mem_singleton.mp last)
  · intro r mem
    rcases List.mem_append.mp mem with mem | mem
    · exact ⟨(h.rows r mem).link, (h.rows r mem).free, (h.rows r mem).completed⟩
    · obtain rfl := List.mem_singleton.mp mem
      exact ⟨fun token => absurd token (by simp [fresh.1]), fun _ => free, fun done => absurd done (by simp [fresh.2])⟩
  · intro r mem r' mem' token token' same
    rcases List.mem_append.mp mem with mem | mem
    · rcases List.mem_append.mp mem' with mem' | mem'
      · exact h.links r mem r' mem' token token' same
      · obtain rfl := List.mem_singleton.mp mem'
        exact absurd token' (by simp [fresh.1])
    · obtain rfl := List.mem_singleton.mp mem
      exact absurd token (by simp [fresh.1])
  · intro p mem
    obtain ⟨r, r_mem, rest⟩ := h.remembered p mem
    exact ⟨r, List.mem_append_left _ r_mem, rest⟩

/-- A session that is not completed gets a link that no other session has. -/
theorem Sound.written (h : Sound s) {sessionId : String} {d : Desk.Pending} (token : Nat)
    (valid : isValidGoogleReviewUrl d.googleReviewUrl = true)
    (slug : ∀ r ∈ s.sessions, r.sessionId = sessionId → slugIsValid r.tenantSlug = true)
    (alone : ∀ r ∈ s.sessions, r.verificationToken.isSome → r.googleReviewUrl = some d.googleReviewUrl → r.sessionId = sessionId) :
    Sound (s.writePending sessionId d token) ∧ Keeps s (s.writePending sessionId d token) := by
  let f (r : Session) : Session := if r.sessionId = sessionId ∧ r.completedAt = none then d.write token r else r
  have same (r : Session) : (f r).sessionId = r.sessionId ∧ (f r).tenantSlug = r.tenantSlug ∧ (f r).completedAt = r.completedAt ∧
      (f r).email = r.email := by
    dsimp only [f]
    split <;> exact ⟨rfl, rfl, rfl, rfl⟩
  have cases_ (r : Session) : (r.sessionId = sessionId ∧ r.completedAt = none ∧ f r = d.write token r) ∨ f r = r := by
    dsimp only [f]
    split
    · next own => exact .inl ⟨own.1, own.2, rfl⟩
    · exact .inr rfl
  refine ⟨⟨?_, ?_, ?_, ?_, ?_, h.once⟩, ?_⟩
  · have ids := Lists.map_map_key (fun r => (same r).1) s.sessions
    exact ids ▸ h.ids
  · have slugs := Lists.map_map_key (fun r => (same r).2.1) s.sessions
    exact slugs ▸ h.slugs
  · intro r' mem
    obtain ⟨r, r_mem, rfl⟩ := List.mem_map.mp mem
    have row := h.rows r r_mem
    rcases cases_ r with ⟨own, pending, writes⟩ | stays
    · show RowSound _ (f r)
      rw [writes]
      refine ⟨fun _ => ⟨slug r r_mem own, _, rfl, valid⟩, fun _ => row.free pending, fun done => ?_⟩
      have done : r.completedAt.isSome := done
      rw [pending] at done
      cases done
    · show RowSound _ (f r)
      rw [stays]
      exact ⟨row.link, row.free, row.completed⟩
  · intro x mem y mem' token_x token_y link
    obtain ⟨r, r_mem, rfl⟩ := List.mem_map.mp mem
    obtain ⟨r', r_mem', rfl⟩ := List.mem_map.mp mem'
    change f r = f r'
    change (f r).verificationToken.isSome at token_x
    change (f r').verificationToken.isSome at token_y
    change (f r).googleReviewUrl = (f r').googleReviewUrl at link
    rcases cases_ r with ⟨own, -, writes⟩ | stays
    · rcases cases_ r' with ⟨own', -, -⟩ | stays'
      · rw [h.same_id r_mem r_mem' (own.trans own'.symm)]
      · rw [writes, stays'] at link
        rw [stays'] at token_y
        rw [h.same_id r_mem r_mem' (own.trans (alone r' r_mem' token_y link.symm).symm)]
    · rcases cases_ r' with ⟨own', -, writes'⟩ | stays'
      · rw [writes', stays] at link
        rw [stays] at token_x
        rw [h.same_id r_mem r_mem' ((alone r r_mem token_x link).trans own'.symm)]
      · rw [stays, stays'] at link
        rw [stays] at token_x
        rw [stays'] at token_y
        rw [h.links r r_mem r' r_mem' token_x token_y link]
  · intro p mem
    obtain ⟨r, r_mem, done, rest⟩ := h.remembered p mem
    have stays : f r = r := if_neg fun own => by simp [own.2] at done
    exact ⟨r, List.mem_map.mpr ⟨r, r_mem, stays⟩, done, rest⟩
  · intro r mem done
    have stays : f r = r := if_neg fun own => by simp [own.2] at done
    exact List.mem_map.mpr ⟨r, mem, stays⟩

/-- A confirmation makes the tenant of a session, and completes it. -/
theorem Sound.confirmed (h : Sound s) (mem : r ∈ s.sessions) (pending : r.completedAt = none) (token : r.verificationToken.isSome)
    {p : Provisioned} (slug : p.slug = r.tenantSlug) (owner : p.ownerEmail = Text.stripLower r.email)
    (link : r.googleReviewUrl = some p.reviewUrl) (now : Int) :
    Sound ({ s with provisioned := s.provisioned ++ [p] }.markSession r.sessionId now) ∧
      Keeps s ({ s with provisioned := s.provisioned ++ [p] }.markSession r.sessionId now) := by
  let f (x : Session) : Session :=
    if x.sessionId = r.sessionId then { x with verifiedAt := some now, completedAt := some now } else x
  have other {x : Session} (x_mem : x ∈ s.sessions) (apart : x ≠ r) : f x = x :=
    if_neg fun same => apart (h.same_id x_mem mem same)
  have own : f r = { r with verifiedAt := some now, completedAt := some now } := if_pos rfl
  have same (x : Session) : (f x).sessionId = x.sessionId ∧ (f x).tenantSlug = x.tenantSlug ∧
      (f x).verificationToken = x.verificationToken ∧ (f x).googleReviewUrl = x.googleReviewUrl := by
    dsimp only [f]
    split <;> exact ⟨rfl, rfl, rfl, rfl⟩
  have kept {x : Session} (x_mem : x ∈ s.sessions) (done : x.completedAt.isSome) : f x = x := by
    refine other x_mem ?_
    rintro rfl
    rw [pending] at done
    cases done
  have free := (h.rows r mem).free pending
  refine ⟨⟨?_, ?_, ?_, ?_, ?_, ?_⟩, fun x x_mem done => List.mem_map.mpr ⟨x, x_mem, kept x_mem done⟩⟩
  · have ids := Lists.map_map_key (fun x => (same x).1) s.sessions
    exact ids ▸ h.ids
  · have slugs := Lists.map_map_key (fun x => (same x).2.1) s.sessions
    exact slugs ▸ h.slugs
  · intro x' x_mem'
    obtain ⟨x, x_mem, rfl⟩ := List.mem_map.mp x_mem'
    show RowSound _ (f x)
    by_cases apart : x = r
    · obtain rfl := apart
      rw [own]
      refine ⟨(h.rows x x_mem).link, fun none_done => by simp at none_done, fun _ => ⟨token, ?_⟩⟩
      simp [Desk.hasOwner, Desk.markSession, slug, owner]
    · rw [other x_mem apart]
      have row := h.rows x x_mem
      refine ⟨row.link, fun none_done => ?_, fun done => ⟨(row.completed done).1, ?_⟩⟩
      · have unlike : p.slug ≠ x.tenantSlug := fun like =>
          apart (List.inj_on_of_nodup_map h.slugs x_mem mem (like.symm.trans slug))
        have before := row.free none_done
        simp only [Desk.hasTenant, Desk.markSession, List.any_append, List.any_cons, List.any_nil, Bool.or_false,
          Bool.or_eq_false_iff] at before ⊢
        exact ⟨⟨before.1, decide_eq_false unlike⟩, before.2⟩
      · have before := (row.completed done).2
        simp only [Desk.hasOwner, Desk.markSession, List.any_append, Bool.or_eq_true] at before ⊢
        exact .inl before
  · intro x' x_mem' y' y_mem' token_x token_y link
    obtain ⟨x, x_mem, rfl⟩ := List.mem_map.mp x_mem'
    obtain ⟨y, y_mem, rfl⟩ := List.mem_map.mp y_mem'
    change f x = f y
    change (f x).verificationToken.isSome at token_x
    change (f y).verificationToken.isSome at token_y
    change (f x).googleReviewUrl = (f y).googleReviewUrl at link
    rw [(same x).2.2.1] at token_x
    rw [(same y).2.2.1] at token_y
    rw [(same x).2.2.2, (same y).2.2.2] at link
    rw [h.links x x_mem y y_mem token_x token_y link]
  · intro q q_mem
    rcases List.mem_append.mp q_mem with q_mem | q_mem
    · obtain ⟨x, x_mem, done, rest⟩ := h.remembered q q_mem
      exact ⟨x, List.mem_map.mpr ⟨x, x_mem, kept x_mem done⟩, done, rest⟩
    · obtain rfl := List.mem_singleton.mp q_mem
      refine ⟨f r, List.mem_map.mpr ⟨r, mem, rfl⟩, ?_, (same r).2.1.trans slug.symm, (same r).2.2.2.trans link⟩
      rw [own]
      rfl
  · show ((s.provisioned ++ [p]).map (·.slug)).Nodup
    rw [List.map_append]
    refine List.nodup_append.mpr ⟨h.once, List.nodup_singleton _, ?_⟩
    rintro _ q_slug _ last rfl
    obtain ⟨q, q_mem, like⟩ := List.mem_map.mp q_slug
    have taken : s.hasTenant r.tenantSlug = true := by
      have same_slug : q.slug = r.tenantSlug := like.trans ((List.mem_singleton.mp last).trans slug)
      simp only [Desk.hasTenant, Bool.or_eq_true, List.any_eq_true, decide_eq_true_eq]
      exact .inl ⟨q, q_mem, same_slug⟩
    rw [taken] at free
    cases free

/-! ### The calls -/

theorem latest_mem {p : Session → Bool} (found : s.latest p = some r) : r ∈ s.sessions ∧ p r = true :=
  List.mem_filter.mp (Lists.latestBy_mem found)

theorem pending_mem {email : String} (found : s.findLatestPendingSessionByEmail email = some r) :
    r ∈ s.sessions ∧ r.completedAt = none ∧ r.verificationToken.isSome := by
  unfold Desk.findLatestPendingSessionByEmail at found
  dsimp only at found
  split at found
  · cases found
  · obtain ⟨mem, hit⟩ := latest_mem found
    simp only [Desk.isPending, Bool.and_eq_true, Option.isNone_iff_eq_none] at hit
    exact ⟨mem, hit.2.1, hit.2.2⟩

theorem resend_settles (h : Sound s) (cfg : Config) (email : String) (preferredLocale : Option String) (now : Int) (mailSent : Bool) :
    Settles (· = s) (resendPendingVerification cfg email preferredLocale now mailSent) (fun _ t => Sound t ∧ Keeps s t)
      fun _ t => Sound t ∧ Keeps s t := by
  unfold resendPendingVerification
  refine Settles.get_bind ?_
  rintro s rfl
  split
  · refine Settles.throw ?_
    rintro s rfl
    exact ⟨h, Keeps.refl s⟩
  · next pending found =>
    obtain ⟨mem, open_, token⟩ := pending_mem found
    obtain ⟨slug, url, link, valid⟩ := (h.rows pending mem).link token
    refine Settles.ite (fun _ => ?_) fun _ => ?_
    · refine Settles.bind (R := fun _ t => t = s.deleteSession pending.sessionId) (Settles.modify ?_) fun _ => Settles.throw_bind ?_
      · rintro s rfl
        rfl
      · rintro _ rfl
        refine h.deleteSession fun r r_mem same => ?_
        rw [h.same_id r_mem mem same]
        exact open_
    · refine Settles.bind newToken_settles fun k => Settles.given ?_
      rintro rfl
      have saved : Sound (minted s) ∧ Keeps s (minted s) := ⟨h.mint, Keeps.refl s⟩
      refine Settles.bind (R := fun _ t => Sound t ∧ Keeps s t) ((savePendingVerification_settles _ _ _).mono ?_ ?_) fun _ => ?_
      · rintro _ _ ⟨-, rfl⟩
        refine h.mint.written _ ?_ (fun r r_mem same => ?_) fun r r_mem r_token same => ?_
        · rw [link]
          exact valid
        · rw [h.same_id r_mem mem same]
          exact slug
        · rw [h.links r r_mem pending mem r_token token (by rw [same, link, Option.getD_some])]
      · rintro _ _ ⟨-, rfl⟩
        exact saved
      · unfold sendConfirmSignupEmail
        exact Settles.ite (fun _ => Settles.throw fun _ good => good) fun _ => Settles.pure fun _ good => good

theorem hasTenant_of_hasOwner {slug email : String} (owner : s.hasOwner slug email = true) : s.hasTenant slug = true := by
  obtain ⟨p, mem, hit⟩ := List.any_eq_true.mp owner
  simp only [Bool.and_eq_true] at hit
  simp only [Desk.hasTenant, Bool.or_eq_true]
  exact .inl (List.any_eq_true.mpr ⟨p, mem, hit.1⟩)

theorem confirm_settles (h : Sound s) (token : Nat) (now : Int) :
    Settles (· = s) (confirmAndProvision token now) (fun _ t => Sound t ∧ Keeps s t) fun _ t => Sound t ∧ Keeps s t := by
  have same : ∀ t, t = s → Sound t ∧ Keeps s t := by
    rintro t rfl
    exact ⟨h, Keeps.refl t⟩
  unfold confirmAndProvision
  refine Settles.get_bind ?_
  rintro s rfl
  split
  · exact Settles.throw same
  · next pending found =>
    have mem := List.mem_of_find?_eq_some found
    have token_some : pending.verificationToken.isSome := by
      have known : pending.verificationToken = some token := by simpa using List.find?_some found
      rw [known]
      rfl
    obtain ⟨slug, url, link, valid⟩ := (h.rows pending mem).link token_some
    have row := h.rows pending mem
    dsimp only
    refine Settles.get_bind ?_
    rintro s rfl
    refine Settles.get_bind ?_
    rintro s rfl
    refine Settles.ite (fun _ => Settles.pure same) fun unfinished => ?_
    have open_ : pending.completedAt = none := by
      by_contra done
      have done := Option.isSome_iff_ne_none.mpr done
      have owner := (row.completed done).2
      exact unfinished ⟨done, hasTenant_of_hasOwner owner, owner⟩
    refine Settles.ite (fun _ => ?_) fun _ => ?_
    · refine Settles.bind (R := fun _ t => t = s.deleteSession pending.sessionId) (Settles.modify ?_) fun _ => Settles.throw_bind ?_
      · rintro s rfl
        rfl
      · rintro _ rfl
        refine h.deleteSession fun r r_mem same => ?_
        rw [h.same_id r_mem mem same]
        exact open_
    · refine Settles.get_bind ?_
      rintro s rfl
      have free := row.free open_
      refine Settles.ite (fun _ => ?_) fun taken => absurd free (by simpa using taken)
      refine Settles.bind (R := fun _ t => t = { s with provisioned := s.provisioned ++ [pending.tenant] }) (Settles.modify ?_)
        fun _ => Settles.get_bind ?_
      · rintro s rfl
        rfl
      rintro _ rfl
      refine Settles.ite (fun ownerless => ?_) fun _ => ?_
      · simp [Desk.hasOwner, Session.tenant] at ownerless
      · refine Settles.bind (R := fun _ t => Sound t ∧ Keeps s t) (Settles.modify ?_) fun _ => Settles.pure fun _ good => good
        rintro _ rfl
        have asked : pending.tenant.reviewUrl = url := by
          rw [Session.tenant, link, Option.getD_some, normalize_valid valid]
        exact @Sound.confirmed _ _ h mem open_ token_some pending.tenant rfl rfl (link.trans (congrArg some asked.symm)) now

theorem sqlTrim_of_valid {slug : String} (valid : slugIsValid slug = true) : sqlTrim slug.toList ≠ [] := by
  obtain ⟨c, mem, letter⟩ := slugIsValid_letter valid
  have solid : (fun d => decide (d = ' ')) c = false := by
    refine decide_eq_false ?_
    rintro rfl
    exact absurd letter (by decide)
  have kept : c ∈ sqlTrim slug.toList := by
    unfold sqlTrim
    rw [List.mem_reverse, Text.mem_dropWhile solid, List.mem_reverse, Text.mem_dropWhile solid]
    exact mem
  exact List.ne_nil_of_mem kept

theorem latest_none {p : Session → Bool} (none_found : s.latest p = none) : ∀ r ∈ s.sessions, p r = false := by
  intro r mem
  by_contra hit
  have listed : r ∈ s.sessions.filter p := List.mem_filter.mpr ⟨mem, Bool.not_eq_false _ ▸ hit⟩
  rw [Lists.latestBy_eq_none none_found] at listed
  cases listed

/-- A signup that passes its checks comes with the link of a business of which no session knows. -/
theorem Sound.unknown (h : Sound s) {c : SignupCall} (admitted : admission s c = .admitted) :
    ∀ r ∈ s.sessions, r.verificationToken.isSome → r.googleReviewUrl ≠ some c.reviewUrl := by
  intro r mem token link
  have valid : isValidGoogleReviewUrl c.reviewUrl = true := by
    rw [SignupCall.reviewUrl, normalize_valid c.valid]
    exact c.valid
  have found := linkMatches_valid valid link
  obtain ⟨slug, -⟩ := (h.rows r mem).link token
  have trimmed := sqlTrim_of_valid slug
  unfold admission at admitted
  split at admitted
  · cases admitted
  · split at admitted
    · cases admitted
    · split at admitted
      · cases admitted
      · split at admitted
        · cases admitted
        · next no_completed =>
          split at admitted
          · split at admitted <;> cases admitted
          · next no_pending =>
            have open_ := latest_none no_completed r mem
            have closed := latest_none no_pending r mem
            cases done : r.completedAt <;> simp [found, done, trimmed, token, Desk.isPending] at open_ closed

theorem Inserted.rows {row : Session} {slug : String} (h : Inserted s t row slug) :
    { row with tenantSlug := slug } ∈ t.sessions ∧ ∀ r ∈ t.sessions, r ∈ s.sessions ∨ r = { row with tenantSlug := slug } := by
  rw [h.result]
  refine ⟨List.mem_append_right _ (List.mem_singleton_self _), fun r mem => ?_⟩
  exact (List.mem_append.mp mem).imp_right List.mem_singleton.mp

/-- The session has a slug, and the rows are those there were, or new. -/
structure Reserved (s t : Desk) (sessionId slug : String) : Prop where
  sound : Sound t
  keeps : Keeps s t
  own : ∃ r ∈ t.sessions, r.sessionId = sessionId ∧ r.tenantSlug = slug
  rows : ∀ r ∈ t.sessions, r ∈ s.sessions ∨ (r.verificationToken = none ∧ r.completedAt = none)

/-- What the reservation leaves, where no completed session is named. -/
theorem reserved_good (h : Sound s) {row : Session} (fresh : row.verificationToken = none ∧ row.completedAt = none)
    (unclaimed : ∀ r ∈ s.sessions, r.sessionId = row.sessionId → r.completedAt = none) (cfg : Config) :
    Settles (· = s) (reserve cfg row) (fun slug t => Reserved s t row.sessionId slug) fun _ t => Sound t ∧ Keeps s t := by
  have given_up := h.deleteSession unclaimed
  refine (reserve_settles cfg).mono ?_ ?_
  · rintro slug t (⟨rfl, own, -⟩ | ⟨-, inserted | inserted⟩)
    · exact ⟨h, Keeps.refl t, getReservedSlug_row own, fun _ mem => .inl mem⟩
    · obtain ⟨own, rows⟩ := inserted.rows
      obtain ⟨sound, keeps⟩ := h.inserted inserted fresh
      exact ⟨sound, keeps, ⟨_, own, rfl, rfl⟩, fun r mem => (rows r mem).imp_right (by rintro rfl; exact fresh)⟩
    · obtain ⟨own, rows⟩ := inserted.rows
      obtain ⟨sound, keeps⟩ := given_up.1.inserted inserted fresh
      refine ⟨sound, given_up.2.trans keeps, ⟨_, own, rfl, rfl⟩, fun r mem => ?_⟩
      exact (rows r mem).imp (fun old => (List.mem_filter.mp old).1) (by rintro rfl; exact fresh)
  · rintro e t (⟨rfl, -⟩ | rfl)
    · exact ⟨h, Keeps.refl t⟩
    · exact given_up

theorem signup_settles (h : Sound s) (cfg : Config) (c : SignupCall) (unclaimed : Unclaimed s (.signup c)) :
    Settles (· = s) (signup cfg c) (fun _ t => Sound t ∧ Keeps s t) fun _ t => Sound t ∧ Keeps s t := by
  unfold signup
  refine Settles.get_bind ?_
  rintro s rfl
  split
  · refine Settles.throw ?_
    rintro s rfl
    exact ⟨h, Keeps.refl s⟩
  · exact resend_settles h cfg _ _ _ _
  · next admitted =>
    refine Settles.bind (reserved_good h ⟨rfl, rfl⟩ (unclaimed admitted) cfg) fun slug => ?_
    refine Settles.ite (fun _ => Settles.throw_bind fun t reserved => ⟨reserved.sound, reserved.keeps⟩) fun valid => ?_
    intro t reserved
    have pending : ∀ r ∈ t.sessions, r.sessionId = c.sessionId → r.completedAt = none := by
      intro r mem own
      rcases reserved.rows r mem with old | fresh
      · exact unclaimed admitted r old own
      · exact fresh.2
    have unknown : ∀ r ∈ t.sessions, r.verificationToken.isSome → r.googleReviewUrl ≠ some c.reviewUrl := by
      intro r mem token
      rcases reserved.rows r mem with old | fresh
      · exact h.unknown admitted r old token
      · exact absurd token (by simp [fresh.1])
    refine (startPending_settles cfg c slug).mono ?_ ?_ t rfl
    · rintro _ _ ⟨-, d, link, rfl⟩
      have good : Sound ((minted t).writePending c.sessionId d t.nextToken) ∧
          Keeps (minted t) ((minted t).writePending c.sessionId d t.nextToken) := by
        refine reserved.sound.mint.written _ ?_ (fun r mem own => ?_) fun r mem token same => ?_
        · rw [link, SignupCall.reviewUrl, normalize_valid c.valid]
          exact c.valid
        · obtain ⟨r', mem', own', has_slug⟩ := reserved.own
          rw [reserved.sound.same_id mem mem' (own.trans own'.symm), has_slug]
          simpa using valid
        · exact absurd (same.trans (congrArg some link)) (unknown r mem token)
      exact ⟨good.1, reserved.keeps.trans good.2⟩
    · rintro _ _ rfl
      have good := reserved.sound.mint.deleteSession pending
      exact ⟨good.1, reserved.keeps.trans good.2⟩

theorem step_good (h : Sound s) (cfg : Config) {op : Op} (unclaimed : Unclaimed s op) :
    Sound (step cfg s op) ∧ KeepsCompleted cfg s op := by
  cases op with
  | signup c => exact (signup_settles h cfg c unclaimed).leads s rfl
  | resend email preferredLocale now mailSent => exact (resend_settles h cfg email preferredLocale now mailSent).leads s rfl
  | confirm token now => exact (confirm_settles h token now).leads s rfl
  | cleanup now =>
    refine h.filter fun r mem done => ?_
    simp [Option.isNone_eq_false_iff.mpr done]

/-! ### A completed session that is named again -/

theorem lost_of_deleted {sessionId : String} (own : r.sessionId = sessionId) : r ∉ (s.deleteSession sessionId).sessions := by
  intro mem
  exact absurd own (of_decide_eq_true (List.mem_filter.mp mem).2)

theorem lost_of_inserted {row : Session} {slug : String} (inserted : Inserted s t row slug) (lost : r ∉ s.sessions)
    (done : r.completedAt.isSome) (fresh : row.completedAt = none) : r ∉ t.sessions := by
  intro mem
  rcases inserted.rows.2 r mem with old | rfl
  · exact lost old
  · rw [fresh] at done
    cases done

theorem lost_of_written {sessionId : String} {d : Desk.Pending} {token : Nat} (lost : r ∉ s.sessions)
    (done : r.completedAt.isSome) : r ∉ (s.writePending sessionId d token).sessions := by
  intro mem
  obtain ⟨x, x_mem, same⟩ := List.mem_map.mp mem
  split at same
  · next pending =>
    have none_done : r.completedAt = none := by
      rw [← same]
      exact pending.2
    rw [none_done] at done
    cases done
  · exact lost (same ▸ x_mem)

/-- The reservation keeps the slug of a completed session, or gives the session up. -/
theorem reserve_claimed (h : Sound s) (mem : r ∈ s.sessions) (done : r.completedAt.isSome) {row : Session}
    (own : r.sessionId = row.sessionId) (fresh : row.completedAt = none) (cfg : Config) :
    Settles (· = s) (reserve cfg row) (fun slug t => (t = s ∧ slug = r.tenantSlug) ∨ r ∉ t.sessions) fun _ t => r ∉ t.sessions := by
  refine (reserve_settles cfg).mono ?_ ?_
  · rintro slug t (⟨rfl, reserved, -⟩ | ⟨-, inserted | inserted⟩)
    · obtain ⟨r', mem', own', has_slug⟩ := getReservedSlug_row reserved
      rw [h.same_id mem mem' (own.trans own'.symm)]
      exact .inl ⟨rfl, has_slug.symm⟩
    · exact absurd own (inserted.apart r mem).1
    · exact .inr (lost_of_inserted inserted (lost_of_deleted own) done fresh)
  · rintro e t (⟨rfl, absent⟩ | rfl)
    · have first : t.sessions.find? (·.sessionId = row.sessionId) = some r := own ▸ Lists.find?_of_mem h.ids mem
      obtain ⟨slug, -⟩ := (h.rows r mem).link ((h.rows r mem).completed done).1
      have empty : r.tenantSlug = "" := by simpa [Desk.getReservedSlug, first] using absent
      rw [empty] at slug
      exact absurd slug (by decide)
    · exact lost_of_deleted own

/-- A signup that passes its checks takes away the completed session that it names. -/
theorem claimed_lost (h : Sound s) (cfg : Config) {c : SignupCall} (admitted : admission s c = .admitted) (mem : r ∈ s.sessions)
    (own : r.sessionId = c.sessionId) (done : r.completedAt.isSome) : r ∉ (step cfg s (.signup c)).sessions := by
  have ends : Settles (· = s) (signup cfg c) (fun _ t => r ∉ t.sessions) fun _ t => r ∉ t.sessions := by
    unfold signup
    refine Settles.get_bind ?_
    rintro s rfl
    rw [admitted]
    refine Settles.bind (reserve_claimed h mem done own rfl cfg) fun slug => ?_
    obtain ⟨slug_valid, -⟩ := (h.rows r mem).link ((h.rows r mem).completed done).1
    refine Settles.ite (fun invalid => Settles.throw_bind fun t left => ?_) fun _ t left => ?_
    · rcases left with ⟨-, rfl⟩ | lost
      · simp [slug_valid] at invalid
      · exact lost
    · refine (startPending_settles cfg c slug).mono ?_ ?_ t rfl
      · rintro _ _ ⟨⟨r', mem', own', pending⟩, d, -, rfl⟩
        rcases left with ⟨rfl, -⟩ | lost
        · rw [h.same_id mem mem' (own.trans own'.symm), pending] at done
          cases done
        · exact lost_of_written lost done
      · rintro _ _ rfl
        exact lost_of_deleted own
  exact ends.leads s rfl

theorem unclaimed_of_keepsCompleted (h : Sound s) (cfg : Config) {op : Op} (keeps : KeepsCompleted cfg s op) : Unclaimed s op := by
  cases op with
  | signup c =>
    intro admitted r mem own
    by_contra done
    have done := Option.isSome_iff_ne_none.mpr done
    exact claimed_lost h cfg admitted mem own done (keeps r mem done)
  | _ => trivial

theorem Sound.start (otherTenants : List String) (nextToken : Nat) : Sound { otherTenants, nextToken } where
  ids := List.nodup_nil
  slugs := List.nodup_nil
  rows := fun _ mem => absurd mem List.not_mem_nil
  links := fun _ mem => absurd mem List.not_mem_nil
  remembered := fun _ mem => absurd mem List.not_mem_nil
  once := List.nodup_nil

/-- In a run of calls, each business gets one tenant and no completed session is touched, if and only if no signup that passes
    its checks comes with the id of a completed session. -/
theorem one_demo_per_business (cfg : Config) (otherTenants : List String) (nextToken : Nat) (ops : List Op) :
    ((∀ n, OnePerUrl (final (step cfg) { otherTenants, nextToken } (ops.take n))) ∧
      Always (step cfg) (KeepsCompleted cfg) { otherTenants, nextToken } ops) ↔
      Always (step cfg) Unclaimed { otherTenants, nextToken } ops := by
  have start := Sound.start otherTenants nextToken
  constructor
  · rintro ⟨-, keeps⟩
    exact Always.of_invariant Sound start (fun s op h keeps => (step_good h cfg (unclaimed_of_keepsCompleted h cfg keeps)).1)
      (fun s op h keeps => unclaimed_of_keepsCompleted h cfg keeps) keeps
  · intro unclaimed
    refine ⟨fun n => ?_, Always.of_invariant Sound start (fun s op h ok => (step_good h cfg ok).1)
      (fun s op h ok => (step_good h cfg ok).2) unclaimed⟩
    have part : Always (step cfg) Unclaimed { otherTenants, nextToken } (ops.take n) := by
      rw [← List.take_append_drop n ops, always_append] at unclaimed
      exact unclaimed.1
    exact (final_invariant Sound start (fun s op h ok => (step_good h cfg ok).1) part).onePerUrl

end

/-! ### Two demos of one business -/

def plain : Config := { nfkd := id, verificationTtl := 86400 }

def annas (session : String) (now : Int) : SignupCall where
  email := "anna@example.com"
  name := "Anna"
  companyName := some "Anna Kft"
  demoSessionId := some session
  googleReviewUrl := "https://g.page/r/anna/review"
  valid := by decide +kernel
  now := now

def belas (session : String) (now : Int) : SignupCall where
  email := "bela@example.com"
  name := "Bela"
  companyName := some "Bela Bt"
  demoSessionId := some session
  googleReviewUrl := "https://g.page/r/bela/review"
  valid := by decide +kernel
  now := now

/-- The session of Anna's demo is used for Bela's, and Anna signs up again. -/
def sharedSession : List Op :=
  [.signup (annas "s1" 0), .confirm 0 1, .signup (belas "s1" 2), .signup (annas "s2" 3), .confirm 2 4]

theorem two_demos_of_one_business : ¬OnePerUrl (final (step plain) {} sharedSession) := by
  intro once
  have two : ((final (step plain) {} sharedSession).provisioned.filter (·.reviewUrl = "https://g.page/r/anna/review")).map (·.slug) =
      ["anna-kft", "anna-kft2"] := by decide +kernel
  have one := once "https://g.page/r/anna/review"
  rw [← List.length_map (·.slug), two] at one
  exact absurd one (by decide)

end NyzRating.Tenancy.Business
