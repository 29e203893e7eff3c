import NyzRating.Lib.Process
import NyzRating.Tenancy.OneBusiness

/-!
# Reserved slugs

What `DemoSlugReserver.reserve` returns, for any company name and any tables: the slug that the session has reserved already,
as it stands, or the first free candidate. Calls of different sessions may take turns; each of them writes rows of its own
session only.
-/

namespace NyzRating.Tenancy.Business

open Program

/-! ### Labels -/

/-- A label but for its last character: at most 63 letters, digits and hyphens, with no hyphen first. -/
structure LabelText (slug : String) : Prop where
  chars : SlugText slug
  length : slug.toList.length ≤ 63
  first : ∃ c, slug.toList.head? = some c ∧ isSlugLetter c = true

/-- A legal label of a host name. -/
structure DnsLabel (slug : String) : Prop extends LabelText slug where
  last : slug.toList.getLast? ≠ some '-'

theorem LabelText.valid {slug : String} (h : LabelText slug) : slugIsValid slug = true :=
  slugIsValid_of_slugText h.chars h.first (h.length.trans (by decide))

section
variable {cs : List Char} {c : Char}

theorem head?_stripHyphens (first : (stripHyphens cs).head? = some c) : c ≠ '-' := by
  unfold stripHyphens at first
  have cut : ((cs.dropWhile (· = '-')).reverse.dropWhile (· = '-')).reverse <+: cs.dropWhile (· = '-') := by
    rw [← List.reverse_suffix, List.reverse_reverse]
    exact List.dropWhile_suffix _
  have head : (cs.dropWhile (· = '-')).head? = some c := by
    obtain ⟨rest, whole⟩ := cut
    rw [← whole, List.head?_append, first, Option.some_or]
  have stays := List.head?_dropWhile_not (fun d => decide (d = '-')) cs
  rw [head] at stays
  exact fun hyphen => by simp [hyphen] at stays

theorem head?_hyphenateRuns {keep : Char → Bool} (first : cs.head? = some c) (kept : keep c = true) :
    (hyphenateRuns keep false cs).head? = some c := by
  cases cs with
  | nil => cases first
  | cons d ds =>
    cases first
    rw [hyphenateRuns, if_pos kept]
    rfl

theorem demoSlugBase_head (nfkd : List Char → List Char) (rawName : String) :
    ∃ c, (demoSlugBase nfkd rawName).toList.head? = some c ∧ c ≠ '-' := by
  unfold demoSlugBase
  dsimp only
  rw [String.toList_ofList, List.head?_take, if_neg (by decide)]
  split
  · exact ⟨'d', rfl, by decide⟩
  · next some_run =>
    cases first : (stripHyphens (hyphenateRuns isSlugLetter false
        (((nfkd rawName.toList).filter (·.toNat < 128)).map Char.toLower))).head? with
    | none =>
      rw [List.head?_eq_none_iff.mp first] at some_run
      exact absurd rfl some_run
    | some c =>
      have letter := head?_stripHyphens first
      exact ⟨c, head?_hyphenateRuns first (decide_eq_true letter), letter⟩

/-- The base begins with a letter or a digit. -/
theorem demoSlugBase_first (nfkd : List Char → List Char) (rawName : String) :
    ∃ c, (demoSlugBase nfkd rawName).toList.head? = some c ∧ isSlugLetter c = true := by
  obtain ⟨c, head, letter⟩ := demoSlugBase_head nfkd rawName
  have plain := demoSlugBase_slugText nfkd rawName c (List.mem_of_head? head)
  exact ⟨c, head, by simpa [isSlugChar, letter] using plain⟩

theorem length_suffix {suffix : Nat} (few : suffix < 10000) : (Nat.toDigits 10 suffix).length ≤ 4 :=
  (Nat.length_toDigits_le_iff (by decide) (by decide)).mpr few

theorem candidate_label {base slug : String} (text : SlugText base) (short : base.toList.length ≤ 48)
    (first : ∃ c, base.toList.head? = some c ∧ isSlugLetter c = true) (candidate : IsCandidate base slug) : LabelText slug := by
  obtain ⟨suffix, few, rfl⟩ := candidate
  have digits := length_suffix few
  obtain ⟨c, head, letter⟩ := first
  refine ⟨candidateDemoSlug_slugText text suffix, ?_, c, ?_, letter⟩
  · unfold candidateDemoSlug
    split
    · rw [String.toList_ofList]
      exact (List.length_take_le' _ _).trans (short.trans (by decide))
    · rw [String.toList_ofList, List.length_append]
      have cut := List.length_take_le' (64 - (Nat.toDigits 10 suffix).length) base.toList
      omega
  · have cut : ∀ n, 0 < n → (base.toList.take n).head? = some c := by
      intro n positive
      rw [List.head?_take, if_neg (Nat.ne_of_gt positive), head]
    unfold candidateDemoSlug
    split
    · rw [String.toList_ofList, cut 64 (by decide)]
    · rw [String.toList_ofList, List.head?_append, cut _ (by omega), Option.some_or]

/-- A candidate ends in a hyphen just when it is the base, and the base does. -/
theorem candidate_last_iff {base : String} (short : base.toList.length ≤ 48) (suffix : Nat) :
    (candidateDemoSlug base suffix).toList.getLast? = some '-' ↔ suffix ≤ 1 ∧ base.toList.getLast? = some '-' := by
  unfold candidateDemoSlug
  split
  · next one =>
    rw [String.toList_ofList, List.take_of_length_le (short.trans (by decide))]
    exact ⟨fun last => ⟨one, last⟩, And.right⟩
  · next more =>
    refine iff_of_false (fun last => ?_) fun both => more both.1
    rw [String.toList_ofList, List.getLast?_append, List.getLast?_eq_some_getLast (@Nat.toDigits_ne_nil suffix 10),
      Option.some_or] at last
    have digit := Nat.isDigit_of_mem_toDigits (by decide) (by decide) (List.getLast_mem (@Nat.toDigits_ne_nil suffix 10))
    rw [Option.some.inj last] at digit
    exact absurd digit (by decide)

end

/-! ### One call -/

/-- `session_id` and `tenant_slug` are unique. -/
structure UniqueRows (s : Desk) : Prop where
  ids : (s.sessions.map (·.sessionId)).Nodup
  slugs : (s.sessions.map (·.tenantSlug)).Nodup

/-- The slug is reserved by the session and no other. -/
structure ReservedBy (s : Desk) (sessionId slug : String) : Prop where
  own : ∃ r ∈ s.sessions, r.sessionId = sessionId ∧ r.tenantSlug = slug
  only : ∀ r ∈ s.sessions, r.tenantSlug = slug → r.sessionId = sessionId

section
variable {s t : Desk} {row : Session} {sessionId slug : String} {cfg : Config}

theorem UniqueRows.reservedBy (h : UniqueRows s) (own : ∃ r ∈ s.sessions, r.sessionId = sessionId ∧ r.tenantSlug = slug) :
    ReservedBy s sessionId slug where
  own := own
  only r mem same := by
    obtain ⟨r', mem', id, slug'⟩ := own
    rw [List.inj_on_of_nodup_map h.slugs mem mem' (same.trans slug'.symm), id]

theorem UniqueRows.filter (h : UniqueRows s) (p : Session → Bool) : UniqueRows { s with sessions := s.sessions.filter p } where
  ids := h.ids.sublist (List.filter_sublist.map _)
  slugs := h.slugs.sublist (List.filter_sublist.map _)

theorem UniqueRows.insert (h : UniqueRows s)
    (apart : ∀ r ∈ s.sessions, r.sessionId ≠ row.sessionId ∧ r.tenantSlug ≠ row.tenantSlug) :
    UniqueRows { s with sessions := s.sessions ++ [row] } where
  ids := by
    rw [List.map_append, List.map_singleton, List.nodup_append]
    refine ⟨h.ids, List.nodup_singleton _, ?_⟩
    rintro _ mem _ last rfl
    obtain ⟨r, r_mem, same⟩ := List.mem_map.mp mem
    exact (apart r r_mem).1 (same.trans (List.mem_singleton.mp last))
  slugs := by
    rw [List.map_append, List.map_singleton, List.nodup_append]
    refine ⟨h.slugs, List.nodup_singleton _, ?_⟩
    rintro _ mem _ last rfl
    obtain ⟨r, r_mem, same⟩ := List.mem_map.mp mem
    exact (apart r r_mem).2 (same.trans (List.mem_singleton.mp last))

theorem UniqueRows.inserted (h : UniqueRows s) (inserted : Inserted s t row slug) :
    UniqueRows t ∧ ∃ r ∈ t.sessions, r.sessionId = row.sessionId ∧ r.tenantSlug = slug := by
  have rows := inserted.rows.1
  rw [inserted.result] at rows ⊢
  exact ⟨h.insert inserted.apart, _, rows, rfl, rfl⟩

/-- A slug that was made for the session. -/
structure Fresh (s : Desk) (slug : String) : Prop where
  label : LabelText slug
  valid : slugIsValid slug = true
  free : s.hasTenant slug = false

theorem fresh_of_candidate (candidate : IsCandidate (demoSlugBase cfg.nfkd row.requestedName) slug)
    (free : s.hasTenant slug = false) : Fresh s slug := by
  have label := candidate_label (demoSlugBase_slugText _ _) (demoSlugBase_length _ _) (demoSlugBase_first _ _) candidate
  exact ⟨label, label.valid, free⟩

/-- Whatever rows were there before the insert. -/
theorem UniqueRows.fresh (h : UniqueRows s) (candidate : IsCandidate (demoSlugBase cfg.nfkd row.requestedName) slug)
    (inserted : Inserted s t row slug) : ReservedBy t row.sessionId slug ∧ Fresh t slug := by
  obtain ⟨unique, own⟩ := h.inserted inserted
  refine ⟨unique.reservedBy own, fresh_of_candidate candidate ?_⟩
  rw [inserted.result]
  exact inserted.free

/-- What a call answers: the slug is the session's own, and is the one it had, or is fresh. -/
theorem reserve_answers (h : UniqueRows s) (run : (reserve cfg row).run s = .ok slug t) :
    ReservedBy t row.sessionId slug ∧
      ((t = s ∧ s.getReservedSlug row.sessionId = some slug ∧
        slugMatchesDemoBase slug (demoSlugBase cfg.nfkd row.requestedName) = true) ∨ Fresh t slug) := by
  have settled := @reserve_settles s row cfg s rfl
  rw [run] at settled
  cases settled with
  | returned answers =>
    rcases answers with ⟨rfl, own, like⟩ | ⟨candidate, inserted | inserted⟩
    · exact ⟨h.reservedBy (getReservedSlug_row own), .inl ⟨rfl, own, like⟩⟩
    · obtain ⟨own, fresh⟩ := h.fresh candidate inserted
      exact ⟨own, .inr fresh⟩
    · obtain ⟨own, fresh⟩ := (h.filter (·.sessionId ≠ row.sessionId)).fresh candidate inserted
      exact ⟨own, .inr fresh⟩

end

/-! ### Calls that take turns -/

/-- One statement of a call; `look` reads. -/
inductive Statement where
  | look
  | deleteSession (sessionId : String)
  | reserveSlug (row : Session)

def Statement.apply : Statement → Desk → Desk
  | .look, s => s
  | .deleteSession sessionId, s => s.deleteSession sessionId
  | .reserveSlug row, s => (s.reserveSlug row).2

/-- `reserveFrom`, one statement after another. -/
def reserveFromSteps (base : String) (row : Session) : (attempts suffix : Nat) → Process Statement Desk SignupFailure String
  | 0, _ => .raise (.valueError "slug_generation_failed")
  | attempts + 1, suffix =>
    let candidate := candidateDemoSlug base suffix
    .call .look fun s =>
      if s.hasTenant candidate then reserveFromSteps base row attempts (suffix + 1)
      else
        .call (.reserveSlug { row with tenantSlug := candidate }) fun s =>
          if (s.reserveSlug { row with tenantSlug := candidate }).1 then .ret candidate
          else
            .call .look fun s =>
              match (s.getReservedSlug row.sessionId).filter (· ≠ "") with
              | none => reserveFromSteps base row attempts (suffix + 1)
              | some existing =>
                if slugMatchesDemoBase existing base then .ret existing
                else .call (.deleteSession row.sessionId) fun _ => reserveFromSteps base row attempts (suffix + 1)

def reserveSteps (cfg : Config) (row : Session) : Process Statement Desk SignupFailure String :=
  let base := demoSlugBase cfg.nfkd row.requestedName
  .call .look fun s =>
    match (s.getReservedSlug row.sessionId).filter (· ≠ "") with
    | none => reserveFromSteps base row 9999 1
    | some existing =>
      if slugMatchesDemoBase existing base then .ret existing
      else .call (.deleteSession row.sessionId) fun _ => reserveFromSteps base row 9999 1

theorem get_bind_apply {f : Desk → DeskM String} {s : Desk} : (get >>= f) s = f s s := rfl

theorem modify_bind_apply {f : Desk → Desk} {m : DeskM String} {s : Desk} : (modify f >>= fun _ => m) s = m (f s) := rfl

theorem modifyGet_bind_apply {f : Desk → Bool × Desk} {g : Bool → DeskM String} {s : Desk} :
    (modifyGet f >>= g) s = g (f s).1 (f s).2 := rfl

theorem reserveFromSteps_run (base : String) (row : Session) (attempts suffix : Nat) :
    (reserveFromSteps base row attempts suffix).run Statement.apply = reserveFrom base row attempts suffix := by
  induction attempts generalizing suffix with
  | zero => rfl
  | succ attempts ih =>
    have next : ∀ s, (reserveFromSteps base row attempts (suffix + 1)).run Statement.apply s =
        reserveFrom base row attempts (suffix + 1) s := fun s => congrFun (ih (suffix + 1)) s
    funext s
    unfold reserveFromSteps reserveFrom
    rw [get_bind_apply]
    simp only [Process.run, Statement.apply]
    by_cases taken : s.hasTenant (candidateDemoSlug base suffix) = true
    · rw [if_pos taken, if_pos taken]
      exact next s
    · rw [if_neg taken, if_neg taken, modifyGet_bind_apply]
      simp only [Process.run, Statement.apply]
      generalize s.reserveSlug { row with tenantSlug := candidateDemoSlug base suffix } = answer
      by_cases reserved : answer.1 = true
      · rw [if_pos reserved, if_pos reserved]
        rfl
      · rw [if_neg reserved, if_neg reserved, get_bind_apply]
        simp only [Process.run, Statement.apply]
        cases (answer.2.getReservedSlug row.sessionId).filter (· ≠ "") with
        | none => exact next answer.2
        | some existing =>
          dsimp only
          by_cases like : slugMatchesDemoBase existing base = true
          · rw [if_pos like, if_pos like]
            rfl
          · rw [if_neg like, if_neg like, modify_bind_apply]
            exact next _

/-- Alone, the statements are the call. -/
theorem reserveSteps_run (cfg : Config) (row : Session) : (reserveSteps cfg row).run Statement.apply = reserve cfg row := by
  funext s
  unfold reserveSteps reserve
  rw [get_bind_apply]
  simp only [Process.run, Statement.apply]
  cases (s.getReservedSlug row.sessionId).filter (· ≠ "") with
  | none => exact congrFun (reserveFromSteps_run ..) s
  | some existing =>
    dsimp only
    by_cases like : slugMatchesDemoBase existing (demoSlugBase cfg.nfkd row.requestedName) = true
    · rw [if_pos like, if_pos like]
      rfl
    · rw [if_neg like, if_neg like, modify_bind_apply]
      exact congrFun (reserveFromSteps_run ..) _

/-! ### Each session minds its own rows -/

/-- The slugs of a session. -/
def slugsOf (sessionId : String) (s : Desk) : List String := (s.sessions.filter (·.sessionId = sessionId)).map (·.tenantSlug)

def Statement.OfSession (sessionId : String) : Statement → Prop
  | .look => True
  | .deleteSession id => id = sessionId
  | .reserveSlug row => row.sessionId = sessionId

section
variable {s : Desk} {row : Session} {sessionId other slug : String} {cfg : Config} {rows : List Session} {op : Statement}

theorem mem_slugsOf : slug ∈ slugsOf sessionId s ↔ ∃ r ∈ s.sessions, r.sessionId = sessionId ∧ r.tenantSlug = slug := by
  simp only [slugsOf, List.mem_map, List.mem_filter, decide_eq_true_eq, and_assoc]

theorem slugsOf_apply (ofSession : op.OfSession other) (apart : sessionId ≠ other) :
    slugsOf sessionId (op.apply s) = slugsOf sessionId s := by
  unfold slugsOf
  congr 1
  cases op with
  | look => rfl
  | deleteSession id =>
    cases ofSession
    simp only [Statement.apply, Desk.deleteSession, List.filter_filter]
    refine List.filter_congr fun r _ => ?_
    by_cases own : r.sessionId = sessionId
    · simp [own, apart]
    · simp [own]
  | reserveSlug row =>
    cases ofSession
    simp only [Statement.apply, Desk.reserveSlug]
    split
    · rfl
    · rw [List.filter_append, List.filter_cons_of_neg (by simpa using apart.symm), List.filter_nil, List.append_nil]

theorem UniqueRows.apply (h : UniqueRows s) (op : Statement) : UniqueRows (op.apply s) := by
  cases op with
  | look => exact h
  | deleteSession id => exact h.filter _
  | reserveSlug row =>
    simp only [Statement.apply, Desk.reserveSlug]
    split
    · exact h
    · next none_like =>
      refine h.insert fun r mem => not_or.mp fun like => none_like (List.any_eq_true.mpr ⟨r, mem, ?_⟩)
      simpa using like

/-- A call that minds the rows of its session and returns a slug of it. -/
abbrev MindsSession (sessionId : String) (m : Process Statement Desk SignupFailure String) (v : List String) : Prop :=
  Process.Minds Statement.apply (slugsOf sessionId) (Statement.OfSession sessionId) (fun slug slugs => slug ∈ slugs) m v

theorem existing_mem {existing : String} (found : (s.getReservedSlug sessionId).filter (· ≠ "") = some existing) :
    existing ∈ slugsOf sessionId s :=
  mem_slugsOf.mpr (getReservedSlug_row (Option.filter_eq_some_iff.mp found).1)

theorem reserved_mem (reserved : (s.reserveSlug row).1 = true) : row.tenantSlug ∈ slugsOf row.sessionId (s.reserveSlug row).2 := by
  unfold Desk.reserveSlug at reserved ⊢
  split at reserved
  · cases reserved
  · next none_like =>
    rw [if_neg none_like]
    exact mem_slugsOf.mpr ⟨row, List.mem_append_right _ (List.mem_singleton_self _), rfl, rfl⟩

theorem reserveFromSteps_minds (base : String) (row : Session) (attempts suffix : Nat) (v : List String) :
    MindsSession row.sessionId (reserveFromSteps base row attempts suffix) v := by
  induction attempts generalizing suffix v with
  | zero => trivial
  | succ attempts ih =>
    unfold reserveFromSteps
    refine fun s _ => ⟨trivial, Process.Minds.ite (fun _ => ih _ _) fun _ t _ => ⟨rfl, Process.Minds.ite (fun reserved => ?_) ?_⟩⟩
    · exact reserved_mem reserved
    · refine fun _ u _ => ⟨trivial, ?_⟩
      cases found : (u.getReservedSlug row.sessionId).filter (· ≠ "") with
      | none =>
        simp only [found]
        exact ih _ _
      | some existing =>
        simp only [found]
        cases slugMatchesDemoBase existing base with
        | true => exact existing_mem found
        | false => exact fun _ _ => ⟨rfl, ih _ _⟩

theorem reserveSteps_minds (cfg : Config) (row : Session) (v : List String) :
    MindsSession row.sessionId (reserveSteps cfg row) v := by
  unfold reserveSteps
  refine fun s _ => ⟨trivial, ?_⟩
  cases found : (s.getReservedSlug row.sessionId).filter (· ≠ "") with
  | none =>
    simp only [found]
    exact reserveFromSteps_minds ..
  | some existing =>
    simp only [found]
    cases slugMatchesDemoBase existing (demoSlugBase cfg.nfkd row.requestedName) with
    | true => exact existing_mem found
    | false => exact fun _ _ => ⟨rfl, reserveFromSteps_minds ..⟩

/-! ### Many sessions -/

/-- Calls for the rows, before their first statement. -/
def reserving (cfg : Config) (rows : List Session) (s : Desk) : Process.Pool Statement Desk SignupFailure String :=
  { store := s, calls := rows.map (reserveSteps cfg) }

def afterTurns (cfg : Config) (rows : List Session) (s : Desk) (turns : List Nat) : Process.Pool Statement Desk SignupFailure String :=
  Runs.final (Process.Pool.step Statement.apply) (reserving cfg rows s) turns

/-- The call for the row `i` has returned the slug. -/
def Returned (p : Process.Pool Statement Desk SignupFailure String) (i : Nat) (slug : String) : Prop :=
  p.calls[i]? = some (.ret slug)

theorem uniqueRows_afterTurns (h : UniqueRows s) (turns : List Nat) : UniqueRows (afterTurns cfg rows s turns).store := by
  refine Runs.final_kept (fun p : Process.Pool Statement Desk SignupFailure String => UniqueRows p.store) h fun p i unique => ?_
  rcases p.step_cases Statement.apply i with same | ⟨op, next, -, -, same⟩
  · rw [same]
    exact unique
  · rw [same]
    exact unique.apply op

/-- The slugs of the session of call `i`. -/
def viewOf (rows : List Session) (i : Nat) (s : Desk) : List String :=
  match rows[i]? with
  | none => []
  | some row => slugsOf row.sessionId s

def StatementOf (rows : List Session) (i : Nat) (op : Statement) : Prop := ∃ row, rows[i]? = some row ∧ op.OfSession row.sessionId

theorem index_eq (distinct : (rows.map (·.sessionId)).Nodup) {i j : Nat} {row' : Session} (at_i : rows[i]? = some row)
    (at_j : rows[j]? = some row') (same : row.sessionId = row'.sessionId) : i = j := by
  obtain ⟨lt, rfl⟩ := List.getElem?_eq_some_iff.mp at_i
  obtain ⟨lt', rfl⟩ := List.getElem?_eq_some_iff.mp at_j
  have inside : i < (rows.map (·.sessionId)).length := by simpa using lt
  have inside' : j < (rows.map (·.sessionId)).length := by simpa using lt'
  have ids : (rows.map (·.sessionId))[i] = (rows.map (·.sessionId))[j] := by simpa using same
  exact distinct.getElem_inj_iff.mp ids

theorem viewOf_apply (distinct : (rows.map (·.sessionId)).Nodup) {i j : Nat} (apart : i ≠ j) (ofSession : StatementOf rows j op) :
    viewOf rows i (op.apply s) = viewOf rows i s := by
  obtain ⟨row, at_j, ofSession⟩ := ofSession
  unfold viewOf
  cases at_i : rows[i]? with
  | none => rfl
  | some own =>
    exact slugsOf_apply ofSession fun same => apart (index_eq distinct at_i at_j same)

theorem afterTurns_minding (distinct : (rows.map (·.sessionId)).Nodup) (turns : List Nat) :
    Process.Minding Statement.apply (viewOf rows) (StatementOf rows) (fun _ slug slugs => slug ∈ slugs)
      (afterTurns cfg rows s turns) := by
  have start : Process.Minding Statement.apply (viewOf rows) (StatementOf rows) (fun _ slug slugs => slug ∈ slugs)
      (reserving cfg rows s) := by
    intro i m at_i
    rw [reserving, List.getElem?_map] at at_i
    obtain ⟨row, at_row, rfl⟩ := Option.map_eq_some_iff.mp at_i
    have own : ∀ slugs, Process.Minds Statement.apply (viewOf rows i) (StatementOf rows i) (fun slug slugs => slug ∈ slugs)
        (reserveSteps cfg row) slugs := by
      have view : viewOf rows i = slugsOf row.sessionId := by
        funext s
        simp only [viewOf, at_row]
      have ofSession : StatementOf rows i = Statement.OfSession row.sessionId := by
        funext op
        simp only [StatementOf, at_row, Option.some.injEq, exists_eq_left']
      rw [view, ofSession]
      exact reserveSteps_minds cfg row
    exact own _
  exact start.final (fun _ _ _ _ apart own => viewOf_apply distinct apart own) turns

/-- Where the call for a row has returned a slug, the session of the row has it, and no other. -/
theorem returned_reservedBy (h : UniqueRows s) (distinct : (rows.map (·.sessionId)).Nodup) (turns : List Nat) {i : Nat}
    (at_row : rows[i]? = some row) (returned : Returned (afterTurns cfg rows s turns) i slug) :
    ReservedBy (afterTurns cfg rows s turns).store row.sessionId slug := by
  have mem : slug ∈ viewOf rows i (afterTurns cfg rows s turns).store := afterTurns_minding distinct turns i _ returned
  simp only [viewOf, at_row] at mem
  exact (uniqueRows_afterTurns h turns).reservedBy (mem_slugsOf.mp mem)

/-! ### What reservations promise -/

/-- For one call alone: whose the slug is, and that it is fresh unless the session had it. For calls of different sessions that
take turns: a slug that is returned stays the session's own, and no two calls return the same. -/
structure ReservesWell (cfg : Config) (s : Desk) : Prop where
  alone : ∀ row slug t, (reserve cfg row).run s = .ok slug t → ReservedBy t row.sessionId slug ∧
    ((t = s ∧ s.getReservedSlug row.sessionId = some slug ∧
      slugMatchesDemoBase slug (demoSlugBase cfg.nfkd row.requestedName) = true) ∨ Fresh t slug)
  inTurns : ∀ (rows : List Session) (turns : List Nat) i row slug, (rows.map (·.sessionId)).Nodup → rows[i]? = some row →
    Returned (afterTurns cfg rows s turns) i slug → ReservedBy (afterTurns cfg rows s turns).store row.sessionId slug
  apart : ∀ (rows : List Session) (turns : List Nat) i j slug, (rows.map (·.sessionId)).Nodup →
    Returned (afterTurns cfg rows s turns) i slug → Returned (afterTurns cfg rows s turns) j slug → i = j

theorem length_afterTurns (turns : List Nat) : (afterTurns cfg rows s turns).calls.length = rows.length := by
  refine Runs.final_kept (fun p : Process.Pool Statement Desk SignupFailure String => p.calls.length = rows.length)
    (List.length_map ..) fun p i same => ?_
  rcases p.step_cases Statement.apply i with stays | ⟨op, next, -, -, moves⟩
  · rw [stays, same]
  · rw [moves, List.length_set, same]

/-- A call that has returned is one for a row. -/
theorem returned_row {turns : List Nat} {i : Nat} (returned : Returned (afterTurns cfg rows s turns) i slug) :
    ∃ row, rows[i]? = some row := by
  obtain ⟨lt, -⟩ := List.getElem?_eq_some_iff.mp returned
  rw [length_afterTurns] at lt
  exact ⟨rows[i], List.getElem?_eq_getElem lt⟩

theorem reserves_well (h : UniqueRows s) : ReservesWell cfg s where
  alone _ _ _ run := reserve_answers h run
  inTurns _ turns _ _ _ distinct at_row returned := returned_reservedBy h distinct turns at_row returned
  apart rows turns i j slug distinct returned returned' := by
    obtain ⟨row, at_i⟩ := returned_row returned
    obtain ⟨row', at_j⟩ := returned_row returned'
    obtain ⟨r, mem, own, same⟩ := (returned_reservedBy h distinct turns at_i returned).own
    refine index_eq distinct at_i at_j ?_
    rw [← own]
    exact (returned_reservedBy h distinct turns at_j returned').only r mem same

end

/-- Every slug that is returned is a legal label that no tenant has. -/
def ReservesLegal (cfg : Config) (s : Desk) : Prop :=
  ∀ row slug t, (reserve cfg row).run s = .ok slug t →
    slugIsValid slug = true ∧ DnsLabel slug ∧ t.hasTenant slug = false ∧ ReservedBy t row.sessionId slug

namespace Served

def config : Config := { nfkd := id, verificationTtl := 86400 }

def asked : Session := { sessionId := "s1", requestedName := "Pek", email := "anna@example.com", tenantSlug := "", createdAt := 0 }

/-- The session has its tenant already. -/
def desk : Desk := { sessions := [{ asked with tenantSlug := "pek", completedAt := some 5 }], otherTenants := ["pek"] }

theorem desk_unique : UniqueRows desk where
  ids := List.nodup_singleton _
  slugs := List.nodup_singleton _

end Served

open Served in
/-- A session keeps its slug when its tenant is there. -/
theorem not_reserves_legal : ¬ ∀ (cfg : Config) (s : Desk), UniqueRows s → ReservesLegal cfg s := by
  intro claim
  have kept : (match (reserve config asked).run desk with
      | .ok slug t => t.hasTenant slug
      | .error _ _ => false) = true := by
    decide +kernel
  cases run : (reserve config asked).run desk with
  | ok slug t =>
    simp only [run] at kept
    have free := (claim config desk desk_unique asked slug t run).2.2.1
    rw [free] at kept
    cases kept
  | error e t =>
    simp only [run] at kept
    cases kept

open Served in
theorem reserves_well_served : ReservesWell config desk := reserves_well desk_unique

end NyzRating.Tenancy.Business
