import Mathlib.Data.Prod.Lex
import NyzRating.Admin.AuditFilter
import NyzRating.Lib.Base64
import NyzRating.Lib.Json
import NyzRating.Lib.Keyset

/-!
# The pages of the audit trail

The audit rows of a tenant are read newest first, page after page. The cursor to the next page is the time and the number
of the last row, as JSON in Base64; rows of the same time are told apart by their numbers.
-/

namespace NyzRating.Admin.AuditTrail

open AuditFilter Calendar Decimal Iso Text

/-! ### The cursor -/

def encodeAuditCursor (createdAt : Timestamp) (rowId : Int) : List Char :=
  let payload := Json.dumps [("created_at".toList, .text (isoformatUtc createdAt)), ("id".toList, .number rowId)]
  Base64.urlsafeB64encode (String.ofList payload).toUTF8.data.toList

/-- `str(value)` -/
def str : Json.Value → List Char
  | .text s => s
  | .number n => writeInt n

/-- `int(value)` -/
def int? : Json.Value → Option Int
  | .text s => ((readInt (strip s)).filter (·.2 = [])).map (·.1)
  | .number n => some n

/-- The `datetime`, if its year has one. -/
def timestamp? (micros : Int) : Option Timestamp :=
  if h : 1 ≤ (civil (dateOf micros)).year ∧ (civil (dateOf micros)).year ≤ 9999 then some ⟨micros, h.1, h.2⟩ else none

/-- A cursor that cannot be read is none. -/
def decodeAuditCursor (cursor : Option (List Char)) : Option (Timestamp × Int) :=
  match cursor with
  | none | some [] => none
  | some cursor =>
    if cursor.any fun c => 128 ≤ c.toNat then none
    else do
      let bytes ← Base64.urlsafeB64decode cursor
      let text ← String.fromUTF8? ⟨bytes.toArray⟩
      let payload ← Json.loads text.toList
      let (written, offset) ← fromisoformat (str (← payload.get? "created_at".toList))
      let createdAt ← timestamp? (written - offset.getD 0)
      return (createdAt, ← int? (← payload.get? "id".toList))

/-! ### The rows -/

/-- What a request asks for: the range of times, as the dates of the request are read, the actions and the address. -/
structure AuditQuery where
  dateFrom : Option Int
  dateTo : Option Int
  actions : List (List Char)
  email : Option (List Char)

/-- The rows of an audit log. The number is their primary key. -/
structure AuditTable where
  rows : List AuditRow
  ids : (rows.map (·.id)).Nodup

/-- The schema of a tenant, which may be without an audit log. -/
structure TenantSchema where
  auditLog : Option AuditTable

structure AuditPage where
  items : List AuditRow
  limit : Nat
  nextCursor : Option (List Char)

section
variable (F : CaseMap) (sha256 : List Char → HexDigest) (isalnum : Char → Bool)

def normalizeActionFilter (actions : List (List Char)) : List (List Char) :=
  (actions.flatMap fun action => (action.splitOn ',').map fun part => F.lower (strip part)).filter fun value =>
    value ≠ [] ∧ value.all fun c => isalnum c || c = '_'

def addActionFilter (clauses : List (AuditRow → Bool)) (actions : List (List Char)) : List (AuditRow → Bool) :=
  let normalized := normalizeActionFilter F isalnum actions
  if normalized = [] then clauses else clauses ++ [fun row => decide (row.action ∈ normalized)]

def auditWhere (dateFrom dateTo : Option Int) (cursor : Option (List Char)) : List (AuditRow → Bool) :=
  (dateFrom.toList.map fun (date : Int) (row : AuditRow) => decide (date ≤ row.createdAt.micros)) ++
  (dateTo.toList.map fun (date : Int) (row : AuditRow) => decide (row.createdAt.micros < date)) ++
  (decodeAuditCursor cursor).toList.map fun (createdAt, id) (row : AuditRow) =>
    decide (row.createdAt < createdAt ∨ row.createdAt = createdAt ∧ row.id < id)

def clauses (query : AuditQuery) (cursor : Option (List Char)) : List (AuditRow → Bool) :=
  addEmailFilter F sha256
    (addActionFilter F isalnum (auditWhere query.dateFrom query.dateTo cursor) query.actions) query.email

/-- `ORDER BY a.created_at DESC, a.id DESC` -/
def key (row : AuditRow) : Timestamp ×ₗ Int := toLex (row.createdAt, row.id)

/-- The rows that all clauses select, in order. -/
def select (table : AuditTable) (query : AuditQuery) (cursor : Option (List Char)) : List AuditRow :=
  Keyset.descending key (table.rows.filter fun row => (clauses F sha256 isalnum query cursor).all (· row))

def listTenantAuditTrail (tenant : Option TenantSchema) (query : AuditQuery) (limit : Int) (cursor : Option (List Char)) :
    Option AuditPage :=
  let safeLimit := (min (max (if limit = 0 then 50 else limit) 1) 200).toNat
  match tenant with
  | none => none
  | some { auditLog := none } => some { items := [], limit := safeLimit, nextCursor := none }
  | some { auditLog := some table } =>
    let rows := (select F sha256 isalnum table query cursor).take (safeLimit + 1)
    let pageRows := rows.take safeLimit
    let nextCursor := if safeLimit < rows.length ∧ pageRows ≠ [] then
        pageRows.getLast?.map fun last => encodeAuditCursor last.createdAt last.id
      else none
    some { items := pageRows, limit := safeLimit, nextCursor }

def exportTenantAuditTrail (tenant : Option TenantSchema) (query : AuditQuery) (maxRows : Int) : Option (List AuditRow) :=
  let safeLimit := (min (max (if maxRows = 0 then 50000 else maxRows) 1) 50000).toNat
  match tenant with
  | none => none
  | some { auditLog := none } => some []
  | some { auditLog := some table } => some ((select F sha256 isalnum table query none).take safeLimit)

/-- The rows of all pages, where the log is `tables k` when the `k`-th page is asked for. -/
def readPages (tables : Nat → AuditTable) (query : AuditQuery) (limit : Int) (fuel : Nat) : Option (List AuditRow) :=
  Keyset.follow (fun k cursor =>
    match listTenantAuditTrail F sha256 isalnum (some { auditLog := some (tables k) }) query limit cursor with
    | some page => { items := page.items, next := page.nextCursor }
    | none => { items := [], next := none }) fuel 0 none

end

/-! ### The cursor is read as it was written -/

theorem fromUTF8?_toUTF8 (s : String) : String.fromUTF8? s.toUTF8 = some s := dif_pos s.isValidUTF8

theorem ascii_encode (bytes : List UInt8) : (Base64.urlsafeB64encode bytes).any (fun c => 128 ≤ c.toNat) = false := by
  have digits : ∀ n, (Base64.digit n).toNat < 128 := by
    intro n
    have inAlphabet : ∀ c ∈ Base64.alphabet, c.toNat < 128 := Text.forall_of_all (by decide +kernel)
    unfold Base64.digit
    rw [List.getD_eq_getElem?_getD]
    cases found : Base64.alphabet[n]? with
    | none => decide
    | some c => exact inAlphabet c (List.mem_of_getElem? found)
  have pad : ('=').toNat < 128 := by decide
  rw [List.any_eq_false]
  intro c mem
  rw [decide_eq_true_iff, not_le]
  induction bytes using Base64.urlsafeB64encode.induct with
  | case1 => exact absurd mem List.not_mem_nil
  | case2 a =>
    simp only [Base64.urlsafeB64encode, List.mem_cons, List.not_mem_nil, or_false] at mem
    rcases mem with rfl | rfl | rfl | rfl
    · exact digits _
    · exact digits _
    · exact pad
    · exact pad
  | case3 a b =>
    simp only [Base64.urlsafeB64encode, List.mem_cons, List.not_mem_nil, or_false] at mem
    rcases mem with rfl | rfl | rfl | rfl
    · exact digits _
    · exact digits _
    · exact digits _
    · exact pad
  | case4 a b c' rest ih =>
    simp only [Base64.urlsafeB64encode, List.mem_cons] at mem
    rcases mem with rfl | rfl | rfl | rfl | mem
    · exact digits _
    · exact digits _
    · exact digits _
    · exact digits _
    · exact ih mem

theorem plain_pad (k n : Nat) : ∀ c ∈ pad k n, Json.Plain c := by
  have digits : ∀ d < 10, Json.Plain (Nat.digitChar d) := by decide
  induction k generalizing n with
  | zero => exact fun c mem => absurd mem List.not_mem_nil
  | succ k ih =>
    intro c mem
    rcases List.mem_append.mp mem with mem | mem
    · exact ih _ c mem
    · rw [List.mem_singleton.mp mem]
      exact digits _ (Nat.mod_lt n (by decide))

theorem plain_isoformatUtc (t : Timestamp) : ∀ c ∈ isoformatUtc t, Json.Plain c := by
  have fraction : ∀ n : Nat, ∀ c ∈ (if n % 1000000 = 0 then [] else '.' :: pad 6 (n % 1000000)), Json.Plain c := by
    intro n
    split
    · exact fun c mem => absurd mem List.not_mem_nil
    · exact List.forall_mem_cons.mpr ⟨by decide, plain_pad _ _⟩
  have zone : ∀ c ∈ "+00:00".toList, Json.Plain c := Text.forall_of_all (by decide)
  simp only [isoformatUtc, isoformat, List.forall_mem_append, List.forall_mem_cons]
  have dash : Json.Plain '-' := by decide
  have colon : Json.Plain ':' := by decide
  exact ⟨⟨plain_pad _ _, dash, plain_pad _ _, dash, plain_pad _ _, by decide, plain_pad _ _, colon, plain_pad _ _, colon,
    plain_pad _ _, fraction _⟩, zone⟩

theorem decode_encode (t : Timestamp) (id : Int) : decodeAuditCursor (some (encodeAuditCursor t id)) = some (t, id) := by
  have names : (∀ c ∈ "created_at".toList, Json.Plain c) ∧ ∀ c ∈ "id".toList, Json.Plain c :=
    ⟨Text.forall_of_all (by decide), Text.forall_of_all (by decide)⟩
  have loaded := Json.loads_dumps [("created_at".toList, .text (isoformatUtc t)), ("id".toList, .number id)]
    fun m mem => by
      rcases List.mem_pair.mp mem with rfl | rfl
      · exact ⟨names.1, plain_isoformatUtc t⟩
      · exact ⟨names.2, trivial⟩
  have year : timestamp? (t.micros - 0) = some t := by
    rw [Int.sub_zero]
    exact dif_pos ⟨t.first, t.last⟩
  dsimp only [encodeAuditCursor]
  generalize Json.dumps _ = payload at loaded ⊢
  have bytes := Base64.decode_encode (String.ofList payload).toUTF8.data.toList
  have ascii := ascii_encode (String.ofList payload).toUTF8.data.toList
  have text : String.fromUTF8? ⟨(String.ofList payload).toUTF8.data.toList.toArray⟩ = some (String.ofList payload) := by
    rw [Array.toArray_toList]
    exact fromUTF8?_toUTF8 _
  generalize (String.ofList payload).toUTF8.data.toList = data at bytes ascii text ⊢
  generalize Base64.urlsafeB64encode data = cursor at bytes ascii ⊢
  cases cursor with
  | nil =>
    cases bytes
    have empty : payload = [] := by
      have same : String.ofList payload = "" := (Option.some.inj text).symm
      rw [← String.toList_ofList (l := payload), same]
      rfl
    rw [empty] at loaded
    cases loaded
  | cons c cursor =>
    simp only [decodeAuditCursor, ascii, Bool.false_eq_true, if_false, bytes, text, Option.bind_eq_bind, Option.bind_some,
      String.toList_ofList, loaded]
    have created : Json.Members.get? [("created_at".toList, .text (isoformatUtc t)), ("id".toList, .number id)]
        "created_at".toList = some (.text (isoformatUtc t)) := rfl
    have number : Json.Members.get? [("created_at".toList, .text (isoformatUtc t)), ("id".toList, .number id)]
        "id".toList = some (.number id) := rfl
    simp only [created, number, str, int?, fromisoformat_isoformatUtc, Option.bind_some, Option.getD_some, year]
    rfl

/-! ### The pages -/

variable (F : CaseMap) (sha256 : List Char → HexDigest) (isalnum : Char → Bool)

/-- The row passes the filters of the request. -/
def Matches (query : AuditQuery) (row : AuditRow) : Bool := (clauses F sha256 isalnum query none).all (· row)

theorem clauses_all (query : AuditQuery) (cursor : Option (List Char)) (row : AuditRow) :
    (clauses F sha256 isalnum query cursor).all (· row) =
      (Matches F sha256 isalnum query row &&
        ((decodeAuditCursor cursor).map toLex).all fun after => decide (key row < after)) := by
  have added : ∀ start : List (AuditRow → Bool), (addEmailFilter F sha256
      (addActionFilter F isalnum start query.actions) query.email).all (· row) =
      (start.all (· row) && (addEmailFilter F sha256 (addActionFilter F isalnum [] query.actions) query.email).all (· row)) := by
    intro start
    unfold addEmailFilter addActionFilter
    dsimp only
    split <;> split <;> simp [List.all_append]
  have below : ((decodeAuditCursor cursor).toList.map fun (createdAt, id) (row : AuditRow) =>
      decide (row.createdAt < createdAt ∨ row.createdAt = createdAt ∧ row.id < id)).all (· row) =
      ((decodeAuditCursor cursor).map toLex).all fun after => decide (key row < after) := by
    cases decodeAuditCursor cursor with
    | none => rfl
    | some after =>
      obtain ⟨createdAt, id⟩ := after
      simp [key, Prod.Lex.toLex_lt_toLex]
  unfold Matches clauses
  rw [added, added (auditWhere query.dateFrom query.dateTo none)]
  have split : ∀ cursor, auditWhere query.dateFrom query.dateTo cursor = auditWhere query.dateFrom query.dateTo none ++
      (decodeAuditCursor cursor).toList.map fun (createdAt, id) (row : AuditRow) =>
        decide (row.createdAt < createdAt ∨ row.createdAt = createdAt ∧ row.id < id) := by
    intro cursor
    have first : decodeAuditCursor none = none := rfl
    rw [auditWhere, auditWhere, first, Option.toList_none, List.map_nil, List.append_nil]
  rw [split cursor, List.all_append, below, Bool.and_assoc, Bool.and_assoc]
  exact congrArg _ (Bool.and_comm _ _)

theorem keys_nodup (table : AuditTable) : (table.rows.map key).Nodup := by
  have ids : (table.rows.map key).map (fun k => (ofLex k).2) = table.rows.map (·.id) := by
    rw [List.map_map]
    rfl
  exact List.Nodup.of_map _ (ids ▸ table.ids)

theorem select_eq (table : AuditTable) (query : AuditQuery) (cursor : Option (List Char)) (limit : Nat) :
    Keyset.Page.ofRows key limit ((select F sha256 isalnum table query cursor).take (limit + 1)) =
      Keyset.page key (Matches F sha256 isalnum query) limit ((decodeAuditCursor cursor).map toLex) table.rows := by
  unfold select Keyset.page
  simp only [clauses_all]

/-- The limit that a request is held to. -/
def pageLimit (limit : Int) : Nat := (min (max (if limit = 0 then 50 else limit) 1) 200).toNat

theorem listTenantAuditTrail_eq (table : AuditTable) (query : AuditQuery) (limit : Int) (cursor : Option (List Char)) :
    listTenantAuditTrail F sha256 isalnum (some { auditLog := some table }) query limit cursor =
      let page := Keyset.page key (Matches F sha256 isalnum query) (pageLimit limit) ((decodeAuditCursor cursor).map toLex)
        table.rows
      some { items := page.items, limit := pageLimit limit
             nextCursor := page.next.map fun k => encodeAuditCursor (ofLex k).1 (ofLex k).2 } := by
  rw [← select_eq]
  unfold listTenantAuditTrail Keyset.Page.ofRows
  dsimp only
  rw [← pageLimit]
  congr 2
  split
  · rw [Option.map_map]
    rfl
  · rfl

/-- Read page by page, the log gives each row that passes the filters once, newest first, as the export does; rows that
come in meanwhile are newer and are not seen. -/
theorem audit_pages (tables : Nat → AuditTable) (grown : ∀ k, Keyset.Grown key (tables k).rows (tables (k + 1)).rows)
    (query : AuditQuery) (limit : Int) :
    ∃ rows, (∃ fuel, readPages F sha256 isalnum tables query limit fuel = some rows) ∧
      rows.Perm ((tables 0).rows.filter (Matches F sha256 isalnum query)) ∧ Keyset.Descends key rows ∧
      exportTenantAuditTrail F sha256 isalnum (some { auditLog := some (tables 0) }) query 50000 =
        some (rows.take 50000) := by
  have positive : 0 < pageLimit limit := by
    unfold pageLimit
    omega
  have distinct := keys_nodup (tables 0)
  have matched : (((tables 0).rows.filter (Matches F sha256 isalnum query)).map key).Nodup :=
    distinct.sublist (List.filter_sublist.map key)
  refine ⟨Keyset.descending key ((tables 0).rows.filter (Matches F sha256 isalnum query)), ?_, Keyset.descending_perm _,
    Keyset.descending_descends matched, ?_⟩
  · refine Keyset.follow_pages (fun k => (tables k).rows) (Matches F sha256 isalnum query)
      (fun k => encodeAuditCursor (ofLex k).1 (ofLex k).2) positive distinct grown ?_ fun k after => ?_
    · rw [listTenantAuditTrail_eq]
      rfl
    · rw [listTenantAuditTrail_eq, decode_encode]
      rfl
  · unfold exportTenantAuditTrail select
    rfl

/-- A row of a number and a time. -/
def rowAt (id micros : Int) (first : 1 ≤ (civil (dateOf micros)).year) (last : (civil (dateOf micros)).year ≤ 9999) :
    AuditRow :=
  { id, createdAt := ⟨micros, first, last⟩, action := "login_success".toList, details := none, actorEmail := none
    targetUserEmail := none }

/-- Two rows of the same microsecond; a third comes in once the first page is read. -/
def tiedTables (k : Nat) : AuditTable :=
  if k = 0 then { rows := [rowAt 1 7 (by decide) (by decide), rowAt 2 7 (by decide) (by decide)], ids := by decide }
  else
    { rows := [rowAt 1 7 (by decide) (by decide), rowAt 2 7 (by decide) (by decide), rowAt 3 8 (by decide) (by decide)]
      ids := by decide }

/-- The tied rows are read one by one, and the third row is not seen. -/
theorem audit_pages_tied : ∃ rows, (∃ fuel, readPages CaseMap.standard
      (fun _ => { chars := List.replicate 64 '0', length := rfl, hex := Text.forall_of_all (by decide) }) Char.isAlphanum tiedTables
      { dateFrom := none, dateTo := none, actions := [], email := none } 1 fuel = some rows) ∧
    rows.Perm [rowAt 1 7 (by decide) (by decide), rowAt 2 7 (by decide) (by decide)] ∧ Keyset.Descends key rows := by
  obtain ⟨rows, read, perm, descends, -⟩ := audit_pages CaseMap.standard
    (fun _ => { chars := List.replicate 64 '0', length := rfl, hex := Text.forall_of_all (by decide) }) Char.isAlphanum tiedTables
    (fun k => by
      cases k with
      | zero =>
        refine ⟨[rowAt 3 8 (by decide) (by decide)], rfl, fun x isNew y old => ?_⟩
        rw [List.mem_singleton.mp isNew]
        rcases List.mem_pair.mp old with rfl | rfl
        · decide
        · decide
      | succ k => exact .refl _)
    { dateFrom := none, dateTo := none, actions := [], email := none } 1
  exact ⟨rows, read, perm, descends⟩

end NyzRating.Admin.AuditTrail
