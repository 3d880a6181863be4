import MagicLaw.Lib.Bytes
import MagicLaw.Lib.KeyedTable
import MagicLaw.Lib.Mac

/-!
# The tokens of the API clients

The `ApiClientRegistry` of `adapters/api_client_registry.rs`: it issues bearer
tokens, revokes them, and authorizes requests by them.  The table `api_clients`
keeps the hash of a token and never the token itself.

* `issueToken_cases` is all that an issue can do.
* `live_iff_find?` is the invariant of the runs: the rows that are not revoked
  are those of the tokens that were issued and not revoked since.
* `authorizeBearer_iff` says which requests are authorized, which are
  forbidden and which are unauthorized, after every run.

That no two of the tokens that were hashed have the same digest is a
hypothesis, on the tokens of the run and of the request alone.
-/

namespace MagicLaw.Api

open Lib
open Lib.Text (trim stripPrefix?)

/-! ## Records and rows -/

structure ApiClientRecord where
  id : String
  projectId : String
  clientName : String
  tokenHash : String
  scopes : List String
  createdAt : Int64
  expiresAt : Int64
  revokedAt : Option Int64
  rotatedFrom : Option String
  deriving DecidableEq

/-- A row of `api_clients`, where the scopes are a JSON text. -/
structure ApiClientRow where
  id : String
  projectId : String
  clientName : String
  tokenHash : String
  scopes : String
  createdAt : Int64
  expiresAt : Int64
  revokedAt : Option Int64
  rotatedFrom : Option String

structure IssuedApiClient where
  rawToken : String
  record : ApiClientRecord
  deriving DecidableEq

inductive AuthFailure where
  | unauthorized | forbidden
  deriving DecidableEq, Repr

/-- `serde_json` on a `Vec<String>`, with the texts of its errors. -/
structure ScopesCodec where
  toString : List String → Except String String
  fromStr : String → Except String (List String)

def ScopesCodec.scopesToJson (codec : ScopesCodec) (scopes : List String) :
    Except String String :=
  (codec.toString scopes).mapError fun e => s!"failed to serialize scopes: {e}"

def ScopesCodec.parseScopes (codec : ScopesCodec) (scopesJson : String) :
    Except String (List String) :=
  (codec.fromStr scopesJson).mapError fun e => s!"invalid api client scopes JSON: {e}"

/-- The scopes are written to a text that is read back as they were. -/
def ScopesCodec.RoundTrips (codec : ScopesCodec) (scopes : List String) : Prop :=
  ∃ text, codec.toString scopes = .ok text ∧ codec.fromStr text = .ok scopes

def ApiClientRecord.toRow (record : ApiClientRecord) (scopesJson : String) : ApiClientRow where
  id := record.id
  projectId := record.projectId
  clientName := record.clientName
  tokenHash := record.tokenHash
  scopes := scopesJson
  createdAt := record.createdAt
  expiresAt := record.expiresAt
  revokedAt := record.revokedAt
  rotatedFrom := record.rotatedFrom

def recordFromRow (codec : ScopesCodec) (row : ApiClientRow) : Except String ApiClientRecord := do
  let scopes ← codec.parseScopes row.scopes
  pure {
    id := row.id
    projectId := row.projectId
    clientName := row.clientName
    tokenHash := row.tokenHash
    scopes := scopes
    createdAt := row.createdAt
    expiresAt := row.expiresAt
    revokedAt := row.revokedAt
    rotatedFrom := row.rotatedFrom }

/-! ## The table -/

/-- The table `api_clients`, where neither a token hash nor an id occurs
twice. -/
structure ApiClients where
  table : KeyedTable ApiClientRow.tokenHash
  ids : (table.rows.map ApiClientRow.id).Nodup

def ApiClients.empty : ApiClients := ⟨KeyedTable.empty, List.nodup_nil⟩

/-- `INSERT INTO api_clients`: the id and the token hash are unique. -/
def ApiClients.insert (db : ApiClients) (row : ApiClientRow) : Except String ApiClients :=
  if hid : row.id ∈ db.table.rows.map ApiClientRow.id then
    .error "UNIQUE constraint failed: api_clients.id"
  else if hhash : db.table.find? row.tokenHash = none then
    .ok {
      table := db.table.append row hhash
      ids := by
        show ((db.table.rows ++ [row]).map ApiClientRow.id).Nodup
        rw [List.map_append, List.map_singleton]
        exact List.Nodup.append db.ids (List.nodup_singleton _) (by simpa using hid) }
  else .error "UNIQUE constraint failed: api_clients.token_hash"

def ApiClientRow.revoke (now : Int64) (row : ApiClientRow) : ApiClientRow :=
  { row with revokedAt := some now }

theorem ApiClientRow.revoke_tokenHash (now : Int64) (row : ApiClientRow) :
    (row.revoke now).tokenHash = row.tokenHash :=
  rfl

/-- `UPDATE api_clients SET revoked_at = ?1 WHERE token_hash = ?2`. -/
def ApiClients.setRevoked (db : ApiClients) (now : Int64) (tokenHash : String) : ApiClients where
  table := db.table.update tokenHash (.revoke now) (ApiClientRow.revoke_tokenHash now)
  ids := by
    have hids : (db.table.update tokenHash (.revoke now)
        (ApiClientRow.revoke_tokenHash now)).rows.map ApiClientRow.id =
          db.table.rows.map ApiClientRow.id := by
      show (db.table.rows.map _).map ApiClientRow.id = _
      rw [List.map_map]
      refine List.map_congr_left fun row _ => ?_
      show (if row.tokenHash = tokenHash then row.revoke now else row).id = row.id
      by_cases h : row.tokenHash = tokenHash
      · rw [if_pos h]
        rfl
      · rw [if_neg h]
    rw [hids]
    exact db.ids

theorem find?_of_insert {db db' : ApiClients} {row : ApiClientRow}
    (h : db.insert row = .ok db') (tokenHash : String) :
    db.table.find? row.tokenHash = none ∧
      db'.table.find? tokenHash =
        if tokenHash = row.tokenHash then some row else db.table.find? tokenHash := by
  unfold ApiClients.insert at h
  by_cases hid : row.id ∈ db.table.rows.map ApiClientRow.id
  · rw [dif_pos hid] at h
    cases h
  · rw [dif_neg hid] at h
    by_cases hhash : db.table.find? row.tokenHash = none
    · rw [dif_pos hhash] at h
      cases h
      exact ⟨hhash, KeyedTable.find?_append _ _ hhash _⟩
    · rw [dif_neg hhash] at h
      cases h

/-! ## The operations -/

/-- The SHA-256 of the token, as text. -/
def hashToken (rawToken : String) : String :=
  Mac.base64NoPad (Sha256.digest (Bytes.asBytes rawToken)).toList

/-- The arguments of `issue_token`. -/
structure IssueRequest where
  projectId : String
  clientName : String
  scopes : List String
  ttlSecs : Int64
  rotatedFrom : Option String

/-- What is new with each token: the random bytes, an id, and what the clock
shows when `created_at` and when `expires_at` is set. -/
structure Fresh where
  bytes : Vector UInt8 32
  uuid : String
  createdNow : Int64
  expiresNow : Int64

def generateToken (fresh : Fresh) : String := Mac.base64NoPad fresh.bytes.toList

def newRecord (request : IssueRequest) (fresh : Fresh) : ApiClientRecord where
  id := fresh.uuid
  projectId := trim request.projectId
  clientName := trim request.clientName
  tokenHash := hashToken (generateToken fresh)
  scopes := request.scopes
  createdAt := fresh.createdNow
  expiresAt := fresh.expiresNow + request.ttlSecs
  revokedAt := none
  rotatedFrom := request.rotatedFrom

/-- The part of `issue_token` that writes the record to the table. -/
def storeRecord (codec : ScopesCodec) (db : ApiClients) (rawToken : String)
    (record : ApiClientRecord) : Except String IssuedApiClient × ApiClients :=
  match codec.scopesToJson record.scopes with
  | .error e => (.error e, db)
  | .ok scopesJson =>
    match db.insert (record.toRow scopesJson) with
    | .error e => (.error e, db)
    | .ok db' => (.ok ⟨rawToken, record⟩, db')

def issueToken (codec : ScopesCodec) (db : ApiClients) (request : IssueRequest) (fresh : Fresh) :
    Except String IssuedApiClient × ApiClients :=
  if trim request.projectId = "" then (.error "project_id cannot be empty", db)
  else if trim request.clientName = "" then (.error "client_name cannot be empty", db)
  else if request.ttlSecs ≤ 0 then (.error "ttl_secs must be positive", db)
  else storeRecord codec db (generateToken fresh) (newRecord request fresh)

/-- Whether a row was updated. -/
def revokeToken (db : ApiClients) (rawToken : String) (now : Int64) : Bool × ApiClients :=
  let tokenHash := hashToken (trim rawToken)
  ((db.table.find? tokenHash).isSome, db.setRevoked now tokenHash)

def loadByTokenHash (codec : ScopesCodec) (db : ApiClients) (tokenHash : String) :
    Except String (Option ApiClientRecord) :=
  match db.table.find? tokenHash with
  | none => .ok none
  | some row => (recordFromRow codec row).map some

def matchesScope (record : ApiClientRecord) (requiredScope : String) : Bool :=
  record.scopes.any fun scope => scope = requiredScope || scope = "*"

/-- What `authorize_bearer` does with the record that it has loaded. -/
def judge (record : ApiClientRecord) (requiredScope : String) (now : Int64) :
    Except AuthFailure ApiClientRecord :=
  if record.revokedAt.isSome || record.expiresAt ≤ now then .error .unauthorized
  else if matchesScope record requiredScope = false then .error .forbidden
  else .ok record

def authorizeBearer (codec : ScopesCodec) (db : ApiClients) (authHeader : Option String)
    (requiredScope : String) (now : Int64) : Except AuthFailure ApiClientRecord :=
  match authHeader with
  | none => .error .unauthorized
  | some header =>
    match stripPrefix? "Bearer " header with
    | none => .error .unauthorized
    | some rawToken =>
      if trim rawToken = "" then .error .unauthorized
      else
        match loadByTokenHash codec db (hashToken (trim rawToken)) with
        | .error _ => .error .unauthorized
        | .ok none => .error .unauthorized
        | .ok (some record) => judge record requiredScope now

/-! ## What an operation does -/

theorem toRow_tokenHash (request : IssueRequest) (fresh : Fresh) (text : String) :
    ((newRecord request fresh).toRow text).tokenHash = hashToken (generateToken fresh) :=
  rfl

theorem recordFromRow_toRow {codec : ScopesCodec} {record : ApiClientRecord} {text : String}
    (h : codec.fromStr text = .ok record.scopes) :
    recordFromRow codec (record.toRow text) = .ok record := by
  unfold recordFromRow ScopesCodec.parseScopes
  show ((codec.fromStr text).mapError _ >>= _) = _
  rw [h]
  rfl

/-- A record that is read from a row has the row's revocation. -/
theorem revokedAt_of_recordFromRow {codec : ScopesCodec} {row : ApiClientRow}
    {record : ApiClientRecord} (h : recordFromRow codec row = .ok record) :
    record.revokedAt = row.revokedAt := by
  unfold recordFromRow at h
  cases hscopes : codec.parseScopes row.scopes with
  | error e =>
    rw [hscopes] at h
    cases h
  | ok scopes =>
    rw [hscopes] at h
    cases h
    rfl

theorem storeRecord_cases (codec : ScopesCodec) (db : ApiClients) (rawToken : String)
    (record : ApiClientRecord) :
    (∃ e, storeRecord codec db rawToken record = (.error e, db)) ∨
      ∃ text db', codec.toString record.scopes = .ok text ∧
        db.insert (record.toRow text) = .ok db' ∧
        storeRecord codec db rawToken record = (.ok ⟨rawToken, record⟩, db') := by
  unfold storeRecord ScopesCodec.scopesToJson
  cases codec.toString record.scopes with
  | error e => exact .inl ⟨_, rfl⟩
  | ok text =>
    simp only [Except.mapError]
    cases hinsert : db.insert (record.toRow text) with
    | error e => exact .inl ⟨e, rfl⟩
    | ok db' => exact .inr ⟨text, db', rfl, hinsert, rfl⟩

/-- An issue fails and leaves the table as it was, or it inserts the row of
its record. -/
theorem issueToken_cases (codec : ScopesCodec) (db : ApiClients) (request : IssueRequest)
    (fresh : Fresh) :
    (∃ e, issueToken codec db request fresh = (.error e, db)) ∨
      ∃ text db', codec.toString request.scopes = .ok text ∧
        db.insert ((newRecord request fresh).toRow text) = .ok db' ∧
        issueToken codec db request fresh =
          (.ok ⟨generateToken fresh, newRecord request fresh⟩, db') := by
  unfold issueToken
  by_cases hproject : trim request.projectId = ""
  · exact .inl ⟨_, if_pos hproject⟩
  by_cases hname : trim request.clientName = ""
  · exact .inl ⟨_, by rw [if_neg hproject, if_pos hname]⟩
  by_cases httl : request.ttlSecs ≤ 0
  · exact .inl ⟨_, by rw [if_neg hproject, if_neg hname, if_pos httl]⟩
  rw [if_neg hproject, if_neg hname, if_neg httl]
  exact storeRecord_cases codec db (generateToken fresh) (newRecord request fresh)

theorem find?_revokeToken (db : ApiClients) (rawToken : String) (now : Int64)
    (tokenHash : String) :
    (revokeToken db rawToken now).2.table.find? tokenHash =
      if tokenHash = hashToken (trim rawToken) then
        (db.table.find? tokenHash).map (ApiClientRow.revoke now)
      else db.table.find? tokenHash := by
  refine (KeyedTable.find?_update db.table _ _ (ApiClientRow.revoke_tokenHash now) _).trans ?_
  by_cases h : tokenHash = hashToken (trim rawToken)
  · rw [if_pos h, if_pos h, h]
  · rw [if_neg h, if_neg h]

/-! ## Runs -/

/-- A call to the registry. -/
inductive Request where
  | issue (request : IssueRequest) (fresh : Fresh)
  | revoke (rawToken : String) (now : Int64)

def ApiClients.step (codec : ScopesCodec) (db : ApiClients) : Request → ApiClients
  | .issue request fresh => (issueToken codec db request fresh).2
  | .revoke rawToken now => (revokeToken db rawToken now).2

/-- The table after a run of calls. -/
def stateAfter (codec : ScopesCodec) (calls : List Request) : ApiClients :=
  calls.foldl (ApiClients.step codec) ApiClients.empty

/-- The call revokes the token. -/
def Request.Revokes (token : String) : Request → Prop
  | .issue _ _ => False
  | .revoke rawToken _ => trim rawToken = token

instance (token : String) : (c : Request) → Decidable (c.Revokes token)
  | .issue _ _ => isFalse id
  | .revoke rawToken _ => inferInstanceAs (Decidable (trim rawToken = token))

/-- A call of the run issued the token with the record, and no later one
revoked it. -/
def Live (codec : ScopesCodec) (calls : List Request) (token : String)
    (record : ApiClientRecord) : Prop :=
  ∃ before request fresh after, calls = before ++ .issue request fresh :: after ∧
    (issueToken codec (stateAfter codec before) request fresh).1 = .ok ⟨token, record⟩ ∧
    ∀ c ∈ after, ¬ c.Revokes token

/-- The token that a call hashes. -/
def Request.token : Request → String
  | .issue _ fresh => generateToken fresh
  | .revoke rawToken _ => trim rawToken

/-- The token that a request presents. -/
def presented (authHeader : Option String) : Option String :=
  (authHeader.bind (stripPrefix? "Bearer ")).map trim

/-- No two different tokens of the list have the same SHA-256. -/
def NoCollision (tokens : List String) : Prop :=
  ∀ token ∈ tokens, ∀ token' ∈ tokens,
    Sha256.digest (Bytes.asBytes token) = Sha256.digest (Bytes.asBytes token') → token = token'

theorem NoCollision.eq_of_hashToken {tokens : List String} (h : NoCollision tokens)
    {token token' : String} (hmem : token ∈ tokens) (hmem' : token' ∈ tokens)
    (heq : hashToken token = hashToken token') : token = token' := by
  refine h token hmem token' hmem' ?_
  exact Vector.toList_inj.mp (Mac.base64NoPad_inj.mp heq)

/-! ### The tokens that live -/

section LiveTokens

variable {codec : ScopesCodec} {calls : List Request} {token : String} {record : ApiClientRecord}

theorem stateAfter_concat (c : Request) :
    stateAfter codec (calls ++ [c]) = (stateAfter codec calls).step codec c := by
  unfold stateAfter
  rw [List.foldl_append]
  rfl

/-- One more call issues the token, or leaves it alive. -/
theorem live_concat_iff (c : Request) :
    Live codec (calls ++ [c]) token record ↔
      (∃ request fresh, c = .issue request fresh ∧
        (issueToken codec (stateAfter codec calls) request fresh).1 = .ok ⟨token, record⟩) ∨
      (Live codec calls token record ∧ ¬ c.Revokes token) := by
  constructor
  · intro h
    obtain ⟨before, request, fresh, after, hcalls, hissued, hafter⟩ := h
    rcases List.eq_nil_or_concat after with rfl | ⟨after, last, rfl⟩
    · obtain ⟨rfl, hlast⟩ := List.append_inj' hcalls rfl
      exact .inl ⟨request, fresh, List.head_eq_of_cons_eq hlast, hissued⟩
    · rw [List.concat_eq_append] at hcalls hafter
      rw [← List.cons_append, ← List.append_assoc] at hcalls
      obtain ⟨rfl, hlast⟩ := List.append_inj' hcalls rfl
      obtain rfl : c = last := List.head_eq_of_cons_eq hlast
      refine .inr ⟨⟨before, request, fresh, after, rfl, hissued, fun c' hc' => ?_⟩, ?_⟩
      · exact hafter c' (List.mem_append_left _ hc')
      · exact hafter c (List.mem_append_right _ (List.mem_singleton_self c))
  · intro h
    rcases h with ⟨request, fresh, rfl, hissued⟩ | ⟨hlive, hkept⟩
    · exact ⟨calls, request, fresh, [], rfl, hissued, by simp⟩
    · obtain ⟨before, request, fresh, after, rfl, hissued, hafter⟩ := hlive
      refine ⟨before, request, fresh, after ++ [c], by simp, hissued, fun c' hc' => ?_⟩
      rcases List.mem_append.mp hc' with hc' | hc'
      · exact hafter c' hc'
      · exact List.mem_singleton.mp hc' ▸ hkept

theorem not_live_nil : ¬ Live codec [] token record := by
  intro hexists
  obtain ⟨before, request, fresh, after, hcalls, -⟩ := hexists
  simp at hcalls

/-- What is issued is a text of random bytes. -/
theorem exists_of_issued {db : ApiClients} {request : IssueRequest} {fresh : Fresh}
    (h : (issueToken codec db request fresh).1 = .ok ⟨token, record⟩) :
    token = generateToken fresh ∧ record = newRecord request fresh := by
  rcases issueToken_cases codec db request fresh with ⟨e, he⟩ | ⟨text, db', -, -, hok⟩
  · rw [he] at h
    cases h
  · rw [hok] at h
    cases h
    exact ⟨rfl, rfl⟩

theorem Live.ne_empty (h : Live codec calls token record) : token ≠ "" := by
  obtain ⟨before, request, fresh, after, -, hissued, -⟩ := h
  rw [(exists_of_issued hissued).1]
  refine Mac.base64NoPad_ne_empty fun hnil => ?_
  have hlength := congrArg List.length hnil
  simp at hlength

end LiveTokens

/-! ### The rows of the tokens -/

/-- The table has a row for the token that is not revoked, and it is read as
the record. -/
def LiveRow (codec : ScopesCodec) (db : ApiClients) (token : String) (record : ApiClientRecord) :
    Prop :=
  ∃ row, db.table.find? (hashToken token) = some row ∧ row.revokedAt = none ∧
    recordFromRow codec row = .ok record

section Rows

variable {codec : ScopesCodec} {db : ApiClients} {token : String} {record : ApiClientRecord}

theorem liveRow_revokeToken {rawToken : String} {now : Int64}
    (hinj : hashToken token = hashToken (trim rawToken) → token = trim rawToken) :
    LiveRow codec (revokeToken db rawToken now).2 token record ↔
      LiveRow codec db token record ∧ trim rawToken ≠ token := by
  unfold LiveRow
  rw [find?_revokeToken]
  by_cases htoken : trim rawToken = token
  · rw [if_pos (congrArg hashToken htoken.symm)]
    refine iff_of_false ?_ fun h => h.2 htoken
    intro hexists
    obtain ⟨row, hrow, hrevoked, -⟩ := hexists
    obtain ⟨row', -, rfl⟩ := Option.map_eq_some_iff.mp hrow
    cases hrevoked
  · rw [if_neg fun h => htoken (hinj h).symm, and_iff_left htoken]

theorem liveRow_issueToken {request : IssueRequest} {fresh : Fresh}
    (hcodec : codec.RoundTrips request.scopes)
    (hinj : hashToken token = hashToken (generateToken fresh) → token = generateToken fresh) :
    LiveRow codec (issueToken codec db request fresh).2 token record ↔
      (issueToken codec db request fresh).1 = .ok ⟨token, record⟩ ∨
        LiveRow codec db token record := by
  rcases issueToken_cases codec db request fresh with ⟨e, he⟩ | ⟨text, db', htext, hinsert, hok⟩
  · rw [he]
    simp
  rw [hok]
  obtain ⟨hfree, hrow⟩ := find?_of_insert hinsert (hashToken token)
  rw [toRow_tokenHash] at hfree hrow
  -- what is written is read back
  have hread : recordFromRow codec ((newRecord request fresh).toRow text) =
      .ok (newRecord request fresh) := by
    obtain ⟨text', htext', hread⟩ := hcodec
    obtain rfl : text = text' := Except.ok.inj (htext.symm.trans htext')
    exact recordFromRow_toRow hread
  by_cases htoken : token = generateToken fresh
  · subst htoken
    have hnone : ¬ LiveRow codec db (generateToken fresh) record := by
      intro hexists
      obtain ⟨row, hrow', -⟩ := hexists
      exact absurd (hrow'.symm.trans hfree) (by simp)
    rw [or_iff_left hnone]
    unfold LiveRow
    rw [hrow, if_pos rfl]
    constructor
    · intro hexists
      obtain ⟨row, hrow', -, hrecord⟩ := hexists
      cases hrow'
      rw [Except.ok.inj (hread.symm.trans hrecord)]
    · intro h
      cases h
      exact ⟨_, rfl, rfl, hread⟩
  · have hnot : (Except.ok ⟨generateToken fresh, newRecord request fresh⟩ :
        Except String IssuedApiClient) ≠ .ok ⟨token, record⟩ := by
      intro h
      cases h
      exact htoken rfl
    rw [or_iff_right hnot]
    unfold LiveRow
    rw [hrow, if_neg fun h => htoken (hinj h)]

/-- The rows that are not revoked are those of the live tokens. -/
theorem live_iff_liveRow {calls : List Request} {tokens : List String}
    (hcodec : ∀ request fresh, .issue request fresh ∈ calls → codec.RoundTrips request.scopes)
    (hcollision : NoCollision tokens) (hhashed : ∀ c ∈ calls, c.token ∈ tokens)
    (htoken : token ∈ tokens) :
    Live codec calls token record ↔ LiveRow codec (stateAfter codec calls) token record := by
  induction calls using List.reverseRecOn with
  | nil =>
    refine iff_of_false not_live_nil ?_
    intro hexists
    obtain ⟨row, hrow, -⟩ := hexists
    cases hrow
  | append_singleton calls c ih =>
    have hih := ih (fun request fresh h => hcodec request fresh (List.mem_append_left _ h))
      fun c' hc' => hhashed c' (List.mem_append_left _ hc')
    have hlast := hhashed c (List.mem_append_right _ (List.mem_singleton_self c))
    rw [live_concat_iff, stateAfter_concat, hih]
    cases c with
    | revoke rawToken now =>
      refine Iff.trans ?_ (liveRow_revokeToken (hcollision.eq_of_hashToken htoken hlast)).symm
      simp [Request.Revokes]
    | issue request fresh =>
      refine Iff.trans ?_ (liveRow_issueToken
        (hcodec request fresh (List.mem_append_right _ (List.mem_singleton_self _)))
        (hcollision.eq_of_hashToken htoken hlast)).symm
      simp [Request.Revokes]

end Rows

/-! ## Authorization -/

/-- The record has the scope, or all of them. -/
def HasScope (record : ApiClientRecord) (requiredScope : String) : Prop :=
  requiredScope ∈ record.scopes ∨ "*" ∈ record.scopes

theorem matchesScope_iff {record : ApiClientRecord} {requiredScope : String} :
    matchesScope record requiredScope = true ↔ HasScope record requiredScope := by
  unfold matchesScope HasScope
  simp only [List.any_eq_true, Bool.or_eq_true, decide_eq_true_eq]
  constructor
  · intro hexists
    rcases hexists with ⟨scope, hscope, rfl | rfl⟩
    · exact .inl hscope
    · exact .inr hscope
  · intro heither
    rcases heither with h | h
    · exact ⟨_, h, .inl rfl⟩
    · exact ⟨_, h, .inr rfl⟩

/-- The header is `Bearer` and, up to white space around it, a token that is
live and has not reached its `expires_at`. -/
def Presents (codec : ScopesCodec) (calls : List Request) (authHeader : Option String)
    (now : Int64) (record : ApiClientRecord) : Prop :=
  ∃ rawToken, authHeader = some ("Bearer " ++ rawToken) ∧
    Live codec calls (trim rawToken) record ∧ now < record.expiresAt

section Authorize

variable {codec : ScopesCodec} {db : ApiClients} {requiredScope : String} {now : Int64}
  {record : ApiClientRecord}

theorem judge_of_current (hrevoked : record.revokedAt = none) (hnow : now < record.expiresAt) :
    judge record requiredScope now =
      if matchesScope record requiredScope = false then .error .forbidden else .ok record := by
  unfold judge
  rw [if_neg]
  simp [hrevoked, Int64.not_le.mpr hnow]

theorem current_of_judge (h : judge record requiredScope now ≠ .error .unauthorized) :
    record.revokedAt = none ∧ now < record.expiresAt := by
  unfold judge at h
  by_cases hold : (record.revokedAt.isSome || decide (record.expiresAt ≤ now)) = true
  · rw [if_pos hold] at h
    exact absurd rfl h
  · simpa using hold

theorem authorizeBearer_of_row {rawToken : String} {row : ApiClientRow}
    (hempty : trim rawToken ≠ "")
    (hrow : db.table.find? (hashToken (trim rawToken)) = some row)
    (hread : recordFromRow codec row = .ok record) :
    authorizeBearer codec db (some ("Bearer " ++ rawToken)) requiredScope now =
      judge record requiredScope now := by
  unfold authorizeBearer loadByTokenHash
  simp only [Lib.Text.stripPrefix?_eq_some_iff.mpr rfl, hrow, hread, Except.map]
  rw [if_neg hempty]

/-- Who is not unauthorized has presented a token that the table has a row
for. -/
theorem row_of_authorizeBearer {authHeader : Option String}
    (h : authorizeBearer codec db authHeader requiredScope now ≠ .error .unauthorized) :
    ∃ rawToken row record, authHeader = some ("Bearer " ++ rawToken) ∧
      db.table.find? (hashToken (trim rawToken)) = some row ∧
      recordFromRow codec row = .ok record ∧
      judge record requiredScope now ≠ .error .unauthorized := by
  unfold authorizeBearer at h
  cases authHeader with
  | none => exact absurd rfl h
  | some header =>
    cases hstrip : stripPrefix? "Bearer " header with
    | none =>
      simp only [hstrip] at h
      exact absurd rfl h
    | some rawToken =>
      obtain rfl := Lib.Text.stripPrefix?_eq_some_iff.mp hstrip
      simp only [hstrip] at h
      by_cases hempty : trim rawToken = ""
      · rw [if_pos hempty] at h
        exact absurd rfl h
      rw [if_neg hempty] at h
      unfold loadByTokenHash at h
      cases hrow : db.table.find? (hashToken (trim rawToken)) with
      | none =>
        simp only [hrow] at h
        exact absurd rfl h
      | some row =>
        cases hread : recordFromRow codec row with
        | error e =>
          simp only [hrow, hread, Except.map] at h
          exact absurd rfl h
        | ok record =>
          simp only [hrow, hread, Except.map] at h
          exact ⟨rawToken, row, record, rfl, hrow, hread, h⟩

/-- Three cases that leave no other out, each with its own result. -/
theorem verdict_iff {presents inScope : ApiClientRecord → Prop}
    {result : Except AuthFailure ApiClientRecord}
    (hok : ∀ record, presents record → inScope record → result = .ok record)
    (hforbidden : ∀ record, presents record → ¬ inScope record → result = .error .forbidden)
    (hrest : (¬ ∃ record, presents record) → result = .error .unauthorized) :
    (∀ record, result = .ok record ↔ presents record ∧ inScope record) ∧
    (result = .error .forbidden ↔ ∃ record, presents record ∧ ¬ inScope record) ∧
    (result = .error .unauthorized ↔ ¬ ∃ record, presents record) := by
  by_cases hpresents : ∃ record, presents record
  · obtain ⟨record, hpresents⟩ := hpresents
    by_cases hscope : inScope record
    · have hresult := hok record hpresents hscope
      rw [hresult]
      refine ⟨fun record' => ⟨fun h => ?_, fun h => ?_⟩, ?_, ?_⟩
      · obtain rfl := Except.ok.inj h
        exact ⟨hpresents, hscope⟩
      · exact hresult.symm.trans (hok record' h.1 h.2)
      · refine iff_of_false (by simp) fun h => ?_
        obtain ⟨record', hpresents', hscope'⟩ := h
        cases hresult.symm.trans (hforbidden record' hpresents' hscope')
      · exact iff_of_false (by simp) fun h => h ⟨record, hpresents⟩
    · have hresult := hforbidden record hpresents hscope
      rw [hresult]
      refine ⟨fun record' => iff_of_false (by simp) fun h => ?_, ?_, ?_⟩
      · cases hresult.symm.trans (hok record' h.1 h.2)
      · exact iff_of_true rfl ⟨record, hpresents, hscope⟩
      · exact iff_of_false (by simp) fun h => h ⟨record, hpresents⟩
  · rw [hrest hpresents]
    refine ⟨fun record => iff_of_false (by simp) fun h => hpresents ⟨record, h.1⟩, ?_, ?_⟩
    · exact iff_of_false (by simp) fun h => hpresents (h.imp fun record h => h.1)
    · exact iff_of_true rfl hpresents

/-- The tokens that were issued or revoked, and the one that is presented. -/
def tokensAt (calls : List Request) (authHeader : Option String) : List String :=
  calls.map Request.token ++ (presented authHeader).toList

theorem token_mem_tokensAt (calls : List Request) (authHeader : Option String) :
    ∀ c ∈ calls, c.token ∈ tokensAt calls authHeader := fun _ hc =>
  List.mem_append_left _ (List.mem_map_of_mem hc)

theorem presented_mem_tokensAt {calls : List Request} {authHeader : Option String}
    {rawToken : String} (h : authHeader = some ("Bearer " ++ rawToken)) :
    trim rawToken ∈ tokensAt calls authHeader := by
  subst h
  refine List.mem_append_right _ ?_
  simp [presented, Lib.Text.stripPrefix?_eq_some_iff.mpr rfl]

section Requests

variable {calls : List Request} {authHeader : Option String}

/-- Of a request that presents a record only the scope is looked at. -/
theorem authorizeBearer_of_presents
    (hcodec : ∀ request fresh, .issue request fresh ∈ calls → codec.RoundTrips request.scopes)
    (hcollision : NoCollision (tokensAt calls authHeader))
    (h : Presents codec calls authHeader now record) :
    authorizeBearer codec (stateAfter codec calls) authHeader requiredScope now =
      if matchesScope record requiredScope = false then .error .forbidden else .ok record := by
  obtain ⟨rawToken, hheader, hlive, hnow⟩ := h
  obtain ⟨row, hrow, hrevoked, hread⟩ := (live_iff_liveRow hcodec hcollision
    (token_mem_tokensAt calls authHeader) (presented_mem_tokensAt hheader)).mp hlive
  subst hheader
  refine (authorizeBearer_of_row hlive.ne_empty hrow hread).trans (judge_of_current ?_ hnow)
  rw [revokedAt_of_recordFromRow hread, hrevoked]

/-- Who is not unauthorized presents a record. -/
theorem presents_of_authorizeBearer
    (hcodec : ∀ request fresh, .issue request fresh ∈ calls → codec.RoundTrips request.scopes)
    (hcollision : NoCollision (tokensAt calls authHeader))
    (h : authorizeBearer codec (stateAfter codec calls) authHeader requiredScope now ≠
      .error .unauthorized) :
    ∃ record, Presents codec calls authHeader now record := by
  obtain ⟨rawToken, row, record, hheader, hrow, hread, hjudge⟩ := row_of_authorizeBearer h
  obtain ⟨hrevoked, hnow⟩ := current_of_judge hjudge
  refine ⟨record, rawToken, hheader, ?_, hnow⟩
  refine (live_iff_liveRow hcodec hcollision (token_mem_tokensAt calls authHeader)
    (presented_mem_tokensAt hheader)).mpr ?_
  exact ⟨row, hrow, (revokedAt_of_recordFromRow hread).symm.trans hrevoked, hread⟩

end Requests

end Authorize

/-- After every run of issues and revocations, a request gets the record of
the token it presents if the token is live, current and has the scope, it is
forbidden if only the scope is missing, and else it is unauthorized. -/
theorem authorizeBearer_iff (codec : ScopesCodec) (calls : List Request)
    (authHeader : Option String) (requiredScope : String) (now : Int64)
    (hcodec : ∀ request fresh, .issue request fresh ∈ calls → codec.RoundTrips request.scopes)
    (hcollision : NoCollision (calls.map Request.token ++ (presented authHeader).toList)) :
    let result := authorizeBearer codec (stateAfter codec calls) authHeader requiredScope now
    (∀ record, result = .ok record ↔
      Presents codec calls authHeader now record ∧ HasScope record requiredScope) ∧
    (result = .error .forbidden ↔
      ∃ record, Presents codec calls authHeader now record ∧ ¬ HasScope record requiredScope) ∧
    (result = .error .unauthorized ↔ ¬ ∃ record, Presents codec calls authHeader now record) := by
  intro result
  refine verdict_iff (fun record hpresents hscope => ?_) (fun record hpresents hscope => ?_)
    fun hnone => ?_
  · have hresult : result = _ := authorizeBearer_of_presents hcodec hcollision hpresents
    rw [hresult, if_neg (by simp [matchesScope_iff.mpr hscope])]
  · have hresult : result = _ := authorizeBearer_of_presents hcodec hcollision hpresents
    rw [hresult, if_pos (Bool.eq_false_iff.mpr (mt matchesScope_iff.mp hscope))]
  · by_contra h
    exact hnone (presents_of_authorizeBearer hcodec hcollision h)

/-! ## Two clients -/

/-- `serde_json` on the scopes of the two clients. -/
def sendCodec : ScopesCodec where
  toString scopes := if scopes = ["send"] then .ok "[\"send\"]" else .error "not these scopes"
  fromStr text :=
    if text = "[\"send\"]" then .ok ["send"] else .error "expected value at line 1 column 1"

def workerRequest (clientName : String) : IssueRequest where
  projectId := " proj-a"
  clientName := clientName
  scopes := ["send"]
  ttlSecs := 3600
  rotatedFrom := none

def freshA : Fresh := ⟨Vector.replicate 32 1, "id-a", 1700000000, 1700000000⟩

def freshB : Fresh := ⟨Vector.replicate 32 2, "id-b", 1700000005, 1700000006⟩

/-- Two clients get a token, and the second one is revoked. -/
def twoClients : List Request :=
  [.issue (workerRequest "worker-a") freshA, .issue (workerRequest "worker-b") freshB,
    .revoke (generateToken freshB ++ " ") 1700000010]

/-- The token of the first client still authorizes. -/
theorem twoClients_authorized :
    authorizeBearer sendCodec (stateAfter sendCodec twoClients)
      (some ("Bearer " ++ (generateToken freshA ++ "\n"))) "send" 1700000100 =
        .ok (newRecord (workerRequest "worker-a") freshA) :=
  ((authorizeBearer_iff sendCodec twoClients _ "send" 1700000100
    (by
      intro request fresh h
      have hscopes : request.scopes = ["send"] := by
        simp only [twoClients, List.mem_cons, Request.issue.injEq, reduceCtorEq,
          List.not_mem_nil, or_false] at h
        rcases h with ⟨rfl, -⟩ | ⟨rfl, -⟩ <;> rfl
      rw [hscopes]
      exact ⟨"[\"send\"]", rfl, rfl⟩)
    (by unfold NoCollision; decide +kernel)).1 _).mpr
    ⟨⟨_, rfl, ⟨[], _, _, _, rfl, by decide +kernel, by decide +kernel⟩, by decide⟩, .inl (by decide)⟩

end MagicLaw.Api
