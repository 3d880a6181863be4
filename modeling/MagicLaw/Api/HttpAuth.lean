import MagicLaw.Api.Clients

/-!
# Which requests reach a handler

`adapters/http_auth.rs` and the router of `start_http_api` in
`infrastructure/runtime.rs`.  The middleware wraps the whole router, so it also
sees requests that no route is for.

* `answer_iff`: after every run of issues and revocations, which requests reach
  which handler, and which are refused in which way.

The route for `/api/token_status` has no policy of its own, so nothing reaches
it (`not_handled_tokenStatus`).
-/

namespace MagicLaw.Api.HttpAuth

open MagicLaw.Api

/-! ## The policy of a path -/

def healthPath : String := "/api/health"

def feishuWebhookPath : String := "/api/feishu/webhook"

inductive PathAuthPolicy where
  | publicPath
  | scopedTo (scope : String)
  | deny
  deriving DecidableEq

def authPolicyForPath (path : String) : PathAuthPolicy :=
  if path = healthPath ∨ path = feishuWebhookPath then .publicPath
  else if path = "/api/send" then .scopedTo "send"
  else if path = "/api/window_status" then .scopedTo "window_status"
  else .deny

/-! ## The router -/

/-- The handlers that have a route. -/
inductive Route where
  | send | tokenStatus | health | feishuWebhook | windowStatus
  deriving DecidableEq

def Route.path : Route → String
  | .send => "/api/send"
  | .tokenStatus => "/api/token_status"
  | .health => "/api/health"
  | .feishuWebhook => "/api/feishu/webhook"
  | .windowStatus => "/api/window_status"

/-- `post`, or `get`, which also takes `HEAD`. -/
def Route.takes : Route → String → Bool
  | .send, method | .feishuWebhook, method => method = "POST"
  | .tokenStatus, method | .health, method | .windowStatus, method => method = "GET" || method = "HEAD"

def routes : List Route := [.send, .tokenStatus, .health, .feishuWebhook, .windowStatus]

/-- A request.  The header is the first `Authorization`, if `to_str` can read
it. -/
structure HttpRequest where
  method : String
  path : String
  authorization : Option String

inductive Answer where
  | handled (route : Route)
  | status (code : Nat) (text : String)
  deriving DecidableEq

def router (request : HttpRequest) : Answer :=
  match routes.find? fun route => route.path = request.path with
  | none => .status 404 ""
  | some route => if route.takes request.method then .handled route else .status 405 ""

/-- The middleware, with the router as what is next. -/
def requireBearerAuth (codec : ScopesCodec) (db : ApiClients) (now : Int64) (request : HttpRequest) :
    Answer :=
  match authPolicyForPath request.path with
  | .publicPath => router request
  | .scopedTo requiredScope =>
    match authorizeBearer codec db request.authorization requiredScope now with
    | .ok _ => router request
    | .error .forbidden => .status 403 "forbidden"
    | .error .unauthorized => .status 401 "unauthorized"
  | .deny => .status 401 "unauthorized"

/-! ## What is reached -/

theorem router_eq_handled_iff {request : HttpRequest} {route : Route} :
    router request = .handled route ↔ route.path = request.path ∧ route.takes request.method = true := by
  have hpaths : ∀ other : Route, other.path = route.path → other = route := by
    intro other
    cases other <;> cases route <;> decide
  unfold router
  constructor
  · intro h
    split at h
    · cases h
    · next found hfound =>
      split at h
      · next htakes =>
        obtain rfl : found = route := by simpa using h
        exact ⟨by simpa using List.find?_some hfound, htakes⟩
      · cases h
  · rintro ⟨hpath, htakes⟩
    have hmem : route ∈ routes := by cases route <;> decide
    cases hfound : routes.find? fun route => decide (route.path = request.path) with
    | none => simpa [hpath] using List.find?_eq_none.mp hfound route hmem
    | some found =>
      obtain rfl := hpaths found ((by simpa using List.find?_some hfound : found.path = _).trans hpath.symm)
      dsimp only
      rw [if_pos htakes]

theorem router_ne_unauthorized (request : HttpRequest) :
    router request ≠ .status 401 "unauthorized" ∧ router request ≠ .status 403 "forbidden" := by
  unfold router
  split
  · decide
  · split <;> simp

/-- Who may reach the handler of a path. -/
def Entitled (codec : ScopesCodec) (calls : List Request) (request : HttpRequest) (now : Int64) : Prop :=
  match authPolicyForPath request.path with
  | .publicPath => True
  | .scopedTo requiredScope =>
    ∃ record, Presents codec calls request.authorization now record ∧ HasScope record requiredScope
  | .deny => False

/-- The token is good, and has another scope. -/
def LacksScope (codec : ScopesCodec) (calls : List Request) (request : HttpRequest) (now : Int64) : Prop :=
  ∃ requiredScope record, authPolicyForPath request.path = .scopedTo requiredScope ∧
    Presents codec calls request.authorization now record ∧ ¬HasScope record requiredScope

section Runs

variable {codec : ScopesCodec} {calls : List Request} {request : HttpRequest} {now : Int64}

/-- The records that one header presents have the same scopes. -/
theorem hasScope_iff_of_presents {record record' : ApiClientRecord} {requiredScope : String}
    (hcodec : ∀ request fresh, .issue request fresh ∈ calls → codec.RoundTrips request.scopes)
    (hcollision : NoCollision (tokensAt calls request.authorization))
    (h : Presents codec calls request.authorization now record)
    (h' : Presents codec calls request.authorization now record') :
    HasScope record requiredScope ↔ HasScope record' requiredScope := by
  have hresult : authorizeBearer codec (stateAfter codec calls) request.authorization
      requiredScope now = _ := authorizeBearer_of_presents hcodec hcollision h
  have hresult' : authorizeBearer codec (stateAfter codec calls) request.authorization
      requiredScope now = _ := authorizeBearer_of_presents hcodec hcollision h'
  rw [hresult] at hresult'
  rw [← matchesScope_iff, ← matchesScope_iff]
  cases hmatches : matchesScope record requiredScope <;>
    cases hmatches' : matchesScope record' requiredScope <;>
      simp [hmatches, hmatches'] at hresult' ⊢

/-- After every run of issues and revocations a request reaches a handler
exactly if the route takes it and it is entitled.  Of the others, one that lacks
the scope is forbidden, and one is unauthorized that presents no live token or
asks for a path without a policy, whether there is a route for it or not. -/
theorem answer_iff
    (hcodec : ∀ request fresh, .issue request fresh ∈ calls → codec.RoundTrips request.scopes)
    (hcollision : NoCollision (tokensAt calls request.authorization)) :
    let answer := requireBearerAuth codec (stateAfter codec calls) now request
    (∀ route, answer = .handled route ↔ route.path = request.path ∧
      route.takes request.method = true ∧ Entitled codec calls request now) ∧
    (answer = .status 403 "forbidden" ↔ LacksScope codec calls request now) ∧
    (answer = .status 401 "unauthorized" ↔
      ¬Entitled codec calls request now ∧ ¬LacksScope codec calls request now) := by
  obtain ⟨hunauthorized, hforbidden⟩ := router_ne_unauthorized request
  unfold requireBearerAuth Entitled LacksScope
  cases authPolicyForPath request.path with
  | publicPath => simp [router_eq_handled_iff, hunauthorized, hforbidden]
  | deny => simp
  | scopedTo requiredScope =>
    by_cases hpresents : ∃ record, Presents codec calls request.authorization now record
    · obtain ⟨record, hrecord⟩ := hpresents
      have hsame : ∀ record', Presents codec calls request.authorization now record' →
          (HasScope record' requiredScope ↔ HasScope record requiredScope) :=
        fun record' h' => hasScope_iff_of_presents hcodec hcollision h' hrecord
      have hentitled : (∃ record', Presents codec calls request.authorization now record' ∧
          HasScope record' requiredScope) ↔ HasScope record requiredScope :=
        ⟨fun h => h.elim fun record' h' => (hsame record' h'.1).mp h'.2, fun h => ⟨record, hrecord, h⟩⟩
      have hlacks : (∃ scope record', PathAuthPolicy.scopedTo requiredScope = .scopedTo scope ∧
          Presents codec calls request.authorization now record' ∧ ¬HasScope record' scope) ↔
            ¬HasScope record requiredScope := by
        constructor
        · rintro ⟨_, record', ⟨⟩, h', hscope⟩
          exact fun h => hscope ((hsame record' h').mpr h)
        · exact fun h => ⟨_, record, rfl, hrecord, h⟩
      dsimp only
      rw [hentitled, hlacks, authorizeBearer_of_presents hcodec hcollision hrecord]
      by_cases hscope : HasScope record requiredScope
      · rw [if_neg (by simp [matchesScope_iff.mpr hscope])]
        simp [hscope, router_eq_handled_iff, hunauthorized, hforbidden]
      · rw [if_pos (Bool.eq_false_iff.mpr (mt matchesScope_iff.mp hscope))]
        simp [hscope]
    · have hresult : authorizeBearer codec (stateAfter codec calls) request.authorization
          requiredScope now = .error .unauthorized := by
        by_contra h
        exact hpresents (presents_of_authorizeBearer hcodec hcollision h)
      dsimp only
      rw [hresult]
      refine ⟨fun route => iff_of_false (by simp) fun h => ?_, iff_of_false (by simp) fun h => ?_, ?_⟩
      · exact hpresents (h.2.2.imp fun _ h => h.1)
      · obtain ⟨scope, record, -, hrecord, -⟩ := h
        exact hpresents ⟨record, hrecord⟩
      · refine iff_of_true rfl ⟨fun h => hpresents (h.imp fun _ h => h.1), fun h => ?_⟩
        obtain ⟨scope, record, -, hrecord, -⟩ := h
        exact hpresents ⟨record, hrecord⟩

end Runs

/-- The path has a route and no policy. -/
theorem not_handled_tokenStatus (codec : ScopesCodec) (db : ApiClients) (now : Int64)
    (request : HttpRequest) : requireBearerAuth codec db now request ≠ .handled .tokenStatus := by
  intro h
  have hrouter : router request = .handled .tokenStatus := by
    unfold requireBearerAuth at h
    split at h
    · exact h
    · split at h
      · exact h
      · cases h
      · cases h
    · cases h
  have hpath : request.path = "/api/token_status" := (router_eq_handled_iff.mp hrouter).1.symm
  have hdeny : authPolicyForPath request.path = .deny := by
    rw [hpath]
    decide
  unfold requireBearerAuth at h
  rw [hdeny] at h
  cases h

theorem roundTrips_twoClients (request : IssueRequest) (fresh : Fresh)
    (h : .issue request fresh ∈ twoClients) : sendCodec.RoundTrips request.scopes := by
  have hscopes : request.scopes = ["send"] := by
    simp only [twoClients, List.mem_cons, Request.issue.injEq, reduceCtorEq, List.not_mem_nil,
      or_false] at h
    rcases h with ⟨rfl, -⟩ | ⟨rfl, -⟩ <;> rfl
  rw [hscopes]
  exact ⟨"[\"send\"]", rfl, rfl⟩

/-- The first client sends a message. -/
def clientSends : HttpRequest := ⟨"POST", "/api/send", some ("Bearer " ++ generateToken freshA)⟩

theorem clientSends_handled :
    requireBearerAuth sendCodec (stateAfter sendCodec twoClients) 1700000100 clientSends =
      .handled .send :=
  ((answer_iff roundTrips_twoClients (by unfold NoCollision; decide +kernel)).1 .send).mpr
    ⟨rfl, by decide, newRecord (workerRequest "worker-a") freshA,
      ⟨generateToken freshA, rfl,
        ⟨[], _, _, _, rfl, by decide +kernel, by decide +kernel⟩, by decide⟩, .inl (by decide)⟩

end MagicLaw.Api.HttpAuth
