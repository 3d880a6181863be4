import MagicLaw.Api.Clients

/-!
# How long a token lasts

`issue_token` reads the clock twice, once for `created_at` and once for
`expires_at`, and adds the time to live to the second reading.  The time to
live may be any positive `i64`, and the sum is not checked.  Where it leaves
the range it panics in a build with overflow checks; in a release build it
wraps, which is what `newRecord` does.

* `issued_lasts_iff`: an issued token lasts for its time to live exactly where
  both readings agree and the sum is in range.
* `unauthorized_of_overflow`: where it is not, the token is dead at once.
-/

namespace MagicLaw.Api

open Lib
open Lib.Text (trim)

/-! ## The end of the lifetime -/

theorem toInt_expiresAt (request : IssueRequest) (fresh : Fresh) :
    (newRecord request fresh).expiresAt.toInt =
      (fresh.expiresNow.toInt + request.ttlSecs.toInt).bmod (2 ^ 64) :=
  Int64.toInt_add fresh.expiresNow request.ttlSecs

theorem toInt_expiresAt_of_fits {request : IssueRequest} {fresh : Fresh}
    (hpositive : 0 < request.ttlSecs.toInt)
    (hfits : fresh.expiresNow.toInt + request.ttlSecs.toInt < 2 ^ 63) :
    (newRecord request fresh).expiresAt.toInt =
      fresh.expiresNow.toInt + request.ttlSecs.toInt := by
  have hlow := fresh.expiresNow.le_toInt
  rw [toInt_expiresAt]
  exact Int.bmod_eq_of_le (by omega) (by omega)

/-- A sum that is not in range is negative. -/
theorem toInt_expiresAt_of_overflow {request : IssueRequest} {fresh : Fresh}
    (hoverflow : 2 ^ 63 ≤ fresh.expiresNow.toInt + request.ttlSecs.toInt) :
    (newRecord request fresh).expiresAt.toInt < 0 := by
  have hnow := fresh.expiresNow.toInt_lt
  have httl := request.ttlSecs.toInt_lt
  rw [toInt_expiresAt, Int.bmod_def]
  omega

/-- Only a positive time to live is accepted. -/
theorem ttlSecs_pos_of_issued {codec : ScopesCodec} {db : ApiClients} {request : IssueRequest}
    {fresh : Fresh} {issued : IssuedApiClient}
    (h : (issueToken codec db request fresh).1 = .ok issued) : 0 < request.ttlSecs.toInt := by
  by_contra hnot
  have httl : request.ttlSecs ≤ 0 := Int64.le_iff_toInt_le.mpr (Int.not_lt.mp hnot)
  unfold issueToken at h
  rw [if_pos httl] at h
  split at h
  · cases h
  · split at h <;> cases h

/-! ## The promise -/

/-- What is promised with a time to live: the addition stays in range, the
record expires so many seconds after it was created, and up to then the token
authorizes, unless it is revoked. -/
structure Lasts (codec : ScopesCodec) (before : List Request) (request : IssueRequest)
    (fresh : Fresh) (issued : IssuedApiClient) : Prop where
  in_range : fresh.expiresNow.toInt + request.ttlSecs.toInt < 2 ^ 63
  expires : issued.record.expiresAt.toInt = issued.record.createdAt.toInt + request.ttlSecs.toInt
  authorizes : ∀ after rawToken requiredScope now,
    (∀ request' fresh', .issue request' fresh' ∈ before ++ .issue request fresh :: after →
      codec.RoundTrips request'.scopes) →
    NoCollision (tokensAt (before ++ .issue request fresh :: after) (some ("Bearer " ++ rawToken))) →
    trim rawToken = issued.rawToken → HasScope issued.record requiredScope →
    (∀ c ∈ after, ¬ c.Revokes issued.rawToken) →
    issued.record.createdAt ≤ now →
    now.toInt < issued.record.createdAt.toInt + request.ttlSecs.toInt →
    authorizeBearer codec (stateAfter codec (before ++ .issue request fresh :: after))
      (some ("Bearer " ++ rawToken)) requiredScope now = .ok issued.record

section Issued

variable {codec : ScopesCodec} {before : List Request} {request : IssueRequest} {fresh : Fresh}
  {issued : IssuedApiClient}

/-- A token that is not revoked authorizes up to its `expires_at`. -/
theorem authorizeBearer_of_issued {after : List Request} {rawToken requiredScope : String}
    {now : Int64}
    (hissued : (issueToken codec (stateAfter codec before) request fresh).1 = .ok issued)
    (hcodec : ∀ request' fresh', .issue request' fresh' ∈ before ++ .issue request fresh :: after →
      codec.RoundTrips request'.scopes)
    (hcollision : NoCollision
      (tokensAt (before ++ .issue request fresh :: after) (some ("Bearer " ++ rawToken))))
    (htoken : trim rawToken = issued.rawToken) (hscope : HasScope issued.record requiredScope)
    (hkept : ∀ c ∈ after, ¬ c.Revokes issued.rawToken) (hnow : now < issued.record.expiresAt) :
    authorizeBearer codec (stateAfter codec (before ++ .issue request fresh :: after))
      (some ("Bearer " ++ rawToken)) requiredScope now = .ok issued.record := by
  have hlive : Live codec (before ++ .issue request fresh :: after) (trim rawToken)
      issued.record := by
    rw [htoken]
    exact ⟨before, request, fresh, after, rfl, hissued, hkept⟩
  rw [authorizeBearer_of_presents hcodec hcollision ⟨rawToken, rfl, hlive, hnow⟩,
    matchesScope_iff.mpr hscope]
  rfl

/-- After every run of issues and revocations an issued token lasts as long as
its time to live says, if and only if the clock showed the same second twice
and the time to live fits behind it. -/
theorem issued_lasts_iff
    (hissued : (issueToken codec (stateAfter codec before) request fresh).1 = .ok issued) :
    Lasts codec before request fresh issued ↔
      fresh.expiresNow = fresh.createdNow ∧
        fresh.createdNow.toInt + request.ttlSecs.toInt < 2 ^ 63 := by
  have hpositive := ttlSecs_pos_of_issued hissued
  obtain ⟨-, hrecord⟩ := exists_of_issued hissued
  constructor
  · intro h
    have hexpires := h.expires
    rw [hrecord, toInt_expiresAt_of_fits hpositive h.in_range] at hexpires
    have hclock : fresh.expiresNow.toInt = fresh.createdNow.toInt := by
      have hcreated : (newRecord request fresh).createdAt = fresh.createdNow := rfl
      rw [hcreated] at hexpires
      omega
    refine ⟨Int64.toInt_inj.mp hclock, ?_⟩
    rw [← hclock]
    exact h.in_range
  · intro ⟨hclock, hfits⟩
    have hrange : fresh.expiresNow.toInt + request.ttlSecs.toInt < 2 ^ 63 := by
      rw [hclock]
      exact hfits
    have hexpires : issued.record.expiresAt.toInt =
        issued.record.createdAt.toInt + request.ttlSecs.toInt := by
      rw [hrecord, toInt_expiresAt_of_fits hpositive hrange, hclock]
      rfl
    refine ⟨hrange, hexpires, ?_⟩
    intro after rawToken requiredScope now hcodec hcollision htoken hscope hkept _ hnow
    refine authorizeBearer_of_issued hissued hcodec hcollision htoken hscope hkept ?_
    rw [Int64.lt_iff_toInt_lt, hexpires]
    exact hnow

/-- A live token has one record. -/
theorem live_unique {calls : List Request} {tokens : List String} {token : String}
    {record record' : ApiClientRecord}
    (hcodec : ∀ request fresh, .issue request fresh ∈ calls → codec.RoundTrips request.scopes)
    (hcollision : NoCollision tokens) (hhashed : ∀ c ∈ calls, c.token ∈ tokens)
    (htoken : token ∈ tokens) (h : Live codec calls token record)
    (h' : Live codec calls token record') : record = record' := by
  have hrows : ∀ r, Live codec calls token r → LiveRow codec (stateAfter codec calls) token r :=
    fun r => (live_iff_liveRow hcodec hcollision hhashed htoken).mp
  obtain ⟨row, hrow, -, hread⟩ := hrows record h
  obtain ⟨row', hrow', -, hread'⟩ := hrows record' h'
  obtain rfl : row = row' := Option.some.inj (hrow.symm.trans hrow')
  exact Except.ok.inj (hread.symm.trans hread')

/-- Where the sum is not in range, the token is dead as soon as it is issued. -/
theorem unauthorized_of_overflow {rawToken requiredScope : String} {now : Int64}
    (hissued : (issueToken codec (stateAfter codec before) request fresh).1 = .ok issued)
    (hcodec : ∀ request' fresh', .issue request' fresh' ∈ before ++ [.issue request fresh] →
      codec.RoundTrips request'.scopes)
    (hcollision : NoCollision
      (tokensAt (before ++ [.issue request fresh]) (some ("Bearer " ++ rawToken))))
    (htoken : trim rawToken = issued.rawToken)
    (hoverflow : 2 ^ 63 ≤ fresh.expiresNow.toInt + request.ttlSecs.toInt) (hnow : 0 ≤ now) :
    authorizeBearer codec (stateAfter codec (before ++ [.issue request fresh]))
      (some ("Bearer " ++ rawToken)) requiredScope now = .error .unauthorized := by
  by_contra hnot
  obtain ⟨record, rawToken', hheader, hlive, hcurrent⟩ :=
    presents_of_authorizeBearer hcodec hcollision hnot
  obtain rfl : rawToken = rawToken' := (String.append_right_inj _).mp (Option.some.inj hheader)
  have hmine : Live codec (before ++ [.issue request fresh]) (trim rawToken) issued.record := by
    rw [htoken]
    exact ⟨before, request, fresh, [], rfl, hissued, nofun⟩
  have hrecord : record = newRecord request fresh :=
    (live_unique hcodec hcollision (token_mem_tokensAt _ _) (presented_mem_tokensAt rfl) hlive
      hmine).trans (exists_of_issued hissued).2
  have hnegative := toInt_expiresAt_of_overflow hoverflow
  rw [hrecord, Int64.lt_iff_toInt_lt] at hcurrent
  have hstart : 0 ≤ now.toInt := Int64.le_iff_toInt_le.mp hnow
  omega

end Issued

/-! ## The longest time to live -/

/-- `--ttl-secs 9223372036854775807` -/
def longestRequest : IssueRequest := { workerRequest "worker-a" with ttlSecs := Int64.maxValue }

/-- It is accepted, the record has expired before it was created, and the token
authorizes nothing. -/
theorem longest_ttl_dead :
    (issueToken sendCodec (stateAfter sendCodec []) longestRequest freshA).1 =
        .ok ⟨generateToken freshA, newRecord longestRequest freshA⟩ ∧
      0 < longestRequest.ttlSecs ∧
      (newRecord longestRequest freshA).expiresAt < (newRecord longestRequest freshA).createdAt ∧
      ¬ Lasts sendCodec [] longestRequest freshA
        ⟨generateToken freshA, newRecord longestRequest freshA⟩ ∧
      authorizeBearer sendCodec (stateAfter sendCodec [.issue longestRequest freshA])
        (some ("Bearer " ++ generateToken freshA)) "send" 1700000000 = .error .unauthorized := by
  refine ⟨by decide +kernel, by decide, by decide, fun h => ?_, by decide +kernel⟩
  exact absurd h.in_range (by decide)

/-- A time to live of an hour, with one second on both clocks. -/
theorem issued_lasts_hour :
    Lasts sendCodec [] (workerRequest "worker-a") freshA
      ⟨generateToken freshA, newRecord (workerRequest "worker-a") freshA⟩ :=
  (issued_lasts_iff (by decide +kernel)).mpr ⟨rfl, by decide⟩

end MagicLaw.Api
