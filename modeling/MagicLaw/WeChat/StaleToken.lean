import MagicLaw.WeChat.Acceptance
import MagicLaw.WeChat.Sends

/-!
# Which answers drop a token

`/api/send` drops the token of a peer when it finds `ret=-2` in the text of
the error.  The text has the codes of the answer, and what the server wrote
besides.

* `detected_iff`: for which answers the text has it.
* `tokens_apiSend`: what the handler leaves of the tokens of the peer.
* `staleToken_dropped_iff`: the two together.
-/

namespace MagicLaw.WeChat

open Lib Lib.Program Lib.Text

/-! ## The text of the error -/

/-- What the handler looks for. -/
abbrev mark : List Char := ['r', 'e', 't', '=', '-', '2']

def hasMark (s : String) : Bool := contains s "ret=-2"

theorem hasMark_iff {s : String} : hasMark s = true ↔ mark <:+: s.toList := contains_iff

theorem isRetMinus2Error_eq (err : String) : isRetMinus2Error err = hasMark err := by
  have hweaker : ∀ pattern : String, mark <+: pattern.toList →
      contains err pattern = true → hasMark err = true := by
    intro pattern hpattern h
    rw [hasMark_iff]
    exact hpattern.isInfix.trans (contains_iff.mp h)
  have hcomma := hweaker "ret=-2," (by decide)
  have hblank := hweaker "ret=-2 " (by decide)
  unfold isRetMinus2Error
  rw [Bool.eq_iff_iff, Bool.or_eq_true, Bool.or_eq_true]
  constructor
  · intro h
    rcases h with (h | h) | h
    · exact h
    · exact hcomma h
    · exact hblank h
  · exact fun h => Or.inl (Or.inl h)

/-- The decimal text starts with `-2`. -/
def StartsMinus2 (n : Int) : Prop := ['-', '2'] <+: (toString n).toList

instance (n : Int) : Decidable (StartsMinus2 n) := inferInstanceAs (Decidable (_ <+: _))

/-- The text before the value of `ret`: it ends with the only place in it where
the mark can begin. -/
def LeadsToRet (lead : String) : Prop :=
  ∀ rest : List Char, mark <:+: lead.toList ++ rest ↔ ['-', '2'] <+: rest ∨ mark <:+: rest

/-- The mark cannot begin in the text. -/
def HasNoStart (text : String) : Prop :=
  ∀ rest : List Char, mark <:+: text.toList ++ rest ↔ mark <:+: rest

theorem leadsToRet_businessError : LeadsToRet "ilink business error: ret=" := by
  intro rest
  simp [List.infix_cons_iff]

theorem leadsToRet_sendRejected : LeadsToRet "ilink send rejected: ret=" := by
  intro rest
  simp [List.infix_cons_iff]

theorem HasNoStart.hasMark_append {text : String} (h : HasNoStart text) (s : String) :
    hasMark (text ++ s) = hasMark s := by
  rw [Bool.eq_iff_iff, hasMark_iff, hasMark_iff, String.toList_append]
  exact h s.toList

/-- The codes in the text, and what the server wrote. -/
theorem hasMark_codes {lead : String} (hlead : LeadsToRet lead) (ret errcode : Int)
    (errmsg : String) :
    hasMark (lead ++ toString ret ++ ", errcode=" ++ toString errcode ++ ", errmsg=" ++ errmsg) =
        true ↔ StartsMinus2 ret ∨ hasMark errmsg = true := by
  have hnot : ∀ n : Int, 'r' ∉ (toString n).toList := not_mem_toString (by decide) rfl
  have herrcode : HasNoStart ", errcode=" := by
    intro rest
    simp [List.infix_cons_iff]
  have herrmsg : HasNoStart ", errmsg=" := by
    intro rest
    simp [List.infix_cons_iff]
  rw [hasMark_iff, hasMark_iff]
  simp only [String.toList_append, List.append_assoc]
  rw [hlead, infix_append_of_not_mem (hnot ret), herrcode, infix_append_of_not_mem (hnot errcode),
    herrmsg]
  refine or_congr_left ?_
  exact prefix_append_cons_of_not_mem (by decide)

/-! ## The answers with the mark -/

/-- The handler takes the answer for a rejection of the token. -/
def detected (http : Http Json) : Bool :=
  match sendTextResult http with
  | .ok _ => false
  | .error e => isRetMinus2Error e

/-- The `errmsg` of the answer has the mark. -/
def errmsgHasMark (value : Json) : Bool := (value.str? "errmsg").any hasMark

theorem hasMark_errmsg (value : Json) (text : String) (htext : hasMark text = false) :
    hasMark ((value.str? "errmsg").getD text) = errmsgHasMark value := by
  unfold errmsgHasMark
  cases value.str? "errmsg" with
  | none => exact htext
  | some errmsg => rfl

/-- Where no request failed and the body is an answer, the mark is in the text
of an answer that is not accepted: with an expired session in its `errmsg`, and
else in its `errmsg` or at a `ret` that starts like -2. -/
theorem detected_body_iff (value : Json) :
    detected (.body value) = true ↔ ¬ Accepts value ∧
      (errmsgHasMark value = true ∨ readErrcode value ≠ -14 ∧ StartsMinus2 (readRet value)) := by
  have hunknown := hasMark_errmsg value "unknown error" (by decide +kernel)
  have hexpired := hasMark_errmsg value "session expired" (by decide +kernel)
  have hsession : HasNoStart "wechat session expired (errcode=-14): " := by
    intro rest
    simp [List.infix_cons_iff]
  rw [accepts_iff, ← hasServerId_iff]
  unfold detected
  show (match acceptSend value with
    | .ok _ => false
    | .error e => isRetMinus2Error e) = true ↔ _
  have hread : acceptSend value =
      if readErrcode value = -14 then
        .error ("wechat session expired (errcode=-14): " ++
          (value.str? "errmsg").getD "session expired")
      else if readErrcode value ≠ 0 then
        .error ("ilink business error: ret=" ++ toString (readRet value) ++ ", errcode=" ++
          toString (readErrcode value).toInt ++ ", errmsg=" ++
          (value.str? "errmsg").getD "unknown error")
      else if readRet value ≠ 0 && !hasServerId value then
        .error ("ilink send rejected: ret=" ++ toString (readRet value) ++ ", errcode=" ++
          toString (readErrcode value).toInt ++ ", errmsg=" ++
          (value.str? "errmsg").getD "unknown error")
      else .ok value := rfl
  rw [hread]
  by_cases hcode : readErrcode value = -14
  · rw [if_pos hcode]
    dsimp only
    rw [isRetMinus2Error_eq, hsession.hasMark_append, hexpired]
    simp [hcode]
  · rw [if_neg hcode]
    by_cases hzero : readErrcode value = 0
    · rw [if_neg (not_not.mpr hzero)]
      by_cases hrejected : readRet value ≠ 0 ∧ hasServerId value = false
      · rw [if_pos (by simp [hrejected])]
        dsimp only
        rw [isRetMinus2Error_eq, hasMark_codes leadsToRet_sendRejected, hunknown]
        simp [hcode, hrejected, or_comm]
      · have haccepted : readRet value = 0 ∨ hasServerId value = true := by
          rw [not_and_or, not_not, Bool.not_eq_false] at hrejected
          exact hrejected
        have hok : ¬ (readRet value ≠ 0 && !hasServerId value) = true := by
          rcases haccepted with h | h
          · simp [h]
          · simp [h]
        rw [if_neg hok]
        simp [hzero, haccepted]
    · rw [if_pos hzero]
      dsimp only
      rw [isRetMinus2Error_eq, hasMark_codes leadsToRet_businessError, hunknown]
      simp [hcode, hzero, or_comm]

/-- The mark is in what is reported of a request without an answer. -/
def reportHasMark : Http Json → Bool
  | .noAnswer err | .failed err | .unreadable err | .invalid err => hasMark err
  | .status status body => hasMark status || hasMark body
  | .empty | .body _ => false

theorem detected_of_no_body {http : Http Json} (h : http.body? = none) :
    detected http = reportHasMark http := by
  have hstart : HasNoStart "ilink request failed: " ∧
      HasNoStart "failed to read ilink response: " ∧
      HasNoStart "invalid ilink JSON response: " ∧ HasNoStart "ilink HTTP " ∧ HasNoStart " " := by
    refine ⟨?_, ?_, ?_, ?_, ?_⟩
    all_goals
      intro rest
      simp [List.infix_cons_iff]
  obtain ⟨hrequest, hread, hinvalid, hstatus, hblank⟩ := hstart
  cases http with
  | noAnswer err => exact (isRetMinus2Error_eq _).trans (hrequest.hasMark_append err)
  | failed err => exact (isRetMinus2Error_eq _).trans (hrequest.hasMark_append err)
  | unreadable err => exact (isRetMinus2Error_eq _).trans (hread.hasMark_append err)
  | invalid err => exact (isRetMinus2Error_eq _).trans (hinvalid.hasMark_append err)
  | empty => decide +kernel
  | body value => cases h
  | status status body =>
    refine (isRetMinus2Error_eq _).trans ?_
    show hasMark ("ilink HTTP " ++ status ++ ": " ++ body) = (hasMark status || hasMark body)
    rw [Bool.eq_iff_iff, Bool.or_eq_true, hasMark_iff, hasMark_iff, hasMark_iff]
    simp only [String.toList_append, List.append_assoc]
    rw [hstatus]
    show mark <:+: status.toList ++ ':' :: (" ".toList ++ body.toList) ↔ _
    rw [infix_append_cons_of_not_mem (by decide) (by decide), hblank]

/-! ## The tokens after the answer -/

/-- The send was rejected with `ret` -2. -/
def RejectedAsStale (http : Http Json) : Prop :=
  ∃ value, http = .body value ∧ ¬ Accepts value ∧ value.get? "ret" = some (.int (-2))

/-- The tokens of the peer are dropped where the send was rejected with `ret`
-2, from the table as far as its statements work, and nowhere else. -/
structure DropsExactly (account peer : String) (http : Http Json) (works : Prop) (w w' : World) :
    Prop where
  dropped : RejectedAsStale http →
    w'.cachedToken peer = none ∧ (works → w'.storedToken account peer = none)
  kept : ¬ RejectedAsStale http →
    (w.cachedToken peer ≠ none → w'.cachedToken peer ≠ none) ∧
      (w.storedToken account peer ≠ none → w'.storedToken account peer ≠ none)

/-- There is a token that may be dropped. -/
def HasToken (account peer : String) (works : Prop) (w : World) : Prop :=
  w.cachedToken peer ≠ none ∨ works ∧ w.storedToken account peer ≠ none

/-- The state after a request, whose message is the third call. -/
def sent (account : String) (req : SendRequest) (outcomes : Nat → Outcome) (w : World) : World :=
  ((apiSend account req).play handle outcomes w).2

section Sent

variable {account ctx : String} {req : SendRequest} {outcomes : Nat → Outcome} {w : World}

/-- What the handler leaves of the tokens of the peer. -/
structure Left (account peer : String) (http : Http Json) (works : Prop) (w w' : World) : Prop where
  removed : detected http = true →
    w'.cachedToken peer = none ∧ (works → w'.storedToken account peer = none) ∧
      (¬ works → w'.storedToken account peer = w.storedToken account peer)
  same : detected http = false → (∃ e, sendTextResult http = .error e) →
    w'.cachedToken peer = w.cachedToken peer ∧
      w'.storedToken account peer = w.storedToken account peer
  renewed : ∀ resp, sendTextResult http = .ok resp →
    w'.cachedToken peer ≠ none ∧
      (w.storedToken account peer ≠ none → w'.storedToken account peer ≠ none)

/-- A write to the table, which works or not. -/
theorem storedToken_write {o : Outcome} {c : Call} {peer : String} {token : Option String}
    (hlegal : isTokenCall account c = true) (hwrite : storeWrite? c = some (peer, token)) :
    (o.fault = none → (handle w o c).2.storedToken account peer = token) ∧
      (o.fault ≠ none → (handle w o c).2.storedToken account = w.storedToken account) := by
  constructor
  · intro hworks
    rw [storedToken_handle hlegal fun _ => hworks, hwrite]
    exact Function.update_self _ _ _
  · intro hfails
    obtain ⟨e, he⟩ := Option.ne_none_iff_exists'.mp hfails
    cases c with
    | storeSet account' user token | storeDelete account' user =>
      simp only [handle, statement, he]
    | _ => cases hwrite

/-- A write to the cache, the same write to the table, and the end. -/
def afterWrites (outcomes : Nat → Outcome) (w : World) (peer : String) (c c' : Call) : World :=
  (handle (handle (handle w (outcomes 0) c).2 (outcomes 1) c').2 (outcomes 2) (.unlockPeer peer)).2

theorem tokens_afterWrites (outcomes : Nat → Outcome) (w : World) {c c' : Call} {peer : String}
    {token : Option String}
    (hlegal : isTokenCall account c = true) (hlegal' : isTokenCall account c' = true)
    (hcache : cacheWrite? c (handle w (outcomes 0) c).1 = some (peer, token))
    (hquiet : storeWrite? c = none) (hstore : storeWrite? c' = some (peer, token)) :
    (afterWrites outcomes w peer c c').cachedToken peer = token ∧
      ((outcomes 1).fault = none →
        (afterWrites outcomes w peer c c').storedToken account peer = token) ∧
      ((outcomes 1).fault ≠ none →
        (afterWrites outcomes w peer c c').storedToken account = w.storedToken account) := by
  have hfirst : (handle w (outcomes 0) c).2.storedToken account = w.storedToken account := by
    have hnone : (storeWrite? c).isSome = true → (outcomes 0).fault = none := by
      intro h
      rw [hquiet] at h
      cases h
    rw [storedToken_handle hlegal hnone, hquiet]
    rfl
  obtain ⟨hworks, hfails⟩ := storedToken_write (w := (handle w (outcomes 0) c).2) (o := outcomes 1)
    hlegal' hstore
  refine ⟨?_, hworks, fun h => (hfails h).trans hfirst⟩
  show (handle (handle w (outcomes 0) c).2 (outcomes 1) c').2.cachedToken peer = token
  rw [cachedToken_handle hlegal', cacheWrite?_of_storeWrite? hstore]
  show (handle w (outcomes 0) c).2.cachedToken peer = token
  rw [cachedToken_handle hlegal, hcache]
  exact Function.update_self _ _ _

/-- The handler from the answer on. -/
def answered (account : String) (req : SendRequest) (ctx : String) (http : Http Json) :
    Work (Nat × SendResponse) := do
  let answer ← apiSent account req ctx (sendTextResult http)
  call (.unlockPeer req.toPeer)
  pure answer

/-- An accepted answer: its token is in the cache, and in the table if the write
works. -/
theorem left_of_accepted {http : Http Json} {resp : Json} (hsent : sendTextResult http = .ok resp)
    (account : String) (req : SendRequest) (ctx : String) (outcomes : Nat → Outcome) (w : World) :
    Left account req.toPeer http ((outcomes 1).fault = none) w
      ((answered account req ctx http).play handle outcomes w).2 := by
  have hnot : detected http = false := by rw [detected, hsent]
  let next := extractContextTokenFromSendResponse resp
  let entry : PeerTokenState := (handle w (outcomes 0) (.cacheSuccess req.toPeer ctx next)).1
  have hplay : ((answered account req ctx http).play handle outcomes w).2 =
      afterWrites outcomes w req.toPeer (.cacheSuccess req.toPeer ctx next)
        (.storeSet account req.toPeer entry.token) := by
    unfold answered
    rw [hsent]
    rfl
  obtain ⟨hcached, hworks, hfails⟩ := tokens_afterWrites outcomes w
    (show isTokenCall account (.cacheSuccess req.toPeer ctx next) = true from rfl)
    (show isTokenCall account (.storeSet account req.toPeer entry.token) = true from
      decide_eq_true rfl) rfl rfl rfl
  rw [hplay]
  constructor
  · intro h
    rw [hnot] at h
    cases h
  · intro _ herror
    obtain ⟨e, he⟩ := herror
    rw [hsent] at he
    cases he
  · intro _ _
    refine ⟨by rw [hcached]; exact Option.some_ne_none _, fun hbefore => ?_⟩
    by_cases h : (outcomes 1).fault = none
    · rw [hworks h]
      exact Option.some_ne_none _
    · rw [hfails h]
      exact hbefore

/-- An error with the mark: the token is dropped. -/
theorem left_of_marked {http : Http Json} {e : String} (hsent : sendTextResult http = .error e)
    (hmark : isRetMinus2Error e = true) (account : String) (req : SendRequest) (ctx : String)
    (outcomes : Nat → Outcome) (w : World) :
    Left account req.toPeer http ((outcomes 1).fault = none) w
      ((answered account req ctx http).play handle outcomes w).2 := by
  have hdetected : detected http = true := by
    rw [detected, hsent]
    exact hmark
  have hplay : ((answered account req ctx http).play handle outcomes w).2 =
      afterWrites outcomes w req.toPeer (.cacheRemove req.toPeer)
        (.storeDelete account req.toPeer) := by
    unfold answered apiSent
    rw [hsent]
    dsimp only
    rw [if_pos hmark]
    rfl
  obtain ⟨hcached, hworks, hfails⟩ := tokens_afterWrites outcomes w
    (show isTokenCall account (.cacheRemove req.toPeer) = true from rfl)
    (show isTokenCall account (.storeDelete account req.toPeer) = true from
      decide_eq_true rfl) rfl rfl rfl
  rw [hplay]
  refine ⟨fun _ => ⟨hcached, hworks, fun h => congrFun (hfails h) _⟩, fun h => ?_, fun resp h => ?_⟩
  · rw [hdetected] at h
    cases h
  · rw [hsent] at h
    cases h

/-- Another error: nothing is written. -/
theorem left_of_unmarked {http : Http Json} {e : String} (hsent : sendTextResult http = .error e)
    (hmark : isRetMinus2Error e = false) (account : String) (req : SendRequest) (ctx : String)
    (outcomes : Nat → Outcome) (w : World) :
    Left account req.toPeer http ((outcomes 1).fault = none) w
      ((answered account req ctx http).play handle outcomes w).2 := by
  have hdetected : detected http = false := by
    rw [detected, hsent]
    exact hmark
  have hplay : ((answered account req ctx http).play handle outcomes w).2 =
      (handle w (outcomes 0) (.unlockPeer req.toPeer)).2 := by
    unfold answered apiSent
    rw [hsent]
    dsimp only
    rw [if_neg (by simp [hmark])]
    rfl
  rw [hplay]
  refine ⟨fun h => ?_, fun _ _ => ⟨rfl, rfl⟩, fun resp h => ?_⟩
  · rw [hdetected] at h
    cases h
  · rw [hsent] at h
    cases h

theorem left_answered (account : String) (req : SendRequest) (ctx : String) (http : Http Json)
    (outcomes : Nat → Outcome) (w : World) :
    Left account req.toPeer http ((outcomes 1).fault = none) w
      ((answered account req ctx http).play handle outcomes w).2 := by
  cases hsent : sendTextResult http with
  | ok resp => exact left_of_accepted hsent account req ctx outcomes w
  | error e =>
    cases hmark : isRetMinus2Error e with
    | true => exact left_of_marked hsent hmark account req ctx outcomes w
    | false => exact left_of_unmarked hsent hmark account req ctx outcomes w

theorem tokens_apiSend (account : String) (outcomes : Nat → Outcome)
    (hctx : selectToken (w.tokenCache.lookup req.toPeer) req = some ctx) :
    Left account req.toPeer (outcomes 2).reply ((outcomes 4).fault = none) w
      (sent account req outcomes w) := by
  have hplay : sent account req outcomes w =
      ((answered account req ctx (outcomes 2).reply).play handle (fun n => outcomes (n + 3))
        { w with sendPeerLocks := req.toPeer :: w.sendPeerLocks }).2 := by
    show ((apiSendWith account req (selectToken (w.tokenCache.lookup req.toPeer) req) >>=
      fun answer => call (.unlockPeer req.toPeer) >>= fun _ => pure answer).play handle
        (fun n => outcomes (n + 2)) { w with sendPeerLocks := req.toPeer :: w.sendPeerLocks }).2 = _
    rw [hctx]
    rfl
  have hleft := left_answered account req ctx (outcomes 2).reply
    (fun n => outcomes (n + 3)) { w with sendPeerLocks := req.toPeer :: w.sendPeerLocks }
  rw [hplay]
  exact ⟨hleft.removed, hleft.same, hleft.renewed⟩

end Sent

/-! ## The verdict -/

/-- What the handler makes of the text is right. -/
def VerdictRight : Http Json → Prop
  | .body value =>
    -- the answer is accepted
    (readErrcode value = 0 ∧ (readRet value = 0 ∨ Acknowledged value)) ∨
      if readErrcode value = -14 then errmsgHasMark value = true ↔ readRet value = -2
      else readRet value = -2 ∨ (errmsgHasMark value = false ∧ ¬ StartsMinus2 (readRet value))
  | http => reportHasMark http = false

theorem readRet_eq_minus2_iff (value : Json) :
    readRet value = -2 ↔ value.get? "ret" = some (.int (-2)) := by
  unfold readRet
  cases hret : value.get? "ret" with
  | none => simp
  | some field =>
    cases field with
    | int n =>
      show (if FitsI64 n then some n else none).getD 0 = -2 ↔ _
      rw [Option.some.injEq, Json.int.injEq]
      by_cases hfits : FitsI64 n
      · rw [if_pos hfits]
        rfl
      · rw [if_neg hfits]
        refine iff_of_false (by decide) fun heq => hfits ?_
        rw [heq]
        decide
    | _ => simp [Json.asI64?]

theorem startsMinus2_minus2 : StartsMinus2 (-2) := by decide +kernel

theorem verdictRight_iff (http : Http Json) :
    VerdictRight http ↔ (detected http = true ↔ RejectedAsStale http) := by
  cases hbody : http.body? with
  | none =>
    have hnot : ¬ RejectedAsStale http := by
      rintro ⟨value, rfl, _⟩
      cases hbody
    have hright : VerdictRight http ↔ reportHasMark http = false := by
      cases http with
      | body value => cases hbody
      | _ => exact Iff.rfl
    rw [hright, detected_of_no_body hbody, iff_false_right hnot, Bool.not_eq_true]
  | some value =>
    obtain rfl : http = .body value := by
      cases http with
      | body v => exact congrArg Http.body (Option.some.inj hbody)
      | _ => cases hbody
    have hstale : RejectedAsStale (.body value) ↔ ¬ Accepts value ∧ readRet value = -2 := by
      rw [readRet_eq_minus2_iff]
      constructor
      · rintro ⟨v, hv, h⟩
        cases hv
        exact h
      · exact fun h => ⟨value, rfl, h⟩
    rw [detected_body_iff, hstale]
    unfold VerdictRight
    dsimp only
    rw [← accepts_iff]
    by_cases haccepts : Accepts value
    · simp [haccepts]
    · simp only [haccepts, false_or, not_false_eq_true, true_and]
      by_cases hcode : readErrcode value = -14
      · simp [hcode]
      · simp only [hcode, if_false, not_false_eq_true, ne_eq, true_and]
        by_cases hret : readRet value = -2
        · simp [hret, startsMinus2_minus2]
        · simp [hret]

section Verdict

variable {account ctx : String} {req : SendRequest} {outcomes : Nat → Outcome} {w w' : World}
  {http : Http Json} {works : Prop} {peer : String}

theorem exists_error_of_rejected (h : RejectedAsStale http) :
    ∃ e, sendTextResult http = .error e := by
  obtain ⟨value, rfl, hrejected, _⟩ := h
  cases hsent : sendTextResult (.body value) with
  | error e => exact ⟨e, rfl⟩
  | ok resp => exact absurd ⟨resp, hsent⟩ hrejected

theorem Left.dropsExactly (hleft : Left account peer http works w w')
    (hright : detected http = true ↔ RejectedAsStale http) :
    DropsExactly account peer http works w w' := by
  constructor
  · intro hstale
    obtain ⟨hcached, hworks, _⟩ := hleft.removed (hright.mpr hstale)
    exact ⟨hcached, hworks⟩
  · intro hstale
    have hdetected : detected http = false := by
      rw [← Bool.not_eq_true, hright]
      exact hstale
    cases hsent : sendTextResult http with
    | ok resp =>
      obtain ⟨hcached, hstored⟩ := hleft.renewed resp hsent
      exact ⟨fun _ => hcached, hstored⟩
    | error e =>
      obtain ⟨hcached, hstored⟩ := hleft.same hdetected ⟨e, hsent⟩
      rw [hcached, hstored]
      exact ⟨id, id⟩

/-- A text that misleads the handler does no harm where there is no token. -/
theorem Left.dropsExactly_iff (hleft : Left account peer http works w w')
    (hwrong : ¬ (detected http = true ↔ RejectedAsStale http)) :
    DropsExactly account peer http works w w' ↔ ¬ HasToken account peer works w := by
  unfold HasToken
  by_cases hstale : RejectedAsStale http
  · have hdetected : detected http = false := by
      rw [← Bool.not_eq_true]
      exact fun h => hwrong (iff_of_true h hstale)
    obtain ⟨hcached, hstored⟩ := hleft.same hdetected (exists_error_of_rejected hstale)
    constructor
    · intro h hhas
      obtain ⟨hnocache, hnostore⟩ := h.dropped hstale
      rcases hhas with hhas | ⟨hw, hhas⟩
      · exact hhas (hcached ▸ hnocache)
      · exact hhas (hstored ▸ hnostore hw)
    · intro hnone
      obtain ⟨hnocache, hnostore⟩ := not_or.mp hnone
      refine ⟨fun _ => ⟨?_, fun hw => ?_⟩, fun h => absurd hstale h⟩
      · rw [hcached]
        exact not_not.mp hnocache
      · rw [hstored]
        exact not_not.mp fun hstore => hnostore ⟨hw, hstore⟩
  · have hdetected : detected http = true := by
      rw [← Bool.not_eq_false]
      exact fun h => hwrong (iff_of_false (by simp [h]) hstale)
    obtain ⟨hcached, hworks, hfails⟩ := hleft.removed hdetected
    constructor
    · intro h hhas
      rcases hhas with hhas | ⟨hw, hhas⟩
      · exact (h.kept hstale).1 hhas hcached
      · exact (h.kept hstale).2 hhas (hworks hw)
    · intro hnone
      obtain ⟨hnocache, hnostore⟩ := not_or.mp hnone
      refine ⟨fun h => absurd h hstale, fun _ => ⟨fun h => absurd h hnocache, fun h => ?_⟩⟩
      rw [hfails fun hw => hnostore ⟨hw, h⟩]
      exact h

/-- For every answer, the handler drops the tokens of the peer as it should
exactly when the text of the error tells what the codes say, or there is no
token that may be dropped. -/
theorem staleToken_dropped_iff (account : String) (req : SendRequest) (outcomes : Nat → Outcome)
    (w : World) (hctx : selectToken (w.tokenCache.lookup req.toPeer) req = some ctx) :
    DropsExactly account req.toPeer (outcomes 2).reply ((outcomes 4).fault = none) w
        (sent account req outcomes w) ↔
      VerdictRight (outcomes 2).reply ∨
        ¬ HasToken account req.toPeer ((outcomes 4).fault = none) w := by
  have hleft := tokens_apiSend account outcomes hctx
  rw [verdictRight_iff]
  by_cases hright : detected (outcomes 2).reply = true ↔ RejectedAsStale (outcomes 2).reply
  · exact iff_of_true (hleft.dropsExactly hright) (Or.inl hright)
  · rw [hleft.dropsExactly_iff hright]
    exact (or_iff_right hright).symm

end Verdict

/-- Alice has a token in the cache and in the table. -/
def aliceHasToken : World :=
  { World.init.setToken "bot" "alice" "ctx-1" with
    tokenCache := World.init.tokenCache.insert "alice" (.new "ctx-1" 0) }

/-- The server answers with this value. -/
def answering (value : Json) (_ : Nat) : Outcome := { fine with reply := .body value }

theorem rejection_dropsToken :
    DropsExactly "bot" "alice" (.body rejection) ((answering rejection 4).fault = none)
      aliceHasToken (sent "bot" ⟨"alice", "hi", none⟩ (answering rejection) aliceHasToken) :=
  (staleToken_dropped_iff "bot" ⟨"alice", "hi", none⟩ (answering rejection) aliceHasToken
    (show selectToken _ _ = some "ctx-1" from rfl)).mpr (Or.inl (Or.inr (Or.inl rfl)))

def StaleTokenExact : Prop :=
  ∀ (account ctx : String) (req : SendRequest) (outcomes : Nat → Outcome) (w : World),
    selectToken (w.tokenCache.lookup req.toPeer) req = some ctx →
    DropsExactly account req.toPeer (outcomes 2).reply ((outcomes 4).fault = none) w
      (sent account req outcomes w)

/-- A rejection with `ret` -20. -/
def otherRejection : Json := .obj [("ret", .int (-20)), ("errcode", .int 0)]

/-- The token of alice is dropped. -/
theorem not_staleTokenExact : ¬ StaleTokenExact := by
  intro h
  have hdrops := h "bot" "ctx-1" ⟨"alice", "hi", none⟩ (answering otherRejection) aliceHasToken rfl
  have hother : ¬ RejectedAsStale (.body otherRejection) := by
    rintro ⟨value, hvalue, _, hret⟩
    cases hvalue
    exact absurd ((readRet_eq_minus2_iff otherRejection).mpr hret) (by decide)
  exact (hdrops.kept hother).1 (by decide +kernel) (by decide +kernel)

end MagicLaw.WeChat
