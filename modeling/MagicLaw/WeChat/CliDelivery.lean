import Mathlib.Data.Finset.Card
import MagicLaw.WeChat.Cli

/-!
# How often the CLI delivers a message

A run of `run_send_wechat` makes up to three POSTs to the daemon and then, after
some errors, sends directly.  `Attempts` says what becomes of each of them:
whether it leads to a message at the recipient, and what the CLI gets for it.
The two are independent: a connection may break after the request got through.

* `sends_serve_le_one`: a request to the daemon leads to one message at most,
  so an attempt either delivers or does not.
* `mem_tries_iff`: the attempts that the CLI makes, by what it gets.
* `deliveries_le_one_iff`: when the run delivers at most once.
-/

namespace MagicLaw.WeChat

open Lib Lib.Program Lib.Text

/-! ## One request to the daemon -/

/-- The messages that are sent so far. -/
def countSends (n : Nat) (_ : World) (_ : Outcome) : (c : Call) → c.Reply → Nat
  | .sendMessage _ _ _, _ => n + 1
  | _, _ => n

section Serve

variable {account : String} {req : SendRequest} {w : World} {n : Nat}

theorem wp_apiSent (ctx : String) (sent : Except String Json) :
    wp (Handler.watched handle countSends) anyOutcome (fun _ s => s.2 = n)
      (apiSent account req ctx sent) (w, n) := by
  cases sent with
  | ok resp =>
    refine wp_anyOutcome_bind fun o => wp_anyOutcome_bind fun o' => ?_
    rfl
  | error e =>
    unfold apiSent
    dsimp only
    split
    · refine wp_anyOutcome_bind fun o => wp_anyOutcome_bind fun o' => ?_
      rfl
    · rfl

theorem wp_apiSendWith (token : Option String) :
    wp (Handler.watched handle countSends) anyOutcome (fun _ s => s.2 ≤ n + 1)
      (apiSendWith account req token) (w, n) := by
  cases token with
  | none => exact Nat.le_succ n
  | some ctx =>
    refine wp_anyOutcome_bind fun o => ?_
    refine wp_mono (fun _ s hcount => ?_) (wp_apiSent ctx _)
    have hcount : s.2 = n + 1 := hcount
    omega

theorem wp_apiSend : wp (Handler.watched handle countSends) anyOutcome (fun _ s => s.2 ≤ n + 1)
    (apiSend account req) (w, n) := by
  refine wp_anyOutcome_bind fun o => wp_anyOutcome_bind fun o' => ?_
  refine wp_bind.mpr (wp_mono (fun answer s hcount => ?_) (wp_apiSendWith (selectToken _ req)))
  refine wp_anyOutcome_bind fun o'' => ?_
  exact hcount

/-- The daemon sends at most one message for a request that it takes up. -/
theorem sends_serve_le_one (account : String) (fs : Nat → Outcome) (w : World) (n : Nat) :
    ((serve account).play (Handler.watched handle countSends) fs (w, n)).2.2 ≤ n + 1 := by
  refine play_of_wp (Q := fun _ (s : World × Nat) => s.2 ≤ n + 1) ?_ fs
  refine wp_anyOutcome_bind fun o => ?_
  cases haccept : (Handler.watched handle countSends (w, n) o .accept).1 with
  | none => exact Nat.le_succ n
  | some request =>
    refine wp_bind.mpr (wp_mono (fun answer s hcount => ?_) wp_apiSend)
    refine wp_anyOutcome_bind fun o' => ?_
    exact hcount

end Serve

/-! ## The attempts of one run -/

/-- The connection broke, and not by a timeout. -/
def DaemonAnswer.failed : DaemonAnswer → Bool
  | .missing (.failed _) => true
  | _ => false

/-- The text of the rejection that an answer is. -/
def DaemonAnswer.rejection? : DaemonAnswer → Option String
  | .missing .timedOut => some "daemon send timed out while waiting for inbound token"
  | .missing (.failed _) => none
  | .missing (.unreadable err) => some ("daemon bad response: " ++ err)
  | .missing (.refused detail) => some detail
  | .answered status response =>
    match daemonAnswer status response with
    | .error (.rejected err) => some err
    | _ => none

/-- The answer is a rejection after which the CLI sends by itself. -/
def DaemonAnswer.unauthorized (answer : DaemonAnswer) : Bool :=
  answer.rejection?.any fun err => (DaemonSendError.rejected err).fallsBack

/-- What becomes of the attempts: the POSTs are numbered 0, 1 and 2, and the
direct call is number 3. -/
structure Attempts where
  delivers : Nat → Bool
  answer : Nat → DaemonAnswer
  reply : Http Json

/-- The attempts that the CLI makes. -/
inductive Attempts.Made (a : Attempts) : Nat → Prop where
  | first : Made a 0
  | next {k : Nat} (hmade : Made a k) (hpost : k < 3) (hfailed : (a.answer k).failed) :
      Made a (k + 1)
  | direct {k : Nat} (hmade : Made a k) (hpost : k < 3)
      (hunauthorized : (a.answer k).unauthorized) : Made a 3

/-- The attempts from number `k` on, of which `n` may be POSTs. -/
def Attempts.tries (a : Attempts) : Nat → Nat → List Nat
  | _, 0 => [3]
  | k, n + 1 => k ::
    if (a.answer k).failed then a.tries (k + 1) n
    else if (a.answer k).unauthorized then [3] else []

section Made

variable {a : Attempts}

theorem le_of_mem_tries {n k j : Nat} (hn : k + n = 3) (hj : j ∈ a.tries k n) : k ≤ j := by
  induction n generalizing k with
  | zero =>
    rw [List.mem_singleton.mp hj]
    omega
  | succ n ih =>
    rcases List.mem_cons.mp hj with rfl | hj
    · exact Nat.le_refl j
    · split at hj
      · have := ih (k := k + 1) (by omega) hj
        omega
      · split at hj
        · rw [List.mem_singleton.mp hj]
          omega
        · cases hj

/-- No attempt is made twice. -/
theorem nodup_tries {n k : Nat} (hn : k + n = 3) : (a.tries k n).Nodup := by
  induction n generalizing k with
  | zero => exact List.nodup_singleton 3
  | succ n ih =>
    refine List.nodup_cons.mpr ⟨fun hk => ?_, ?_⟩
    · split at hk
      · have := le_of_mem_tries (k := k + 1) (by omega) hk
        omega
      · split at hk
        · have := List.mem_singleton.mp hk
          omega
        · cases hk
    · split
      · exact ih (by omega)
      · split
        · exact List.nodup_singleton 3
        · exact List.nodup_nil

theorem made_of_mem_tries {n k j : Nat} (hn : k + n = 3) (hk : a.Made k) (hj : j ∈ a.tries k n) :
    a.Made j := by
  induction n generalizing k with
  | zero =>
    have hthree : k = 3 := by omega
    rw [List.mem_singleton.mp hj, ← hthree]
    exact hk
  | succ n ih =>
    rcases List.mem_cons.mp hj with rfl | hj
    · exact hk
    · split at hj
      · next hfailed => exact ih (k := k + 1) (by omega) (.next hk (by omega) hfailed) hj
      · split at hj
        · next hunauthorized =>
          rw [List.mem_singleton.mp hj]
          exact .direct hk (by omega) hunauthorized
        · cases hj

theorem not_failed_of_unauthorized {answer : DaemonAnswer} (h : answer.unauthorized) :
    answer.failed = false := by
  cases answer with
  | missing why =>
    cases why with
    | failed err => cases h
    | _ => rfl
  | answered status response => rfl

theorem succ_mem_tries {n k j : Nat} (hn : k + n = 3) (hj : j ∈ a.tries k n) (hpost : j < 3)
    (hfailed : (a.answer j).failed) : j + 1 ∈ a.tries k n := by
  induction n generalizing k with
  | zero =>
    have := List.mem_singleton.mp hj
    omega
  | succ n ih =>
    refine List.mem_cons_of_mem _ ?_
    rcases List.mem_cons.mp hj with rfl | hj
    · rw [if_pos hfailed]
      cases n with
      | zero =>
        have hthree : j + 1 = 3 := by omega
        rw [hthree]
        exact List.mem_singleton_self 3
      | succ n => exact List.mem_cons_self
    · split at hj
      · next hk =>
        rw [if_pos hk]
        exact ih (k := k + 1) (by omega) hj
      · split at hj
        · have := List.mem_singleton.mp hj
          omega
        · cases hj

theorem three_mem_tries {n k j : Nat} (hn : k + n = 3) (hj : j ∈ a.tries k n) (hpost : j < 3)
    (hunauthorized : (a.answer j).unauthorized) : 3 ∈ a.tries k n := by
  induction n generalizing k with
  | zero => exact List.mem_singleton_self 3
  | succ n ih =>
    refine List.mem_cons_of_mem _ ?_
    rcases List.mem_cons.mp hj with rfl | hj
    · rw [if_neg (by simp [not_failed_of_unauthorized hunauthorized]), if_pos hunauthorized]
      exact List.mem_singleton_self 3
    · split at hj
      · next hk =>
        rw [if_pos hk]
        exact ih (k := k + 1) (by omega) hj
      · split at hj
        · have := List.mem_singleton.mp hj
          omega
        · cases hj

theorem mem_tries_iff {j : Nat} : j ∈ a.tries 0 3 ↔ a.Made j := by
  constructor
  · exact made_of_mem_tries rfl .first
  · intro hmade
    induction hmade with
    | first => exact List.mem_cons_self
    | next hmade hpost hfailed ih => exact succ_mem_tries rfl ih hpost hfailed
    | direct hmade hpost hunauthorized ih => exact three_mem_tries rfl ih hpost hunauthorized

/-- At most one of the attempts delivers exactly when no two of them do. -/
theorem countP_tries_le_one_iff : (a.tries 0 3).countP a.delivers ≤ 1 ↔
    ∀ i j, a.Made i → a.Made j → a.delivers i → a.delivers j → i = j := by
  have hnodup : ((a.tries 0 3).filter a.delivers).Nodup := (nodup_tries rfl).filter _
  rw [List.countP_eq_length_filter, ← List.toFinset_card_of_nodup hnodup, Finset.card_le_one]
  simp only [List.mem_toFinset, List.mem_filter, mem_tries_iff]
  constructor
  · intro h i j hi hj hdelivers hdelivers'
    exact h i ⟨hi, hdelivers⟩ j ⟨hj, hdelivers'⟩
  · intro h i hi j hj
    exact h i j hi.1 hj.1 hi.2 hj.2

end Made

/-! ## A run of the CLI -/

/-- What the CLI works with, the POSTs that it has made, and the messages that
its attempts have delivered. -/
structure Ledger where
  world : World
  posts : Nat
  delivered : Nat

section Run

variable (a : Attempts)

/-- The calls of the CLI, when this becomes of its attempts. -/
def attempt (l : Ledger) (o : Outcome) : (c : Call) → c.Reply × Ledger
  | .post req _ => (l.posts,
    { world := l.world.post req
      posts := l.posts + 1
      delivered := l.delivered + (a.delivers l.posts).toNat })
  | .answer id => (a.answer id, l)
  | .sendMessage _ _ _ => (a.reply, { l with delivered := l.delivered + (a.delivers 3).toNat })
  | c => ((handle l.world o c).1, { l with world := (handle l.world o c).2 })

/-- The messages that a run of `run_send_wechat` delivers. -/
def deliveries (account : ProjectWechatAccount) (cmd : SendCommand) (fs : Nat → Outcome)
    (w : World) : Nat :=
  ((runSendWechat account cmd).play (attempt a) fs ⟨w, 0, 0⟩).2.delivered

/-- The CLI sends by itself. -/
def goesOn : Except DaemonSendError (Option String) → Bool
  | .ok _ => false
  | .error e => e.fallsBack

variable {a} {account : ProjectWechatAccount} {cmd : SendCommand} {req : SendRequest}
  {origin : TokenOrigin} {l : Ledger}

theorem goesOn_rejected (err : String) : goesOn (.error (.rejected err)) =
    (some err).any fun err => (DaemonSendError.rejected err).fallsBack := rfl

theorem goesOn_daemonAnswer (status : Nat) (response : SendResponse) :
    goesOn (daemonAnswer status response) =
      (DaemonAnswer.answered status response).unauthorized := by
  simp only [DaemonAnswer.unauthorized, DaemonAnswer.rejection?]
  unfold daemonAnswer
  split <;> rfl

/-- What the loop does with an answer. -/
def afterAnswer (again : String → Work (Except DaemonSendError (Option String))) :
    DaemonAnswer → Work (Except DaemonSendError (Option String))
  | .missing .timedOut =>
    pure (.error (.rejected "daemon send timed out while waiting for inbound token"))
  | .missing (.failed err) => again err
  | .missing (.unreadable err) => pure (.error (.rejected ("daemon bad response: " ++ err)))
  | .missing (.refused detail) => pure (.error (.rejected detail))
  | .answered status response => pure (daemonAnswer status response)

theorem tryDaemonApiSend_succ (n : Nat) (lastErr : String) :
    tryDaemonApiSend req origin (n + 1) lastErr =
      (call (.post req origin) >>= fun id => call (.answer id) >>= fun answer =>
        afterAnswer (tryDaemonApiSend req origin n) answer) := by
  rw [tryDaemonApiSend]
  refine congrArg _ (funext fun id => congrArg _ (funext fun answer => ?_))
  cases answer with
  | missing why => cases why <;> rfl
  | answered status response => rfl

/-- An answer after which the POST is not made again. -/
theorem wp_afterAnswer {again : String → Work (Except DaemonSendError (Option String))}
    {answer : DaemonAnswer} (h : answer.failed = false) :
    wp (attempt a) anyOutcome (fun r t => goesOn r = answer.unauthorized ∧ t = l)
      (afterAnswer again answer) l := by
  cases answer with
  | missing why =>
    cases why with
    | failed err => cases h
    | timedOut => exact ⟨goesOn_rejected _, rfl⟩
    | unreadable err => exact ⟨goesOn_rejected _, rfl⟩
    | refused detail => exact ⟨goesOn_rejected _, rfl⟩
  | answered status response => exact ⟨goesOn_daemonAnswer status response, rfl⟩

theorem countP_single : [3].countP a.delivers = (a.delivers 3).toNat := by
  cases h : a.delivers 3 <;> simp [h]

/-- The POSTs deliver what the attempts do from there on, but for the direct
call that may follow. -/
theorem wp_tryDaemonApiSend (n : Nat) (lastErr : String) :
    wp (attempt a) anyOutcome
      (fun r t => t.delivered + (if goesOn r then (a.delivers 3).toNat else 0) =
        l.delivered + (a.tries l.posts n).countP a.delivers)
      (tryDaemonApiSend req origin n lastErr) l := by
  induction n generalizing l lastErr with
  | zero => exact congrArg (l.delivered + ·) countP_single.symm
  | succ n ih =>
    have hhead : (a.tries l.posts (n + 1)).countP a.delivers =
        (if (a.answer l.posts).failed then a.tries (l.posts + 1) n
          else if (a.answer l.posts).unauthorized then [3] else []).countP a.delivers +
            (a.delivers l.posts).toNat := by
      show (l.posts :: _).countP a.delivers = _
      rw [List.countP_cons]
      cases a.delivers l.posts <;> rfl
    rw [tryDaemonApiSend_succ, hhead]
    refine wp_anyOutcome_bind fun o => wp_anyOutcome_bind fun o' => ?_
    let posted : Ledger := ⟨l.world.post req, l.posts + 1, l.delivered + (a.delivers l.posts).toNat⟩
    show wp _ _ _ (afterAnswer (tryDaemonApiSend req origin n) (a.answer l.posts)) posted
    cases hfailed : (a.answer l.posts).failed with
    | true =>
      rw [if_pos rfl]
      obtain ⟨err, hanswer⟩ : ∃ err, a.answer l.posts = .missing (.failed err) := by
        cases hanswer : a.answer l.posts with
        | answered status response => simp [hanswer, DaemonAnswer.failed] at hfailed
        | missing why =>
          cases why with
          | failed err => exact ⟨err, rfl⟩
          | _ => simp [hanswer, DaemonAnswer.failed] at hfailed
      rw [hanswer]
      refine wp_mono (fun r t ht => ?_) (ih (l := posted) err)
      have ht : t.delivered + _ = l.delivered + (a.delivers l.posts).toNat +
          (a.tries (l.posts + 1) n).countP a.delivers := ht
      omega
    | false =>
      refine wp_mono (fun r t ht => ?_) (wp_afterAnswer hfailed)
      obtain ⟨hgoesOn, rfl⟩ := ht
      rw [hgoesOn, if_neg Bool.false_ne_true]
      show l.delivered + (a.delivers l.posts).toNat + _ = l.delivered + (_ + _)
      cases (a.answer l.posts).unauthorized with
      | true =>
        rw [if_pos rfl, if_pos rfl, countP_single]
        omega
      | false =>
        rw [if_neg Bool.false_ne_true, if_neg Bool.false_ne_true, List.countP_nil]
        omega

theorem wp_keepToken (id recipient : String) (token : Option String) :
    wp (attempt a) anyOutcome (fun _ t => t.delivered = l.delivered) (keepToken id recipient token)
      l := by
  cases token with
  | none => rfl
  | some token =>
    refine wp_anyOutcome_bind fun o => ?_
    rfl

theorem wp_directSend (recipient contextToken : String) :
    wp (attempt a) anyOutcome (fun _ t => t.delivered = l.delivered + (a.delivers 3).toNat)
      (directSend account cmd recipient contextToken) l := by
  refine wp_anyOutcome_bind fun o => ?_
  dsimp only [attempt]
  split
  · rfl
  · refine wp_bind.mpr (wp_mono (fun _ t ht => ?_) (wp_keepToken account.accountId recipient _))
    exact ht

/-- The POSTs and the direct call deliver what the attempts do. -/
theorem wp_sendWith (recipient : String) (chosen : String × TokenOrigin) :
    wp (attempt a) anyOutcome
      (fun _ t => t.delivered = l.delivered + (a.tries l.posts 3).countP a.delivers)
      (sendWith account cmd recipient chosen) l := by
  refine wp_bind.mpr (wp_mono (fun r t ht => ?_) (wp_tryDaemonApiSend 3 ""))
  rw [← ht]
  cases r with
  | ok returned => exact wp_bind.mpr (wp_mono (fun _ _ hkept => hkept) (wp_keepToken _ _ _))
  | error e =>
    show wp _ _ _ (if e.fallsBack then _ else _) t
    by_cases hfalls : e.fallsBack = true
    · have hgoesOn : goesOn (.error e) = true := hfalls
      rw [if_pos hfalls, if_pos hgoesOn]
      exact wp_directSend recipient chosen.1
    · have hgoesOn : ¬ goesOn (.error e) = true := hfalls
      rw [if_neg hfalls, if_neg hgoesOn]
      cases e <;> rfl

theorem pickFrom_eq_none_iff {keys : List String} {n : Nat} : pickFrom keys n = none ↔ keys = [] := by
  unfold pickFrom
  rw [Option.or_eq_none_iff, List.head?_eq_none_iff]
  refine and_iff_right_of_imp fun h => ?_
  rw [h]
  rfl

/-- The command names a recipient, or one can be found. -/
def HasRecipient (account : ProjectWechatAccount) (cmd : SendCommand) (tokens : Tokens) : Prop :=
  match cmd.toPeer with
  | some peer => isBlank peer = false
  | none => tokens.keys ≠ [] ∨ account.userId.isSome

theorem wp_recipientOf (tokens : Tokens) :
    wp (attempt a) anyOutcome
      (fun r t => t = l ∧ (r.toOption.isSome ↔ HasRecipient account cmd tokens))
      (recipientOf account cmd tokens) l := by
  unfold recipientOf HasRecipient
  cases cmd.toPeer with
  | some peer =>
    refine ⟨rfl, ?_⟩
    dsimp only
    cases isBlank peer <;> simp [Except.toOption]
  | none =>
    refine wp_anyOutcome_bind fun o => ?_
    show wp _ _ _ (match (pickFrom tokens.keys o.pick).or account.userId with
      | some peer => _
      | none => _) l
    have hnone : pickFrom tokens.keys o.pick = none ↔ tokens.keys = [] := pickFrom_eq_none_iff
    cases hpick : (pickFrom tokens.keys o.pick).or account.userId with
    | some peer =>
      refine ⟨rfl, iff_of_true rfl ?_⟩
      by_contra hnot
      obtain ⟨hkeys, huser⟩ := not_or.mp hnot
      rw [hnone.mpr (not_not.mp hkeys), Option.none_or] at hpick
      exact huser (by simp [hpick])
    | none =>
      rw [Option.or_eq_none_iff] at hpick
      refine ⟨rfl, iff_of_false Bool.false_ne_true ?_⟩
      simp [hnone.mp hpick.1, hpick.2]

theorem wp_chooseToken (tokens : Tokens) (recipient : String) :
    wp (attempt a) anyOutcome (fun _ t => t = l) (chooseToken cmd tokens recipient) l := by
  unfold chooseToken
  split
  · rfl
  · split
    · rfl
    · refine wp_anyOutcome_bind fun o => ?_
      rfl

/-- A run comes to its first attempt: its first call, which reads the tokens,
works, and there is a recipient. -/
def Starts (account : ProjectWechatAccount) (cmd : SendCommand) (fs : Nat → Outcome) (w : World) :
    Prop :=
  (fs 0).fault = none ∧ HasRecipient account cmd (w.getAll account.accountId)

/-- The rest of a run that has read the tokens. -/
theorem wp_afterTokens (account : ProjectWechatAccount) (cmd : SendCommand) (tokens : Tokens) :
    wp (attempt a) anyOutcome
      (fun _ t => (HasRecipient account cmd tokens →
          t.delivered = l.delivered + (a.tries l.posts 3).countP a.delivers) ∧
        (¬ HasRecipient account cmd tokens → t.delivered = l.delivered))
      (recipientOf account cmd tokens >>= fun
        | .error e => pure (.error e)
        | .ok recipient => do
          let chosen ← chooseToken cmd tokens recipient
          sendWith account cmd recipient chosen) l := by
  refine wp_bind.mpr (wp_mono (fun r t hr => ?_) (wp_recipientOf tokens))
  obtain ⟨rfl, hsome⟩ := hr
  cases r with
  | error e =>
    have hnot : ¬ HasRecipient account cmd tokens := fun h => Bool.false_ne_true (hsome.mpr h)
    exact ⟨fun h => absurd h hnot, fun _ => rfl⟩
  | ok recipient =>
    have hrecipient : HasRecipient account cmd tokens := hsome.mp rfl
    refine wp_bind.mpr (wp_mono (fun chosen u hu => ?_) (wp_chooseToken tokens recipient))
    subst hu
    refine wp_mono (fun _ v hv => ?_) (wp_sendWith recipient chosen)
    exact ⟨fun _ => hv, fun hnot => absurd hrecipient hnot⟩

/-- A run delivers what the attempts do that it makes. -/
theorem deliveries_eq (a : Attempts) (account : ProjectWechatAccount) (cmd : SendCommand)
    (fs : Nat → Outcome) (w : World) :
    (Starts account cmd fs w →
      deliveries a account cmd fs w = (a.tries 0 3).countP a.delivers) ∧
    (¬ Starts account cmd fs w → deliveries a account cmd fs w = 0) := by
  have hrest := play_of_wp (wp_afterTokens (a := a) (l := ⟨w, 0, 0⟩) account cmd
    (w.getAll account.accountId)) fun n => fs (n + 1)
  rw [Nat.zero_add] at hrest
  unfold deliveries Starts runSendWechat call
  rw [play_perform_bind]
  have hread : attempt a ⟨w, 0, 0⟩ (fs 0) (.storeGetAll account.accountId) =
      (match (fs 0).fault with
        | some e => .error e
        | none => .ok (w.getAll account.accountId), ⟨w, 0, 0⟩) := by
    simp only [attempt, handle, statement]
    cases (fs 0).fault <;> rfl
  cases hfault : (fs 0).fault with
  | some e =>
    rw [hfault] at hread
    rw [hread]
    exact ⟨fun h => absurd h.1 (Option.some_ne_none e), fun _ => rfl⟩
  | none =>
    rw [hfault] at hread
    rw [hread]
    exact ⟨fun h => hrest.1 h.2, fun h => hrest.2 fun hrecipient => h ⟨rfl, hrecipient⟩⟩

end Run

section Results

/-- A run of the CLI delivers at most one message exactly when no two of the
attempts that it makes deliver, or it makes none. -/
theorem deliveries_le_one_iff (a : Attempts) (account : ProjectWechatAccount) (cmd : SendCommand)
    (fs : Nat → Outcome) (w : World) : deliveries a account cmd fs w ≤ 1 ↔
      (Starts account cmd fs w →
        ∀ i j, a.Made i → a.Made j → a.delivers i → a.delivers j → i = j) := by
  have hcount := deliveries_eq a account cmd fs w
  by_cases hstarts : Starts account cmd fs w
  · rw [hcount.1 hstarts, imp_iff_right hstarts]
    exact countP_tries_le_one_iff
  · rw [hcount.2 hstarts]
    exact iff_of_true (Nat.zero_le 1) fun h => absurd h hstarts

/-- The answer to the first POST is lost, and the second one is answered. -/
def answerLost : Attempts where
  delivers k := k < 2
  answer k :=
    if k = 0 then .missing (.failed "connection closed before message completed")
    else .answered 200 ⟨true, some "ctx", none⟩
  reply := .noAnswer ""

/-- The POST is made again, and both requests are delivered. -/
theorem not_everyRunDeliversOnce :
    ¬ ∀ (a : Attempts) (account : ProjectWechatAccount) (cmd : SendCommand) (fs : Nat → Outcome)
      (w : World), deliveries a account cmd fs w ≤ 1 := by
  intro h
  have hone := h answerLost ⟨"bot", none⟩ ⟨some "alice", "hello", none⟩ (fun _ => fine) World.init
  exact absurd hone (by decide +kernel)

end Results

end MagicLaw.WeChat
