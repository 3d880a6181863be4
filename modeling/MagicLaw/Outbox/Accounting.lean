import MagicLaw.Outbox.Worker

/-!
# The retry accounting of the outbox

Where nothing crashes and only sends fail, the tables agree with the trace of
what happened to each message (`Accounted`).

* A message that is pending or retrying has failed as often as its
  `retry_count` says since it was enqueued or last replayed, and less often
  than `limit`.
* A message is `dead_letter` when it has failed `limit` times, and exactly then
  it has a dead letter.
* No attempt follows a delivery or the failure number `limit`, until a replay.

Between the calls of an attempt the accounts are right but for its message
(`AccountsBut`), and `AccountsBut.at_id` is the rule for what happens to one
row.
-/

namespace MagicLaw.Outbox

open Lib Lib.Program Lib.Machine

/-! ## The history of a message -/

/-- The outcomes of the attempts to send the message since it was enqueued or
last replayed, the newest first. -/
def history (id : String) : List Event → List Bool
  | [] => []
  | .enqueued id' :: trace => if id' = id then [] else history id trace
  | .replayed id' :: trace => if id' = id then [] else history id trace
  | .attempted id' delivered :: trace =>
    if id' = id then delivered :: history id trace else history id trace

/-- Every attempt was made when there had been failures only, and fewer than
`limit` of them. -/
def AttemptsSound (limit : Nat) : List Event → Prop
  | [] => True
  | .attempted id _ :: trace =>
    (∃ n < limit, history id trace = List.replicate n false) ∧ AttemptsSound limit trace
  | _ :: trace => AttemptsSound limit trace

/-- What a row with this status says about the history of its message. -/
def AccountedAs (limit : Nat) (w : World) (row : OutboxEntry) : OutboxStatus → Prop
  | .pending | .retrying =>
    history row.id w.trace = List.replicate row.retryCount.toNat false ∧
      row.retryCount.toNat < limit
  | .sending => False
  | .sent => ∃ n < limit, history row.id w.trace = true :: List.replicate n false
  | .deadLetter => history row.id w.trace = List.replicate limit false

/-- The tables agree with what happened. -/
structure Accounted (limit : Nat) (w : World) : Prop where
  rows : ∀ id row, w.outbox.find? id = some row → AccountedAs limit w row row.status
  deadLetter : ∀ id, (w.deadLetter.find? id).isSome ↔ HasStatus w id .deadLetter
  attempts : AttemptsSound limit w.trace

/-- The failure on which a message is dead-lettered. -/
def RetryConfig.limit (retry : RetryConfig) : Nat := max 1 retry.maxRetries.toNat

theorem accounted_init (limit : Nat) : Accounted limit World.init := by
  constructor <;> simp [World.init, HasStatus, AttemptsSound]

/-! ## Accounts but for some messages -/

/-- The tables agree with what happened, except that the rows of `busy` ids need
not. -/
structure AccountsBut (busy : String → Prop) (limit : Nat) (w : World) : Prop where
  rows : ∀ id row, w.outbox.find? id = some row → ¬ busy id → AccountedAs limit w row row.status
  deadLetter : ∀ id, ¬ busy id → ((w.deadLetter.find? id).isSome ↔ HasStatus w id .deadLetter)
  attempts : AttemptsSound limit w.trace

theorem accountsBut_false_iff {limit : Nat} {w : World} :
    AccountsBut (fun _ => False) limit w ↔ Accounted limit w :=
  ⟨fun h => ⟨fun id row hrow => h.rows id row hrow not_false, fun id => h.deadLetter id not_false,
      h.attempts⟩,
    fun h => ⟨fun id row hrow _ => h.rows id row hrow, fun id _ => h.deadLetter id, h.attempts⟩⟩

theorem AccountedAs.congr {limit : Nat} {w w' : World} {row : OutboxEntry}
    {status : OutboxStatus} (h : AccountedAs limit w row status)
    (hhistory : history row.id w'.trace = history row.id w.trace) :
    AccountedAs limit w' row status := by
  cases status with
  | sending => exact h
  | pending | retrying | sent | deadLetter =>
    unfold AccountedAs at h ⊢
    rwa [hhistory]

/-- What happens to the row of one id leaves the accounts of the others. -/
theorem AccountsBut.at_id {busy busy' : String → Prop} {limit : Nat} {w w' : World}
    (h : AccountsBut busy limit w) (k : String) {row : OutboxEntry}
    (houtbox : ∀ id, id ≠ k → w'.outbox.find? id = w.outbox.find? id)
    (hdead : ∀ id, id ≠ k → w'.deadLetter.find? id = w.deadLetter.find? id)
    (hhistory : ∀ id, id ≠ k → history id w'.trace = history id w.trace)
    (hattempts : AttemptsSound limit w'.trace) (hbusy : ∀ id, id ≠ k → busy id → busy' id)
    (hrow : w'.outbox.find? k = some row)
    (haccounted : ¬ busy' k → AccountedAs limit w' row row.status)
    (hdeadLetter : ¬ busy' k → ((w'.deadLetter.find? k).isSome ↔ row.status = .deadLetter)) :
    AccountsBut busy' limit w' := by
  refine ⟨fun id r hr hnot => ?_, fun id hnot => ?_, hattempts⟩
  · by_cases hk : id = k
    · subst hk
      rw [hrow, Option.some.injEq] at hr
      exact hr ▸ haccounted hnot
    · rw [houtbox id hk] at hr
      refine (h.rows id r hr fun hb => hnot (hbusy id hk hb)).congr (hhistory r.id ?_)
      rwa [KeyedTable.key_of_find? hr]
  · by_cases hk : id = k
    · subst hk
      refine (hdeadLetter hnot).trans ⟨fun hstatus => ⟨row, hrow, hstatus⟩, ?_⟩
      rintro ⟨r, hr, hstatus⟩
      rw [hrow, Option.some.injEq] at hr
      exact hr ▸ hstatus
    · unfold HasStatus
      rw [hdead id hk, houtbox id hk]
      exact h.deadLetter id fun hb => hnot (hbusy id hk hb)

/-- A message starts over: its row is pending and counts no failure, and it
has no dead letter. -/
theorem AccountsBut.startOver {busy busy' : String → Prop} {limit : Nat} {w w' : World}
    (h : AccountsBut busy limit w) (hlimit : 0 < limit) {k : String} {row : OutboxEntry}
    (houtbox : ∀ id, id ≠ k → w'.outbox.find? id = w.outbox.find? id)
    (hdead : ∀ id, id ≠ k → w'.deadLetter.find? id = w.deadLetter.find? id)
    (hbusy : ∀ id, id ≠ k → busy id → busy' id) (hrow : w'.outbox.find? k = some row)
    (hstatus : row.status = .pending) (hcount : row.retryCount = 0)
    (hfree : ¬ busy' k → w'.deadLetter.find? k = none)
    (htrace : w'.trace = .enqueued k :: w.trace ∨ w'.trace = .replayed k :: w.trace) :
    AccountsBut busy' limit w' := by
  refine h.at_id k houtbox hdead (fun id hid => ?_) ?_ hbusy hrow (fun _ => ?_) (fun hnot => ?_)
  · rcases htrace with ht | ht <;> rw [ht, history, if_neg (Ne.symm hid)]
  · rcases htrace with ht | ht <;> rw [ht] <;> exact h.attempts
  · have hself : history row.id w'.trace = [] := by
      rw [KeyedTable.key_of_find? hrow]
      rcases htrace with ht | ht <;> rw [ht, history, if_pos rfl]
    rw [hstatus]
    show history row.id w'.trace = List.replicate row.retryCount.toNat false ∧ _
    rw [hself, hcount]
    exact ⟨rfl, hlimit⟩
  · rw [hfree hnot, hstatus]
    decide

/-! ### Messages that are enqueued -/

/-- A row that is there keeps its history. -/
theorem history_enqueueNew {w : World} {new : NewMessage} {id : String} {row : OutboxEntry}
    (hrow : w.outbox.find? id = some row) :
    history id (w.enqueueNew new).trace = history id w.trace := by
  rcases trace_enqueueNew_cases w new with htrace | ⟨hnone, htrace⟩
  · rw [htrace]
  · have hne : new.id ≠ id := by
      rintro rfl
      rw [hrow] at hnone
      cases hnone
    rw [htrace]
    exact if_neg hne

theorem stable_accountsBut (busy : String → Prop) {limit : Nat} (hlimit : 0 < limit) :
    Stable World.enqueueNew (AccountsBut busy limit) := by
  intro new w h
  have hfind : ∀ id, (w.enqueueNew new).outbox.find? id =
      if id = new.id then some ((w.outbox.find? id).getD _) else w.outbox.find? id :=
    fun id => KeyedTable.find?_insertOrIgnore w.outbox
      (OutboxEntry.new new.id new.routeKey new.payload new.nowTs) id
  have hne : ∀ id, id ≠ new.id → (w.enqueueNew new).outbox.find? id = w.outbox.find? id :=
    fun id hid => (hfind id).trans (if_neg hid)
  cases hold : w.outbox.find? new.id with
  | some row =>
    -- the insert is ignored
    have htrace : (w.enqueueNew new).trace = w.trace := by
      simp [World.enqueueNew, World.enqueue, OutboxEntry.new, hold]
    refine h.at_id new.id hne (fun _ _ => rfl) (fun _ _ => by rw [htrace]) (htrace ▸ h.attempts)
      (fun _ _ hb => hb) (find?_enqueueNew_of_eq_some hold) (fun hn => ?_) (fun hn => ?_)
    · exact (h.rows new.id row hold hn).congr (by rw [htrace])
    · refine (h.deadLetter new.id hn).trans ⟨?_, fun hstatus => ⟨row, hold, hstatus⟩⟩
      rintro ⟨r, hr, hstatus⟩
      rw [hold, Option.some.injEq] at hr
      exact hr ▸ hstatus
  | none =>
    have hself := hfind new.id
    rw [if_pos rfl, hold, Option.getD_none] at hself
    refine h.startOver hlimit hne (fun _ _ => rfl) (fun _ _ hb => hb) hself rfl rfl (fun hn => ?_)
      (.inl ?_)
    · show w.deadLetter.find? new.id = none
      rw [← Option.not_isSome_iff_eq_none, h.deadLetter new.id hn]
      rintro ⟨r, hr, -⟩
      rw [hold] at hr
      cases hr
    · simp [World.enqueueNew, World.enqueue, OutboxEntry.new, hold]

theorem stable_accounted {limit : Nat} (hlimit : 0 < limit) :
    Stable World.enqueueNew (Accounted limit) := fun new w h =>
  accountsBut_false_iff.mp
    (stable_accountsBut _ hlimit new w (accountsBut_false_iff.mpr h))

/-! ## The entries of a tick -/

theorem RetryConfig.limit_pos (retry : RetryConfig) : 0 < retry.limit := by
  unfold RetryConfig.limit
  omega

/-- A tick still holds `entries`, as they stand in the table, and the accounts are
right but for the `busy` ids. -/
structure Holding (busy : String → Prop) (limit : Nat) (entries : List OutboxEntry) (w : World) :
    Prop where
  accounts : AccountsBut busy limit w
  nodup : (entries.map OutboxEntry.id).Nodup
  rows : ∀ entry ∈ entries, w.outbox.find? entry.id = some entry ∧ entry.Waits

/-- `entry` is being attempted: its row has this status, and these are the
outcomes of its attempts. -/
structure Underway (limit : Nat) (entry : OutboxEntry) (entries : List OutboxEntry)
    (status : OutboxStatus) (outcomes : List Bool) (w : World) : Prop where
  holding : Holding (fun id => id = entry.id) limit entries w
  notMem : entry.id ∉ entries.map OutboxEntry.id
  status : HasStatus w entry.id status
  free : w.deadLetter.find? entry.id = none
  outcomes : history entry.id w.trace = outcomes

theorem stable_holding (busy : String → Prop) {limit : Nat} (hlimit : 0 < limit)
    (entries : List OutboxEntry) : Stable World.enqueueNew (Holding busy limit entries) :=
  fun new w h => ⟨stable_accountsBut busy hlimit new w h.accounts, h.nodup, fun entry hentry =>
    ⟨find?_enqueueNew_of_eq_some (h.rows entry hentry).1, (h.rows entry hentry).2⟩⟩

theorem stable_underway {limit : Nat} (hlimit : 0 < limit) (entry : OutboxEntry)
    (entries : List OutboxEntry) (status : OutboxStatus) (outcomes : List Bool) :
    Stable World.enqueueNew (Underway limit entry entries status outcomes) := by
  intro new w h
  obtain ⟨row, hrow, -⟩ := h.status
  exact ⟨stable_holding _ hlimit entries new w h.holding, h.notMem,
    stable_hasStatus _ status new w h.status, h.free, (history_enqueueNew hrow).trans h.outcomes⟩

section Underway

variable {limit : Nat} {entry : OutboxEntry} {entries : List OutboxEntry} {status : OutboxStatus}
  {outcomes : List Bool} {w : World}

/-- What a tick holds has failed as often as its count says, and has no dead
letter. -/
theorem Holding.start (h : Holding (fun _ => False) limit (entry :: entries) w) :
    entry.retryCount.toNat < limit ∧ Underway limit entry entries entry.status
      (List.replicate entry.retryCount.toNat false) w := by
  obtain ⟨hnotMem, hnodup⟩ := List.nodup_cons.mp h.nodup
  obtain ⟨hrow, hwaits⟩ := h.rows entry List.mem_cons_self
  have haccounted := accountsBut_false_iff.mp h.accounts
  have hrows : ∀ e ∈ entries, w.outbox.find? e.id = some e ∧ e.Waits :=
    fun e he => h.rows e (List.mem_cons_of_mem _ he)
  have hfree : w.deadLetter.find? entry.id = none := by
    rw [← Option.not_isSome_iff_eq_none, haccounted.deadLetter]
    rintro ⟨row, hrow', hdead⟩
    rw [hrow, Option.some.injEq] at hrow'
    subst hrow'
    rcases hwaits with hs | hs <;> rw [hs] at hdead <;> exact absurd hdead (by decide)
  obtain ⟨hhistory, hlt⟩ : history entry.id w.trace =
      List.replicate entry.retryCount.toNat false ∧ entry.retryCount.toNat < limit := by
    have hentry := haccounted.rows entry.id entry hrow
    rcases hwaits with hs | hs <;> rwa [hs] at hentry
  refine ⟨hlt, ⟨⟨?_, ?_, haccounted.attempts⟩, hnodup, hrows⟩, hnotMem, ⟨entry, hrow, rfl⟩, hfree,
    hhistory⟩
  · exact fun id row hrow _ => haccounted.rows id row hrow
  · exact fun id _ => haccounted.deadLetter id

/-- An update of the row of `entry`, which may settle it. -/
theorem Underway.update (h : Underway limit entry entries status outcomes w)
    {busy : String → Prop} {f : OutboxEntry → OutboxEntry} (hf : ∀ row, (f row).id = row.id)
    (haccounted : ∀ row, row.id = entry.id → ¬ busy entry.id →
      AccountedAs limit w (f row) (f row).status ∧ (f row).status ≠ .deadLetter) :
    Holding busy limit entries (w.updateRow entry.id f hf) := by
  obtain ⟨row, hrow, -⟩ := h.status
  have hid : row.id = entry.id := KeyedTable.key_of_find? hrow
  have hne : ∀ id, id ≠ entry.id →
      (w.updateRow entry.id f hf).outbox.find? id = w.outbox.find? id :=
    fun id hid => find?_updateRow_of_ne w entry.id f hf hid
  refine ⟨?_, h.holding.nodup, fun e he => ?_⟩
  · refine h.holding.accounts.at_id entry.id hne (fun _ _ => rfl) (fun _ _ => rfl)
      h.holding.accounts.attempts (fun _ hid hb => (hid hb).elim)
      (find?_updateRow_self w entry.id f hf hrow) (fun hn => (haccounted row hid hn).1)
      (fun hn => ?_)
    show (w.deadLetter.find? entry.id).isSome ↔ _
    rw [h.free]
    exact iff_of_false (by decide) (haccounted row hid hn).2
  · have hid : e.id ≠ entry.id := fun heq => h.notMem (heq ▸ List.mem_map_of_mem he)
    rw [hne e.id hid]
    exact h.holding.rows e he

/-- The status changes while the attempt goes on. -/
theorem Underway.mark (h : Underway limit entry entries status outcomes w)
    {f : OutboxEntry → OutboxEntry} (hf : ∀ row, (f row).id = row.id) {status' : OutboxStatus}
    (hstatus : ∀ row, (f row).status = status') :
    Underway limit entry entries status' outcomes (w.updateRow entry.id f hf) := by
  obtain ⟨row, hrow, -⟩ := h.status
  exact ⟨h.update hf fun _ _ hn => absurd rfl hn, h.notMem,
    ⟨f row, find?_updateRow_self w entry.id f hf hrow, hstatus row⟩, h.free, h.outcomes⟩

theorem Underway.attempted {n : Nat}
    (h : Underway limit entry entries status (List.replicate n false) w) (hlt : n < limit)
    (delivered : Bool) :
    Underway limit entry entries status (delivered :: List.replicate n false)
      { w with trace := .attempted entry.id delivered :: w.trace } := by
  obtain ⟨row, hrow, -⟩ := h.status
  refine ⟨⟨?_, h.holding.nodup, h.holding.rows⟩, h.notMem, h.status, h.free, ?_⟩
  · exact h.holding.accounts.at_id entry.id (fun _ _ => rfl) (fun _ _ => rfl)
      (fun _ hid => if_neg (Ne.symm hid)) ⟨⟨n, hlt, h.outcomes⟩, h.holding.accounts.attempts⟩
      (fun _ _ hb => hb) hrow (fun hn => absurd rfl hn) (fun hn => absurd rfl hn)
  · exact (if_pos rfl).trans (congrArg _ h.outcomes)

/-- The dead letter is inserted after the last failure. -/
theorem Underway.insertDeadLetter
    (h : Underway limit entry entries .deadLetter (List.replicate limit false) w)
    {dlEntry : DeadLetterEntry} (hid : dlEntry.id = entry.id)
    (hfree : w.deadLetter.find? dlEntry.id = none) :
    Holding (fun _ => False) limit entries
      { w with deadLetter := w.deadLetter.append dlEntry hfree } := by
  obtain ⟨row, hrow, hdead⟩ := h.status
  refine ⟨?_, h.holding.nodup, h.holding.rows⟩
  refine h.holding.accounts.at_id entry.id (fun _ _ => rfl) (fun id hne => ?_) (fun _ _ => rfl)
    h.holding.accounts.attempts (fun _ hne hb => hne hb) hrow (fun _ => ?_) (fun _ => ?_)
  · show (w.deadLetter.append dlEntry hfree).find? id = w.deadLetter.find? id
    rw [KeyedTable.find?_append, hid, if_neg hne]
  · rw [hdead]
    show history row.id w.trace = List.replicate limit false
    rw [KeyedTable.key_of_find? hrow]
    exact h.outcomes
  · refine iff_of_true ?_ hdead
    show ((w.deadLetter.append dlEntry hfree).find? entry.id).isSome
    rw [KeyedTable.find?_append, hid, if_pos rfl]
    rfl

theorem Holding.record {busy : String → Prop} (h : Holding busy limit entries w)
    (audit : List (Option String × String × String)) :
    Holding busy limit entries { w with audit := audit } :=
  ⟨⟨h.accounts.rows, h.accounts.deadLetter, h.accounts.attempts⟩, h.nodup, h.rows⟩

end Underway

/-- The count of a message that waits does not overflow. -/
theorem RetryConfig.toNat_succ {retry : RetryConfig} {retryCount : UInt32}
    (h : retryCount.toNat < retry.limit) : (retryCount + 1).toNat = retryCount.toNat + 1 := by
  have hmax := retry.maxRetries.toNat_lt
  unfold RetryConfig.limit at h
  rw [UInt32.toNat_add]
  simp only [UInt32.reduceToNat]
  omega

/-- The failure that dead-letters is number `limit`. -/
theorem RetryConfig.limit_eq_iff {retry : RetryConfig} {retryCount : UInt32}
    (h : retryCount.toNat < retry.limit) :
    retry.maxRetries ≤ retryCount + 1 ↔ retry.limit = retryCount.toNat + 1 := by
  rw [UInt32.le_iff_toNat_le, RetryConfig.toNat_succ h]
  unfold RetryConfig.limit at h ⊢
  omega

/-! ## Faults -/

/-- No call fails but a send, and nothing crashes. -/
def sendsMayFail : Faults Call World Outcome where
  allowed call o := o.fault = none ∨ call.isSend = true
  mayCrash _ := False
  atCrash _ := False

instance (s : Process) : (a : Action) → Decidable (Meets sendsMayFail s a)
  | .call o => inferInstanceAs (Decidable (∀ c ∈ s.phase.nextCall?, o.fault = none ∨ c.isSend = true))
  | .crash => isFalse not_false
  | .enqueue _ _ _ _ | .startPending _ | .startRetries _ | .startReplay _ | .finish | .restart =>
    isTrue trivial

theorem works_unless_send {call : Call} {o : Outcome} (h : sendsMayFail.allowed call o)
    (hcall : call.isSend = false) {e : String} (he : o.fault = some e) : False := by
  rcases h with h | h
  · rw [h] at he
    exact absurd he (by simp)
  · rw [hcall] at h
    exact absurd h (by simp)

section Deliver

variable {retry : RetryConfig} {entry : OutboxEntry} {entries : List OutboxEntry} {w : World}

theorem accounts_record {routeKey : Option String} {action result : String}
    (h : Holding (fun _ => False) retry.limit entries w) :
    wp sharing sendsMayFail.amid (fun _ w' => Holding (fun _ => False) retry.limit entries w')
      (record routeKey action result) w := by
  refine wp_amid fun news => ?_
  replace h := (stable_holding _ retry.limit_pos entries).moved news h
  exact wp_record False.elim (h.record _)

theorem accounts_moveToDeadLetter {newCount : UInt32} {err : String}
    (h : Underway retry.limit entry entries .sending (List.replicate retry.limit false) w) :
    wp sharing sendsMayFail.amid (fun _ w' => Holding (fun _ => False) retry.limit entries w')
      (moveToDeadLetter entry newCount err) w := by
  have hstable := stable_underway retry.limit_pos entry entries .deadLetter
    (List.replicate retry.limit false)
  unfold moveToDeadLetter
  rw [wp_bind]
  refine wp_amid fun news => ?_
  replace h := (stable_underway retry.limit_pos entry entries _ _).moved news h
  refine wp_markStatus False.elim ?_ fun seconds => ?_
  · intro o e ho he
    exact (works_unless_send ho rfl he).elim
  replace h := h.mark (OutboxEntry.setStatus_id .deadLetter (some err) seconds) fun _ => rfl
  rw [wp_bind]
  refine wp_amid fun news' => ?_
  replace h := hstable.moved news' h
  refine wp_timestamp False.elim fun now => ?_
  rw [wp_bind]
  refine wp_amid fun news'' => ?_
  replace h := hstable.moved news'' h
  refine wp_insertDeadLetter False.elim h.free ?_ ?_
  · intro o e ho he
    exact (works_unless_send ho rfl he).elim
  exact accounts_record (h.insertDeadLetter rfl h.free)

theorem accounts_scheduleRetry {err : String} (hlt : entry.retryCount.toNat + 1 < retry.limit)
    (h : Underway retry.limit entry entries .sending
      (List.replicate (entry.retryCount.toNat + 1) false) w) :
    wp sharing sendsMayFail.amid (fun _ w' => Holding (fun _ => False) retry.limit entries w')
      (scheduleRetry retry entry (entry.retryCount + 1) err) w := by
  have hstable := stable_underway retry.limit_pos entry entries .sending
    (List.replicate (entry.retryCount.toNat + 1) false)
  unfold scheduleRetry
  rw [wp_bind]
  refine wp_amid fun news => ?_
  replace h := hstable.moved news h
  refine wp_timestampMillis False.elim fun now => ?_
  rw [wp_bind]
  refine wp_amid fun news' => ?_
  replace h := hstable.moved news' h
  refine wp_markRetrying False.elim ?_ fun seconds => ?_
  · intro o e ho he
    exact (works_unless_send ho rfl he).elim
  refine accounts_record (h.update _ fun row hid _ => ⟨?_, by simp [OutboxEntry.setRetrying]⟩)
  have hsucc := RetryConfig.toNat_succ (Nat.lt_of_succ_lt hlt)
  show history row.id _ = List.replicate (entry.retryCount + 1).toNat false ∧
    (entry.retryCount + 1).toNat < retry.limit
  rw [hid, hsucc]
  exact ⟨h.outcomes, hlt⟩

/-- Where every call but the send works, one round of the loops is one
attempt. -/
theorem accounts_deliver (h : Holding (fun _ => False) retry.limit (entry :: entries) w) :
    wp sharing sendsMayFail.amid (fun _ w' => Holding (fun _ => False) retry.limit entries w')
      (deliver retry entry) w := by
  unfold deliver
  rw [wp_bind]
  refine wp_amid fun news => ?_
  replace h := (stable_holding _ retry.limit_pos (entry :: entries)).moved news h
  obtain ⟨hlt, h⟩ := h.start
  refine wp_markStatus False.elim ?_ fun seconds => ?_
  · intro o e ho he
    exact (works_unless_send ho rfl he).elim
  replace h := h.mark (OutboxEntry.setStatus_id .sending none seconds) fun _ => rfl
  rw [wp_bind]
  refine wp_amid fun news' => ?_
  replace h := (stable_underway retry.limit_pos entry entries .sending _).moved news' h
  refine wp_send False.elim (fun err => ?_) ?_
  · have hfailed := h.attempted hlt false
    show wp sharing sendsMayFail.amid _ (if retry.maxRetries ≤ entry.retryCount + 1 then
      moveToDeadLetter entry (entry.retryCount + 1) err
      else scheduleRetry retry entry (entry.retryCount + 1) err) _
    rw [← List.replicate_succ] at hfailed
    by_cases hlast : retry.maxRetries ≤ entry.retryCount + 1
    · rw [if_pos hlast]
      rw [← (RetryConfig.limit_eq_iff hlt).mp hlast] at hfailed
      exact accounts_moveToDeadLetter hfailed
    · rw [if_neg hlast]
      rw [RetryConfig.limit_eq_iff hlt] at hlast
      exact accounts_scheduleRetry (by omega) hfailed
  · have hsent := h.attempted hlt true
    rw [wp_bind]
    refine wp_amid fun news'' => ?_
    replace hsent := (stable_underway retry.limit_pos entry entries .sending _).moved news'' hsent
    refine wp_markStatus False.elim ?_ fun seconds' => ?_
    · intro o e ho he
      exact (works_unless_send ho rfl he).elim
    refine accounts_record (hsent.update _ fun row hid _ => ⟨?_, by simp [OutboxEntry.setStatus]⟩)
    show ∃ n < retry.limit, history row.id _ = true :: List.replicate n false
    rw [hid]
    exact ⟨_, hlt, hsent.outcomes⟩

end Deliver

/-! ## Ticks -/

section Ticks

variable {retry : RetryConfig} {entries : List OutboxEntry} {w : World}

theorem accounts_forEach (h : Holding (fun _ => False) retry.limit entries w) :
    wp sharing sendsMayFail.amid (fun _ w' => Accounted retry.limit w')
      (.forEach (deliver retry) entries) w := by
  have hbody : ∀ e es w', Holding (fun _ => False) retry.limit (e :: es) w' →
      wp sharing sendsMayFail.amid (fun _ => Holding (fun _ => False) retry.limit es)
        (deliver retry e) w' :=
    fun _ _ _ => accounts_deliver
  exact wp_mono (fun _ _ hdone => accountsBut_false_iff.mp hdone.accounts)
    (wp_forEach hbody entries h)

theorem Accounted.holding {limit : Nat} (h : Accounted limit w) {rows : List OutboxEntry}
    (batchSize : UInt64) (hnodup : (rows.map OutboxEntry.id).Nodup)
    (hrows : ∀ row ∈ rows, w.outbox.find? row.id = some row ∧ row.Waits) :
    Holding (fun _ => False) limit (limitRows batchSize rows) w :=
  ⟨accountsBut_false_iff.mpr h, nodup_limitRows hnodup,
    fun row hrow => hrows row (mem_limitRows hrow)⟩

theorem accounts_processPending (batchSize : UInt64) (h : Accounted retry.limit w) :
    wp sharing sendsMayFail.amid (fun _ w' => Accounted retry.limit w')
      (processPending retry batchSize) w := by
  unfold processPending
  rw [wp_bind]
  refine wp_amid fun news => ?_
  replace h := (stable_accounted retry.limit_pos).moved news h
  refine wp_fetchPending False.elim (fun _ => h) ?_
  refine accounts_forEach (h.holding batchSize (nodup_orderedSelect _ _ _) fun row hrow => ?_)
  obtain ⟨hfind, hstatus⟩ := mem_orderedSelect.mp hrow
  exact ⟨hfind, Or.inl (by simpa using hstatus)⟩

theorem accounts_processRetries (batchSize : UInt64) (h : Accounted retry.limit w) :
    wp sharing sendsMayFail.amid (fun _ w' => Accounted retry.limit w')
      (processRetries retry batchSize) w := by
  unfold processRetries
  rw [wp_bind]
  refine wp_amid fun news => ?_
  replace h := (stable_accounted retry.limit_pos).moved news h
  refine wp_timestampMillis False.elim fun nowTs => ?_
  rw [wp_bind]
  refine wp_amid fun news' => ?_
  replace h := (stable_accounted retry.limit_pos).moved news' h
  refine wp_fetchRetryable False.elim (fun _ => h) ?_
  refine accounts_forEach (h.holding batchSize (nodup_orderedSelect _ _ _) fun row hrow => ?_)
  obtain ⟨hfind, hstatus⟩ := mem_orderedSelect.mp hrow
  rw [Bool.and_eq_true] at hstatus
  exact ⟨hfind, Or.inr (by simpa using hstatus.1)⟩

end Ticks

/-! ## The replay -/

/-- The dead letter of the message is gone, and its row is still there. -/
structure ReplayBegun (limit : Nat) (id : String) (row : OutboxEntry) (w : World) : Prop where
  accounts : AccountsBut (fun id' => id' = id) limit w
  row : w.outbox.find? id = some row
  free : w.deadLetter.find? id = none

theorem stable_replayBegun {limit : Nat} (hlimit : 0 < limit) (id : String) (row : OutboxEntry) :
    Stable World.enqueueNew (ReplayBegun limit id row) := fun new w h =>
  ⟨stable_accountsBut _ hlimit new w h.accounts, find?_enqueueNew_of_eq_some h.row, h.free⟩

theorem Accounted.delete {limit : Nat} {w : World} (h : Accounted limit w) {id : String}
    {row : OutboxEntry} (hrow : w.outbox.find? id = some row) :
    ReplayBegun limit id row { w with deadLetter := w.deadLetter.delete id } := by
  refine ⟨⟨fun id' r hr _ => h.rows id' r hr, fun id' hne => ?_, h.attempts⟩, hrow, ?_⟩
  · show ((w.deadLetter.delete id).find? id').isSome ↔ _
    rw [KeyedTable.find?_delete, if_neg hne]
    exact h.deadLetter id'
  · exact (KeyedTable.find?_delete w.deadLetter id id).trans (if_pos rfl)

theorem accounts_requeue {retry : RetryConfig} {w : World} {id payload : String}
    {row : OutboxEntry} (h : ReplayBegun retry.limit id row w) :
    wp sharing sendsMayFail.amid (fun _ w' => Accounted retry.limit w') (requeue id payload) w := by
  have hstable := stable_replayBegun retry.limit_pos id row
  unfold requeue
  rw [wp_bind]
  refine wp_amid fun news => ?_
  replace h := hstable.moved news h
  refine wp_timestamp False.elim fun now => ?_
  rw [wp_bind]
  refine wp_amid fun news' => ?_
  replace h := hstable.moved news' h
  refine wp_selectRouteKey False.elim ?_ ?_
  · intro o e ho he
    exact (works_unless_send ho rfl he).elim
  rw [h.row, Option.map_some]
  show wp sharing sendsMayFail.amid _ (resetForReplay id payload now >>= _) _
  rw [wp_bind]
  refine wp_amid fun news'' => ?_
  replace h := hstable.moved news'' h
  refine wp_resetForReplay False.elim ?_ ?_
  · intro o e ho he
    exact (works_unless_send ho rfl he).elim
  have hf := OutboxEntry.reset_id payload now
  exact accountsBut_false_iff.mp (h.accounts.startOver retry.limit_pos
    (fun _ hne => find?_updateRow_of_ne _ id _ hf hne) (fun _ _ => rfl) (fun _ hne hb => hne hb)
    (find?_updateRow_self _ id _ hf h.row) rfl rfl (fun _ => h.free) (.inr rfl))

theorem stable_rowOf {limit : Nat} (hlimit : 0 < limit) (id : String) (row : OutboxEntry) :
    Stable World.enqueueNew fun w => Accounted limit w ∧ w.outbox.find? id = some row :=
  fun new w h => ⟨stable_accounted hlimit new w h.1, find?_enqueueNew_of_eq_some h.2⟩

theorem accounts_replay {retry : RetryConfig} {w : World} (h : Accounted retry.limit w)
    (id : String) :
    wp sharing sendsMayFail.amid (fun _ w' => Accounted retry.limit w') (replay id) w := by
  unfold replay
  rw [wp_bind]
  refine wp_amid fun news => ?_
  replace h := (stable_accounted retry.limit_pos).moved news h
  refine wp_selectDeadLetter False.elim (fun _ => h) fun entry hentry => ?_
  obtain ⟨row, hrow, _⟩ := (h.deadLetter id).mp (by rw [hentry]; rfl)
  rw [wp_bind]
  refine wp_amid fun news' => ?_
  obtain ⟨h, hrow⟩ := (stable_rowOf retry.limit_pos id row).moved news' ⟨h, hrow⟩
  refine wp_deleteDeadLetter False.elim (fun _ => h) ?_
  exact accounts_requeue (h.delete hrow)

/-! ## Runs -/

theorem keeps_accounted (retry : RetryConfig) :
    Keeps retry sendsMayFail (Accounted retry.limit) where
  atCrash hcrash := hcrash.elim
  enqueue := stable_accounted retry.limit_pos
  crashed _ _ hcrash := hcrash
  pending batchSize _ h := accounts_processPending batchSize h
  retries batchSize _ h := accounts_processRetries batchSize h
  replay id _ h := accounts_replay h id
  recover _ hcrash := hcrash.elim

/-- In a run without crashes whose storage calls all work, the tables agree
with what happened to each message, whatever the sends returned. -/
theorem retries_accounted (retry : RetryConfig) {actions : List Action} {s : Process}
    (hrun : run (Process.step retry) Process.init actions = some s)
    (hworks : EveryStep (Process.step retry) (Meets sendsMayFail) Process.init actions)
    (hidle : s.phase.isIdle = true) : Accounted (max 1 retry.maxRetries.toNat) s.world :=
  run_keeps (keeps_accounted retry) (accounted_init retry.limit) hrun hworks hidle

/-- Two failures, a dead letter, its replay, and a delivery.  A second message is
enqueued during the first tick, and is delivered in the last one. -/
def deadLetteredAndReplayed : List Action :=
  [.enqueue "m1" "wechat/c1" "hi" 1700000000,
    .startPending 64, .call works, .enqueue "m2" "wechat/c2" "hello" 1700000001, .call works,
    .call (fails "timeout"), .call works, .call works, .call works,
    .startRetries 64, .call (.working 1700000060 1700000060000), .call works, .call works,
    .call (fails "timeout"), .call works, .call works, .call works, .call works,
    .startReplay "m1", .call works, .call works, .call works, .call works, .call works, .finish,
    .startPending 64, .call works, .call works, .call works, .call works, .call works,
    .call works, .call works, .call works, .call works]

theorem deadLetteredAndReplayed_accounted :
    Accounted 2 ((run (Process.step { fiveRetries with maxRetries := 2 }) Process.init
      deadLetteredAndReplayed).get (by decide +kernel)).world :=
  retries_accounted { fiveRetries with maxRetries := 2 } (Option.some_get _).symm
    (by decide +kernel) (by decide +kernel)

end MagicLaw.Outbox
