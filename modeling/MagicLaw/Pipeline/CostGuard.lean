import Mathlib.Algebra.Order.BigOperators.Group.List
import Mathlib.Algebra.Order.Ring.Nat
import MagicLaw.Lib.Spacing
import MagicLaw.Pipeline.Flights
import MagicLaw.Pipeline.Replies

/-!
# The interval between calls to paid backends

Whether the calls of a conversation to the backends other than `echo` are the
configured interval apart.  The rate limit is in the chain when the configured
backend is not `echo`, and then they are (`limited_run`).  Without it they are
if no message is ever served by another backend (`unpaid_run`), and otherwise
two messages can reach one at once (`not_costGuarded_of_paid`).
-/

namespace MagicLaw.Pipeline

open Lib Lib.Stages Lib.Machine Lib.Spacing
open Lib.Text (trim)
open MagicLaw.Routing (RouteKey Message MessageContent)

/-- The interval of the rate limit in nanoseconds. -/
def AppConfig.gap (config : AppConfig) : Nat := config.ai.rateLimitMinIntervalMs.toNat * 1000000

/-- The routes share a conversation. -/
def SameConversation (a b : RouteKey) : Prop := a.channel = b.channel ∧ scope a = scope b

/-- Two calls of one conversation to paid backends are the interval apart. -/
def KeepApart (config : AppConfig) (a b : BackendCall) : Prop :=
  SameConversation a.routeKey b.routeKey → a.backend ≠ .echo → b.backend ≠ .echo →
    a.passedAt + config.gap ≤ b.passedAt ∨ b.passedAt + config.gap ≤ a.passedAt

/-- In every run, from whatever the database holds at the start, any two calls
keep apart. -/
def CostGuarded (config : AppConfig) : Prop :=
  ∀ serde preferences database acts t,
    Machine.run (Traffic.step config serde) (.init preferences database) acts = some t →
      t.shared.calls.Pairwise (KeepApart config)

/-! ## What the segments leave alone -/

section Segments

variable {config : AppConfig} {serde : SerdeText} {env : Surroundings}

theorem agentCommandProcess_keeps (ctx : PipelineContext) (s : PipelineState) :
    (agentCommandProcess config.agent env ctx s).2.windows = s.windows ∧
      (agentCommandProcess config.agent env ctx s).2.calls = s.calls := by
  by_cases htext : ∃ text, ctx.message.content = .text text
  · obtain ⟨text, htext⟩ := htext
    obtain ⟨preferences, hkeeps⟩ :=
      handleCommand_keeps config.agent env ctx s (parse config.agent.parser text)
    rw [agentCommandProcess_of_text htext, hkeeps]
    exact ⟨rfl, rfl⟩
  · rw [agentCommandProcess_of_not_text fun text h => htext ⟨text, h⟩]
    exact ⟨rfl, rfl⟩

/-- The delivery changes nothing but the outbox. -/
theorem outboxProcess_keeps (ctx : PipelineContext) (s : PipelineState) :
    ∃ database, (outboxProcess serde env ctx s).2 = { s with database := database } := by
  unfold outboxProcess
  repeat' split
  all_goals exact ⟨_, rfl⟩

theorem run_delivery_keeps (serde : SerdeText) (env : Surroundings) (ctx : PipelineContext)
    (s : PipelineState) :
    ∃ database, (runPipeline [formatter, outboxStage serde env] ctx s).2 =
      { s with database := database } := by
  have hstage : ∀ stage ∈ [formatter, outboxStage serde env], ∀ c s',
      (∃ database, s' = { s with database := database }) →
        ∃ database, (stage.process c s').2 = { s with database := database } := by
    intro stage hstage c s' hexists
    obtain ⟨database, rfl⟩ := hexists
    rcases List.mem_cons.mp hstage with rfl | hstage
    · refine ⟨database, ?_⟩
      unfold formatter
      dsimp only
      split <;> rfl
    · rw [List.mem_singleton.mp hstage]
      exact outboxProcess_keeps c _
  exact run_keeps hstage ctx ⟨s.database, rfl⟩

/-- The AI makes the call to the backend that serves the message, or none. -/
theorem aiProcess_spec (config : AppConfig) (serde : SerdeText) (env : Surroundings)
    (ctx : PipelineContext) (s : PipelineState) :
    ∃ c s', aiProcess config.ai serde env ctx s = (.ok c, s') ∧
      c.userAgentSelection = ctx.userAgentSelection ∧ s'.windows = s.windows ∧
      (s'.calls = s.calls ∨ s'.calls =
        ⟨ctx.message.routeKey, selectBackend config.ai ctx.userAgentSelection, env.passedAt⟩ ::
          s.calls) := by
  by_cases htext : ∃ text, ctx.message.content = .text text
  · obtain ⟨text, htext⟩ := htext
    obtain ⟨c, s', -, hai, -, -, hselection, -, hwindows, -, hcalls⟩ :=
      aiProcess_of_text serde env s config.ai htext
    refine ⟨c, s', hai, hselection, hwindows, ?_⟩
    unfold recordCall at hcalls
    cases hrefusal : env.refusal with
    | some e =>
      rw [hrefusal] at hcalls
      exact .inl hcalls
    | none =>
      rw [hrefusal] at hcalls
      exact .inr hcalls
  · exact ⟨ctx, s, aiProcess_of_not_text serde env s config.ai fun text h => htext ⟨text, h⟩,
      rfl, rfl, .inl rfl⟩

theorem rateLimit_process (minIntervalMs : UInt64) (env : Surroundings) (ctx : PipelineContext)
    (s : PipelineState) :
    ∃ c, (rateLimit minIntervalMs env).process ctx s = (.ok c, { s with
        windows := Function.update s.windows (windowKey ctx.message.routeKey)
          (some env.passedAt) }) ∧
      c.message = ctx.message ∧
      c.shortCircuit = (ctx.shortCircuit || tooSoon minIntervalMs
        (s.windows (windowKey ctx.message.routeKey)) env.checkedAt) :=
  ⟨_, rfl, rfl, rfl⟩

/-- The rate limit is what the guards do. -/
theorem run_guards_of_paid (hpaid : config.ai.backend ≠ "echo") (ctx : PipelineContext)
    (s : PipelineState) :
    runPipeline (guards config env) ctx s =
      if ctx.shortCircuit then (.ok ctx, s)
      else (rateLimit config.ai.rateLimitMinIntervalMs env).process ctx s := by
  cases hstopped : ctx.shortCircuit with
  | true => exact run_of_stopped hstopped (guards_not_terminal env config) s
  | false =>
    unfold runPipeline guards
    rw [if_pos hpaid, List.cons_append, run_cons_of_ok (.inl hstopped) rfl, List.cons_append,
      run_cons_of_ok (.inl hstopped) rfl, List.nil_append, run_singleton, hstopped]
    rfl

theorem run_guards_of_unpaid (hunpaid : config.ai.backend = "echo") (ctx : PipelineContext)
    (s : PipelineState) : runPipeline (guards config env) ctx s = (.ok ctx, s) := by
  cases hstopped : ctx.shortCircuit with
  | true => exact run_of_stopped hstopped (guards_not_terminal env config) s
  | false =>
    unfold runPipeline guards
    rw [if_neg (not_not_intro hunpaid), List.cons_append, run_cons_of_ok (.inl hstopped) rfl,
      List.cons_append, run_cons_of_ok (.inl hstopped) rfl, List.append_nil, Stages.run_nil]

end Segments

/-! ## Moves -/

section Moves

variable {config : AppConfig} {serde : SerdeText} {flight : Flight} {s : PipelineState}

theorem moved_snd : (flight.moved config serde s).2 =
    (runPipeline (segment config serde flight.env flight.place) flight.ctx s).2 := by
  unfold Flight.moved
  split <;> simp [*]

theorem moved_of_ok {ctx : PipelineContext} {s' : PipelineState}
    (h : runPipeline (segment config serde flight.env flight.place) flight.ctx s = (.ok ctx, s')) :
    flight.moved config serde s = (⟨flight.env, ctx, flight.place.next⟩, s') := by
  unfold Flight.moved
  rw [h]

theorem moved_place : (flight.moved config serde s).1.place = flight.place.next ∨
    (flight.moved config serde s).1.place = .left := by
  unfold Flight.moved
  split
  · exact .inl rfl
  · exact .inr rfl

/-- The commands and the delivery leave the windows and the calls alone. -/
theorem moved_keeps (hplace : flight.place = .arrived ∨ flight.place = .answered) :
    (flight.moved config serde s).2.windows = s.windows ∧
      (flight.moved config serde s).2.calls = s.calls := by
  rw [moved_snd]
  rcases hplace with hplace | hplace
  · rw [hplace]
    show (runPipeline [agentCommand config.agent flight.env] flight.ctx s).2.windows = _ ∧
      (runPipeline [agentCommand config.agent flight.env] flight.ctx s).2.calls = _
    unfold runPipeline
    rw [run_singleton]
    split
    · exact ⟨rfl, rfl⟩
    · exact agentCommandProcess_keeps flight.ctx s
  · rw [hplace]
    obtain ⟨database, hrun⟩ := run_delivery_keeps serde flight.env flight.ctx s
    show (runPipeline [formatter, outboxStage serde flight.env] flight.ctx s).2.windows = _ ∧
      (runPipeline [formatter, outboxStage serde flight.env] flight.ctx s).2.calls = _
    rw [hrun]
    exact ⟨rfl, rfl⟩

/-- The AI makes at most one call, for a message that is not stopped. -/
theorem moved_of_passed (hplace : flight.place = .passed) :
    ∃ c s', flight.moved config serde s = (⟨flight.env, c, .answered⟩, s') ∧
      c.userAgentSelection = flight.ctx.userAgentSelection ∧ s'.windows = s.windows ∧
      (s'.calls = s.calls ∨ flight.ctx.shortCircuit = false ∧ s'.calls =
        ⟨flight.ctx.message.routeKey, selectBackend config.ai flight.ctx.userAgentSelection,
          flight.env.passedAt⟩ :: s.calls) := by
  have hrun : runPipeline (segment config serde flight.env flight.place) flight.ctx s =
      if flight.ctx.shortCircuit then (.ok flight.ctx, s)
      else aiProcess config.ai serde flight.env flight.ctx s := by
    rw [hplace]
    refine (run_singleton _ _ _).trans ?_
    show (if (flight.ctx.shortCircuit && true) = true then _ else _) = _
    rw [Bool.and_true]
    rfl
  cases hstopped : flight.ctx.shortCircuit with
  | true =>
    rw [hstopped, if_pos rfl] at hrun
    exact ⟨flight.ctx, s, by rw [moved_of_ok hrun, hplace, Place.next], rfl, rfl, .inl rfl⟩
  | false =>
    rw [hstopped, if_neg Bool.false_ne_true] at hrun
    obtain ⟨c, s', hai, hselection, hwindows, hcalls⟩ :=
      aiProcess_spec config serde flight.env flight.ctx s
    rw [hai] at hrun
    refine ⟨c, s', by rw [moved_of_ok hrun, hplace, Place.next], hselection, hwindows, ?_⟩
    rcases hcalls with hcalls | hcalls
    · exact .inl hcalls
    · exact .inr ⟨rfl, hcalls⟩

end Moves

/-! ## The chain with the rate limit -/

def BackendCall.stamp (call : BackendCall) : Stamp String :=
  ⟨windowKey call.routeKey, call.passedAt⟩

/-- A message that has passed the guards has a stamp until the AI has it. -/
def Flight.stamps (flight : Flight) : List (Stamp String) :=
  if flight.place = .passed ∧ flight.ctx.shortCircuit = false then
    [⟨windowKey flight.ctx.message.routeKey, flight.env.passedAt⟩]
  else []

def Traffic.stamps (t : Traffic) : List (Stamp String) :=
  t.shared.calls.map BackendCall.stamp ++ t.flights.flatMap Flight.stamps

/-- What the rate limit keeps: the windows cover the calls and the messages
that have passed, and none is later than the clock. -/
structure Limited (config : AppConfig) (t : Traffic) : Prop where
  spaced : Spaced config.gap t.shared.windows t.stamps
  clock : ∀ key u, t.shared.windows key = some u → u ≤ t.clock

section Limit

variable {config : AppConfig} {serde : SerdeText} {t t' : Traffic}

theorem stamps_of_place_ne {flight : Flight} (h : flight.place ≠ .passed) : flight.stamps = [] :=
  if_neg fun hpassed => h hpassed.1

theorem gap_le_of_not_tooSoon {last now : Nat}
    (h : tooSoon config.ai.rateLimitMinIntervalMs (some last) now = false) (hle : last ≤ now) :
    last + config.gap ≤ now := by
  have hms : config.ai.rateLimitMinIntervalMs.toNat ≤ (asMillis (now - last)).toNat := by
    have h' : ¬ asMillis (now - last) < config.ai.rateLimitMinIntervalMs := of_decide_eq_false h
    exact Nat.le_of_not_lt fun hlt => h' (UInt64.lt_iff_toNat_lt.mpr hlt)
  have hmillis : (asMillis (now - last)).toNat ≤ (now - last) / 1000000 := by
    unfold asMillis
    rw [UInt64.toNat_ofNat']
    exact Nat.mod_le _ _
  have hdiv := Nat.div_mul_le_self (now - last) 1000000
  unfold AppConfig.gap
  have hmul := Nat.mul_le_mul_right 1000000 (Nat.le_trans hms hmillis)
  omega

/-- A message with another takes its place among the flights. -/
theorem stamps_set {flights : List Flight} {n : Nat} {flight : Flight}
    (hflight : flights[n]? = some flight) :
    ∃ others, (flights.flatMap Flight.stamps).Perm (flight.stamps ++ others) ∧
      ∀ flight', ((flights.set n flight').flatMap Flight.stamps).Perm
        (flight'.stamps ++ others) := by
  obtain ⟨hn, rfl⟩ := List.getElem?_eq_some_iff.mp hflight
  have hmiddle : ∀ (before after : List Flight) (f : Flight),
      ((before ++ f :: after).flatMap Flight.stamps).Perm
        (f.stamps ++ (before.flatMap Flight.stamps ++ after.flatMap Flight.stamps)) := by
    intro before after f
    rw [List.flatMap_append, List.flatMap_cons, ← List.append_assoc, ← List.append_assoc]
    exact List.Perm.append_right _ List.perm_append_comm
  refine ⟨(flights.take n).flatMap Flight.stamps ++ (flights.drop (n + 1)).flatMap Flight.stamps,
    ?_, fun flight' => ?_⟩
  · have hsplit : flights.take n ++ flights[n] :: flights.drop (n + 1) = flights := by
      rw [List.getElem_cons_drop hn, List.take_append_drop]
    have hperm := hmiddle (flights.take n) (flights.drop (n + 1)) flights[n]
    rw [hsplit] at hperm
    exact hperm
  · rw [List.set_eq_take_append_cons_drop, if_pos hn]
    exact hmiddle _ _ _

/-- A move that changes no window and makes no new stamp. -/
theorem limited_of_subperm (h : Limited config t) {n : Nat} {flight flight' : Flight}
    {s' : PipelineState} (hflight : t.flights[n]? = some flight)
    (hwindows : s'.windows = t.shared.windows)
    (hstamps : (s'.calls.map BackendCall.stamp ++ flight'.stamps).Subperm
      (t.shared.calls.map BackendCall.stamp ++ flight.stamps)) :
    Limited config ⟨t.flights.set n flight', t.clock, s'⟩ := by
  obtain ⟨others, hperm, hperm'⟩ := stamps_set hflight
  constructor
  · show Spaced _ s'.windows _
    rw [hwindows]
    refine h.spaced.of_subperm ?_
    show (s'.calls.map BackendCall.stamp ++ (t.flights.set n flight').flatMap Flight.stamps).Subperm
      (t.shared.calls.map BackendCall.stamp ++ t.flights.flatMap Flight.stamps)
    refine ((hperm' flight').append_left _).subperm.trans (List.Subperm.trans ?_
      (hperm.append_left _).symm.subperm)
    rw [← List.append_assoc, ← List.append_assoc]
    exact (List.subperm_append_right others).mpr hstamps
  · intro key u hu
    rw [show s'.windows key = t.shared.windows key by rw [hwindows]] at hu
    exact h.clock key u hu

/-- A move that sets the window of a key, and makes no call. -/
theorem limited_of_window (h : Limited config t) {n : Nat} {flight flight' : Flight}
    {s' : PipelineState} {key : String} {instant : Nat} (hflight : t.flights[n]? = some flight)
    (hnone : flight.stamps = []) (hcalls : s'.calls = t.shared.calls)
    (hwindows : s'.windows = Function.update t.shared.windows key (some instant))
    (hclock : t.clock ≤ instant)
    (hspaced : Spaced config.gap (Function.update t.shared.windows key (some instant))
      (flight'.stamps ++ t.stamps)) :
    Limited config ⟨t.flights.set n flight', instant, s'⟩ := by
  obtain ⟨others, hperm, hperm'⟩ := stamps_set hflight
  rw [hnone, List.nil_append] at hperm
  constructor
  · show Spaced _ s'.windows (s'.calls.map BackendCall.stamp ++
      (t.flights.set n flight').flatMap Flight.stamps)
    rw [hwindows, hcalls]
    refine hspaced.of_perm ?_
    calc flight'.stamps ++ t.stamps
        |>.Perm (flight'.stamps ++ (t.shared.calls.map BackendCall.stamp ++ others)) :=
          (hperm.append_left _).append_left _
      _ |>.Perm (t.shared.calls.map BackendCall.stamp ++ (flight'.stamps ++ others)) := by
          rw [← List.append_assoc, ← List.append_assoc]
          exact List.perm_append_comm.append_right _
      _ |>.Perm _ := (hperm' flight').symm.append_left _
  · intro key' u hu
    show u ≤ instant
    rw [show s'.windows = _ from hwindows] at hu
    by_cases hkey : key' = key
    · rw [hkey, Function.update_self] at hu
      exact Nat.le_of_eq (Option.some.inj hu).symm
    · rw [Function.update_of_ne hkey] at hu
      exact Nat.le_trans (h.clock key' u hu) hclock

/-- A message that is stopped already goes past the guards without a stamp. -/
theorem limited_of_stopped (h : Limited config t) {n : Nat} {flight : Flight}
    (hflight : t.flights[n]? = some flight) (hnone : flight.stamps = [])
    (hstopped : flight.ctx.shortCircuit = true)
    (hrun : runPipeline (segment config serde flight.env flight.place) flight.ctx t.shared =
      (.ok flight.ctx, t.shared)) (hpassed : t.clock ≤ flight.env.passedAt) :
    Limited config ⟨t.flights.set n (flight.moved config serde t.shared).1, flight.env.passedAt,
      (flight.moved config serde t.shared).2⟩ := by
  have hnone' : (flight.moved config serde t.shared).1.stamps = [] := by
    rw [moved_of_ok hrun]
    exact if_neg fun hopen => by simp [hstopped] at hopen
  have hkept : (flight.moved config serde t.shared).2 = t.shared := by
    rw [moved_of_ok hrun]
  have hstamps : ((flight.moved config serde t.shared).2.calls.map BackendCall.stamp ++
      (flight.moved config serde t.shared).1.stamps).Subperm
        (t.shared.calls.map BackendCall.stamp ++ flight.stamps) := by
    rw [hnone, hnone', hkept]
  obtain ⟨hspaced, hclock⟩ :=
    limited_of_subperm h hflight (congrArg PipelineState.windows hkept) hstamps
  exact ⟨hspaced, fun key u hu => Nat.le_trans (hclock key u hu) hpassed⟩

/-- The guards stamp a message that comes late enough. -/
theorem limited_of_guards (hpaid : config.ai.backend ≠ "echo") (h : Limited config t) {n : Nat}
    {flight : Flight} (hflight : t.flights[n]? = some flight) (hplace : flight.place = .commanded)
    (htimely : flight.Timely t.clock) :
    Limited config ⟨t.flights.set n (flight.moved config serde t.shared).1, flight.env.passedAt,
      (flight.moved config serde t.shared).2⟩ := by
  obtain ⟨hchecked, hpassed⟩ := htimely hplace
  have hnone : flight.stamps = [] := stamps_of_place_ne (by rw [hplace]; decide)
  have hrun : runPipeline (segment config serde flight.env flight.place) flight.ctx t.shared =
      runPipeline (guards config flight.env) flight.ctx t.shared := by
    rw [hplace]
    rfl
  rw [run_guards_of_paid hpaid] at hrun
  cases hstopped : flight.ctx.shortCircuit with
  | true =>
    rw [hstopped, if_pos rfl] at hrun
    exact limited_of_stopped h hflight hnone hstopped hrun (Nat.le_trans hchecked hpassed)
  | false =>
    let key := windowKey flight.ctx.message.routeKey
    obtain ⟨c, hprocess, hmessage, hsoon⟩ := rateLimit_process
      config.ai.rateLimitMinIntervalMs flight.env flight.ctx t.shared
    rw [hstopped, if_neg Bool.false_ne_true, hprocess] at hrun
    rw [hstopped, Bool.false_or] at hsoon
    have hlater : ∀ u, t.shared.windows key = some u → u ≤ flight.env.checkedAt :=
      fun u hu => Nat.le_trans (h.clock key u hu) hchecked
    have hwindows : (flight.moved config serde t.shared).2.windows =
        Function.update t.shared.windows key (some flight.env.passedAt) := by
      rw [moved_of_ok hrun]
    have hcalls : (flight.moved config serde t.shared).2.calls = t.shared.calls := by
      rw [moved_of_ok hrun]
    refine limited_of_window h hflight hnone hcalls hwindows (Nat.le_trans hchecked hpassed) ?_
    rw [moved_of_ok hrun]
    cases hshort : c.shortCircuit with
    | true =>
      have hnone' : (⟨flight.env, c, flight.place.next⟩ : Flight).stamps = [] :=
        if_neg fun hopen => Bool.false_ne_true (hopen.2.symm.trans hshort)
      rw [hnone', List.nil_append]
      exact h.spaced.touch fun u hu => Nat.le_trans (hlater u hu) hpassed
    | false =>
      have hone : (⟨flight.env, c, flight.place.next⟩ : Flight).stamps =
          [⟨key, flight.env.passedAt⟩] := by
        rw [show key = windowKey c.message.routeKey by rw [hmessage]]
        exact if_pos ⟨by rw [hplace]; rfl, hshort⟩
      rw [hone, List.singleton_append]
      refine h.spaced.admit fun u hu => ?_
      rw [hshort, hu] at hsoon
      exact Nat.le_trans (gap_le_of_not_tooSoon hsoon.symm (hlater u hu)) hpassed

/-- Every step keeps it. -/
theorem limited_step (hpaid : config.ai.backend ≠ "echo") (h : Limited config t) {act : Act}
    (hstep : t.step config serde act = some t') : Limited config t' := by
  cases act with
  | arrive conversation message env =>
    cases hstep
    have hstamps : Traffic.stamps ⟨t.flights ++ [⟨env, .new config conversation message, .arrived⟩],
        t.clock, t.shared⟩ = t.stamps := by
      unfold Traffic.stamps
      rw [List.flatMap_append, List.flatMap_singleton,
        stamps_of_place_ne (by show Place.arrived ≠ .passed; decide), List.append_nil]
    constructor
    · rw [hstamps]
      exact h.spaced
    · exact h.clock
  | advance n =>
    obtain ⟨flight, hflight, hleft, htimely, rfl⟩ := step_advance_eq_some.mp hstep
    by_cases hcommanded : flight.place = .commanded
    · rw [show flight.clockAfter t.clock = flight.env.passedAt from if_pos hcommanded]
      exact limited_of_guards hpaid h hflight hcommanded htimely
    rw [show flight.clockAfter t.clock = t.clock from if_neg hcommanded]
    by_cases hpassed : flight.place = .passed
    · obtain ⟨c, s', hmoved, -, hwindows, hcalls⟩ := moved_of_passed hpassed
      rw [hmoved]
      refine limited_of_subperm h hflight hwindows ?_
      rw [stamps_of_place_ne (by show Place.answered ≠ .passed; decide), List.append_nil]
      rcases hcalls with hcalls | ⟨hopen, hcalls⟩
      · rw [hcalls]
        exact (List.sublist_append_left _ _).subperm
      · rw [hcalls, show flight.stamps = _ from if_pos ⟨hpassed, hopen⟩]
        exact (List.perm_append_singleton _ _).symm.subperm
    · have hplace : flight.place = .arrived ∨ flight.place = .answered := by
        cases hplace : flight.place with
        | arrived => exact .inl rfl
        | answered => exact .inr rfl
        | commanded => exact absurd hplace hcommanded
        | passed => exact absurd hplace hpassed
        | left => exact absurd hplace hleft
      obtain ⟨hwindows, hcalls⟩ := moved_keeps hplace
      refine limited_of_subperm h hflight hwindows ?_
      have hplace' : (flight.moved config serde t.shared).1.place ≠ .passed := by
        rcases moved_place with hnext | hnext <;> rw [hnext]
        · rcases hplace with hplace | hplace <;> rw [hplace] <;> decide
        · decide
      rw [hcalls, stamps_of_place_ne hplace', List.append_nil]
      exact (List.sublist_append_left _ _).subperm

theorem windowKey_eq {a b : RouteKey} (h : SameConversation a b) : windowKey a = windowKey b := by
  unfold windowKey
  rw [h.1, h.2]

theorem keepApart_of_apart {a b : BackendCall} (h : Apart config.gap a.stamp b.stamp) :
    KeepApart config a b :=
  fun hsame _ _ => h (windowKey_eq hsame)

/-- With the rate limit every two calls keep apart. -/
theorem limited_run (hpaid : config.ai.backend ≠ "echo") : CostGuarded config := by
  intro serde preferences database acts t hrun
  have hinit : Limited config (.init preferences database) :=
    ⟨spaced_nil, fun _ _ h => nomatch h⟩
  have hlimited : Limited config t :=
    run_invariant (fun _ _ _ h hstep => limited_step hpaid h hstep) hinit hrun
  have hcalls := hlimited.spaced.of_sublist (List.sublist_append_left _ _)
  exact (List.pairwise_map.mp hcalls.apart).imp keepApart_of_apart

end Limit

/-! ## The chain without it -/

section Unpaid

variable {config : AppConfig} {serde : SerdeText} {t t' : Traffic}

/-- No command in front of a message leads it to a paid backend. -/
def NoPaidSwitch (config : AppConfig) : Prop :=
  ∀ text agent newText, parse config.agent.parser text = .switchAndProcess agent newText →
    selectBackend config.ai (some agent) = .echo

/-- The backend that would serve the context is `echo`. -/
def ServedByEcho (config : AppConfig) (ctx : PipelineContext) : Prop :=
  selectBackend config.ai ctx.userAgentSelection = .echo

/-- Without preferences a text is served by the configured backend, or by the
one that it switches to itself. -/
theorem handleCommand_unpaid (hoff : config.agent.enableUserPreferences = false)
    {env : Surroundings} {ctx c : PipelineContext} {s s' : PipelineState} {command : AgentCommand}
    (hswitch : ∀ agent newText, command = .switchAndProcess agent newText →
      selectBackend config.ai (some agent) = .echo)
    (hecho : ServedByEcho config ctx)
    (h : handleCommand config.agent env ctx s command = (.ok c, s')) : ServedByEcho config c := by
  unfold handleCommand at h
  cases command with
  | notCommand =>
    rw [hoff] at h
    cases h
    exact hecho
  | switch agent =>
    dsimp only at h
    split at h <;> cases h
    exact hecho
  | query =>
    dsimp only at h
    split at h <;> cases h
    · exact hecho
    · exact hecho
  | switchAndProcess agent newText =>
    dsimp only at h
    split at h <;> cases h
    exact hswitch agent newText rfl

theorem agentCommandProcess_unpaid (hoff : config.agent.enableUserPreferences = false)
    (hswitch : NoPaidSwitch config) {env : Surroundings} {ctx c : PipelineContext}
    {s s' : PipelineState} (hecho : ServedByEcho config ctx)
    (h : agentCommandProcess config.agent env ctx s = (.ok c, s')) : ServedByEcho config c := by
  by_cases htext : ∃ text, ctx.message.content = .text text
  · obtain ⟨text, htext⟩ := htext
    rw [agentCommandProcess_of_text htext] at h
    exact handleCommand_unpaid hoff (hswitch text) hecho h
  · rw [agentCommandProcess_of_not_text fun text h' => htext ⟨text, h'⟩] at h
    cases h
    exact hecho

/-- No stage leads to a paid backend. -/
theorem process_unpaid (hunpaid : config.ai.backend = "echo")
    (hoff : config.agent.enableUserPreferences = false) (hswitch : NoPaidSwitch config)
    {env : Surroundings} {place : Place} {stage : Middleware}
    (hstage : stage ∈ segment config serde env place) {ctx c : PipelineContext}
    {s s' : PipelineState} (hecho : ServedByEcho config ctx)
    (h : stage.process ctx s = (.ok c, s')) : ServedByEcho config c := by
  cases place with
  | arrived =>
    rw [List.mem_singleton.mp hstage] at h
    exact agentCommandProcess_unpaid hoff hswitch hecho h
  | commanded =>
    unfold segment guards at hstage
    rw [if_neg (not_not_intro hunpaid), List.append_nil] at hstage
    rcases List.mem_cons.mp hstage with rfl | hstage
    · cases h
      exact hecho
    · rw [List.mem_singleton.mp hstage] at h
      cases h
      exact hecho
  | passed =>
    rw [List.mem_singleton.mp hstage] at h
    obtain ⟨c', s'', hai, hselection, -⟩ := aiProcess_spec config serde env ctx s
    cases hai.symm.trans h
    unfold ServedByEcho
    rw [hselection]
    exact hecho
  | answered =>
    rcases List.mem_cons.mp hstage with rfl | hstage
    · unfold formatter at h
      dsimp only at h
      split at h <;> cases h <;> exact hecho
    · rw [List.mem_singleton.mp hstage] at h
      unfold outboxStage outboxProcess at h
      dsimp only at h
      repeat' split at h
      all_goals
        cases h
        exact hecho
  | left => exact absurd hstage List.not_mem_nil

theorem moved_unpaid (hunpaid : config.ai.backend = "echo")
    (hoff : config.agent.enableUserPreferences = false) (hswitch : NoPaidSwitch config)
    {flight : Flight} {s : PipelineState} (hecho : ServedByEcho config flight.ctx) :
    ServedByEcho config (flight.moved config serde s).1.ctx := by
  unfold Flight.moved
  split
  · next hrun =>
      exact run_keeps_context (fun _ hstage _ _ _ _ => process_unpaid hunpaid hoff hswitch hstage)
        hecho hrun
  · exact hecho

/-- A move makes the call of the AI, or none. -/
theorem moved_calls (hunpaid : config.ai.backend = "echo") {flight : Flight} {s : PipelineState} :
    (flight.moved config serde s).2.calls = s.calls ∨
      (flight.moved config serde s).2.calls =
        ⟨flight.ctx.message.routeKey, selectBackend config.ai flight.ctx.userAgentSelection,
          flight.env.passedAt⟩ :: s.calls := by
  cases hplace : flight.place with
  | arrived => exact .inl (moved_keeps (.inl hplace)).2
  | answered => exact .inl (moved_keeps (.inr hplace)).2
  | commanded =>
    refine .inl ?_
    rw [moved_snd, hplace]
    show (runPipeline (guards config flight.env) flight.ctx s).2.calls = s.calls
    rw [run_guards_of_unpaid hunpaid]
  | passed =>
    obtain ⟨c, s', hmoved, -, -, hcalls⟩ := moved_of_passed hplace
    rw [hmoved]
    exact hcalls.imp_right And.right
  | left =>
    refine .inl ?_
    rw [moved_snd, hplace]
    rfl

/-- Nothing has been or will be served by a paid backend. -/
structure Unpaid (config : AppConfig) (t : Traffic) : Prop where
  flights : ∀ flight ∈ t.flights, ServedByEcho config flight.ctx
  calls : ∀ call ∈ t.shared.calls, call.backend = .echo

theorem unpaid_step (hunpaid : config.ai.backend = "echo")
    (hoff : config.agent.enableUserPreferences = false) (hswitch : NoPaidSwitch config)
    (h : Unpaid config t) {act : Act} (hstep : t.step config serde act = some t') :
    Unpaid config t' := by
  cases act with
  | arrive conversation message env =>
    cases hstep
    refine ⟨forall_mem_concat h.flights ?_, h.calls⟩
    show createBackend config.ai config.ai.backend = .echo
    rw [hunpaid]
    rfl
  | advance n =>
    obtain ⟨flight, hflight, -, -, rfl⟩ := step_advance_eq_some.mp hstep
    have hecho := h.flights flight (List.mem_of_getElem? hflight)
    constructor
    · exact forall_mem_set h.flights (moved_unpaid hunpaid hoff hswitch hecho)
    · intro call hcall
      rcases moved_calls hunpaid with hcalls | hcalls
      · rw [hcalls] at hcall
        exact h.calls call hcall
      · rw [hcalls] at hcall
        rcases List.mem_cons.mp hcall with rfl | hcall
        · exact hecho
        · exact h.calls call hcall

/-- Where every message is served by `echo`, no two calls are to paid
backends. -/
theorem unpaid_run (hunpaid : config.ai.backend = "echo")
    (hoff : config.agent.enableUserPreferences = false) (hswitch : NoPaidSwitch config) :
    CostGuarded config := by
  intro serde preferences database acts t hrun
  have hinit : Unpaid config (.init preferences database) :=
    ⟨fun _ h => absurd h List.not_mem_nil, fun _ h => absurd h List.not_mem_nil⟩
  have hnone : Unpaid config t :=
    run_invariant (fun _ _ _ h hstep => unpaid_step hunpaid hoff hswitch h hstep) hinit hrun
  refine List.pairwise_of_forall_mem_list fun a ha b _ _ hpaid => ?_
  exact absurd (hnone.calls a ha) hpaid

end Unpaid

/-! ## Two messages at once -/

section Paid

variable {config : AppConfig}

/-- Everything works, at the first instant. -/
def quiet : Surroundings := ⟨none, 0, 0, 0, none, .ok "reply", 0, none⟩

def directRoute : RouteKey := ⟨⟨"wechat"⟩, "", "peer", .direct⟩

def directText (id text : String) : Message :=
  .newInbound id directRoute none 0 (.text text)

/-- With the preferences as they are, and as it leaves them, the text is
served by a paid backend. -/
def LeadsToPaid (config : AppConfig) (text : String)
    (P : KeyedTable UserAgentPreference.key → Prop) : Prop :=
  ∀ id s, P s.preferences → ∃ c s' newText,
    agentCommandProcess config.agent quiet (.new config ⟨[]⟩ (directText id text)) s = (.ok c, s') ∧
      c.shortCircuit = false ∧ c.message.routeKey = directRoute ∧
      c.message.content = .text newText ∧ ¬ ServedByEcho config c ∧
      s'.calls = s.calls ∧ P s'.preferences

/-- Such a text makes a call to a paid backend. -/
theorem call_of_leadsToPaid (hunpaid : config.ai.backend = "echo") {text : String}
    {P : KeyedTable UserAgentPreference.key → Prop} (hleads : LeadsToPaid config text P)
    (id : String) {s : PipelineState} (hs : P s.preferences) :
    ∃ backend s', (runPipeline (assemble config derivedText quiet)
        (.new config ⟨[]⟩ (directText id text)) s).2 = s' ∧ backend ≠ .echo ∧
      s'.calls = ⟨directRoute, backend, 0⟩ :: s.calls ∧ P s'.preferences := by
  obtain ⟨c, s₁, newText, hcommand, hopen, hroute, htext, hpaid, hcalls, hpreferences⟩ :=
    hleads id s hs
  obtain ⟨c', s₂, response, hai, -, -, -, hpreferences', -, -, hcalls'⟩ :=
    aiProcess_of_text derivedText quiet s₁ config.ai htext
  have htail : runPipeline [ai config.ai derivedText quiet, formatter, outboxStage derivedText quiet]
      c s₁ = runPipeline [formatter, outboxStage derivedText quiet] c' s₂ :=
    run_cons_of_ok (.inl hopen) hai
  obtain ⟨database, hdelivery⟩ := run_delivery_keeps derivedText quiet c' s₂
  refine ⟨selectBackend config.ai c.userAgentSelection, _, rfl, hpaid, ?_, ?_⟩
  · rw [run_assemble rfl hcommand (run_guards_of_unpaid hunpaid c s₁), htail, hdelivery]
    show s₂.calls = _
    rw [hcalls', hroute, ← hcalls]
    rfl
  · rw [run_assemble rfl hcommand (run_guards_of_unpaid hunpaid c s₁), htail, hdelivery]
    show P s₂.preferences
    rw [hpreferences']
    exact hpreferences

/-- Two messages with such a text reach a paid backend at once. -/
theorem not_costGuarded_of_paid (hunpaid : config.ai.backend = "echo") (hgap : 0 < config.gap)
    {text : String} {P : KeyedTable UserAgentPreference.key → Prop}
    (hleads : LeadsToPaid config text P) (preferences : KeyedTable UserAgentPreference.key)
    (hpreferences : P preferences) : ¬ CostGuarded config := by
  intro hguarded
  let start := Traffic.init preferences Outbox.World.init
  obtain ⟨acts₁, t₁, hrun₁, hshared₁, hclock₁⟩ := run_alone config derivedText quiet ⟨[]⟩
    (directText "m1" text) start ⟨Nat.le_refl 0, Nat.le_refl 0⟩
  obtain ⟨backend₁, s₁, hs₁, hpaid₁, hcalls₁, hpreferences₁⟩ :=
    call_of_leadsToPaid hunpaid hleads "m1" (s := start.shared) hpreferences
  rw [hs₁] at hshared₁
  rw [← hshared₁] at hcalls₁ hpreferences₁
  obtain ⟨acts₂, t₂, hrun₂, hshared₂, -⟩ := run_alone config derivedText quiet ⟨[]⟩
    (directText "m2" text) t₁ ⟨hclock₁, Nat.le_refl 0⟩
  obtain ⟨backend₂, s₂, hs₂, hpaid₂, hcalls₂, -⟩ :=
    call_of_leadsToPaid hunpaid hleads "m2" hpreferences₁
  rw [hs₂] at hshared₂
  rw [← hshared₂, hcalls₁] at hcalls₂
  have hpairwise := hguarded _ _ _ _ t₂ (run_append hrun₁ hrun₂)
  rw [hcalls₂] at hpairwise
  have hapart : KeepApart config ⟨directRoute, backend₂, 0⟩ ⟨directRoute, backend₁, 0⟩ :=
    (List.pairwise_cons.mp hpairwise).1 _ List.mem_cons_self
  rcases hapart ⟨rfl, rfl⟩ hpaid₂ hpaid₁ with h | h
  · exact Nat.not_succ_le_zero _ (Nat.lt_of_lt_of_le hgap ((Nat.zero_add _).symm.trans_le h))
  · exact Nat.not_succ_le_zero _ (Nat.lt_of_lt_of_le hgap ((Nat.zero_add _).symm.trans_le h))

/-! ### A text that is no command -/

/-- A length that is more than that of every alias. -/
def plainLength (aliases : List (String × List String)) : Nat :=
  ((candidates aliases).map fun (_, name) => name.length).sum + 1

/-- A word of this length. -/
def plainText (aliases : List (String × List String)) : String :=
  String.ofList (List.replicate (plainLength aliases) 'x')

theorem mem_plainText {aliases : List (String × List String)} {c : Char}
    (h : c ∈ (plainText aliases).toList) : c = 'x' := by
  unfold plainText at h
  rw [String.toList_ofList] at h
  exact List.eq_of_mem_replicate h

theorem trim_plainText (aliases : List (String × List String)) :
    trim (plainText aliases) = plainText aliases := by
  refine Text.trim_eq_self fun c hc => ?_
  rw [mem_plainText hc]
  decide

theorem contentAfter_plainText (aliases : List (String × List String)) {pattern : String}
    (hspace : ' ' ∈ pattern.toList) : contentAfter pattern (plainText aliases) = none := by
  have hnone : Text.stripPrefix? pattern (plainText aliases) = none := by
    cases hstrip : Text.stripPrefix? pattern (plainText aliases) with
    | none => rfl
    | some rest =>
      have htext := Text.stripPrefix?_eq_some_iff.mp hstrip
      have hmem : ' ' ∈ (plainText aliases).toList := by
        rw [htext, String.toList_append]
        exact List.mem_append_left _ hspace
      exact absurd (mem_plainText hmem) (by decide)
  unfold contentAfter
  rw [hnone]
  rfl

theorem matchAlias_plainText {aliases : List (String × List String)} {agent name : String}
    (hcandidate : (agent, name) ∈ candidates aliases) :
    matchAlias (plainText aliases) agent name = none := by
  have hlonger : plainText aliases ≠ name := by
    intro heq
    have hle : name.length ≤ ((candidates aliases).map fun (_, name) => name.length).sum :=
      List.single_le_sum (fun _ _ => Nat.zero_le _) _ (List.mem_map_of_mem hcandidate)
    have hlength : (plainText aliases).length = plainLength aliases := by
      unfold plainText
      rw [String.length_ofList, List.length_replicate]
    rw [heq] at hlength
    unfold plainLength at hlength
    omega
  have hslash : plainText aliases ≠ "/" ++ name := by
    intro heq
    have hmem : '/' ∈ (plainText aliases).toList := by
      rw [heq, String.toList_append]
      exact List.mem_append_left _ (by decide)
    exact absurd (mem_plainText hmem) (by decide)
  have hspace : ∀ pre : String, ' ' ∈ (pre ++ " ").toList := by
    intro pre
    rw [String.toList_append]
    exact List.mem_append_right _ (by decide)
  have hor : ¬ ((plainText aliases = name || plainText aliases = "/" ++ name) = true) := by
    simp [hlonger, hslash]
  show (if (plainText aliases = name || plainText aliases = "/" ++ name) = true then _ else _) = none
  rw [if_neg hor, show contentAfter s!"{name} " _ = none from contentAfter_plainText aliases (hspace name),
    show contentAfter s!"/{name} " _ = none from contentAfter_plainText aliases (hspace ("/" ++ name))]

theorem isQuery_plainText (aliases : List (String × List String)) :
    isQuery (plainText aliases) = false := by
  have hlower : (Text.toAsciiLowercase (plainText aliases)).toList.head? = some 'x' := by
    unfold Text.toAsciiLowercase plainText
    rw [String.toList_ofList, String.toList_ofList, List.map_replicate]
    rfl
  refine decide_eq_false fun hmem => ?_
  simp only [List.mem_cons, List.not_mem_nil, or_false] at hmem
  -- the queries start with other letters
  rcases hmem with h | h | h | h <;> rw [h] at hlower <;> exact absurd hlower (by decide)

/-- It is no command, whatever the aliases are. -/
theorem parse_plainText (aliases : List (String × List String)) :
    parse aliases (plainText aliases) = .notCommand := by
  have hnone : (candidates aliases).findSome?
      (fun (agent, name) => matchAlias (plainText aliases) agent name) = none :=
    List.findSome?_eq_none_iff.mpr fun (agent, name) hmem => matchAlias_plainText hmem
  unfold parse
  rw [trim_plainText]
  dsimp only
  rw [isQuery_plainText, if_neg Bool.false_ne_true, hnone, Option.getD_none]

/-! ### The two ways to a paid backend -/

theorem selectBackend_claudeCode (config : AiConfig) :
    selectBackend config (some "claude_code") = .claudeCode := rfl

/-- With preferences, the texts of a user who has chosen a paid backend. -/
theorem leadsToPaid_of_preference (henabled : config.agent.enableUserPreferences = true)
    {text : String} (hparse : parse config.agent.parser text = .notCommand) :
    LeadsToPaid config text fun preferences =>
      getUserAgent preferences ("wechat", config.wechatAccountId, "peer") = some "claude_code" := by
  intro id s hs
  let ctx := PipelineContext.new config ⟨[]⟩ (directText id text)
  have hcommand : agentCommandProcess config.agent quiet ctx s =
      (.ok { ctx with userAgentSelection := some "claude_code" }, s) := by
    have hagent : getUserAgent s.preferences ctx.preferenceKey = some "claude_code" := hs
    rw [agentCommandProcess_of_text rfl, hparse, handleCommand_notCommand henabled rfl, hagent]
  refine ⟨_, s, text, hcommand, rfl, rfl, rfl, ?_, rfl, hs⟩
  unfold ServedByEcho
  rw [selectBackend_claudeCode]
  decide

/-- A text that switches to a paid backend itself. -/
theorem leadsToPaid_of_switch {text agent newText : String}
    (hparse : parse config.agent.parser text = .switchAndProcess agent newText)
    (hpaid : selectBackend config.ai (some agent) ≠ .echo) :
    LeadsToPaid config text fun _ => True := by
  intro id s _
  let ctx := PipelineContext.new config ⟨[]⟩ (directText id text)
  have hcommand : agentCommandProcess config.agent quiet ctx s =
      (.ok { ctx with
          message := { ctx.message with content := .text newText }
          userAgentSelection := some agent },
        { s with preferences := setUserAgent s.preferences ctx.preferenceKey agent 0 }) := by
    rw [agentCommandProcess_of_text rfl, hparse]
    rfl
  exact ⟨_, _, newText, hcommand, rfl, rfl, rfl, hpaid, rfl, trivial⟩

end Paid

/-! ## When the calls keep apart -/

/-- The rate limit is in the chain, or asks for no interval, or nothing leads
a message to a paid backend. -/
def GuardsCost (config : AppConfig) : Prop :=
  config.ai.backend ≠ "echo" ∨ config.ai.rateLimitMinIntervalMs = 0 ∨
    config.agent.enableUserPreferences = false ∧ NoPaidSwitch config

theorem gap_pos {config : AppConfig} (h : config.ai.rateLimitMinIntervalMs ≠ 0) :
    0 < config.gap := by
  have hpos : 0 < config.ai.rateLimitMinIntervalMs.toNat :=
    Nat.pos_of_ne_zero fun hzero => h (UInt64.toNat_inj.mp hzero)
  unfold AppConfig.gap
  omega

/-- The user's choice of a paid backend. -/
def chosen (config : AppConfig) : KeyedTable UserAgentPreference.key :=
  setUserAgent KeyedTable.empty ("wechat", config.wechatAccountId, "peer") "claude_code" 0

theorem getUserAgent_chosen (config : AppConfig) :
    getUserAgent (chosen config) ("wechat", config.wechatAccountId, "peer") =
      some "claude_code" := by
  unfold chosen
  rw [getUserAgent_setUserAgent, if_pos rfl]

/-- No interval is always kept. -/
theorem costGuarded_of_gap_zero {config : AppConfig} (hgap : config.gap = 0) :
    CostGuarded config := by
  intro serde preferences database acts t hrun
  refine List.pairwise_of_forall_mem_list fun a _ b _ _ _ _ => ?_
  rw [hgap, Nat.add_zero, Nat.add_zero]
  exact Nat.le_total _ _

/-- In every run, the calls of a conversation to paid backends keep the
interval exactly under the configurations that guard them. -/
theorem costGuarded_iff (config : AppConfig) : CostGuarded config ↔ GuardsCost config := by
  constructor
  · intro hguarded
    by_contra hnot
    unfold GuardsCost at hnot
    rw [not_or, not_or, not_not] at hnot
    obtain ⟨hunpaid, hinterval, hleads⟩ := hnot
    have hgap : 0 < config.gap := gap_pos hinterval
    by_cases henabled : config.agent.enableUserPreferences = true
    · exact not_costGuarded_of_paid hunpaid hgap
        (leadsToPaid_of_preference henabled (parse_plainText config.agent.parser))
        (chosen config) (getUserAgent_chosen config) hguarded
    · have hswitch : ¬ NoPaidSwitch config :=
        fun hswitch => hleads ⟨Bool.not_eq_true _ ▸ henabled, hswitch⟩
      unfold NoPaidSwitch at hswitch
      simp only [not_forall] at hswitch
      obtain ⟨text, agent, newText, hparse, hpaid⟩ := hswitch
      exact not_costGuarded_of_paid hunpaid hgap (leadsToPaid_of_switch hparse hpaid)
        KeyedTable.empty trivial hguarded
  · intro heither
    rcases heither with hpaid | hinterval | ⟨hoff, hswitch⟩
    · exact limited_run hpaid
    · exact costGuarded_of_gap_zero (by rw [AppConfig.gap, hinterval]; rfl)
    · by_cases hunpaid : config.ai.backend = "echo"
      · exact unpaid_run hunpaid hoff hswitch
      · exact limited_run hunpaid

/-- The default configuration. -/
def AppConfig.default : AppConfig :=
  ⟨⟨"echo", [], 3000⟩, ⟨true, defaultAgentAliases⟩, "default"⟩

/-- Under the default configuration two messages of a user who has switched to
`claude_code` reach it at once. -/
theorem default_not_costGuarded : ¬ CostGuarded .default := by
  have hhello : parse AppConfig.default.agent.parser "hello" = .notCommand := by decide +kernel
  exact not_costGuarded_of_paid rfl (by decide) (leadsToPaid_of_preference rfl hhello)
    (chosen .default) (getUserAgent_chosen .default)

end MagicLaw.Pipeline
