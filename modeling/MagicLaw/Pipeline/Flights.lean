import MagicLaw.Lib.Machine
import MagicLaw.Pipeline.Middleware

/-!
# Messages that pass the pipeline at the same time

Every conversation has a worker of its own, and the workers share one
pipeline.  So a message moves through the chain while others do: a step of the
machine takes one message through one segment of the chain.  A segment
accesses the shared state once: the commands the store of preferences, the
guards the windows under their lock, the AI its backend, and the delivery the
outbox.

The instants at which messages are at the guards never go back.  A message
that is alone goes through the whole chain, as `runPipeline` has it
(`run_alone`).
-/

namespace MagicLaw.Pipeline

open Lib Lib.Stages Lib.Machine
open MagicLaw.Routing (Message)

/-- How far a message has come. -/
inductive Place where
  | arrived | commanded | passed | answered | left
  deriving DecidableEq

def Place.next : Place → Place
  | .arrived => .commanded
  | .commanded => .passed
  | .passed => .answered
  | .answered | .left => .left

/-- What the chain has for a message at a place. -/
def segment (config : AppConfig) (serde : SerdeText) (env : Surroundings) :
    Place → List Middleware
  | .arrived => [agentCommand config.agent env]
  | .commanded => guards config env
  | .passed => [ai config.ai serde env]
  | .answered => [formatter, outboxStage serde env]
  | .left => []

/-- The segments make up the chain. -/
theorem assemble_eq_segments (config : AppConfig) (serde : SerdeText) (env : Surroundings) :
    assemble config serde env =
      segment config serde env .arrived ++ (segment config serde env .commanded ++
        (segment config serde env .passed ++ segment config serde env .answered)) := by
  unfold assemble segment
  rfl

/-- A message on its way, with what it meets there. -/
structure Flight where
  env : Surroundings
  ctx : PipelineContext
  place : Place

/-- The messages on their way, the instant at which the last of them was at
the guards, and the shared state. -/
structure Traffic where
  flights : List Flight
  clock : Nat
  shared : PipelineState

inductive Act where
  | arrive (conversation : ConversationSnapshot) (message : Message) (env : Surroundings)
  /-- the next segment of the message with this number -/
  | advance (n : Nat)

/-- The message after its segment.  An error ends its way. -/
def Flight.moved (config : AppConfig) (serde : SerdeText) (flight : Flight) (s : PipelineState) :
    Flight × PipelineState :=
  match runPipeline (segment config serde flight.env flight.place) flight.ctx s with
  | (.ok ctx, s') => ({ flight with ctx := ctx, place := flight.place.next }, s')
  | (.error _, s') => ({ flight with place := .left }, s')

/-- The message is at the guards no earlier than the ones before it. -/
def Flight.Timely (flight : Flight) (clock : Nat) : Prop :=
  flight.place = .commanded → clock ≤ flight.env.checkedAt ∧ flight.env.checkedAt ≤ flight.env.passedAt

instance (flight : Flight) (clock : Nat) : Decidable (flight.Timely clock) :=
  inferInstanceAs (Decidable (_ → _))

def Flight.clockAfter (flight : Flight) (clock : Nat) : Nat :=
  if flight.place = .commanded then flight.env.passedAt else clock

def Traffic.step (config : AppConfig) (serde : SerdeText) (t : Traffic) : Act → Option Traffic
  | .arrive conversation message env =>
    some { t with flights := t.flights ++ [⟨env, .new config conversation message, .arrived⟩] }
  | .advance n =>
    match t.flights[n]? with
    | none => none
    | some flight =>
      if flight.place ≠ .left ∧ flight.Timely t.clock then
        let (flight', s') := flight.moved config serde t.shared
        some ⟨t.flights.set n flight', flight.clockAfter t.clock, s'⟩
      else none

/-- A start of the program: no message is on its way, and no window is set. -/
def Traffic.init (preferences : KeyedTable UserAgentPreference.key) (database : Outbox.World) :
    Traffic :=
  ⟨[], 0, ⟨preferences, fun _ => none, database, []⟩⟩

section Step

variable {config : AppConfig} {serde : SerdeText} {t t' : Traffic} {n : Nat}

/-- What a move of a message does. -/
theorem step_advance_eq_some :
    t.step config serde (.advance n) = some t' ↔
      ∃ flight, t.flights[n]? = some flight ∧ flight.place ≠ .left ∧ flight.Timely t.clock ∧
        t' = ⟨t.flights.set n (flight.moved config serde t.shared).1,
          flight.clockAfter t.clock, (flight.moved config serde t.shared).2⟩ := by
  unfold Traffic.step
  dsimp only
  cases hflight : t.flights[n]? with
  | none => simp
  | some flight =>
    by_cases h : flight.place ≠ .left ∧ flight.Timely t.clock
    · dsimp only
      rw [if_pos h]
      constructor
      · intro heq
        exact ⟨flight, rfl, h.1, h.2, (Option.some.inj heq).symm⟩
      · intro hexists
        obtain ⟨flight', hflight', -, -, rfl⟩ := hexists
        cases hflight'
        rfl
    · dsimp only
      rw [if_neg h]
      refine iff_of_false (by simp) ?_
      intro hexists
      obtain ⟨flight', hflight', hplace, htimely, -⟩ := hexists
      cases hflight'
      exact h ⟨hplace, htimely⟩

end Step

/-! ## A message that is alone -/

/-- What is left of the chain at a place. -/
def rest (config : AppConfig) (serde : SerdeText) (env : Surroundings) : Place → List Middleware
  | .arrived => segment config serde env .arrived ++ (segment config serde env .commanded ++
      (segment config serde env .passed ++ segment config serde env .answered))
  | .commanded => segment config serde env .commanded ++
      (segment config serde env .passed ++ segment config serde env .answered)
  | .passed => segment config serde env .passed ++ segment config serde env .answered
  | .answered => segment config serde env .answered
  | .left => []

theorem rest_eq (config : AppConfig) (serde : SerdeText) (env : Surroundings) (place : Place) :
    rest config serde env place =
      segment config serde env place ++ rest config serde env place.next := by
  cases place with
  | arrived | commanded | passed => rfl
  | answered | left => exact (List.append_nil _).symm

section Alone

variable {config : AppConfig} {serde : SerdeText} {env : Surroundings}

/-- A message is not late at a place: the guards check it after those before
it. -/
def OnTime (env : Surroundings) (clock : Nat) : Place → Prop
  | .arrived | .commanded => clock ≤ env.checkedAt
  | .passed | .answered | .left => clock ≤ env.passedAt

/-- The last message can go the rest of its way. -/
def Lands (config : AppConfig) (serde : SerdeText) (env : Surroundings) (place : Place) : Prop :=
  ∀ (before : List Flight) (ctx : PipelineContext) (clock : Nat) (s : PipelineState),
    OnTime env clock place → ∃ acts t',
      run (Traffic.step config serde) ⟨before ++ [⟨env, ctx, place⟩], clock, s⟩ acts = some t' ∧
        t'.shared = (runPipeline (rest config serde env place) ctx s).2 ∧
        t'.clock ≤ env.passedAt

theorem lands_left : Lands config serde env .left :=
  fun _ _ _ _ hclock => ⟨[], _, rfl, rfl, hclock⟩

theorem onTime_next (hinstants : env.checkedAt ≤ env.passedAt) (ctx : PipelineContext)
    {clock : Nat} {place : Place} (h : OnTime env clock place) :
    OnTime env ((⟨env, ctx, place⟩ : Flight).clockAfter clock) place.next ∧
      (⟨env, ctx, place⟩ : Flight).clockAfter clock ≤ env.passedAt := by
  cases place with
  | arrived => exact ⟨h, Nat.le_trans h hinstants⟩
  | commanded => exact ⟨Nat.le_refl _, Nat.le_refl _⟩
  | passed | answered | left => exact ⟨h, h⟩

/-- One segment, and then the others. -/
theorem lands_of_next {place : Place} (hplace : place ≠ .left)
    (hinstants : env.checkedAt ≤ env.passedAt) (hnext : Lands config serde env place.next) :
    Lands config serde env place := by
  intro before ctx clock s hontime
  let flight : Flight := ⟨env, ctx, place⟩
  have hflight : (before ++ [flight])[before.length]? = some flight := by simp
  have htimely : flight.Timely clock := by
    intro hcommanded
    have hplace' : place = .commanded := hcommanded
    rw [hplace'] at hontime
    exact ⟨hontime, hinstants⟩
  have hmove : Traffic.step config serde ⟨before ++ [flight], clock, s⟩ (.advance before.length) =
      some ⟨before ++ [(flight.moved config serde s).1], flight.clockAfter clock,
        (flight.moved config serde s).2⟩ := by
    refine step_advance_eq_some.mpr ⟨flight, hflight, hplace, htimely, ?_⟩
    simp
  obtain ⟨hontime', hclock⟩ := onTime_next hinstants ctx hontime
  cases hresult : runPipeline (segment config serde env place) ctx s with
  | mk result s' =>
    cases result with
    | error e =>
      have hmoved : flight.moved config serde s = (⟨env, ctx, .left⟩, s') := by
        unfold Flight.moved
        rw [hresult]
      rw [hmoved] at hmove
      refine ⟨[.advance before.length], _, run_cons_eq_some.mpr ⟨_, hmove, rfl⟩, ?_, hclock⟩
      rw [rest_eq]
      exact (congrArg Prod.snd (run_append_of_error hresult _)).symm
    | ok ctx' =>
      have hmoved : flight.moved config serde s = (⟨env, ctx', place.next⟩, s') := by
        unfold Flight.moved
        rw [hresult]
      rw [hmoved] at hmove
      obtain ⟨acts, t', hrun, hshared, hclock'⟩ := hnext before ctx' _ s' hontime'
      refine ⟨.advance before.length :: acts, t', run_cons_eq_some.mpr ⟨_, hmove, hrun⟩, ?_, hclock'⟩
      rw [hshared, rest_eq config serde env place]
      exact (congrArg Prod.snd (run_append_of_ok hresult _)).symm

/-- A message that is alone leaves what the chain leaves. -/
theorem run_alone (config : AppConfig) (serde : SerdeText) (env : Surroundings)
    (conversation : ConversationSnapshot) (message : Message) (t : Traffic)
    (hinstants : t.clock ≤ env.checkedAt ∧ env.checkedAt ≤ env.passedAt) :
    ∃ acts t', run (Traffic.step config serde) t acts = some t' ∧
      t'.shared =
        (runPipeline (assemble config serde env) (.new config conversation message) t.shared).2 ∧
      t'.clock ≤ env.passedAt := by
  have hlands : Lands config serde env .arrived :=
    lands_of_next (by decide) hinstants.2 <| lands_of_next (by decide) hinstants.2 <|
      lands_of_next (by decide) hinstants.2 <| lands_of_next (by decide) hinstants.2 lands_left
  obtain ⟨acts, t', hrun, hshared, hclock⟩ :=
    hlands t.flights (.new config conversation message) t.clock t.shared hinstants.1
  refine ⟨.arrive conversation message env :: acts, t', run_cons_eq_some.mpr ⟨_, rfl, hrun⟩, ?_,
    hclock⟩
  rw [hshared, assemble_eq_segments]
  rfl

end Alone

end MagicLaw.Pipeline
