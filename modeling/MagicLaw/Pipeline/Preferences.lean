import Mathlib.Data.List.Induction
import MagicLaw.Pipeline.Middleware

/-!
# The agent that a user has switched to

The preferences after a history of messages: `getUserAgent_after` says that
the store has, for each key, the agent of the last switch of that key.  From
it, `lastSwitch_wins` says what becomes of a message that is no command.
-/

namespace MagicLaw.Pipeline

open Lib
open MagicLaw.Routing (Message MessageContent)

/-- A message that comes to the middleware, and what it meets there. -/
structure Arrival where
  config : AppConfig
  conversation : ConversationSnapshot
  message : Message
  env : Surroundings

def Arrival.ctx (a : Arrival) : PipelineContext := .new a.config a.conversation a.message

/-- The channel, the account scope and the peer. -/
def Arrival.key (a : Arrival) : String × String × String := a.ctx.preferenceKey

/-- The store works when the message comes. -/
def Arrival.StoreWorks (a : Arrival) : Prop := a.env.preferenceFault = none

/-- The agent that a command switches to. -/
def AgentCommand.switchedTo : AgentCommand → Option String
  | .switch agent => some agent
  | .switchAndProcess agent _ => some agent
  | _ => none

/-- The agent that the message switches to. -/
def Arrival.switchedTo (config : AgentConfig) (a : Arrival) : Option String :=
  match a.message.content with
  | .text text => (parse config.parser text).switchedTo
  | _ => none

def PipelineState.init : PipelineState := ⟨KeyedTable.empty, fun _ => none, Outbox.World.init, []⟩

/-- What the middleware makes of a message. -/
def Arrival.process (config : AgentConfig) (s : PipelineState) (a : Arrival) :
    Except PipelineError PipelineContext × PipelineState :=
  agentCommandProcess config a.env a.ctx s

/-- The state after a history of messages. -/
def stateAfter (config : AgentConfig) (history : List Arrival) : PipelineState :=
  history.foldl (fun s a => (a.process config s).2) .init

/-- The agent of the last message of the key that switched. -/
def lastSwitch (config : AgentConfig) (history : List Arrival) (key : String × String × String) :
    Option String :=
  ((history.filter fun a => a.key = key).filterMap (Arrival.switchedTo config)).getLast?

section History

variable {config : AgentConfig}

/-- What a command leaves in the store: the agent that it switches to, under
the key of the message. -/
theorem getUserAgent_handleCommand {env : Surroundings} (hworks : env.preferenceFault = none)
    (ctx : PipelineContext) (s : PipelineState) (command : AgentCommand)
    (key : String × String × String) :
    getUserAgent (handleCommand config env ctx s command).2.preferences key =
      if ctx.preferenceKey = key then
        command.switchedTo.or (getUserAgent s.preferences key)
      else getUserAgent s.preferences key := by
  unfold handleCommand
  cases command with
  | switch agent | switchAndProcess agent newText =>
    simp only [setUserAgentViaPort_of_works _ hworks]
    refine (getUserAgent_setUserAgent _ _ _ _ _).trans ?_
    simp only [AgentCommand.switchedTo, Option.some_or, eq_comm]
  | query =>
    simp only [AgentCommand.switchedTo, Option.none_or, ite_self]
    split <;> rfl
  | notCommand =>
    simp only [AgentCommand.switchedTo, Option.none_or, ite_self]
    split
    · rfl
    · split <;> rfl

theorem getUserAgent_process {a : Arrival} (hworks : a.StoreWorks) (s : PipelineState)
    (key : String × String × String) :
    getUserAgent (a.process config s).2.preferences key =
      if a.key = key then (a.switchedTo config).or (getUserAgent s.preferences key)
      else getUserAgent s.preferences key := by
  unfold Arrival.process
  by_cases htext : ∃ text, a.message.content = .text text
  · obtain ⟨text, htext⟩ := htext
    have hswitched : a.switchedTo config = (parse config.parser text).switchedTo := by
      unfold Arrival.switchedTo
      rw [htext]
    rw [agentCommandProcess_of_text htext, hswitched, getUserAgent_handleCommand hworks]
    rfl
  · have hnot : ∀ text, a.message.content ≠ .text text := fun text h => htext ⟨text, h⟩
    have hswitched : a.switchedTo config = none := by
      unfold Arrival.switchedTo
      split
      · exact absurd ‹_› (hnot _)
      · rfl
    rw [agentCommandProcess_of_not_text hnot, hswitched, Option.none_or, ite_self]

theorem stateAfter_concat (history : List Arrival) (a : Arrival) :
    stateAfter config (history ++ [a]) = (a.process config (stateAfter config history)).2 := by
  unfold stateAfter
  rw [List.foldl_append]
  rfl

theorem lastSwitch_concat (history : List Arrival) (a : Arrival)
    (key : String × String × String) :
    lastSwitch config (history ++ [a]) key =
      if a.key = key then (a.switchedTo config).or (lastSwitch config history key)
      else lastSwitch config history key := by
  unfold lastSwitch
  rw [List.filter_append, List.filterMap_append, List.getLast?_append]
  by_cases hkey : a.key = key
  · rw [if_pos hkey, List.filter_singleton, decide_eq_true hkey, cond_true]
    cases hswitch : a.switchedTo config with
    | none => simp [hswitch]
    | some agent => simp [hswitch]
  · rw [if_neg hkey, List.filter_singleton, decide_eq_false hkey, cond_false]
    rfl

/-- The store has the last switch of each key. -/
theorem getUserAgent_after {history : List Arrival} (hworks : ∀ a ∈ history, a.StoreWorks)
    (key : String × String × String) :
    getUserAgent (stateAfter config history).preferences key = lastSwitch config history key := by
  induction history using List.reverseRecOn with
  | nil => rfl
  | append_singleton history a ih =>
    rw [stateAfter_concat, lastSwitch_concat,
      getUserAgent_process (hworks a (List.mem_append_right _ (List.mem_singleton_self a))),
      ih fun b hb => hworks b (List.mem_append_left _ hb)]

/-- A message that is no command gets the user's agent, or the prompt. -/
theorem process_of_notCommand {a : Arrival} {text : String} {s : PipelineState}
    (henabled : config.enableUserPreferences = true) (hworks : a.StoreWorks)
    (htext : a.message.content = .text text) (hnot : parse config.parser text = .notCommand) :
    (a.process config s).1 =
      match getUserAgent s.preferences a.key with
      | some agent => .ok { a.ctx with userAgentSelection := some agent }
      | none => .ok { a.ctx with aiResponse := some selectionPrompt, shortCircuit := true } := by
  unfold Arrival.process
  have hkey : a.ctx.preferenceKey = a.key := rfl
  rw [agentCommandProcess_of_text htext, hnot, handleCommand_notCommand henabled hworks, hkey]
  cases getUserAgent s.preferences a.key with
  | none => rfl
  | some agent => rfl

/-- The messages of other keys do not count. -/
theorem lastSwitch_filter (history : List Arrival) (key : String × String × String) :
    lastSwitch config (history.filter fun b => b.key = key) key = lastSwitch config history key := by
  unfold lastSwitch
  rw [List.filter_filter]
  simp only [Bool.and_self]

end History

/-- The agent is selected for the message. -/
def Selects (result : Except PipelineError PipelineContext) (agent : String) : Prop :=
  ∃ ctx, result = .ok ctx ∧ ctx.userAgentSelection = some agent

/-- The message is answered with the prompt and goes no further. -/
def Prompts (result : Except PipelineError PipelineContext) : Prop :=
  ∃ ctx, result = .ok ctx ∧ ctx.aiResponse = some selectionPrompt ∧ ctx.shortCircuit = true

/-- After every history of messages, a message that is no command gets the
agent that its key switched to last, it is prompted exactly when its key never
switched, and without the messages of other keys it would fare the same. -/
theorem lastSwitch_wins (config : AgentConfig) (henabled : config.enableUserPreferences = true)
    (history : List Arrival) (a : Arrival) (text : String)
    (hworks : ∀ b ∈ history ++ [a], b.StoreWorks) (htext : a.message.content = .text text)
    (hnot : parse config.parser text = .notCommand) :
    let result := (a.process config (stateAfter config history)).1
    let alone := history.filter fun b => b.key = a.key
    (∀ agent, Selects result agent ↔ lastSwitch config history a.key = some agent) ∧
      (Prompts result ↔ lastSwitch config history a.key = none) ∧
      (a.process config (stateAfter config alone)).1 = result := by
  intro result alone
  have hlast := hworks a (List.mem_append_right _ (List.mem_singleton_self a))
  have hhistory : ∀ b ∈ history, b.StoreWorks := fun b hb => hworks b (List.mem_append_left _ hb)
  have halone : ∀ b ∈ alone, b.StoreWorks := fun b hb => hhistory b (List.mem_of_mem_filter hb)
  have hresult : result =
      match lastSwitch config history a.key with
      | some agent => .ok { a.ctx with userAgentSelection := some agent }
      | none => .ok { a.ctx with aiResponse := some selectionPrompt, shortCircuit := true } := by
    rw [← getUserAgent_after hhistory]
    exact process_of_notCommand henabled hlast htext hnot
  refine ⟨fun agent => ?_, ?_, ?_⟩
  · rw [hresult]
    cases lastSwitch config history a.key with
    | none =>
      refine iff_of_false ?_ (by simp)
      intro hexists
      obtain ⟨ctx, hctx, hselection⟩ := hexists
      cases hctx
      cases hselection
    | some last =>
      constructor
      · intro hexists
        obtain ⟨ctx, hctx, hselection⟩ := hexists
        cases hctx
        exact hselection
      · intro h
        exact ⟨_, rfl, h⟩
  · rw [hresult]
    cases lastSwitch config history a.key with
    | none => exact iff_of_true ⟨_, rfl, rfl, rfl⟩ rfl
    | some last =>
      refine iff_of_false ?_ (by simp)
      intro hexists
      obtain ⟨ctx, hctx, hprompt, -⟩ := hexists
      cases hctx
      cases hprompt
  · rw [process_of_notCommand henabled hlast htext hnot, getUserAgent_after halone,
      lastSwitch_filter, hresult]

/-! ## Two users -/

/-- A message of a user on WeChat. -/
def wechatArrival (peer text : String) : Arrival where
  config := ⟨⟨"echo", [], 3000⟩, ⟨true, []⟩, "default"⟩
  conversation := ⟨[]⟩
  message := .newInbound "m" ⟨⟨"wechat"⟩, "", peer, .direct⟩ none 1700000000000 (.text text)
  env := ⟨none, 1700000000, 0, 0, none, .ok "reply", 1700000000, none⟩

/-- Alice switches twice, Bob in between. -/
def twoUsers : List Arrival :=
  [wechatArrival "alice" "cc", wechatArrival "alice" "/cx what is this?",
    wechatArrival "bob" "hermes", wechatArrival "alice" "agent"]

/-- Alice gets the agent of her second switch. -/
theorem twoUsers_selects :
    Selects ((wechatArrival "alice" "and now?").process ⟨true, []⟩
      (stateAfter ⟨true, []⟩ twoUsers)).1 "codex" :=
  ((lastSwitch_wins ⟨true, []⟩ rfl twoUsers (wechatArrival "alice" "and now?") "and now?"
    (by
      intro b hb
      simp only [twoUsers, List.cons_append, List.nil_append, List.mem_cons, List.not_mem_nil,
        or_false] at hb
      rcases hb with rfl | rfl | rfl | rfl | rfl <;> rfl)
    rfl (by decide +kernel)).1 "codex").mpr (by decide +kernel)

end MagicLaw.Pipeline
