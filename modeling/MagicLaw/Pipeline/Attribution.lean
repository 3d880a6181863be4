import MagicLaw.Pipeline.Replies

/-!
# Whose name a reply carries

The AI stage looks up a backend, with two fallbacks: a selected agent that is
not in the map is served by the default backend, and a name for which there is
no backend is served by `EchoBackend`.  The formatter takes the name of the
selected agent, or that of the configuration, and does not ask which backend
has served the message.

* `name_selectBackend_iff`: where the two agree.
* `reply_attributed_iff`: in every run of the chain the tag of the reply is the
  name of the backend that was called exactly there.

With the default aliases `oc` selects `openclaw`, which is in the map and is
served by `EchoBackend` unless the configuration has an agent of that name.
-/

namespace MagicLaw.Pipeline

open Lib Lib.Stages
open MagicLaw.Routing (Message MessageContent)

/-! ## Backends under their own names -/

/-- The configuration has a backend of this name. -/
def AiConfig.Provides (config : AiConfig) (name : String) : Prop :=
  name ∈ ["echo", "claude_code"] ∨ name ∈ config.agents ∨ name ∈ presets

/-- `create_backend` is called with this name for the map. -/
def AiConfig.Maps (config : AiConfig) (name : String) : Prop :=
  name ∈ builtinAgents ∨ name ∈ config.agents

/-- The selected or configured name is that of a backend. -/
def AiConfig.NamesBackend (config : AiConfig) : Option String → Prop
  | some agent =>
    config.Provides agent ∧ (config.Maps agent ∨ agent = config.backend)
  | none => config.Provides config.backend

theorem createBackend_of_ne {config : AiConfig} {name : String} (hecho : name ≠ "echo")
    (hclaude : name ≠ "claude_code") :
    createBackend config name =
      if name ∈ config.agents then .cli name else if name ∈ presets then .cli name else .echo := by
  unfold createBackend
  split
  · exact absurd rfl hecho
  · exact absurd rfl hclaude
  · rfl

/-- A backend that is created has the name that was asked for, or is that of
the fallback. -/
theorem name_createBackend (config : AiConfig) (name : String) :
    (createBackend config name).name = name ∧ config.Provides name ∨
      createBackend config name = .echo ∧ ¬ config.Provides name := by
  by_cases hecho : name = "echo"
  · subst hecho
    exact .inl ⟨rfl, .inl (by decide)⟩
  · by_cases hclaude : name = "claude_code"
    · subst hclaude
      exact .inl ⟨rfl, .inl (by decide)⟩
    · rw [createBackend_of_ne hecho hclaude]
      by_cases hagent : name ∈ config.agents
      · rw [if_pos hagent]
        exact .inl ⟨rfl, .inr (.inl hagent)⟩
      · rw [if_neg hagent]
        by_cases hpreset : name ∈ presets
        · rw [if_pos hpreset]
          exact .inl ⟨rfl, .inr (.inr hpreset)⟩
        · rw [if_neg hpreset]
          refine .inr ⟨rfl, ?_⟩
          rintro (hfirst | hrest | hrest)
          · simp only [List.mem_cons, List.not_mem_nil, or_false] at hfirst
            exact hfirst.elim hecho hclaude
          · exact hagent hrest
          · exact hpreset hrest

theorem name_createBackend_iff (config : AiConfig) (name : String) :
    (createBackend config name).name = name ↔ config.Provides name := by
  rcases name_createBackend config name with ⟨hname, hprovides⟩ | ⟨hecho, hnot⟩
  · exact iff_of_true hname hprovides
  · refine iff_of_false ?_ hnot
    intro hname
    rw [hecho] at hname
    exact hnot (.inl (by rw [← hname]; decide))

theorem backendMap_eq (config : AiConfig) (name : String) :
    backendMap config name = some (createBackend config name) ∧ config.Maps name ∨
      backendMap config name = none ∧ ¬ config.Maps name := by
  have hmaps : (name ∈ builtinAgents || name ∈ config.agents) = true ↔ config.Maps name := by
    unfold AiConfig.Maps
    simp
  unfold backendMap
  by_cases h : config.Maps name
  · exact .inl ⟨if_pos (hmaps.mpr h), h⟩
  · exact .inr ⟨if_neg fun hor => h (hmaps.mp hor), h⟩

/-- The name that the formatter takes is that of the backend which serves the
message. -/
theorem name_selectBackend_iff (config : AiConfig) (selection : Option String) :
    (selectBackend config selection).name = selection.getD config.backend ↔
      config.NamesBackend selection := by
  cases selection with
  | none => exact name_createBackend_iff config config.backend
  | some agent =>
    show ((backendMap config agent).getD (createBackend config config.backend)).name = agent ↔
      config.Provides agent ∧ (config.Maps agent ∨ agent = config.backend)
    rcases backendMap_eq config agent with ⟨hmap, hmaps⟩ | ⟨hmap, hnot⟩
    · rw [hmap, Option.getD_some, name_createBackend_iff]
      exact ⟨fun h => ⟨h, .inl hmaps⟩, And.left⟩
    · rw [hmap, Option.getD_none]
      constructor
      · intro hname
        rcases name_createBackend config config.backend with ⟨hown, hprovides⟩ | ⟨hecho, -⟩
        · have hagent : agent = config.backend := hname.symm.trans hown
          exact ⟨hagent ▸ hprovides, .inr hagent⟩
        · -- the name of the fallback is in the map
          rw [hecho] at hname
          exact absurd (.inl (by rw [← hname]; decide)) hnot
      · intro ⟨hprovides, hagent⟩
        have hagent := hagent.resolve_left hnot
        rw [hagent] at hprovides ⊢
        exact (name_createBackend_iff config config.backend).mpr hprovides

/-! ## The stages -/

/-- What the AI stage answers with: what the backend has generated, or the
text with the error. -/
def Backend.answer (backend : Backend) (env : Surroundings) (input : String) : String :=
  match backend.generate env input with
  | .ok response => response
  | .error e => s!"[ai error: {e.toString}] {input}"

theorem aiProcess_eq (config : AiConfig) (serde : SerdeText) (env : Surroundings)
    (s : PipelineState) {ctx : PipelineContext} {text : String}
    (htext : ctx.message.content = .text text) :
    ∃ s', aiProcess config serde env ctx s = (.ok { ctx with
        aiResponse := some ((selectBackend config ctx.userAgentSelection).answer env text) }, s') ∧
      s'.calls = (recordCall s env ctx.message.routeKey
        (selectBackend config ctx.userAgentSelection)).calls := by
  unfold aiProcess Backend.answer
  rw [htext]
  dsimp only
  cases (selectBackend config ctx.userAgentSelection).generate env text with
  | ok response => exact ⟨_, rfl, rfl⟩
  | error e => exact ⟨_, rfl, rfl⟩

theorem agentCommandProcess_config {config : AgentConfig} {env : Surroundings}
    {ctx ctx' : PipelineContext} {s s' : PipelineState}
    (hprocess : agentCommandProcess config env ctx s = (.ok ctx', s')) :
    ctx'.config = ctx.config := by
  unfold agentCommandProcess handleCommand at hprocess
  repeat' split at hprocess
  all_goals cases hprocess <;> rfl

/-- The stages in front of the AI leave the configuration as it is. -/
theorem process_config {config : AppConfig} {env : Surroundings} {stage : Middleware}
    (hstage : stage ∈ agentCommand config.agent env :: guards config env)
    {ctx ctx' : PipelineContext} {s s' : PipelineState}
    (hprocess : stage.process ctx s = (.ok ctx', s')) : ctx'.config = ctx.config := by
  unfold guards at hstage
  rcases List.mem_cons.mp hstage with rfl | hguard
  · exact agentCommandProcess_config hprocess
  · rcases List.mem_append.mp hguard with hfirst | hlimit
    · simp only [List.mem_cons, List.not_mem_nil, or_false] at hfirst
      rcases hfirst with rfl | rfl <;> cases hprocess <;> rfl
    · split at hlimit
      · rw [List.mem_singleton.mp hlimit] at hprocess
        cases hprocess
        rfl
      · exact absurd hlimit List.not_mem_nil

/-- The last two stages tag the answer. -/
theorem run_delivery_content (serde : SerdeText) (env : Surroundings) (s : PipelineState)
    {ctx : PipelineContext} {response : String} (hanswered : ctx.aiResponse = some response) :
    ∃ final s', runPipeline [formatter, outboxStage serde env] ctx s = (.ok final, s') ∧
      final.message.content = .text (addResponderPrefix response ctx.responder) ∧
      s'.calls = s.calls := by
  have hformatter : ∃ c, formatter.process ctx s = (.ok c, s) ∧
      c.message.content = .text (addResponderPrefix response ctx.responder) := by
    unfold formatter
    dsimp only
    rw [hanswered]
    exact ⟨_, rfl, rfl⟩
  obtain ⟨c, hformatter, hcontent⟩ := hformatter
  have houtbox : ∃ s', (outboxStage serde env).process c s = (.ok c, s') ∧ s'.calls = s.calls := by
    show ∃ s', outboxProcess serde env c s = (.ok c, s') ∧ _
    unfold outboxProcess
    repeat' split
    all_goals exact ⟨_, rfl, rfl⟩
  obtain ⟨s', houtbox, hcalls⟩ := houtbox
  refine ⟨c, s', ?_, hcontent, hcalls⟩
  unfold runPipeline
  rw [run_cons_of_ok (.inr rfl) hformatter, run_cons_of_ok (.inr rfl) houtbox, run_nil]

/-! ## The chain -/

/-- A text that reaches the AI in a run of the chain is answered by the backend
that the configuration and the selection lead to.  The reply carries the name
of that backend exactly where the selected or configured name is that of a
backend. -/
theorem reply_attributed_iff {config : AppConfig} {serde : SerdeText} {env : Surroundings}
    {conversation : ConversationSnapshot} {message : Message} {s : PipelineState}
    {ctx : PipelineContext} {s' : PipelineState} {text : String}
    (hreaches : runPipeline (agentCommand config.agent env :: guards config env)
      (.new config conversation message) s = (.ok ctx, s'))
    (hopen : ctx.shortCircuit = false) (htext : ctx.message.content = .text text) :
    let backend := selectBackend config.ai ctx.userAgentSelection
    ∃ final s'', runPipeline (assemble config serde env) (.new config conversation message) s =
        (.ok final, s'') ∧
      s''.calls = (recordCall s' env ctx.message.routeKey backend).calls ∧
      final.message.content = .text (addResponderPrefix (backend.answer env text) ctx.responder) ∧
      (ctx.responder = backend.name ↔ config.ai.NamesBackend ctx.userAgentSelection) := by
  have hconfig : ctx.config = config :=
    run_keeps_context (P := fun c => c.config = config)
      (fun stage hstage c s c' s' hc hprocess => (process_config hstage hprocess).trans hc) rfl
      hreaches
  have hresponder : ctx.responder = ctx.userAgentSelection.getD config.ai.backend := by
    unfold PipelineContext.responder
    rw [hopen, hconfig]
    cases ctx.userAgentSelection <;> rfl
  obtain ⟨s₁, hai, hcalls⟩ := aiProcess_eq config.ai serde env s' htext
  let backend := selectBackend config.ai ctx.userAgentSelection
  let answered := { ctx with aiResponse := some (backend.answer env text) }
  have hai : (ai config.ai serde env).process ctx s' = (.ok answered, s₁) := hai
  obtain ⟨final, s'', hdelivery, hcontent, hsame⟩ :=
    run_delivery_content serde env s₁
      (show answered.aiResponse = some (backend.answer env text) from rfl)
  have hrun : runPipeline (assemble config serde env) (.new config conversation message) s =
      (.ok final, s'') := by
    unfold assemble runPipeline
    rw [run_append_of_ok hreaches, run_cons_of_ok (.inl hopen) hai]
    exact hdelivery
  refine ⟨final, s'', hrun, hsame.trans hcalls, hcontent, ?_⟩
  rw [hresponder, eq_comm]
  exact name_selectBackend_iff config.ai ctx.userAgentSelection

/-! ## Two selections -/

/-- The default aliases, and a backend that answers. -/
def echoConfig : AppConfig := ⟨⟨"echo", [], 3000⟩, ⟨false, []⟩, "default"⟩

def answering : Surroundings :=
  ⟨none, 1700000000, 5000000, 5000000, none, .ok "hi", 1700000000, none⟩

def asked (text : String) : Message :=
  .newInbound "m1" ⟨⟨"wechat"⟩, "", "alice", .direct⟩ none 1700000000000 (.text text)

/-- `openclaw` is selected, and `echo` answers under its name. -/
theorem echo_answers_as_openclaw :
    ∃ ctx s', runPipeline (agentCommand echoConfig.agent answering :: guards echoConfig answering)
        (.new echoConfig ⟨[]⟩ (asked "oc hello")) idleState = (.ok ctx, s') ∧
      ctx.shortCircuit = false ∧ ctx.message.content = .text "hello" ∧
      ctx.responder = "openclaw" ∧
      selectBackend echoConfig.ai ctx.userAgentSelection = .echo ∧
      ∃ final s'', runPipeline (assemble echoConfig derivedText answering)
          (.new echoConfig ⟨[]⟩ (asked "oc hello")) idleState = (.ok final, s'') ∧
        final.message.content = .text "[openclaw] [echo] hello" ∧
        s''.calls.map BackendCall.backend = [.echo] :=
  ⟨_, _, rfl, rfl, rfl, rfl, by decide, _, _, rfl, rfl, rfl⟩

/-- `claude_code` is selected and answers. -/
theorem reply_attributed_claude_code :
    ∃ final s'', runPipeline (assemble echoConfig derivedText answering)
        (.new echoConfig ⟨[]⟩ (asked "cc hello")) idleState = (.ok final, s'') ∧
      s''.calls.map BackendCall.backend = [.claudeCode] ∧
      final.message.content = .text "[claude_code] hi" := by
  obtain ⟨final, s'', hrun, hcalls, hcontent, -⟩ :=
    @reply_attributed_iff echoConfig derivedText answering ⟨[]⟩ (asked "cc hello") idleState
      _ _ _ rfl rfl rfl
  refine ⟨final, s'', hrun, ?_, hcontent⟩
  rw [hcalls]
  rfl

end MagicLaw.Pipeline
