import MagicLaw.Ai.CliAgent
import MagicLaw.Lib.Replace

/-!
# The command line of an agent

The loop of `run_cli_agent` in `core/ai/cli_agent.rs` that makes the arguments
of an agent out of the template in its configuration.  A token with `{prompt}`
takes the prompt, another one with `{output_file}` the path of the file, and
the prompt comes last when no token takes it.

* `buildArgv_eq`: the loop makes the command line of the run.
* `argv_eq`: the template alone says which texts the arguments have, and the
  prompt only joins them.
* `prompt_confined`: two prompts make a difference only where the template has
  `{prompt}`, or at the end, and they are there as they are.
-/

namespace MagicLaw.Ai

open Lib Lib.Replace

/-! ## The loop -/

/-- One pass of the loop, with `have_prompt` and the arguments so far. -/
def pushToken (prompt : String) (outFile : Option String) :
    Bool × List String → String → Bool × List String
  | (havePrompt, tokens), a =>
    if Text.contains a promptToken then (true, tokens ++ [a.replace promptToken prompt])
    else if Text.contains a outputFileToken then
      match outFile with
      | some path => (havePrompt, tokens ++ [a.replace outputFileToken path])
      | none => (havePrompt, tokens ++ [a])
    else (havePrompt, tokens ++ [a])

def buildArgv (config : CliAgentConfig) (prompt : String) (outFile : Option String) :
    List String :=
  let (havePrompt, tokens) := config.args.foldl (pushToken prompt outFile) (false, [])
  if havePrompt then tokens else tokens ++ [prompt]

/-- What becomes of a token without `{prompt}`. -/
def expandOutputFile (outFile : Option String) (a : String) : String :=
  if Text.contains a outputFileToken then
    match outFile with
    | some path => a.replace outputFileToken path
    | none => a
  else a

def expandToken (prompt : String) (outFile : Option String) (a : String) : String :=
  if Text.contains a promptToken then a.replace promptToken prompt else expandOutputFile outFile a

theorem pushToken_eq (prompt : String) (outFile : Option String) (havePrompt : Bool)
    (tokens : List String) (a : String) :
    pushToken prompt outFile (havePrompt, tokens) a =
      (havePrompt || Text.contains a promptToken, tokens ++ [expandToken prompt outFile a]) := by
  unfold pushToken expandToken expandOutputFile
  by_cases hprompt : Text.contains a promptToken = true
  · simp [hprompt]
  · cases outFile <;> by_cases hfile : Text.contains a outputFileToken = true <;>
      simp [hprompt, hfile]

theorem foldl_pushToken (prompt : String) (outFile : Option String) (args : List String)
    (havePrompt : Bool) (tokens : List String) :
    args.foldl (pushToken prompt outFile) (havePrompt, tokens) =
      (havePrompt || args.any (Text.contains · promptToken),
        tokens ++ args.map (expandToken prompt outFile)) := by
  induction args generalizing havePrompt tokens with
  | nil => simp
  | cons a args ih =>
    rw [List.foldl_cons, pushToken_eq, ih, List.any_cons, List.map_cons, Bool.or_assoc,
      List.append_assoc]
    rfl

theorem buildArgv_eq (config : CliAgentConfig) (prompt : String) (outFile : Option String) :
    buildArgv config prompt outFile = argv config prompt outFile := by
  unfold buildArgv
  rw [foldl_pushToken]
  rfl

/-! ## The texts of the template -/

theorem promptToken_ne : promptToken ≠ "" := by decide

/-- The texts of a token, which the prompt joins. -/
def tokenTexts (outFile : Option String) (a : String) : List String :=
  if Text.contains a promptToken then parts promptToken a else [expandOutputFile outFile a]

/-- The texts of all arguments.  The prompt alone has nothing around it. -/
def argvTexts (config : CliAgentConfig) (outFile : Option String) : List (List String) :=
  let tokens := config.args.map (tokenTexts outFile)
  if config.args.any (Text.contains · promptToken) then tokens else tokens ++ [["", ""]]

theorem expandToken_eq (prompt : String) (outFile : Option String) (a : String) :
    expandToken prompt outFile a = prompt.intercalate (tokenTexts outFile a) := by
  unfold expandToken tokenTexts
  by_cases hprompt : Text.contains a promptToken = true
  · rw [if_pos hprompt, if_pos hprompt, replace_eq promptToken_ne]
  · rw [if_neg hprompt, if_neg hprompt, String.intercalate_singleton]

/-- The arguments are these texts, with the prompt between them. -/
theorem argv_eq (config : CliAgentConfig) (prompt : String) (outFile : Option String) :
    argv config prompt outFile = (argvTexts config outFile).map prompt.intercalate := by
  have htokens : config.args.map (expandToken prompt outFile) =
      (config.args.map (tokenTexts outFile)).map prompt.intercalate := by
    rw [List.map_map]
    exact List.map_congr_left fun a _ => expandToken_eq prompt outFile a
  rw [← buildArgv_eq, buildArgv, foldl_pushToken, htokens]
  unfold argvTexts
  by_cases hany : config.args.any (Text.contains · promptToken) = true
  · simp [hany]
  · simp [hany]

variable {config : CliAgentConfig} {outFile : Option String}

theorem argvTexts_of_token {n : Nat} {a : String} (hn : config.args[n]? = some a) :
    (argvTexts config outFile)[n]? = some (tokenTexts outFile a) := by
  have htokens : (config.args.map (tokenTexts outFile))[n]? = some (tokenTexts outFile a) := by
    rw [List.getElem?_map, hn]
    rfl
  unfold argvTexts
  dsimp only
  split
  case isTrue => exact htokens
  case isFalse =>
    obtain ⟨hlt, -⟩ := List.getElem?_eq_some_iff.mp htokens
    rw [List.getElem?_append_left hlt]
    exact htokens

theorem argvTexts_of_no_prompt (h : ∀ a ∈ config.args, Text.contains a promptToken = false) :
    argvTexts config outFile = config.args.map (tokenTexts outFile) ++ [["", ""]] := by
  have hany : ¬ config.args.any (Text.contains · promptToken) = true := by
    simpa using h
  unfold argvTexts
  dsimp only
  rw [if_neg hany]

theorem argv_of_no_prompt (h : ∀ a ∈ config.args, Text.contains a promptToken = false)
    (prompt : String) :
    argv config prompt outFile = config.args.map (expandOutputFile outFile) ++ [prompt] := by
  have htokens : ∀ a ∈ config.args,
      (prompt.intercalate ∘ tokenTexts outFile) a = expandOutputFile outFile a := by
    intro a ha
    have hnot : ¬ Text.contains a promptToken = true := by
      rw [h a ha]
      exact Bool.false_ne_true
    show prompt.intercalate (tokenTexts outFile a) = _
    rw [tokenTexts, if_neg hnot, String.intercalate_singleton]
  rw [argv_eq, argvTexts_of_no_prompt h, List.map_append, List.map_map,
    List.map_congr_left htokens]
  simp

/-! ## Two prompts -/

/-- Where an argument takes the prompt: at a token with `{prompt}`, or after
the last token when there is none. -/
def CliAgentConfig.TakesPrompt (config : CliAgentConfig) (n : Nat) : Prop :=
  (∃ a, config.args[n]? = some a ∧ Text.contains a promptToken = true) ∨
    (∀ a ∈ config.args, Text.contains a promptToken = false) ∧ n = config.args.length

/-- Elsewhere an argument is one text. -/
theorem takesPrompt_of_texts {n : Nat} {texts : List String}
    (hn : (argvTexts config outFile)[n]? = some texts) (htexts : ∀ text, texts ≠ [text]) :
    config.TakesPrompt n := by
  cases htoken : config.args[n]? with
  | some a =>
    refine .inl ⟨a, htoken, ?_⟩
    by_contra hprompt
    rw [argvTexts_of_token htoken, Option.some.injEq] at hn
    refine htexts (expandOutputFile outFile a) ?_
    rw [← hn, tokenTexts, if_neg hprompt]
  | none =>
    have hout := List.getElem?_eq_none_iff.mp htoken
    obtain ⟨hlt, -⟩ := List.getElem?_eq_some_iff.mp hn
    unfold argvTexts at hlt
    dsimp only at hlt
    split at hlt
    case isTrue =>
      rw [List.length_map] at hlt
      omega
    case isFalse hany =>
      rw [List.length_append, List.length_map, List.length_singleton] at hlt
      exact .inr ⟨by simpa using hany, by omega⟩

/-- Two prompts make as many arguments, and different ones only where the
template takes the prompt.  There the argument is the token with the prompt in
place of each `{prompt}`, whatever the prompt has in it. -/
theorem prompt_confined (config : CliAgentConfig) (outFile : Option String) :
    (∀ p q : String, (argv config p outFile).length = (argv config q outFile).length) ∧
      (∀ (p q : String) (n : Nat),
        (argv config p outFile)[n]? ≠ (argv config q outFile)[n]? → config.TakesPrompt n) ∧
      (∀ (n : Nat) (a : String), config.args[n]? = some a → Text.contains a promptToken = true →
        ∃ texts : List String, promptToken.intercalate texts = a ∧
          (∀ text ∈ texts, Text.contains text promptToken = false) ∧
          ∀ prompt : String, (argv config prompt outFile)[n]? = some (prompt.intercalate texts)) ∧
      ((∀ a ∈ config.args, Text.contains a promptToken = false) →
        ∃ tokens : List String, tokens.length = config.args.length ∧
          ∀ prompt : String, argv config prompt outFile = tokens ++ [prompt]) := by
  refine ⟨fun p q => ?_, fun p q n hne => ?_, fun n a hn hprompt => ?_, fun hnone => ?_⟩
  · rw [argv_eq, argv_eq, List.length_map, List.length_map]
  · rw [argv_eq, argv_eq, List.getElem?_map, List.getElem?_map] at hne
    cases hn : (argvTexts config outFile)[n]? with
    | none =>
      rw [hn] at hne
      exact absurd rfl hne
    | some texts =>
      refine takesPrompt_of_texts hn fun text htext => hne ?_
      rw [hn, htext, Option.map_some, Option.map_some, String.intercalate_singleton,
        String.intercalate_singleton]
  · refine ⟨parts promptToken a, intercalate_parts promptToken_ne a,
      fun text htext => not_contains_of_mem_parts promptToken_ne htext, fun prompt => ?_⟩
    rw [argv_eq, List.getElem?_map, argvTexts_of_token hn, tokenTexts, if_pos hprompt,
      Option.map_some]
  · exact ⟨_, List.length_map _, argv_of_no_prompt hnone⟩

end MagicLaw.Ai
