import MagicLaw.Lib.Json
import MagicLaw.Lib.Mac
import MagicLaw.Pipeline.Middleware

/-!
# The backend that runs an agent

`run_cli_agent` of `core/ai/cli_agent.rs`, from the command line to the text
of the reply.  What the agent does with its command line is a parameter, and
so is `serde_json`.

* `error_reported_iff`: an agent that reports an error in its JSON is answered
  with an error exactly where the cap cuts off no more than white space, or
  leaves no more than that.

The error stream is logged, and nothing else is done with it.
-/

namespace MagicLaw.Ai

open Lib Lib.Bytes Lib.Mac
open MagicLaw.Pipeline (AiError)

/-! ## Agents -/

structure CliAgentConfig where
  binaryPath : String
  args : List String
  timeoutSecs : UInt64
  maxOutputBytes : Nat
  resultJsonPointer : Option String
  readOutputFile : Bool

/-- How the child process ends. -/
inductive Ending where
  | spawnFailed (detail : String)
  | noStdout
  | noStderr
  | timedOut
  | waitFailed (detail : String)
  /-- a child that a signal ends has no code -/
  | exited (code : Option Int)
  deriving DecidableEq

/-- What an agent does: how it ends, what its standard output gives in each
read, and the file at the output path when it has ended. -/
structure AgentRun where
  ending : Ending
  stdout : List (List UInt8)
  outputFile : Option (List UInt8)

/-- The path of the temporary file, and what an agent does with its command
line. -/
structure Surroundings where
  outputPath : String
  agent : String → List String → AgentRun

/-- `serde_json::from_str` and `Value::pointer` -/
structure SerdeJson where
  fromStr : String → Except String Json
  pointer : Json → String → Option Json

/-- The text of an object is not JSON when its end is missing, and no JSON
ends in `U+FFFD`. -/
structure SerdeJson.Lawful (serde : SerdeJson) : Prop where
  cut_object : ∀ (text start : String) (fields : List (String × Json)),
    serde.fromStr text = .ok (.obj fields) → Text.trim text = text →
    start.toList <+: text.toList → start ≠ text → ∃ e, serde.fromStr start = .error e
  ends_in_replacement : ∀ text : String, text.toList.getLast? = some replacement →
    ∃ e, serde.fromStr text = .error e

/-! ## The command line -/

def promptToken : String := "\x7bprompt\x7d"

def outputFileToken : String := "\x7boutput_file\x7d"

def argv (config : CliAgentConfig) (prompt : String) (outFile : Option String) : List String :=
  let tokens := config.args.map fun a =>
    if Text.contains a promptToken then a.replace promptToken prompt
    else if Text.contains a outputFileToken then
      match outFile with
      | some path => a.replace outputFileToken path
      | none => a
    else a
  if config.args.any (Text.contains · promptToken) then tokens else tokens ++ [prompt]

/-! ## The output -/

/-- The loop of `read_capped` over the reads, with what it has stored.  A read
of no bytes is the end. -/
def readCapped (limit : Nat) : List UInt8 → List (List UInt8) → List UInt8
  | buf, [] => buf
  | buf, chunk :: chunks =>
    if chunk = [] then buf
    else if buf.length < limit then
      readCapped limit (buf ++ chunk.take (min chunk.length (limit - buf.length))) chunks
    else readCapped limit buf chunks

def readFileCapped (limit : Nat) (content : Option (List UInt8)) : Option String :=
  content.map fun bytes =>
    fromUtf8Lossy (if limit < bytes.length then bytes.take limit else bytes)

def extractReply (serde : SerdeJson) (raw : String) (pointer : Option String) :
    Except String String :=
  match pointer with
  | some ptr =>
    match serde.fromStr (Text.trim raw) with
    | .ok v =>
      if (v.get? "is_error").bind Json.asBool? = some true then
        .error ("agent reported error: " ++ (v.str? "subtype").getD "unknown")
      else
        match (serde.pointer v ptr).bind Json.asStr? with
        | some text =>
          if text ≠ "" then .ok text
          else .error s!"agent json missing non-empty value at pointer '{ptr}'"
        | none => .error s!"agent json missing non-empty value at pointer '{ptr}'"
    -- not JSON: the text itself
    | .error e =>
      if Text.trim raw ≠ "" then .ok (Text.trim raw)
      else .error s!"failed to parse agent output: {e}"
  | none =>
    if Text.trim raw = "" then .error "agent produced empty output" else .ok (Text.trim raw)

/-- `char::is_control` -/
def isControl (c : Char) : Bool := c.val < 0x20 || (0x7f ≤ c.val && c.val ≤ 0x9f)

/-- The first characters, up to so many bytes. -/
def cutChars : Nat → List Char → List Char
  | _, [] => []
  | limit, c :: cs => if c.utf8Size ≤ limit then c :: cutChars (limit - c.utf8Size) cs else []

def sanitize (raw : String) (limit : Nat) : String :=
  let cleaned := String.ofList (raw.toList.filter fun c => !isControl c || c = '\n' || c = '\t')
  let trimmed := Text.trim cleaned
  if limit < (asBytes trimmed).length then
    String.ofList (cutChars limit trimmed.toList) ++ "…(truncated)"
  else trimmed

/-! ## The run -/

def runCliAgent (serde : SerdeJson) (env : Surroundings) (config : CliAgentConfig)
    (prompt : String) : Except AiError String :=
  let cap := config.maxOutputBytes
  let binary := config.binaryPath
  let outFile := if config.readOutputFile then some env.outputPath else none
  let run := env.agent binary (argv config prompt outFile)
  match run.ending with
  | .spawnFailed e => .error (.transport s!"failed to spawn agent '{binary}': {e}")
  | .noStdout => .error (.internal "no stdout pipe")
  | .noStderr => .error (.internal "no stderr pipe")
  | .timedOut => .error (.timeout (config.timeoutSecs * 1000))
  | .waitFailed e => .error (.transport s!"failed to wait for agent: {e}")
  | .exited code =>
    if code ≠ some 0 then
      let shown := match code with
        | some n => s!"Some({n})"
        | none => "None"
      .error (.backend (UInt16.ofInt (code.getD 0))
        s!"agent '{binary}' exited with status {shown}")
    else
      let raw :=
        if config.readOutputFile then readFileCapped cap run.outputFile
        else some (fromUtf8Lossy (readCapped cap [] run.stdout))
      match raw with
      | none => .error (.backend 0 s!"agent '{binary}' did not write its output file")
      | some raw =>
        match extractReply serde raw config.resultJsonPointer with
        | .error e => .error (.backend 0 e)
        | .ok reply => .ok (sanitize reply cap)

/-! ## What the agent wrote, and what is kept of it -/

/-- The bytes of the reads, up to the first one that has none. -/
def received : List (List UInt8) → List UInt8
  | [] => []
  | chunk :: chunks => if chunk = [] then [] else chunk ++ received chunks

/-- All that an agent wrote which ended well. -/
def output? (env : Surroundings) (config : CliAgentConfig) (prompt : String) :
    Option (List UInt8) :=
  let outFile := if config.readOutputFile then some env.outputPath else none
  let run := env.agent config.binaryPath (argv config prompt outFile)
  if run.ending = .exited (some 0) then
    if config.readOutputFile then run.outputFile else some (received run.stdout)
  else none

/-- Of the bytes those are kept that fit. -/
theorem readCapped_eq {limit : Nat} (buf : List UInt8) (chunks : List (List UInt8))
    (h : buf.length ≤ limit) :
    readCapped limit buf chunks = buf ++ (received chunks).take (limit - buf.length) := by
  induction chunks generalizing buf with
  | nil => simp [readCapped, received]
  | cons chunk chunks ih =>
    unfold readCapped received
    by_cases hend : chunk = []
    · simp [hend]
    · rw [if_neg hend, if_neg hend]
      by_cases hroom : buf.length < limit
      · -- What is taken of the chunk, and the room that is left then.
        have htake : (buf ++ chunk.take (min chunk.length (limit - buf.length))).length ≤ limit := by
          rw [List.length_append, List.length_take]
          omega
        rw [if_pos hroom, ih _ htake, List.append_assoc, List.take_append, List.length_append,
          List.length_take]
        congr 2
        · grind
        · congr 1
          omega
      · rw [if_neg hroom, ih buf h]
        have hfull : limit - buf.length = 0 := by omega
        rw [hfull, List.take_zero, List.take_zero]

variable {serde : SerdeJson} {env : Surroundings} {config : CliAgentConfig} {prompt : String}
  {output : List UInt8}

/-- The text that the reply is taken from. -/
def kept (config : CliAgentConfig) (output : List UInt8) : String :=
  fromUtf8Lossy (output.take config.maxOutputBytes)

theorem readFileCapped_eq (limit : Nat) (bytes : List UInt8) :
    readFileCapped limit (some bytes) = some (fromUtf8Lossy (bytes.take limit)) := by
  unfold readFileCapped
  rw [Option.map_some]
  split
  · rfl
  · rw [List.take_of_length_le (by omega)]

/-- The text is that of the file, or of the standard output. -/
theorem raw_eq (config : CliAgentConfig) (run : AgentRun)
    (hrun : (if config.readOutputFile then run.outputFile else some (received run.stdout)) =
      some output) :
    (if config.readOutputFile then readFileCapped config.maxOutputBytes run.outputFile
      else some (fromUtf8Lossy (readCapped config.maxOutputBytes [] run.stdout))) =
      some (kept config output) := by
  by_cases hfile : config.readOutputFile = true
  · rw [if_pos hfile] at hrun ⊢
    rw [hrun]
    exact readFileCapped_eq ..
  · rw [if_neg hfile] at hrun ⊢
    cases hrun
    rw [readCapped_eq [] _ (Nat.zero_le _)]
    rfl

/-- An agent that ended well is answered with what its output says. -/
theorem runCliAgent_eq (hrun : output? env config prompt = some output) :
    runCliAgent serde env config prompt =
      ((extractReply serde (kept config output) config.resultJsonPointer).mapError
        (.backend 0)).map (sanitize · config.maxOutputBytes) := by
  unfold output? at hrun
  dsimp only at hrun
  obtain ⟨hending, hrun⟩ := Option.ite_none_right_eq_some.mp hrun
  unfold runCliAgent
  dsimp only
  rw [hending]
  dsimp only
  rw [if_neg (by simp), raw_eq config _ hrun]
  dsimp only
  cases extractReply serde (kept config output) config.resultJsonPointer <;> rfl

/-- Without a complete output there is no reply. -/
theorem error_of_no_output (hrun : output? env config prompt = none) :
    ∃ e, runCliAgent serde env config prompt = .error e := by
  unfold output? at hrun
  dsimp only at hrun
  unfold runCliAgent
  dsimp only
  split
  case h_6 code hending =>
    by_cases hcode : code = some 0
    · subst hcode
      rw [if_pos hending] at hrun
      rw [if_neg (by simp)]
      by_cases hfile : config.readOutputFile = true
      · rw [if_pos hfile] at hrun ⊢
        rw [hrun]
        exact ⟨_, rfl⟩
      · rw [if_neg hfile] at hrun
        cases hrun
    · rw [if_pos hcode]
      exact ⟨_, rfl⟩
  all_goals exact ⟨_, rfl⟩

/-! ## Errors that the agent reports -/

theorem reply_of_error {raw : String} {v : Json} (ptr : String)
    (hjson : serde.fromStr (Text.trim raw) = .ok v)
    (hflag : (v.get? "is_error").bind Json.asBool? = some true) :
    ∃ e, extractReply serde raw (some ptr) = .error e := by
  unfold extractReply
  dsimp only
  rw [hjson]
  dsimp only
  rw [if_pos hflag]
  exact ⟨_, rfl⟩

/-- A text that is not JSON is the reply, unless it is blank. -/
theorem reply_of_text {raw e : String} (ptr : String)
    (hjson : serde.fromStr (Text.trim raw) = .error e) :
    (Text.trim raw ≠ "" → extractReply serde raw (some ptr) = .ok (Text.trim raw)) ∧
      (Text.trim raw = "" → ∃ e', extractReply serde raw (some ptr) = .error e') := by
  unfold extractReply
  dsimp only
  rw [hjson]
  dsimp only
  constructor
  · intro hne
    rw [if_pos hne]
  · intro hempty
    rw [if_neg (not_not_intro hempty)]
    exact ⟨_, rfl⟩

/-- An object that is cut is not JSON. -/
theorem fromStr_of_cut (hserde : serde.Lawful) {fields : List (String × Json)}
    (hobject : serde.fromStr (Text.trim (fromUtf8Lossy output)) = .ok (.obj fields))
    (hcut : Text.trim (kept config output) ≠ Text.trim (fromUtf8Lossy output)) :
    ∃ e, serde.fromStr (Text.trim (kept config output)) = .error e := by
  obtain ⟨start, hstart, hchars⟩ := lossyChars_cut none (output.take config.maxOutputBytes)
    (output.drop config.maxOutputBytes)
  rw [List.take_append_drop] at hstart
  rcases hchars with hchars | hchars
  · -- The cut is between two characters.
    have hprefix : (kept config output).toList <+: (fromUtf8Lossy output).toList := by
      rw [kept, fromUtf8Lossy, fromUtf8Lossy, String.toList_ofList, String.toList_ofList, hchars]
      exact hstart
    exact hserde.cut_object _ _ fields hobject (Text.trim_trim _) (Text.trim_prefix hprefix) hcut
  · have hlast : (kept config output).toList.getLast? = some replacement := by
      rw [kept, fromUtf8Lossy, String.toList_ofList, hchars, List.getLast?_concat]
    exact hserde.ends_in_replacement _ (Text.getLast?_trim hlast (by decide))

/-- The output is an object with `is_error`.  The answer is an error exactly
where the cap leaves the object, or nothing. -/
theorem error_reported_iff (hserde : serde.Lawful) {ptr : String}
    (hpointer : config.resultJsonPointer = some ptr)
    (hrun : output? env config prompt = some output) {fields : List (String × Json)}
    (hobject : serde.fromStr (Text.trim (fromUtf8Lossy output)) = .ok (.obj fields))
    (hflag : fields.lookup "is_error" = some (.bool true)) :
    (∃ e, runCliAgent serde env config prompt = .error e) ↔
      Text.trim (kept config output) = Text.trim (fromUtf8Lossy output) ∨
        Text.trim (kept config output) = "" := by
  rw [runCliAgent_eq hrun, hpointer]
  by_cases hwhole : Text.trim (kept config output) = Text.trim (fromUtf8Lossy output)
  · have hjson : serde.fromStr (Text.trim (kept config output)) = .ok (.obj fields) := by
      rw [hwhole, hobject]
    have hget : ((Json.obj fields).get? "is_error").bind Json.asBool? = some true := by
      show (fields.lookup "is_error").bind Json.asBool? = some true
      rw [hflag]
      rfl
    obtain ⟨e, he⟩ := reply_of_error ptr hjson hget
    rw [he]
    exact iff_of_true ⟨_, rfl⟩ (.inl hwhole)
  · obtain ⟨e, he⟩ := fromStr_of_cut hserde hobject hwhole
    obtain ⟨hreply, hblank⟩ := reply_of_text ptr he
    by_cases hempty : Text.trim (kept config output) = ""
    · obtain ⟨e', he'⟩ := hblank hempty
      rw [he']
      exact iff_of_true ⟨_, rfl⟩ (.inr hempty)
    · rw [hreply hempty]
      refine iff_of_false ?_ (not_or.mpr ⟨hwhole, hempty⟩)
      intro herror
      obtain ⟨e', he'⟩ := herror
      exact nomatch he'

/-! ## A short error -/

def errorText : String := "\x7b\"is_error\":true\x7d"

/-- On this text `serde_json` finds the object, and on its parts none. -/
def errorSerde : SerdeJson where
  fromStr text :=
    if text = errorText then .ok (.obj [("is_error", .bool true)])
    else .error "EOF while parsing a string"
  pointer _ _ := none

theorem errorSerde_fromStr (text : String) :
    errorSerde.fromStr text =
      if text = errorText then .ok (.obj [("is_error", .bool true)])
      else .error "EOF while parsing a string" := rfl

theorem errorSerde_lawful : errorSerde.Lawful where
  cut_object text start fields htext _ _ hne := by
    have hparsed : text = errorText := by
      by_contra hother
      rw [errorSerde_fromStr, if_neg hother] at htext
      cases htext
    exact ⟨_, if_neg (hparsed ▸ hne)⟩
  ends_in_replacement text hlast := by
    refine ⟨_, if_neg ?_⟩
    rintro rfl
    revert hlast
    decide

/-- The agent prints the error in one piece, and ends well. -/
def reportsError : Surroundings where
  outputPath := "/tmp/magiclaw_agent_1.out"
  agent _ _ := ⟨.exited (some 0), [asBytes errorText], none⟩

def cappedConfig (maxOutputBytes : Nat) : CliAgentConfig where
  binaryPath := "claude"
  args := []
  timeoutSecs := 60
  maxOutputBytes := maxOutputBytes
  resultJsonPointer := some "/result"
  readOutputFile := false

theorem errorText_parsed :
    errorSerde.fromStr (Text.trim (fromUtf8Lossy (asBytes errorText))) =
      .ok (.obj [("is_error", .bool true)]) := by
  have htext : Text.trim (fromUtf8Lossy (asBytes errorText)) = errorText := by decide +kernel
  rw [htext, errorSerde_fromStr, if_pos rfl]

theorem output_of_reportsError (maxOutputBytes : Nat) :
    output? reportsError (cappedConfig maxOutputBytes) "hi" = some (asBytes errorText) := by
  show some (received [asBytes errorText]) = _
  decide

theorem error_reported_short :
    (∃ e, runCliAgent errorSerde reportsError (cappedConfig 100) "hi" = .error e) ↔
      Text.trim (kept (cappedConfig 100) (asBytes errorText)) =
          Text.trim (fromUtf8Lossy (asBytes errorText)) ∨
        Text.trim (kept (cappedConfig 100) (asBytes errorText)) = "" :=
  error_reported_iff errorSerde_lawful rfl (output_of_reportsError 100) errorText_parsed rfl

/-- With room for five bytes the start of the error is the reply. -/
theorem not_error_reported :
    ¬ ∀ (serde : SerdeJson) (env : Surroundings) (config : CliAgentConfig) (prompt ptr : String)
        (output : List UInt8) (fields : List (String × Json)), serde.Lawful →
        config.resultJsonPointer = some ptr → output? env config prompt = some output →
        serde.fromStr (Text.trim (fromUtf8Lossy output)) = .ok (.obj fields) →
        fields.lookup "is_error" = some (.bool true) →
        ∃ e, runCliAgent serde env config prompt = .error e := by
  intro h
  obtain ⟨e, he⟩ := h errorSerde reportsError (cappedConfig 5) "hi" "/result" _ _
    errorSerde_lawful rfl (output_of_reportsError 5) errorText_parsed rfl
  have hkept : Text.trim (kept (cappedConfig 5) (asBytes errorText)) = "\x7b\"is_" := by
    decide +kernel
  have hjson : errorSerde.fromStr (Text.trim (kept (cappedConfig 5) (asBytes errorText))) =
      .error "EOF while parsing a string" := by
    rw [hkept, errorSerde_fromStr, if_neg (by decide)]
  have hne : Text.trim (kept (cappedConfig 5) (asBytes errorText)) ≠ "" := by
    rw [hkept]
    decide
  have hreply := (reply_of_text "/result" hjson).1 hne
  rw [runCliAgent_eq (output_of_reportsError 5)] at he
  dsimp only [cappedConfig] at he hreply
  rw [hreply] at he
  exact nomatch he

end MagicLaw.Ai
