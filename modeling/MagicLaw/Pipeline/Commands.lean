import MagicLaw.Lib.Search
import MagicLaw.Pipeline.Middleware

/-!
# The longest alias decides what a message commands

`AgentCommandParser::parse` of `core/pipeline/agent_command.rs` goes through
the aliases, the longest first, and takes the first one that matches.  Here is
what it returns in terms of the text alone.

A text names an alias if it starts with it, after at most one slash, and ends
there or goes on with a space.  What follows the alias is the tail.

* `tails_agree`: two aliases of one length that a text names are the same one,
  and so are their tails.
* `parse_longest`: the parser obeys the longest alias that the text names, in
  whichever order the map is iterated.
-/

namespace MagicLaw.Pipeline

open Lib
open Lib.Text (trim)

/-! ## What a text commands -/

/-- After at most one slash the text is the alias with the tail behind it. -/
def StartsWith (trimmed name tail : String) : Prop :=
  trimmed = name ++ tail ∨ trimmed = "/" ++ (name ++ tail)

/-- What a text commands that names the alias of the agent. -/
inductive Means (trimmed agent name : String) : AgentCommand → Prop
  | switch (h : StartsWith trimmed name "") : Means trimmed agent name (.switch agent)
  | switchAndProcess {rest : String} (h : StartsWith trimmed name (" " ++ rest)) :
    Means trimmed agent name (.switchAndProcess agent (trim rest))

def IsAlias (aliases : List (String × List String)) (agent name : String) : Prop :=
  ∃ agentAliases, (agent, agentAliases) ∈ aliases ∧ name ∈ agentAliases

/-- The command of the longest alias that the text names. -/
def Obeys (aliases : List (String × List String)) (trimmed : String) (command : AgentCommand) :
    Prop :=
  (∃ agent name, IsAlias aliases agent name ∧ Means trimmed agent name command ∧
    ∀ agent' name' command', IsAlias aliases agent' name' → Means trimmed agent' name' command' →
      name'.utf8ByteSize ≤ name.utf8ByteSize) ∨
  command = .notCommand ∧
    ∀ agent name command', IsAlias aliases agent name → ¬ Means trimmed agent name command'

/-- Aliases that are different from each other, not empty and trimmed. -/
structure Tidy (aliases : List (String × List String)) : Prop where
  nodup : (aliases.flatMap Prod.snd).Nodup
  ne_empty : ∀ name ∈ aliases.flatMap Prod.snd, name ≠ ""
  trimmed : ∀ name ∈ aliases.flatMap Prod.snd, trim name = name

theorem IsAlias.mem {aliases : List (String × List String)} {agent name : String}
    (h : IsAlias aliases agent name) : name ∈ aliases.flatMap Prod.snd := by
  obtain ⟨agentAliases, hentry, hname⟩ := h
  exact List.mem_flatMap.mpr ⟨(agent, agentAliases), hentry, hname⟩

/-! ## Tails -/

/-- What comes behind an alias. -/
inductive IsTail : String → Prop
  | none : IsTail ""
  | space (rest : String) : IsTail (" " ++ rest)

/-- A slash in front of one of the two aliases would put a space at the end of
the other. -/
theorem not_slash_of_eq {name name' tail tail' : String} (htail : IsTail tail)
    (hne : name ≠ "") (htrim' : trim name' = name')
    (hsize : name.utf8ByteSize = name'.utf8ByteSize) :
    name ++ tail ≠ "/" ++ (name' ++ tail') := by
  intro heq
  rw [← String.append_assoc] at heq
  have hslash : ("/" ++ name').utf8ByteSize = 1 + name'.utf8ByteSize := String.utf8ByteSize_append
  obtain ⟨w, hw, htailw⟩ := Text.append_eq_append_of_le heq (by omega)
  have hwsize : w.utf8ByteSize = 1 := by
    rw [hw, String.utf8ByteSize_append] at hslash
    omega
  cases htail with
  | none =>
    have hempty := congrArg String.utf8ByteSize htailw
    rw [String.utf8ByteSize_append, String.utf8ByteSize_empty] at hempty
    omega
  | space rest =>
    obtain ⟨hspace, -⟩ := Text.append_inj_of_eq htailw (show 1 = _ from hwsize.symm)
    rw [← hspace] at hw
    have hpos : 1 ≤ name.utf8ByteSize :=
      Nat.pos_of_ne_zero fun hzero => hne (String.utf8ByteSize_eq_zero_iff.mp hzero)
    obtain ⟨v, -, hv⟩ := Text.append_eq_append_of_le hw (show 1 ≤ _ from hpos)
    rw [hv] at htrim'
    exact Text.trim_append_space_ne v htrim'

/-- A text has one tail, whichever alias of a length it names. -/
theorem tails_agree {trimmed name name' tail tail' : String}
    (htail : IsTail tail) (htail' : IsTail tail') (hne : name ≠ "") (hne' : name' ≠ "")
    (htrim : trim name = name) (htrim' : trim name' = name')
    (hsize : name.utf8ByteSize = name'.utf8ByteSize) (h : StartsWith trimmed name tail)
    (h' : StartsWith trimmed name' tail') : name = name' ∧ tail = tail' := by
  rcases h with h | h
  · rcases h' with h' | h'
    · exact Text.append_inj_of_eq (h.symm.trans h') hsize
    · exact absurd (h.symm.trans h') (not_slash_of_eq htail hne htrim' hsize)
  · rcases h' with h' | h'
    · exact absurd (h'.symm.trans h) (not_slash_of_eq htail' hne' htrim hsize.symm)
    · have heq : name ++ tail = name' ++ tail' := (String.append_right_inj _).mp (h.symm.trans h')
      exact Text.append_inj_of_eq heq hsize

/-! ## One alias -/

theorem startsWith_empty_iff {trimmed name : String} :
    StartsWith trimmed name "" ↔ trimmed = name ∨ trimmed = "/" ++ name := by
  unfold StartsWith
  rw [String.append_empty]

theorem startsWith_space_iff {trimmed name rest : String} :
    StartsWith trimmed name (" " ++ rest) ↔
      trimmed = name ++ " " ++ rest ∨ trimmed = "/" ++ name ++ " " ++ rest := by
  unfold StartsWith
  simp only [String.append_assoc]

/-- A trimmed text has content behind the space. -/
theorem Means.content_ne_empty {trimmed agent agent' name content : String}
    (h : Means trimmed agent name (.switchAndProcess agent' content))
    (htrim : trim trimmed = trimmed) : content ≠ "" := by
  cases h with
  | switchAndProcess h =>
    rcases startsWith_space_iff.mp h with rfl | rfl
    · exact Text.trim_ne_empty_of_space htrim
    · exact Text.trim_ne_empty_of_space htrim

/-- The command that goes with a tail. -/
theorem means_iff {trimmed agent name : String} {command : AgentCommand} :
    Means trimmed agent name command ↔ ∃ tail, IsTail tail ∧ StartsWith trimmed name tail ∧
      (tail = "" ∧ command = .switch agent ∨
        ∃ rest, tail = " " ++ rest ∧ command = .switchAndProcess agent (trim rest)) := by
  constructor
  · intro h
    cases h with
    | switch h => exact ⟨"", .none, h, .inl ⟨rfl, rfl⟩⟩
    | @switchAndProcess rest h => exact ⟨" " ++ rest, .space rest, h, .inr ⟨rest, rfl, rfl⟩⟩
  · intro ⟨tail, _, hstart, h⟩
    rcases h with ⟨rfl, rfl⟩ | ⟨rest, rfl, rfl⟩
    · exact .switch hstart
    · exact .switchAndProcess hstart

/-- Commands of aliases of one length are commands of one alias. -/
theorem means_agree {trimmed agent agent' name name' : String} {command command' : AgentCommand}
    (hne : name ≠ "") (hne' : name' ≠ "") (htrim : trim name = name) (htrim' : trim name' = name')
    (hsize : name.utf8ByteSize = name'.utf8ByteSize) (h : Means trimmed agent name command)
    (h' : Means trimmed agent' name' command') :
    name = name' ∧ (agent = agent' → command = command') := by
  obtain ⟨tail, htail, hstart, hcommand⟩ := means_iff.mp h
  obtain ⟨tail', htail', hstart', hcommand'⟩ := means_iff.mp h'
  obtain ⟨hname, rfl⟩ := tails_agree htail htail' hne hne' htrim htrim' hsize hstart hstart'
  refine ⟨hname, ?_⟩
  rintro rfl
  rcases hcommand with ⟨hempty, rfl⟩ | ⟨rest, hrest, rfl⟩
  · rcases hcommand' with ⟨-, rfl⟩ | ⟨rest', hrest', -⟩
    · rfl
    · rw [hempty] at hrest'
      exact absurd (congrArg String.toList hrest') (by simp)
  · rcases hcommand' with ⟨hempty, -⟩ | ⟨rest', hrest', rfl⟩
    · rw [hempty] at hrest
      exact absurd (congrArg String.toList hrest) (by simp)
    · rw [(String.append_right_inj _).mp (hrest.symm.trans hrest')]

theorem contentAfter_eq_some_iff {pattern trimmed content : String} :
    contentAfter pattern trimmed = some content ↔
      (∃ rest, trimmed = pattern ++ rest ∧ trim rest = content) ∧ content ≠ "" := by
  unfold contentAfter
  simp [Option.filter_eq_some_iff, Text.stripPrefix?_eq_some_iff]

/-- The parser's three tests, with the strings it puts together. -/
theorem matchAlias_eq (trimmed agent name : String) :
    matchAlias trimmed agent name =
      if trimmed = name ∨ trimmed = "/" ++ name then some (.switch agent)
      else
        ((contentAfter (name ++ " ") trimmed).or (contentAfter ("/" ++ name ++ " ") trimmed)).map
          (.switchAndProcess agent) := by
  have hor : (trimmed = name || trimmed = "/" ++ name) = true ↔
      trimmed = name ∨ trimmed = "/" ++ name := by simp
  unfold matchAlias
  by_cases hname : trimmed = name ∨ trimmed = "/" ++ name
  · rw [if_pos hname]
    exact if_pos (hor.mpr hname)
  · rw [if_neg hname]
    refine (if_neg fun h => hname (hor.mp h)).trans ?_
    split
    case h_1 content hplain =>
      have hplain : contentAfter (name ++ " ") trimmed = some content := hplain
      rw [hplain]
      rfl
    case h_2 hplain =>
      have hplain : contentAfter (name ++ " ") trimmed = none := hplain
      rw [hplain, Option.none_or]
      split
      case h_1 content hslash =>
        have hslash : contentAfter ("/" ++ name ++ " ") trimmed = some content := hslash
        rw [hslash]
        rfl
      case h_2 hslash =>
        have hslash : contentAfter ("/" ++ name ++ " ") trimmed = none := hslash
        rw [hslash]
        rfl

/-- What the parser takes for a command is one. -/
theorem means_of_matchAlias {trimmed agent name : String} {command : AgentCommand}
    (h : matchAlias trimmed agent name = some command) : Means trimmed agent name command := by
  rw [matchAlias_eq] at h
  split at h
  case isTrue hname =>
    cases h
    exact .switch (startsWith_empty_iff.mpr hname)
  case isFalse =>
    obtain ⟨content, hcontent, rfl⟩ := Option.map_eq_some_iff.mp h
    rcases Option.or_eq_some_iff.mp hcontent with hplain | ⟨-, hslash⟩
    · obtain ⟨⟨rest, htext, rfl⟩, -⟩ := contentAfter_eq_some_iff.mp hplain
      exact .switchAndProcess (startsWith_space_iff.mpr (.inl htext))
    · obtain ⟨⟨rest, htext, rfl⟩, -⟩ := contentAfter_eq_some_iff.mp hslash
      exact .switchAndProcess (startsWith_space_iff.mpr (.inr htext))

/-- What follows a space in a trimmed text is content. -/
theorem contentAfter_space {pre rest trimmed : String} (htext : trimmed = pre ++ " " ++ rest)
    (htrim : trim trimmed = trimmed) : contentAfter (pre ++ " ") trimmed = some (trim rest) :=
  contentAfter_eq_some_iff.mpr
    ⟨⟨rest, htext, rfl⟩, Text.trim_ne_empty_of_space (htext ▸ htrim)⟩

/-- The parser takes every text that names the alias for a command. -/
theorem isSome_matchAlias {trimmed agent name : String} {command : AgentCommand}
    (htrim : trim trimmed = trimmed) (h : Means trimmed agent name command) :
    (matchAlias trimmed agent name).isSome := by
  rw [matchAlias_eq]
  split
  case isTrue => rfl
  case isFalse hname =>
    rw [Option.isSome_map, Option.isSome_or]
    cases h with
    | switch h => exact absurd (startsWith_empty_iff.mp h) hname
    | switchAndProcess h =>
      rcases startsWith_space_iff.mp h with htext | htext
      · rw [contentAfter_space htext htrim]
        rfl
      · rw [contentAfter_space htext htrim, Option.isSome_some, Bool.or_true]

theorem matchAlias_eq_some_iff {trimmed agent name : String} {command : AgentCommand}
    (htrim : trim trimmed = trimmed) (hne : name ≠ "") (hname : trim name = name) :
    matchAlias trimmed agent name = some command ↔ Means trimmed agent name command := by
  refine ⟨means_of_matchAlias, fun h => ?_⟩
  obtain ⟨found, hfound⟩ := Option.isSome_iff_exists.mp (isSome_matchAlias htrim h)
  have hagree := means_agree hne hne hname hname rfl (means_of_matchAlias hfound) h
  rw [hfound, hagree.2 rfl]

/-! ## All aliases -/

/-- The aliases before they are sorted. -/
def aliasPairs (aliases : List (String × List String)) : List (String × String) :=
  aliases.flatMap fun (agent, agentAliases) => agentAliases.map fun a => (agent, a)

theorem mem_aliasPairs {aliases : List (String × List String)} {agent name : String} :
    (agent, name) ∈ aliasPairs aliases ↔ IsAlias aliases agent name := by
  unfold aliasPairs IsAlias
  rw [List.mem_flatMap]
  constructor
  · intro ⟨(agent', agentAliases), hentry, hpair⟩
    obtain ⟨name', hname, heq⟩ := List.mem_map.mp hpair
    cases heq
    exact ⟨agentAliases, hentry, hname⟩
  · intro ⟨agentAliases, hentry, hname⟩
    exact ⟨(agent, agentAliases), hentry, List.mem_map.mpr ⟨name, hname, rfl⟩⟩

theorem map_snd_aliasPairs (aliases : List (String × List String)) :
    (aliasPairs aliases).map Prod.snd = aliases.flatMap Prod.snd := by
  unfold aliasPairs
  rw [List.map_flatMap]
  refine List.flatMap_congr fun (agent, agentAliases) _ => ?_
  show (agentAliases.map fun a => (agent, a)).map Prod.snd = agentAliases
  rw [List.map_map]
  exact List.map_id agentAliases

/-- An alias has one agent. -/
theorem Tidy.agent_unique {aliases : List (String × List String)} (h : Tidy aliases)
    {agent agent' name : String} (hagent : IsAlias aliases agent name)
    (hagent' : IsAlias aliases agent' name) : agent = agent' := by
  have hnodup := h.nodup
  rw [← map_snd_aliasPairs] at hnodup
  have heq := List.inj_on_of_nodup_map hnodup (mem_aliasPairs.mpr hagent)
    (mem_aliasPairs.mpr hagent') rfl
  exact congrArg Prod.fst heq

/-- The aliases that a text names are of different lengths. -/
theorem Tidy.apart {aliases : List (String × List String)} (h : Tidy aliases) (trimmed : String) :
    Search.Apart (fun (agent, name) => matchAlias trimmed agent name)
      (fun (_, name) => name.utf8ByteSize) (aliasPairs aliases) := by
  intro (agent, name) hpair (agent', name') hpair' hsome hsome' hsize
  have hpair := mem_aliasPairs.mp hpair
  have hpair' := mem_aliasPairs.mp hpair'
  obtain ⟨command, hcommand⟩ := Option.isSome_iff_exists.mp hsome
  obtain ⟨command', hcommand'⟩ := Option.isSome_iff_exists.mp hsome'
  obtain ⟨rfl, -⟩ := means_agree (h.ne_empty _ hpair.mem) (h.ne_empty _ hpair'.mem)
    (h.trimmed _ hpair.mem) (h.trimmed _ hpair'.mem) hsize (means_of_matchAlias hcommand)
    (means_of_matchAlias hcommand')
  rw [h.agent_unique hpair hpair']

theorem matchAlias_of_mem {aliases : List (String × List String)} (h : Tidy aliases)
    {trimmed agent name : String} {command : AgentCommand} (htrim : trim trimmed = trimmed)
    (hpair : (agent, name) ∈ aliasPairs aliases) :
    matchAlias trimmed agent name = some command ↔ Means trimmed agent name command := by
  have hname := (mem_aliasPairs.mp hpair).mem
  exact matchAlias_eq_some_iff htrim (h.ne_empty _ hname) (h.trimmed _ hname)

/-- The search through the sorted aliases finds the longest one that the text
names. -/
theorem Tidy.findSome?_candidates {aliases : List (String × List String)} (h : Tidy aliases)
    {trimmed : String} (htrim : trim trimmed = trimmed) {command : AgentCommand} :
    (candidates aliases).findSome? (fun (agent, name) => matchAlias trimmed agent name) =
        some command ↔
      ∃ agent name, IsAlias aliases agent name ∧ Means trimmed agent name command ∧
        ∀ agent' name' command', IsAlias aliases agent' name' →
          Means trimmed agent' name' command' → name'.utf8ByteSize ≤ name.utf8ByteSize := by
  refine (Search.findSome?_insertionSort (h.apart trimmed)).trans ?_
  constructor
  · intro ⟨(agent, name), hpair, hcommand, hlongest⟩
    refine ⟨agent, name, mem_aliasPairs.mp hpair, means_of_matchAlias hcommand, ?_⟩
    intro agent' name' command' hname' hmeans'
    exact hlongest (agent', name') (mem_aliasPairs.mpr hname') (isSome_matchAlias htrim hmeans')
  · intro ⟨agent, name, hname, hmeans, hlongest⟩
    have hpair := mem_aliasPairs.mpr hname
    refine ⟨(agent, name), hpair, (matchAlias_of_mem h htrim hpair).mpr hmeans, ?_⟩
    intro (agent', name') hpair' hsome
    obtain ⟨command', hcommand'⟩ := Option.isSome_iff_exists.mp hsome
    exact hlongest agent' name' command' (mem_aliasPairs.mp hpair') (means_of_matchAlias hcommand')

theorem Tidy.parse_eq_iff {aliases : List (String × List String)} (h : Tidy aliases)
    {text : String} (hquery : isQuery (trim text) = false) (command : AgentCommand) :
    parse aliases text = command ↔ Obeys aliases (trim text) command := by
  have hparse : parse aliases text = ((candidates aliases).findSome? fun (agent, name) =>
      matchAlias (trim text) agent name).getD .notCommand := by
    unfold parse
    dsimp only
    rw [if_neg (by rw [hquery]; exact Bool.false_ne_true)]
  have htrim : trim (trim text) = trim text := Text.trim_trim text
  rw [hparse]
  cases hfound : (candidates aliases).findSome? fun (agent, name) =>
      matchAlias (trim text) agent name with
  | some found =>
    have hobeyed := (h.findSome?_candidates htrim).mp hfound
    constructor
    · rintro rfl
      exact .inl hobeyed
    · rintro (hcommand | ⟨-, hnone⟩)
      · rw [(h.findSome?_candidates htrim).mpr hcommand] at hfound
        exact (Option.some.inj hfound).symm
      · obtain ⟨agent, name, hname, hmeans, -⟩ := hobeyed
        exact absurd hmeans (hnone agent name found hname)
  | none =>
    constructor
    · rintro rfl
      refine .inr ⟨rfl, fun agent name command hname hmeans => ?_⟩
      have hpair := mem_aliasPairs.mpr hname
      have hnone := List.findSome?_eq_none_iff.mp hfound (agent, name)
        ((List.mem_insertionSort _).mpr hpair)
      have hsome := (matchAlias_of_mem h htrim hpair).mpr hmeans
      rw [show matchAlias (trim text) agent name = none from hnone] at hsome
      cases hsome
    · rintro (hcommand | ⟨rfl, -⟩)
      · rw [(h.findSome?_candidates htrim).mpr hcommand] at hfound
        cases hfound
      · rfl

/-- The order in which the map is iterated does not matter. -/
theorem obeys_perm {aliases order : List (String × List String)} (h : order.Perm aliases)
    (trimmed : String) (command : AgentCommand) :
    Obeys order trimmed command ↔ Obeys aliases trimmed command := by
  have halias : ∀ agent name, IsAlias order agent name ↔ IsAlias aliases agent name := by
    intro agent name
    unfold IsAlias
    simp only [h.mem_iff]
  unfold Obeys
  simp only [halias]

theorem Tidy.perm {aliases order : List (String × List String)} (h : Tidy aliases)
    (hperm : order.Perm aliases) : Tidy order := by
  have hnames := hperm.flatMap_right Prod.snd
  constructor
  · exact hnames.nodup_iff.mpr h.nodup
  · exact fun name hname => h.ne_empty name (hnames.mem_iff.mp hname)
  · exact fun name hname => h.trimmed name (hnames.mem_iff.mp hname)

/-- Apart from queries the parser returns what the longest alias commands, its
content is never empty, and the order of the map does not matter. -/
theorem parse_longest {aliases : List (String × List String)} (h : Tidy aliases) {text : String}
    (hquery : isQuery (trim text) = false) :
    (∀ command, parse aliases text = command ↔ Obeys aliases (trim text) command) ∧
      (∀ agent content, parse aliases text = .switchAndProcess agent content → content ≠ "") ∧
      ∀ order, order.Perm aliases → parse order text = parse aliases text := by
  refine ⟨h.parse_eq_iff hquery, ?_, ?_⟩
  · intro agent content hparse
    rcases (h.parse_eq_iff hquery _).mp hparse with ⟨_, _, _, hmeans, _⟩ | ⟨hcommand, _⟩
    · exact hmeans.content_ne_empty (Text.trim_trim text)
    · cases hcommand
  · intro order hperm
    have hobeys := (h.parse_eq_iff hquery (parse aliases text)).mp rfl
    exact ((h.perm hperm).parse_eq_iff hquery _).mpr ((obeys_perm hperm _ _).mpr hobeys)

theorem tidy_defaultAgentAliases : Tidy defaultAgentAliases where
  nodup := by decide
  ne_empty := by decide
  trimmed := by decide

/-- Two of the default aliases match, and the longer one gets the message. -/
theorem parse_longest_claude_code :
    Obeys defaultAgentAliases (trim " /claude code fix it")
        (.switchAndProcess "claude_code" "fix it") ∧
      ∀ order, order.Perm defaultAgentAliases →
        parse order " /claude code fix it" = .switchAndProcess "claude_code" "fix it" :=
  have hparse : parse defaultAgentAliases " /claude code fix it" =
    .switchAndProcess "claude_code" "fix it" := by decide
  have h := parse_longest tidy_defaultAgentAliases (show isQuery (trim " /claude code fix it") =
    false by decide)
  ⟨(h.1 _).mp hparse, fun order hperm => (h.2.2 order hperm).trans hparse⟩

end MagicLaw.Pipeline
