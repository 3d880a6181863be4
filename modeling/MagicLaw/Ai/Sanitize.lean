import MagicLaw.Ai.CliAgent
import MagicLaw.Lib.Boundaries

/-!
# What is sent of an agent's reply

`sanitize` of `core/ai/cli_agent.rs`: control characters are filtered out, the
rest is trimmed, and when it has more bytes than the limit it is cut.  The cut
is at the limit, or at the first position below it that is a character
boundary.

`sanitize?` is the code with this search and with the slice, which panics
inside a character.

* `sanitize_spec`: the slice never panics, and the reply is the trimmed text
  or its longest start that fits.
* `sanitize?_eq`: it is the `sanitize` of the run of an agent, whose replies
  are bounded by it (`length_reply_le`).
-/

namespace MagicLaw.Ai

open Lib Lib.Bytes Lib.Boundaries

/-! ## The code -/

/-- What the filter leaves. -/
def cleaned (raw : String) : String :=
  String.ofList (raw.toList.filter fun c => !isControl c || c = '\n' || c = '\t')

/-- The loop, which goes down from `cut`. -/
def cutBack (s : String) : Nat → Nat
  | 0 => 0
  | cut + 1 => if isCharBoundary s (cut + 1) then cut + 1 else cutBack s cut

def sanitize? (raw : String) (limit : Nat) : Option String :=
  let trimmed := Text.trim (cleaned raw)
  if limit < (asBytes trimmed).length then
    (sliceTo trimmed (cutBack trimmed limit)).map (· ++ "…(truncated)")
  else some trimmed

/-! ## The cut -/

theorem isCharBoundary_cutBack (s : String) (limit : Nat) :
    isCharBoundary s (cutBack s limit) = true := by
  induction limit with
  | zero => rfl
  | succ cut ih =>
    unfold cutBack
    split
    case isTrue hboundary => exact hboundary
    case isFalse => exact ih

theorem cutBack_le (s : String) (limit : Nat) : cutBack s limit ≤ limit := by
  induction limit with
  | zero => exact Nat.le_refl 0
  | succ cut ih =>
    unfold cutBack
    split
    case isTrue => exact Nat.le_refl _
    case isFalse => omega

/-- The loop passes over no boundary. -/
theorem le_cutBack {s : String} {limit i : Nat} (hi : i ≤ limit)
    (hboundary : isCharBoundary s i = true) : i ≤ cutBack s limit := by
  induction limit with
  | zero => exact hi
  | succ cut ih =>
    unfold cutBack
    split
    case isTrue => exact hi
    case isFalse hnot =>
      have hne : i ≠ cut + 1 := by
        rintro rfl
        exact hnot hboundary
      exact ih (by omega)

/-- The slice is the longest start that fits. -/
theorem sliceTo_cutBack (s : String) (limit : Nat) :
    ∃ p, sliceTo s (cutBack s limit) = some p ∧ IsLongestStart limit s p :=
  isLongestStart_of_greatest (isCharBoundary_cutBack s limit) (cutBack_le s limit)
    fun _ hi hboundary => le_cutBack hi hboundary

/-! ## The characters -/

theorem of_mem_trimmed {raw : String} {c : Char} (h : c ∈ (Text.trim (cleaned raw)).toList)
    (hcontrol : isControl c = true) : c = '\n' ∨ c = '\t' := by
  have hmem := Text.mem_of_mem_trim h
  rw [cleaned, String.toList_ofList, List.mem_filter, hcontrol] at hmem
  simpa using hmem.2

theorem not_isControl_suffix : ∀ c ∈ "…(truncated)".toList, isControl c = false := by
  have hall : "…(truncated)".toList.all (!isControl ·) = true := by decide
  intro c hc
  simpa using List.all_eq_true.mp hall c hc

theorem sanitize?_of_fits {raw : String} {limit : Nat}
    (h : (asBytes (Text.trim (cleaned raw))).length ≤ limit) :
    sanitize? raw limit = some (Text.trim (cleaned raw)) := by
  unfold sanitize?
  dsimp only
  rw [if_neg (by omega)]

theorem sanitize?_of_long {raw : String} {limit : Nat}
    (h : limit < (asBytes (Text.trim (cleaned raw))).length) :
    ∃ p, IsLongestStart limit (Text.trim (cleaned raw)) p ∧
      sanitize? raw limit = some (p ++ "…(truncated)") := by
  obtain ⟨p, hslice, hlongest⟩ := sliceTo_cutBack (Text.trim (cleaned raw)) limit
  refine ⟨p, hlongest, ?_⟩
  unfold sanitize?
  dsimp only
  rw [if_pos h, hslice, Option.map_some]

theorem of_mem_start {raw p : String} {limit : Nat} {c : Char}
    (hp : IsLongestStart limit (Text.trim (cleaned raw)) p)
    (h : c ∈ (p ++ "…(truncated)").toList) (hcontrol : isControl c = true) :
    c = '\n' ∨ c = '\t' := by
  rw [String.toList_append, List.mem_append] at h
  rcases h with hc | hc
  · obtain ⟨rest, hrest⟩ := hp.start
    have hmem : c ∈ (Text.trim (cleaned raw)).toList := by
      rw [hrest, String.toList_append]
      exact List.mem_append_left _ hc
    exact of_mem_trimmed hmem hcontrol
  · rw [not_isControl_suffix c hc] at hcontrol
    cases hcontrol

/-- `sanitize` never panics.  Its result has no control characters other than
newline and tab, and is the filtered and trimmed text when that fits, and else
its longest start that fits with the suffix. -/
theorem sanitize_spec (raw : String) (limit : Nat) :
    ∃ result, sanitize? raw limit = some result ∧
      (∀ c ∈ result.toList, isControl c = true → c = '\n' ∨ c = '\t') ∧
      ((asBytes (Text.trim (cleaned raw))).length ≤ limit → result = Text.trim (cleaned raw)) ∧
      (limit < (asBytes (Text.trim (cleaned raw))).length →
        ∃ p, IsLongestStart limit (Text.trim (cleaned raw)) p ∧ result = p ++ "…(truncated)") := by
  by_cases hlong : limit < (asBytes (Text.trim (cleaned raw))).length
  · obtain ⟨p, hlongest, hresult⟩ := sanitize?_of_long hlong
    exact ⟨_, hresult, fun c hc => of_mem_start hlongest hc, fun hfits => absurd hlong (by omega),
      fun _ => ⟨p, hlongest, rfl⟩⟩
  · exact ⟨_, sanitize?_of_fits (by omega), fun c hc => of_mem_trimmed hc, fun _ => rfl,
      fun h => absurd h hlong⟩

/-! ## The run of an agent -/

theorem cutChars_prefix (limit : Nat) (cs : List Char) : cutChars limit cs <+: cs := by
  induction cs generalizing limit with
  | nil => exact List.nil_prefix
  | cons c cs ih =>
    unfold cutChars
    split
    case isTrue => exact List.cons_prefix_cons.mpr ⟨rfl, ih _⟩
    case isFalse => exact List.nil_prefix

theorem cutChars_fits (limit : Nat) (cs : List Char) :
    ((cutChars limit cs).flatMap String.utf8EncodeChar).length ≤ limit := by
  induction cs generalizing limit with
  | nil => exact Nat.zero_le limit
  | cons c cs ih =>
    unfold cutChars
    split
    case isTrue hc =>
      have hrest := ih (limit - c.utf8Size)
      rw [List.flatMap_cons, List.length_append, String.length_utf8EncodeChar]
      omega
    case isFalse => exact Nat.zero_le limit

/-- A start that fits is not cut. -/
theorem prefix_cutChars {limit : Nat} {cs qs : List Char} (hq : qs <+: cs)
    (hfits : (qs.flatMap String.utf8EncodeChar).length ≤ limit) : qs <+: cutChars limit cs := by
  induction qs generalizing limit cs with
  | nil => exact List.nil_prefix
  | cons c qs ih =>
    obtain ⟨rest, rfl⟩ := hq
    rw [List.flatMap_cons, List.length_append, String.length_utf8EncodeChar] at hfits
    rw [List.cons_append, cutChars, if_pos (by omega)]
    exact List.cons_prefix_cons.mpr ⟨rfl, ih (List.prefix_append qs rest) (by omega)⟩

theorem isLongestStart_cutChars (limit : Nat) (s : String) :
    IsLongestStart limit s (String.ofList (cutChars limit s.toList)) where
  start := by
    obtain ⟨rest, hrest⟩ := cutChars_prefix limit s.toList
    refine ⟨String.ofList rest, ?_⟩
    rw [← String.ofList_append, hrest, String.ofList_toList]
  fits := by
    rw [asBytes_ofList]
    exact cutChars_fits limit s.toList
  longest := by
    rintro q rest rfl hfits
    rw [← String.ofList_toList (s := q), asBytes_ofList] at hfits
    have hprefix : q.toList <+: (q ++ rest).toList := by
      rw [String.toList_append]
      exact List.prefix_append _ _
    obtain ⟨more, hmore⟩ := prefix_cutChars hprefix hfits
    refine ⟨String.ofList more, ?_⟩
    rw [← hmore, String.ofList_append, String.ofList_toList]

/-- What an agent's run answers is this. -/
theorem sanitize?_eq (raw : String) (limit : Nat) :
    sanitize? raw limit = some (sanitize raw limit) := by
  unfold sanitize
  dsimp only
  rw [← cleaned]
  by_cases hlong : limit < (asBytes (Text.trim (cleaned raw))).length
  · obtain ⟨p, hlongest, hresult⟩ := sanitize?_of_long hlong
    have hsame := hlongest.unique (isLongestStart_cutChars limit (Text.trim (cleaned raw)))
    rw [hresult, hsame, if_pos hlong]
  · rw [sanitize?_of_fits (by omega), if_neg hlong]

theorem length_sanitize_le (raw : String) (limit : Nat) :
    (asBytes (sanitize raw limit)).length ≤ limit + (asBytes "…(truncated)").length := by
  have hresult := sanitize?_eq raw limit
  by_cases hlong : limit < (asBytes (Text.trim (cleaned raw))).length
  · obtain ⟨p, hlongest, hlonger⟩ := sanitize?_of_long hlong
    have hfits := hlongest.fits
    rw [hlonger, Option.some.injEq] at hresult
    rw [← hresult, asBytes_append, List.length_append]
    omega
  · rw [sanitize?_of_fits (by omega), Option.some.injEq] at hresult
    rw [← hresult]
    omega

variable {serde : SerdeJson} {env : Surroundings} {config : CliAgentConfig} {prompt reply : String}

/-- A reply is not longer than the agent's limit and the suffix. -/
theorem length_reply_le (h : runCliAgent serde env config prompt = .ok reply) :
    (asBytes reply).length ≤ config.maxOutputBytes + (asBytes "…(truncated)").length := by
  cases hrun : output? env config prompt with
  | none =>
    obtain ⟨e, he⟩ : ∃ e, runCliAgent serde env config prompt = .error e :=
      error_of_no_output hrun
    rw [he] at h
    cases h
  | some output =>
    rw [runCliAgent_eq hrun] at h
    cases htext : extractReply serde (kept config output) config.resultJsonPointer with
    | error e =>
      rw [htext] at h
      cases h
    | ok text =>
      rw [htext] at h
      have hreply : sanitize text config.maxOutputBytes = reply := Except.ok.inj h
      rw [← hreply]
      exact length_sanitize_le text config.maxOutputBytes

end MagicLaw.Ai
