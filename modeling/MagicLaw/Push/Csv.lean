import MagicLaw.Feishu.Webhook
import MagicLaw.Push.Storage

/-!
# Lines and segments of the CSV imports

`parse_csv_line` of `application/binding.rs` and `parse_target_segments` of
`application/push.rs`.

* `csvLoop_doubled` reads the inside of a quoted field, and `csvLoop_quoted` a
  line of such fields; `parseCsvLine_quoted` is the round trip.
* A target is written as four parts with colons between them
  (`DeliveryTarget.segment`), and the id of an extra Feishu account has a colon
  itself.  `parseTargetSegments_segments_iff` says which lists of targets come
  back.
-/

namespace MagicLaw.Push

open Lib.Text

/-! ## Lines -/

/-- The loop of `parse_csv_line`: the fields that are complete, the one that is
read, and whether it is inside quotes. -/
def csvLoop : List (List Char) → List Char → Bool → List Char → List (List Char)
  | fields, field, _, [] => fields ++ [field]
  -- two quotes are one, a single one ends the quotes
  | fields, field, true, '"' :: '"' :: cs => csvLoop fields (field ++ ['"']) true cs
  | fields, field, true, '"' :: cs => csvLoop fields field false cs
  | fields, field, true, c :: cs => csvLoop fields (field ++ [c]) true cs
  | fields, field, false, '"' :: cs => csvLoop fields field true cs
  | fields, field, false, ',' :: cs => csvLoop (fields ++ [field]) [] false cs
  | fields, field, false, c :: cs => csvLoop fields (field ++ [c]) false cs

def parseCsvLine (line : String) : List String :=
  (csvLoop [] [] false line.toList).map fun field => trim (String.ofList field)

/-- Every quote twice. -/
def doubled (field : List Char) : List Char :=
  field.flatMap fun c => if c = '"' then ['"', '"'] else [c]

def quoted (field : List Char) : List Char := '"' :: doubled field ++ ['"']

/-- The fields in quotes, with commas between them. -/
def csvLine (fields : List String) : String :=
  String.ofList ([','].intercalate (fields.map fun field => quoted field.toList))

theorem doubled_of_ne {c : Char} (hc : c ≠ '"') (field : List Char) :
    doubled (c :: field) = c :: doubled field := by
  simp [doubled, hc]

/-- What is inside the quotes is taken over, up to the quote that no other one
follows. -/
theorem csvLoop_doubled (fields : List (List Char)) (field letters : List Char) {rest : List Char}
    (hrest : rest.head? ≠ some '"') :
    csvLoop fields field true (doubled letters ++ '"' :: rest) =
      csvLoop fields (field ++ letters) false rest := by
  induction letters generalizing field with
  | nil =>
    rw [List.append_nil]
    cases rest with
    | nil => rfl
    | cons c cs =>
      have hc : c ≠ '"' := fun heq => hrest (congrArg some heq)
      show csvLoop fields field true ('"' :: c :: cs) = _
      rw [csvLoop]
      intro cs' heq
      exact hc (List.cons.inj heq).1
  | cons c letters ih =>
    rw [← List.singleton_append, ← List.append_assoc]
    by_cases hc : c = '"'
    · subst hc
      show csvLoop fields field true ('"' :: '"' :: (doubled letters ++ '"' :: rest)) = _
      rw [csvLoop]
      exact ih (field ++ ['"'])
    · rw [List.singleton_append, doubled_of_ne hc]
      show csvLoop fields field true (c :: (doubled letters ++ '"' :: rest)) = _
      rw [csvLoop]
      · exact ih (field ++ [c])
      · exact fun _ heq _ => hc heq
      · exact fun heq => hc heq

/-- A line of quoted fields, with some fields before it. -/
theorem csvLoop_quoted (before : List (List Char)) {fields : List (List Char)} (h : fields ≠ []) :
    csvLoop before [] false ([','].intercalate (fields.map quoted)) = before ++ fields := by
  induction fields generalizing before with
  | nil => exact absurd rfl h
  | cons field fields ih =>
    have hopen : ∀ rest, rest.head? ≠ some '"' →
        csvLoop before [] false (quoted field ++ rest) = csvLoop before field false rest := by
      intro rest hrest
      show csvLoop before [] false ('"' :: (doubled field ++ ['"']) ++ rest) = _
      rw [List.cons_append, csvLoop, List.append_assoc]
      exact csvLoop_doubled before [] field hrest
    cases fields with
    | nil =>
      have hlast := hopen [] (by simp)
      rw [List.append_nil] at hlast
      rw [List.map_singleton, List.intercalate_singleton, hlast, csvLoop]
    | cons next fields =>
      rw [List.map_cons, List.map_cons, List.intercalate_cons_cons, List.append_assoc,
        hopen _ (by simp), List.singleton_append, csvLoop, ← List.map_cons, ih _ (List.cons_ne_nil _ _),
        List.append_assoc, List.singleton_append]

/-- Fields in quotes are read back, trimmed, whatever is in them. -/
theorem parseCsvLine_quoted {fields : List String} (h : fields ≠ []) :
    parseCsvLine (csvLine fields) = fields.map trim := by
  have hletters : fields.map (fun field => quoted field.toList) =
      (fields.map String.toList).map quoted := by
    rw [List.map_map]
    rfl
  unfold parseCsvLine csvLine
  rw [String.toList_ofList, hletters, csvLoop_quoted [] (by simpa using h), List.nil_append,
    List.map_map]
  exact List.map_congr_left fun field _ => congrArg trim String.ofList_toList

theorem parseCsvLine_quoted_commas :
    parseCsvLine (csvLine ["a", " b,c", "e\"f\""]) = ["a", "b,c", "e\"f\""] :=
  (parseCsvLine_quoted (by decide)).trans (by decide +kernel)

/-! ## Target segments -/

/-- The loop of `parse_target_segments`. -/
def parseSegments : List String → List DeliveryTarget → Except String (List DeliveryTarget)
  | [], targets => .ok targets
  | seg :: segs, targets =>
    let seg := trim seg
    if seg = "" then parseSegments segs targets
    else
      match split ':' seg with
      | [channel, peerId, conversationId, conversationType] =>
        parseSegments segs (targets ++
          [⟨trim channel, trim peerId, trim conversationId, trim conversationType, none⟩])
      | _ => .error ("invalid target segment '" ++ seg ++ "': expected channel:peer:conv:type")

def parseTargetSegments (value : String) : Except String (List DeliveryTarget) :=
  let value := trim value
  if value = "" then .ok [] else parseSegments (split '|' value) []

/-- `channel:peer_id:conversation_id:conversation_type` -/
def DeliveryTarget.segment (target : DeliveryTarget) : String :=
  s!"{target.channel}:{target.peerId}:{target.conversationId}:{target.conversationType}"

/-- The segments, joined by bars. -/
def targetSegments (targets : List DeliveryTarget) : String :=
  String.ofList (['|'].intercalate (targets.map fun target => target.segment.toList))

/-- The channel ids that the runtime registers. -/
def OnRuntime (channel : String) : Prop :=
  channel = "wechat" ∨ channel = "dingtalk" ∨
    ∃ accountId, channel = (Feishu.feishuChannelId accountId).name

/-- The channel is not the one of an extra Feishu account. -/
def OwnChannel (channel : String) : Prop := channel ∈ ["wechat", "dingtalk", "feishu"]

/-- A field that is not blank, is trimmed and has no bar. -/
structure Field (value : String) : Prop where
  ne_empty : value ≠ ""
  trimmed : trim value = value
  bar : '|' ∉ value.toList

/-- A target that can be bound, on a channel of the runtime, whose fields do
not have the marks of the format, but for the colon in a channel. -/
structure Nameable (target : DeliveryTarget) : Prop where
  registered : OnRuntime target.channel
  accountScope : target.accountScope = none
  channel : Field target.channel
  peerId : Field target.peerId
  conversationId : Field target.conversationId
  conversationType : Field target.conversationType
  peerId_colon : ':' ∉ target.peerId.toList
  conversationId_colon : ':' ∉ target.conversationId.toList
  conversationType_colon : ':' ∉ target.conversationType.toList

/-- Only the ids of extra Feishu accounts have a colon. -/
theorem ownChannel_iff {channel : String} (h : OnRuntime channel) :
    OwnChannel channel ↔ ':' ∉ channel.toList := by
  constructor
  · intro hown
    unfold OwnChannel at hown
    simp only [List.mem_cons, List.not_mem_nil, or_false] at hown
    rcases hown with rfl | rfl | rfl <;> decide
  · intro hcolon
    unfold OwnChannel
    rcases h with rfl | rfl | ⟨accountId, rfl⟩
    · decide
    · decide
    · unfold Feishu.feishuChannelId at hcolon ⊢
      dsimp only at hcolon ⊢
      split at hcolon
      · next hdefault =>
        rw [if_pos hdefault]
        decide
      · exact absurd (by simp) hcolon

theorem toList_segment (target : DeliveryTarget) :
    target.segment.toList = target.channel.toList ++ ':' :: (target.peerId.toList ++ ':' ::
      (target.conversationId.toList ++ ':' :: target.conversationType.toList)) := by
  simp [DeliveryTarget.segment, String.toList_append, toString]

theorem segment_ne_nil (target : DeliveryTarget) : target.segment.toList ≠ [] := by
  rw [toList_segment]
  simp

section Nameable

variable {target : DeliveryTarget} (h : Nameable target)

include h

theorem Nameable.bar_notMem : '|' ∉ target.segment.toList := by
  rw [toList_segment]
  simp [h.channel.bar, h.peerId.bar, h.conversationId.bar, h.conversationType.bar]

/-- A segment begins like its channel and ends like its type. -/
theorem Nameable.segment_ends :
    (∀ c ∈ target.segment.toList.head?, isWhitespace c = false) ∧
      ∀ c ∈ target.segment.toList.getLast?, isWhitespace c = false := by
  obtain ⟨hfirst, -⟩ := ends_of_trim_eq_self h.channel.trimmed
  obtain ⟨-, hlast⟩ := ends_of_trim_eq_self h.conversationType.trimmed
  have hchannel : target.channel.toList ≠ [] := by simpa using h.channel.ne_empty
  have htype : target.conversationType.toList ≠ [] := by simpa using h.conversationType.ne_empty
  rw [toList_segment]
  constructor
  · rw [List.head?_append_of_ne_nil _ hchannel]
    exact hfirst
  · simpa [List.getLast?_append, List.getLast?_cons, List.getLast?_eq_some_getLast htype] using hlast

theorem Nameable.trim_segment : trim target.segment = target.segment :=
  trim_eq_self_of_ends h.segment_ends.1 h.segment_ends.2

/-- The last three parts of a segment are what they are for. -/
theorem Nameable.split_segment :
    split ':' target.segment = split ':' target.channel ++
      [target.peerId, target.conversationId, target.conversationType] := by
  unfold split
  rw [toList_segment, List.splitOn_append_cons_self, List.splitOn_append_cons_self,
    List.splitOn_append_cons_self, List.splitOn_eq_singleton h.peerId_colon,
    List.splitOn_eq_singleton h.conversationId_colon,
    List.splitOn_eq_singleton h.conversationType_colon]
  simp

end Nameable

/-- A text without the separator is one part, one with it is more. -/
theorem split_of_not_mem {sep : Char} {s : String} (h : sep ∉ s.toList) : split sep s = [s] := by
  unfold split
  rw [List.splitOn_eq_singleton h, List.map_singleton, String.ofList_toList]

theorem two_le_length_split {sep : Char} {s : String} (h : sep ∈ s.toList) :
    2 ≤ (split sep s).length := by
  obtain ⟨before, after, hs⟩ := List.append_of_mem h
  have hbefore := List.length_pos_of_ne_nil (List.splitOn_ne_nil sep before)
  have hafter := List.length_pos_of_ne_nil (List.splitOn_ne_nil sep after)
  unfold split
  rw [hs, List.splitOn_append_cons_self, List.map_append, List.length_append, List.length_map,
    List.length_map]
  omega

/-- The loop reads the segments of targets back, up to the first one whose
channel has a colon. -/
theorem parseSegments_segments_iff {targets : List DeliveryTarget}
    (h : ∀ target ∈ targets, Nameable target) (before : List DeliveryTarget) :
    parseSegments (targets.map DeliveryTarget.segment) before = .ok (before ++ targets) ↔
      ∀ target ∈ targets, OwnChannel target.channel := by
  induction targets generalizing before with
  | nil => simp [parseSegments]
  | cons target targets ih =>
    have htarget := h target List.mem_cons_self
    have hrest : ∀ other ∈ targets, Nameable other :=
      fun other hother => h other (List.mem_cons_of_mem _ hother)
    have hne : target.segment ≠ "" := by simpa using segment_ne_nil target
    rw [List.map_cons, parseSegments, htarget.trim_segment, if_neg hne, htarget.split_segment,
      List.forall_mem_cons, ownChannel_iff htarget.registered]
    by_cases hcolon : ':' ∈ target.channel.toList
    · have hparts := two_le_length_split hcolon
      refine iff_of_false (fun heq => ?_) fun hall => hall.1 hcolon
      split at heq
      · next hfour =>
        have hlength := congrArg List.length hfour
        simp only [List.length_append, List.length_cons, List.length_nil] at hlength
        omega
      · cases heq
    · rw [split_of_not_mem hcolon]
      dsimp only [List.singleton_append]
      have hread : (⟨trim target.channel, trim target.peerId, trim target.conversationId,
          trim target.conversationType, none⟩ : DeliveryTarget) = target := by
        rw [htarget.channel.trimmed, htarget.peerId.trimmed, htarget.conversationId.trimmed,
          htarget.conversationType.trimmed, ← htarget.accountScope]
      rw [hread, and_iff_right hcolon, ← ih hrest (before ++ [target]), List.append_assoc,
        List.singleton_append]

/-- Parts that are not empty, between separators, begin and end like the first
and the last one. -/
theorem ends_intercalate {P : Char → Prop} (sep : Char) {parts : List (List Char)}
    (hparts : parts ≠ [])
    (h : ∀ part ∈ parts, part ≠ [] ∧ (∀ c ∈ part.head?, P c) ∧ ∀ c ∈ part.getLast?, P c) :
    (∀ c ∈ ([sep].intercalate parts).head?, P c) ∧
      ∀ c ∈ ([sep].intercalate parts).getLast?, P c := by
  induction parts with
  | nil => exact absurd rfl hparts
  | cons part parts ih =>
    obtain ⟨hne, hfirst, hlast⟩ := h part List.mem_cons_self
    cases parts with
    | nil =>
      rw [List.intercalate_singleton]
      exact ⟨hfirst, hlast⟩
    | cons next parts =>
      have hrest := ih (List.cons_ne_nil _ _) fun other hother =>
        h other (List.mem_cons_of_mem _ hother)
      have hnext := (h next (List.mem_cons_of_mem _ List.mem_cons_self)).1
      have hne' : [sep].intercalate (next :: parts) ≠ [] := by
        cases parts with
        | nil => simpa using hnext
        | cons _ _ => simp [List.intercalate_cons_cons]
      rw [List.intercalate_cons_cons, List.append_assoc]
      constructor
      · rw [List.head?_append_of_ne_nil _ hne]
        exact hfirst
      · rw [List.getLast?_append_of_ne_nil _ (by simp), List.getLast?_append_of_ne_nil _ hne']
        exact hrest.2

section Segments

variable {targets : List DeliveryTarget} (h : ∀ target ∈ targets, Nameable target)
  (hnil : targets ≠ [])

include h hnil

/-- There is no white space around the segments. -/
theorem trim_targetSegments : trim (targetSegments targets) = targetSegments targets := by
  have hends : ∀ part ∈ targets.map (fun target => target.segment.toList),
      part ≠ [] ∧ (∀ c ∈ part.head?, isWhitespace c = false) ∧
        ∀ c ∈ part.getLast?, isWhitespace c = false := by
    intro part hpart
    obtain ⟨target, htarget, rfl⟩ := List.mem_map.mp hpart
    exact ⟨segment_ne_nil target, (h target htarget).segment_ends⟩
  have hall := ends_intercalate '|' (by simpa using hnil) hends
  apply trim_eq_self_of_ends
  · unfold targetSegments
    rw [String.toList_ofList]
    exact hall.1
  · unfold targetSegments
    rw [String.toList_ofList]
    exact hall.2

/-- Between the bars are the segments. -/
theorem split_targetSegments :
    split '|' (targetSegments targets) = targets.map DeliveryTarget.segment := by
  have hbars : ∀ part ∈ targets.map (fun target => target.segment.toList), '|' ∉ part := by
    intro part hpart
    obtain ⟨target, htarget, rfl⟩ := List.mem_map.mp hpart
    exact (h target htarget).bar_notMem
  unfold split targetSegments
  rw [String.toList_ofList, List.splitOn_intercalate '|' hbars (by simpa using hnil), List.map_map]
  exact List.map_congr_left fun target _ => String.ofList_toList

theorem targetSegments_ne_empty : targetSegments targets ≠ "" := by
  intro hempty
  have hsplit := split_targetSegments h hnil
  rw [hempty, split_of_not_mem (by simp)] at hsplit
  obtain ⟨target, -, hsegment⟩ := List.mem_map.mp (hsplit ▸ List.mem_singleton_self "")
  exact segment_ne_nil target (by rw [hsegment]; rfl)

end Segments

/-- A list of targets that can be bound is read back from its segments exactly
when none of them is on the channel of an extra Feishu account. -/
theorem parseTargetSegments_segments_iff {targets : List DeliveryTarget}
    (h : ∀ target ∈ targets, Nameable target) :
    parseTargetSegments (targetSegments targets) = .ok targets ↔
      ∀ target ∈ targets, OwnChannel target.channel := by
  by_cases hnil : targets = []
  · subst hnil
    exact iff_of_true (by decide +kernel) (by simp)
  · unfold parseTargetSegments
    dsimp only
    rw [trim_targetSegments h hnil, if_neg (targetSegments_ne_empty h hnil),
      split_targetSegments h hnil]
    exact parseSegments_segments_iff h []

/-- Alice, and a group on the account `team` of Feishu. -/
def namedAlice : DeliveryTarget := ⟨"wechat", "alice", "c1", "direct", none⟩

def namedTeam : DeliveryTarget := ⟨"feishu:team", "ou_1", "oc_1", "group", none⟩

theorem nameable_namedAlice : Nameable namedAlice where
  registered := .inl rfl
  accountScope := rfl
  channel := ⟨by decide, by decide, by decide⟩
  peerId := ⟨by decide, by decide, by decide⟩
  conversationId := ⟨by decide, by decide, by decide⟩
  conversationType := ⟨by decide, by decide, by decide⟩
  peerId_colon := by decide
  conversationId_colon := by decide
  conversationType_colon := by decide

theorem nameable_namedTeam : Nameable namedTeam where
  registered := .inr (.inr ⟨"team", by decide⟩)
  accountScope := rfl
  channel := ⟨by decide, by decide, by decide⟩
  peerId := ⟨by decide, by decide, by decide⟩
  conversationId := ⟨by decide, by decide, by decide⟩
  conversationType := ⟨by decide, by decide, by decide⟩
  peerId_colon := by decide
  conversationId_colon := by decide
  conversationType_colon := by decide

theorem namedAlice_read :
    parseTargetSegments (targetSegments [namedAlice, namedAlice]) =
      .ok [namedAlice, namedAlice] :=
  (parseTargetSegments_segments_iff (by simp [nameable_namedAlice])).mpr
    (by simp [OwnChannel, namedAlice])

/-- The segment of an extra Feishu account has five parts. -/
theorem not_everyTargetRead :
    ¬ ∀ targets : List DeliveryTarget, (∀ target ∈ targets, Nameable target) →
      parseTargetSegments (targetSegments targets) = .ok targets := by
  intro h
  have hread := h [namedTeam] (by simp [nameable_namedTeam])
  exact absurd hread (by decide +kernel)

end MagicLaw.Push
