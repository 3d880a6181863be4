import MagicLaw.Lib.Paths
import MagicLaw.Lib.Program
import MagicLaw.Outbox.Classification

/-!
# The media that is sent to WeChat

`send_media` of `channels/wechat/channel.rs` with `MediaLocation`,
`FileMediaSource` and its stream of `channels/wechat/media.rs`, and `MediaError`
of `domain/ports/media.rs`.  The uploader is any program that opens the source as
often as it likes and pulls chunks from the streams in any order, and a read may
yield less than was asked for.

* `sendMedia_streams`: an uploader is given local regular files within the limit
  alone, and each stream is the content of its file from the start, in chunks of
  bounded size.
* `sendMedia_iLink`: in the mode of iLink a media send fails, also when the
  upload has worked.

A file does not change while it is sent.
-/

namespace MagicLaw.WeChat.MediaSend

open Lib Lib.Program
open Lib.Text (trim stripPrefix? toAsciiLowercase)
open MagicLaw.Outbox (SendReceipt)

/-! ## Errors and locations -/

inductive MediaError where
  | source (e : String)
  | tooLarge (size limit : UInt64)
  | upload (e : String)
  | send (e : String)
  deriving DecidableEq

def MediaError.stage : MediaError → String
  | .source _ | .tooLarge _ _ => "source"
  | .upload _ => "upload"
  | .send _ => "send"

def MediaError.isRetryable : MediaError → Bool
  | .upload _ | .send _ => true
  | .source _ | .tooLarge _ _ => false

/-- `Display` -/
def MediaError.text : MediaError → String
  | .source e => s!"media source error: {e}"
  | .tooLarge size limit => s!"media too large: {size} bytes exceeds limit {limit}"
  | .upload e => s!"media upload error: {e}"
  | .send e => s!"media send error: {e}"

inductive MediaLocation where
  | localFile (path : String)
  | remoteUrl (url : String)
  deriving DecidableEq

def MediaLocation.parse (raw : String) : Except MediaError MediaLocation :=
  let s := trim raw
  if s = "" then .error (.source "empty media location")
  else
    match stripPrefix? "file://" s with
    | some path => if trim path = "" then .error (.source "file:// with empty path") else .ok (.localFile path)
    | none =>
      if (stripPrefix? "http://" s).isSome || (stripPrefix? "https://" s).isSome then .ok (.remoteUrl s)
      else .error (.source s!"unsupported or ambiguous media location: {s}")

/-! ## The source -/

structure MediaMeta where
  filename : String
  mime : String
  size : UInt64

structure MediaRef where
  mediaId : String
  url : Option String

def mimeFromFilename (filename : String) : String :=
  match toAsciiLowercase ((Text.split '.' filename).getLast?.getD "") with
  | "png" => "image/png"
  | "jpg" | "jpeg" => "image/jpeg"
  | "gif" => "image/gif"
  | "webp" => "image/webp"
  | "pdf" => "application/pdf"
  | "txt" => "text/plain"
  | "mp4" => "video/mp4"
  | "mp3" => "audio/mpeg"
  | _ => "application/octet-stream"

/-- What `tokio::fs::metadata` yields. -/
structure Metadata where
  isFile : Bool
  len : UInt64

/-- A source that can be opened again.  Its chunks are not empty. -/
structure FileMediaSource where
  path : String
  info : MediaMeta
  chunkBytes : Nat
  chunkBytes_pos : 0 < chunkBytes

def FileMediaSource.new (path : String) (chunkBytes : Nat) (sizeLimit : UInt64)
    (stat : Except String Metadata) : Except MediaError FileMediaSource :=
  match stat with
  | .error e => .error (.source s!"stat {path}: {e}")
  | .ok md =>
    if !md.isFile then .error (.source s!"not a regular file: {path}")
    else if 0 < sizeLimit ∧ sizeLimit < md.len then .error (.tooLarge md.len sizeLimit)
    else
      let filename := (Paths.fileName path).getD "file"
      .ok ⟨path, ⟨filename, mimeFromFilename filename, md.len⟩, max chunkBytes 1, by omega⟩

/-! ## Files and streams -/

inductive FileCall where
  | stat (path : String)
  | openFile (path : String) (chunkBytes : Nat)
  /-- `next_chunk` of the stream with this number -/
  | nextChunk (stream : Nat)

def FileCall.Reply : FileCall → Type
  | .stat _ => Except String Metadata
  | .openFile _ _ => Except MediaError Nat
  | .nextChunk _ => Except MediaError (Option (List UInt8))

/-- What an operation meets: whether it fails, and how much a read yields at
most. -/
structure Outcome where
  fault : Option String
  short : Nat

/-- A stream, with what it has yielded. -/
structure Stream where
  path : String
  chunkBytes : Nat
  position : Nat
  chunks : List (List UInt8)
  ended : Bool

/-- The regular files. -/
structure Files where
  content : String → Option (List UInt8)
  small : ∀ path bytes, content path = some bytes → bytes.length < 2 ^ 64

/-- The files, and the streams that were opened. -/
structure Disk where
  files : Files
  streams : List Stream

/-- The bytes that a read yields: at least one, where there is one. -/
def readBytes (rest : List UInt8) (chunkBytes short : Nat) : List UInt8 :=
  rest.take (min chunkBytes (max short 1))

def Stream.next (stream : Stream) (content : List UInt8) (short : Nat) :
    Option (List UInt8) × Stream :=
  let bytes := readBytes (content.drop stream.position) stream.chunkBytes short
  if bytes = [] then (none, { stream with ended := true })
  else (some bytes, { stream with
    position := stream.position + bytes.length
    chunks := stream.chunks ++ [bytes] })

def handle (d : Disk) (o : Outcome) : (c : FileCall) → c.Reply × Disk
  | .stat path =>
    match o.fault, d.files.content path with
    | some e, _ => (.error e, d)
    | none, some content => (.ok ⟨true, UInt64.ofNat content.length⟩, d)
    | none, none => (.ok ⟨false, 0⟩, d)
  | .openFile path chunkBytes =>
    match o.fault with
    | some e => (.error (.source s!"open {path}: {e}"), d)
    | none => (.ok d.streams.length, { d with
        streams := d.streams ++ [⟨path, chunkBytes, 0, [], false⟩] })
  | .nextChunk n =>
    match o.fault, d.streams[n]? with
    | some e, _ => (.error (.source s!"read: {e}"), d)
    | none, none => (.error (.source "read: no stream"), d)
    | none, some stream =>
      let (reply, stream') := stream.next ((d.files.content stream.path).getD []) o.short
      (.ok reply, { d with streams := d.streams.set n stream' })

abbrev Work := Prog FileCall.Reply

def call (c : FileCall) : Work c.Reply := .perform c

/-! ## The uploader -/

/-- The port `MediaSource`, as an uploader sees it. -/
inductive SourceCall where
  | openSource
  | nextChunk (stream : Nat)

def SourceCall.Reply : SourceCall → Type
  | .openSource => Except MediaError Nat
  | .nextChunk _ => Except MediaError (Option (List UInt8))

abbrev Uploader := MediaMeta → Prog SourceCall.Reply (Except MediaError MediaRef)

/-- The calls of the uploader go to the file. -/
def onSource {α : Type} (source : FileMediaSource) : Prog SourceCall.Reply α → Work α
  | .ret a => .ret a
  | .call .openSource next =>
    .call (.openFile source.path source.chunkBytes) fun r => onSource source (next r)
  | .call (.nextChunk n) next => .call (.nextChunk n) fun r => onSource source (next r)

/-! ## The send -/

inductive WeChatMode where
  | stub | iLink
  deriving DecidableEq

/-- The channel, as far as a media send reads it. -/
structure WeChatChannel where
  mode : WeChatMode
  mediaUploader : Option Uploader
  mediaChunkBytes : Nat
  mediaSizeLimit : UInt64

/-- `map_err(|e| format!("media[{}]: {e}", e.stage()))` -/
def staged {α : Type} (result : Except MediaError α) : Except String α :=
  result.mapError fun e => s!"media[{e.stage}]: {e.text}"

/-- The reference of what is on the platform already, or is uploaded. -/
def resolveMedia (channel : WeChatChannel) (uploader : Uploader) (url : String)
    (mediaId : Option String) : Work (Except String MediaRef) :=
  match mediaId.filter fun s => trim s ≠ "" with
  | some id => pure (.ok ⟨id, some url⟩)
  | none =>
    match MediaLocation.parse url with
    | .error e => pure (staged (.error e))
    | .ok (.remoteUrl _) =>
      pure (.error "media[source]: remote URL upload requires a pre-uploaded media_id")
    | .ok (.localFile path) => do
      let stat : Except String Metadata ← call (.stat path)
      match FileMediaSource.new path channel.mediaChunkBytes channel.mediaSizeLimit stat with
      | .error e => return staged (.error e)
      | .ok source => do
        let r ← onSource source (uploader source.info)
        return staged r

/-- `send_media`, with the id and the time of a receipt. -/
def sendMedia (channel : WeChatChannel) (messageId : String) (timestampMs : Int64) (url : String)
    (mediaId : Option String) : Work (Except String SendReceipt) :=
  match channel.mediaUploader with
  | none => pure (.error "wechat media upload not enabled (no uploader configured)")
  | some uploader => do
    match ← resolveMedia channel uploader url mediaId with
    | .error e => return .error e
    | .ok media =>
      match channel.mode with
      | .stub => return .ok ⟨messageId, some s!"wechat_media_{media.mediaId}", timestampMs⟩
      | .iLink =>
        return .error "media[send]: ilink media send not yet implemented (pending media contract)"

/-! ## Streams -/

/-- What the stream has yielded is the start of the content, and all of it when
the stream has ended. -/
structure Sound (chunkBytes : Nat) (content : List UInt8) (stream : Stream) : Prop where
  chunks : stream.chunks.flatten = content.take stream.position
  bounded : ∀ chunk ∈ stream.chunks, chunk ≠ [] ∧ chunk.length ≤ chunkBytes
  ended : stream.ended = true → stream.chunks.flatten = content

theorem sound_new (path : String) (chunkBytes : Nat) (content : List UInt8) :
    Sound chunkBytes content ⟨path, chunkBytes, 0, [], false⟩ :=
  ⟨rfl, nofun, nofun⟩

theorem length_readBytes_le (rest : List UInt8) (chunkBytes short : Nat) :
    (readBytes rest chunkBytes short).length ≤ chunkBytes := by
  unfold readBytes
  rw [List.length_take]
  omega

/-- Only at the end of the file nothing is read. -/
theorem readBytes_eq_nil_iff {rest : List UInt8} {chunkBytes : Nat} (hpos : 0 < chunkBytes)
    (short : Nat) : readBytes rest chunkBytes short = [] ↔ rest = [] := by
  unfold readBytes
  rw [List.take_eq_nil_iff]
  constructor
  · intro h
    rcases h with h | h
    · omega
    · exact h
  · exact .inr

theorem Sound.next {content : List UInt8} {stream : Stream} (h : Sound stream.chunkBytes content stream)
    (hpos : 0 < stream.chunkBytes) (short : Nat) :
    Sound stream.chunkBytes content (stream.next content short).2 := by
  unfold Stream.next
  dsimp only
  split
  · next hnil =>
    -- nothing is left after the position
    rw [readBytes_eq_nil_iff hpos, List.drop_eq_nil_iff] at hnil
    exact ⟨h.chunks, h.bounded, fun _ => h.chunks.trans (List.take_of_length_le hnil)⟩
  · next hne =>
    have hbytes : ∃ n, readBytes (content.drop stream.position) stream.chunkBytes short =
        (content.drop stream.position).take n := ⟨_, rfl⟩
    have hbounded := length_readBytes_le (content.drop stream.position) stream.chunkBytes short
    generalize readBytes (content.drop stream.position) stream.chunkBytes short = bytes
      at hne hbytes hbounded
    obtain ⟨n, rfl⟩ := hbytes
    have hflatten : (stream.chunks ++ [(content.drop stream.position).take n]).flatten =
        content.take (stream.position + ((content.drop stream.position).take n).length) := by
      rw [List.flatten_append, h.chunks, List.flatten_singleton, List.take_add]
      congr 1
      rw [List.length_take, List.take_eq_take_iff]
      omega
    refine ⟨hflatten, List.forall_mem_append.mpr ⟨h.bounded, ?_⟩, fun hended => ?_⟩
    · exact List.forall_mem_singleton.mpr ⟨hne, hbounded⟩
    · -- a stream that has ended has nothing left to read
      have hall := h.chunks.symm.trans (h.ended hended)
      have hnone : content.drop stream.position = [] := by
        rw [List.drop_eq_nil_iff]
        exact List.take_eq_self_iff _ |>.mp hall
      rw [hnone, List.take_nil] at hne
      exact absurd rfl hne

/-- Every stream is one of the source, and is sound. -/
structure Streams (source : FileMediaSource) (content : List UInt8) (files : Files) (d : Disk) :
    Prop where
  same : d.files = files
  stored : files.content source.path = some content
  streams : ∀ stream ∈ d.streams, stream.path = source.path ∧
    stream.chunkBytes = source.chunkBytes ∧ Sound source.chunkBytes content stream

section Uploader

variable {source : FileMediaSource} {content : List UInt8} {files : Files} {d : Disk}

theorem streams_openFile (h : Streams source content files d) (o : Outcome) :
    Streams source content files (handle d o (.openFile source.path source.chunkBytes)).2 := by
  simp only [handle]
  cases o.fault with
  | some e => exact h
  | none =>
    refine ⟨h.same, h.stored, List.forall_mem_append.mpr ⟨h.streams, ?_⟩⟩
    exact List.forall_mem_singleton.mpr ⟨rfl, rfl, sound_new _ _ _⟩

theorem streams_nextChunk (h : Streams source content files d) (n : Nat) (o : Outcome) :
    Streams source content files (handle d o (.nextChunk n)).2 := by
  cases hfault : o.fault with
  | some e =>
    simp only [handle, hfault]
    exact h
  | none =>
    cases hget : d.streams[n]? with
    | none =>
      simp only [handle, hfault, hget]
      exact h
    | some stream =>
      simp only [handle, hfault, hget]
      obtain ⟨hpath, hchunk, hsound⟩ := h.streams stream (List.mem_of_getElem? hget)
      have hcontent : (d.files.content stream.path).getD [] = content := by
        rw [hpath, h.same, h.stored, Option.getD_some]
      refine ⟨h.same, h.stored, fun other hother => ?_⟩
      rcases List.mem_or_eq_of_mem_set hother with hother | rfl
      · exact h.streams other hother
      · rw [hcontent]
        rw [← hchunk] at hsound ⊢
        have hnext := hsound.next (hchunk ▸ source.chunkBytes_pos) o.short
        refine ⟨?_, ?_, hnext⟩
        · unfold Stream.next
          dsimp only
          split <;> exact hpath
        · unfold Stream.next
          dsimp only
          split <;> rfl

/-- Whatever the uploader does with its source. -/
theorem wp_onSource {α : Type} (p : Prog SourceCall.Reply α) (h : Streams source content files d) :
    wp handle anyOutcome (fun _ d => Streams source content files d) (onSource source p) d := by
  induction p generalizing d with
  | ret a => exact h
  | call c next ih =>
    cases c with
    | openSource => exact ⟨fun hcrash => hcrash.elim, fun o _ => ih _ (streams_openFile h o)⟩
    | nextChunk n => exact ⟨fun hcrash => hcrash.elim, fun o _ => ih _ (streams_nextChunk h n o)⟩

end Uploader

/-! ## What is given to an uploader -/

/-- Each stream is of the local file that the location names, which is not above
the limit. -/
structure Given (channel : WeChatChannel) (url : String) (files : Files) (stream : Stream)
    (content : List UInt8) : Prop where
  location : MediaLocation.parse url = .ok (.localFile stream.path)
  stored : files.content stream.path = some content
  limit : channel.mediaSizeLimit = 0 ∨ content.length ≤ channel.mediaSizeLimit.toNat
  sound : Sound (max channel.mediaChunkBytes 1) content stream

/-- All streams are. -/
def AllGiven (channel : WeChatChannel) (url : String) (files : Files) (d : Disk) : Prop :=
  d.files = files ∧ ∀ stream ∈ d.streams, ∃ content, Given channel url files stream content

theorem new_eq_ok {path : String} {chunkBytes : Nat} {sizeLimit : UInt64}
    {stat : Except String Metadata} {source : FileMediaSource}
    (h : FileMediaSource.new path chunkBytes sizeLimit stat = .ok source) :
    source.path = path ∧ source.chunkBytes = max chunkBytes 1 ∧
      ∃ md, stat = .ok md ∧ md.isFile = true ∧ (sizeLimit = 0 ∨ md.len ≤ sizeLimit) := by
  unfold FileMediaSource.new at h
  cases stat with
  | error e => cases h
  | ok md =>
    dsimp only at h
    split at h
    · cases h
    · next hfile =>
      split at h
      · cases h
      · next hlimit =>
        cases h
        refine ⟨rfl, rfl, md, rfl, by simpa using hfile, ?_⟩
        rw [not_and_or, UInt64.not_lt, UInt64.not_lt] at hlimit
        exact hlimit.imp_left fun h => UInt64.le_zero_iff.mp h

/-- `metadata` says how long the file is. -/
theorem stat_eq_ok {d : Disk} {o : Outcome} {path : String} {md : Metadata}
    (h : (handle d o (.stat path)).1 = .ok md) (hfile : md.isFile = true) :
    ∃ content, d.files.content path = some content ∧ md.len.toNat = content.length := by
  simp only [handle] at h
  cases hfault : o.fault with
  | some e =>
    rw [hfault] at h
    cases h
  | none =>
    cases hcontent : d.files.content path with
    | none =>
      rw [hfault, hcontent] at h
      cases h
      cases hfile
    | some content =>
      rw [hfault, hcontent] at h
      cases h
      exact ⟨content, rfl, UInt64.toNat_ofNat_of_lt' (d.files.small path content hcontent)⟩

section Send

variable {channel : WeChatChannel} {url : String} {files : Files} {d : Disk}

theorem wp_resolveMedia (uploader : Uploader) (mediaId : Option String) (hfiles : d.files = files)
    (hstreams : d.streams = []) :
    wp handle anyOutcome (fun _ => AllGiven channel url files)
      (resolveMedia channel uploader url mediaId) d := by
  have hnone : AllGiven channel url files d := ⟨hfiles, by simp [hstreams]⟩
  unfold resolveMedia
  cases mediaId.filter fun s => trim s ≠ "" with
  | some id => exact hnone
  | none =>
    cases hlocation : MediaLocation.parse url with
    | error e => exact hnone
    | ok location =>
      cases location with
      | remoteUrl _ => exact hnone
      | localFile path =>
        refine wp_anyOutcome_bind fun o => ?_
        have hsame : (handle d o (.stat path)).2 = d := by
          simp only [handle]
          split <;> rfl
        cases hnew : FileMediaSource.new path channel.mediaChunkBytes channel.mediaSizeLimit
            (handle d o (.stat path)).1 with
        | error e =>
          rw [hsame]
          exact hnone
        | ok source =>
          obtain ⟨hpath, hchunk, md, hstat, hisFile, hlimit⟩ := new_eq_ok hnew
          obtain ⟨content, hcontent, hlen⟩ := stat_eq_ok hstat hisFile
          rw [hfiles] at hcontent
          have hstart : Streams source content files d :=
            ⟨hfiles, hpath ▸ hcontent, by simp [hstreams]⟩
          dsimp only
          rw [hsame, wp_bind]
          refine wp_mono (fun _ d' h => ⟨h.same, fun stream hstream => ⟨content, ?_⟩⟩)
            (wp_onSource _ hstart)
          obtain ⟨hfile, -, hsound⟩ := h.streams stream hstream
          rw [hchunk] at hsound
          refine ⟨?_, ?_, hlimit.imp_right fun hle => ?_, hsound⟩
          · rw [hfile, hpath]
            exact hlocation
          · rw [hfile]
            exact h.stored
          · rw [← hlen]
            exact UInt64.le_iff_toNat_le.mp hle

theorem wp_sendMedia (messageId : String) (timestampMs : Int64) (mediaId : Option String)
    (hfiles : d.files = files) (hstreams : d.streams = []) :
    wp handle anyOutcome (fun _ => AllGiven channel url files)
      (sendMedia channel messageId timestampMs url mediaId) d := by
  unfold sendMedia
  cases channel.mediaUploader with
  | none => exact ⟨hfiles, by simp [hstreams]⟩
  | some uploader =>
    dsimp only
    rw [wp_bind]
    refine wp_mono (fun r d' h => ?_) (wp_resolveMedia uploader mediaId hfiles hstreams)
    cases r with
    | error e => exact h
    | ok media => cases channel.mode <;> exact h

end Send

/-- Whatever the uploader does, however much the reads yield and whatever fails,
while the file does not change between its stat, its open and the reads: each
stream that it has been given is of the local regular file that the location
names, no bigger than the limit, and what the stream has yielded is the file from
its start, in chunks that are neither empty nor too big; one that has ended has
yielded the whole file. -/
theorem sendMedia_streams (channel : WeChatChannel) (messageId : String) (timestampMs : Int64)
    (url : String) (mediaId : Option String) (os : Nat → Outcome) (files : Files) :
    let d := ((sendMedia channel messageId timestampMs url mediaId).play handle os ⟨files, []⟩).2
    ∀ stream ∈ d.streams, ∃ content, Given channel url files stream content :=
  (play_of_wp (wp_sendMedia messageId timestampMs mediaId rfl rfl) os).2

/-- In the mode of iLink there is never a receipt, though the upload may have
worked. -/
theorem sendMedia_iLink {channel : WeChatChannel} (h : channel.mode = .iLink) (messageId : String)
    (timestampMs : Int64) (url : String) (mediaId : Option String) (os : Nat → Outcome) (d : Disk) :
    ∃ e, ((sendMedia channel messageId timestampMs url mediaId).play handle os d).1 = .error e := by
  have hwp : wp handle anyOutcome (fun r _ => ∃ e, r = .error e)
      (sendMedia channel messageId timestampMs url mediaId) d := by
    unfold sendMedia
    cases channel.mediaUploader with
    | none => exact ⟨_, rfl⟩
    | some uploader =>
      dsimp only
      rw [wp_bind]
      refine wp_mono (fun r _ _ => ?_) (wp_anyOutcome_true _ _)
      cases r with
      | error e => exact ⟨e, rfl⟩
      | ok media =>
        rw [h]
        exact ⟨_, rfl⟩
  exact play_of_wp hwp os

end MagicLaw.WeChat.MediaSend
