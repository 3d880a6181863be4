import MagicLaw.Lib.Lines
import MagicLaw.Lib.Text

/-!
# The transport of the MCP server

`read_framed_or_json_line`, `write_response` and the loop of `run_blocking`,
in `adapters/mcp/transport.rs`.  Standard input is the list of the bytes that
are left of it.

* `reads_written`: a stream of frames and of lines of JSON is read back.
* `delivered_iff`: the loop delivers every message of a stream of frames
  exactly where none comes after a body that is not UTF-8.

`serde_json::from_str` on a body is a parameter of the loop, and so is the
handler, which may close its channel.
-/

namespace MagicLaw.Mcp

open Lib Lib.Bytes Lib.Lines

/-! ## The reader -/

/-- `isize::MAX`, the largest capacity in bytes. -/
def isizeMax : Nat := 2 ^ 63 - 1

inductive ReadError where
  /-- `read_line` finds no UTF-8 -/
  | lineNotUtf8
  /-- `EOF while reading MCP headers` -/
  | headersEof
  /-- `read_exact` finds too few bytes -/
  | bodyEof
  /-- `invalid UTF-8 MCP body` -/
  | bodyNotUtf8
  /-- `vec!` panics -/
  | capacityOverflow
  deriving DecidableEq, Repr

def contentLength? (trimmed : String) : Option Nat :=
  match Text.splitOnce ':' trimmed with
  | some (name, value) =>
    if Text.eqIgnoreAsciiCase name "Content-Length" then Text.parseUsize (Text.trim value) else none
  | none => none

def startsWithBrace (s : String) : Bool := s.toList.head? = some '{'

/-- The loop over the other header lines. -/
def skipHeaders (input : List UInt8) : Except ReadError (List UInt8) :=
  match _ : readLine input with
  | .notUtf8 => .error .lineNotUtf8
  | .eof => .error .headersEof
  | .text headerLine rest =>
    if headerLine = "\r\n" ∨ headerLine = "\n" then .ok rest else skipHeaders rest
termination_by input.length
decreasing_by exact readLine_shorter ‹readLine input = .text _ _›

/-- The body with its length, and what follows. -/
def readBody (contentLength : Nat) (input : List UInt8) : Except ReadError (String × List UInt8) :=
  if isizeMax < contentLength then .error .capacityOverflow
  else if input.length < contentLength then .error .bodyEof
  else
    match fromUtf8? (input.take contentLength) with
    | none => .error .bodyNotUtf8
    | some body => .ok (body, input.drop contentLength)

/-- The rest of a frame after the line with its length. -/
def readFrame (contentLength : Nat) (input : List UInt8) :
    Except ReadError (Option (String × List UInt8)) := do
  let rest ← skipHeaders input
  let (body, rest) ← readBody contentLength rest
  return some (body, rest)

def readFramedOrJsonLine (input : List UInt8) :
    Except ReadError (Option (String × List UInt8)) :=
  match _ : readLine input with
  | .notUtf8 => .error .lineNotUtf8
  | .eof => .ok none
  | .text firstLine rest =>
    let trimmed := Text.trim firstLine
    if Text.isBlank firstLine then readFramedOrJsonLine rest
    else if startsWithBrace trimmed then .ok (some (trimmed, rest))
    else
      match contentLength? trimmed with
      -- an unknown line is skipped
      | none => readFramedOrJsonLine rest
      | some contentLength => readFrame contentLength rest
termination_by input.length
decreasing_by
  · exact readLine_shorter ‹readLine input = .text _ _›
  · exact readLine_shorter ‹readLine input = .text _ _›

/-- What `write_response` writes for a serialized response. -/
def framed (body : String) : String :=
  "Content-Length: " ++ (asBytes body).length.repr ++ "\r\n\r\n" ++ body

/-! ## The steps of the reader -/

theorem trim_newline (line : String) : Text.trim (line ++ "\n") = Text.trim line := by
  have hnewline : "\n" = String.singleton '\n' := by decide
  rw [hnewline]
  exact Text.trim_append_singleton line (by decide)

theorem skipHeaders_text {input rest : List UInt8} {headerLine : String}
    (h : readLine input = .text headerLine rest) :
    skipHeaders input =
      if headerLine = "\r\n" ∨ headerLine = "\n" then .ok rest else skipHeaders rest := by
  rw [skipHeaders]
  split
  case h_1 h' => exact nomatch h.symm.trans h'
  case h_2 h' => exact nomatch h.symm.trans h'
  case h_3 h' =>
    cases h.symm.trans h'
    rfl

theorem read_text {input rest : List UInt8} {firstLine : String}
    (h : readLine input = .text firstLine rest) :
    readFramedOrJsonLine input =
      if Text.isBlank firstLine then readFramedOrJsonLine rest
      else if startsWithBrace (Text.trim firstLine) then
        .ok (some (Text.trim firstLine, rest))
      else
        match contentLength? (Text.trim firstLine) with
        | none => readFramedOrJsonLine rest
        | some contentLength => readFrame contentLength rest := by
  rw [readFramedOrJsonLine]
  split
  case h_1 h' => exact nomatch h.symm.trans h'
  case h_2 h' => exact nomatch h.symm.trans h'
  case h_3 h' =>
    cases h.symm.trans h'
    rfl

theorem read_nil : readFramedOrJsonLine [] = .ok none := by
  rw [readFramedOrJsonLine]
  split
  case h_1 h => exact nomatch h
  case h_2 => rfl
  case h_3 h => exact nomatch h

/-- A blank line is skipped. -/
theorem read_blank {input rest : List UInt8} {line : String}
    (h : readLine input = .text line rest) (hblank : Text.isBlank line = true) :
    readFramedOrJsonLine input = readFramedOrJsonLine rest := by
  rw [read_text h, if_pos hblank]

/-- A text that starts with a letter that is no white space is not blank. -/
theorem isBlank_of_head? {line : String} {c : Char} (h : (Text.trim line).toList.head? = some c) :
    Text.isBlank line = false := by
  apply decide_eq_false
  intro hempty
  rw [hempty] at h
  exact nomatch h

/-- A line of JSON is a message. -/
theorem read_jsonLine {input rest : List UInt8} {line : String}
    (h : readLine input = .text line rest) (hbrace : startsWithBrace (Text.trim line) = true) :
    readFramedOrJsonLine input = .ok (some (Text.trim line, rest)) := by
  rw [read_text h, isBlank_of_head? (of_decide_eq_true hbrace), if_neg Bool.false_ne_true,
    if_pos hbrace]

/-! ## Frames -/

/-- A line that gives a length is neither blank nor a line of JSON. -/
theorem head?_of_contentLength? {trimmed : String} {n : Nat} (h : contentLength? trimmed = some n) :
    ∃ c, trimmed.toList.head? = some c ∧ c.toLower = 'c' := by
  unfold contentLength? Text.splitOnce at h
  split at h
  case h_2 => cases h
  case h_1 name value hsplit =>
    obtain ⟨-, hparts⟩ := Option.ite_none_right_eq_some.mp hsplit
    cases hparts
    obtain ⟨hname, -⟩ := Option.ite_none_right_eq_some.mp h
    have hlower : (trimmed.toList.takeWhile (· ≠ ':')).map Char.toLower =
        "content-length".toList := by
      have := congrArg String.toList (of_decide_eq_true hname)
      simpa [Text.toAsciiLowercase] using this
    cases hchars : trimmed.toList with
    | nil => simp [hchars] at hlower
    | cons c cs =>
      refine ⟨c, rfl, ?_⟩
      rw [hchars, List.takeWhile_cons] at hlower
      split at hlower
      · exact (List.cons.inj hlower).1
      · exact nomatch hlower

/-- A frame that is delimited as it should be.  The lines are without their
newlines. -/
structure Frame where
  lengthLine : String
  headers : List String
  /-- the empty line has a carriage return -/
  crlf : Bool
  body : List UInt8
  length_eq : contentLength? (Text.trim lengthLine) = some body.length
  length_le : body.length ≤ isizeMax
  oneLine : ∀ line ∈ lengthLine :: headers, '\n' ∉ line.toList
  headers_ne : ∀ header ∈ headers, header ≠ "" ∧ header ≠ "\r"

def lineBytes (line : String) : List UInt8 := asBytes line ++ [newline]

def Frame.emptyLine (frame : Frame) : String := if frame.crlf then "\r" else ""

def Frame.bytes (frame : Frame) : List UInt8 :=
  lineBytes frame.lengthLine ++ (frame.headers.flatMap lineBytes ++
    (lineBytes frame.emptyLine ++ frame.body))

theorem lineBytes_eq (line : String) : lineBytes line = asBytes (line ++ "\n") := by
  rw [asBytes_append]
  rfl

theorem readLine_lineBytes {line : String} (h : '\n' ∉ line.toList) (rest : List UInt8) :
    readLine (lineBytes line ++ rest) = .text (line ++ "\n") rest := by
  unfold lineBytes
  rw [List.append_assoc]
  exact readLine_line h rest

theorem skipHeaders_headers {headers : List String} (hline : ∀ header ∈ headers, '\n' ∉ header.toList)
    (hne : ∀ header ∈ headers, header ≠ "" ∧ header ≠ "\r") (rest : List UInt8) :
    skipHeaders (headers.flatMap lineBytes ++ rest) = skipHeaders rest := by
  induction headers with
  | nil => rfl
  | cons header headers ih =>
    rw [List.forall_mem_cons] at hline hne
    have hends : ¬(header ++ "\n" = "\r\n" ∨ header ++ "\n" = "\n") := by
      show ¬(header ++ "\n" = "\r" ++ "\n" ∨ header ++ "\n" = "" ++ "\n")
      rw [String.append_left_inj, String.append_left_inj, not_or]
      exact ⟨hne.1.2, hne.1.1⟩
    rw [List.flatMap_cons, List.append_assoc, skipHeaders_text (readLine_lineBytes hline.1 _),
      if_neg hends, ih hline.2 hne.2]

theorem Frame.skipHeaders_eq (frame : Frame) (rest : List UInt8) :
    skipHeaders (frame.headers.flatMap lineBytes ++ (lineBytes frame.emptyLine ++ rest)) =
      .ok rest := by
  have hlines := (List.forall_mem_cons.mp frame.oneLine).2
  have hempty : '\n' ∉ frame.emptyLine.toList := by
    unfold Frame.emptyLine
    split <;> decide
  rw [skipHeaders_headers hlines frame.headers_ne, skipHeaders_text (readLine_lineBytes hempty _),
    if_pos]
  unfold Frame.emptyLine
  split
  · exact .inl rfl
  · exact .inr rfl

theorem readBody_append {body : List UInt8} (hle : body.length ≤ isizeMax) (rest : List UInt8) :
    readBody body.length (body ++ rest) =
      match fromUtf8? body with
      | none => .error .bodyNotUtf8
      | some text => .ok (text, rest) := by
  unfold readBody
  rw [if_neg (by omega), if_neg (by simp), List.take_left, List.drop_left]

/-- A frame is read as its body, or its body is no text. -/
theorem read_frame (frame : Frame) (rest : List UInt8) :
    readFramedOrJsonLine (frame.bytes ++ rest) =
      match fromUtf8? frame.body with
      | none => .error .bodyNotUtf8
      | some text => .ok (some (text, rest)) := by
  have hline := readLine_lineBytes (List.forall_mem_cons.mp frame.oneLine).1
    (frame.headers.flatMap lineBytes ++ (lineBytes frame.emptyLine ++ (frame.body ++ rest)))
  have htrim := trim_newline frame.lengthLine
  obtain ⟨c, hhead, hc⟩ := head?_of_contentLength? frame.length_eq
  have hblank : Text.isBlank (frame.lengthLine ++ "\n") = false :=
    isBlank_of_head? (htrim.symm ▸ hhead)
  have hbrace : startsWithBrace (Text.trim frame.lengthLine) = false := by
    apply decide_eq_false
    rw [hhead]
    rintro ⟨⟩
    exact absurd hc (by decide)
  have hbytes : frame.bytes ++ rest = lineBytes frame.lengthLine ++
      (frame.headers.flatMap lineBytes ++
        (lineBytes frame.emptyLine ++ (frame.body ++ rest))) := by
    simp [Frame.bytes]
  rw [hbytes, read_text hline, hblank, if_neg Bool.false_ne_true, htrim, hbrace,
    if_neg Bool.false_ne_true, frame.length_eq]
  show readFrame frame.body.length _ = _
  unfold readFrame
  rw [frame.skipHeaders_eq]
  show (readBody frame.body.length (frame.body ++ rest) >>= _) = _
  rw [readBody_append frame.length_le]
  cases fromUtf8? frame.body <;> rfl

/-! ## What is written is read -/

theorem trim_lengthLine (n : Nat) :
    Text.trim ("Content-Length: " ++ n.repr ++ "\r") = "Content-Length: " ++ n.repr := by
  have hreturn : "\r" = String.singleton '\r' := by decide
  rw [hreturn, Text.trim_append_singleton _ (by decide)]
  apply Text.trim_eq_self_of_ends
  · intro c hc
    obtain rfl : 'C' = c := by simpa using hc
    decide
  · intro c hc
    have hdigits : n.repr.toList ≠ [] := by
      rw [Nat.toList_repr]
      exact Nat.toDigits_ne_nil
    rw [String.toList_append, List.getLast?_append_of_ne_nil _ hdigits] at hc
    exact Text.isWhitespace_of_isDigit (Text.isDigit_of_mem_repr (List.mem_of_mem_getLast? hc))

theorem contentLength?_repr {n : Nat} (h : n ≤ isizeMax) :
    contentLength? ("Content-Length: " ++ n.repr) = some n := by
  have hparts : "Content-Length: " ++ n.repr =
      "Content-Length" ++ String.singleton ':' ++ (String.singleton ' ' ++ n.repr) := by
    have hname : "Content-Length: " =
        "Content-Length" ++ String.singleton ':' ++ String.singleton ' ' := by decide
    rw [← String.append_assoc, ← hname]
  have hlt : n < 2 ^ 64 := by
    unfold isizeMax at h
    omega
  unfold contentLength?
  rw [hparts, Text.splitOnce_append (by decide)]
  dsimp only
  rw [if_pos (by decide), Text.trim_singleton_append _ (by decide), Text.trim_repr,
    Text.parseUsize_repr hlt]

/-- A body of the largest size that a vector has, or of a smaller one, in the
frame of `write_response`. -/
def Frame.ofBytes (body : List UInt8) (h : body.length ≤ isizeMax) : Frame where
  lengthLine := "Content-Length: " ++ body.length.repr ++ "\r"
  headers := []
  crlf := true
  body := body
  length_eq := by rw [trim_lengthLine, contentLength?_repr h]
  length_le := h
  oneLine := by
    intro line hline
    obtain rfl := List.mem_singleton.mp hline
    have hdigits : '\n' ∉ body.length.repr.toList :=
      fun hmem => absurd (Text.isDigit_of_mem_repr hmem) (by decide)
    rw [String.toList_append, String.toList_append, List.mem_append, List.mem_append, not_or, not_or]
    exact ⟨⟨by decide, hdigits⟩, by decide⟩
  headers_ne := nofun

theorem Frame.bytes_ofBytes (body : List UInt8) (h : body.length ≤ isizeMax) :
    (Frame.ofBytes body h).bytes =
      asBytes ("Content-Length: " ++ body.length.repr ++ "\r\n\r\n") ++ body := by
  have hlines : "Content-Length: " ++ body.length.repr ++ "\r\n\r\n" =
      "Content-Length: " ++ body.length.repr ++ "\r" ++ "\n" ++ ("\r" ++ "\n") := by
    have hends : "\r\n\r\n" = "\r" ++ ("\n" ++ ("\r" ++ "\n")) := by decide
    rw [hends, ← String.append_assoc, ← String.append_assoc]
  rw [hlines, asBytes_append, ← lineBytes_eq, ← lineBytes_eq, List.append_assoc]
  rfl

/-- What is written on the stream: a frame of `write_response`, a line of
JSON, or a blank line.  No string has more than `isize::MAX` bytes. -/
inductive Written where
  | frame (body : String) (length_le : (asBytes body).length ≤ isizeMax)
  | jsonLine (text : String) (trimmed : Text.trim text = text)
      (brace : startsWithBrace text = true) (oneLine : '\n' ∉ text.toList)
  | blank (text : String) (isBlank : Text.isBlank text = true) (oneLine : '\n' ∉ text.toList)

def Written.bytes : Written → List UInt8
  | .frame body _ => asBytes (framed body)
  | .jsonLine text _ _ _ | .blank text _ _ => lineBytes text

def Written.message? : Written → Option String
  | .frame body _ => some body
  | .jsonLine text _ _ _ => some text
  | .blank _ _ _ => none

/-- The results of so many calls of `read_framed_or_json_line`. -/
def readTimes : Nat → List UInt8 → Except ReadError (List (Option String))
  | 0, _ => .ok []
  | n + 1, input => do
    match ← readFramedOrJsonLine input with
    | none => return none :: (← readTimes n [])
    | some (body, rest) => return some body :: (← readTimes n rest)

/-- A message that is written comes out, and the stream goes on after it. -/
theorem read_written {item : Written} {body : String} (h : item.message? = some body)
    (rest : List UInt8) :
    readFramedOrJsonLine (item.bytes ++ rest) = .ok (some (body, rest)) := by
  cases item with
  | frame text hle =>
    cases h
    have hframed : asBytes (framed body) = (Frame.ofBytes (asBytes body) hle).bytes := by
      rw [Frame.bytes_ofBytes]
      exact asBytes_append _ body
    have hbody : (Frame.ofBytes (asBytes body) hle).body = asBytes body := rfl
    have hread := read_frame (Frame.ofBytes (asBytes body) hle) rest
    rw [hbody, fromUtf8?_asBytes] at hread
    show readFramedOrJsonLine (asBytes (framed body) ++ rest) = _
    rw [hframed, hread]
  | jsonLine text htrim hbrace honeLine =>
    cases h
    have hline := readLine_lineBytes honeLine rest
    have hsame : Text.trim (body ++ "\n") = body := (trim_newline body).trans htrim
    have hread := read_jsonLine hline (by rw [hsame, hbrace])
    rwa [hsame] at hread
  | blank text hblank honeLine => cases h

theorem reads_written (items : List Written) :
    readTimes ((items.filterMap Written.message?).length + 1) (items.flatMap Written.bytes) =
      .ok ((items.filterMap Written.message?).map some ++ [none]) := by
  induction items with
  | nil =>
    show (readFramedOrJsonLine [] >>= _) = _
    rw [read_nil]
    rfl
  | cons item items ih =>
    rw [List.flatMap_cons]
    cases hmessage : item.message? with
    | some body =>
      rw [List.filterMap_cons_some hmessage, List.length_cons, readTimes,
        read_written hmessage]
      show (readTimes _ _ >>= _) = _
      rw [ih]
      rfl
    | none =>
      cases item with
      | frame | jsonLine => cases hmessage
      | blank text hblank honeLine =>
        have hline := readLine_lineBytes honeLine (items.flatMap Written.bytes)
        have hblank : Text.isBlank (text ++ "\n") = true := by
          rw [Text.isBlank, trim_newline]
          exact hblank
        have hskip := read_blank hline hblank
        rw [List.filterMap_cons_none hmessage, ← ih, readTimes, readTimes]
        show (readFramedOrJsonLine (lineBytes text ++ _) >>= _) = _
        rw [hskip]

/-! ## The loop -/

/-- What ends the loop. -/
inductive Exit where
  | eof
  | failed (e : ReadError)
  | handlerClosed
  deriving DecidableEq

theorem skipHeaders_shorter {input rest : List UInt8} (h : skipHeaders input = .ok rest) :
    rest.length < input.length := by
  fun_induction skipHeaders input with
  | case1 | case2 => cases h
  | case3 input headerLine rest' hline hempty =>
    cases h
    exact readLine_shorter hline
  | case4 input headerLine rest' hline hempty ih =>
    exact (ih h).trans (readLine_shorter hline)

theorem readBody_shorter {n : Nat} {input rest : List UInt8} {body : String}
    (h : readBody n input = .ok (body, rest)) : rest.length ≤ input.length := by
  unfold readBody at h
  split at h
  · cases h
  · split at h
    · cases h
    · split at h
      · cases h
      · cases h
        exact (List.drop_suffix n input).length_le

theorem readFrame_shorter {n : Nat} {input rest : List UInt8} {body : String}
    (h : readFrame n input = .ok (some (body, rest))) : rest.length < input.length := by
  unfold readFrame at h
  cases hskip : skipHeaders input with
  | error e =>
    rw [hskip] at h
    cases h
  | ok afterHeaders =>
    rw [hskip] at h
    change (readBody n afterHeaders >>= _) = _ at h
    cases hbody : readBody n afterHeaders with
    | error e =>
      rw [hbody] at h
      cases h
    | ok found =>
      rw [hbody] at h
      cases h
      exact (readBody_shorter hbody).trans_lt (skipHeaders_shorter hskip)

theorem read_shorter {input rest : List UInt8} {body : String}
    (h : readFramedOrJsonLine input = .ok (some (body, rest))) : rest.length < input.length := by
  fun_induction readFramedOrJsonLine input with
  | case1 | case2 => cases h
  | case3 input firstLine rest' hline hblank ih =>
    exact (ih h).trans (readLine_shorter hline)
  | case4 input firstLine rest' hline trimmed hblank hbrace =>
    injection h with h
    injection h with h
    injection h with _ h
    exact h ▸ readLine_shorter hline
  | case5 input firstLine rest' hline trimmed hblank hbrace hnone ih =>
    exact (ih h).trans (readLine_shorter hline)
  | case6 input firstLine rest' hline trimmed hblank hbrace n hn =>
    exact (readFrame_shorter h).trans (readLine_shorter hline)

/-- `run_blocking`.  `isOpen` says whether the handler still takes a message
after the ones that it got. -/
def runBlocking {Msg : Type} (fromStr : String → Option Msg) (isOpen : List Msg → Bool)
    (delivered : List Msg) (input : List UInt8) : List Msg × Exit :=
  match _ : readFramedOrJsonLine input with
  | .error e => (delivered, .failed e)
  | .ok none => (delivered, .eof)
  | .ok (some (raw, rest)) =>
    match fromStr raw with
    -- a body that is no message is logged
    | none => runBlocking fromStr isOpen delivered rest
    | some msg =>
      if isOpen delivered then runBlocking fromStr isOpen (delivered ++ [msg]) rest
      else (delivered, .handlerClosed)
termination_by input.length
decreasing_by
  · exact read_shorter ‹readFramedOrJsonLine input = _›
  · exact read_shorter ‹readFramedOrJsonLine input = _›

section Loop

variable {Msg : Type} {fromStr : String → Option Msg} {isOpen : List Msg → Bool}

theorem runBlocking_error {input : List UInt8} {e : ReadError}
    (h : readFramedOrJsonLine input = .error e) (delivered : List Msg) :
    runBlocking fromStr isOpen delivered input = (delivered, .failed e) := by
  rw [runBlocking]
  split
  case h_1 h' =>
    cases h.symm.trans h'
    rfl
  case h_2 h' => exact nomatch h.symm.trans h'
  case h_3 h' => exact nomatch h.symm.trans h'

theorem runBlocking_nil (delivered : List Msg) :
    runBlocking fromStr isOpen delivered [] = (delivered, .eof) := by
  rw [runBlocking]
  split
  case h_1 h' => exact nomatch read_nil.symm.trans h'
  case h_2 => rfl
  case h_3 h' => exact nomatch read_nil.symm.trans h'

/-- A handler that stays gets the message that is read, if it is one. -/
theorem runBlocking_some {input rest : List UInt8} {raw : String}
    (h : readFramedOrJsonLine input = .ok (some (raw, rest))) (delivered : List Msg) :
    runBlocking fromStr (fun _ => true) delivered input =
      runBlocking fromStr (fun _ => true) (delivered ++ (fromStr raw).toList) rest := by
  rw [runBlocking]
  split
  case h_1 h' => exact nomatch h.symm.trans h'
  case h_2 h' => exact nomatch h.symm.trans h'
  case h_3 h' =>
    cases h.symm.trans h'
    cases fromStr raw with
    | none => simp
    | some msg => rfl

/-- The message that the frame carries, if it carries one. -/
def Frame.message? (fromStr : String → Option Msg) (frame : Frame) : Option Msg :=
  (fromUtf8? frame.body).bind fromStr

def Frame.isUtf8 (frame : Frame) : Bool := (fromUtf8? frame.body).isSome

/-- The loop delivers the messages up to the first body that is no text. -/
theorem runBlocking_frames (frames : List Frame) (delivered : List Msg) :
    (runBlocking fromStr (fun _ => true) delivered (frames.flatMap Frame.bytes)).1 =
      delivered ++ (frames.takeWhile Frame.isUtf8).filterMap (Frame.message? fromStr) := by
  induction frames generalizing delivered with
  | nil =>
    rw [List.flatMap_nil, runBlocking_nil]
    simp
  | cons frame frames ih =>
    have hread := read_frame frame (frames.flatMap Frame.bytes)
    rw [List.flatMap_cons, List.takeWhile_cons]
    cases htext : fromUtf8? frame.body with
    | none =>
      rw [htext] at hread
      rw [runBlocking_error hread, Frame.isUtf8, htext]
      simp
    | some text =>
      rw [htext] at hread
      have hmessage : frame.message? fromStr = fromStr text := by
        rw [Frame.message?, htext, Option.bind_some]
      rw [runBlocking_some hread, ih, Frame.isUtf8, htext, Option.isSome_some, if_pos rfl,
        List.filterMap_cons, hmessage]
      cases fromStr text <;> simp

/-- Up to the first item that is no `p`, those that count are all that count
exactly where none counts after it. -/
theorem filterMap_takeWhile_eq_iff {α β : Type} {p : α → Bool} {f : α → Option β}
    (hf : ∀ a, p a = false → f a = none) (l : List α) :
    (l.takeWhile p).filterMap f = l.filterMap f ↔
      l.Pairwise fun before after => p before = false → f after = none := by
  induction l with
  | nil => simp
  | cons a l ih =>
    rw [List.pairwise_cons, List.takeWhile_cons]
    have hcons : ∀ l, (a :: l).filterMap f = (f a).toList ++ l.filterMap f := by
      intro l
      rw [List.filterMap_cons]
      cases f a <;> rfl
    by_cases hp : p a = true
    · rw [if_pos hp, hcons, hcons, List.append_cancel_left_eq, ih]
      exact (and_iff_right fun after _ hnot => nomatch hp.symm.trans hnot).symm
    · have hnot : p a = false := Bool.eq_false_iff.mpr hp
      rw [if_neg hp, hcons, hf a hnot, Option.toList_none, List.nil_append, List.filterMap_nil,
        eq_comm, List.filterMap_eq_nil_iff]
      constructor
      · intro hall
        refine ⟨fun after hafter _ => hall after hafter, ?_⟩
        exact List.pairwise_of_forall_mem_list fun _ _ after hafter _ => hall after hafter
      · exact fun hall after hafter => hall.1 after hafter hnot

end Loop

/-- The handler stays.  It gets every message exactly where no message comes
after a body that is not UTF-8. -/
theorem delivered_iff {Msg : Type} (fromStr : String → Option Msg) (frames : List Frame) :
    (runBlocking fromStr (fun _ => true) [] (frames.flatMap Frame.bytes)).1 =
        frames.filterMap (Frame.message? fromStr) ↔
      frames.Pairwise fun before after =>
        before.isUtf8 = false → after.message? fromStr = none := by
  rw [runBlocking_frames, List.nil_append]
  apply filterMap_takeWhile_eq_iff
  intro frame hnot
  have hnone : fromUtf8? frame.body = none :=
    Option.not_isSome_iff_eq_none.mp (Bool.eq_false_iff.mp hnot)
  rw [Frame.message?, hnone, Option.bind_none]

/-- A frame of one byte that is no text. -/
def strayByte : Frame := .ofBytes [0xff] (by decide)

def emptyObject : Frame := .ofBytes (asBytes "{}") (by decide)

theorem not_all_delivered :
    ¬∀ (Msg : Type) (fromStr : String → Option Msg) (frames : List Frame),
      (runBlocking fromStr (fun _ => true) [] (frames.flatMap Frame.bytes)).1 =
        frames.filterMap (Frame.message? fromStr) := by
  intro h
  have hall := h String some [strayByte, emptyObject]
  have hstray : strayByte.isUtf8 = false := by decide
  have hobject : emptyObject.message? some = some "{}" :=
    congrArg (Option.bind · some) (fromUtf8?_asBytes "{}")
  have hmem : "{}" ∈ [strayByte, emptyObject].filterMap (Frame.message? some) :=
    List.mem_filterMap.mpr ⟨emptyObject, by simp, hobject⟩
  rw [← hall, runBlocking_frames, List.takeWhile_cons, hstray, if_neg Bool.false_ne_true] at hmem
  exact nomatch hmem

end MagicLaw.Mcp
