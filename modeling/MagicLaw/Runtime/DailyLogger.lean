import Mathlib.Logic.Function.Basic
import MagicLaw.Lib.Bytes

/-!
# The daily log files

`DailyLogger` of `infrastructure/daily_logger.rs`.  A call looks at the clock
twice: for the time in its line, and in `get_file` for the date of the file.
The logger keeps the file of the last date open, and what it cannot open or
write is lost without an error.

* `files_after`: after any calls each file has what was logged on its date, in
  the order of the calls and in no other file, whatever fails and whatever way
  the clock goes.

The text of a line is what the four calls format; the file of a date is named
after it.
-/

namespace MagicLaw.Runtime.Logging

open Lib.Bytes (asBytes)

/-! ## Lines -/

/-- What is logged. -/
inductive Entry where
  | tokenRefresh (peerId : String) (oldAgeSecs : UInt64) (source : String)
  | sendFailure (peerId : String) (errorCode : Int32) (errorMsg : String)
  | sessionExpired (sessionRetries maxRetries : UInt32)
  | probeError (error : String)

/-- The line, with the time that is read for it. -/
def Entry.line (ts : String) : Entry → String
  | .tokenRefresh peerId oldAgeSecs source =>
    s!"[{ts}] TOKEN_REFRESH peer_id={peerId} old_age_secs={oldAgeSecs} source={source}\n"
  | .sendFailure peerId errorCode errorMsg =>
    s!"[{ts}] SEND_FAILURE peer_id={peerId} errcode={errorCode} errmsg={errorMsg}\n"
  | .sessionExpired sessionRetries maxRetries =>
    s!"[{ts}] SESSION_EXPIRED retries={sessionRetries}/{maxRetries}\n"
  | .probeError error => s!"[{ts}] PROBE_ERROR error={error}\n"

/-! ## The logger -/

structure DailyLogger where
  currentDate : String
  /-- the name of the open file -/
  file : Option String

/-- The logger, and the directory of the files. -/
structure World where
  logger : DailyLogger
  files : String → List UInt8

/-- A call, with the two readings of the clock, whether the file can be opened,
and how much is written when `write_all` fails. -/
structure Event where
  entry : Entry
  ts : String
  today : String
  opens : Bool
  writes : Option Nat

def logName (date : String) : String := s!"magiclaw-{date}.log"

/-- `DailyLogger::new` -/
def DailyLogger.new (today : String) : DailyLogger := ⟨today, none⟩

/-- The file is closed when its date is over. -/
def DailyLogger.rotate (logger : DailyLogger) (today : String) : DailyLogger :=
  if today ≠ logger.currentDate then ⟨today, none⟩ else logger

/-- `get_file`, where `none` is its error. -/
def DailyLogger.getFile (logger : DailyLogger) (today : String) (opens : Bool) :
    Option String × DailyLogger :=
  match (logger.rotate today).file with
  | some name => (some name, logger.rotate today)
  | none =>
    if opens then (some (logName today), { logger.rotate today with file := some (logName today) })
    else (none, logger.rotate today)

/-- What `write_all` brings to the file. -/
def Event.letters (e : Event) : List UInt8 :=
  match e.writes with
  | none => asBytes (e.entry.line e.ts)
  | some n => (asBytes (e.entry.line e.ts)).take n

def World.log (w : World) (e : Event) : World :=
  match w.logger.getFile e.today e.opens with
  | (some name, logger) => ⟨logger, Function.update w.files name (w.files name ++ e.letters)⟩
  | (none, logger) => ⟨logger, w.files⟩

/-! ## What is in the files -/

/-- The open file is that of the current date. -/
def Current (logger : DailyLogger) : Prop := ∀ name ∈ logger.file, name = logName logger.currentDate

theorem current_new (today : String) : Current (DailyLogger.new today) := nofun

theorem current_rotate {logger : DailyLogger} (h : Current logger) (today : String) :
    Current (logger.rotate today) ∧ (logger.rotate today).currentDate = today := by
  unfold DailyLogger.rotate
  by_cases htoday : today = logger.currentDate
  · rw [if_neg (not_not.mpr htoday)]
    exact ⟨h, htoday.symm⟩
  · rw [if_pos htoday]
    exact ⟨nofun, rfl⟩

/-- `get_file` yields the file of today, or it could not be opened. -/
theorem getFile_cases {logger : DailyLogger} (h : Current logger) (today : String) (opens : Bool) :
    Current (logger.getFile today opens).2 ∧
      ((logger.getFile today opens).1 = some (logName today) ∨
        (logger.getFile today opens).1 = none ∧ opens = false) := by
  obtain ⟨hcurrent, hdate⟩ := current_rotate h today
  unfold DailyLogger.getFile
  cases hfile : (logger.rotate today).file with
  | some name =>
    refine ⟨hcurrent, .inl (congrArg some ?_)⟩
    rw [← hdate]
    exact hcurrent name hfile
  | none =>
    cases opens with
    | false => exact ⟨hcurrent, .inr ⟨rfl, rfl⟩⟩
    | true =>
      refine ⟨?_, .inl rfl⟩
      rintro name ⟨⟩
      exact congrArg logName hdate.symm

/-- What a call has brought to its file: its line, or what could be written of
it. -/
structure Kept (e : Event) (letters : List UInt8) : Prop where
  start : letters <+: asBytes (e.entry.line e.ts)
  complete : e.opens = true → e.writes = none → letters = asBytes (e.entry.line e.ts)

theorem kept_letters (e : Event) : Kept e e.letters := by
  unfold Event.letters
  cases hwrites : e.writes with
  | none => exact ⟨List.prefix_rfl, fun _ _ => rfl⟩
  | some n => exact ⟨List.take_prefix _ _, fun _ h => nomatch h.symm.trans hwrites⟩

/-- One call. -/
theorem log_cases {w : World} (h : Current w.logger) (e : Event) :
    Current (w.log e).logger ∧ ∃ letters, Kept e letters ∧ ∀ name,
      (w.log e).files name = w.files name ++ if logName e.today = name then letters else [] := by
  obtain ⟨hcurrent, hfile⟩ := getFile_cases h e.today e.opens
  unfold World.log
  generalize w.logger.getFile e.today e.opens = result at hcurrent hfile
  obtain ⟨file, logger⟩ := result
  obtain rfl | ⟨rfl, hopens⟩ : file = _ ∨ file = none ∧ _ := hfile
  · refine ⟨hcurrent, e.letters, kept_letters e, fun name => ?_⟩
    dsimp only
    rw [Function.update_apply]
    by_cases hname : name = logName e.today
    · rw [if_pos hname, if_pos hname.symm, hname]
    · rw [if_neg hname, if_neg (Ne.symm hname), List.append_nil]
  · refine ⟨hcurrent, [], ⟨List.nil_prefix, fun h => ?_⟩, fun name => ?_⟩
    · exact nomatch h.symm.trans hopens
    · rw [ite_self, List.append_nil]

/-- What the calls have brought to one file. -/
def broughtTo (name : String) (calls : List (Event × List UInt8)) : List UInt8 :=
  calls.flatMap fun call => if logName call.1.today = name then call.2 else []

theorem exists_kept {w : World} (h : Current w.logger) (events : List Event) :
    ∃ kept, List.Forall₂ Kept events kept ∧ ∀ name,
      (events.foldl World.log w).files name = w.files name ++ broughtTo name (events.zip kept) := by
  induction events generalizing w with
  | nil => exact ⟨[], .nil, fun name => (List.append_nil _).symm⟩
  | cons e events ih =>
    obtain ⟨hcurrent, letters, hkept, hfiles⟩ := log_cases h e
    obtain ⟨kept, hall, hrest⟩ := ih hcurrent
    refine ⟨letters :: kept, .cons hkept hall, fun name => ?_⟩
    rw [List.foldl_cons, hrest, hfiles, List.append_assoc]
    rfl

/-- A logger that is started on any day and called in any way: after what it had
before, each file has what was logged on its date and could be written. -/
theorem files_after (started : String) (files : String → List UInt8) (events : List Event) :
    ∃ kept, List.Forall₂ Kept events kept ∧ ∀ name,
      (events.foldl World.log ⟨.new started, files⟩).files name =
        files name ++ broughtTo name (events.zip kept) :=
  exists_kept (current_new started) events

end MagicLaw.Runtime.Logging
