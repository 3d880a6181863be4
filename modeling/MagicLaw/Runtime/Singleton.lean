import MagicLaw.Lib.Bytes
import MagicLaw.Lib.Owners
import MagicLaw.Lib.Paths

/-!
# One resident process for a directory

`acquire_singleton` of `daemon/singleton.rs`, and the modes of `main.rs` that
call it: a process opens the lock file beside its database, tries the lock,
writes its metadata, and keeps the file open as long as the mode runs.

Any number of processes start, run and end in any order, and every operation on
the file may fail.  The lock is advisory: only `try_lock_exclusive` looks at it,
and it is gone when the file is closed, which the end of a process does too.
Which file a path leads to from a working directory is a parameter.

* `one_instance`: no two processes run a mode on one lock file.
* `metadata_of_owner`: where the writes work, the file has the metadata of the
  process that runs, also after others have been refused.
-/

namespace MagicLaw.Runtime.Singleton

open Lib Lib.Program Lib.Machine Lib.Owners
open Lib.Bytes (asBytes)
open Lib.Paths (parent join)

/-! ## The place of the file -/

/-- The directory of the lock file. -/
def lockDir (dbPath : String) : String := ((parent dbPath).filter (· ≠ "")).getD "."

def lockPath (dbPath : String) : String := join (lockDir dbPath) "magiclaw.instance.lock"

/-! ## Calls -/

/-- The modes that a process stays resident in. -/
inductive Mode where
  | daemon | mcp
  deriving DecidableEq

def Mode.asStr : Mode → String
  | .daemon => "daemon"
  | .mcp => "mcp"

/-- How a process is started. -/
structure Launch where
  mode : Mode
  dbPath : String
  workingDir : String

variable {κ : Type}

inductive Call (κ : Type) where
  | createDirAll (dir : String)
  /-- `OpenOptions::open`, which creates the file and does not truncate it -/
  | openLock (pid : Nat) (place : κ)
  | tryLockExclusive (pid : Nat)
  | setLen (pid : Nat)
  /-- `writeln!` -/
  | write (pid : Nat) (line : String)
  | currentDir
  /-- the mode begins -/
  | serve (pid : Nat) (mode : Mode)
  /-- the file is dropped -/
  | close (pid : Nat)

def Call.Reply : Call κ → Type
  | .createDirAll _ | .openLock _ _ | .tryLockExclusive _ | .setLen _ | .write _ _ => Except String Unit
  | .currentDir => Except String String
  | .serve _ _ | .close _ => Unit

/-- What an operation meets: whether it fails, and how much a write that fails
has written. -/
structure Outcome where
  fault : Option String
  written : Nat
  currentDir : String

structure LockFile where
  text : List UInt8
  holder : Option Nat

/-- An open file. -/
structure Handle (κ : Type) where
  place : κ
  position : Nat

/-- The lock files, what each process has open, and the modes that run. -/
structure Host (κ : Type) where
  files : κ → Option LockFile
  handles : Nat → Option (Handle κ)
  serving : Nat → Option (κ × Mode)

/-- No process runs, and no file is there. -/
def Host.init : Host κ := ⟨fun _ => none, fun _ => none, fun _ => none⟩

/-- A write at a position. -/
def overwrite (text : List UInt8) (position : Nat) (letters : List UInt8) : List UInt8 :=
  (text ++ List.replicate (position - text.length) 0).take position ++ letters ++
    text.drop (position + letters.length)

section Handle

variable [DecidableEq κ]

/-- The file is closed, and with it the lock is gone. -/
def Host.close (h : Host κ) (pid : Nat) : Host κ :=
  match h.handles pid with
  | none => { h with serving := Function.update h.serving pid none }
  | some handle =>
    { files := Function.update h.files handle.place ((h.files handle.place).map fun file =>
        { file with holder := if file.holder = some pid then none else file.holder })
      handles := Function.update h.handles pid none
      serving := Function.update h.serving pid none }

/-- The text of the open file of the process, and its position. -/
def Host.put (h : Host κ) (pid : Nat) (handle : Handle κ) (text : List UInt8) : Host κ :=
  { h with
    files := Function.update h.files handle.place ((h.files handle.place).map fun file =>
      { file with text := text })
    handles := Function.update h.handles pid (some handle) }

/-- The letters go to the open file at its position, which moves. -/
def Host.append (h : Host κ) (pid : Nat) (handle : Handle κ) (letters : List UInt8) : Host κ :=
  h.put pid ⟨handle.place, handle.position + letters.length⟩
    (overwrite (((h.files handle.place).map LockFile.text).getD []) handle.position letters)

def handle (h : Host κ) (o : Outcome) : (c : Call κ) → c.Reply × Host κ
  | .createDirAll _ =>
    match o.fault with
    | some e => (.error e, h)
    | none => (.ok (), h)
  | .openLock pid place =>
    match o.fault with
    | some e => (.error e, h)
    | none => (.ok (), { h with
        files := Function.update h.files place (some ((h.files place).getD ⟨[], none⟩))
        handles := Function.update h.handles pid (some ⟨place, 0⟩) })
  | .tryLockExclusive pid =>
    match o.fault, h.handles pid with
    | some e, _ => (.error e, h)
    | none, none => (.error "Bad file descriptor", h)
    | none, some handle =>
      match h.files handle.place with
      | some ⟨text, none⟩ => (.ok (), { h with
          files := Function.update h.files handle.place (some ⟨text, some pid⟩) })
      | _ => (.error "Resource temporarily unavailable", h)
  | .setLen pid =>
    match o.fault, h.handles pid with
    | none, some handle => (.ok (), h.put pid handle [])
    | fault, _ => (.error (fault.getD "Bad file descriptor"), h)
  | .write pid line =>
    match h.handles pid with
    | none => (.error "Bad file descriptor", h)
    | some handle =>
      match o.fault with
      | none => (.ok (), h.append pid handle (asBytes line))
      | some e => (.error e, h.append pid handle ((asBytes line).take o.written))
  | .currentDir =>
    match o.fault with
    | some e => (.error e, h)
    | none => (.ok o.currentDir, h)
  | .serve pid mode =>
    ((), { h with
      serving := Function.update h.serving pid
        ((h.handles pid).map fun handle => (handle.place, mode)) })
  | .close pid => ((), h.close pid)

end Handle

/-! ## The process -/

abbrev Work (κ : Type) := Prog (Call.Reply (κ := κ))

def call (c : Call κ) : Work κ c.Reply := .perform c

/-- Where a path leads to from a working directory. -/
abbrev Places (κ : Type) := String → String → κ

variable (places : Places κ)

def Launch.place (launch : Launch) : κ := places launch.workingDir (lockPath launch.dbPath)

/-- What is written after the lock is there. -/
def writeMetadata (pid : Nat) (mode : Mode) : Work κ (Except String Unit) := do
  let _ : Except String Unit ← call (.setLen pid)
  let _ : Except String Unit ← call (.write pid s!"pid={pid}\n")
  let _ : Except String Unit ← call (.write pid s!"mode={mode.asStr}\n")
  match (← call .currentDir : Except String String) with
  | .error e => do
    -- the file is dropped on the way out
    call (.close pid)
    return .error e
  | .ok cwd => do
    let _ : Except String Unit ← call (.write pid s!"cwd={cwd}\n")
    return .ok ()

def acquireSingleton (pid : Nat) (launch : Launch) : Work κ (Except String Unit) := do
  match (← call (.createDirAll (lockDir launch.dbPath)) : Except String Unit) with
  | .error e => return .error e
  | .ok () =>
    match (← call (.openLock pid (launch.place places)) : Except String Unit) with
    | .error e => return .error e
    | .ok () =>
      match (← call (.tryLockExclusive pid) : Except String Unit) with
      | .error e => do
        call (.close pid)
        return .error s!"{launch.mode.asStr} mode refused: another magiclaw instance is already running (lock: {lockPath launch.dbPath}) ({e})"
      | .ok () => writeMetadata pid launch.mode

/-- The two resident modes of `main`.  The guard lives as long as the mode. -/
def resident (pid : Nat) (launch : Launch) : Work κ Unit := do
  match ← acquireSingleton places pid launch with
  | .error _ => return ()
  | .ok () => do
    call (.serve pid launch.mode)
    call (.close pid)

def plan [DecidableEq κ] : Plan Nat Launch Empty (Call.Reply (κ := κ)) (Host κ) Outcome where
  handle := handle
  body := resident places
  other := fun e _ => e.elim
  reset := fun pid h => h.close pid

/-! ## What a process counts on -/

/-- A call whose result the process does not look at. -/
def Call.Writes : Call κ → Prop
  | .setLen _ | .write _ _ => True
  | .createDirAll _ | .openLock _ _ | .tryLockExclusive _ | .currentDir | .serve _ _ | .close _ => False

/-- Every write works. -/
def WritesWork (allowed : Host κ → Call κ → Outcome → Prop) : Prop :=
  ∀ h c o, allowed h c o → c.Writes → o.fault = none

/-- The three lines. -/
def metadata (pid : Nat) (mode : Mode) (cwd : String) : List UInt8 :=
  asBytes s!"pid={pid}\n" ++ asBytes s!"mode={mode.asStr}\n" ++ asBytes s!"cwd={cwd}\n"

section Keep

variable (allowed : Host κ → Call κ → Outcome → Prop)

/-- The file of a mode that runs is locked by its process, and has its
metadata. -/
def Owned (h : Host κ) (pid : Nat) (place : κ) (mode : Mode) : Prop :=
  ∃ text, h.files place = some ⟨text, some pid⟩ ∧
    (WritesWork allowed → ∃ cwd, text = metadata pid mode cwd)

def AllOwned (h : Host κ) : Prop :=
  ∀ pid place mode, h.serving pid = some (place, mode) → Owned allowed h pid place mode

/-- The others leave alone what the process has open, and the files that it has
locked. -/
structure Relies (pid : Nat) (s t : Host κ) : Prop where
  handle : t.handles pid = s.handles pid
  serving : t.serving pid = s.serving pid
  held : ∀ place file, s.files place = some file → file.holder = some pid → t.files place = some file

def regime : Regime Nat (Call κ) (Host κ) Outcome where
  allowed := allowed
  rely := Relies
  always := AllOwned allowed

theorem regime_lawful : (regime allowed).Lawful where
  refl _ _ := ⟨rfl, rfl, fun _ _ h _ => h⟩
  trans _ _ _ _ hst htu := by
    refine ⟨htu.handle.trans hst.handle, htu.serving.trans hst.serving, fun place file hs hpid => ?_⟩
    exact htu.held place file (hst.held place file hs hpid) hpid

variable {allowed} {pid : Nat} {s t : Host κ}

/-- A step of a process on what is its own. -/
structure OnOwn (pid : Nat) (s t : Host κ) : Prop where
  handles : ∀ other, other ≠ pid → t.handles other = s.handles other
  serving : ∀ other, other ≠ pid → t.serving other = s.serving other
  files : ∀ place file, s.files place = some file → ∀ other, other ≠ pid →
    file.holder = some other → t.files place = some file

theorem OnOwn.keeps (h : OnOwn pid s t) (hs : AllOwned allowed s)
    (hown : ∀ place mode, t.serving pid = some (place, mode) → Owned allowed t pid place mode) :
    (regime allowed).Keeps pid s t := by
  constructor
  · intro other place mode hserving
    by_cases hother : other = pid
    · subst hother
      exact hown place mode hserving
    · rw [h.serving other hother] at hserving
      obtain ⟨text, hfile, htext⟩ := hs other place mode hserving
      exact ⟨text, h.files place _ hfile other hother rfl, htext⟩
  · intro other hother
    exact ⟨h.handles other hother, h.serving other hother,
      fun place file hfile => h.files place file hfile other hother⟩

/-- A step that neither begins a mode nor changes the file of one. -/
theorem OnOwn.keeps_quiet (h : OnOwn pid s t) (hs : AllOwned allowed s)
    (hserving : t.serving pid = s.serving pid)
    (hfiles : ∀ place mode, s.serving pid = some (place, mode) → t.files place = s.files place) :
    (regime allowed).Keeps pid s t := by
  refine h.keeps hs fun place mode hmode => ?_
  rw [hserving] at hmode
  obtain ⟨text, hfile, htext⟩ := hs pid place mode hmode
  exact ⟨text, (hfiles place mode hmode).trans hfile, htext⟩

theorem keeps_self (hs : AllOwned allowed s) : (regime allowed).Keeps pid s s :=
  OnOwn.keeps_quiet ⟨fun _ _ => rfl, fun _ _ => rfl, fun _ _ h _ _ _ => h⟩ hs rfl fun _ _ _ => rfl

variable [DecidableEq κ]

/-- One file is changed, which nobody else has locked. -/
theorem onOwn_update {files : κ → Option LockFile} {handles : Nat → Option (Handle κ)} {place : κ}
    {file : Option LockFile} (hhandles : ∀ other, other ≠ pid → handles other = s.handles other)
    (hfiles : files = Function.update s.files place file)
    (hfile : ∀ old, s.files place = some old → ∀ other, other ≠ pid → old.holder = some other →
      file = some old) : OnOwn pid s { s with files := files, handles := handles } := by
  refine ⟨hhandles, fun _ _ => rfl, fun place' old hold other hother hholder => ?_⟩
  subst hfiles
  show Function.update s.files place file place' = some old
  by_cases hplace : place' = place
  · subst hplace
    rw [Function.update_self]
    exact hfile old hold other hother hholder
  · rw [Function.update_of_ne hplace]
    exact hold

theorem keeps_close (hs : AllOwned allowed s) : (regime allowed).Keeps pid s (s.close pid) := by
  have hown : OnOwn pid s (s.close pid) := by
    unfold Host.close
    cases hhandle : s.handles pid with
    | none => exact ⟨fun _ _ => rfl, fun _ h => Function.update_of_ne h _ _, fun _ _ h _ _ _ => h⟩
    | some handle =>
      refine ⟨fun _ h => Function.update_of_ne h _ _, fun _ h => Function.update_of_ne h _ _, ?_⟩
      intro place file hfile other hother hholder
      show Function.update s.files handle.place _ place = some file
      by_cases hplace : place = handle.place
      · subst hplace
        rw [Function.update_self, hfile, Option.map_some, hholder, if_neg (by simpa using hother)]
        rw [← hholder]
      · rw [Function.update_of_ne hplace]
        exact hfile
  refine hown.keeps hs fun place mode hserving => ?_
  have hnone : (s.close pid).serving pid = none := by
    unfold Host.close
    cases s.handles pid with
    | none => exact Function.update_self _ _ _
    | some handle => exact Function.update_self _ _ _
  exact nomatch hnone.symm.trans hserving

end Keep

/-! ## The calls of a process -/

section Calls

variable {allowed : Host κ → Call κ → Outcome → Prop} {pid : Nat} {place : κ}

/-- The process has the file open, at its start. -/
def opened (pid : Nat) (place : κ) : Assert (regime allowed) pid where
  holds h := h.handles pid = some ⟨place, 0⟩
  stable _ _ hst h := hst.handle.trans h

/-- The process has locked the open file, and no mode runs on it. -/
def locked (pid : Nat) (place : κ) (P : Nat → List UInt8 → Prop) : Assert (regime allowed) pid where
  holds h := ∃ position text, h.handles pid = some ⟨place, position⟩ ∧
    h.files place = some ⟨text, some pid⟩ ∧ (∀ mode, h.serving pid ≠ some (place, mode)) ∧
    P position text
  stable s t hst := by
    rintro ⟨position, text, hhandle, hfile, hidle, hP⟩
    refine ⟨position, text, hst.handle.trans hhandle, hst.held place _ hfile rfl, ?_, hP⟩
    rw [hst.serving]
    exact hidle

/-- The letters are what the process has written, where the writes work. -/
def Written (allowed : Host κ → Call κ → Outcome → Prop) (letters : List UInt8) (position : Nat)
    (text : List UInt8) : Prop :=
  WritesWork allowed → position = letters.length ∧ text = letters

theorem overwrite_end (letters more : List UInt8) :
    overwrite letters letters.length more = letters ++ more := by
  unfold overwrite
  simp

variable [DecidableEq κ] {α : Type} {A : Assert (regime allowed) pid}
  {Q : α → Assert (regime allowed) pid}

/-- A call that does not touch what is modelled. -/
theorem triple_still {c : Call κ} {next : c.Reply → Work κ α}
    (hstill : ∀ s o, (handle s o c).2 = s) (hnext : ∀ r, Triple handle A (next r) Q) :
    Triple handle A (Prog.perform c >>= next) Q := by
  refine triple_call (B := fun _ => A) (fun s hA hs o _ => ?_) hnext
  rw [hstill]
  exact ⟨keeps_self hs, hA⟩

theorem triple_close {next : Unit → Work κ α}
    (hnext : Triple handle (.pure (regime allowed) pid True) (next ()) Q) :
    Triple handle A ((call (.close pid) : Work κ Unit) >>= next) Q :=
  triple_call (B := fun _ => .pure (regime allowed) pid True)
    (fun _ _ hs _ _ => ⟨keeps_close hs, trivial⟩) fun _ => hnext

/-- What opening the file yields. -/
def afterOpen (pid : Nat) (place : κ) : Except String Unit → Assert (regime allowed) pid
  | .ok () => opened pid place
  | .error _ => .pure (regime allowed) pid True

theorem triple_openLock {next : Except String Unit → Work κ α}
    (hnext : ∀ r, Triple handle (afterOpen pid place r) (next r) Q) :
    Triple handle A ((call (.openLock pid place) : Work κ (Except String Unit)) >>= next) Q := by
  refine triple_call (ρ := Call.Reply) (i := .openLock pid place)
    (B := fun r => afterOpen pid place r) (fun s _ hs o _ => ?_) hnext
  simp only [handle]
  cases o.fault with
  | some e => exact ⟨keeps_self hs, trivial⟩
  | none =>
    refine ⟨OnOwn.keeps_quiet ?_ hs rfl fun place' mode hserving => ?_, Function.update_self _ _ _⟩
    · refine onOwn_update (fun other h => Function.update_of_ne h _ _) rfl fun old hold _ _ _ => ?_
      rw [hold, Option.getD_some]
    · obtain ⟨text, hfile, -⟩ := hs pid place' mode hserving
      show Function.update s.files place _ place' = _
      by_cases hplace : place' = place
      · subst hplace
        rw [Function.update_self, hfile, Option.getD_some]
      · rw [Function.update_of_ne hplace]

/-- What trying the lock yields. -/
def afterLock (pid : Nat) (place : κ) : Except String Unit → Assert (regime allowed) pid
  | .ok () => locked pid place fun position _ => position = 0
  | .error _ => .pure (regime allowed) pid True

theorem triple_tryLockExclusive {next : Except String Unit → Work κ α}
    (hnext : ∀ r, Triple handle (afterLock pid place r) (next r) Q) :
    Triple handle (opened pid place)
      ((call (.tryLockExclusive pid) : Work κ (Except String Unit)) >>= next) Q := by
  refine triple_call (ρ := Call.Reply) (i := .tryLockExclusive pid)
    (B := fun r => afterLock pid place r) (fun s hA hs o _ => ?_) hnext
  have hhandle : s.handles pid = some ⟨place, 0⟩ := hA
  cases hfault : o.fault with
  | some e =>
    simp only [handle, hhandle, hfault]
    exact ⟨keeps_self hs, trivial⟩
  | none =>
    cases hfile : s.files place with
    | none =>
      simp only [handle, hhandle, hfault, hfile]
      exact ⟨keeps_self hs, trivial⟩
    | some file =>
      obtain ⟨text, holder⟩ := file
      cases holder with
      | some other =>
        simp only [handle, hhandle, hfault, hfile]
        exact ⟨keeps_self hs, trivial⟩
      | none =>
        simp only [handle, hhandle, hfault, hfile]
        -- nobody had the lock, so no mode runs on the file, also none of the process itself
        have hidle : ∀ mode, s.serving pid ≠ some (place, mode) := by
          intro mode hserving
          obtain ⟨old, hold, -⟩ := hs pid place mode hserving
          cases hfile.symm.trans hold
        refine ⟨OnOwn.keeps_quiet ?_ hs rfl fun place' mode hserving => ?_, ?_⟩
        · refine onOwn_update (fun _ _ => rfl) rfl fun old hold other _ hother => ?_
          cases hfile.symm.trans hold
          cases hother
        · refine Function.update_of_ne ?_ _ _
          rintro rfl
          exact hidle mode hserving
        · exact ⟨0, text, hhandle, Function.update_self _ _ _, hidle, rfl⟩

/-- The process changes the text of the file that it has locked. -/
theorem keeps_put {s : Host κ} {P P' : Nat → List UInt8 → Prop} {position' : Nat}
    {text' : List UInt8} (hs : AllOwned allowed s)
    (hA : (locked pid place P : Assert (regime allowed) pid).holds s) (hP : P' position' text') :
    (regime allowed).Keeps pid s (s.put pid ⟨place, position'⟩ text') ∧
      (locked pid place P' : Assert (regime allowed) pid).holds (s.put pid ⟨place, position'⟩ text') := by
  obtain ⟨position, text, hhandle, hfile, hidle, -⟩ := hA
  refine ⟨OnOwn.keeps_quiet ?_ hs rfl fun place' mode hserving => ?_, ?_⟩
  · refine onOwn_update (fun other h => Function.update_of_ne h _ _) rfl fun old hold other hne h => ?_
    cases hfile.symm.trans hold
    exact absurd (Option.some.inj h).symm hne
  · refine Function.update_of_ne ?_ _ _
    rintro rfl
    exact hidle mode hserving
  · refine ⟨position', text', Function.update_self _ _ _, ?_, hidle, hP⟩
    show Function.update s.files place _ place = _
    rw [Function.update_self, hfile]
    rfl

theorem triple_setLen {P : Nat → List UInt8 → Prop} {next : Except String Unit → Work κ α}
    (hP : ∀ position text, P position text → position = 0)
    (hnext : ∀ r, Triple handle (locked pid place (Written allowed [])) (next r) Q) :
    Triple handle (locked pid place P)
      ((call (.setLen pid) : Work κ (Except String Unit)) >>= next) Q := by
  refine triple_call (B := fun _ => locked pid place (Written allowed [])) (fun s hA hs o ho => ?_)
    hnext
  obtain ⟨position, text, hhandle, hfile, hidle, hposition⟩ := hA
  simp only [handle, hhandle]
  cases hfault : o.fault with
  | some e =>
    refine ⟨keeps_self hs, position, text, hhandle, hfile, hidle, fun hwork => ?_⟩
    exact nomatch (hwork _ _ _ ho trivial).symm.trans hfault
  | none =>
    exact keeps_put hs ⟨position, text, hhandle, hfile, hidle, hposition⟩
      fun _ => ⟨hP position text hposition, rfl⟩

theorem triple_write {letters : List UInt8} {line : String} {next : Except String Unit → Work κ α}
    (hnext : ∀ r, Triple handle (locked pid place (Written allowed (letters ++ asBytes line)))
      (next r) Q) :
    Triple handle (locked pid place (Written allowed letters))
      ((call (.write pid line) : Work κ (Except String Unit)) >>= next) Q := by
  refine triple_call
    (B := fun _ => locked pid place (Written allowed (letters ++ asBytes line)))
    (fun s hA hs o ho => ?_) hnext
  obtain ⟨position, text, hhandle, hfile, hidle, hwritten⟩ := hA
  have hA : (locked pid place (Written allowed letters) : Assert (regime allowed) pid).holds s :=
    ⟨position, text, hhandle, hfile, hidle, hwritten⟩
  simp only [handle, hhandle]
  cases hfault : o.fault with
  | some e =>
    refine keeps_put hs hA fun hwork => ?_
    exact nomatch (hwork _ _ _ ho trivial).symm.trans hfault
  | none =>
    refine keeps_put hs hA fun hwork => ?_
    obtain ⟨rfl, rfl⟩ := hwritten hwork
    rw [hfile]
    exact ⟨(List.length_append).symm, overwrite_end _ _⟩

theorem triple_serve {mode : Mode} {cwd : String} {next : Unit → Work κ α}
    (hnext : Triple handle (.pure (regime allowed) pid True) (next ()) Q) :
    Triple handle (locked pid place (Written allowed (metadata pid mode cwd)))
      ((call (.serve pid mode) : Work κ Unit) >>= next) Q := by
  refine triple_call (B := fun _ => .pure (regime allowed) pid True) (fun s hA hs o _ => ?_)
    fun _ => hnext
  obtain ⟨position, text, hhandle, hfile, hidle, hwritten⟩ := hA
  have hown : OnOwn pid s (handle s o (.serve pid mode)).2 :=
    ⟨fun _ _ => rfl, fun _ h => Function.update_of_ne h _ _, fun _ _ h _ _ _ => h⟩
  refine ⟨hown.keeps hs fun place' mode' hserving => ?_, trivial⟩
  have hstarted : (handle s o (.serve pid mode)).2.serving pid = some (place, mode) := by
    simp [handle, hhandle]
  obtain ⟨rfl, rfl⟩ := Prod.mk.inj (Option.some.inj (hstarted.symm.trans hserving))
  exact ⟨text, hfile, fun hwork => ⟨cwd, (hwritten hwork).2⟩⟩

end Calls

/-! ## Runs -/

section Runs

variable [DecidableEq κ] {places : Places κ} {allowed : Host κ → Call κ → Outcome → Prop}

/-- What the process has when `acquire_singleton` is over. -/
def acquired (pid : Nat) (place : κ) (mode : Mode) :
    Except String Unit → Assert (regime allowed) pid
  | .ok () =>
    locked pid place fun position text => ∃ cwd, Written allowed (metadata pid mode cwd) position text
  | .error _ => .pure (regime allowed) pid True

theorem triple_writeMetadata (pid : Nat) (place : κ) (mode : Mode) :
    Triple handle (locked pid place fun position _ => position = 0) (writeMetadata pid mode)
      (acquired pid place mode : Except String Unit → Assert (regime allowed) pid) := by
  refine triple_setLen (fun position text h => h) fun _ => ?_
  refine triple_write fun _ => triple_write fun _ => ?_
  refine triple_still (fun s o => ?_) fun (r : Except String String) => ?_
  · simp only [handle]
    split <;> rfl
  · cases r with
    | error e => exact triple_close (triple_pure fun _ _ => trivial)
    | ok cwd =>
      refine triple_write fun _ => triple_pure fun s h => ?_
      obtain ⟨position, text, hhandle, hfile, hidle, hwritten⟩ := h
      exact ⟨position, text, hhandle, hfile, hidle, cwd, hwritten⟩

theorem triple_acquireSingleton (pid : Nat) (launch : Launch) (A : Assert (regime allowed) pid) :
    Triple handle A (acquireSingleton places pid launch)
      (acquired pid (launch.place places) launch.mode) := by
  refine triple_still (fun s o => ?_) fun (r : Except String Unit) => ?_
  · simp only [handle]
    split <;> rfl
  cases r with
  | error e => exact triple_pure fun _ _ => trivial
  | ok u =>
    refine triple_openLock fun r => ?_
    cases r with
    | error e => exact triple_pure fun _ _ => trivial
    | ok u =>
      refine triple_tryLockExclusive fun r => ?_
      cases r with
      | error e => exact triple_close (triple_pure fun _ _ => trivial)
      | ok u => exact triple_writeMetadata pid _ launch.mode

theorem triple_resident (pid : Nat) (launch : Launch) (A : Assert (regime allowed) pid) :
    Triple handle A (resident places pid launch) fun _ => .pure (regime allowed) pid True := by
  refine triple_bind (regime_lawful allowed) (triple_acquireSingleton pid launch A) fun r => ?_
  cases r with
  | error e => exact triple_pure fun _ _ => trivial
  | ok u =>
    intro s h
    obtain ⟨position, text, hhandle, hfile, hidle, cwd, hwritten⟩ := h
    have hserve : Triple handle
        (locked pid (launch.place places) (Written allowed (metadata pid launch.mode cwd)))
        (do call (.serve pid launch.mode); call (.close pid)) fun _ => .pure (regime allowed) pid True :=
      triple_serve (triple_close (triple_pure fun _ _ => trivial))
    exact hserve s ⟨position, text, hhandle, hfile, hidle, hwritten⟩

theorem respectful_plan : (plan places).Respectful (regime allowed) where
  lawful := regime_lawful allowed
  body pid launch s := triple_resident pid launch (.pure _ _ True) s trivial
  other _ e := e.elim
  reset _ _ hs := keeps_close hs

/-- In every state of a run, every mode that runs has its file. -/
theorem owned_of_run {events : List (Event Nat Launch Empty Outcome)}
    {s : System Nat (Call.Reply (κ := κ)) (Host κ)}
    (hrun : run (System.step (plan places)) (System.init Host.init) events = some s)
    (hmeets : EveryStep (System.step (plan places)) (System.Meets allowed)
      (System.init Host.init) events) : AllOwned allowed s.shared :=
  run_always respectful_plan (fun _ _ _ h => absurd h (by simp [Host.init])) hrun hmeets

/-- Whatever fails and in whatever order processes start, run and end, two of
them that run a mode have two lock files. -/
theorem one_instance {events : List (Event Nat Launch Empty Outcome)}
    {s : System Nat (Call.Reply (κ := κ)) (Host κ)}
    (hrun : run (System.step (plan places)) (System.init Host.init) events = some s)
    {pid pid' : Nat} (hne : pid ≠ pid') {place place' : κ} {mode mode' : Mode}
    (h : s.shared.serving pid = some (place, mode))
    (h' : s.shared.serving pid' = some (place', mode')) : place ≠ place' := by
  have howned : AllOwned (fun _ _ _ => True) s.shared := owned_of_run hrun
    (everyStep_of_forall (fun s e => by cases e <;> simp [System.Meets]) _ _)
  rintro rfl
  obtain ⟨text, hfile, -⟩ := howned pid place mode h
  obtain ⟨text', hfile', -⟩ := howned pid' place mode' h'
  cases hfile.symm.trans hfile'
  exact hne rfl

/-- The writes of the processes work. -/
def WriteWorks (_ : Host κ) (c : Call κ) (o : Outcome) : Prop := c.Writes → o.fault = none

instance : (c : Call κ) → Decidable c.Writes
  | .setLen _ | .write _ _ => isTrue trivial
  | .createDirAll _ | .openLock _ _ | .tryLockExclusive _ | .currentDir | .serve _ _ | .close _ =>
    isFalse not_false

instance (h : Host κ) (c : Call κ) (o : Outcome) : Decidable (WriteWorks h c o) :=
  inferInstanceAs (Decidable (c.Writes → o.fault = none))

/-- As long as writes work, the lock file of a mode that runs says which process
it is and which mode: those that were refused have changed nothing. -/
theorem metadata_of_owner {events : List (Event Nat Launch Empty Outcome)}
    {s : System Nat (Call.Reply (κ := κ)) (Host κ)}
    (hrun : run (System.step (plan places)) (System.init Host.init) events = some s)
    (hmeets : EveryStep (System.step (plan places)) (System.Meets WriteWorks)
      (System.init Host.init) events) {pid : Nat} {place : κ} {mode : Mode}
    (h : s.shared.serving pid = some (place, mode)) :
    ∃ cwd, s.shared.files place = some ⟨metadata pid mode cwd, some pid⟩ := by
  obtain ⟨text, hfile, htext⟩ := owned_of_run hrun hmeets pid place mode h
  obtain ⟨cwd, rfl⟩ := htext fun _ _ _ h => h
  exact ⟨cwd, hfile⟩

end Runs

/-- Two processes in two directories, and a third one in the first of them. -/
def threeStarts : List (Event Nat Launch Empty Outcome) :=
  [.start 1 ⟨.daemon, "data/magiclaw.db", "/srv/a"⟩] ++ List.replicate 9 (.call 1 ⟨none, 0, "/srv/a"⟩) ++
    [.start 2 ⟨.mcp, "data/magiclaw.db", "/srv/b"⟩] ++
      List.replicate 9 (.call 2 ⟨none, 0, "/srv/b"⟩) ++
        [.start 3 ⟨.mcp, "data/magiclaw.db", "/srv/a"⟩] ++
          List.replicate 4 (.call 3 ⟨none, 0, "/srv/a"⟩)

theorem exists_threeStarts :
    ∃ s : System Nat (Call.Reply (κ := String)) (Host String),
      run (System.step (plan join)) (System.init Host.init) threeStarts = some s ∧
        s.shared.serving 1 = some ("/srv/a/data/magiclaw.instance.lock", .daemon) ∧
          s.shared.serving 2 = some ("/srv/b/data/magiclaw.instance.lock", .mcp) := by
  have hsome : (run (System.step (plan join)) (System.init Host.init) threeStarts).isSome = true := by
    decide +kernel
  have hserving : (run (System.step (plan join)) (System.init Host.init) threeStarts).map
      (fun s => (s.shared.serving 1, s.shared.serving 2)) =
        some (some ("/srv/a/data/magiclaw.instance.lock", .daemon),
          some ("/srv/b/data/magiclaw.instance.lock", .mcp)) := by
    decide +kernel
  obtain ⟨s, hrun⟩ := Option.isSome_iff_exists.mp hsome
  rw [hrun] at hserving
  exact ⟨s, hrun, Prod.mk.inj (Option.some.inj hserving)⟩

theorem one_instance_threeStarts :
    "/srv/a/data/magiclaw.instance.lock" ≠ "/srv/b/data/magiclaw.instance.lock" := by
  obtain ⟨s, hrun, h, h'⟩ := exists_threeStarts
  exact one_instance hrun (by decide) h h'

theorem metadata_threeStarts :
    ∃ (s : System Nat (Call.Reply (κ := String)) (Host String)) (cwd : String),
      run (System.step (plan join)) (System.init Host.init) threeStarts = some s ∧
        s.shared.files "/srv/a/data/magiclaw.instance.lock" = some ⟨metadata 1 .daemon cwd, some 1⟩ := by
  obtain ⟨s, hrun, h, -⟩ := exists_threeStarts
  obtain ⟨cwd, hfile⟩ := metadata_of_owner hrun (by decide +kernel) h
  exact ⟨s, cwd, hrun, hfile⟩

end MagicLaw.Runtime.Singleton
