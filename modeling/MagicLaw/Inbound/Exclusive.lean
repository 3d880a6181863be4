import MagicLaw.Inbound.Gate
import MagicLaw.Lib.Tasks

/-!
# Racing claims of one message

Any number of calls of `process_inbound` with one message id run at once, and
their statements interleave.  A call that finds the id missing goes on to
`INSERT OR IGNORE`, does not look whether the insert was ignored, and returns
`Processed`.

So a call returns `Processed` exactly when its check found the id missing, and
there is one winner exactly when no call checks between the check of another
one and its insert (`claim_exclusive_iff`).
-/

namespace MagicLaw.Inbound

open Lib Lib.Program Lib.Machine Lib.Tasks
open MagicLaw.Routing (Message)

/-! ## The calls that run -/

abbrev Claims := Pool Call.Reply (Except String InboxResult) World

def Claims.step : Claims → Move Message Empty Outcome → Option Claims :=
  Pool.step handle processInbound Empty.elim

/-- The messages have this id, and the statements work. -/
def Plain (id : String) : Move Message Empty Outcome → Prop
  | .start msg => msg.id = id
  | .call _ o => o.fault = none
  | .other _ => True

/-- The call makes its check next. -/
def isChecking : Work (Except String InboxResult) → Bool
  | .call (.inboxExists _) _ => true
  | _ => false

/-- The call has found the id missing, and has not inserted it. -/
def isInserting : Work (Except String InboxResult) → Bool
  | .call .timestamp _ | .call (.inboxInsert _) _ => true
  | _ => false

/-- The call has found the id missing. -/
def hasClaimed : Work (Except String InboxResult) → Bool
  | .call .timestamp _ | .call (.inboxInsert _) _ | .call (.inboxMarkStatus _ _) _ => true
  | .ret (.ok .processed) => true
  | _ => false

/-- The call has returned. -/
def isOver : Work (Except String InboxResult) → Bool
  | .ret _ => true
  | _ => false

/-- The call has returned `Processed`. -/
def isProcessed : Work (Except String InboxResult) → Bool
  | .ret (.ok .processed) => true
  | _ => false

/-- A call that checks while the id is missing is alone: no other call has
found it missing and is still to insert it. -/
def ChecksAlone (id : String) (s : Claims) : Move Message Empty Outcome → Prop
  | .call n _ => ∀ p ∈ s.tasks[n]?, isChecking p = true → s.shared.recorded id = none →
    ∀ q ∈ s.tasks, isInserting q = false
  | _ => True

instance (id : String) (s : Claims) : (m : Move Message Empty Outcome) →
    Decidable (ChecksAlone id s m)
  | .call n _ => inferInstanceAs (Decidable (∀ p ∈ s.tasks[n]?, isChecking p = true →
      s.shared.recorded id = none → ∀ q ∈ s.tasks, isInserting q = false))
  | .start _ | .other _ => isTrue trivial

/-! ## The stages of a call -/

/-- How far a call has come. -/
inductive Stage where
  | checks (msg : Message)
  | readsClock (msg : Message)
  | inserts (msg : Message) (now : Int64)
  | marksProcessing (msg : Message)
  | marksProcessed (msg : Message)
  | returned (result : InboxResult)

/-- `process_inbound` from the insert on. -/
def insertInbound (msg : Message) (now : Int64) : Work (Except String InboxResult) := do
  match ← call (.inboxInsert (inboxEntry msg now)) with
  | .error e => pure (.error e)
  | .ok () => markInbound msg

def Stage.program : Stage → Work (Except String InboxResult)
  | .checks msg => processInbound msg
  | .readsClock msg => do insertInbound msg (← call .timestamp)
  | .inserts msg now => insertInbound msg now
  | .marksProcessing msg => markInbound msg
  | .marksProcessed msg => do
    match ← call (.inboxMarkStatus msg.id .processed) with
    | .error e => pure (.error e)
    | .ok () => pure (.ok .processed)
  | .returned result => .ret (.ok result)

/-- The next statement, which works. -/
def Stage.next (w : World) (o : Outcome) : Stage → Option (Stage × World)
  | .checks msg =>
    some (if (w.recorded msg.id).isSome then .returned .duplicate else .readsClock msg, w)
  | .readsClock msg => some (.inserts msg o.seconds, w)
  | .inserts msg now => some (.marksProcessing msg, w.insert (inboxEntry msg now))
  | .marksProcessing msg => some (.marksProcessed msg, w.markStatus msg.id .processing o.seconds)
  | .marksProcessed msg => some (.returned .processed, w.markStatus msg.id .processed o.seconds)
  | .returned _ => none

/-- `process_inbound` is its check, and the stages after it. -/
theorem processInbound_eq (msg : Message) :
    processInbound msg = .call (.inboxExists msg.id) fun r =>
      match (r : Except String Bool) with
      | .error e => .ret (.error e)
      | .ok true => .ret (.ok .duplicate)
      | .ok false => (Stage.readsClock msg).program := by
  refine congrArg (Prog.call (Call.inboxExists msg.id)) (funext fun r => ?_)
  match r with
  | .error e => rfl
  | .ok true => rfl
  | .ok false =>
    refine congrArg (Prog.call Call.timestamp) (funext fun now => ?_)
    refine congrArg (Prog.call (Call.inboxInsert (inboxEntry msg now))) (funext fun r => ?_)
    match r with
    | .error e => rfl
    | .ok () =>
      refine congrArg (Prog.call (Call.inboxMarkStatus msg.id .processing)) (funext fun r => ?_)
      match r with
      | .error e => rfl
      | .ok () =>
        refine congrArg (Prog.call (Call.inboxMarkStatus msg.id .processed)) (funext fun r => ?_)
        match r with
        | .error e => rfl
        | .ok () => rfl

theorem step_program {o : Outcome} (hworks : o.fault = none) (st : Stage) (w : World) :
    st.program.step handle o w = (st.next w o).map fun (st', w') => (st'.program, w') := by
  cases st with
  | checks msg =>
    show (processInbound msg).step handle o w = some (_, _)
    rw [processInbound_eq]
    simp only [Prog.step, handle, statement_of_works hworks, isSome_find?_eq]
    cases (w.recorded msg.id).isSome with
    | true => rfl
    | false => rfl
  | readsClock msg => rfl
  | inserts msg now =>
    show some (_, _) = some (_, _)
    simp only [handle, statement_of_works hworks]
    rfl
  | marksProcessing msg =>
    show some (_, _) = some (_, _)
    simp only [handle, statement_of_works hworks]
    rfl
  | marksProcessed msg =>
    show some (_, _) = some (_, _)
    simp only [handle, statement_of_works hworks]
    rfl
  | returned result => rfl

def Stage.isFor (id : String) : Stage → Prop
  | .checks msg | .readsClock msg | .inserts msg _ | .marksProcessing msg | .marksProcessed msg =>
    msg.id = id
  | .returned _ => True

/-- The call has inserted the id. -/
def Stage.hasInserted : Stage → Bool
  | .marksProcessing _ | .marksProcessed _ | .returned .processed => true
  | _ => false

theorem hasClaimed_program (st : Stage) :
    hasClaimed st.program = (isInserting st.program || st.hasInserted) := by
  cases st with
  | returned result => cases result <;> rfl
  | _ => rfl

/-- What one statement does to the table, and to the stage of its call. -/
structure Moved (id : String) (st : Stage) (w : World) (st' : Stage) (w' : World) : Prop where
  isFor : st'.isFor id
  recorded : w'.recorded id ≠ none ↔ w.recorded id ≠ none ∨ st'.hasInserted = true
  hasInserted : st.hasInserted = true → st'.hasInserted = true
  hasClaimed : hasClaimed st'.program =
    (hasClaimed st.program || (isChecking st.program && (w.recorded id).isNone))
  duplicate : st' = .returned .duplicate → w.recorded id ≠ none

theorem moved_next {id : String} {st st' : Stage} {w w' : World} {o : Outcome} (hid : st.isFor id)
    (hinserted : st.hasInserted = true → w.recorded id ≠ none)
    (hnext : st.next w o = some (st', w')) : Moved id st w st' w' := by
  cases st with
  | checks msg =>
    cases hid
    cases hnext
    cases hrec : w.recorded msg.id with
    | none =>
      refine ⟨rfl, ?_, nofun, ?_, nofun⟩
      · simp [hrec, Stage.hasInserted]
      · rw [hrec]
        rfl
    | some channel =>
      refine ⟨trivial, ?_, nofun, ?_, fun _ => ?_⟩
      · simp [hrec]
      · rw [hrec]
        rfl
      · rw [hrec]
        exact Option.some_ne_none channel
  | readsClock msg =>
    cases hnext
    exact ⟨hid, by simp [Stage.hasInserted], fun h => h, rfl, nofun⟩
  | inserts msg now =>
    cases hid
    cases hnext
    refine ⟨rfl, ?_, fun _ => rfl, rfl, nofun⟩
    rw [recorded_insert, if_pos (show msg.id = (inboxEntry msg now).id from rfl)]
    simp [Stage.hasInserted]
  | marksProcessing msg =>
    cases hnext
    refine ⟨hid, ?_, fun _ => rfl, rfl, nofun⟩
    rw [recorded_markStatus]
    simp [hinserted rfl]
  | marksProcessed msg =>
    cases hnext
    refine ⟨trivial, ?_, fun _ => rfl, rfl, nofun⟩
    rw [recorded_markStatus]
    simp [hinserted rfl]
  | returned result => cases hnext

/-! ## The race -/

/-- The tasks are at these stages, and the id is in the table if it was there
before or a call has inserted it. -/
structure Racing (id : String) (fresh : Prop) (s : Claims) (stages : List Stage) : Prop where
  tasks : s.tasks = stages.map Stage.program
  isFor : ∀ st ∈ stages, st.isFor id
  recorded : s.shared.recorded id ≠ none ↔ ¬ fresh ∨ ∃ st ∈ stages, st.hasInserted = true
  old : ¬ fresh → ∀ st ∈ stages, hasClaimed st.program = false
  duplicate : .returned .duplicate ∈ stages → s.shared.recorded id ≠ none

/-- One call at most has found the id missing. -/
def OneClaim (s : Claims) : Prop := s.tasks.countP hasClaimed ≤ 1

section Race

variable {id : String} {fresh : Prop} {s s' : Claims} {stages : List Stage}

theorem Racing.start (h : Racing id fresh s stages) {msg : Message} (hid : msg.id = id) :
    Racing id fresh { s with tasks := s.tasks ++ [processInbound msg] }
      (stages ++ [.checks msg]) := by
  constructor
  · show s.tasks ++ [processInbound msg] = _
    rw [h.tasks, List.map_append]
    rfl
  · exact forall_mem_concat h.isFor hid
  · rw [h.recorded]
    simp [Stage.hasInserted]
  · exact fun hold => forall_mem_concat (h.old hold) rfl
  · intro hdup
    refine h.duplicate ?_
    simpa using hdup

/-- While the id is missing, the calls that have found it missing have not
inserted it. -/
theorem Racing.hasClaimed_of_missing (h : Racing id fresh s stages)
    (hmissing : s.shared.recorded id = none) {st : Stage} (hst : st ∈ stages) :
    hasClaimed st.program = isInserting st.program := by
  have hnot : st.hasInserted = false := by
    rw [← Bool.not_eq_true]
    intro hinserted
    exact h.recorded.mpr (Or.inr ⟨st, hst, hinserted⟩) hmissing
  rw [hasClaimed_program, hnot, Bool.or_false]

/-- Then there is no claim exactly where no call is about to insert it. -/
theorem Racing.noClaim_iff (h : Racing id fresh s stages) (hmissing : s.shared.recorded id = none) :
    s.tasks.countP hasClaimed = 0 ↔ ∀ q ∈ s.tasks, isInserting q = false := by
  rw [List.countP_eq_zero, h.tasks]
  constructor
  · intro hall q hq
    obtain ⟨u, hu, rfl⟩ := List.mem_map.mp hq
    rw [← h.hasClaimed_of_missing hmissing hu]
    simpa using hall _ hq
  · intro hall q hq
    obtain ⟨u, hu, rfl⟩ := List.mem_map.mp hq
    rw [h.hasClaimed_of_missing hmissing hu]
    simpa using hall _ hq

theorem Racing.move (h : Racing id fresh s stages) {n : Nat} {st st' : Stage} {w' : World}
    (hn : stages[n]? = some st) (hmoved : Moved id st s.shared st' w') :
    Racing id fresh ⟨w', s.tasks.set n st'.program⟩ (stages.set n st') := by
  obtain ⟨hlt, hget⟩ := List.getElem?_eq_some_iff.mp hn
  have hst : st ∈ stages := hget ▸ List.getElem_mem hlt
  have hkept : s.shared.recorded id ≠ none → w'.recorded id ≠ none :=
    fun hrec => hmoved.recorded.mpr (Or.inl hrec)
  constructor
  · show s.tasks.set n st'.program = _
    rw [h.tasks, List.map_set]
  · exact forall_mem_set h.isFor hmoved.isFor
  · show w'.recorded id ≠ none ↔ _
    rw [hmoved.recorded, h.recorded, exists_mem_set_iff hn hmoved.hasInserted, or_assoc]
  · intro hold
    have hpresent : s.shared.recorded id ≠ none := h.recorded.mpr (Or.inl hold)
    have hnone : (s.shared.recorded id).isNone = false :=
      Option.isNone_eq_false_iff.mpr (Option.isSome_iff_ne_none.mpr hpresent)
    refine forall_mem_set (h.old hold) ?_
    rw [hmoved.hasClaimed, h.old hold st hst, hnone, Bool.and_false]
    rfl
  · intro hdup
    rcases List.mem_or_eq_of_mem_set hdup with hdup | hdup
    · exact hkept (h.duplicate hdup)
    · exact hkept (hmoved.duplicate hdup.symm)

/-- A move keeps it at one claim exactly when a check that finds the id missing
is alone. -/
theorem Racing.oneClaim_move (h : Racing id fresh s stages) {n : Nat} {st st' : Stage}
    {w' : World} (hn : stages[n]? = some st) (hmoved : Moved id st s.shared st' w') (o : Outcome) :
    OneClaim ⟨w', s.tasks.set n st'.program⟩ ↔ OneClaim s ∧ ChecksAlone id s (.call n o) := by
  obtain ⟨hlt, hget⟩ := List.getElem?_eq_some_iff.mp hn
  have hst : st ∈ stages := hget ▸ List.getElem_mem hlt
  have htask : s.tasks[n]? = some st.program := by
    rw [h.tasks, List.getElem?_map, hn]
    rfl
  have halone : ChecksAlone id s (.call n o) ↔
      (isChecking st.program = true → s.shared.recorded id = none →
        ∀ q ∈ s.tasks, isInserting q = false) := by
    simp [ChecksAlone, htask]
  have hcount := countP_set_add hasClaimed htask st'.program
  rw [hmoved.hasClaimed] at hcount
  rw [halone]
  unfold OneClaim
  show (s.tasks.set n st'.program).countP hasClaimed ≤ 1 ↔ _
  by_cases hcheck : isChecking st.program = true ∧ s.shared.recorded id = none
  · obtain ⟨hchecking, hmissing⟩ := hcheck
    have hnot : hasClaimed st.program = false := by
      cases st <;> first | rfl | cases hchecking
    rw [hnot, hchecking, hmissing] at hcount
    simp only [Bool.false_eq_true, if_false, Option.isNone_none, Bool.and_true, Bool.or_true,
      if_true] at hcount
    rw [hchecking, hmissing, ← h.noClaim_iff hmissing]
    simp only [forall_const]
    omega
  · have hnone : (isChecking st.program && (s.shared.recorded id).isNone) = false := by
      rw [Bool.and_eq_false_iff]
      by_cases hchecking : isChecking st.program = true
      · right
        rw [Option.isNone_eq_false_iff, Option.isSome_iff_ne_none]
        exact fun hmissing => hcheck ⟨hchecking, hmissing⟩
      · exact Or.inl (by simpa using hchecking)
    have htrue : isChecking st.program = true → s.shared.recorded id = none →
        ∀ q ∈ s.tasks, isInserting q = false :=
      fun hchecking hmissing => absurd ⟨hchecking, hmissing⟩ hcheck
    rw [hnone, Bool.or_false] at hcount
    rw [and_iff_left htrue, Nat.add_right_cancel hcount]

theorem racing_step {m : Move Message Empty Outcome} (h : Racing id fresh s stages)
    (hplain : Plain id m) (hstep : s.step m = some s') :
    (∃ stages', Racing id fresh s' stages') ∧
      (OneClaim s' ↔ OneClaim s ∧ ChecksAlone id s m) := by
  cases m with
  | start msg =>
    cases hstep
    refine ⟨⟨_, h.start hplain⟩, ?_⟩
    have hcount : (s.tasks ++ [processInbound msg]).countP hasClaimed =
        s.tasks.countP hasClaimed := by
      rw [List.countP_append]
      rfl
    show (s.tasks ++ [processInbound msg]).countP hasClaimed ≤ 1 ↔ _
    rw [hcount]
    exact ⟨fun hone => ⟨hone, trivial⟩, And.left⟩
  | call n o =>
    have hworks : o.fault = none := hplain
    obtain ⟨p, p', w', hp, hmade, rfl⟩ := task_step_of_call hstep
    rw [h.tasks, List.getElem?_map, Option.map_eq_some_iff] at hp
    obtain ⟨st, hn, rfl⟩ := hp
    rw [step_program hworks, Option.map_eq_some_iff] at hmade
    obtain ⟨⟨st', w''⟩, hnext, hmade⟩ := hmade
    cases hmade
    obtain ⟨hlt, hget⟩ := List.getElem?_eq_some_iff.mp hn
    have hst : st ∈ stages := hget ▸ List.getElem_mem hlt
    have hmoved : Moved id st s.shared st' w' :=
      moved_next (h.isFor st hst)
        (fun hinserted => h.recorded.mpr (Or.inr ⟨st, hst, hinserted⟩)) hnext
    exact ⟨⟨_, h.move hn hmoved⟩, h.oneClaim_move hn hmoved o⟩
  | other e => exact e.elim

end Race

/-! ## The winner -/

/-- One of the calls has returned `Processed`, or none has if the id was in the
table before they ran. -/
def OneWinner (id : String) (w : World) (s : Claims) : Prop :=
  s.tasks.countP isProcessed = if (w.recorded id).isSome then 0 else 1

instance (id : String) (w : World) (s : Claims) : Decidable (OneWinner id w s) :=
  inferInstanceAs (Decidable (_ = _))

theorem racing_init (id : String) (w : World) :
    Racing id (w.recorded id = none) (.init w) [] :=
  ⟨rfl, by simp, by simp [Pool.init], by simp, by simp⟩

/-- A call that has returned has found the id missing exactly when it has
returned `Processed`. -/
theorem isProcessed_of_isOver {p : Work (Except String InboxResult)} (hover : isOver p = true) :
    isProcessed p = hasClaimed p := by
  cases p with
  | ret r => rcases r with e | ⟨_ | _⟩ <;> rfl
  | call c next => cases hover

theorem Stage.eq_returned {st : Stage} (hover : isOver st.program = true) :
    ∃ r, st = .returned r := by
  cases st with
  | returned r => exact ⟨r, rfl⟩
  | _ => cases hover

section Winner

variable {w : World} {id : String} {s : Claims} {stages : List Stage}

/-- Where all calls have returned and the id was not in the table before, one
of them has found it missing. -/
theorem Racing.exists_hasClaimed (h : Racing id (w.recorded id = none) s stages)
    (hover : ∀ p ∈ s.tasks, isOver p = true) (hne : s.tasks ≠ []) (hfresh : w.recorded id = none) :
    0 < s.tasks.countP hasClaimed := by
  rw [List.countP_pos_iff, h.tasks]
  have hwinner : s.shared.recorded id ≠ none → ∃ p ∈ stages.map Stage.program,
      hasClaimed p = true := by
    intro hrec
    obtain ⟨st, hst, hinserted⟩ := (h.recorded.mp hrec).resolve_left (not_not_intro hfresh)
    refine ⟨st.program, List.mem_map_of_mem hst, ?_⟩
    rw [hasClaimed_program, hinserted, Bool.or_true]
  obtain ⟨p, hp⟩ := List.exists_mem_of_ne_nil _ hne
  have hpover := hover p hp
  rw [h.tasks] at hp
  obtain ⟨st, hst, rfl⟩ := List.mem_map.mp hp
  obtain ⟨r, rfl⟩ := Stage.eq_returned hpover
  cases r with
  | processed => exact ⟨_, hp, rfl⟩
  | duplicate => exact hwinner (h.duplicate hst)

theorem Racing.oneWinner_iff (h : Racing id (w.recorded id = none) s stages)
    (hover : ∀ p ∈ s.tasks, isOver p = true) (hne : s.tasks ≠ []) :
    OneWinner id w s ↔ OneClaim s := by
  have hcount : s.tasks.countP isProcessed = s.tasks.countP hasClaimed :=
    List.countP_congr fun p hp => by rw [isProcessed_of_isOver (hover p hp)]
  unfold OneWinner OneClaim
  rw [hcount]
  cases hrec : w.recorded id with
  | none =>
    have hpos := h.exists_hasClaimed hover hne hrec
    simp only [Option.isSome_none, Bool.false_eq_true, if_false]
    omega
  | some channel =>
    have hzero : s.tasks.countP hasClaimed = 0 := by
      rw [List.countP_eq_zero, h.tasks]
      intro p hp
      obtain ⟨st, hst, rfl⟩ := List.mem_map.mp hp
      rw [h.old (by simp [hrec]) st hst]
      exact Bool.false_ne_true
    simp [hzero]

end Winner

/-- Of calls with one id that have all returned, one has returned `Processed`
if the id was new and none if it was not, exactly when every check that found
the id missing was alone. -/
theorem claim_exclusive_iff {w : World} {id : String} {s : Claims}
    {moves : List (Move Message Empty Outcome)} (hplain : ∀ m ∈ moves, Plain id m)
    (hrun : run Claims.step (.init w) moves = some s) (hover : ∀ p ∈ s.tasks, isOver p = true)
    (hne : s.tasks ≠ []) :
    OneWinner id w s ↔ EveryStep Claims.step (ChecksAlone id) (.init w) moves := by
  have hQ := (everyStep_iff_forall_mem hrun).mpr hplain
  have hinv : ∀ s m s', (∃ stages, Racing id (w.recorded id = none) s stages) → Plain id m →
      s.step m = some s' → ∃ stages, Racing id (w.recorded id = none) s' stages :=
    fun s m s' ⟨_, h⟩ hm hs => (racing_step h hm hs).1
  obtain ⟨stages, h⟩ := run_invariant_of_everyStep hinv ⟨[], racing_init id w⟩ hQ hrun
  have hone : OneClaim (.init w) := Nat.zero_le 1
  rw [h.oneWinner_iff hover hne, good_iff_everyStep_of_invariant hinv
    (fun s m s' ⟨_, h⟩ hm hs => (racing_step h hm hs).2) ⟨[], racing_init id w⟩ hQ hrun,
    and_iff_right hone]

/-- The one call claims the message before the other checks. -/
def oneAfterTheOther (msg : Message) : List (Move Message Empty Outcome) :=
  .start msg :: .start msg :: List.replicate 5 (.call 0 works) ++ [.call 1 works]

theorem oneAfterTheOther_oneWinner :
    OneWinner "om_1" World.init ((run Claims.step (.init World.init) (oneAfterTheOther hello)).get
      (by decide +kernel)) :=
  (claim_exclusive_iff (by simp [oneAfterTheOther, Plain, works, hello,
      Message.newInbound]) (Option.some_get _).symm
    (by decide +kernel) (by decide +kernel)).mpr (by decide +kernel)

/-- Both calls check before one of them inserts. -/
def bothCheckFirst (msg : Message) : List (Move Message Empty Outcome) :=
  .start msg :: .start msg :: .call 0 works :: .call 1 works ::
    (List.replicate 4 (.call 0 works) ++ List.replicate 4 (.call 1 works))

def InboxClaimsExclusive : Prop :=
  ∀ (w : World) (id : String) (s : Claims) (moves : List (Move Message Empty Outcome)),
    (∀ m ∈ moves, Plain id m) → run Claims.step (.init w) moves = some s →
    (∀ p ∈ s.tasks, isOver p = true) → s.tasks ≠ [] → OneWinner id w s

/-- Both of them win. -/
theorem not_inboxClaimsExclusive : ¬ InboxClaimsExclusive := by
  intro h
  have hone := h World.init "om_1"
    ((run Claims.step (.init World.init) (bothCheckFirst hello)).get (by decide +kernel))
    (bothCheckFirst hello) (by simp [bothCheckFirst, Plain, works, hello,
      Message.newInbound])
    (Option.some_get _).symm (by decide +kernel) (by decide +kernel)
  exact absurd hone (by decide +kernel)

end MagicLaw.Inbound
