import MagicLaw.Outbox.Worker

/-!
# The recovery after a crash

`recover_after_crash` fetches the rows that were in flight and resets them one
after the other, each with a statement of its own.

* `recovery_resets`: when it returns a count, exactly the rows that were in
  flight are pending again, with what they were enqueued with and their retry
  count, and nothing else has changed.
* A recovery that follows finds no row in flight.
-/

namespace MagicLaw.Outbox

open Lib Lib.Program

/-- `sending` or `retrying`. -/
def OutboxEntry.inFlight (row : OutboxEntry) : Bool :=
  row.status = .sending || row.status = .retrying

/-- `row'` is `row`, pending again. -/
structure ResetFrom (row row' : OutboxEntry) : Prop where
  status : row'.status = .pending
  id : row'.id = row.id
  routeKey : row'.routeKey = row.routeKey
  payload : row'.payload = row.payload
  retryCount : row'.retryCount = row.retryCount
  createdAt : row'.createdAt = row.createdAt

/-- Exactly the rows that were in flight in `w` are reset in `w'`. -/
structure InFlightReset (w w' : World) : Prop where
  reset : ∀ id row, w.outbox.find? id = some row → row.inFlight = true →
    ∃ row', w'.outbox.find? id = some row' ∧ ResetFrom row row'
  kept : ∀ id, (∀ row, w.outbox.find? id = some row → row.inFlight = false) →
    w'.outbox.find? id = w.outbox.find? id
  deadLetter : w'.deadLetter = w.deadLetter

/-- No row is in flight. -/
def NoneInFlight (w : World) : Prop :=
  ∀ id row, w.outbox.find? id = some row → row.inFlight = false

theorem InFlightReset.noneInFlight {w w' : World} (h : InFlightReset w w') : NoneInFlight w' := by
  intro id row' hrow'
  by_cases hflight : ∃ row, w.outbox.find? id = some row ∧ row.inFlight = true
  · obtain ⟨row, hrow, hrowFlight⟩ := hflight
    obtain ⟨reset, hreset, hfrom⟩ := h.reset id row hrow hrowFlight
    rw [hrow', Option.some.injEq] at hreset
    subst hreset
    simp [OutboxEntry.inFlight, hfrom.status]
  · have hnone : ∀ row, w.outbox.find? id = some row → row.inFlight = false := by
      intro row hrow
      rw [← Bool.not_eq_true]
      exact fun hrowFlight => hflight ⟨row, hrow, hrowFlight⟩
    rw [h.kept id hnone] at hrow'
    exact hnone row' hrow'

/-! ## The loop -/

/-- The rows of `entries` are still to be reset, and the other ones that were
in flight in `w` are. -/
structure ResettingFrom (w : World) (entries : List OutboxEntry) (w' : World) : Prop where
  pending : ∀ id row, w.outbox.find? id = some row → row.inFlight = true →
    id ∉ entries.map OutboxEntry.id →
    ∃ row', w'.outbox.find? id = some row' ∧ ResetFrom row row'
  kept : ∀ id, (∀ row, w.outbox.find? id = some row → row.inFlight = false) →
    w'.outbox.find? id = w.outbox.find? id
  unreset : ∀ id ∈ entries.map OutboxEntry.id, w'.outbox.find? id = w.outbox.find? id
  inFlight : ∀ entry ∈ entries, w.outbox.find? entry.id = some entry ∧ entry.inFlight = true
  nodup : (entries.map OutboxEntry.id).Nodup
  deadLetter : w'.deadLetter = w.deadLetter

theorem ResettingFrom.done {w w' : World} (h : ResettingFrom w [] w') : InFlightReset w w' :=
  ⟨fun id row hrow hflight => h.pending id row hrow hflight List.not_mem_nil, h.kept, h.deadLetter⟩

/-- The snapshot has every row that is in flight. -/
theorem resettingFrom_inFlightRows (w : World) : ResettingFrom w w.inFlightRows w where
  pending id row hrow hflight hnotMem := by
    have hid : row.id = id := KeyedTable.key_of_find? hrow
    have hmem : row ∈ w.inFlightRows := mem_orderedSelect.mpr ⟨hid.symm ▸ hrow, hflight⟩
    exact absurd (hid ▸ List.mem_map_of_mem hmem) hnotMem
  kept _ _ := rfl
  unreset _ _ := rfl
  inFlight _ hentry := mem_orderedSelect.mp hentry
  nodup := nodup_orderedSelect _ _ _
  deadLetter := rfl

/-- One more row is reset. -/
theorem ResettingFrom.reset {w w' : World} {entry : OutboxEntry} {entries : List OutboxEntry}
    (h : ResettingFrom w (entry :: entries) w') (seconds : Int64) :
    ResettingFrom w entries (w'.updateRow entry.id (.setStatus .pending none seconds)
      (OutboxEntry.setStatus_id .pending none seconds)) := by
  obtain ⟨hnotMem, hnodup⟩ := List.nodup_cons.mp h.nodup
  obtain ⟨hentry, hentryFlight⟩ := h.inFlight entry List.mem_cons_self
  have hself : w'.outbox.find? entry.id = some entry :=
    (h.unreset entry.id List.mem_cons_self).trans hentry
  constructor
  · intro id row hrow hflight hid
    by_cases hk : id = entry.id
    · subst hk
      rw [hentry, Option.some.injEq] at hrow
      subst hrow
      exact ⟨_, find?_updateRow_self w' entry.id _ _ hself, ⟨rfl, rfl, rfl, rfl, rfl, rfl⟩⟩
    · rw [find?_updateRow_of_ne w' entry.id _ _ hk]
      refine h.pending id row hrow hflight ?_
      rw [List.map_cons, List.mem_cons]
      exact not_or.mpr ⟨hk, hid⟩
  · intro id hnone
    have hk : id ≠ entry.id := by
      intro heq
      rw [heq] at hnone
      rw [hnone entry hentry] at hentryFlight
      exact absurd hentryFlight (by decide)
    rw [find?_updateRow_of_ne w' entry.id _ _ hk]
    exact h.kept id hnone
  · intro id hid
    have hk : id ≠ entry.id := fun heq => hnotMem (heq ▸ hid)
    rw [find?_updateRow_of_ne w' entry.id _ _ hk]
    exact h.unreset id (List.mem_cons_of_mem _ hid)
  · exact fun e he => h.inFlight e (List.mem_cons_of_mem _ he)
  · exact hnodup
  · exact h.deadLetter

/-- Whatever fails on the way: where the loop gets to its end, all rows are
reset. -/
theorem wp_resetInFlight {w w' : World} {entries : List OutboxEntry}
    (h : ResettingFrom w entries w') :
    wp handle anyOutcome (fun r w'' => r = .ok () → InFlightReset w w'')
      (resetInFlight entries) w' := by
  induction entries generalizing w' with
  | nil => exact fun _ => h.done
  | cons entry entries ih =>
    unfold resetInFlight
    rw [wp_bind]
    refine wp_markStatus False.elim ?_ fun seconds => ih (h.reset seconds)
    intro o e _ _ herror
    cases herror

theorem wp_recoverAfterCrash (w : World) :
    wp handle anyOutcome
      (fun r w' => ∀ count, r = .ok count → InFlightReset w w' ∧ count = w.inFlightRows.length)
      recoverAfterCrash w := by
  unfold recoverAfterCrash
  rw [wp_bind]
  refine wp_fetchInFlight False.elim ?_ ?_
  · intro e count herror
    cases herror
  rw [wp_bind]
  refine wp_mono ?_ (wp_resetInFlight (resettingFrom_inFlightRows w))
  intro r w' hr
  cases r with
  | error e =>
    intro count hcount
    cases hcount
  | ok =>
    intro count hcount
    cases hcount
    exact ⟨hr rfl, rfl⟩

/-! ## A recovery with nothing to do -/

theorem NoneInFlight.inFlightRows_eq_nil {w : World} (h : NoneInFlight w) :
    w.inFlightRows = [] := by
  rw [List.eq_nil_iff_forall_not_mem]
  intro row hrow
  obtain ⟨hfind, hflight⟩ := mem_orderedSelect.mp hrow
  have hnot : row.inFlight = false := h row.id row hfind
  rw [OutboxEntry.inFlight, hflight] at hnot
  exact absurd hnot (by decide)

/-- It fetches nothing, or fails to fetch. -/
theorem NoneInFlight.play_recoverAfterCrash {w : World} (h : NoneInFlight w)
    (fs : Nat → Outcome) :
    (recoverAfterCrash.play handle fs w).2 = w ∧
      ((fs 0).fault = none → (recoverAfterCrash.play handle fs w).1 = .ok 0) := by
  have hplay : recoverAfterCrash.play handle fs w =
      (((fs 0).fault.elim (.ok 0) .error : Except String Nat), w) := by
    show Prog.play handle (Prog.call Call.fetchInFlight _) fs w = _
    rw [Prog.play]
    simp only [handle, statement, h.inFlightRows_eq_nil]
    cases (fs 0).fault with
    | some e => rfl
    | none => rfl
  rw [hplay]
  refine ⟨rfl, fun hworks => ?_⟩
  rw [hworks]
  rfl

/-! ## The recovery -/

/-- Whatever is in the tables and whatever fails: when `recover_after_crash`
returns a count, no row is in flight, those that were are pending with what
they had, all others are as they were, and the count is the number of those
that were reset.  Another recovery changes nothing, and returns zero if it can
read the table. -/
theorem recovery_resets (w : World) (fs : Nat → Outcome) {count : Nat}
    (hok : (recoverAfterCrash.play handle fs w).1 = .ok count) :
    NoneInFlight (recoverAfterCrash.play handle fs w).2 ∧
    InFlightReset w (recoverAfterCrash.play handle fs w).2 ∧
    count = w.outbox.rows.countP OutboxEntry.inFlight ∧
    ∀ gs, (recoverAfterCrash.play handle gs (recoverAfterCrash.play handle fs w).2).2 =
        (recoverAfterCrash.play handle fs w).2 ∧
      ((gs 0).fault = none →
        (recoverAfterCrash.play handle gs (recoverAfterCrash.play handle fs w).2).1 = .ok 0) := by
  obtain ⟨hreset, hcount⟩ := play_of_wp (wp_recoverAfterCrash w) fs count hok
  have hnone := hreset.noneInFlight
  refine ⟨hnone, hreset, ?_, hnone.play_recoverAfterCrash⟩
  rw [hcount, World.inFlightRows, List.length_insertionSort, KeyedTable.select,
    ← List.countP_eq_length_filter]
  rfl

/-- Two rows of three were in flight. -/
def crashedRows : World :=
  { World.init with
    outbox := ((KeyedTable.empty.insertOrIgnore
      { OutboxEntry.new "m1" "wechat/c1" "a" 1700000000 with status := .sending }).insertOrIgnore
      { OutboxEntry.new "m2" "wechat/c2" "b" 1700000001 with
        status := .retrying, retryCount := 3, nextRetryAt := some 1700000005000 }).insertOrIgnore
      { OutboxEntry.new "m3" "wechat/c3" "c" 1700000002 with status := .sent } }

theorem crashedRows_reset :
    NoneInFlight (recoverAfterCrash.play handle (fun _ => works) crashedRows).2 ∧
    InFlightReset crashedRows (recoverAfterCrash.play handle (fun _ => works) crashedRows).2 ∧
    2 = crashedRows.outbox.rows.countP OutboxEntry.inFlight ∧
    ∀ gs, (recoverAfterCrash.play handle gs
        (recoverAfterCrash.play handle (fun _ => works) crashedRows).2).2 =
        (recoverAfterCrash.play handle (fun _ => works) crashedRows).2 ∧
      ((gs 0).fault = none → (recoverAfterCrash.play handle gs
        (recoverAfterCrash.play handle (fun _ => works) crashedRows).2).1 = .ok 0) :=
  recovery_resets crashedRows (fun _ => works) (by rfl)

end MagicLaw.Outbox
