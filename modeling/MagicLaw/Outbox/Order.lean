import MagicLaw.Lib.Interference
import MagicLaw.Outbox.Loops

/-!
# The order of the messages of a route

One loop runs tick after tick, and messages are enqueued between any two of
its calls, each with a `created_at` that no earlier one exceeds.  Sends may
fail, and a message whose send failed waits for a retry.

The rows of the table are in the order of the enqueues, and `World.place` is
the place of a message among them.  `fetch_pending` yields the oldest messages
first, those of one second in the order of the table, and a message that was
attempted once comes before every message that is still pending.  So a
message could overtake another one of its route only while that one waits for
its retry.  Neither fetch looks at that: where no message is marked as
`sending` while an earlier one of its route waits, the messages of every route
are delivered in the order in which they were enqueued (`route_in_order`).

* `Queue` is what holds of the rows that are not pending, and of the rest of a
  batch.
* `Marked` is the state between the mark and the outcome of a send.
* `Grows` is what an enqueue does; all of these are kept by it.
-/

namespace MagicLaw.Outbox

open Lib Lib.Program Lib.Machine Lib.Interference

/-! ## The property -/

/-- The place of a message in the order of the enqueues. -/
def World.place (w : World) (id : String) : Nat := (w.outbox.rows.map OutboxEntry.id).idxOf id

/-- The row was enqueued before the other one, on the same route. -/
def World.Before (w : World) (row row' : OutboxEntry) : Prop :=
  row.routeKey = row'.routeKey ∧ w.place row.id < w.place row'.id

/-- The messages that were delivered, the newest delivery first. -/
def delivered : List Event → List String
  | [] => []
  | .attempted id true :: trace => id :: delivered trace
  | _ :: trace => delivered trace

/-- What is delivered later was not enqueued before, and what was enqueued
before something delivered does not wait for a retry. -/
structure RouteOrder (w : World) : Prop where
  inOrder : (delivered w.trace).Pairwise fun later earlier => ∀ row row',
    w.outbox.find? later = some row → w.outbox.find? earlier = some row' → ¬ w.Before row row'
  noneWaits : ∀ id ∈ delivered w.trace, ∀ row, w.outbox.find? id = some row →
    ∀ k row', w.outbox.find? k = some row' → w.Before row' row → row'.status ≠ .retrying

/-- An earlier message of the route waits for a retry. -/
def World.Overtakes (w : World) (id : String) : Prop :=
  ∃ row ∈ w.outbox.rows, row.id = id ∧
    ∃ row' ∈ w.outbox.rows, row'.status = .retrying ∧ w.Before row' row

/-- Only sends fail, and no message is marked as `sending` while an earlier one
of its route waits for a retry. -/
def MarksInTurn (w : World) : Call → Outcome → Prop
  | .send _, _ => True
  | .markStatus id .sending _, o => o.fault = none ∧ ¬ w.Overtakes id
  | _, o => o.fault = none

/-- The clock has not gone back since the last message was enqueued. -/
def ClockGoesOn (w : World) (new : NewMessage) : Prop :=
  ∀ row ∈ w.outbox.rows, row.createdAt ≤ new.nowTs

/-! ## The places of the messages -/

section Places

variable {w w' : World} {id k : String} {row row' : OutboxEntry}

theorem mem_ids (hrow : w.outbox.find? id = some row) : id ∈ w.outbox.rows.map OutboxEntry.id := by
  obtain ⟨hmem, rfl⟩ := KeyedTable.find?_eq_some_iff.mp hrow
  exact List.mem_map_of_mem hmem

/-- What is enqueued later does not change the place of a message. -/
theorem place_of_isPrefix
    (hids : w.outbox.rows.map OutboxEntry.id <+: w'.outbox.rows.map OutboxEntry.id)
    (hrow : w.outbox.find? id = some row) : w'.place id = w.place id := by
  obtain ⟨more, hmore⟩ := hids
  unfold World.place
  rw [← hmore, List.idxOf_append_of_mem (mem_ids hrow)]

/-- A message that is new comes after those that were there. -/
theorem place_lt_of_isPrefix
    (hids : w.outbox.rows.map OutboxEntry.id <+: w'.outbox.rows.map OutboxEntry.id)
    (hnew : w.outbox.find? id = none) (hrow : w.outbox.find? k = some row) :
    w'.place k < w'.place id := by
  have hnotMem : id ∉ w.outbox.rows.map OutboxEntry.id := by
    intro hid
    obtain ⟨old, hold, heq⟩ := List.mem_map.mp hid
    exact KeyedTable.find?_eq_none_iff.mp hnew old hold heq
  rw [place_of_isPrefix hids hrow]
  obtain ⟨more, hmore⟩ := hids
  have hlt : w.place k < (w.outbox.rows.map OutboxEntry.id).length :=
    List.idxOf_lt_length_of_mem (mem_ids hrow)
  have hplace : w'.place id = (w.outbox.rows.map OutboxEntry.id).length + more.idxOf id := by
    unfold World.place
    rw [← hmore, List.idxOf_append_of_notMem hnotMem]
  omega

/-- The rows of the table are in the order of their places. -/
theorem pairwise_place (w : World) :
    w.outbox.rows.Pairwise fun row row' => w.place row.id < w.place row'.id := by
  apply List.pairwise_iff_getElem.mpr
  intro i j hi hj hij
  have hplace : ∀ n (hn : n < w.outbox.rows.length), w.place w.outbox.rows[n].id = n := by
    intro n hn
    have hlen : n < (w.outbox.rows.map OutboxEntry.id).length := by rwa [List.length_map]
    have hidx := List.Nodup.idxOf_getElem w.outbox.nodup n hlen
    rwa [List.getElem_map] at hidx
  rw [hplace i hi, hplace j hj]
  exact hij

end Places

/-! ## What a delivered message says of the earlier ones -/

/-- The message is not attempted any more. -/
def OutboxEntry.Over (row : OutboxEntry) : Prop := row.status = .sent ∨ row.status = .deadLetter

/-- The messages of the route that were enqueued before a delivered one are
over. -/
structure Delivered (w : World) : Prop where
  stored : ∀ id ∈ delivered w.trace, ∃ row, w.outbox.find? id = some row
  inOrder : (delivered w.trace).Pairwise fun later earlier => ∀ row row',
    w.outbox.find? later = some row → w.outbox.find? earlier = some row' → ¬ w.Before row row'
  ended : ∀ id ∈ delivered w.trace, ∀ row, w.outbox.find? id = some row →
    ∀ k row', w.outbox.find? k = some row' → w.Before row' row → row'.Over

theorem Delivered.routeOrder {w : World} (h : Delivered w) : RouteOrder w := by
  refine ⟨h.inOrder, fun id hid row hrow k row' hrow' hbefore hretrying => ?_⟩
  rcases h.ended id hid row hrow k row' hrow' hbefore with hs | hs <;> rw [hs] at hretrying <;>
    exact absurd hretrying (by decide)

/-! ## What others do -/

/-- The rows of the table are in the order of their `created_at`. -/
def World.Aged (w : World) : Prop :=
  (w.outbox.rows.map OutboxEntry.createdAt).Pairwise fun created created' => created ≤ created'

/-- `w'` is `w` after some messages were enqueued. -/
structure Grows (w w' : World) : Prop where
  kept : ∀ id row, w.outbox.find? id = some row → w'.outbox.find? id = some row
  new : ∀ id row, w'.outbox.find? id = some row → w.outbox.find? id = some row ∨
    (row.status = .pending ∧ w.outbox.find? id = none)
  ids : w.outbox.rows.map OutboxEntry.id <+: w'.outbox.rows.map OutboxEntry.id
  aged : w.Aged → w'.Aged
  delivered_eq : delivered w'.trace = delivered w.trace

theorem Grows.refl (w : World) : Grows w w :=
  ⟨fun _ _ h => h, fun _ _ h => Or.inl h, List.prefix_rfl, fun h => h, rfl⟩

theorem Grows.trans {w w' w'' : World} (h : Grows w w') (h' : Grows w' w'') : Grows w w'' := by
  refine ⟨fun id row hrow => h'.kept id row (h.kept id row hrow), fun id row hrow => ?_,
    h.ids.trans h'.ids, fun haged => h'.aged (h.aged haged), h'.delivered_eq.trans h.delivered_eq⟩
  rcases h'.new id row hrow with hold | ⟨hpending, hnew⟩
  · exact h.new id row hold
  · refine Or.inr ⟨hpending, ?_⟩
    cases hrow : w.outbox.find? id with
    | none => rfl
    | some row' =>
      rw [h.kept id row' hrow] at hnew
      cases hnew

/-- A row that was there is where it was. -/
theorem Grows.place {w w' : World} (h : Grows w w') {id : String} {row : OutboxEntry}
    (hrow : w.outbox.find? id = some row) : w'.place id = w.place id :=
  place_of_isPrefix h.ids hrow

/-- What was enqueued before another one, of the rows that were there. -/
theorem Grows.before_iff {w w' : World} (h : Grows w w') {id id' : String} {row row' : OutboxEntry}
    (hrow : w.outbox.find? id = some row) (hrow' : w.outbox.find? id' = some row') :
    w'.Before row row' ↔ w.Before row row' := by
  obtain rfl : row.id = id := KeyedTable.key_of_find? hrow
  obtain rfl : row'.id = id' := KeyedTable.key_of_find? hrow'
  unfold World.Before
  rw [h.place hrow, h.place hrow']

/-- What is new was not enqueued before a row that was there. -/
theorem Grows.not_before {w w' : World} (h : Grows w w') {id k : String} {row row' : OutboxEntry}
    (hrow : w.outbox.find? id = some row) (hnew : w.outbox.find? k = none)
    (hrow' : w'.outbox.find? k = some row') : ¬ w'.Before row' row := by
  obtain rfl : row.id = id := KeyedTable.key_of_find? hrow
  obtain rfl : row'.id = k := KeyedTable.key_of_find? hrow'
  intro hbefore
  exact Nat.lt_asymm hbefore.2 (place_lt_of_isPrefix h.ids hnew hrow)

/-- The rows after an enqueue, which is ignored when the id is taken. -/
theorem rows_enqueueNew (w : World) (new : NewMessage) :
    (w.enqueueNew new).outbox.rows = w.outbox.rows ∨
      (w.enqueueNew new).outbox.rows =
        w.outbox.rows ++ [OutboxEntry.new new.id new.routeKey new.payload new.nowTs] := by
  show (w.outbox.insertOrIgnore _).rows = _ ∨ (w.outbox.insertOrIgnore _).rows = _
  unfold KeyedTable.insertOrIgnore
  split
  · exact .inr rfl
  · exact .inl rfl

/-- A message that is enqueued is the last one. -/
theorem grows_enqueueNew {w : World} {new : NewMessage} (hclock : ClockGoesOn w new) :
    Grows w (w.enqueueNew new) := by
  have hfind := KeyedTable.find?_insertOrIgnore w.outbox
    (OutboxEntry.new new.id new.routeKey new.payload new.nowTs)
  refine ⟨fun id row h => find?_enqueueNew_of_eq_some h, fun id row hrow => ?_, ?_, ?_, ?_⟩
  · have hrow : (if id = new.id then some ((w.outbox.find? id).getD _) else w.outbox.find? id) =
      some row := (hfind id).symm.trans hrow
    cases hold : w.outbox.find? id with
    | some row' =>
      rw [hold] at hrow
      left
      split at hrow
      · exact hrow
      · exact hrow
    | none =>
      rw [hold] at hrow
      split at hrow
      · rw [Option.getD_none, Option.some.injEq] at hrow
        subst hrow
        exact Or.inr ⟨rfl, rfl⟩
      · exact absurd hrow (by simp)
  · rcases rows_enqueueNew w new with hrows | hrows
    · have hids := congrArg (List.map OutboxEntry.id) hrows
      exact hids ▸ List.prefix_rfl
    · rw [hrows, List.map_append]
      exact List.prefix_append _ _
  · intro haged
    unfold World.Aged
    rcases rows_enqueueNew w new with hrows | hrows
    · rw [hrows]
      exact haged
    · rw [hrows, List.map_append]
      refine List.pairwise_append.mpr ⟨haged, List.pairwise_singleton _ _, ?_⟩
      intro created hcreated created' hcreated'
      obtain ⟨row, hrow, rfl⟩ := List.mem_map.mp hcreated
      rw [List.map_singleton, List.mem_singleton] at hcreated'
      subst hcreated'
      exact hclock row hrow
  · unfold World.enqueueNew World.enqueue
    simp only
    split
    · rfl
    · rfl

theorem Delivered.grows {w w' : World} (h : Delivered w) (hg : Grows w w') : Delivered w' := by
  have hrow : ∀ id ∈ delivered w'.trace, ∀ row, w'.outbox.find? id = some row →
      w.outbox.find? id = some row := by
    intro id hid row hrow'
    rw [hg.delivered_eq] at hid
    obtain ⟨row', hrow⟩ := h.stored id hid
    have hsame := hg.kept id row' hrow
    rw [hrow', Option.some.injEq] at hsame
    rwa [hsame]
  refine ⟨fun id hid => ?_, ?_, fun id hid row hr k row' hr' hbefore => ?_⟩
  · rw [hg.delivered_eq] at hid
    obtain ⟨row, hr⟩ := h.stored id hid
    exact ⟨row, hg.kept id row hr⟩
  · rw [hg.delivered_eq] at hrow ⊢
    refine List.Pairwise.imp_of_mem ?_ h.inOrder
    intro later earlier hl he himp row row' hr hr'
    have hr := hrow later hl row hr
    have hr' := hrow earlier he row' hr'
    rw [hg.before_iff hr hr']
    exact himp row row' hr hr'
  · have hold := hrow id hid row hr
    rw [hg.delivered_eq] at hid
    rcases hg.new k row' hr' with hr'' | ⟨_, hnew⟩
    · exact h.ended id hid row hold k row' hr'' ((hg.before_iff hr'' hold).mp hbefore)
    · exact absurd hbefore (hg.not_before hold hnew hr')

/-! ## The rows that are still to come -/

/-- What holds of the pending rows, and of the rest of a batch: the other rows
were enqueued before the pending ones, and the next row of the batch is not
after a pending row that comes after it or is not in the batch. -/
structure Queue (bs : List OutboxEntry) (w : World) : Prop where
  aged : w.Aged
  behind : ∀ id p, w.outbox.find? id = some p → p.status = .pending →
    ∀ k q, w.outbox.find? k = some q → q.status ≠ .pending → w.place k ≤ w.place id
  rows : ∀ b ∈ bs, w.outbox.find? b.id = some b ∧ b.Waits
  nodup : (bs.map OutboxEntry.id).Nodup
  sorted : bs.Pairwise fun b b' => b'.status = .pending → w.place b.id ≤ w.place b'.id
  first : ∀ b ∈ bs, ∀ id p, w.outbox.find? id = some p → p.status = .pending →
    id ∉ bs.map OutboxEntry.id → w.place b.id ≤ w.place id

theorem Queue.grows {bs : List OutboxEntry} {w w' : World} (h : Queue bs w) (hg : Grows w w') :
    Queue bs w' := by
  refine ⟨hg.aged h.aged, ?_, fun b hb => ⟨hg.kept b.id b (h.rows b hb).1, (h.rows b hb).2⟩,
    h.nodup, ?_, ?_⟩
  · intro id p hp hpending k q hq hnot
    have hq : w.outbox.find? k = some q := by
      rcases hg.new k q hq with hq | ⟨hs, _⟩
      · exact hq
      · exact absurd hs hnot
    rcases hg.new id p hp with hp | ⟨_, hnew⟩
    · rw [hg.place hq, hg.place hp]
      exact h.behind id p hp hpending k q hq hnot
    · exact Nat.le_of_lt (place_lt_of_isPrefix hg.ids hnew hq)
  · refine List.Pairwise.imp_of_mem ?_ h.sorted
    intro b b' hb hb' hle hpending
    rw [hg.place (h.rows b hb).1, hg.place (h.rows b' hb').1]
    exact hle hpending
  · intro b hb id p hp hpending hout
    rcases hg.new id p hp with hp | ⟨_, hnew⟩
    · rw [hg.place (h.rows b hb).1, hg.place hp]
      exact h.first b hb id p hp hpending hout
    · exact Nat.le_of_lt (place_lt_of_isPrefix hg.ids hnew (h.rows b hb).1)

/-- The row at the head of the batch is not after any pending row. -/
theorem Queue.head_first {b : OutboxEntry} {bs : List OutboxEntry} {w : World}
    (h : Queue (b :: bs) w) {id : String} {p : OutboxEntry} (hp : w.outbox.find? id = some p)
    (hpending : p.status = .pending) : w.place b.id ≤ w.place id := by
  by_cases hin : id ∈ (b :: bs).map OutboxEntry.id
  · obtain ⟨b', hb', rfl⟩ := List.mem_map.mp hin
    have hrow := (h.rows b' hb').1
    rw [hp, Option.some.injEq] at hrow
    subst hrow
    rcases List.mem_cons.mp hb' with heq | hb'
    · rw [heq]
    · exact (List.pairwise_cons.mp h.sorted).1 p hb' hpending
  · exact h.first b List.mem_cons_self id p hp hpending hin

/-- `w'` is `w` with another status of one row. -/
structure Updated (id : String) (status : OutboxStatus) (w w' : World) : Prop where
  ids : w'.outbox.rows.map OutboxEntry.id = w.outbox.rows.map OutboxEntry.id
  created : w'.outbox.rows.map OutboxEntry.createdAt = w.outbox.rows.map OutboxEntry.createdAt
  others : ∀ k, k ≠ id → w'.outbox.find? k = w.outbox.find? k
  self : ∀ row, w.outbox.find? id = some row → ∃ row', w'.outbox.find? id = some row' ∧
    row'.status = status ∧ row'.routeKey = row.routeKey
  none : w.outbox.find? id = none → w'.outbox.find? id = none
  delivered_eq : delivered w'.trace = delivered w.trace

theorem Updated.place {id : String} {status : OutboxStatus} {w w' : World}
    (h : Updated id status w w') : w'.place = w.place := by
  unfold World.place
  rw [h.ids]

/-- Each row of the new state was there, on the same route. -/
theorem Updated.back {id : String} {status : OutboxStatus} {w w' : World}
    (h : Updated id status w w') {k : String} {row' : OutboxEntry}
    (hrow' : w'.outbox.find? k = some row') :
    ∃ row, w.outbox.find? k = some row ∧ row'.routeKey = row.routeKey ∧
      (k ≠ id → row' = row) ∧ (k = id → row'.status = status) := by
  by_cases hk : k = id
  · subst hk
    cases hrow : w.outbox.find? k with
    | none =>
      rw [h.none hrow] at hrow'
      exact absurd hrow' (by simp)
    | some row =>
      obtain ⟨row'', hrow'', hstatus, hroute⟩ := h.self row hrow
      rw [hrow'', Option.some.injEq] at hrow'
      subst hrow'
      exact ⟨row, rfl, hroute, fun hne => absurd rfl hne, fun _ => hstatus⟩
  · rw [h.others k hk] at hrow'
    exact ⟨row', hrow', rfl, fun _ => rfl, fun heq => absurd heq hk⟩

/-- The order of the messages is that of the rows they were. -/
theorem Updated.before {id : String} {status : OutboxStatus} {w w' : World}
    (h : Updated id status w w') {k k' : String} {row row' old old' : OutboxEntry}
    (hrow : w'.outbox.find? k = some row) (hrow' : w'.outbox.find? k' = some row')
    (hold : w.outbox.find? k = some old) (hold' : w.outbox.find? k' = some old')
    (hroute : row.routeKey = old.routeKey) (hroute' : row'.routeKey = old'.routeKey)
    (hbefore : w'.Before row row') : w.Before old old' := by
  obtain rfl : row.id = k := KeyedTable.key_of_find? hrow
  obtain rfl : row'.id = k' := KeyedTable.key_of_find? hrow'
  have hid : old.id = row.id := KeyedTable.key_of_find? hold
  have hid' : old'.id = row'.id := KeyedTable.key_of_find? hold'
  unfold World.Before at hbefore ⊢
  rw [hid, hid', ← hroute, ← hroute', ← h.place]
  exact hbefore

theorem Updated.forth {id : String} {status : OutboxStatus} {w w' : World}
    (h : Updated id status w w') {k : String} {row : OutboxEntry}
    (hrow : w.outbox.find? k = some row) : ∃ row', w'.outbox.find? k = some row' := by
  by_cases hk : k = id
  · subst hk
    obtain ⟨row', hrow', _⟩ := h.self row hrow
    exact ⟨row', hrow'⟩
  · exact ⟨row, (h.others k hk).trans hrow⟩

/-- A row that is not over changes its status. -/
theorem Delivered.updated {id : String} {status : OutboxStatus} {w w' : World} (h : Delivered w)
    (hu : Updated id status w w')
    (hnot : ∀ row, w.outbox.find? id = some row → ¬ row.Over) : Delivered w' := by
  refine ⟨fun k hk => ?_, ?_, fun k hk row hrow k' row' hrow' hb => ?_⟩
  · rw [hu.delivered_eq] at hk
    obtain ⟨row, hrow⟩ := h.stored k hk
    exact hu.forth hrow
  · rw [hu.delivered_eq]
    refine h.inOrder.imp ?_
    intro later earlier himp row row' hrow hrow' hb
    obtain ⟨old, hold, hr, _⟩ := hu.back hrow
    obtain ⟨old', hold', hr', _⟩ := hu.back hrow'
    exact himp old old' hold hold' (hu.before hrow hrow' hold hold' hr hr' hb)
  · rw [hu.delivered_eq] at hk
    obtain ⟨old, hold, hr, _⟩ := hu.back hrow
    obtain ⟨old', hold', hr', hsame, _⟩ := hu.back hrow'
    have hover := h.ended k hk old hold k' old' hold' (hu.before hrow' hrow hold' hold hr' hr hb)
    by_cases hid : k' = id
    · subst hid
      exact absurd hover (hnot old' hold')
    · rwa [hsame hid]

section UpdateQueue

variable {b : OutboxEntry} {bs : List OutboxEntry} {id : String} {status : OutboxStatus}
  {w w' : World}

/-- A row that is pending after the update was so before. -/
theorem Updated.pending (hu : Updated id status w w') (hstatus : status ≠ .pending) {k : String}
    {p : OutboxEntry} (hp : w'.outbox.find? k = some p) (hpending : p.status = .pending) :
    k ≠ id ∧ w.outbox.find? k = some p := by
  obtain ⟨old, hold, _, hsame, hself⟩ := hu.back hp
  have hk : k ≠ id := fun heq => hstatus ((hself heq).symm.trans hpending)
  rw [hsame hk]
  exact ⟨hk, hold⟩

/-- A row that comes before every pending one stops being pending. -/
theorem Queue.behind_updated (h : Queue bs w) (hu : Updated id status w w')
    (hstatus : status ≠ .pending)
    (hfirst : ∀ row, w.outbox.find? id = some row → ∀ k p, w.outbox.find? k = some p →
      p.status = .pending → w.place id ≤ w.place k) :
    ∀ k p, w'.outbox.find? k = some p → p.status = .pending →
      ∀ k' q, w'.outbox.find? k' = some q → q.status ≠ .pending → w'.place k' ≤ w'.place k := by
  intro k p hp hpending k' q hq hnot
  obtain ⟨_, hp⟩ := hu.pending hstatus hp hpending
  obtain ⟨old, hold, _, hsame, _⟩ := hu.back hq
  rw [hu.place]
  by_cases hk : k' = id
  · subst hk
    exact hfirst old hold k p hp hpending
  · rw [hsame hk] at hnot
    exact h.behind k p hp hpending k' old hold hnot

theorem Queue.aged_updated (h : Queue bs w) (hu : Updated id status w w') : w'.Aged := by
  unfold World.Aged
  rw [hu.created]
  exact h.aged

/-- The head of the batch is marked. -/
theorem Queue.mark (h : Queue (b :: bs) w) (hu : Updated b.id status w w')
    (hstatus : status ≠ .pending) : Queue bs w' := by
  have hrow := (h.rows b List.mem_cons_self).1
  have hnodup := List.nodup_cons.mp h.nodup
  refine ⟨h.aged_updated hu, h.behind_updated hu hstatus fun row _ k p hp hpending => ?_,
    fun b' hb' => ⟨?_, ?_⟩, hnodup.2, ?_, fun b' hb' k p hp hpending hout => ?_⟩
  · exact h.head_first hp hpending
  · have hne : b'.id ≠ b.id := fun heq => hnodup.1 (heq ▸ List.mem_map_of_mem hb')
    rw [hu.others b'.id hne]
    exact (h.rows b' (List.mem_cons_of_mem b hb')).1
  · exact (h.rows b' (List.mem_cons_of_mem b hb')).2
  · rw [hu.place]
    exact (List.pairwise_cons.mp h.sorted).2
  · obtain ⟨hk, hp⟩ := hu.pending hstatus hp hpending
    rw [hu.place]
    refine h.first b' (List.mem_cons_of_mem b hb') k p hp hpending ?_
    simpa [hk] using hout

/-- A row that is not in the rest of the batch, and not pending, gets another
status. -/
theorem Queue.settle (h : Queue bs w) (hu : Updated id status w w') (hstatus : status ≠ .pending)
    (hout : id ∉ bs.map OutboxEntry.id)
    (hnot : ∀ row, w.outbox.find? id = some row → row.status ≠ .pending) : Queue bs w' := by
  refine ⟨h.aged_updated hu, h.behind_updated hu hstatus fun row hr k p hp hpending => ?_,
    fun b hb => ⟨?_, (h.rows b hb).2⟩, h.nodup, ?_, fun b hb k p hp hpending hk => ?_⟩
  · exact h.behind k p hp hpending id row hr (hnot row hr)
  · have hne : b.id ≠ id := fun heq => hout (heq ▸ List.mem_map_of_mem hb)
    rw [hu.others b.id hne]
    exact (h.rows b hb).1
  · rw [hu.place]
    exact h.sorted
  · rw [hu.place]
    exact h.first b hb k p (hu.pending hstatus hp hpending).2 hpending hk

end UpdateQueue

/-! ## Between two rows of a batch, and while a row is marked -/

/-- No row is marked as `sending`, and the rest of the batch is `bs`. -/
structure Ready (bs : List OutboxEntry) (w : World) : Prop where
  delivered : Delivered w
  calm : ∀ id row, w.outbox.find? id = some row → row.status ≠ .sending
  queue : Queue bs w

/-- The row of `b` is marked as `sending`, and every earlier message of its
route is over. -/
structure Marked (b : OutboxEntry) (bs : List OutboxEntry) (w : World) : Prop where
  delivered : Delivered w
  row : ∃ row, w.outbox.find? b.id = some row ∧ row.status = .sending ∧ row.routeKey = b.routeKey
  alone : ∀ id row, w.outbox.find? id = some row → row.status = .sending → id = b.id
  clear : ∀ k row, w.outbox.find? k = some row → w.Before row b → row.Over
  queue : Queue bs w
  out : b.id ∉ bs.map OutboxEntry.id

/-- The row of a message on its route comes after the same rows. -/
theorem World.before_congr {w : World} {b row row' : OutboxEntry}
    (hrow : w.outbox.find? b.id = some row) (hroute : row.routeKey = b.routeKey) :
    w.Before row' row ↔ w.Before row' b := by
  have hid : row.id = b.id := KeyedTable.key_of_find? hrow
  unfold World.Before
  rw [hid, hroute]

section Batch

variable {b : OutboxEntry} {bs : List OutboxEntry} {w w' : World}

theorem Ready.grows (h : Ready bs w) (hg : Grows w w') : Ready bs w' := by
  refine ⟨h.delivered.grows hg, fun id row hrow => ?_, h.queue.grows hg⟩
  rcases hg.new id row hrow with hrow | ⟨hpending, _⟩
  · exact h.calm id row hrow
  · rw [hpending]
    decide

theorem Marked.grows (h : Marked b bs w) (hg : Grows w w') : Marked b bs w' := by
  obtain ⟨row, hrow, hstatus, hroute⟩ := h.row
  have hrow' := hg.kept b.id row hrow
  refine ⟨h.delivered.grows hg, ⟨row, hrow', hstatus, hroute⟩, fun id r hr hs => ?_,
    fun k r hr hbefore => ?_, h.queue.grows hg, h.out⟩
  · rcases hg.new id r hr with hr | ⟨hpending, _⟩
    · exact h.alone id r hr hs
    · rw [hpending] at hs
      exact absurd hs (by decide)
  · have hbefore := (World.before_congr hrow' hroute).mpr hbefore
    rcases hg.new k r hr with hold | ⟨_, hnew⟩
    · apply h.clear k r hold
      exact (World.before_congr hrow hroute).mp ((hg.before_iff hold hrow).mp hbefore)
    · exact absurd hbefore (hg.not_before hrow hnew hr)

/-- The outbox and the trace are all that is spoken of. -/
theorem Ready.congr (h : Ready bs w) (houtbox : w'.outbox = w.outbox) (htrace : w'.trace = w.trace) :
    Ready bs w' := by
  obtain ⟨outbox, deadLetter, audit, trace⟩ := w
  obtain ⟨outbox', deadLetter', audit', trace'⟩ := w'
  cases houtbox
  cases htrace
  exact ⟨⟨h.delivered.stored, h.delivered.inOrder, h.delivered.ended⟩, h.calm,
    ⟨h.queue.aged, h.queue.behind, h.queue.rows, h.queue.nodup, h.queue.sorted, h.queue.first⟩⟩

/-- The head of the batch is marked, when no earlier message of its route waits
for a retry. -/
theorem Ready.mark (h : Ready (b :: bs) w) (hturn : ¬ w.Overtakes b.id)
    (hu : Updated b.id .sending w w') : Marked b bs w' := by
  obtain ⟨hrow, hwaits⟩ := h.queue.rows b List.mem_cons_self
  obtain ⟨row, hrow', hstatus, hroute⟩ := hu.self b hrow
  have hlive : ∀ r, w.outbox.find? b.id = some r → ¬ r.Over := by
    intro r hr hover
    rw [hrow, Option.some.injEq] at hr
    subst hr
    unfold OutboxEntry.Waits at hwaits
    unfold OutboxEntry.Over at hover
    rcases hwaits with hs | hs <;> rw [hs] at hover <;> exact absurd hover (by decide)
  refine ⟨h.delivered.updated hu hlive, ⟨row, hrow', hstatus, hroute⟩,
    fun id r hr hs => ?_, fun k r hr hbefore => ?_, h.queue.mark hu (by decide),
    (List.nodup_cons.mp h.queue.nodup).1⟩
  · obtain ⟨old, hold, _, hsame, _⟩ := hu.back hr
    by_contra hne
    rw [hsame hne] at hs
    exact h.calm id old hold hs
  · obtain ⟨old, hold, hroute', hsame, _⟩ := hu.back hr
    have hbefore : w.Before old b :=
      hu.before hr hrow' hold hrow hroute' hroute ((World.before_congr hrow' hroute).mpr hbefore)
    have hold' : w.outbox.find? old.id = some old := by
      rwa [show old.id = k from KeyedTable.key_of_find? hold]
    have hk : k ≠ b.id := by
      rintro rfl
      rw [hrow, Option.some.injEq] at hold
      rw [hold] at hbefore
      exact Nat.lt_irrefl _ hbefore.2
    rw [hsame hk]
    -- it is not pending, not marked, and does not wait for a retry
    cases hs : old.status with
    | pending => exact absurd hbefore.2 (Nat.not_lt.mpr (h.queue.head_first hold' hs))
    | sending => exact absurd hs (h.calm k old hold)
    | retrying =>
      obtain ⟨hmem, _⟩ := KeyedTable.find?_eq_some_iff.mp hold
      obtain ⟨hmem', _⟩ := KeyedTable.find?_eq_some_iff.mp hrow
      exact absurd ⟨b, hmem', rfl, old, hmem, hs, hbefore⟩ hturn
    | sent => exact Or.inl hs
    | deadLetter => exact Or.inr hs

/-- The message is passed to the channel. -/
theorem Marked.attempt (h : Marked b bs w) (success : Bool) :
    Marked b bs { w with trace := .attempted b.id success :: w.trace } := by
  obtain ⟨row, hrow, hstatus, hroute⟩ := h.row
  have hlive : ¬ row.Over := by
    unfold OutboxEntry.Over
    rw [hstatus]
    decide
  have hq : ∀ trace, Queue bs { w with trace := trace } := fun _ =>
    ⟨h.queue.aged, h.queue.behind, h.queue.rows, h.queue.nodup, h.queue.sorted, h.queue.first⟩
  refine ⟨?_, ⟨row, hrow, hstatus, hroute⟩, h.alone, h.clear, hq _, h.out⟩
  cases success with
  | false => exact ⟨h.delivered.stored, h.delivered.inOrder, h.delivered.ended⟩
  | true =>
    constructor
    · intro id hid
      rcases List.mem_cons.mp hid with rfl | hid
      · exact ⟨row, hrow⟩
      · exact h.delivered.stored id hid
    · refine List.pairwise_cons.mpr ⟨fun earlier he r r' hr hr' hb => ?_, h.delivered.inOrder⟩
      -- what is before a delivered message is over, and `b` is not
      have hover := h.delivered.ended earlier he r' hr' b.id r hr hb
      rw [hrow, Option.some.injEq] at hr
      exact hlive (hr ▸ hover)
    · intro id hid r hr k r' hr' hb
      rcases List.mem_cons.mp hid with rfl | hid
      · obtain rfl : row = r := Option.some.inj (hrow.symm.trans hr)
        exact h.clear k r' hr' ((World.before_congr hrow hroute).mp hb)
      · exact h.delivered.ended id hid r hr k r' hr' hb

/-- The outcome of the send is written down. -/
theorem Marked.settle (h : Marked b bs w) {status : OutboxStatus}
    (hu : Updated b.id status w w') (hpending : status ≠ .pending) (hsending : status ≠ .sending) :
    Ready bs w' := by
  obtain ⟨row, hrow, hstatus, _⟩ := h.row
  have hself : ∀ r, w.outbox.find? b.id = some r → r.status = .sending := by
    intro r hr
    rw [hrow, Option.some.injEq] at hr
    rw [← hr, hstatus]
  refine ⟨h.delivered.updated hu fun r hr => ?_, fun id r hr hs => ?_,
    h.queue.settle hu hpending h.out fun r hr => ?_⟩
  · unfold OutboxEntry.Over
    rw [hself r hr]
    decide
  · obtain ⟨old, hold, _, hsame, hnew⟩ := hu.back hr
    by_cases hid : id = b.id
    · exact hsending ((hnew hid).symm.trans hs)
    · rw [hsame hid] at hs
      exact hid (h.alone id old hold hs)
  · rw [hself r hr]
    decide

end Batch

/-! ## The loop -/

/-- A column that the update of a row leaves. -/
theorem map_updateRow {γ : Type} (w : World) (id : String) {f : OutboxEntry → OutboxEntry}
    {hf : ∀ row, (f row).id = row.id} {column : OutboxEntry → γ}
    (hcolumn : ∀ row, column (f row) = column row) :
    (w.updateRow id f hf).outbox.rows.map column = w.outbox.rows.map column := by
  show (w.outbox.rows.map fun row => if row.id = id then f row else row).map column = _
  rw [List.map_map]
  refine List.map_congr_left fun row _ => ?_
  show column (if row.id = id then f row else row) = column row
  split
  · exact hcolumn row
  · rfl

theorem updated_updateRow (w : World) (id : String) {status : OutboxStatus}
    {f : OutboxEntry → OutboxEntry} {hf : ∀ row, (f row).id = row.id}
    (hstatus : ∀ row, (f row).status = status) (hroute : ∀ row, (f row).routeKey = row.routeKey)
    (hcreated : ∀ row, (f row).createdAt = row.createdAt) :
    Updated id status w (w.updateRow id f hf) := by
  refine ⟨map_updateRow w id hf, map_updateRow w id hcreated,
    fun k hk => find?_updateRow_of_ne w id f hf hk, fun row hrow => ?_, fun hnone => ?_, rfl⟩
  · exact ⟨f row, find?_updateRow_self w id f hf hrow, hstatus row, hroute row⟩
  · unfold World.updateRow
    rw [KeyedTable.find?_update, if_pos rfl, hnone]
    rfl

/-- The loop among the enqueues. -/
def amongEnqueues : Surroundings Call World Outcome := ⟨MarksInTurn, Grows, Delivered⟩

theorem amongEnqueues_lawful : amongEnqueues.Lawful :=
  ⟨Grows.refl, fun _ _ _ => Grows.trans, fun _ _ => Delivered.grows⟩

section Programs

variable {retry : RetryConfig} {b : OutboxEntry} {bs : List OutboxEntry} {w : World}

theorem statement_working {α : Type} {o : Outcome} (h : o.fault = none) (w : World) (a : α)
    (w' : World) : statement w o a w' = (.ok a, w') := by
  rw [statement, h]

theorem wpi_record (h : Ready bs w) (routeKey : Option String) (action result : String) :
    wpi handle amongEnqueues (fun _ => Ready bs) (record routeKey action result) w := by
  refine wpi_call_iff.mpr ⟨h.delivered, fun t ht o _ => wpi_ret_iff.mpr ?_⟩
  have hr : Ready bs (handle t o (.record routeKey action result)).2 := (h.grows ht).congr rfl rfl
  exact ⟨hr.delivered, fun u hu => hr.grows hu⟩

/-- The outcome is written to the row, and then to the audit log. -/
theorem wpi_scheduleRetry (h : Marked b bs w) (newCount : UInt32) (err : String) :
    wpi handle amongEnqueues (fun _ => Ready bs) (scheduleRetry retry b newCount err) w := by
  unfold scheduleRetry
  apply wpi_perform_bind h.delivered
  intro t ht o _
  have h := h.grows ht
  apply wpi_perform_bind h.delivered
  intro t' ht' o' ho'
  have h := h.grows ht'
  have ho' : o'.fault = none := ho'
  simp only [handle, statement_working ho']
  apply wpi_record
  exact h.settle (updated_updateRow t' b.id (fun _ => rfl) (fun _ => rfl) fun _ => rfl) (by decide)
    (by decide)

theorem wpi_moveToDeadLetter (h : Marked b bs w) (newCount : UInt32) (err : String) :
    wpi handle amongEnqueues (fun _ => Ready bs) (moveToDeadLetter b newCount err) w := by
  unfold moveToDeadLetter
  apply wpi_perform_bind h.delivered
  intro t ht o ho
  have h := h.grows ht
  have ho : o.fault = none := ho
  simp only [handle, statement_working ho]
  have h : Ready bs (t.updateRow b.id (.setStatus .deadLetter (some err) o.seconds)
      (OutboxEntry.setStatus_id .deadLetter (some err) o.seconds)) :=
    h.settle (updated_updateRow t b.id (fun _ => rfl) (fun _ => rfl) fun _ => rfl) (by decide)
      (by decide)
  apply wpi_perform_bind h.delivered
  intro t' ht' o' _
  have h := h.grows ht'
  apply wpi_perform_bind h.delivered
  intro t'' ht'' o'' _
  apply wpi_record
  have h := h.grows ht''
  simp only [handle]
  split
  · exact h
  · unfold statement
    split
    · exact h
    · exact h.congr rfl rfl

theorem wpi_deliver (h : Ready (b :: bs) w) :
    wpi handle amongEnqueues (fun _ => Ready bs) (deliver retry b) w := by
  unfold deliver
  apply wpi_perform_bind h.delivered
  intro t ht o ho
  have h := h.grows ht
  obtain ⟨hworks, hturn⟩ : o.fault = none ∧ ¬ t.Overtakes b.id := ho
  simp only [handle, statement_working hworks]
  have h : Marked b bs (t.updateRow b.id (.setStatus .sending none o.seconds)
      (OutboxEntry.setStatus_id .sending none o.seconds)) :=
    h.mark hturn (updated_updateRow t b.id (fun _ => rfl) (fun _ => rfl) fun _ => rfl)
  apply wpi_perform_bind h.delivered
  intro t' ht' o' _
  have h := h.grows ht'
  cases hsend : o'.fault with
  | none =>
    simp only [handle, hsend]
    have h := h.attempt true
    apply wpi_perform_bind h.delivered
    intro t'' ht'' o'' ho''
    have h := h.grows ht''
    have ho'' : o''.fault = none := ho''
    apply wpi_record
    simp only [handle, statement_working ho'']
    exact h.settle (updated_updateRow t'' b.id (fun _ => rfl) (fun _ => rfl) fun _ => rfl)
      (by decide) (by decide)
  | some err =>
    simp only [handle, hsend]
    have h := h.attempt false
    split
    · exact wpi_moveToDeadLetter h _ err
    · exact wpi_scheduleRetry h _ err

theorem wpi_deliver_all (h : Ready bs w) :
    wpi handle amongEnqueues (fun _ => Ready []) (.forEach (deliver retry) bs) w :=
  wpi_forEach amongEnqueues_lawful (fun _ _ _ => wpi_deliver) (fun _ h => h.delivered)
    (fun _ _ h ht => h.grows ht) bs h

/-- Where the table is in the order of `created_at`, the pending rows are
fetched in the order of the table. -/
theorem pairwise_pendingRows (h : w.Aged) :
    w.pendingRows.Pairwise fun r r' => w.place r.id ≤ w.place r'.id := by
  have hsorted : (w.outbox.select fun row => row.status = .pending).Pairwise
      fun r r' => r.createdAt ≤ r'.createdAt :=
    (List.pairwise_map.mp h).sublist List.filter_sublist
  unfold World.pendingRows
  rw [hsorted.insertionSort_eq]
  exact ((pairwise_place w).sublist List.filter_sublist).imp Nat.le_of_lt

/-- The oldest pending rows are a batch. -/
theorem Ready.pendingBatch (h : Ready [] w) (batchSize : UInt64) :
    Ready (limitRows batchSize w.pendingRows) w := by
  have hmem : ∀ row, row ∈ w.pendingRows ↔
      w.outbox.find? row.id = some row ∧ row.status = .pending := by
    intro row
    rw [World.pendingRows, mem_orderedSelect]
    simp
  obtain ⟨rest, hrest⟩ := exists_limitRows_append batchSize w.pendingRows
  have hsorted := pairwise_pendingRows h.queue.aged
  rw [hrest, List.pairwise_append] at hsorted
  refine ⟨h.delivered, h.calm, h.queue.aged, h.queue.behind, fun b hb => ?_,
    nodup_limitRows (nodup_orderedSelect _ _ _), ?_, fun b hb id p hp hpending hout => ?_⟩
  · obtain ⟨hrow, hpending⟩ := (hmem b).mp (mem_limitRows hb)
    exact ⟨hrow, Or.inl hpending⟩
  · refine List.Pairwise.imp ?_ hsorted.1
    intro b b' hle _
    exact hle
  · -- what is pending and was not fetched comes after what was
    have hid : p.id = id := KeyedTable.key_of_find? hp
    subst hid
    have hp : p ∈ limitRows batchSize w.pendingRows ++ rest := by
      rw [← hrest]
      exact (hmem p).mpr ⟨hp, hpending⟩
    rcases List.mem_append.mp hp with hin | hin
    · exact absurd (List.mem_map_of_mem hin) hout
    · exact hsorted.2.2 b hb p hin

/-- Rows that wait for a retry are a batch, in any order. -/
theorem Ready.retryBatch (h : Ready [] w) (nowTs : Int64) (batchSize : UInt64) :
    Ready (limitRows batchSize (w.retryableRows nowTs)) w := by
  have hrow : ∀ b ∈ limitRows batchSize (w.retryableRows nowTs),
      w.outbox.find? b.id = some b ∧ b.status = .retrying := by
    intro b hb
    obtain ⟨hfind, hstatus⟩ := mem_orderedSelect.mp (mem_limitRows hb)
    rw [Bool.and_eq_true] at hstatus
    exact ⟨hfind, by simpa using hstatus.1⟩
  refine ⟨h.delivered, h.calm, h.queue.aged, h.queue.behind,
    fun b hb => ⟨(hrow b hb).1, Or.inr (hrow b hb).2⟩,
    nodup_limitRows (nodup_orderedSelect _ _ _), ?_, fun b hb id p hp hpending _ => ?_⟩
  · refine List.Pairwise.imp_of_mem ?_ (List.pairwise_of_forall fun _ _ => trivial)
    intro b b' _ hb' _ hpending
    rw [(hrow b' hb').2] at hpending
    exact absurd hpending (by decide)
  · refine h.queue.behind id p hp hpending b.id b (hrow b hb).1 ?_
    rw [(hrow b hb).2]
    decide

theorem wpi_processPending (h : Ready [] w) (batchSize : UInt64) :
    wpi handle amongEnqueues (fun _ => Ready []) (processPending retry batchSize) w := by
  unfold processPending
  apply wpi_perform_bind h.delivered
  intro t ht o ho
  have ho : o.fault = none := ho
  simp only [handle, statement_working ho]
  exact wpi_deliver_all ((h.grows ht).pendingBatch batchSize)

theorem wpi_processRetries (h : Ready [] w) (batchSize : UInt64) :
    wpi handle amongEnqueues (fun _ => Ready []) (processRetries retry batchSize) w := by
  unfold processRetries
  apply wpi_perform_bind h.delivered
  intro t ht o _
  have h := h.grows ht
  apply wpi_perform_bind h.delivered
  intro t' ht' o' ho'
  have ho' : o'.fault = none := ho'
  simp only [handle, statement_working ho']
  exact wpi_deliver_all ((h.grows ht').retryBatch o.millis batchSize)

theorem wpi_tick (h : Ready [] w) (batchSize : UInt64) :
    wpi handle amongEnqueues (fun _ => Ready []) (tick retry batchSize) w :=
  wpi_bind amongEnqueues_lawful
    (wpi_mono (fun _ _ h => wpi_processRetries h batchSize) (wpi_processPending h batchSize))

end Programs

/-! ## Runs -/

/-- One loop over the outbox, and enqueues at any time. -/
def Loop.step (retry : RetryConfig) : Solo Call.Reply World → Turn UInt64 NewMessage Outcome →
    Option (Solo Call.Reply World) :=
  Solo.step handle (tick retry) World.enqueueNew

/-- A step is one that the order can stand. -/
abbrev InTurn : Solo Call.Reply World → Turn UInt64 NewMessage Outcome → Prop :=
  Solo.Meets MarksInTurn ClockGoesOn

/-- In every run of the loop in which only sends fail, messages are enqueued
with a `created_at` that does not go back, and no message is marked as
`sending` while an earlier one of its route waits for a retry, the messages of
every route are delivered in the order in which they were enqueued. -/
theorem route_in_order (retry : RetryConfig) {turns : List (Turn UInt64 NewMessage Outcome)}
    {s : Solo Call.Reply World} (hrun : run (Loop.step retry) (.init World.init) turns = some s)
    (hturn : EveryStep (Loop.step retry) InTurn (.init World.init) turns) :
    RouteOrder s.shared := by
  have hinit : Ready [] World.init := by
    refine ⟨⟨?_, List.Pairwise.nil, ?_⟩, ?_, List.Pairwise.nil, ?_, ?_, List.nodup_nil,
      List.Pairwise.nil, ?_⟩ <;>
      simp [World.init, delivered]
  have halways : amongEnqueues.always s.shared :=
    run_always amongEnqueues_lawful (fun _ _ => grows_enqueueNew)
      (fun batchSize _ h => wpi_tick h batchSize) (fun _ _ h ht => h.grows ht) (fun _ h => h.delivered) hinit hrun hturn
  exact Delivered.routeOrder halways

instance (w : World) (row row' : OutboxEntry) : Decidable (w.Before row row') :=
  inferInstanceAs (Decidable (row.routeKey = row'.routeKey ∧ w.place row.id < w.place row'.id))

instance (w : World) (id : String) : Decidable (w.Overtakes id) :=
  inferInstanceAs (Decidable (∃ row ∈ w.outbox.rows, row.id = id ∧
    ∃ row' ∈ w.outbox.rows, row'.status = .retrying ∧ w.Before row' row))

instance (w : World) (c : Call) (o : Outcome) : Decidable (MarksInTurn w c o) :=
  match c with
  | .send _ => isTrue trivial
  | .markStatus id .sending _ => inferInstanceAs (Decidable (o.fault = none ∧ ¬ w.Overtakes id))
  | .markStatus _ .pending _ | .markStatus _ .sent _ | .markStatus _ .retrying _
  | .markStatus _ .deadLetter _ | .fetchPending _ | .fetchRetryable _ _ | .fetchInFlight
  | .markRetrying _ _ _ _ | .insertDeadLetter _ | .selectDeadLetter _ | .deleteDeadLetter _
  | .selectRouteKey _ | .resetForReplay _ _ _ | .insertReplayed _ _ _ | .record _ _ _
  | .timestamp | .timestampMillis => inferInstanceAs (Decidable (o.fault = none))

instance (w : World) (new : NewMessage) : Decidable (ClockGoesOn w new) :=
  inferInstanceAs (Decidable (∀ row ∈ w.outbox.rows, row.createdAt ≤ new.nowTs))

/-- Three messages of a route: the first one is delivered on its retry, and the
other two are enqueued after that, in one second. -/
def retriedAndThenNext : List (Turn UInt64 NewMessage Outcome) :=
  [.other ⟨"m1", "wechat/c1", "hi", 1700000000⟩, .start 64, .call works, .call works,
    .call (fails "timeout"), .call works, .call works, .call works,
    .call (.working 1700000060 1700000060000), .call works, .call works, .call works, .call works,
    .call works, .other ⟨"m2", "wechat/c1", "there", 1700000090⟩,
    .other ⟨"m3", "wechat/c1", "again", 1700000090⟩, .start 64, .call works, .call works,
    .call works, .call works, .call works, .call works, .call works, .call works, .call works]

theorem retriedAndThenNext_in_order :
    RouteOrder ((run (Loop.step fiveRetries) (.init World.init) retriedAndThenNext).get
      (by decide +kernel)).shared :=
  route_in_order fiveRetries (Option.some_get _).symm (by decide +kernel)

/-! ## A message that overtakes -/

/-- Only sends fail. -/
def OnlySendsFail (_ : World) : Call → Outcome → Prop
  | .send _, _ => True
  | _, o => o.fault = none

instance (w : World) (c : Call) (o : Outcome) : Decidable (OnlySendsFail w c o) := by
  unfold OnlySendsFail
  split <;> infer_instance

def RoutesInOrder : Prop :=
  ∀ (retry : RetryConfig) (turns : List (Turn UInt64 NewMessage Outcome))
    (s : Solo Call.Reply World), run (Loop.step retry) (.init World.init) turns = some s →
    EveryStep (Loop.step retry) (Solo.Meets OnlySendsFail ClockGoesOn) (.init World.init) turns →
    RouteOrder s.shared

theorem RouteOrder.not_overtakes {w : World} (h : RouteOrder w) {id : String}
    (hid : id ∈ delivered w.trace) : ¬ w.Overtakes id := by
  intro ho
  obtain ⟨row, hrow, rfl, row', hrow', hretrying, hbefore⟩ := ho
  exact h.noneWaits row.id hid row (KeyedTable.find?_eq_some_iff.mpr ⟨hrow, rfl⟩) row'.id row'
    (KeyedTable.find?_eq_some_iff.mpr ⟨hrow', rfl⟩) hbefore hretrying

/-- Two messages of a route are fetched, and the send of the first one fails. -/
def firstFails : List (Turn UInt64 NewMessage Outcome) :=
  [.other ⟨"m1", "wechat/c1", "hi", 1700000000⟩, .other ⟨"m2", "wechat/c1", "there", 1700000001⟩,
    .start 64, .call works, .call works, .call (fails "timeout"), .call works, .call works,
    .call works, .call works, .call works]

/-- The second message is delivered while the first one waits for its retry. -/
theorem not_routesInOrder : ¬ RoutesInOrder := by
  intro h
  have hmeets : EveryStep (Loop.step fiveRetries) (Solo.Meets OnlySendsFail ClockGoesOn)
      (.init World.init) firstFails := by
    decide +kernel
  refine (h fiveRetries firstFails (Option.get _ ?_) (Option.some_get _).symm hmeets).not_overtakes
    (?_ : "m2" ∈ _) ?_
  · decide +kernel
  · decide +kernel
  · decide +kernel

end MagicLaw.Outbox
