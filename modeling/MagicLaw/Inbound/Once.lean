import MagicLaw.Inbound.Gate
import MagicLaw.Lib.Tasks

/-!
# Racing deliveries

Any number of deliveries run at once, each `handleInbound` of its message, and
their calls interleave.  As long as no entry of the cache expires, at most one
of them enqueues the message: `check_and_set` is one call, it yields true only
for a key that the cache does not have, and a delivery enqueues right after it
got true (`enqueued_once`).

The table alone would not do: two deliveries may both look the message up
before either inserts it.
-/

namespace MagicLaw.Inbound

open Lib Lib.Program Lib.Machine Lib.Tasks
open MagicLaw.Routing (ChannelId RouteKey Message)

/-- The deliveries that run, over the filters they share.  Nothing else
happens to the filters. -/
def Deliveries.step : Pool Call.Reply Answer World → Move Message Empty Outcome →
    Option (Pool Call.Reply Answer World) :=
  Pool.step handle handleInbound Empty.elim

/-- The process starts with the table that its predecessors left. -/
def Deliveries.init (inbox : KeyedTable InboxEntry.id) : Pool Call.Reply Answer World :=
  .init ⟨inbox, KeyedTable.empty, []⟩

/-- An enqueue of a message acts on its key, and `check_and_set` claims it. -/
def onceDiscipline : Discipline Call.Reply World String where
  legal _ := True
  acts
    | .enqueue _ msg => some (dedupEntry msg).key
    | _ => none
  won
    | .checkAndSet channel msgId, true => some (DedupEntry.key ⟨channel, msgId⟩)
    | _, _ => none
  claimed w k := (w.dedup.find? k).isSome
  count w k := w.enqueued.countP fun msg => (dedupEntry msg).key = k

/-! ## The deliveries keep to the discipline -/

theorem guarded_processInbound (msg : Message) :
    Guarded onceDiscipline none (processInbound msg) := by
  unfold processInbound call
  refine guarded_perform_bind trivial rfl fun r _ => ?_
  match r with
  | .error e => trivial
  | .ok true => trivial
  | .ok false =>
    refine guarded_perform_bind trivial rfl fun now _ => ?_
    refine guarded_perform_bind trivial rfl fun r _ => ?_
    match r with
    | .error e => trivial
    | .ok () =>
      refine guarded_perform_bind trivial rfl fun r _ => ?_
      match r with
      | .error e => trivial
      | .ok () =>
        refine guarded_perform_bind trivial rfl fun r _ => ?_
        match r with
        | .error e => trivial
        | .ok () => trivial

/-- The enqueue comes right after a `check_and_set` that yielded true. -/
theorem guarded_routeMessage (msg : Message) : Guarded onceDiscipline none (routeMessage msg) := by
  unfold routeMessage call
  refine guarded_perform_bind trivial rfl fun isNew _ => ?_
  match isNew with
  | false => trivial
  | true =>
    refine guarded_act_bind trivial rfl fun r _ => ?_
    match r with
    | .error full => trivial
    | .ok () => trivial

theorem guarded_handleInbound (msg : Message) :
    Guarded onceDiscipline none (handleInbound msg) := by
  unfold handleInbound
  refine guarded_bind (guarded_processInbound msg) fun r => ?_
  match r with
  | .error e => trivial
  | .ok .duplicate => trivial
  | .ok .processed =>
    refine guarded_bind (guarded_routeMessage msg) fun r => ?_
    match r with
    | .enqueued => trivial
    | .duplicate => trivial
    | .dropped messageId => trivial

/-- A statement leaves the cache and the conversations as they are. -/
theorem statement_shared {α : Type} (w : World) (o : Outcome) (a : α) {w' : World}
    (hdedup : w'.dedup = w.dedup) (henqueued : w'.enqueued = w.enqueued) :
    (statement w o a w').2.dedup = w.dedup ∧ (statement w o a w').2.enqueued = w.enqueued := by
  unfold statement
  cases o.fault with
  | some e => exact ⟨rfl, rfl⟩
  | none => exact ⟨hdedup, henqueued⟩

/-- What a call does to the cache and the conversations. -/
theorem handle_shared (w : World) (o : Outcome) (c : Call) :
    ((handle w o c).2.dedup = w.dedup ∧ (handle w o c).2.enqueued = w.enqueued ∧
      onceDiscipline.won c (handle w o c).1 = none) ∨
    (∃ entry : DedupEntry, ∃ hfree : w.dedup.find? entry.key = none,
      (handle w o c).2.dedup = w.dedup.append entry hfree ∧
      (handle w o c).2.enqueued = w.enqueued ∧
      onceDiscipline.won c (handle w o c).1 = some entry.key) ∨
    (∃ key msg, c = .enqueue key msg ∧ (handle w o c).2.dedup = w.dedup ∧
      (handle w o c).2.enqueued = msg :: w.enqueued ∧
      onceDiscipline.won c (handle w o c).1 = none) := by
  cases c with
  | inboxExists id =>
    obtain ⟨hdedup, henqueued⟩ := statement_shared w o (w.inbox.find? id).isSome (Eq.refl w.dedup) rfl
    exact Or.inl ⟨hdedup, henqueued, rfl⟩
  | inboxInsert entry =>
    have hshared := statement_shared w o () (show (w.insert entry).dedup = w.dedup from rfl) rfl
    exact Or.inl ⟨hshared.1, hshared.2, rfl⟩
  | inboxMarkStatus id status =>
    have hshared := statement_shared w o ()
      (show (w.markStatus id status o.seconds).dedup = w.dedup from rfl) rfl
    exact Or.inl ⟨hshared.1, hshared.2, rfl⟩
  | timestamp => exact Or.inl ⟨rfl, rfl, rfl⟩
  | checkAndSet channel msgId =>
    by_cases hfree : w.dedup.find? (DedupEntry.key ⟨channel, msgId⟩) = none
    · have hset : handle w o (.checkAndSet channel msgId) =
          (true, { w with dedup := w.dedup.append ⟨channel, msgId⟩ hfree }) := by
        simp only [handle, KeyedTable.insert_eq_some hfree]
        rfl
      rw [hset]
      exact Or.inr (Or.inl ⟨⟨channel, msgId⟩, hfree, rfl, rfl, rfl⟩)
    · have hset : handle w o (.checkAndSet channel msgId) = (false, w) := by
        simp only [handle, KeyedTable.insert_eq_none hfree]
        rfl
      rw [hset]
      exact Or.inl ⟨rfl, rfl, rfl⟩
  | enqueue key msg =>
    by_cases hfull : o.queueFull = true
    · have hset : handle w o (.enqueue key msg) = (.error ⟨msg.id⟩, w) := by
        simp only [handle, if_pos hfull]
      rw [hset]
      exact Or.inl ⟨rfl, rfl, rfl⟩
    · have hset : handle w o (.enqueue key msg) =
          (.ok (), { w with enqueued := msg :: w.enqueued }) := by
        simp only [handle, if_neg hfull]
      rw [hset]
      exact Or.inr (Or.inr ⟨key, msg, rfl, rfl, rfl, rfl⟩)

theorem onceDiscipline_sound :
    onceDiscipline.Sound handle (fun _ _ _ => True) (Empty.elim : Empty → World → World) where
  told_call _ _ _ _ _ := trivial
  won_free w o c k _ _ hwon := by
    rcases handle_shared w o c with h | ⟨entry, hfree, hdedup, _, hkey⟩ | ⟨_, _, _, _, _, h⟩
    · exact absurd (h.2.2.symm.trans hwon) (by simp)
    · rw [hkey, Option.some.injEq] at hwon
      subst hwon
      constructor
      · show (w.dedup.find? entry.key).isSome = false
        rw [hfree]
        rfl
      · show ((handle w o c).2.dedup.find? entry.key).isSome = true
        rw [hdedup, KeyedTable.find?_append, if_pos rfl]
        rfl
    · exact absurd (h.symm.trans hwon) (by simp)
  claimed_call w o c k _ _ hclaimed := by
    have hclaimed : (w.dedup.find? k).isSome = true := hclaimed
    show ((handle w o c).2.dedup.find? k).isSome = true
    rcases handle_shared w o c with ⟨h, _⟩ | ⟨entry, hfree, hdedup, _⟩ | ⟨_, _, _, h, _⟩
    · rwa [h]
    · rw [hdedup, KeyedTable.find?_append]
      split
      · rfl
      · exact hclaimed
    · rwa [h]
  claimed_other w e := e.elim
  count_call w o c k _ _ := by
    show (handle w o c).2.enqueued.countP _ ≤ w.enqueued.countP _ + _
    rcases handle_shared w o c with ⟨_, h, _⟩ | ⟨_, _, _, h, _⟩ | ⟨key, msg, hc, _, h, _⟩
    · rw [h]
      exact Nat.le_add_right _ _
    · rw [h]
      exact Nat.le_add_right _ _
    · subst hc
      rw [h, List.countP_cons]
      simp [onceDiscipline]
  count_other w e := e.elim

/-! ## At most once -/

/-- In every interleaving of deliveries, each channel and message id are
enqueued once at most. -/
theorem enqueued_once (inbox : KeyedTable InboxEntry.id)
    {moves : List (Move Message Empty Outcome)} {s : Pool Call.Reply Answer World}
    (hrun : run Deliveries.step (Deliveries.init inbox) moves = some s) :
    (s.shared.enqueued.map fun msg => (msg.routeKey.channel, msg.id)).Nodup := by
  have hone := count_le_one onceDiscipline_sound guarded_handleInbound (fun _ => rfl) hrun
    (everyStep_of_forall (fun _ m => by cases m <;> simp [Meets]) _ _)
  have hkeys : (s.shared.enqueued.map fun msg => (dedupEntry msg).key).Nodup := by
    rw [List.nodup_iff_count_le_one]
    intro k
    have hcount : s.shared.enqueued.countP (fun msg => (dedupEntry msg).key = k) ≤ 1 := hone k
    rw [List.count, List.countP_map]
    exact le_of_eq_of_le (List.countP_congr fun msg _ => by simp) hcount
  -- the channel and the id make the key
  have hkey : (fun msg : Message => (dedupEntry msg).key) =
      (fun p : ChannelId × String => DedupEntry.key ⟨p.1.name, p.2⟩) ∘
        fun msg => (msg.routeKey.channel, msg.id) := rfl
  rw [hkey, ← List.map_map] at hkeys
  exact List.Nodup.of_map _ hkeys

/-- Two deliveries of one message, which both find that the table does not
have it. -/
def racingDeliveries (msg : Message) : List (Move Message Empty Outcome) :=
  [.start msg, .start msg, .call 0 works, .call 1 works] ++
    (List.replicate 4 [.call 0 works, .call 1 works]).flatten ++
    [.call 1 works, .call 0 works, .call 1 works]

theorem racingDeliveries_enqueued_once :
    (((run Deliveries.step (Deliveries.init KeyedTable.empty) (racingDeliveries hello)).get
      (by decide +kernel)).shared.enqueued.map fun msg => (msg.routeKey.channel, msg.id)).Nodup :=
  enqueued_once KeyedTable.empty (Option.some_get _).symm

end MagicLaw.Inbound
