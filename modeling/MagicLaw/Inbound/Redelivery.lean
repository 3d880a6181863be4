import MagicLaw.Inbound.Gate

/-!
# Deliveries that failed, and their redelivery

A message that was delivered and not put into a conversation is delivered
again, by a server that was answered an error or that got no answer.  The
redelivery has to get past both filters.

No error exit of `process_inbound` or `route_message` takes back what the
filters have recorded.  So a redelivery gets past them exactly when no earlier
delivery came as far as the insert into the table
(`redeliverable_iff`).
-/

namespace MagicLaw.Inbound

open Lib Lib.Program
open MagicLaw.Routing (Message)

/-- The delivery comes as far as the insert, when the message is not recorded
yet. -/
def Delivery.Records (d : Delivery) : Prop := d.LooksUp ∧ d.Inserts

/-- The message has been put into its conversation. -/
def World.Enqueued (w : World) (msg : Message) : Prop :=
  ∃ m ∈ w.enqueued, m.id = msg.id ∧ m.routeKey.channel = msg.routeKey.channel

instance (w : World) (msg : Message) : Decidable (w.Enqueued msg) :=
  inferInstanceAs (Decidable (∃ m ∈ w.enqueued, _))

/-- As long as the message has not been enqueued, no redelivery of it is
answered as a duplicate. -/
def Redeliverable (w : World) (msg : Message) : Prop :=
  ¬ w.Enqueued msg → ∀ env, w.answer ⟨msg, env⟩ ≠ some .duplicate

/-- The state after a sequence of events. -/
def World.afterAll (w : World) (events : List Event) : World := events.foldl World.after w

/-! ## What is recorded after a sequence of events -/

theorem recorded_deliver_eq_none_iff (w : World) (d : Delivery) (id : String) :
    (w.deliver d).recorded id = none ↔
      w.recorded id = none ∧ (d.msg.id = id → ¬ d.Records) := by
  have hleft := leftBy_deliver w d
  by_cases hstores : w.Stores d
  · rw [hleft.stored hstores]
    by_cases hid : id = d.msg.id
    · subst hid
      rw [if_pos rfl]
      refine iff_of_false (by simp) fun h => ?_
      exact h.2 rfl ⟨hstores.1, hstores.2.1⟩
    · rw [if_neg hid]
      exact (and_iff_left fun heq => absurd heq.symm hid).symm
  · rw [hleft.kept hstores]
    constructor
    · intro hrec
      refine ⟨hrec, fun heq hrecords => hstores ⟨hrecords.1, hrecords.2, ?_⟩⟩
      rw [heq]
      exact hrec
    · exact And.left

theorem recorded_afterAll_eq_none_iff (w : World) (events : List Event) (id : String) :
    (w.afterAll events).recorded id = none ↔
      w.recorded id = none ∧ ∀ d, .deliver d ∈ events → d.msg.id = id → ¬ d.Records := by
  induction events generalizing w with
  | nil => simp [World.afterAll]
  | cons event events ih =>
    show ((w.after event).afterAll events).recorded id = none ↔ _
    rw [ih]
    cases event with
    | expire key =>
      show w.recorded id = none ∧ _ ↔ _
      simp
    | deliver d =>
      show (w.deliver d).recorded id = none ∧ _ ↔ _
      rw [recorded_deliver_eq_none_iff, and_assoc]
      simp [or_imp, forall_and]

/-! ## The redelivery -/

/-- A message is answered as a duplicate exactly when one of the filters knows
it. -/
theorem redelivery_duplicate_iff (w : World) (msg : Message) :
    (∃ env, w.answer ⟨msg, env⟩ = some .duplicate) ↔ w.recorded msg.id ≠ none ∨ w.Marked msg := by
  constructor
  · intro h
    obtain ⟨env, henv⟩ := h
    have hrepeats := ((answer_eq_duplicate_iff w ⟨msg, env⟩).mp henv).2
    exact hrepeats.imp id And.right
  · intro h
    have hworks : ∀ c, (Delivery.mk msg allWork).Works c := fun c => ⟨_, rfl, rfl⟩
    refine ⟨allWork, (answer_eq_duplicate_iff w ⟨msg, allWork⟩).mpr ⟨hworks _, h.imp id fun hm => ?_⟩⟩
    exact ⟨⟨⟨_, rfl, hworks _⟩, ⟨hworks _, hworks _⟩, rfl⟩, hm⟩

/-- After any sequence of deliveries, a message that has not been enqueued
can be delivered again exactly when no delivery with its id has come as far as
the insert into the table, and the cache has no entry under its key. -/
theorem redeliverable_iff (events : List Event) (msg : Message) :
    Redeliverable (World.init.afterAll events) msg ↔
      (¬ (World.init.afterAll events).Enqueued msg →
        (∀ d, .deliver d ∈ events → d.msg.id = msg.id → ¬ (d.LooksUp ∧ d.Inserts)) ∧
          ¬ (World.init.afterAll events).Marked msg) := by
  have hnone : World.init.recorded msg.id = none := rfl
  have hrec := recorded_afterAll_eq_none_iff World.init events msg.id
  rw [and_iff_right hnone] at hrec
  have hdup := redelivery_duplicate_iff (World.init.afterAll events) msg
  unfold Redeliverable
  refine imp_congr_right fun _ => ?_
  rw [← not_exists, hdup, not_or, not_not]
  exact and_congr_left fun _ => hrec

/-! ## A full queue -/

/-- Every call works, and the queue of the conversation has no room. -/
def queueIsFull : Call → Option Outcome
  | .enqueue _ _ => some { works with queueFull := true }
  | _ => some works

def FailedStaysRedeliverable : Prop :=
  ∀ (events : List Event) (msg : Message), Redeliverable (World.init.afterAll events) msg

/-- The message is dropped, the server is answered so, and its redelivery is
taken for a duplicate. -/
theorem not_failedStaysRedeliverable : ¬ FailedStaysRedeliverable := by
  intro h
  have hdropped : ¬ (World.init.afterAll [.deliver ⟨hello, queueIsFull⟩]).Enqueued hello := by
    decide +kernel
  have hduplicate : (World.init.afterAll [.deliver ⟨hello, queueIsFull⟩]).answer ⟨hello, allWork⟩ =
      some .duplicate := by
    decide +kernel
  exact h _ hello hdropped allWork hduplicate

end MagicLaw.Inbound
