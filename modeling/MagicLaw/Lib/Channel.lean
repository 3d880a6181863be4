/-!
# A bounded queue between a producer and a consumer

A producer yields messages one after the other, a queue of a fixed capacity
takes them, and a consumer takes them out.  The producer has a message in its
hands when it has yielded one for which there is no room yet.

`Emits` says what a producer yields in all.  `Link.Pending` says what the
consumer still gets of it: the queue, the message in the producer's hands, and
what the producer emits from here on.

* `pending_produce` and `pending_send`: the producer's moves leave that as it
  is.
* `pending_take`: the consumer takes the first of it.
* `pending_closed`: when the producer has ended and the queue is empty, nothing
  is left.
* `progress`: a link that is not closed can move, and each move leaves less
  `work`.
-/

namespace Lib.Channel

variable {π μ : Type} {next : π → Option (Option μ × π)}

/-! ## Producers

`next p` is what the producer does in the state `p`: it yields a message or
none and goes on, or it ends. -/

/-- The messages that a producer yields from a state on, up to its end. -/
inductive Emits (next : π → Option (Option μ × π)) : π → List μ → Prop where
  | ended {p : π} (h : next p = none) : Emits next p []
  | skipped {p q : π} {ms : List μ} (h : next p = some (none, q)) (hrest : Emits next q ms) :
      Emits next p ms
  | yielded {p q : π} {m : μ} {ms : List μ} (h : next p = some (some m, q))
      (hrest : Emits next q ms) : Emits next p (m :: ms)

theorem emits_of_none {p : π} {ms : List μ} (h : next p = none) (hemits : Emits next p ms) :
    ms = [] := by
  cases hemits with
  | ended => rfl
  | skipped hnext | yielded hnext => exact nomatch h.symm.trans hnext

/-- After one round of the producer. -/
theorem emits_of_some {p q : π} {m? : Option μ} {ms : List μ} (h : next p = some (m?, q))
    (hemits : Emits next p ms) : ∃ rest, ms = m?.toList ++ rest ∧ Emits next q rest := by
  cases hemits with
  | ended hnext => exact nomatch h.symm.trans hnext
  | skipped hnext hrest =>
    cases h.symm.trans hnext
    exact ⟨_, rfl, hrest⟩
  | yielded hnext hrest =>
    cases h.symm.trans hnext
    exact ⟨_, rfl, hrest⟩

/-! ## Links -/

/-- The end of the producer. -/
inductive Producer (π μ : Type) where
  | ready (p : π)
  | sending (m : μ) (p : π)
  | ended

structure Link (π μ : Type) where
  producer : Producer π μ
  queue : List μ

namespace Link

def start (p : π) : Link π μ := ⟨.ready p, []⟩

/-- One round of the producer. -/
def produce (next : π → Option (Option μ × π)) (l : Link π μ) : Option (Link π μ) :=
  match l.producer with
  | .ready p =>
    match next p with
    | none => some { l with producer := .ended }
    | some (none, q) => some { l with producer := .ready q }
    | some (some m, q) => some { l with producer := .sending m q }
  | .sending _ _ | .ended => none

/-- The message that the producer has goes into the queue, if there is room. -/
def send (capacity : Nat) (l : Link π μ) : Option (Link π μ) :=
  match l.producer with
  | .sending m p =>
    if l.queue.length < capacity then some ⟨.ready p, l.queue ++ [m]⟩ else none
  | .ready _ | .ended => none

/-- The consumer takes a message out. -/
def take (l : Link π μ) : Option (μ × Link π μ) :=
  match l.queue with
  | [] => none
  | m :: queue => some (m, { l with queue := queue })

/-- The producer has ended, and its messages are taken. -/
def isClosed (l : Link π μ) : Bool :=
  match l.producer, l.queue with
  | .ended, [] => true
  | _, _ => false

/-- What the producer's end still adds to the queue. -/
def Upstream (next : π → Option (Option μ × π)) : Producer π μ → List μ → Prop
  | .ready p, ms => Emits next p ms
  | .sending m p, ms => ∃ rest, ms = m :: rest ∧ Emits next p rest
  | .ended, ms => ms = []

/-- What the consumer still gets. -/
def Pending (next : π → Option (Option μ × π)) (l : Link π μ) (ms : List μ) : Prop :=
  ∃ rest, ms = l.queue ++ rest ∧ Upstream next l.producer rest

variable {l l' : Link π μ} {ms : List μ}

theorem produce_yielded {p q : π} {m : μ} {queue : List μ} (h : next p = some (some m, q)) :
    (⟨.ready p, queue⟩ : Link π μ).produce next = some ⟨.sending m q, queue⟩ := by
  simp only [produce, h]

theorem produce_ended {p : π} {queue : List μ} (h : next p = none) :
    (⟨.ready p, queue⟩ : Link π μ).produce next = some ⟨.ended, queue⟩ := by
  simp only [produce, h]

theorem pending_start {p : π} (h : Emits next p ms) : (start p).Pending next ms := ⟨ms, rfl, h⟩

theorem pending_produce (h : l.Pending next ms) (hproduce : l.produce next = some l') :
    l'.Pending next ms := by
  obtain ⟨rest, rfl, hrest⟩ := h
  obtain ⟨producer, queue⟩ := l
  cases producer with
  | sending m p => cases hproduce
  | ended => cases hproduce
  | ready p =>
    cases hnext : next p with
    | none =>
      simp only [produce, hnext, Option.some.injEq] at hproduce
      subst hproduce
      exact ⟨rest, rfl, emits_of_none hnext hrest⟩
    | some round =>
      obtain ⟨m?, q⟩ := round
      obtain ⟨after, rfl, hafter⟩ := emits_of_some hnext hrest
      cases m? with
      | none =>
        simp only [produce, hnext, Option.some.injEq] at hproduce
        subst hproduce
        exact ⟨after, rfl, hafter⟩
      | some m =>
        simp only [produce, hnext, Option.some.injEq] at hproduce
        subst hproduce
        exact ⟨m :: after, rfl, after, rfl, hafter⟩

/-- What a send that finds room does. -/
theorem send_eq_some {capacity : Nat} (h : l.send capacity = some l') :
    ∃ m p, l.producer = .sending m p ∧ l.queue.length < capacity ∧
      l' = ⟨.ready p, l.queue ++ [m]⟩ := by
  unfold send at h
  split at h
  · next m p hproducer =>
    obtain ⟨hroom, hl'⟩ := Option.ite_none_right_eq_some.mp h
    exact ⟨m, p, hproducer, hroom, (Option.some.inj hl').symm⟩
  · cases h
  · cases h

theorem pending_send {capacity : Nat} (h : l.Pending next ms) (hsend : l.send capacity = some l') :
    l'.Pending next ms := by
  obtain ⟨rest, rfl, hrest⟩ := h
  obtain ⟨m, p, hproducer, -, rfl⟩ := send_eq_some hsend
  rw [hproducer] at hrest
  obtain ⟨after, rfl, hafter⟩ := hrest
  exact ⟨after, by simp, hafter⟩

theorem take_eq_some {m : μ} (h : l.take = some (m, l')) :
    l.queue = m :: l'.queue ∧ l'.producer = l.producer := by
  unfold take at h
  split at h
  · cases h
  · next hqueue =>
    cases h
    exact ⟨hqueue, rfl⟩

theorem pending_take {m : μ} (h : l.Pending next ms) (htake : l.take = some (m, l')) :
    ∃ rest, ms = m :: rest ∧ l'.Pending next rest := by
  obtain ⟨rest, rfl, hrest⟩ := h
  obtain ⟨hqueue, hproducer⟩ := take_eq_some htake
  rw [hqueue]
  exact ⟨l'.queue ++ rest, rfl, rest, rfl, hproducer ▸ hrest⟩

theorem pending_closed (h : l.Pending next ms) (hclosed : l.isClosed = true) : ms = [] := by
  obtain ⟨rest, rfl, hrest⟩ := h
  obtain ⟨producer, queue⟩ := l
  cases producer with
  | ready p => cases hclosed
  | sending m p => cases hclosed
  | ended =>
    cases queue with
    | nil => exact hrest
    | cons m queue => cases hclosed

/-! ## The capacity -/

theorem length_produce (hproduce : l.produce next = some l') : l'.queue = l.queue := by
  unfold produce at hproduce
  split at hproduce
  · split at hproduce <;> cases hproduce <;> rfl
  · cases hproduce
  · cases hproduce

/-- No move fills the queue over its capacity. -/
theorem length_send {capacity : Nat} (hsend : l.send capacity = some l') :
    l'.queue.length ≤ capacity := by
  obtain ⟨m, p, -, hroom, rfl⟩ := send_eq_some hsend
  rw [List.length_append, List.length_singleton]
  omega

theorem length_take {m : μ} (htake : l.take = some (m, l')) :
    l'.queue.length ≤ l.queue.length := by
  rw [(take_eq_some htake).1, List.length_cons]
  omega

/-! ## Progress -/

/-- How much is left to do, for a producer whose states get smaller. -/
def work (size : π → Nat) (l : Link π μ) : Nat :=
  l.queue.length +
    match l.producer with
    | .ready p => 3 * size p + 3
    | .sending _ p => 3 * size p + 5
    | .ended => 0

/-- The producer yields, or its message finds a place, or the consumer takes
one; a full queue is not empty. -/
theorem progress {size : π → Nat} {capacity : Nat} (hcapacity : 0 < capacity)
    (hsize : ∀ p m? q, next p = some (m?, q) → size q < size p) (l : Link π μ) :
    l.isClosed = true ∨
      (∃ l', l.produce next = some l' ∧ l'.work size < l.work size) ∨
      (∃ l', l.send capacity = some l' ∧ l'.work size < l.work size) ∨
      ∃ m l', l.take = some (m, l') ∧ l'.work size < l.work size := by
  obtain ⟨producer, queue⟩ := l
  cases producer with
  | ready p =>
    refine Or.inr (Or.inl ?_)
    cases hnext : next p with
    | none => exact ⟨⟨.ended, queue⟩, by simp only [produce, hnext], by simp [work]⟩
    | some round =>
      obtain ⟨m?, q⟩ := round
      have hless := hsize p m? q hnext
      cases m? with
      | none =>
        refine ⟨⟨.ready q, queue⟩, by simp only [produce, hnext], ?_⟩
        simp only [work]
        omega
      | some m =>
        refine ⟨⟨.sending m q, queue⟩, produce_yielded hnext, ?_⟩
        simp only [work]
        omega
  | sending m p =>
    by_cases hroom : queue.length < capacity
    · refine Or.inr (Or.inr (Or.inl ⟨⟨.ready p, queue ++ [m]⟩, if_pos hroom, ?_⟩))
      simp only [work, List.length_append, List.length_singleton]
      omega
    · cases queue with
      | nil => exact absurd hcapacity hroom
      | cons first queue =>
        refine Or.inr (Or.inr (Or.inr ⟨first, ⟨.sending m p, queue⟩, rfl, ?_⟩))
        simp [work]
  | ended =>
    cases queue with
    | nil => exact Or.inl rfl
    | cons first queue =>
      refine Or.inr (Or.inr (Or.inr ⟨first, ⟨.ended, queue⟩, rfl, ?_⟩))
      simp [work]

end Link

end Lib.Channel
