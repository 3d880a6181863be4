import Mathlib.Data.Nat.Find
import MagicLaw.Routing.Store

/-!
# The order in which a conversation releases two messages

A conversation ingests messages and is drained, in any order.  `Due` says when
a sort key is to be released: at a drain, or when the cutoff has reached it.
A message that no other one replaces is released at the first event from its
own on at which its sort key is due (`mem_outputAt_iff`).

So of two messages the one with the smaller sequence is released first exactly
when it is there in time, that is first or before the cutoff has reached the
other one, and is not replaced (`releasedBefore_iff`).
-/

namespace MagicLaw.Routing

/-- What happens to a conversation. -/
inductive ConversationEvent where
  /-- at the instant `now`, when the system clock shows `nowMs` -/
  | ingest (msg : Message) (now : Nat) (nowMs : Int64)
  | drain

def Conversation.on (conversation : Conversation) : ConversationEvent → List Message × Conversation
  | .ingest msg now nowMs => conversation.ingest msg now nowMs
  | .drain => conversation.drain

/-- The conversation after some events. -/
def Conversation.after (conversation : Conversation) (events : List ConversationEvent) :
    Conversation :=
  events.foldl (fun conversation event => (conversation.on event).2) conversation

/-- What the event with this number releases. -/
def outputAt (conversation : Conversation) (events : List ConversationEvent) (k : Nat) :
    List Message :=
  match events[k]? with
  | none => []
  | some event => ((conversation.after (events.take k)).on event).1

/-- The message is ingested by the event with this number. -/
def IngestedAt (events : List ConversationEvent) (i : Nat) (m : Message) : Prop :=
  ∃ now nowMs, events[i]? = some (.ingest m now nowMs)

/-- The event with this number ingests a message with the sort key. -/
def KeyAt (events : List ConversationEvent) (i : Nat) (key : Int64) : Prop :=
  ∃ m, IngestedAt events i m ∧ m.sortKey = key

/-- The latest time that the clock has shown at an ingest. -/
def latestOf (latestArrivalMs : Int64) (events : List ConversationEvent) : Int64 :=
  events.foldl
    (fun latest event =>
      match event with
      | .ingest _ _ nowMs => max latest nowMs
      | .drain => latest)
    latestArrivalMs

/-- The cutoff that the first events lead to. -/
def cutoffBefore (conversation : Conversation) (events : List ConversationEvent) (n : Nat) : Int64 :=
  saturatingSub (latestOf conversation.reorderWindow.latestArrivalMs (events.take n))
    conversation.reorderWindow.windowMs.toInt64

/-! ## Releases -/

section Releases

variable (conversation : Conversation) (events : List ConversationEvent)

/-- The message that the event `i` ingests is released by the event `k`, and no
other one with its sort key was ingested since. -/
def ReleasedAt (i : Nat) (m : Message) (k : Nat) : Prop :=
  i ≤ k ∧ m ∈ outputAt conversation events k ∧ ∀ l, i < l → l ≤ k → ¬ KeyAt events l m.sortKey

/-- The message of the event `i` is released before `second` is at the event
`k`. -/
def ReleasedBefore (i : Nat) (first : Message) (k : Nat) (second : Message) : Prop :=
  ∃ k' ≤ k, ReleasedAt conversation events i first k' ∧
    (k' = k → [first, second].Sublist (outputAt conversation events k))

/-- Up to the event `k`, a message with the same sort key is ingested while the
message of the event `i` waits. -/
def Replaced (i : Nat) (m : Message) (k : Nat) : Prop :=
  ∃ l, i < l ∧ l ≤ k ∧ KeyAt events l m.sortKey ∧
    (∀ d, i < d → d < l → events[d]? ≠ some .drain) ∧
    cutoffBefore conversation events l < m.sortKey

/-- Two messages with sequences, without a drain between them. -/
structure InSequence (i j : Nat) (first second : Message) : Prop where
  firstAt : IngestedAt events i first
  secondAt : IngestedAt events j second
  sequences : ∃ s s', first.sequence = some s ∧ second.sequence = some s' ∧ s < s'
  undrained : ∀ d, min i j < d → d < max i j → events[d]? ≠ some .drain

/-- The sort key is released at the event, if a message waits under it. -/
def Due (key : Int64) (k : Nat) : Prop :=
  events[k]? = some .drain ∨
    (∃ m, IngestedAt events k m) ∧ key ≤ cutoffBefore conversation events (k + 1)

end Releases

/-! ## The window after some events -/

section Run

variable {conversation : Conversation} {events : List ConversationEvent}

theorem after_take_succ {n : Nat} {event : ConversationEvent} (h : events[n]? = some event) :
    conversation.after (events.take (n + 1)) =
      ((conversation.after (events.take n)).on event).2 := by
  unfold Conversation.after
  rw [List.take_add_one, h, Option.toList_some, List.foldl_append]
  rfl

theorem outputAt_eq {k : Nat} {event : ConversationEvent} (h : events[k]? = some event) :
    outputAt conversation events k = ((conversation.after (events.take k)).on event).1 := by
  unfold outputAt
  rw [h]

theorem latestOf_append (latest : Int64) (events events' : List ConversationEvent) :
    latestOf latest (events ++ events') = latestOf (latestOf latest events) events' :=
  List.foldl_append

variable (conversation events) in
/-- The window is as old as the events say. -/
theorem reorderWindow_after (n : Nat) :
    (conversation.after (events.take n)).reorderWindow.windowMs =
        conversation.reorderWindow.windowMs ∧
      (conversation.after (events.take n)).reorderWindow.latestArrivalMs =
        latestOf conversation.reorderWindow.latestArrivalMs (events.take n) := by
  induction n with
  | zero =>
    rw [List.take_zero]
    exact ⟨rfl, rfl⟩
  | succ n ih =>
    obtain ⟨hwindow, hlatest⟩ := ih
    cases hn : events[n]? with
    | none =>
      rw [List.take_add_one, hn, Option.toList_none, List.append_nil]
      exact ⟨hwindow, hlatest⟩
    | some event =>
      rw [after_take_succ hn, List.take_add_one, hn, Option.toList_some, latestOf_append, ← hlatest,
        ← hwindow]
      cases event with
      | ingest msg now nowMs => exact ⟨rfl, rfl⟩
      | drain => exact ⟨rfl, rfl⟩

variable (conversation events) in
theorem cutoff_after_take (n : Nat) :
    (conversation.after (events.take n)).reorderWindow.cutoff =
      cutoffBefore conversation events n := by
  obtain ⟨hwindow, hlatest⟩ := reorderWindow_after conversation events n
  unfold ReorderWindow.cutoff cutoffBefore
  rw [hwindow, hlatest]

theorem cutoffBefore_le_succ (n : Nat) :
    cutoffBefore conversation events n ≤ cutoffBefore conversation events (n + 1) := by
  rw [← cutoff_after_take, ← cutoff_after_take]
  cases hn : events[n]? with
  | none =>
    rw [List.take_add_one, hn, Option.toList_none, List.append_nil]
    exact Int64.le_refl _
  | some event =>
    rw [after_take_succ hn]
    cases event with
    | ingest msg now nowMs => exact ReorderWindow.cutoff_le_insert _ msg nowMs
    | drain => exact Int64.le_refl _

theorem cutoffBefore_mono {n n' : Nat} (h : n ≤ n') :
    cutoffBefore conversation events n ≤ cutoffBefore conversation events n' := by
  induction n', h using Nat.le_induction with
  | base => exact Int64.le_refl _
  | succ n' _ ih => exact Int64.le_trans ih (cutoffBefore_le_succ n')

/-! ## When a message is released -/

theorem not_due_drain {i : Nat} {m : Message} (h : IngestedAt events i m) :
    events[i]? ≠ some .drain := by
  obtain ⟨now, nowMs, hi⟩ := h
  rw [hi]
  simp

/-- At an ingest, what the cutoff has reached is due. -/
theorem due_iff_of_ingest {i : Nat} {m : Message} (h : IngestedAt events i m) (key : Int64) :
    Due conversation events key i ↔ key ≤ cutoffBefore conversation events (i + 1) := by
  constructor
  · intro heither
    rcases heither with hdrain | ⟨-, hle⟩
    · exact absurd hdrain (not_due_drain h)
    · exact hle
  · exact fun hle => Or.inr ⟨⟨m, h⟩, hle⟩

theorem Due.mono {key key' : Int64} (hlt : key < key') {k : Nat}
    (h : Due conversation events key' k) : Due conversation events key k :=
  h.imp_right fun h => ⟨h.1, Int64.le_trans (Int64.le_of_lt hlt) h.2⟩

/-- Before an event at which nothing was due the cutoff was below. -/
theorem lt_of_not_due {key : Int64} {n : Nat} (hn : n < events.length)
    (h : ¬ Due conversation events key n) : cutoffBefore conversation events (n + 1) < key := by
  rw [← Int64.not_le]
  intro hle
  have hget : events[n]? = some events[n] := List.getElem?_eq_getElem hn
  cases hevent : events[n] with
  | ingest msg now nowMs =>
    rw [hevent] at hget
    exact h (Or.inr ⟨⟨msg, now, nowMs, hget⟩, hle⟩)
  | drain =>
    rw [hevent] at hget
    exact h (Or.inl hget)

/-- An event that does not ingest its key leaves a message that waits where it
is, unless the key is due. -/
theorem holds_succ_iff {n : Nat} {m : Message} (hlen : n < events.length)
    (hfree : ¬ KeyAt events n m.sortKey) :
    (conversation.after (events.take (n + 1))).reorderWindow.Holds m ↔
      (conversation.after (events.take n)).reorderWindow.Holds m ∧
        ¬ Due conversation events m.sortKey n := by
  have hget : events[n]? = some events[n] := List.getElem?_eq_getElem hlen
  have hcutoff := cutoff_after_take conversation events (n + 1)
  rw [after_take_succ hget] at hcutoff ⊢
  cases hevent : events[n] with
  | ingest msg now nowMs =>
    rw [hevent] at hget hcutoff
    have hne : m.sortKey ≠ msg.sortKey := fun heq => hfree ⟨msg, ⟨now, nowMs, hget⟩, heq.symm⟩
    rw [due_iff_of_ingest ⟨now, nowMs, hget⟩, ← hcutoff]
    refine (ReorderWindow.holds_insert_iff _ msg nowMs m).trans (and_congr_left fun _ => ?_)
    constructor
    · intro heither
      rcases heither with rfl | hheld
      · exact absurd rfl hne
      · exact hheld.1
    · exact fun hheld => Or.inr ⟨hheld, hne⟩
  | drain =>
    rw [hevent] at hget
    constructor
    · exact fun h => absurd h (ReorderWindow.not_holds_flushAll _ m)
    · exact fun h => absurd (Or.inl hget) h.2

/-- The message waits as long as its sort key is not due. -/
theorem holds_iff_not_due {i n : Nat} {m : Message} (hm : IngestedAt events i m) (hin : i < n)
    (hlen : n ≤ events.length) (hfree : ∀ l, i < l → l < n → ¬ KeyAt events l m.sortKey) :
    (conversation.after (events.take n)).reorderWindow.Holds m ↔
      ∀ l, i ≤ l → l < n → ¬ Due conversation events m.sortKey l := by
  induction n, hin using Nat.le_induction with
  | base =>
    obtain ⟨now, nowMs, hi⟩ := hm
    have hheld := ReorderWindow.holds_insert_iff
      (conversation.after (events.take i)).reorderWindow m nowMs m
    have hcutoff := cutoff_after_take conversation events (i + 1)
    rw [after_take_succ hi] at hcutoff ⊢
    rw [show (((conversation.after (events.take i)).reorderWindow.insert m nowMs).2.cutoff) =
      cutoffBefore conversation events (i + 1) from hcutoff] at hheld
    have hdue : Due conversation events m.sortKey i ↔
        m.sortKey ≤ cutoffBefore conversation events (i + 1) :=
      due_iff_of_ingest ⟨now, nowMs, hi⟩ m.sortKey
    refine hheld.trans ?_
    rw [← hdue]
    constructor
    · intro h l hle hlt
      rw [Nat.le_antisymm hle (Nat.le_of_lt_succ hlt)] at h
      exact h.2
    · exact fun h => ⟨Or.inl rfl, h i (Nat.le_refl i) (Nat.lt_succ_self i)⟩
  | succ n hin ih =>
    have ih := ih (Nat.le_of_succ_le hlen) fun l hil hln => hfree l hil (Nat.lt_succ_of_lt hln)
    have hsplit : (∀ l, i ≤ l → l < n + 1 → ¬ Due conversation events m.sortKey l) ↔
        (∀ l, i ≤ l → l < n → ¬ Due conversation events m.sortKey l) ∧
          ¬ Due conversation events m.sortKey n := by
      constructor
      · exact fun h => ⟨fun l hil hln => h l hil (Nat.lt_succ_of_lt hln),
          h n (Nat.le_of_succ_le hin) (Nat.lt_succ_self n)⟩
      · intro h l hil hln
        rcases Nat.lt_succ_iff_lt_or_eq.mp hln with hln | rfl
        · exact h.1 l hil hln
        · exact h.2
    rw [hsplit, ← ih]
    exact holds_succ_iff hlen (hfree n hin (Nat.lt_succ_self n))

/-- After the last event nothing is due. -/
theorem not_due_of_no_event {key : Int64} {k : Nat} (hget : events[k]? = none) :
    ¬ Due conversation events key k := by
  intro hdue
  rcases hdue with hdrain | ⟨⟨m, now, nowMs, hk⟩, -⟩
  · rw [hget] at hdrain
    cases hdrain
  · rw [hget] at hk
    cases hk

/-- A message is released at the first event at which its sort key is due. -/
theorem mem_outputAt_iff {i k : Nat} {m : Message} (hm : IngestedAt events i m) (hik : i ≤ k)
    (hfree : ∀ l, i < l → l ≤ k → ¬ KeyAt events l m.sortKey) :
    m ∈ outputAt conversation events k ↔
      Due conversation events m.sortKey k ∧
        ∀ l, i ≤ l → l < k → ¬ Due conversation events m.sortKey l := by
  cases hget : events[k]? with
  | none =>
    unfold outputAt
    rw [hget]
    constructor
    · exact fun h => absurd h List.not_mem_nil
    · exact fun h => absurd h.1 (not_due_of_no_event hget)
  | some event =>
    have hlen : k < events.length := (List.getElem?_eq_some_iff.mp hget).1
    have hcutoff := cutoff_after_take conversation events (k + 1)
    rw [after_take_succ hget] at hcutoff
    rw [outputAt_eq hget]
    rcases Nat.eq_or_lt_of_le hik with rfl | hlt
    · -- the event that ingests the message itself
      obtain ⟨now, nowMs, hi⟩ := hm
      rw [hget, Option.some.injEq] at hi
      subst hi
      rw [due_iff_of_ingest ⟨now, nowMs, hget⟩, ← hcutoff]
      refine (ReorderWindow.mem_released_iff _ m nowMs m).trans ?_
      constructor
      · exact fun h => ⟨h.2, fun l hil hli => absurd hil (Nat.not_le_of_lt hli)⟩
      · exact fun h => ⟨Or.inl rfl, h.1⟩
    · rw [← holds_iff_not_due hm hlt (Nat.le_of_lt hlen)
        fun l hil hlk => hfree l hil (Nat.le_of_lt hlk)]
      cases event with
      | ingest msg now nowMs =>
        have hne : m.sortKey ≠ msg.sortKey := fun heq =>
          hfree k hlt (Nat.le_refl k) ⟨msg, ⟨now, nowMs, hget⟩, heq.symm⟩
        rw [due_iff_of_ingest ⟨now, nowMs, hget⟩, ← hcutoff]
        refine (ReorderWindow.mem_released_iff _ msg nowMs m).trans ?_
        constructor
        · intro hexists
          rcases hexists with ⟨rfl | hheld, hle⟩
          · exact absurd rfl hne
          · exact ⟨hle, hheld.1⟩
        · exact fun h => ⟨Or.inr ⟨h.2, hne⟩, h.1⟩
      | drain =>
        refine (ReorderWindow.mem_flushAll_iff _ m).trans ?_
        exact ⟨fun h => ⟨Or.inl hget, h⟩, fun h => h.2⟩

/-! ## Two messages -/

/-- Of two messages of a sorted list, the one with the smaller key stands
first. -/
theorem sublist_of_sorted {messages : List Message}
    (hsorted : messages.Pairwise fun m m' => m.sortKey < m'.sortKey) {m m' : Message}
    (hm : m ∈ messages) (hm' : m' ∈ messages) (hlt : m.sortKey < m'.sortKey) :
    [m, m'].Sublist messages := by
  induction messages with
  | nil => exact absurd hm List.not_mem_nil
  | cons head rest ih =>
    obtain ⟨hhead, hrest⟩ := List.pairwise_cons.mp hsorted
    rcases List.mem_cons.mp hm with rfl | hm
    · rcases List.mem_cons.mp hm' with rfl | hm'
      · exact absurd hlt Int64.lt_irrefl
      · exact (List.singleton_sublist.mpr hm').cons_cons m
    · rcases List.mem_cons.mp hm' with heq | hm'
      · have hgt := hhead m hm
        rw [← heq] at hgt
        exact absurd (Int64.lt_trans hlt hgt) Int64.lt_irrefl
      · exact (ih hrest hm hm').cons head

theorem sorted_outputAt (k : Nat) :
    (outputAt conversation events k).Pairwise fun m m' => m.sortKey < m'.sortKey := by
  unfold outputAt
  cases events[k]? with
  | none => exact List.Pairwise.nil
  | some event =>
    cases event with
    | ingest msg now nowMs => exact ReorderWindow.sorted_insert _ msg nowMs
    | drain => exact ReorderWindow.sorted_flushAll _

theorem InSequence.sortKey_lt {i j : Nat} {first second : Message}
    (h : InSequence events i j first second) : first.sortKey < second.sortKey := by
  obtain ⟨s, s', hfirst, hsecond, hlt⟩ := h.sequences
  unfold Message.sortKey
  rw [hfirst, hsecond]
  exact hlt

theorem InSequence.ne {i j : Nat} {first second : Message}
    (h : InSequence events i j first second) : i ≠ j := by
  intro heq
  subst heq
  obtain ⟨now, nowMs, hi⟩ := h.firstAt
  obtain ⟨now', nowMs', hj⟩ := h.secondAt
  rw [hi, Option.some.injEq, ConversationEvent.ingest.injEq] at hj
  have hlt := h.sortKey_lt
  rw [hj.1] at hlt
  exact Int64.lt_irrefl hlt

/-! ## When the first one is there in time -/

theorem IngestedAt.lt_length {i : Nat} {m : Message} (h : IngestedAt events i m) :
    i < events.length := by
  obtain ⟨now, nowMs, hi⟩ := h
  exact (List.getElem?_eq_some_iff.mp hi).1

theorem releasedAt_iff {i k : Nat} {m : Message} (hm : IngestedAt events i m) :
    ReleasedAt conversation events i m k ↔
      i ≤ k ∧ (Due conversation events m.sortKey k ∧
        ∀ l, i ≤ l → l < k → ¬ Due conversation events m.sortKey l) ∧
        ∀ l, i < l → l ≤ k → ¬ KeyAt events l m.sortKey := by
  constructor
  · intro hboth
    obtain ⟨hik, hmem, hfree⟩ := hboth
    exact ⟨hik, (mem_outputAt_iff hm hik hfree).mp hmem, hfree⟩
  · intro hboth
    obtain ⟨hik, hdue, hfree⟩ := hboth
    exact ⟨hik, (mem_outputAt_iff hm hik hfree).mpr hdue, hfree⟩

/-- A message that is released was not replaced. -/
theorem not_replaced_of_releasedAt {i k n : Nat} {m : Message} (hm : IngestedAt events i m)
    (h : ReleasedAt conversation events i m k) : ¬ Replaced conversation events i m n := by
  intro hexists
  obtain ⟨l, hil, -, hkey, hundrained, hcutoff⟩ := hexists
  obtain ⟨hik, ⟨hdue, -⟩, hfree⟩ := (releasedAt_iff hm).mp h
  have hkl : k < l := by
    rw [← Nat.not_le]
    exact fun hlk => hfree l hil hlk hkey
  rcases hdue with hdrain | ⟨-, hle⟩
  · have hne : i ≠ k := by
      intro heq
      subst heq
      exact not_due_drain hm hdrain
    exact hundrained k (Nat.lt_of_le_of_ne hik hne) hkl hdrain
  · exact Int64.not_le.mpr hcutoff (Int64.le_trans hle (cutoffBefore_mono hkl))

/-- A message whose sort key becomes due is released by then, unless it is
replaced. -/
theorem exists_releasedAt {i k : Nat} {m : Message} (hm : IngestedAt events i m) (hik : i ≤ k)
    (hdue : Due conversation events m.sortKey k) (hkept : ¬ Replaced conversation events i m k) :
    ∃ k' ≤ k, ReleasedAt conversation events i m k' := by
  classical
  have hex : ∃ k', i ≤ k' ∧ Due conversation events m.sortKey k' := ⟨k, hik, hdue⟩
  obtain ⟨hik', hdue'⟩ := Nat.find_spec hex
  have hle : Nat.find hex ≤ k := Nat.find_min' hex ⟨hik, hdue⟩
  have hmin : ∀ l, i ≤ l → l < Nat.find hex → ¬ Due conversation events m.sortKey l :=
    fun l hil hl hd => Nat.find_min hex hl ⟨hil, hd⟩
  refine ⟨Nat.find hex, hle, (releasedAt_iff hm).mpr ⟨hik', ⟨hdue', hmin⟩, ?_⟩⟩
  -- a message under its sort key would come while this one waits
  intro l hil hlk hkey
  refine hkept ⟨l, hil, Nat.le_trans hlk hle, hkey, ?_, ?_⟩
  · intro d hid hdl hdrain
    exact hmin d (Nat.le_of_lt hid) (Nat.lt_of_lt_of_le hdl hlk) (Or.inl hdrain)
  · obtain ⟨m', hm', -⟩ := hkey
    have hlen := hm'.lt_length
    obtain ⟨n, rfl⟩ : ∃ n, l = n + 1 := ⟨l - 1, by omega⟩
    exact lt_of_not_due (by omega) (hmin n (by omega) (by omega))

section Pair

variable {i j k : Nat} {first second : Message}

/-- The second message is not released before the first one is ingested. -/
theorem InSequence.le_of_inTime (h : InSequence events i j first second)
    (hreleased : ReleasedAt conversation events j second k)
    (hintime : i < j ∨ cutoffBefore conversation events i < second.sortKey) : i ≤ k := by
  obtain ⟨hjk, ⟨hdue, -⟩, -⟩ := (releasedAt_iff h.secondAt).mp hreleased
  rcases hintime with hij | hcutoff
  · omega
  · rw [← Nat.not_lt]
    intro hki
    rcases hdue with hdrain | ⟨-, hle⟩
    · have hne : j ≠ k := by
        intro heq
        subst heq
        exact not_due_drain h.secondAt hdrain
      exact h.undrained k (by omega) (by omega) hdrain
    · exact Int64.not_le.mpr hcutoff (Int64.le_trans hle (cutoffBefore_mono hki))

/-- The second message is still there when the first one is ingested. -/
theorem InSequence.inTime_of_le (h : InSequence events i j first second)
    (hreleased : ReleasedAt conversation events j second k) (hik : i ≤ k) :
    i < j ∨ cutoffBefore conversation events i < second.sortKey := by
  obtain ⟨-, ⟨-, hnot⟩, -⟩ := (releasedAt_iff h.secondAt).mp hreleased
  rcases Nat.lt_or_gt_of_ne h.ne with hij | hji
  · exact Or.inl hij
  · right
    have hlen := h.firstAt.lt_length
    obtain ⟨n, rfl⟩ : ∃ n, i = n + 1 := ⟨i - 1, by omega⟩
    exact lt_of_not_due (by omega) (hnot n (by omega) (by omega))

/-- Of two messages, the one with the smaller sequence is released before the
other one exactly when it is ingested first or before the cutoff has reached
the other one, and no other message replaces it. -/
theorem releasedBefore_iff (h : InSequence events i j first second)
    (hreleased : ReleasedAt conversation events j second k) :
    ReleasedBefore conversation events i first k second ↔
      (i < j ∨ cutoffBefore conversation events i < second.sortKey) ∧
        ¬ Replaced conversation events i first k := by
  constructor
  · intro hexists
    obtain ⟨k', hk', hfirst, -⟩ := hexists
    have hik : i ≤ k := Nat.le_trans hfirst.1 hk'
    exact ⟨h.inTime_of_le hreleased hik, not_replaced_of_releasedAt h.firstAt hfirst⟩
  · intro hboth
    obtain ⟨hintime, hkept⟩ := hboth
    have hik : i ≤ k := h.le_of_inTime hreleased hintime
    have hdue : Due conversation events first.sortKey k :=
      ((releasedAt_iff h.secondAt).mp hreleased).2.1.1.mono h.sortKey_lt
    obtain ⟨k', hk', hfirst⟩ := exists_releasedAt h.firstAt hik hdue hkept
    refine ⟨k', hk', hfirst, ?_⟩
    intro heq
    subst heq
    exact sublist_of_sorted (sorted_outputAt k') hfirst.2.1 hreleased.2.1 h.sortKey_lt

end Pair

end Run

/-! ## Two messages of a platform that counts from one -/

def group : RouteKey := ⟨⟨"wechat"⟩, "room", "alice", .group⟩

def counted (id : String) (sequence : Int64) : Message :=
  Message.newInbound id group (some sequence) 1700000000000 (.text id)

/-- The two messages, in their order. -/
def firstComesFirst : List ConversationEvent :=
  [.ingest (counted "m1" 1) 0 1700000000000, .ingest (counted "m2" 2) 10 1700000000010]

theorem firstComesFirst_releasedBefore :
    ReleasedBefore (Conversation.new group 200 0) firstComesFirst 0 (counted "m1" 1) 1
      (counted "m2" 2) := by
  have hpair : InSequence firstComesFirst 0 1 (counted "m1" 1) (counted "m2" 2) := by
    constructor
    · exact ⟨0, 1700000000000, rfl⟩
    · exact ⟨10, 1700000000010, rfl⟩
    · exact ⟨1, 2, rfl, rfl, by decide⟩
    · intro d hd hd'
      omega
  have hreleased : ReleasedAt (Conversation.new group 200 0) firstComesFirst 1 (counted "m2" 2) 1 := by
    refine ⟨Nat.le_refl 1, by decide +kernel, ?_⟩
    intro l hl hl'
    omega
  refine (releasedBefore_iff hpair hreleased).mpr ⟨Or.inl Nat.zero_lt_one, ?_⟩
  intro hexists
  obtain ⟨l, hl, hl', ⟨m, ⟨now, nowMs, hm⟩, hkey⟩, -⟩ := hexists
  obtain rfl : l = 1 := by omega
  cases hm
  exact absurd hkey (by decide)

/-- The clock shows times that are less than the window apart. -/
def Close (conversation : Conversation) (nowMs nowMs' : Int64) : Prop :=
  (nowMs.toInt - nowMs'.toInt).natAbs < conversation.reorderWindow.windowMs.toNat

/-- Of two messages with sequences that are ingested less than the window
apart, with no drain in between, the one with the smaller sequence is released
first. -/
def SequencesInOrder : Prop :=
  ∀ (conversation : Conversation) (events : List ConversationEvent) (i j k now now' : Nat)
    (nowMs nowMs' : Int64) (first second : Message),
    InSequence events i j first second → events[i]? = some (.ingest first now nowMs) →
    events[j]? = some (.ingest second now' nowMs') → Close conversation nowMs nowMs' →
    ReleasedAt conversation events j second k →
    ReleasedBefore conversation events i first k second

/-- The second message comes first, and the first one ten milliseconds later. -/
def secondComesFirst : List ConversationEvent :=
  [.ingest (counted "m2" 2) 0 1700000000000, .ingest (counted "m1" 1) 10 1700000000010]

theorem inSequence_secondComesFirst :
    InSequence secondComesFirst 1 0 (counted "m1" 1) (counted "m2" 2) := by
  constructor
  · exact ⟨10, 1700000000010, rfl⟩
  · exact ⟨0, 1700000000000, rfl⟩
  · exact ⟨1, 2, rfl, rfl, by decide⟩
  · intro d hd hd'
    omega

theorem releasedAt_secondComesFirst :
    ReleasedAt (Conversation.new group 200 0) secondComesFirst 0 (counted "m2" 2) 0 := by
  refine ⟨Nat.le_refl 0, by decide +kernel, ?_⟩
  intro l hl hl'
  omega

/-- The cutoff is a time, and a sequence is far below it. -/
theorem not_sequencesInOrder : ¬ SequencesInOrder := by
  intro h
  have hclose : Close (Conversation.new group 200 0) 1700000000010 1700000000000 := by
    unfold Close
    decide +kernel
  obtain ⟨k', hk', hfirst, -⟩ := h (Conversation.new group 200 0) secondComesFirst 1 0 0 10 0
    1700000000010 1700000000000 _ _ inSequence_secondComesFirst rfl rfl hclose
    releasedAt_secondComesFirst
  have hle := hfirst.1
  omega

end MagicLaw.Routing
