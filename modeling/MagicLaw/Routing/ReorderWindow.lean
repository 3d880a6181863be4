import Mathlib.Data.List.Basic

/-!
# Messages and the reorder window

The messages of `domain/entities/message.rs` and the reorder window of
`domain/services/reorder_window.rs`: a `BTreeMap` from sort keys to messages,
from which an insert releases what has fallen below the cutoff.

Every message of the buffer is stored under its own sort key.  That is a field
of the window, so the operations keep it by construction, and with it a
message is in the window exactly when its sort key leads to it.

* `mem_insert_iff`: an insert releases or keeps the new message and every
  other message whose sort key is not the one of the new message.
* `mem_released_iff`, `holds_insert_iff`: which of the two it does depends on
  the cutoff, and the cutoff only rises (`cutoff_le_insert`).
* `mem_flushAll_iff`: a flush releases every message of the window.
-/

namespace MagicLaw.Routing

open Std (ExtTreeMap)

/-! ## Messages -/

/-- `ChannelId`. -/
structure ChannelId where
  name : String
  deriving DecidableEq, Repr

inductive ConversationType where
  | direct | group | thread | botSession
  deriving DecidableEq, Repr

/-- `RouteKey`: the route of a conversation. -/
structure RouteKey where
  channel : ChannelId
  conversationId : String
  peerId : String
  conversationType : ConversationType
  deriving DecidableEq, Repr

inductive Direction where
  | inbound | outbound
  deriving DecidableEq, Repr

inductive MessageContent where
  | text (text : String)
  | image (url : String) (mediaId : Option String)
  | file (url name : String) (size : UInt64)
  | unknown
  deriving DecidableEq, Repr

inductive AuditMark where
  | lateArrival (delayMs : UInt64)
  | duplicate
  | outOfOrder (expectedSeq actualSeq : Int64)
  deriving DecidableEq

structure Message where
  id : String
  routeKey : RouteKey
  sequence : Option Int64
  timestampMs : Int64
  direction : Direction
  content : MessageContent
  auditMark : Option AuditMark
  deriving DecidableEq

def Message.newInbound (id : String) (routeKey : RouteKey) (sequence : Option Int64)
    (timestampMs : Int64) (content : MessageContent) : Message where
  id := id
  routeKey := routeKey
  sequence := sequence
  timestampMs := timestampMs
  direction := .inbound
  content := content
  auditMark := none

/-- `sort_key`: the sequence, or else the timestamp. -/
def Message.sortKey (m : Message) : Int64 := m.sequence.getD m.timestampMs

/-! ## The window -/

/-- `ReorderWindow`. -/
structure ReorderWindow where
  buffer : ExtTreeMap Int64 Message
  windowMs : UInt64
  latestArrivalMs : Int64
  keyed : ∀ (k : Int64) (m : Message), buffer[k]? = some m → m.sortKey = k

def ReorderWindow.new (windowMs : UInt64) : ReorderWindow where
  buffer := ∅
  windowMs := windowMs
  latestArrivalMs := 0
  keyed := by simp

/-- `i64::saturating_sub`. -/
def saturatingSub (a b : Int64) : Int64 :=
  Int64.ofInt (max Int64.minValue.toInt (min Int64.maxValue.toInt (a.toInt - b.toInt)))

/-- The loop that removes the released messages from the buffer. -/
def removeAll (buffer : ExtTreeMap Int64 Message) (ready : List Message) :
    ExtTreeMap Int64 Message :=
  ready.foldl (fun buffer m => buffer.erase m.sortKey) buffer

theorem getElem?_removeAll (buffer : ExtTreeMap Int64 Message) (ready : List Message)
    (k : Int64) :
    (removeAll buffer ready)[k]? = if k ∈ ready.map Message.sortKey then none else buffer[k]? := by
  induction ready generalizing buffer with
  | nil => simp [removeAll]
  | cons m ready ih =>
    show (removeAll (buffer.erase m.sortKey) ready)[k]? = _
    rw [ih, ExtTreeMap.getElem?_erase]
    by_cases hk : k = m.sortKey
    · subst hk
      simp
    · have hcmp : ¬ compare m.sortKey k = .eq := by
        rw [Std.compare_eq_iff_eq]
        exact Ne.symm hk
      simp [hk, hcmp]

/-- `buffer.range(..=cutoff)`. -/
def readyAt (buffer : ExtTreeMap Int64 Message) (cutoff : Int64) : List Message :=
  (buffer.toList.filter fun entry => entry.1 ≤ cutoff).map Prod.snd

theorem keyed_insert {buffer : ExtTreeMap Int64 Message}
    (hkeyed : ∀ (k : Int64) (m : Message), buffer[k]? = some m → m.sortKey = k)
    (msg : Message) (k : Int64) (m : Message)
    (hm : (buffer.insert msg.sortKey msg)[k]? = some m) : m.sortKey = k := by
  rw [ExtTreeMap.getElem?_insert] at hm
  split at hm
  · rename_i hk
    rw [← Option.some.inj hm]
    exact Std.compare_eq_iff_eq.mp hk
  · exact hkeyed k m hm

/-- `ReorderWindow::insert`: the messages that are released, and the window
after it. -/
def ReorderWindow.insert (window : ReorderWindow) (msg : Message) (arrivalMs : Int64) :
    List Message × ReorderWindow :=
  let buffer := window.buffer.insert msg.sortKey msg
  let latestArrivalMs := max window.latestArrivalMs arrivalMs
  let cutoff := saturatingSub latestArrivalMs window.windowMs.toInt64
  let ready := readyAt buffer cutoff
  (ready, {
    buffer := removeAll buffer ready
    windowMs := window.windowMs
    latestArrivalMs := latestArrivalMs
    keyed := by
      intro k m hm
      rw [getElem?_removeAll] at hm
      split at hm
      · exact absurd hm (by simp)
      · exact keyed_insert window.keyed msg k m hm })

/-- `flush_all`. -/
def ReorderWindow.flushAll (window : ReorderWindow) : List Message × ReorderWindow :=
  (window.buffer.toList.map Prod.snd,
    { window with
      buffer := ∅
      keyed := by simp })

/-- `latest_arrival_ms - window_ms`, up to which an insert releases. -/
def ReorderWindow.cutoff (window : ReorderWindow) : Int64 :=
  saturatingSub window.latestArrivalMs window.windowMs.toInt64

/-- `is_empty`. -/
def ReorderWindow.isEmpty (window : ReorderWindow) : Bool := window.buffer.isEmpty

/-! ## What a window holds -/

/-- The message is in the window. -/
def ReorderWindow.Holds (window : ReorderWindow) (m : Message) : Prop :=
  window.buffer[m.sortKey]? = some m

theorem ReorderWindow.not_holds_new (windowMs : UInt64) (m : Message) :
    ¬ (ReorderWindow.new windowMs).Holds m := by
  simp [ReorderWindow.Holds, ReorderWindow.new]

theorem ReorderWindow.not_holds_of_isEmpty {window : ReorderWindow}
    (h : window.isEmpty = true) (m : Message) : ¬ window.Holds m := by
  have hempty : window.buffer = ∅ := ExtTreeMap.isEmpty_iff.mp h
  unfold ReorderWindow.Holds
  rw [hempty]
  simp

theorem mem_readyAt {buffer : ExtTreeMap Int64 Message}
    (hkeyed : ∀ (k : Int64) (m : Message), buffer[k]? = some m → m.sortKey = k)
    {cutoff : Int64} {m : Message} :
    m ∈ readyAt buffer cutoff ↔ buffer[m.sortKey]? = some m ∧ m.sortKey ≤ cutoff := by
  unfold readyAt
  rw [List.mem_map]
  constructor
  · intro hready
    obtain ⟨⟨k, m'⟩, hmem, rfl⟩ := hready
    rw [List.mem_filter, ExtTreeMap.mem_toList_iff_getElem?_eq_some] at hmem
    obtain ⟨hget, hle⟩ := hmem
    have hk := hkeyed k m' hget
    subst hk
    exact ⟨hget, by simpa using hle⟩
  · intro hheld
    obtain ⟨hget, hle⟩ := hheld
    refine ⟨(m.sortKey, m), ?_, rfl⟩
    rw [List.mem_filter, ExtTreeMap.mem_toList_iff_getElem?_eq_some]
    exact ⟨hget, by simpa using hle⟩

theorem ReorderWindow.mem_flushAll_iff (window : ReorderWindow) (m : Message) :
    m ∈ window.flushAll.1 ↔ window.Holds m := by
  unfold ReorderWindow.flushAll
  rw [List.mem_map]
  constructor
  · intro hflushed
    obtain ⟨⟨k, m'⟩, hmem, rfl⟩ := hflushed
    rw [ExtTreeMap.mem_toList_iff_getElem?_eq_some] at hmem
    have hk := window.keyed k m' hmem
    subst hk
    exact hmem
  · intro h
    exact ⟨(m.sortKey, m), ExtTreeMap.mem_toList_iff_getElem?_eq_some.mpr h, rfl⟩

theorem ReorderWindow.flushAll_of_isEmpty {window : ReorderWindow}
    (h : window.isEmpty = true) : window.flushAll.1 = [] := by
  rw [List.eq_nil_iff_forall_not_mem]
  intro m hm
  exact not_holds_of_isEmpty h m ((window.mem_flushAll_iff m).mp hm)

theorem ReorderWindow.not_holds_flushAll (window : ReorderWindow) (m : Message) :
    ¬ window.flushAll.2.Holds m := by
  simp [ReorderWindow.Holds, ReorderWindow.flushAll]

/-- What the buffer has after an insert, before the release. -/
theorem getElem?_inserted_iff (window : ReorderWindow) (msg m : Message) :
    (window.buffer.insert msg.sortKey msg)[m.sortKey]? = some m ↔
      m = msg ∨ (window.Holds m ∧ m.sortKey ≠ msg.sortKey) := by
  rw [ExtTreeMap.getElem?_insert]
  by_cases hk : m.sortKey = msg.sortKey
  · rw [if_pos (Std.compare_eq_iff_eq.mpr hk.symm)]
    simp [hk, eq_comm]
  · rw [if_neg (fun hc => hk (Std.compare_eq_iff_eq.mp hc).symm)]
    have hne : m ≠ msg := fun heq => hk (by rw [heq])
    simp [hk, hne, ReorderWindow.Holds]

/-- An insert releases what is not above the cutoff. -/
theorem ReorderWindow.mem_released_iff (window : ReorderWindow) (msg : Message)
    (arrivalMs : Int64) (m : Message) :
    m ∈ (window.insert msg arrivalMs).1 ↔
      (m = msg ∨ (window.Holds m ∧ m.sortKey ≠ msg.sortKey)) ∧
        m.sortKey ≤ (window.insert msg arrivalMs).2.cutoff := by
  rw [← getElem?_inserted_iff]
  exact mem_readyAt (keyed_insert window.keyed msg)

/-- An insert keeps what is above the cutoff. -/
theorem ReorderWindow.holds_insert_iff (window : ReorderWindow) (msg : Message)
    (arrivalMs : Int64) (m : Message) :
    (window.insert msg arrivalMs).2.Holds m ↔
      (m = msg ∨ (window.Holds m ∧ m.sortKey ≠ msg.sortKey)) ∧
        ¬ m.sortKey ≤ (window.insert msg arrivalMs).2.cutoff := by
  rw [← getElem?_inserted_iff]
  have hkeyed := keyed_insert window.keyed msg
  show (removeAll _ (readyAt _ _))[m.sortKey]? = some m ↔ _
  rw [getElem?_removeAll]
  split
  · rename_i hready
    -- a released message with this sort key is not above the cutoff
    obtain ⟨m', hm', hkey⟩ := List.mem_map.mp hready
    have hle := ((mem_readyAt hkeyed).mp hm').2
    rw [hkey] at hle
    constructor
    · intro h
      cases h
    · exact fun h => absurd hle h.2
  · rename_i hready
    constructor
    · intro hget
      refine ⟨hget, fun hle => hready ?_⟩
      exact List.mem_map_of_mem ((mem_readyAt hkeyed).mpr ⟨hget, hle⟩)
    · exact fun h => h.1

/-- What an insert releases or keeps. -/
theorem ReorderWindow.mem_insert_iff (window : ReorderWindow) (msg : Message)
    (arrivalMs : Int64) (m : Message) :
    (m ∈ (window.insert msg arrivalMs).1 ∨ (window.insert msg arrivalMs).2.Holds m) ↔
      m = msg ∨ (window.Holds m ∧ m.sortKey ≠ msg.sortKey) := by
  rw [mem_released_iff, holds_insert_iff]
  by_cases hle : m.sortKey ≤ (window.insert msg arrivalMs).2.cutoff
  · simp only [hle, and_true, not_true, and_false, or_false]
  · simp only [hle, and_true, not_false_eq_true, and_false, false_or]

/-! ## The order of what is released -/

/-- The messages of a buffer stand in the order of their sort keys. -/
theorem sorted_values {buffer : ExtTreeMap Int64 Message}
    (hkeyed : ∀ (k : Int64) (m : Message), buffer[k]? = some m → m.sortKey = k) :
    (buffer.toList.map Prod.snd).Pairwise fun m m' => m.sortKey < m'.sortKey := by
  rw [List.pairwise_map]
  refine (ExtTreeMap.ordered_keys_toList (t := buffer)).imp_of_mem ?_
  intro e e' he he' hlt
  rw [hkeyed e.1 e.2 (ExtTreeMap.mem_toList_iff_getElem?_eq_some.mp he),
    hkeyed e'.1 e'.2 (ExtTreeMap.mem_toList_iff_getElem?_eq_some.mp he')]
  exact Std.compare_eq_lt.mp hlt

theorem ReorderWindow.sorted_flushAll (window : ReorderWindow) :
    window.flushAll.1.Pairwise fun m m' => m.sortKey < m'.sortKey :=
  sorted_values window.keyed

theorem ReorderWindow.sorted_insert (window : ReorderWindow) (msg : Message) (arrivalMs : Int64) :
    (window.insert msg arrivalMs).1.Pairwise fun m m' => m.sortKey < m'.sortKey :=
  (sorted_values (keyed_insert window.keyed msg)).sublist (List.filter_sublist.map Prod.snd)

/-! ## The cutoff only rises -/

theorem int64_le_max_left (a b : Int64) : a ≤ max a b := by
  show a ≤ if a ≤ b then b else a
  split
  · assumption
  · exact Int64.le_refl a

theorem toInt_saturatingSub (a b : Int64) :
    (saturatingSub a b).toInt =
      max Int64.minValue.toInt (min Int64.maxValue.toInt (a.toInt - b.toInt)) := by
  have hmin : Int64.minValue.toInt = -2 ^ 63 := Int64.toInt_minValue
  have hmax : Int64.maxValue.toInt = 2 ^ 63 - 1 := Int64.toInt_maxValue
  unfold saturatingSub
  rw [Int64.toInt_ofInt_of_le]
  · omega
  · omega

theorem saturatingSub_mono {a a' : Int64} (h : a ≤ a') (b : Int64) :
    saturatingSub a b ≤ saturatingSub a' b := by
  rw [Int64.le_iff_toInt_le] at h ⊢
  rw [toInt_saturatingSub, toInt_saturatingSub]
  omega

theorem ReorderWindow.cutoff_le_insert (window : ReorderWindow) (msg : Message)
    (arrivalMs : Int64) : window.cutoff ≤ (window.insert msg arrivalMs).2.cutoff :=
  saturatingSub_mono (int64_le_max_left _ _) _

end MagicLaw.Routing
