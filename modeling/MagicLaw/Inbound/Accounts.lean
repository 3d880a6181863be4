import MagicLaw.Inbound.Gate
import MagicLaw.Lib.Isolation

/-!
# Deliveries on other channels

Each account has a channel of its own.  What is answered on one channel should
be what would be answered if nothing had been delivered on the others.

The cache keeps the channels apart as far as its keys do, but the table has
the message id alone as its key.  So the answers on a channel are its own
exactly when no delivery on it meets what another channel left in the filters
(`account_isolated_iff`).
-/

namespace MagicLaw.Inbound

open Lib Lib.Program Lib.Machine Lib.Isolation
open MagicLaw.Routing (ChannelId Message)

/-- The events that happen in any case, whatever is delivered on the other
channels. -/
def Event.concerns (c : ChannelId) : Event → Bool
  | .deliver d => d.msg.routeKey.channel = c
  | .expire _ => true

/-- What is answered at an event. -/
def World.answerTo (w : World) : Event → Option Answer
  | .deliver d => w.answer d
  | .expire _ => none

/-- The answers to the deliveries on a channel. -/
def answersOn (c : ChannelId) : World → List Event → List (Option Answer) :=
  outputs World.after World.answerTo (Event.concerns c)

/-- A delivery finds its message id in the table, under another channel, or
comes to the cache with an id that is new to the table, and the cache has the
key. -/
def World.MeetsOther (w : World) (c : ChannelId) : Event → Prop
  | .expire _ => False
  | .deliver d => d.LooksUp ∧
    ((∃ channel, w.recorded d.msg.id = some channel ∧ channel ≠ c.name) ∨
      (w.recorded d.msg.id = none ∧ d.Reaches ∧ w.Marked d.msg))

/-- `v` has what the channel left in the filters `w`, and nothing else. -/
structure Restricted (c : ChannelId) (w v : World) : Prop where
  recorded : ∀ id, v.recorded id = (w.recorded id).filter (· = c.name)
  dedup : ∀ entry ∈ v.dedup.rows, entry.channel = c.name ∧ v.recorded entry.msgId ≠ none

section Restricted

variable {c : ChannelId} {w v : World} {d : Delivery}

theorem Restricted.recorded_ne_none_iff (h : Restricted c w v) (id : String) :
    v.recorded id ≠ none ↔ w.recorded id = some c.name := by
  rw [h.recorded]
  cases w.recorded id with
  | none => simp
  | some channel => simp

/-- On one channel the key determines the id. -/
theorem msgId_eq_of_key_eq {entry entry' : DedupEntry} (hchannel : entry.channel = entry'.channel)
    (hkey : entry.key = entry'.key) : entry.msgId = entry'.msgId := by
  unfold DedupEntry.key at hkey
  rw [hchannel] at hkey
  exact (String.append_right_inj _).mp hkey

/-- What the cache has of the channel alone, the table has too. -/
theorem Restricted.recorded_of_marked (h : Restricted c w v) {msg : Message}
    (hchannel : msg.routeKey.channel = c) (hmarked : v.Marked msg) : v.recorded msg.id ≠ none := by
  obtain ⟨entry, hfind⟩ := Option.ne_none_iff_exists'.mp hmarked
  obtain ⟨hmem, hkey⟩ := KeyedTable.find?_eq_some_iff.mp hfind
  obtain ⟨hc, hrec⟩ := h.dedup entry hmem
  have hsame : entry.channel = (dedupEntry msg).channel := by
    rw [hc, ← hchannel]
    rfl
  have hid : entry.msgId = msg.id := msgId_eq_of_key_eq hsame hkey
  rwa [← hid]

theorem Restricted.repeats_iff (h : Restricted c w v) (hchannel : d.msg.routeKey.channel = c) :
    v.Repeats d ↔ d.LooksUp ∧ w.recorded d.msg.id = some c.name := by
  rw [← h.recorded_ne_none_iff]
  unfold World.Repeats
  apply and_congr_right
  intro _
  constructor
  · intro hknown
    rcases hknown with hrec | hreach
    · exact hrec
    · exact h.recorded_of_marked hchannel hreach.2
  · exact Or.inl

theorem Restricted.answer_eq_iff (h : Restricted c w v) (hchannel : d.msg.routeKey.channel = c) :
    w.answer d = v.answer d ↔ ¬ w.MeetsOther c (.deliver d) := by
  have hv := h.repeats_iff hchannel
  constructor
  · intro heq hmeets
    obtain ⟨hlook, hother⟩ := hmeets
    have hw : w.Repeats d := by
      refine ⟨hlook, ?_⟩
      rcases hother with ⟨channel, hrec, _⟩ | ⟨_, hreach⟩
      · exact Or.inl (by simp [hrec])
      · exact Or.inr hreach
    rw [(answer_eq_duplicate_iff w d).mpr hw] at heq
    have hown := (hv.mp ((answer_eq_duplicate_iff v d).mp heq.symm)).2
    rcases hother with ⟨channel, hrec, hne⟩ | ⟨hrec, _⟩
    · rw [hown, Option.some.injEq] at hrec
      exact hne hrec.symm
    · rw [hown] at hrec
      exact absurd hrec (by simp)
  · intro hnot
    by_cases hown : d.LooksUp ∧ w.recorded d.msg.id = some c.name
    · have hw : w.Repeats d := ⟨hown.1, Or.inl (by simp [hown.2])⟩
      rw [(answer_eq_duplicate_iff w d).mpr hw, (answer_eq_duplicate_iff v d).mpr (hv.mpr hown)]
    · apply answer_eq_of_not_repeats
      · intro hw
        obtain ⟨hlook, hknown⟩ := hw
        cases hrec : w.recorded d.msg.id with
        | some channel =>
          have hne : channel ≠ c.name := fun heq => hown ⟨hlook, heq ▸ hrec⟩
          exact hnot ⟨hlook, Or.inl ⟨channel, hrec, hne⟩⟩
        | none =>
          have hreach := hknown.resolve_left fun hn => hn hrec
          exact hnot ⟨hlook, Or.inr ⟨hrec, hreach⟩⟩
      · exact fun hrepeats => hown (hv.mp hrepeats)

/-- A delivery on the channel that meets nothing of another one leaves the same
in both. -/
theorem Restricted.deliver (h : Restricted c w v) (hchannel : d.msg.routeKey.channel = c)
    (hnot : ¬ w.MeetsOther c (.deliver d)) : Restricted c (w.deliver d) (v.deliver d) := by
  have hw := leftBy_deliver w d
  have hv := leftBy_deliver v d
  have hrec : ∀ id, (v.deliver d).recorded id =
      ((w.deliver d).recorded id).filter (· = c.name) := by
    intro id
    by_cases hstores : w.Stores d
    · obtain ⟨hlook, hinserts, hfree⟩ := hstores
      have hfree' : v.recorded d.msg.id = none := by
        rw [h.recorded, hfree]
        rfl
      rw [hw.stored ⟨hlook, hinserts, hfree⟩, hv.stored ⟨hlook, hinserts, hfree'⟩, hchannel]
      by_cases hid : id = d.msg.id
      · rw [if_pos hid, if_pos hid]
        simp [Option.filter_some]
      · rw [if_neg hid, if_neg hid, h.recorded]
    · have hstores' : ¬ v.Stores d := by
        intro hs
        obtain ⟨hlook, hinserts, hfree'⟩ := hs
        cases hrec : w.recorded d.msg.id with
        | none => exact hstores ⟨hlook, hinserts, hrec⟩
        | some channel =>
          apply hnot
          refine ⟨hlook, Or.inl ⟨channel, hrec, fun heq => ?_⟩⟩
          have hown := (h.recorded_ne_none_iff d.msg.id).mpr (heq ▸ hrec)
          exact hown hfree'
      rw [hw.kept hstores, hv.kept hstores', h.recorded]
  refine ⟨hrec, fun entry hentry => ?_⟩
  rcases hv.dedup entry hentry with hold | ⟨hnew, hstores⟩
  · obtain ⟨hc, hknown⟩ := h.dedup entry hold
    refine ⟨hc, fun hnone => hknown ?_⟩
    by_cases hstores : v.Stores d
    · rw [hv.stored hstores] at hnone
      split at hnone
      · exact absurd hnone (by simp)
      · exact hnone
    · rwa [hv.kept hstores] at hnone
  · subst hnew
    refine ⟨congrArg ChannelId.name hchannel, ?_⟩
    show (v.deliver d).recorded d.msg.id ≠ none
    rw [hv.stored hstores, if_pos rfl]
    simp

/-- A delivery on another channel leaves nothing that the channel would have
left. -/
theorem Restricted.deliver_other (h : Restricted c w v) (hchannel : d.msg.routeKey.channel ≠ c) :
    Restricted c (w.deliver d) v := by
  have hw := leftBy_deliver w d
  refine ⟨fun id => ?_, h.dedup⟩
  by_cases hstores : w.Stores d
  · rw [hw.stored hstores, h.recorded]
    by_cases hid : id = d.msg.id
    · have hne : d.msg.routeKey.channel.name ≠ c.name := by
        intro heq
        apply hchannel
        cases hd : d.msg.routeKey.channel with
        | mk name =>
          rw [hd] at heq
          cases c with
          | mk name' => exact congrArg ChannelId.mk heq
      rw [if_pos hid, hid, hstores.2.2]
      simp [Option.filter_some, hne]
    · rw [if_neg hid]
  · rw [hw.kept hstores, h.recorded]

theorem Restricted.expire (h : Restricted c w v) (key : String) :
    Restricted c (w.after (.expire key)) (v.after (.expire key)) :=
  ⟨h.recorded, fun entry hentry => h.dedup entry (List.mem_of_mem_filter hentry)⟩

end Restricted

theorem unwinding_accounts (c : ChannelId) :
    Unwinding World.after World.answerTo (Event.concerns c) (Restricted c)
      (fun w event => ¬ w.MeetsOther c event) where
  dropped w v event hkept h := by
    cases event with
    | expire key => exact absurd hkept (by simp [Event.concerns])
    | deliver d => exact h.deliver_other (by simpa [Event.concerns] using hkept)
  out_eq_iff w v event hkept h := by
    cases event with
    | expire key => exact iff_of_true rfl not_false
    | deliver d => exact h.answer_eq_iff (by simpa [Event.concerns] using hkept)
  sim w v event hkept h hnot := by
    cases event with
    | expire key => exact h.expire key
    | deliver d => exact h.deliver (by simpa [Event.concerns] using hkept) hnot

/-- For every sequence of deliveries, the answers on a channel are those that
are given without the deliveries on all other channels exactly when none of
its deliveries meets what another channel left. -/
theorem account_isolated_iff (c : ChannelId) (events : List Event) :
    answersOn c World.init events = answersOn c World.init (events.filter (Event.concerns c)) ↔
      EveryStep (total World.after)
        (fun w event => event.concerns c = true → ¬ w.MeetsOther c event) World.init events := by
  have hinit : Restricted c World.init World.init :=
    ⟨fun _ => rfl, fun entry hentry => absurd hentry List.not_mem_nil⟩
  exact outputs_eq_iff (unwinding_accounts c) hinit events

/-! ## One message id on two accounts -/

def AccountsIsolated : Prop :=
  ∀ (c : ChannelId) (events : List Event),
    answersOn c World.init events = answersOn c World.init (events.filter (Event.concerns c))

/-- The message of the same id that comes to another account. -/
def helloOther : Message :=
  { hello with routeKey := { hello.routeKey with channel := ⟨"feishu:b"⟩ } }

/-- The second account's message is taken for a duplicate of the first
account's. -/
theorem not_accountsIsolated : ¬ AccountsIsolated := by
  intro h
  have hsame := h ⟨"feishu:b"⟩ [.deliver ⟨hello, allWork⟩, .deliver ⟨helloOther, allWork⟩]
  exact absurd hsame (by decide +kernel)

end MagicLaw.Inbound
