import MagicLaw.Feishu.Webhook
import MagicLaw.Inbound.Gate
import MagicLaw.Lib.JoinedKeys
import MagicLaw.Pipeline.Preferences

/-!
# Keys that are joined with a colon

The cache of `check_and_set` and the windows of `RateLimit` have one entry for
a channel and a message id, or a channel and a scope, under the text of both
with a colon between them.  An account of Feishu has a colon in its channel,
so two pairs may have one text.

* `dedupSlots`, `rateSlots`: both filters as slots under a joined key.
* `compositeKeys_separate_iff`: the cache keeps all pairs apart exactly when no
  two of them have one key, and the windows do exactly when, at every call, the
  last call under its key is as long ago as the last one of its own pair, as
  far as the interval goes.
-/

namespace MagicLaw.Pipeline

open Lib Lib.Machine Lib.Isolation Lib.JoinedKeys
open MagicLaw.Inbound (DedupEntry)

/-! ## The cache -/

/-- `check_and_set`, as long as nothing expires. -/
def checkAndSet (w : Inbound.World) (entry : DedupEntry) : Bool × Inbound.World :=
  Inbound.handle w Inbound.works (.checkAndSet entry.channel entry.msgId)

def dedupSlots : Slots DedupEntry (String × String) String Unit Bool where
  pair entry := (entry.channel, entry.msgId)
  join pair := pair.1 ++ ":" ++ pair.2
  value _ := ()
  result _ found := found.isNone

/-- The results of `check_and_set` for a pair, one after the other. -/
def dedupResults (pair : String × String) : List DedupEntry → List Bool :=
  outputs (fun w entry => (checkAndSet w entry).2) (fun w entry => (checkAndSet w entry).1)
    (dedupSlots.isFor pair) Inbound.World.init

/-- The cache has the keys of these calls. -/
def Caches (w : Inbound.World) (before : List DedupEntry) : Prop :=
  ∀ k, (w.dedup.find? k).isNone = (dedupSlots.slot before k).isNone

theorem caches_init : Caches .init [] := fun _ => rfl

theorem checkAndSet_of_caches {w : Inbound.World} {before : List DedupEntry}
    (h : Caches w before) (entry : DedupEntry) :
    (checkAndSet w entry).1 = dedupSlots.out before entry ∧
      Caches (checkAndSet w entry).2 (Slots.after before entry) := by
  have hout : dedupSlots.out before entry = (w.dedup.find? entry.key).isNone := (h entry.key).symm
  have hslot : ∀ k, (dedupSlots.slot (Slots.after before entry) k).isNone =
      if k = entry.key then false else (dedupSlots.slot before k).isNone := by
    intro k
    rw [dedupSlots.slot_after before entry k]
    show (if k = entry.key then some () else _).isNone = _
    split <;> rfl
  rw [hout]
  cases hfind : w.dedup.find? entry.key with
  | none =>
    have hset : checkAndSet w entry = (true, { w with dedup := w.dedup.append entry hfind }) := by
      simp only [checkAndSet, Inbound.handle]
      rw [KeyedTable.insert_eq_some hfind]
      rfl
    rw [hset]
    refine ⟨rfl, fun k => ?_⟩
    show ((w.dedup.append entry hfind).find? k).isNone = _
    rw [KeyedTable.find?_append, hslot]
    by_cases hk : k = entry.key
    · rw [if_pos hk, if_pos hk]
      rfl
    · rw [if_neg hk, if_neg hk]
      exact h k
  | some old =>
    have hfound : w.dedup.find? entry.key ≠ none := by
      rw [hfind]
      exact Option.some_ne_none old
    have hset : checkAndSet w entry = (false, w) := by
      simp only [checkAndSet, Inbound.handle]
      rw [KeyedTable.insert_eq_none hfound]
      rfl
    rw [hset]
    refine ⟨rfl, fun k => ?_⟩
    rw [hslot]
    by_cases hk : k = entry.key
    · rw [if_pos hk, hk, hfind]
      rfl
    · rw [if_neg hk]
      exact h k

/-! ## The windows -/

/-- A message that comes to `RateLimit`. -/
structure RateCall where
  ctx : PipelineContext
  env : Surroundings

def rateSlots (minIntervalMs : UInt64) :
    Slots RateCall (String × String) String Nat (Except PipelineError PipelineContext) where
  pair call := (call.ctx.message.routeKey.channel.name, scope call.ctx.message.routeKey)
  join pair := s!"{pair.1}:{pair.2}"
  value call := call.env.passedAt
  result call last := .ok { call.ctx with
    shortCircuit := call.ctx.shortCircuit || tooSoon minIntervalMs last call.env.checkedAt }

def rateProcess (minIntervalMs : UInt64) (s : PipelineState) (call : RateCall) :
    Except PipelineError PipelineContext × PipelineState :=
  (rateLimit minIntervalMs call.env).process call.ctx s

/-- What `RateLimit` makes of the messages for a pair, one after the other. -/
def rateResults (minIntervalMs : UInt64) (pair : String × String) :
    List RateCall → List (Except PipelineError PipelineContext) :=
  outputs (fun s call => (rateProcess minIntervalMs s call).2)
    (fun s call => (rateProcess minIntervalMs s call).1) ((rateSlots minIntervalMs).isFor pair)
    PipelineState.init

theorem rateProcess_of_windows {minIntervalMs : UInt64} {s : PipelineState}
    {before : List RateCall} (h : s.windows = (rateSlots minIntervalMs).slot before)
    (call : RateCall) :
    (rateProcess minIntervalMs s call).1 = (rateSlots minIntervalMs).out before call ∧
      (rateProcess minIntervalMs s call).2.windows =
        (rateSlots minIntervalMs).slot (Slots.after before call) := by
  constructor
  · show Except.ok _ = (rateSlots minIntervalMs).out before call
    rw [h]
    rfl
  · show Function.update s.windows (windowKey call.ctx.message.routeKey)
      (some call.env.passedAt) = _
    funext k
    rw [(rateSlots minIntervalMs).slot_after before call k, Function.update_apply, h]
    rfl

/-- The message is let through or not as it would be if only messages for its
pair had come before. -/
def SameVerdict (minIntervalMs : UInt64) (before : List RateCall) (call : RateCall) : Prop :=
  call.ctx.shortCircuit = true ∨
    tooSoon minIntervalMs
        ((rateSlots minIntervalMs).slot before ((rateSlots minIntervalMs).key call))
        call.env.checkedAt =
      tooSoon minIntervalMs
        ((rateSlots minIntervalMs).own before ((rateSlots minIntervalMs).pair call))
        call.env.checkedAt

theorem undisturbed_iff_sameVerdict {minIntervalMs : UInt64} (before : List RateCall)
    (call : RateCall) :
    (rateSlots minIntervalMs).Undisturbed before call ↔ SameVerdict minIntervalMs before call := by
  unfold Slots.Undisturbed Slots.out SameVerdict
  simp only [rateSlots, Except.ok.injEq, PipelineContext.mk.injEq, and_true, true_and]
  cases call.ctx.shortCircuit <;> simp

/-! ## Both -/

/-- Whatever pairs of a channel and an id or a scope come, each gets what it
would get if no other had come, from the cache and from the windows, exactly
under these conditions. -/
theorem compositeKeys_separate_iff (minIntervalMs : UInt64) (entries : List DedupEntry)
    (calls : List RateCall) :
    ((∀ pair, dedupResults pair entries =
        dedupResults pair (entries.filter (dedupSlots.isFor pair))) ↔
      ∀ c ∈ entries, ∀ d ∈ entries, c.key = d.key → c = d) ∧
    ((∀ pair, rateResults minIntervalMs pair calls =
        rateResults minIntervalMs pair (calls.filter ((rateSlots minIntervalMs).isFor pair))) ↔
      EveryStep (total Slots.after) (SameVerdict minIntervalMs) [] calls) := by
  constructor
  · have hsim : ∀ pair entries, dedupResults pair entries =
        outputs Slots.after dedupSlots.out (dedupSlots.isFor pair) [] entries :=
      fun pair entries => outputs_eq_of_sim Caches
        (fun _ _ entry h => (checkAndSet_of_caches h entry).1)
        (fun _ _ entry h => (checkAndSet_of_caches h entry).2) _ caches_init entries
    simp only [hsim]
    refine (dedupSlots.unaffected_iff entries).trans ?_
    rw [Slots.undisturbed_isNone_iff fun _ _ => rfl]
    have hpair : ∀ c d : DedupEntry, dedupSlots.pair c = dedupSlots.pair d ↔ c = d := by
      intro c d
      cases c
      cases d
      simp [dedupSlots]
    simp only [Slots.KeysApart, hpair]
    rfl
  · have hsim : ∀ pair calls, rateResults minIntervalMs pair calls =
        outputs Slots.after (rateSlots minIntervalMs).out
          ((rateSlots minIntervalMs).isFor pair) [] calls :=
      fun pair calls => outputs_eq_of_sim
        (fun s before => s.windows = (rateSlots minIntervalMs).slot before)
        (fun _ _ call h => (rateProcess_of_windows h call).1)
        (fun _ _ call h => (rateProcess_of_windows h call).2) _ rfl calls
    simp only [hsim]
    exact ((rateSlots minIntervalMs).unaffected_iff calls).trans
      (everyStep_congr undisturbed_iff_sameVerdict [] calls)

def CompositeKeysSeparate : Prop :=
  ∀ (minIntervalMs : UInt64) (entries : List DedupEntry) (calls : List RateCall)
    (pair : String × String),
    dedupResults pair entries = dedupResults pair (entries.filter (dedupSlots.isFor pair)) ∧
      rateResults minIntervalMs pair calls =
        rateResults minIntervalMs pair (calls.filter ((rateSlots minIntervalMs).isFor pair))

/-- A message of the default account, and one of the account `a`. -/
def sameKey : List DedupEntry :=
  [⟨(Feishu.feishuChannelId "default").name, "a:b"⟩, ⟨(Feishu.feishuChannelId "a").name, "b"⟩]

/-- The second one is taken for the first. -/
theorem not_compositeKeysSeparate : ¬ CompositeKeysSeparate := by
  intro h
  exact absurd (h 0 sameKey [] ("feishu:a", "b")).1 (by decide +kernel)

end MagicLaw.Pipeline
