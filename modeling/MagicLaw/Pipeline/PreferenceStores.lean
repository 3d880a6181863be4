import Mathlib.Data.List.Sort
import Mathlib.Logic.Function.Basic
import MagicLaw.Pipeline.Middleware

/-!
# Two stores of preferences

The port `UserPreferenceStore` of `domain/ports/user_preference_store.rs`, with
the store in memory beside it and the one of
`adapters/sqlite_user_preference_store.rs`.

A store is for a map from the channel, the account scope and the peer to the
name of an agent.  `Refines` says so of one implementation, operation by
operation, and `stores_agree` reads off it that callers cannot tell the two
stores apart, up to the order of a list.  All statements of the second store
work, and the clock, which is a `UInt64` of seconds, is not before 1970: `set`
fails where it is.
-/

namespace MagicLaw.Pipeline

open Lib

/-- The channel, the account scope and the peer. -/
abbrev PreferenceKey := String × String × String

structure UserAgentPreferences where
  channel : String
  accountScope : String
  peerId : String
  agentName : String
  deriving DecidableEq

def UserAgentPreferences.key (p : UserAgentPreferences) : PreferenceKey :=
  (p.channel, p.accountScope, p.peerId)

/-- The port, with the clock as an argument of `set`. -/
structure UserPreferenceStore (σ : Type) where
  get : σ → PreferenceKey → Option String
  set : σ → PreferenceKey → String → UInt64 → σ
  list : σ → Option String → List UserAgentPreferences

/-! ## What a store is for -/

/-- The agent of each key. -/
abbrev Preferences := PreferenceKey → Option String

/-- The channel is the one that is asked for, if one is. -/
def onChannel (channel : Option String) (p : UserAgentPreferences) : Bool :=
  channel.all fun c => p.channel = c

/-- The rows are the preferences of the channel, each once. -/
structure Lists (prefs : Preferences) (channel : Option String) (rows : List UserAgentPreferences) :
    Prop where
  nodup : rows.Nodup
  mem_iff : ∀ p, p ∈ rows ↔ prefs p.key = some p.agentName ∧ onChannel channel p = true

theorem Lists.perm {prefs : Preferences} {channel : Option String}
    {rows rows' : List UserAgentPreferences} (h : Lists prefs channel rows)
    (h' : Lists prefs channel rows') : rows.Perm rows' :=
  (List.perm_ext_iff_of_nodup h.nodup h'.nodup).mpr fun p => (h.mem_iff p).trans (h'.mem_iff p).symm

/-- The store does on its states what is done on the map. -/
structure Refines {σ : Type} (store : UserPreferenceStore σ) (R : Preferences → σ → Prop) : Prop where
  get : ∀ prefs s key, R prefs s → store.get s key = prefs key
  set : ∀ prefs s key agent now, R prefs s →
    R (Function.update prefs key (some agent)) (store.set s key agent now)
  list : ∀ prefs s channel, R prefs s → Lists prefs channel (store.list s channel)

/-! ## The store in memory -/

def InMemory.get (inner : List UserAgentPreferences) (key : PreferenceKey) : Option String :=
  (inner.find? fun p => p.key = key).map UserAgentPreferences.agentName

/-- The first entry of the key is changed, or one is pushed. -/
def InMemory.set : List UserAgentPreferences → PreferenceKey → String → List UserAgentPreferences
  | [], key, agent => [⟨key.1, key.2.1, key.2.2, agent⟩]
  | p :: inner, key, agent =>
    if p.key = key then { p with agentName := agent } :: inner
    else p :: InMemory.set inner key agent

def InMemoryPreferenceStore : UserPreferenceStore (List UserAgentPreferences) where
  get := InMemory.get
  set inner key agent _ := InMemory.set inner key agent
  list inner channel := inner.filter (onChannel channel)

/-- No key has two entries. -/
structure InMemory.Holds (prefs : Preferences) (inner : List UserAgentPreferences) : Prop where
  nodup : (inner.map UserAgentPreferences.key).Nodup
  get : ∀ key, InMemory.get inner key = prefs key

theorem InMemory.Holds.empty : InMemory.Holds (fun _ => none) [] :=
  ⟨List.nodup_nil, fun _ => rfl⟩

theorem InMemory.get_cons (p : UserAgentPreferences) (inner : List UserAgentPreferences)
    (key : PreferenceKey) :
    InMemory.get (p :: inner) key =
      if p.key = key then some p.agentName else InMemory.get inner key := by
  unfold InMemory.get
  by_cases hkey : p.key = key
  · rw [List.find?_cons_of_pos (by simpa using hkey), if_pos hkey]
    rfl
  · rw [List.find?_cons_of_neg (by simpa using hkey), if_neg hkey]

theorem InMemory.get_set (inner : List UserAgentPreferences) (key : PreferenceKey) (agent : String)
    (key' : PreferenceKey) :
    InMemory.get (InMemory.set inner key agent) key' =
      if key = key' then some agent else InMemory.get inner key' := by
  induction inner with
  | nil => exact InMemory.get_cons _ _ _
  | cons p inner ih =>
    unfold InMemory.set
    by_cases hkey : p.key = key
    · rw [if_pos hkey, InMemory.get_cons, InMemory.get_cons]
      have hkey' : UserAgentPreferences.key { p with agentName := agent } = key := hkey
      rw [hkey', hkey]
      by_cases h : key = key'
      · rw [if_pos h, if_pos h]
      · rw [if_neg h, if_neg h, if_neg h]
    · rw [if_neg hkey, InMemory.get_cons, InMemory.get_cons, ih]
      by_cases h : p.key = key'
      · rw [if_pos h, if_pos h, if_neg fun heq => hkey (h.trans heq.symm)]
      · rw [if_neg h, if_neg h]

/-- The keys stay, and a new one comes to the end. -/
theorem InMemory.keys_set (inner : List UserAgentPreferences) (key : PreferenceKey) (agent : String) :
    (InMemory.set inner key agent).map UserAgentPreferences.key =
      if key ∈ inner.map UserAgentPreferences.key then inner.map UserAgentPreferences.key
      else inner.map UserAgentPreferences.key ++ [key] := by
  induction inner with
  | nil => rfl
  | cons p inner ih =>
    unfold InMemory.set
    by_cases hkey : p.key = key
    · subst hkey
      rw [if_pos rfl, if_pos (by simp)]
      rfl
    · rw [if_neg hkey, List.map_cons, ih, List.map_cons]
      have hmem : key ∈ p.key :: inner.map UserAgentPreferences.key ↔
          key ∈ inner.map UserAgentPreferences.key := by
        simp [Ne.symm hkey]
      by_cases hin : key ∈ inner.map UserAgentPreferences.key
      · rw [if_pos hin, if_pos (hmem.mpr hin)]
      · rw [if_neg hin, if_neg (mt hmem.mp hin), List.cons_append]

/-- An entry is the one that a look at its key finds. -/
theorem InMemory.mem_iff_get {inner : List UserAgentPreferences}
    (hnodup : (inner.map UserAgentPreferences.key).Nodup) (p : UserAgentPreferences) :
    p ∈ inner ↔ InMemory.get inner p.key = some p.agentName := by
  induction inner with
  | nil => exact iff_of_false List.not_mem_nil (by simp [InMemory.get])
  | cons first inner ih =>
    rw [List.map_cons, List.nodup_cons] at hnodup
    rw [List.mem_cons, InMemory.get_cons, ih hnodup.2]
    by_cases hkey : first.key = p.key
    · rw [if_pos hkey]
      have hrest : InMemory.get inner p.key ≠ some p.agentName := by
        rw [ne_eq, ← ih hnodup.2]
        exact fun hmem => hnodup.1 (hkey ▸ List.mem_map_of_mem hmem)
      rw [or_iff_left hrest]
      obtain ⟨channel, accountScope, peerId, agentName⟩ := p
      obtain ⟨channel', accountScope', peerId', agentName'⟩ := first
      simp only [UserAgentPreferences.key, Prod.mk.injEq] at hkey
      obtain ⟨rfl, rfl, rfl⟩ := hkey
      simp [eq_comm]
    · rw [if_neg hkey, or_iff_right]
      rintro rfl
      exact hkey rfl

theorem inMemory_refines : Refines InMemoryPreferenceStore InMemory.Holds where
  get _ _ key h := h.get key
  set prefs inner key agent now h := by
    refine ⟨?_, fun key' => ?_⟩
    · show ((InMemory.set inner key agent).map UserAgentPreferences.key).Nodup
      rw [InMemory.keys_set]
      split
      · exact h.nodup
      · next hnew =>
        refine List.nodup_append.mpr ⟨h.nodup, List.nodup_singleton _, fun old hold new hmem => ?_⟩
        rintro rfl
        exact hnew (List.mem_singleton.mp hmem ▸ hold)
    · refine (InMemory.get_set inner key agent key').trans ?_
      rw [Function.update_apply, h.get]
      simp only [eq_comm]
  list prefs inner channel h := by
    refine ⟨h.nodup.of_map.filter _, fun p => ?_⟩
    show p ∈ inner.filter _ ↔ _
    rw [List.mem_filter, InMemory.mem_iff_get h.nodup, h.get]

/-! ## The store in SQLite -/

def UserAgentPreference.toPreferences (row : UserAgentPreference) : UserAgentPreferences :=
  ⟨row.channel, row.accountScope, row.peerId, row.agentName⟩

/-- `ORDER BY updated_at DESC` -/
def newestFirst (rows : List UserAgentPreference) : List UserAgentPreference :=
  rows.insertionSort fun a b => b.updatedAt ≤ a.updatedAt

/-- The store with statements that work. -/
def SqliteUserPreferenceStore : UserPreferenceStore (KeyedTable UserAgentPreference.key) where
  get := getUserAgent
  set := setUserAgent
  list preferences channel :=
    (newestFirst (preferences.select fun row => onChannel channel row.toPreferences)).map
      UserAgentPreference.toPreferences

theorem nodup_toPreferences {preferences : KeyedTable UserAgentPreference.key}
    {rows : List UserAgentPreference} (hrows : rows.Sublist preferences.rows) :
    (rows.map UserAgentPreference.toPreferences).Nodup := by
  refine List.Nodup.of_map UserAgentPreferences.key ?_
  rw [List.map_map]
  exact preferences.nodup.sublist (hrows.map UserAgentPreference.key)

/-- A row is the one that a look at its key finds. -/
theorem exists_row_iff {preferences : KeyedTable UserAgentPreference.key} {channel : Option String}
    {p : UserAgentPreferences} :
    (∃ row ∈ preferences.select fun row => onChannel channel row.toPreferences,
        row.toPreferences = p) ↔
      getUserAgent preferences p.key = some p.agentName ∧ onChannel channel p = true := by
  constructor
  · rintro ⟨row, hrow, rfl⟩
    obtain ⟨hfind, hchannel⟩ := KeyedTable.mem_select.mp hrow
    refine ⟨?_, hchannel⟩
    show (preferences.find? row.key).map _ = _
    rw [hfind]
    rfl
  · rintro ⟨hget, hchannel⟩
    obtain ⟨row, hfind, hagent⟩ := Option.map_eq_some_iff.mp hget
    have hkey := KeyedTable.key_of_find? hfind
    have hrow : row.toPreferences = p := by
      obtain ⟨channel', accountScope, peerId, agentName⟩ := p
      simp only [UserAgentPreference.key, UserAgentPreferences.key, Prod.mk.injEq] at hkey
      simp only [UserAgentPreference.toPreferences, UserAgentPreferences.mk.injEq]
      exact ⟨hkey.1, hkey.2.1, hkey.2.2, hagent⟩
    refine ⟨row, KeyedTable.mem_select.mpr ⟨?_, hrow ▸ hchannel⟩, hrow⟩
    rw [hkey]
    exact hfind

theorem sqlite_refines : Refines SqliteUserPreferenceStore
    fun prefs preferences => ∀ key, getUserAgent preferences key = prefs key where
  get _ _ key h := h key
  set prefs preferences key agent now h := by
    intro key'
    rw [Function.update_apply, ← h]
    exact getUserAgent_setUserAgent preferences key key' agent now
  list prefs preferences channel h := by
    have hperm := (List.perm_insertionSort (fun a b : UserAgentPreference => b.updatedAt ≤ a.updatedAt)
      (preferences.select fun row => onChannel channel row.toPreferences)).map
        UserAgentPreference.toPreferences
    refine ⟨hperm.nodup_iff.mpr (nodup_toPreferences List.filter_sublist), fun p => ?_⟩
    rw [← h]
    exact hperm.mem_iff.trans (List.mem_map.trans exists_row_iff)

/-! ## Callers -/

inductive PreferenceOp where
  | get (key : PreferenceKey)
  | set (key : PreferenceKey) (agent : String) (now : UInt64)
  | list (channel : Option String)

inductive PreferenceReply where
  | agent (name : Option String)
  | done
  | rows (found : List UserAgentPreferences)

section Callers

variable {σ τ : Type}

def UserPreferenceStore.step (store : UserPreferenceStore σ) (s : σ) :
    PreferenceOp → PreferenceReply × σ
  | .get key => (.agent (store.get s key), s)
  | .set key agent now => (.done, store.set s key agent now)
  | .list channel => (.rows (store.list s channel), s)

/-- What a caller is told, operation by operation. -/
def UserPreferenceStore.replies (store : UserPreferenceStore σ) : σ → List PreferenceOp →
    List PreferenceReply
  | _, [] => []
  | s, op :: ops => (store.step s op).1 :: store.replies (store.step s op).2 ops

/-- The replies are the same, and lists up to their order. -/
def PreferenceReply.Agrees : PreferenceReply → PreferenceReply → Prop
  | .agent name, .agent name' => name = name'
  | .done, .done => True
  | .rows found, .rows found' => found.Perm found'
  | _, _ => False

/-- One operation on two stores of one map. -/
theorem step_agrees {store : UserPreferenceStore σ} {store' : UserPreferenceStore τ}
    {R : Preferences → σ → Prop} {R' : Preferences → τ → Prop} (h : Refines store R)
    (h' : Refines store' R') {prefs : Preferences} {s : σ} {t : τ} (hs : R prefs s) (ht : R' prefs t)
    (op : PreferenceOp) :
    (store.step s op).1.Agrees (store'.step t op).1 ∧
      ∃ prefs', R prefs' (store.step s op).2 ∧ R' prefs' (store'.step t op).2 := by
  cases op with
  | get key => exact ⟨(h.get _ _ key hs).trans (h'.get _ _ key ht).symm, prefs, hs, ht⟩
  | set key agent now => exact ⟨trivial, _, h.set _ _ key agent now hs, h'.set _ _ key agent now ht⟩
  | list channel => exact ⟨(h.list _ _ channel hs).perm (h'.list _ _ channel ht), prefs, hs, ht⟩

theorem replies_agree {store : UserPreferenceStore σ} {store' : UserPreferenceStore τ}
    {R : Preferences → σ → Prop} {R' : Preferences → τ → Prop} (h : Refines store R)
    (h' : Refines store' R') {prefs : Preferences} {s : σ} {t : τ} (hs : R prefs s) (ht : R' prefs t)
    (ops : List PreferenceOp) :
    List.Forall₂ PreferenceReply.Agrees (store.replies s ops) (store'.replies t ops) := by
  induction ops generalizing prefs s t with
  | nil => exact .nil
  | cons op ops ih =>
    obtain ⟨hreply, prefs', hs', ht'⟩ := step_agrees h h' hs ht op
    exact .cons hreply (ih hs' ht')

end Callers

/-- From the start on, the store in memory and the one in SQLite give the same
replies to every sequence of operations, while the statements work and the clock
is not before 1970: they differ in the order of the lists alone. -/
theorem stores_agree (ops : List PreferenceOp) :
    List.Forall₂ PreferenceReply.Agrees (InMemoryPreferenceStore.replies [] ops)
      (SqliteUserPreferenceStore.replies KeyedTable.empty ops) :=
  replies_agree inMemory_refines sqlite_refines InMemory.Holds.empty (fun _ => rfl) ops

end MagicLaw.Pipeline
