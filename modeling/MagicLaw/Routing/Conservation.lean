import Mathlib.Data.List.Induction
import Mathlib.Data.Multiset.Basic
import MagicLaw.Routing.ReorderWindow

/-!
# What goes into a reorder window comes out of it

A list of inserts into a new window, and a flush after them.  The messages
that come out are the ones that went in, each as often, exactly when no
message comes under a sort key that another one still waits under
(`conserves_iff`).  Whether one waits can be read off the inserts: its sort
key is above the cutoff of the inserts before (`holdsKey_after_iff`).
-/

namespace MagicLaw.Routing

/-- A message, and the time at which it arrives. -/
abbrev Arrival := Message × Int64

/-- The inserts, one after the other. -/
def ReorderWindow.insertAll (window : ReorderWindow) (arrivals : List Arrival) :
    List Message × ReorderWindow :=
  arrivals.foldl
    (fun (released, window) (msg, arrivalMs) =>
      let (ready, window) := window.insert msg arrivalMs
      (released ++ ready, window))
    ([], window)

/-- All that the inserts into a new window release, and the flush after them. -/
def releasedBy (windowMs : UInt64) (arrivals : List Arrival) : List Message :=
  let (released, window) := (ReorderWindow.new windowMs).insertAll arrivals
  released ++ window.flushAll.1

/-- What comes out is what went in. -/
def Conserves (windowMs : UInt64) (arrivals : List Arrival) : Prop :=
  (releasedBy windowMs arrivals : Multiset Message) = (arrivals.map Prod.fst : List Message)

/-- The latest of the times, and of the one that a new window starts with. -/
def latestArrivalMs (arrivals : List Arrival) : Int64 :=
  arrivals.foldl (fun latest arrival => max latest arrival.2) 0

/-- The cutoff after the inserts. -/
def cutoffAfter (windowMs : UInt64) (arrivals : List Arrival) : Int64 :=
  saturatingSub (latestArrivalMs arrivals) windowMs.toInt64

/-- Whenever a message comes under the sort key of an earlier one, the cutoff
has reached that sort key before. -/
def NoKeyWaits (windowMs : UInt64) (arrivals : List Arrival) : Prop :=
  ∀ before arrival, before ++ [arrival] <+: arrivals →
    ∀ earlier ∈ before, earlier.1.sortKey = arrival.1.sortKey →
      arrival.1.sortKey ≤ cutoffAfter windowMs before

/-! ## The window after some inserts -/

section Run

variable {windowMs : UInt64} {arrivals : List Arrival} {arrival : Arrival}

/-- The window after the inserts. -/
def after (windowMs : UInt64) (arrivals : List Arrival) : ReorderWindow :=
  ((ReorderWindow.new windowMs).insertAll arrivals).2

theorem insertAll_append (window : ReorderWindow) :
    window.insertAll (arrivals ++ [arrival]) =
      ((window.insertAll arrivals).1 ++
          ((window.insertAll arrivals).2.insert arrival.1 arrival.2).1,
        ((window.insertAll arrivals).2.insert arrival.1 arrival.2).2) := by
  unfold ReorderWindow.insertAll
  rw [List.foldl_append]
  rfl

theorem after_append :
    after windowMs (arrivals ++ [arrival]) =
      ((after windowMs arrivals).insert arrival.1 arrival.2).2 := by
  unfold after
  rw [insertAll_append]

theorem windowMs_after : (after windowMs arrivals).windowMs = windowMs := by
  induction arrivals using List.reverseRecOn with
  | nil => rfl
  | append_singleton arrivals arrival ih =>
    rw [after_append]
    exact ih

theorem latestArrivalMs_after :
    (after windowMs arrivals).latestArrivalMs = latestArrivalMs arrivals := by
  induction arrivals using List.reverseRecOn with
  | nil => rfl
  | append_singleton arrivals arrival ih =>
    unfold latestArrivalMs
    rw [after_append, List.foldl_append]
    show max (after windowMs arrivals).latestArrivalMs arrival.2 = _
    rw [ih]
    rfl

theorem cutoff_after : (after windowMs arrivals).cutoff = cutoffAfter windowMs arrivals := by
  unfold ReorderWindow.cutoff cutoffAfter
  rw [latestArrivalMs_after, windowMs_after]

end Run

/-! ## The sort keys that are waited under -/

/-- A message waits under the sort key. -/
def ReorderWindow.HoldsKey (window : ReorderWindow) (key : Int64) : Prop :=
  ∃ m, window.Holds m ∧ m.sortKey = key

theorem ReorderWindow.holdsKey_insert_iff (window : ReorderWindow) (msg : Message)
    (arrivalMs key : Int64) :
    (window.insert msg arrivalMs).2.HoldsKey key ↔
      (key = msg.sortKey ∨ window.HoldsKey key) ∧
        ¬ key ≤ (window.insert msg arrivalMs).2.cutoff := by
  constructor
  · intro hexists
    obtain ⟨m, hm, rfl⟩ := hexists
    obtain ⟨hnew | ⟨hheld, -⟩, hcutoff⟩ := (window.holds_insert_iff msg arrivalMs m).mp hm
    · exact ⟨Or.inl (by rw [hnew]), hcutoff⟩
    · exact ⟨Or.inr ⟨m, hheld, rfl⟩, hcutoff⟩
  · intro hboth
    obtain ⟨hkey, hcutoff⟩ := hboth
    by_cases hmsg : key = msg.sortKey
    · subst hmsg
      exact ⟨msg, (window.holds_insert_iff msg arrivalMs msg).mpr ⟨Or.inl rfl, hcutoff⟩, rfl⟩
    · obtain ⟨m, hheld, rfl⟩ := hkey.resolve_left hmsg
      exact ⟨m, (window.holds_insert_iff msg arrivalMs m).mpr ⟨Or.inr ⟨hheld, hmsg⟩, hcutoff⟩, rfl⟩

/-- A message waits under a sort key when one has come under it, and the cutoff
has not reached it. -/
theorem holdsKey_after_iff (windowMs : UInt64) (arrivals : List Arrival) (key : Int64) :
    (after windowMs arrivals).HoldsKey key ↔
      (∃ arrival ∈ arrivals, arrival.1.sortKey = key) ∧ ¬ key ≤ cutoffAfter windowMs arrivals := by
  induction arrivals using List.reverseRecOn with
  | nil =>
    constructor
    · intro hexists
      obtain ⟨m, hm, -⟩ := hexists
      exact absurd hm (ReorderWindow.not_holds_new windowMs m)
    · intro hexists
      obtain ⟨⟨arrival, harrival, -⟩, -⟩ := hexists
      exact absurd harrival List.not_mem_nil
  | append_singleton arrivals arrival ih =>
    rw [← cutoff_after, after_append, ReorderWindow.holdsKey_insert_iff, ih, ← cutoff_after]
    have hrises := (after windowMs arrivals).cutoff_le_insert arrival.1 arrival.2
    constructor
    · intro hboth
      rcases hboth with ⟨hkey | ⟨⟨earlier, hearlier, hkey⟩, -⟩, hcutoff⟩
      · exact ⟨⟨arrival, List.mem_append_right _ List.mem_cons_self, hkey.symm⟩, hcutoff⟩
      · exact ⟨⟨earlier, List.mem_append_left _ hearlier, hkey⟩, hcutoff⟩
    · intro hexists
      obtain ⟨⟨earlier, hearlier, hkey⟩, hcutoff⟩ := hexists
      refine ⟨?_, hcutoff⟩
      rcases List.mem_append.mp hearlier with hearlier | hearlier
      · right
        exact ⟨⟨earlier, hearlier, hkey⟩, fun hle => hcutoff (Int64.le_trans hle hrises)⟩
      · rw [List.mem_singleton] at hearlier
        left
        rw [← hkey, hearlier]

/-! ## One insert -/

theorem nodup_of_sorted {messages : List Message}
    (h : messages.Pairwise fun m m' => m.sortKey < m'.sortKey) : messages.Nodup := by
  refine h.imp ?_
  intro m m' hlt heq
  subst heq
  exact Int64.lt_irrefl hlt

/-- What an insert releases, and what a flush would release after it: the
message, and those that waited under other sort keys. -/
theorem ReorderWindow.perm_insert (window : ReorderWindow) (msg : Message) (arrivalMs : Int64) :
    ((window.insert msg arrivalMs).1 ++ (window.insert msg arrivalMs).2.flushAll.1).Perm
      (msg :: window.flushAll.1.filter fun m => m.sortKey ≠ msg.sortKey) := by
  rw [List.perm_ext_iff_of_nodup]
  · intro m
    rw [List.mem_append, mem_flushAll_iff, mem_insert_iff, List.mem_cons, List.mem_filter,
      mem_flushAll_iff, decide_eq_true_iff]
  · rw [List.nodup_append]
    refine ⟨nodup_of_sorted (window.sorted_insert msg arrivalMs),
      nodup_of_sorted (ReorderWindow.sorted_flushAll _), ?_⟩
    intro m hreleased _ hkept heq
    subst heq
    rw [mem_flushAll_iff] at hkept
    exact ((window.holds_insert_iff msg arrivalMs m).mp hkept).2
      ((window.mem_released_iff msg arrivalMs m).mp hreleased).2
  · rw [List.nodup_cons]
    refine ⟨?_, (nodup_of_sorted window.sorted_flushAll).filter _⟩
    intro hmem
    exact of_decide_eq_true (List.mem_filter.mp hmem).2 rfl

/-- Nothing waits under the sort key of the message: nothing is lost. -/
theorem ReorderWindow.perm_insert_of_free {window : ReorderWindow} {msg : Message}
    (hfree : ¬ window.HoldsKey msg.sortKey) (arrivalMs : Int64) :
    ((window.insert msg arrivalMs).1 ++ (window.insert msg arrivalMs).2.flushAll.1).Perm
      (msg :: window.flushAll.1) := by
  have hall : (window.flushAll.1.filter fun m => m.sortKey ≠ msg.sortKey) = window.flushAll.1 := by
    rw [List.filter_eq_self]
    intro m hm
    rw [decide_eq_true_iff]
    exact fun hkey => hfree ⟨m, (window.mem_flushAll_iff m).mp hm, hkey⟩
  have hperm := window.perm_insert msg arrivalMs
  rwa [hall] at hperm

/-- A message waits under the sort key: it is lost, so there is no more to come
out than before. -/
theorem ReorderWindow.length_insert_of_holdsKey {window : ReorderWindow} {msg : Message}
    (hheld : window.HoldsKey msg.sortKey) (arrivalMs : Int64) :
    ((window.insert msg arrivalMs).1 ++ (window.insert msg arrivalMs).2.flushAll.1).length ≤
      window.flushAll.1.length := by
  obtain ⟨m, hm, hkey⟩ := hheld
  rw [(window.perm_insert msg arrivalMs).length_eq, List.length_cons]
  refine List.length_filter_lt_length_iff_exists.mpr ⟨m, (window.mem_flushAll_iff m).mpr hm, ?_⟩
  rw [decide_eq_true_iff]
  exact fun hne => hne hkey

/-! ## All inserts -/

section Conserved

variable {windowMs : UInt64} {arrivals : List Arrival} {arrival : Arrival}

/-- One more insert moves what it releases from the end to the middle. -/
theorem releasedBy_append :
    releasedBy windowMs (arrivals ++ [arrival]) =
      ((ReorderWindow.new windowMs).insertAll arrivals).1 ++
        (((after windowMs arrivals).insert arrival.1 arrival.2).1 ++
          ((after windowMs arrivals).insert arrival.1 arrival.2).2.flushAll.1) := by
  unfold releasedBy
  rw [insertAll_append, ← List.append_assoc]
  rfl

theorem releasedBy_eq :
    releasedBy windowMs arrivals =
      ((ReorderWindow.new windowMs).insertAll arrivals).1 ++ (after windowMs arrivals).flushAll.1 :=
  rfl

theorem perm_releasedBy_of_free (hfree : ¬ (after windowMs arrivals).HoldsKey arrival.1.sortKey) :
    (releasedBy windowMs (arrivals ++ [arrival])).Perm (releasedBy windowMs arrivals ++ [arrival.1]) := by
  rw [releasedBy_append, releasedBy_eq, List.append_assoc]
  refine List.Perm.append_left _ ?_
  exact (ReorderWindow.perm_insert_of_free hfree arrival.2).trans (List.perm_append_singleton _ _).symm

theorem length_releasedBy_of_holdsKey
    (hheld : (after windowMs arrivals).HoldsKey arrival.1.sortKey) :
    (releasedBy windowMs (arrivals ++ [arrival])).length ≤ (releasedBy windowMs arrivals).length := by
  have hle := ReorderWindow.length_insert_of_holdsKey hheld arrival.2
  rw [releasedBy_append, releasedBy_eq]
  simp only [List.length_append] at hle ⊢
  omega

/-- No message comes out twice. -/
theorem length_releasedBy_le (windowMs : UInt64) (arrivals : List Arrival) :
    (releasedBy windowMs arrivals).length ≤ arrivals.length := by
  induction arrivals using List.reverseRecOn with
  | nil => exact Nat.le_refl 0
  | append_singleton arrivals arrival ih =>
    rw [List.length_append, List.length_singleton]
    by_cases hheld : (after windowMs arrivals).HoldsKey arrival.1.sortKey
    · have hle := length_releasedBy_of_holdsKey hheld
      omega
    · have hlen := (perm_releasedBy_of_free hheld).length_eq
      rw [List.length_append, List.length_singleton] at hlen
      omega

theorem conserves_iff_perm :
    Conserves windowMs arrivals ↔ (releasedBy windowMs arrivals).Perm (arrivals.map Prod.fst) :=
  Multiset.coe_eq_coe

/-- An insert keeps the balance when nothing waits under its sort key. -/
theorem conserves_append_iff :
    Conserves windowMs (arrivals ++ [arrival]) ↔
      Conserves windowMs arrivals ∧ ¬ (after windowMs arrivals).HoldsKey arrival.1.sortKey := by
  rw [conserves_iff_perm, conserves_iff_perm, List.map_append, List.map_singleton]
  constructor
  · intro hperm
    have hfree : ¬ (after windowMs arrivals).HoldsKey arrival.1.sortKey := by
      intro hheld
      have hlen := hperm.length_eq
      have hle := length_releasedBy_of_holdsKey hheld
      have hbound := length_releasedBy_le windowMs arrivals
      rw [List.length_append, List.length_map, List.length_singleton] at hlen
      omega
    refine ⟨?_, hfree⟩
    exact (List.perm_append_right_iff _).mp ((perm_releasedBy_of_free hfree).symm.trans hperm)
  · intro hboth
    obtain ⟨hperm, hfree⟩ := hboth
    exact (perm_releasedBy_of_free hfree).trans (hperm.append_right _)

theorem noKeyWaits_append_iff :
    NoKeyWaits windowMs (arrivals ++ [arrival]) ↔
      NoKeyWaits windowMs arrivals ∧ ¬ (after windowMs arrivals).HoldsKey arrival.1.sortKey := by
  have hlast : ¬ (after windowMs arrivals).HoldsKey arrival.1.sortKey ↔
      ∀ earlier ∈ arrivals, earlier.1.sortKey = arrival.1.sortKey →
        arrival.1.sortKey ≤ cutoffAfter windowMs arrivals := by
    rw [holdsKey_after_iff, not_and_not_right]
    constructor
    · exact fun h earlier hmem hkey => h ⟨earlier, hmem, hkey⟩
    · intro h hexists
      obtain ⟨earlier, hmem, hkey⟩ := hexists
      exact h earlier hmem hkey
  rw [hlast]
  constructor
  · intro h
    refine ⟨fun before next hinitial => ?_, h arrivals arrival (List.prefix_refl _)⟩
    exact h before next (hinitial.trans (List.prefix_append _ _))
  · rintro ⟨hbefore, hnow⟩ before next hprefix
    rcases List.prefix_concat_iff.mp hprefix with heq | hprefix
    · obtain ⟨rfl, hnext⟩ := List.append_inj' heq rfl
      rw [List.singleton_inj] at hnext
      subst hnext
      exact hnow
    · exact hbefore before next hprefix

end Conserved

/-- What comes out of a window is what went in exactly when no message comes
under a sort key that another one waits under. -/
theorem conserves_iff (windowMs : UInt64) (arrivals : List Arrival) :
    Conserves windowMs arrivals ↔ NoKeyWaits windowMs arrivals := by
  induction arrivals using List.reverseRecOn with
  | nil =>
    refine iff_of_true rfl ?_
    intro before arrival hprefix
    exact absurd (List.prefix_nil.mp hprefix) (List.append_ne_nil_of_right_ne_nil _ (by simp))
  | append_singleton arrivals arrival ih => rw [conserves_append_iff, noKeyWaits_append_iff, ih]

/-! ## A window that loses a message -/

/-- Every window gives back what it was given. -/
def EveryWindowConserves : Prop :=
  ∀ (windowMs : UInt64) (arrivals : List Arrival), Conserves windowMs arrivals

/-- A message of alice, which has no sequence. -/
def fromAlice (id : String) (timestampMs : Int64) : Message :=
  Message.newInbound id ⟨⟨"wechat"⟩, "alice", "alice", .direct⟩ none timestampMs (.text id)

/-- Two messages of one millisecond. -/
def sameMillisecond : List Arrival :=
  [(fromAlice "m1" 1700000000000, 1700000000000), (fromAlice "m2" 1700000000000, 1700000000001)]

/-- The second message takes the place of the first one. -/
theorem not_everyWindowConserves : ¬ EveryWindowConserves := by
  intro h
  have hlen := (conserves_iff_perm.mp (h 200 sameMillisecond)).length_eq
  exact absurd hlen (by decide +kernel)

end MagicLaw.Routing
