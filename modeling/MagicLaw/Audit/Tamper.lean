import MagicLaw.Audit.Chain
import MagicLaw.Lib.Sha256

/-!
# What the verifier detects

Two questions about rows that the verifier accepts, for chains of any
length, under the assumption that SHA-256 has no collision on the byte
strings involved (`NoCollisions`).

* Which changes of the content are detected, when the stored hashes stay?
  `tampered_rejected_iff` answers it.  The pre-image joins the fields with
  `|` and does not escape them, so exactly the changes that keep the joined
  text and the timestamp pass: text moved across a `|` from one field to the
  next, and an absent `route_key` made empty or the other way round.
* Which selections of the rows are accepted?  `selection_accepted_iff`: the
  prefixes, and nothing else.

The second answer rests on the encoding.  A stored predecessor is empty or
hex, so it holds no `|`, and the first `|` of a pre-image ends it
(`prevHash_eq_of_preimage_eq`).  Equal entry hashes therefore commit to equal
predecessors.
-/

namespace MagicLaw.Audit

open Lib.Bytes
open Lib.HashChain

/-- SHA-256 tells the byte strings of the list apart. -/
def NoCollisions (sha256 : Sha256) (inputs : List (List UInt8)) : Prop :=
  ∀ x ∈ inputs, ∀ y ∈ inputs, sha256 x = sha256 y → x = y

instance (sha256 : Sha256) (inputs : List (List UInt8)) :
    Decidable (NoCollisions sha256 inputs) :=
  inferInstanceAs (Decidable (∀ x ∈ inputs, ∀ y ∈ inputs, _))

/-! ## Hex -/

theorem hexDigit_inj {i j : UInt8} (hi : i.toNat < 16) (hj : j.toNat < 16)
    (h : hexDigit i = hexDigit j) : i = j := by
  have key : ∀ a b : Fin 16, hexDigit (UInt8.ofNat a) = hexDigit (UInt8.ofNat b) → a = b := by
    decide
  have := key ⟨i.toNat, hi⟩ ⟨j.toNat, hj⟩ (by simpa using h)
  exact UInt8.toNat_inj.mp (Fin.mk.inj this)

/-- The two digits of a byte determine it. -/
theorem hexDigits_inj {b c : UInt8} (hhigh : hexDigit (b >>> 4) = hexDigit (c >>> 4))
    (hlow : hexDigit (b &&& 0x0f) = hexDigit (c &&& 0x0f)) : b = c := by
  have hb := b.toNat_lt
  have hc := c.toNat_lt
  have high : ∀ x : UInt8, (x >>> 4).toNat = x.toNat / 16 := by
    intro x
    rw [UInt8.toNat_shiftRight, Nat.shiftRight_eq_div_pow]
    rfl
  have low : ∀ x : UInt8, (x &&& 0x0f).toNat = x.toNat % 16 := by
    intro x
    rw [UInt8.toNat_and]
    exact Nat.and_two_pow_sub_one_eq_mod x.toNat 4
  have h1 := congrArg UInt8.toNat
    (hexDigit_inj (by rw [high]; omega) (by rw [high]; omega) hhigh)
  have h2 := congrArg UInt8.toNat
    (hexDigit_inj (by rw [low]; omega) (by rw [low]; omega) hlow)
  rw [high, high] at h1
  rw [low, low] at h2
  exact UInt8.toNat_inj.mp (by omega)

theorem toHex_inj {bs cs : List UInt8} (h : toHex bs = toHex cs) : bs = cs := by
  have hlist := String.ofList_injective h
  clear h
  induction bs generalizing cs with
  | nil => cases cs <;> simp_all
  | cons b bs ih =>
    cases cs with
    | nil => simp at hlist
    | cons c cs =>
      simp only [List.flatMap_cons, List.cons_append, List.nil_append,
        List.cons.injEq] at hlist
      rw [hexDigits_inj hlist.1 hlist.2.1, ih hlist.2.2]

/-- The byte of `|`. -/
def separator : UInt8 := 0x7c

theorem asBytes_separator : asBytes "|" = [separator] := by decide

/-- No hex string holds a `|`. -/
theorem separator_notMem_toHex (bs : List UInt8) : separator ∉ asBytes (toHex bs) := by
  have hdigit : ∀ i : UInt8, separator ∉ String.utf8EncodeChar (hexDigit i) := by
    intro i
    have hdigits : ('0' :: "0123456789abcdef".toList).all
        (fun c => !(String.utf8EncodeChar c).contains separator) = true := by decide
    suffices hmem : hexDigit i ∈ '0' :: "0123456789abcdef".toList by
      simpa using List.all_eq_true.mp hdigits _ hmem
    unfold hexDigit
    rw [List.getD_eq_getElem?_getD]
    cases hget : "0123456789abcdef".toList[i.toNat]? with
    | none => simp
    | some c => exact List.mem_cons_of_mem _ (List.mem_of_getElem? hget)
  rw [toHex, asBytes_ofList]
  simp only [List.mem_flatMap, not_exists, not_and]
  intro c hpre
  obtain ⟨b, _, hc⟩ := hpre
  rcases List.mem_cons.mp hc with rfl | hc
  · exact hdigit _
  · rw [List.mem_singleton.mp hc]
    exact hdigit _

/-! ## The pre-image -/

/-- The three text fields as the pre-image joins them. -/
def ChainRow.auditedText (row : ChainRow) : String :=
  row.routeKey.getD "" ++ "|" ++ row.action ++ "|" ++ row.result

theorem ChainRow.preimage_eq (row : ChainRow) :
    row.preimage = asBytes (row.prevHash.getD "") ++
      separator :: (asBytes (row.auditedText ++ "|") ++ toBeBytes row.createdAt) := by
  simp only [ChainRow.preimage, Audit.preimage, ChainRow.auditedText, asBytes_append,
    asBytes_separator, List.append_assoc, List.cons_append, List.nil_append]

/-- Rows with the same predecessor have the same pre-image exactly when they
agree on the joined text and on the timestamp. -/
theorem preimage_eq_iff {row row' : ChainRow} (hprev : row'.prevHash = row.prevHash) :
    row'.preimage = row.preimage ↔
      row'.auditedText = row.auditedText ∧ row'.createdAt = row.createdAt := by
  rw [row.preimage_eq, row'.preimage_eq, hprev, List.append_cancel_left_eq,
    List.cons.injEq, eq_of_same_length_suffix (by simp), toBeBytes_inj, asBytes_inj,
    String.append_left_inj]
  simp

/-- The recomputed hashes agree exactly when the pre-images do. -/
theorem computed_eq_iff {sha256 : Sha256} {inputs : List (List UInt8)}
    (hnc : NoCollisions sha256 inputs) {row row' : ChainRow} (hrow : row.preimage ∈ inputs)
    (hrow' : row'.preimage ∈ inputs) :
    row'.computed sha256 = row.computed sha256 ↔ row'.preimage = row.preimage := by
  constructor
  · intro h
    exact hnc _ hrow' _ hrow (Vector.toList_inj.mp (toHex_inj h))
  · intro h
    exact congrArg (fun bytes => toHex (sha256 bytes).toList) h

/-! ## A changed content under unchanged hashes -/

/-- The copy has as many rows and stores the same hashes. -/
def SameStoredHashes (rows rows' : List ChainRow) : Prop :=
  List.Forall₂ (fun row row' => row'.prevHash = row.prevHash ∧ row'.entryHash = row.entryHash)
    rows rows'

/-- Every row of the copy has the joined text and the timestamp of the
original. -/
def SameAuditedText (rows rows' : List ChainRow) : Prop :=
  List.Forall₂ (fun row row' => row'.auditedText = row.auditedText ∧
    row'.createdAt = row.createdAt) rows rows'

instance (rows rows' : List ChainRow) : Decidable (SameStoredHashes rows rows') :=
  inferInstanceAs (Decidable (List.Forall₂ _ rows rows'))

instance (rows rows' : List ChainRow) : Decidable (SameAuditedText rows rows') :=
  inferInstanceAs (Decidable (List.Forall₂ _ rows rows'))

/-- The audited content of a row. -/
structure Content where
  routeKey : Option String
  action : String
  result : String
  createdAt : Int64
  deriving DecidableEq

def ChainRow.content (row : ChainRow) : Content :=
  ⟨row.routeKey, row.action, row.result, row.createdAt⟩

/-- Where the stored hashes stay, the contents of the copy hash to the stored
values exactly when the copy keeps the joined texts and the timestamps. -/
theorem hashes_kept_iff {sha256 : Sha256} {inputs : List (List UInt8)}
    (hnc : NoCollisions sha256 inputs) {rows rows' : List ChainRow}
    (hsame : SameStoredHashes rows rows')
    (hrows : ∀ row ∈ rows, row.preimage ∈ inputs)
    (hrows' : ∀ row ∈ rows', row.preimage ∈ inputs) :
    List.Forall₂ (fun row row' => rowHash sha256 row.prevHash row' =
      rowHash sha256 row.prevHash row) rows rows' ↔ SameAuditedText rows rows' := by
  unfold SameAuditedText
  induction hsame with
  | nil => simp
  | @cons row row' rows rows' hrow _ ih =>
    rw [List.forall_mem_cons] at hrows hrows'
    have hcomputed : rowHash sha256 row.prevHash row' = row'.computed sha256 := by
      rw [← hrow.1]
      rfl
    rw [List.forall₂_cons, List.forall₂_cons, ih hrows.2 hrows'.2, hcomputed,
      rowHash_prevHash, computed_eq_iff hnc hrows.1 hrows'.1, preimage_eq_iff hrow.1]

/-- A copy that keeps the stored hashes is rejected exactly when it changes
the joined text or the timestamp of some row. -/
theorem tampered_rejected_iff (sha256 : Sha256) {rows rows' : List ChainRow}
    (haccepted : Accepted sha256 rows) (hsame : SameStoredHashes rows rows')
    (hnc : NoCollisions sha256
      (rows.map ChainRow.preimage ++ rows'.map ChainRow.preimage)) :
    ¬ Accepted sha256 rows' ↔ ¬ SameAuditedText rows rows' := by
  have hlinks : List.Forall₂ SameHashes (rows.map ChainRow.link) (rows'.map ChainRow.link) := by
    rw [List.forall₂_map_left_iff, List.forall₂_map_right_iff]
    exact hsame
  rw [accepted_iff_chained] at haccepted
  rw [accepted_iff_chained, Chained, linked_iff_of_same_hashes haccepted hlinks,
    List.forall₂_map_left_iff, List.forall₂_map_right_iff,
    ← hashes_kept_iff hnc hsame (fun _ h => List.mem_append_left _ (List.mem_map_of_mem h))
      (fun _ h => List.mem_append_right _ (List.mem_map_of_mem h))]
  rfl

/-- A changed result is rejected. -/
theorem tampered_result_rejected :
    ¬ Accepted Lib.Sha256.digest
      [⟨1, none, "ac8cbad102a16fd48626fa31c72aae9c1607a72156404d46ecb548325aa72b53",
        some "wechat/c1", "send", "TAMPERED", 1700000000⟩] :=
  (@tampered_rejected_iff Lib.Sha256.digest
    [⟨1, none, "ac8cbad102a16fd48626fa31c72aae9c1607a72156404d46ecb548325aa72b53",
      some "wechat/c1", "send", "sent", 1700000000⟩] _
    (by decide +kernel) (by decide) (by decide +kernel)).mpr (by decide)

/-- What the verifier is meant to guarantee: a copy that keeps the stored
hashes and changes some audited content is rejected. -/
def FieldTamperEvident (sha256 : Sha256) : Prop :=
  ∀ rows rows' : List ChainRow, Accepted sha256 rows → SameStoredHashes rows rows' →
    NoCollisions sha256 (rows.map ChainRow.preimage ++ rows'.map ChainRow.preimage) →
    rows.map ChainRow.content ≠ rows'.map ChainRow.content → ¬ Accepted sha256 rows'

/-- It does not: an action that takes over the text of the result up to a `|`
leaves the pre-image as it was. -/
theorem not_fieldTamperEvident : ¬ FieldTamperEvident Lib.Sha256.digest := by
  intro h
  refine h
    [⟨1, none, "ec84b7992687694549fa15d1d80425058a7a6356b4cb30c2190657a32a4a2a6c",
      some "wechat/c1", "send", "retrying (1): a|b", 1700000000⟩]
    [⟨1, none, "ec84b7992687694549fa15d1d80425058a7a6356b4cb30c2190657a32a4a2a6c",
      some "wechat/c1", "send|retrying (1): a", "b", 1700000000⟩]
    ?_ ?_ ?_ ?_ ?_
  · decide +kernel
  · decide
  · decide +kernel
  · decide
  · decide +kernel

/-! ## A selection of the rows -/

/-- The entry hash of an accepted row is hex, and so is a predecessor that
is not absent. -/
theorem Accepted.prevHash_eq_toHex {sha256 : Sha256} {rows : List ChainRow}
    (h : Accepted sha256 rows) {row : ChainRow} (hrow : row ∈ rows) :
    row.prevHash = none ∨ ∃ bytes : Vector UInt8 32,
      row.prevHash = some (toHex bytes.toList) := by
  rcases h.prevHash_of_mem hrow with hnone | ⟨row', hrow', hsome⟩
  · exact Or.inl hnone
  · refine Or.inr ⟨sha256 row'.preimage, ?_⟩
    rw [hsome, h.entryHash_of_mem hrow']
    rfl

theorem toHex_ne_empty (bytes : Vector UInt8 32) : toHex bytes.toList ≠ "" := by
  intro h
  have hlist : bytes.toList = [] := toHex_inj (h.trans (by rfl : "" = toHex []))
  have hlen := congrArg List.length hlist
  rw [Vector.length_toList] at hlen
  exact absurd hlen (by decide)

/-- The first `|` of the pre-image of an accepted row ends its predecessor. -/
theorem prevHash_eq_of_preimage_eq {sha256 : Sha256} {rows : List ChainRow}
    (h : Accepted sha256 rows) {row row' : ChainRow} (hrow : row ∈ rows)
    (hrow' : row' ∈ rows) (heq : row.preimage = row'.preimage) :
    row.prevHash = row'.prevHash := by
  have hclean : ∀ r ∈ rows, separator ∉ asBytes (r.prevHash.getD "") := by
    intro r hr
    rcases h.prevHash_eq_toHex hr with hnone | ⟨bytes, hsome⟩
    · rw [hnone]
      decide
    · rw [hsome]
      exact separator_notMem_toHex _
  rw [row.preimage_eq, row'.preimage_eq] at heq
  have hgetD := asBytes_inj.mp (eq_of_separated (hclean row hrow) (hclean row' hrow') heq).1
  rcases h.prevHash_eq_toHex hrow with hp | ⟨bytes, hp⟩ <;>
    rcases h.prevHash_eq_toHex hrow' with hp' | ⟨bytes', hp'⟩ <;>
    rw [hp, hp'] at hgetD ⊢
  · exact absurd hgetD.symm (toHex_ne_empty bytes')
  · exact absurd hgetD (toHex_ne_empty bytes)
  · exact congrArg some hgetD

/-- Equal entry hashes of an accepted chain commit to equal predecessors. -/
theorem Accepted.binding {sha256 : Sha256} {rows : List ChainRow}
    (h : Accepted sha256 rows) (hnc : NoCollisions sha256 (rows.map ChainRow.preimage)) :
    Binding (rows.map ChainRow.link) := by
  intro l hl l' hl' heq
  obtain ⟨row, hrow, rfl⟩ := List.mem_map.mp hl
  obtain ⟨row', hrow', rfl⟩ := List.mem_map.mp hl'
  rw [ChainRow.link_hash, ChainRow.link_hash, h.entryHash_of_mem hrow,
    h.entryHash_of_mem hrow'] at heq
  have hpre := (computed_eq_iff hnc (List.mem_map_of_mem hrow') (List.mem_map_of_mem hrow)).mp heq
  exact prevHash_eq_of_preimage_eq h hrow hrow' hpre

/-- Of all the lists whose rows are drawn from an accepted chain, the
verifier accepts exactly the prefixes. -/
theorem selection_accepted_iff (sha256 : Sha256) {rows rows' : List ChainRow}
    (haccepted : Accepted sha256 rows)
    (hnc : NoCollisions sha256 (rows.map ChainRow.preimage))
    (hdrawn : ∀ row ∈ rows', row ∈ rows) :
    Accepted sha256 rows' ↔ rows' <+: rows := by
  have hlinks : ∀ l ∈ rows'.map ChainRow.link, l ∈ rows.map ChainRow.link := by
    intro l hl
    obtain ⟨row, hrow, rfl⟩ := List.mem_map.mp hl
    exact List.mem_map_of_mem (hdrawn row hrow)
  rw [accepted_iff_chained, Chained,
    linked_iff_prefix ((accepted_iff_chained sha256 rows).mp haccepted)
      (haccepted.binding hnc) hlinks,
    List.prefix_map_iff_of_injective ChainRow.link_injective]

/-- The first row of a chain of two is accepted. -/
theorem first_row_accepted :
    Accepted Lib.Sha256.digest
      [⟨1, none, "ac8cbad102a16fd48626fa31c72aae9c1607a72156404d46ecb548325aa72b53",
        some "wechat/c1", "send", "sent", 1700000000⟩] :=
  (@selection_accepted_iff Lib.Sha256.digest
    [⟨1, none, "ac8cbad102a16fd48626fa31c72aae9c1607a72156404d46ecb548325aa72b53",
        some "wechat/c1", "send", "sent", 1700000000⟩,
      ⟨2, some "ac8cbad102a16fd48626fa31c72aae9c1607a72156404d46ecb548325aa72b53",
        "48067af541ac5f95be3572c220c4b9820a509f10a09949e658c3e1151ed2f044",
        some "wechat/c1", "dead_letter", "max retries", 1700000001⟩] _
    (by decide +kernel) (by decide +kernel) (by decide)).mpr (by decide)

end MagicLaw.Audit
