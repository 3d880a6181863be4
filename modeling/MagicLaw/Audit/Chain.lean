import MagicLaw.Lib.Bytes
import MagicLaw.Lib.HashChain
import Mathlib.Data.List.Forall2

/-!
# The audit chain

`domain/services/audit_chain.rs`: the hash of one audit row and the verifier
that walks the rows in order.

SHA-256 is the parameter `sha256`: a function from byte strings to 32 bytes.
Nothing here depends on what it computes.  Two properties of the source are
visible in the definitions and matter later.

* The pre-image joins the fields with `|`, and the fields are not escaped.
* A missing `route_key` and a missing `prev_hash` enter the pre-image as the
  empty string.

The last part of the module connects the verifier to `Lib.HashChain`:
`verify_eq_ok_iff` says that `verify` accepts exactly the rows that form a
chain, and that it then returns the head.
-/

namespace MagicLaw.Audit

open Lib.Bytes
open Lib.HashChain

/-- SHA-256, as the `sha2` crate offers it. -/
abbrev Sha256 := List UInt8 → Vector UInt8 32

/-! ## The hash of a row -/

/-- `HEX[i] as char`. -/
def hexDigit (i : UInt8) : Char :=
  "0123456789abcdef".toList.getD i.toNat '0'

/-- Lowercase hex, two digits a byte. -/
def toHex (bytes : List UInt8) : String :=
  String.ofList (bytes.flatMap fun (b : UInt8) => [hexDigit (b >>> 4), hexDigit (b &&& 0x0f)])

/-- The errors of the verifier. -/
inductive ChainError where
  | headMismatch (id : Int) (expected actual : Option String)
  | hashMismatch (id : Int) (expected actual : String)
  deriving DecidableEq, Repr

/-- A row of the audit chain as loaded from storage. -/
structure ChainRow where
  id : Int
  prevHash : Option String
  entryHash : String
  routeKey : Option String
  action : String
  result : String
  createdAt : Int64
  deriving DecidableEq

/-- The bytes that `compute_entry_hash` feeds to the hasher, in order. -/
def preimage (prevHash routeKey action result : String) (createdAt : Int64) :
    List UInt8 :=
  asBytes prevHash ++ asBytes "|" ++ asBytes routeKey ++ asBytes "|" ++
    asBytes action ++ asBytes "|" ++ asBytes result ++ asBytes "|" ++
    toBeBytes createdAt

/-- `compute_entry_hash`. -/
def computeEntryHash (sha256 : Sha256) (prevHash routeKey action result : String)
    (createdAt : Int64) : String :=
  toHex (sha256 (preimage prevHash routeKey action result createdAt)).toList

/-- The pre-image that the verifier recomputes for a row: an absent
`prev_hash` or `route_key` counts as the empty string. -/
def ChainRow.preimage (row : ChainRow) : List UInt8 :=
  Audit.preimage (row.prevHash.getD "") (row.routeKey.getD "") row.action row.result
    row.createdAt

/-- The hash that the verifier recomputes for a row. -/
def ChainRow.computed (sha256 : Sha256) (row : ChainRow) : String :=
  computeEntryHash sha256 (row.prevHash.getD "") (row.routeKey.getD "") row.action
    row.result row.createdAt

/-! ## The verifier -/

/-- The loop of `verify`, with its two variables `expected_prev` and
`last_hash`. -/
def verifyLoop (sha256 : Sha256) (expectedPrev lastHash : Option String) :
    List ChainRow → Except ChainError (Option String)
  | [] => .ok lastHash
  | row :: rows =>
    if row.prevHash ≠ expectedPrev then
      .error (.headMismatch row.id expectedPrev row.prevHash)
    else
      let computed := row.computed sha256
      if computed ≠ row.entryHash then
        .error (.hashMismatch row.id computed row.entryHash)
      else
        verifyLoop sha256 (some computed) (some computed) rows

/-- `verify`: the head hash, or the first mismatch. -/
def verify (sha256 : Sha256) (rows : List ChainRow) : Except ChainError (Option String) :=
  verifyLoop sha256 none none rows

/-- The verifier accepts the rows. -/
def Accepted (sha256 : Sha256) (rows : List ChainRow) : Prop :=
  (verify sha256 rows).isOk

instance (sha256 : Sha256) (rows : List ChainRow) : Decidable (Accepted sha256 rows) :=
  inferInstanceAs (Decidable (_ = true))

/-! ## The verifier accepts exactly the chains -/

/-- The entry hash of a row as a function of its predecessor. -/
def rowHash (sha256 : Sha256) (prev : Option String) (row : ChainRow) : String :=
  computeEntryHash sha256 (prev.getD "") (row.routeKey.getD "") row.action row.result
    row.createdAt

/-- A row as a link of a hash chain. -/
def ChainRow.link (row : ChainRow) : Link String ChainRow :=
  ⟨row.prevHash, row, row.entryHash⟩

@[simp] theorem ChainRow.link_prev (row : ChainRow) : row.link.prev = row.prevHash := rfl

@[simp] theorem ChainRow.link_hash (row : ChainRow) : row.link.hash = row.entryHash := rfl

@[simp] theorem ChainRow.link_content (row : ChainRow) : row.link.content = row := rfl

theorem ChainRow.link_injective : Function.Injective ChainRow.link :=
  fun _ _ h => congrArg Link.content h

@[simp] theorem rowHash_prevHash (sha256 : Sha256) (row : ChainRow) :
    rowHash sha256 row.prevHash row = row.computed sha256 := rfl

/-- The rows form a chain that starts without a predecessor. -/
def Chained (sha256 : Sha256) (rows : List ChainRow) : Prop :=
  Linked (rowHash sha256) none (rows.map ChainRow.link)

/-- The last entry hash of the rows. -/
def headHash (rows : List ChainRow) : Option String :=
  head none (rows.map ChainRow.link)

/-- Both variables of the loop are the head of the rows already walked, so
the loop accepts the rest exactly when it continues the chain. -/
theorem verifyLoop_eq_ok_iff (sha256 : Sha256) (p : Option String) (rows : List ChainRow)
    (last : Option String) :
    verifyLoop sha256 p p rows = .ok last ↔
      Linked (rowHash sha256) p (rows.map ChainRow.link) ∧
        last = head p (rows.map ChainRow.link) := by
  induction rows generalizing p with
  | nil => simp [verifyLoop, Linked, eq_comm]
  | cons row rows ih =>
    simp only [verifyLoop, List.map_cons, Linked, head, ChainRow.link_prev,
      ChainRow.link_hash, ChainRow.link_content, rowHash_prevHash]
    by_cases hprev : row.prevHash = p
    · by_cases hhash : row.computed sha256 = row.entryHash
      · simp [hprev, hhash, ih]
      · simp [hprev, hhash, Ne.symm hhash]
    · simp [hprev]

theorem verify_eq_ok_iff (sha256 : Sha256) (rows : List ChainRow) (last : Option String) :
    verify sha256 rows = .ok last ↔ Chained sha256 rows ∧ last = headHash rows :=
  verifyLoop_eq_ok_iff sha256 none rows last

theorem accepted_iff_chained (sha256 : Sha256) (rows : List ChainRow) :
    Accepted sha256 rows ↔ Chained sha256 rows := by
  unfold Accepted
  constructor
  · intro h
    cases hv : verify sha256 rows with
    | error e =>
      rw [hv] at h
      simp [Except.isOk, Except.toBool] at h
    | ok last => exact ((verify_eq_ok_iff sha256 rows last).mp hv).1
  · intro h
    rw [(verify_eq_ok_iff sha256 rows _).mpr ⟨h, rfl⟩]
    rfl

/-- One more row is accepted exactly when it names the head of the rows
before it and carries its own hash. -/
theorem accepted_concat (sha256 : Sha256) (rows : List ChainRow) (row : ChainRow) :
    Accepted sha256 (rows ++ [row]) ↔
      Accepted sha256 rows ∧ row.prevHash = headHash rows ∧
        row.entryHash = row.computed sha256 := by
  simp only [accepted_iff_chained, Chained, List.map_append, List.map_singleton,
    linked_concat, ChainRow.link_prev, ChainRow.link_hash, ChainRow.link_content,
    rowHash_prevHash, headHash]

theorem Accepted.entryHash_of_mem {sha256 : Sha256} {rows : List ChainRow}
    (h : Accepted sha256 rows) {row : ChainRow} (hrow : row ∈ rows) :
    row.entryHash = row.computed sha256 :=
  ((accepted_iff_chained sha256 rows).mp h).hash_of_mem (List.mem_map_of_mem hrow)

/-- A row of an accepted chain names no predecessor, or the hash of a row of
the chain. -/
theorem Accepted.prevHash_of_mem {sha256 : Sha256} {rows : List ChainRow}
    (h : Accepted sha256 rows) {row : ChainRow} (hrow : row ∈ rows) :
    row.prevHash = none ∨ ∃ row' ∈ rows, row.prevHash = some row'.entryHash := by
  have hchained := (accepted_iff_chained sha256 rows).mp h
  rcases Linked.prev_of_mem hchained (List.mem_map_of_mem hrow) with hnone | ⟨l, hl, hsome⟩
  · exact Or.inl hnone
  · obtain ⟨row', hrow', rfl⟩ := List.mem_map.mp hl
    exact Or.inr ⟨row', hrow', hsome⟩

end MagicLaw.Audit
