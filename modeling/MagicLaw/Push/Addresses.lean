import MagicLaw.Push.OncePerTarget
import MagicLaw.Push.Reports

/-!
# The addresses of targets

`enqueue_outbox` writes the route of a target, which has no account scope and
knows four types of conversations (`routeKey_eq_iff`).  So the rows of two
targets have different addresses exactly when their routes differ
(`addresses_differ_iff`), while the tables keep targets apart by all five
columns.
-/

namespace MagicLaw.Push

open Lib Lib.Program
open MagicLaw.Outbox (OutboxEntry)

/-- Different routes have different texts, as texts can be read back. -/
def Serde.Faithful (serde : Serde) : Prop :=
  ∀ a b text, serde.routeKey a = .ok text → serde.routeKey b = .ok text → a = b

/-- `enqueue_outbox` may create the row for the target. -/
def Creates (serde : Serde) (target : DeliveryTarget) (row : OutboxEntry) : Prop :=
  ∃ (itemId messageText : String) (db : Database) (fs : Nat → Outcome) (t : Database),
    (enqueueOutbox serde itemId target messageText).play handle fs db = (.ok (), t) ∧
      t.outbox.rows = db.outbox.rows ++ [row]

/-- A valid target of a record. -/
structure Bindable (target : DeliveryTarget) : Prop where
  valid : target.validate = .ok ()
  record : ∃ record : BindingImportRecord, record.target = target

section Addresses

variable {serde : Serde} {a b : DeliveryTarget} {rowA rowB : OutboxEntry}

/-- The row has the text of the target's route. -/
theorem routeKey_of_creates (h : Creates serde a rowA) :
    serde.routeKey a.routeKey = .ok rowA.routeKey := by
  obtain ⟨itemId, messageText, db, fs, t, hplay, hrows⟩ := h
  unfold enqueueOutbox at hplay
  cases hroute : serde.routeKey a.routeKey with
  | error e =>
    rw [hroute] at hplay
    cases hplay
  | ok routeKeyJson =>
    cases hcontent : serde.content (.text messageText) with
    | error e =>
      rw [hroute, hcontent] at hplay
      cases hplay
    | ok payloadJson =>
      rw [hroute, hcontent] at hplay
      obtain ⟨t', -, -, hresult⟩ :=
        insertOutbox_result db (fs 0) itemId a.endpoint routeKeyJson payloadJson
      have hhandle : (orFailed "enqueue outbox"
            (handle db (fs 0) (.insertOutbox itemId a.endpoint routeKeyJson payloadJson)).1,
          (handle db (fs 0) (.insertOutbox itemId a.endpoint routeKeyJson payloadJson)).2) =
            (.ok (), t) := hplay
      split at hresult
      · rw [hresult.1] at hhandle
        obtain rfl : t' = t := congrArg Prod.snd hhandle
        rw [hresult.2, List.append_cancel_left_eq, List.cons.injEq] at hrows
        rw [← hrows.1]
        rfl
      · obtain ⟨e, hfails, -⟩ := hresult
        rw [hfails] at hhandle
        cases congrArg Prod.fst hhandle

/-- The route knows the channel, the peer and the conversation, and of the type
of the conversation what is read of it. -/
theorem routeKey_eq_iff : a.routeKey = b.routeKey ↔ a.channel = b.channel ∧ a.peerId = b.peerId ∧
    a.conversationId = b.conversationId ∧
      parseConversationType a.conversationType = parseConversationType b.conversationType := by
  unfold DeliveryTarget.routeKey
  rw [Routing.RouteKey.mk.injEq, Routing.ChannelId.mk.injEq]
  constructor
  · intro h
    exact ⟨h.1, h.2.2.1, h.2.1, h.2.2.2⟩
  · intro h
    exact ⟨h.1, h.2.2.1, h.2.1, h.2.2.2⟩

/-- The rows of two targets have different addresses exactly when the targets
differ in more than the account and the way their type is written. -/
theorem addresses_differ_iff (hserde : serde.Faithful) (ha : Creates serde a rowA)
    (hb : Creates serde b rowB) :
    rowA.routeKey ≠ rowB.routeKey ↔ a.channel ≠ b.channel ∨ a.peerId ≠ b.peerId ∨
      a.conversationId ≠ b.conversationId ∨
        parseConversationType a.conversationType ≠ parseConversationType b.conversationType := by
  have hsame : rowA.routeKey = rowB.routeKey ↔ a.routeKey = b.routeKey := by
    have hrouteA := routeKey_of_creates ha
    have hrouteB := routeKey_of_creates hb
    constructor
    · intro heq
      rw [← heq] at hrouteB
      exact hserde _ _ _ hrouteA hrouteB
    · intro heq
      rw [heq] at hrouteA
      exact Except.ok.inj (hrouteA.symm.trans hrouteB)
  rw [ne_eq, hsame, routeKey_eq_iff, not_and_or, not_and_or, not_and_or]

end Addresses

/-! ## The texts of routes -/

/-- The value of a hexadecimal digit. -/
def hexValue (c : Char) : Nat := if c.toNat < 58 then c.toNat - 48 else c.toNat - 87

def unescapeChar : Char → Char
  | 'n' => '\n'
  | 'r' => '\r'
  | 't' => '\t'
  | 'b' => Char.ofNat 8
  | 'f' => Char.ofNat 12
  | c => c

/-- The inside of a string in JSON, up to its end, and what follows. -/
def readEscaped : List Char → List Char × List Char
  | [] => ([], [])
  | '"' :: cs => ([], cs)
  | '\\' :: 'u' :: '0' :: '0' :: a :: b :: cs =>
    let (s, rest) := readEscaped cs
    (Char.ofNat (16 * hexValue a + hexValue b) :: s, rest)
  | '\\' :: c :: cs =>
    let (s, rest) := readEscaped cs
    (unescapeChar c :: s, rest)
  | c :: cs =>
    let (s, rest) := readEscaped cs
    (c :: s, rest)

/-- Two digits for a small number are read back. -/
theorem hexValue_digits : ∀ n < 32,
    16 * hexValue (Nat.digitChar (n / 16)) + hexValue (Nat.digitChar (n % 16)) = n := by
  decide

/-- What a character is escaped to is read back, whatever follows. -/
theorem readEscaped_escapeChar (c : Char) (cs : List Char) :
    readEscaped ((Pipeline.escapeChar c).toList ++ cs) =
      (c :: (readEscaped cs).1, (readEscaped cs).2) := by
  unfold Pipeline.escapeChar
  split
  · simp [readEscaped, unescapeChar]
  · simp [readEscaped, unescapeChar]
  · simp [readEscaped, unescapeChar]
  · simp [readEscaped, unescapeChar]
  · simp [readEscaped, unescapeChar]
  · next hquote hbackslash _ _ _ =>
    split
    · next hb =>
      have hc : c = Char.ofNat 8 := by rw [← hb, Char.ofNat_toNat]
      simp [readEscaped, unescapeChar, hc]
    · split
      · next hf =>
        have hc : c = Char.ofNat 12 := by rw [← hf, Char.ofNat_toNat]
        simp [readEscaped, unescapeChar, hc]
      · split
        · next hsmall =>
          have hvalue := hexValue_digits c.toNat hsmall
          have hletters : ("\\u00" ++ String.ofList [Nat.digitChar (c.toNat / 16),
              Nat.digitChar (c.toNat % 16)]).toList = ['\\', 'u', '0', '0',
                Nat.digitChar (c.toNat / 16), Nat.digitChar (c.toNat % 16)] := by
            rw [String.toList_append, String.toList_ofList, String.toList_ofList]
            rfl
          rw [hletters, List.cons_append, List.cons_append, List.cons_append, List.cons_append,
            List.cons_append, List.cons_append, List.nil_append]
          show (Char.ofNat (16 * hexValue (Nat.digitChar (c.toNat / 16)) +
            hexValue (Nat.digitChar (c.toNat % 16))) :: _, _) = _
          rw [hvalue, Char.ofNat_toNat]
        · rw [String.toList_ofList, List.singleton_append]
          rw [readEscaped]
          · exact fun h => hquote h
          · exact fun a b cs' h _ => hbackslash h
          · exact fun c' cs' h _ => hbackslash h

theorem toList_quote_append (s : String) (rest : List Char) :
    (Pipeline.quote s).toList ++ rest =
      '"' :: ((s.toList.flatMap fun c => (Pipeline.escapeChar c).toList) ++ '"' :: rest) := by
  unfold Pipeline.quote
  simp [String.toList_append, String.toList_join, List.flatMap_map]

theorem readEscaped_quote (letters rest : List Char) :
    readEscaped ((letters.flatMap fun c => (Pipeline.escapeChar c).toList) ++ '"' :: rest) =
      (letters, rest) := by
  induction letters with
  | nil => rfl
  | cons c letters ih =>
    rw [List.flatMap_cons, List.append_assoc, readEscaped_escapeChar, ih]

/-- A text in quotes ends where its string ends. -/
theorem eq_of_quote_append {s s' : String} {rest rest' : List Char}
    (h : (Pipeline.quote s).toList ++ rest = (Pipeline.quote s').toList ++ rest') :
    s = s' ∧ rest = rest' := by
  rw [toList_quote_append, toList_quote_append, List.cons.injEq] at h
  have hread := congrArg readEscaped h.2
  rw [readEscaped_quote, readEscaped_quote, Prod.mk.injEq, String.toList_inj] at hread
  exact hread

/-- The text of a route, with its quoted parts. -/
theorem toList_objectText (a b c d v w x y : String) :
    (Pipeline.objectText [(a, v), (b, w), (c, x), (d, y)]).toList =
      '\x7b' :: ((Pipeline.quote a).toList ++ ':' :: (v.toList ++ ',' ::
        ((Pipeline.quote b).toList ++ ':' :: (w.toList ++ ',' ::
          ((Pipeline.quote c).toList ++ ':' :: (x.toList ++ ',' ::
            ((Pipeline.quote d).toList ++ ':' :: (y.toList ++ ['\x7d'])))))))) := by
  unfold Pipeline.objectText
  simp [String.toList_append, String.intercalate_cons_cons]

/-- A field with a text, before the rest of an object. -/
theorem eq_of_field {name s s' : String} {rest rest' : List Char}
    (h : (Pipeline.quote name).toList ++ ':' :: ((Pipeline.quote s).toList ++ rest) =
      (Pipeline.quote name).toList ++ ':' :: ((Pipeline.quote s').toList ++ rest')) :
    s = s' ∧ rest = rest' :=
  eq_of_quote_append (List.cons.inj (List.append_cancel_left h)).2

theorem variantName_injective : Function.Injective Pipeline.variantName := by
  intro a b h
  cases a <;> cases b <;> first | rfl | exact absurd h (by decide)

theorem derivedText_faithful : readsNothing.Faithful := by
  intro a b text ha hb
  have htexts := congrArg String.toList (Except.ok.inj (ha.trans hb.symm))
  rw [toList_objectText, toList_objectText] at htexts
  obtain ⟨hchannel, htexts⟩ := eq_of_field (List.cons.inj htexts).2
  obtain ⟨hconversation, htexts⟩ := eq_of_field (List.cons.inj htexts).2
  obtain ⟨hpeer, htexts⟩ := eq_of_field (List.cons.inj htexts).2
  obtain ⟨hvariant, -⟩ := eq_of_field (List.cons.inj htexts).2
  have htype := variantName_injective hvariant
  obtain ⟨⟨channel⟩, conversationId, peerId, conversationType⟩ := a
  obtain ⟨⟨channel'⟩, conversationId', peerId', conversationType'⟩ := b
  dsimp only at hchannel hconversation hpeer htype
  rw [hchannel, hconversation, hpeer, htype]

/-! ## Two accounts -/

/-- A group of Feishu, on the account of a tenant. -/
def groupOf (tenant : String) : DeliveryTarget := ⟨"feishu", "ou_1", "oc_1", "group", some tenant⟩

/-- The record that a group comes from. -/
def groupRecord (tenant : String) : BindingImportRecord :=
  ⟨"proj-a", "feishu", "ou_1", "oc_1", "group", "import", none, some tenant⟩

theorem bindable_tenantA : Bindable (groupOf "tenant-a") :=
  ⟨by decide +kernel, groupRecord "tenant-a", by decide +kernel⟩

theorem bindable_tenantB : Bindable (groupOf "tenant-b") :=
  ⟨by decide +kernel, groupRecord "tenant-b", by decide +kernel⟩

/-- The row that the first insert for a target creates. -/
def rowOf (target : DeliveryTarget) : OutboxEntry :=
  OutboxEntry.new "push-0" ((readsNothing.routeKey target.routeKey).toOption.getD "")
    ((readsNothing.content (.text "hello")).toOption.getD "") 1700000000

theorem creates_rowOf (target : DeliveryTarget) : Creates readsNothing target (rowOf target) := by
  refine ⟨"item1", "hello", oneBroadcast, fun _ => ⟨none, 1700000000, "0"⟩, _, rfl, rfl⟩

/-- Two peers have two addresses. -/
theorem twoPeers_differ : (rowOf alice.toTarget).routeKey ≠
    (rowOf ⟨"wechat", "bob", "c1", "direct", none⟩).routeKey :=
  (addresses_differ_iff derivedText_faithful (creates_rowOf _) (creates_rowOf _)).mpr
    (.inr (.inl (by decide)))

/-- The groups of two tenants have one address. -/
theorem not_everyAddressDiffers :
    ¬ ∀ (serde : Serde) (a b : DeliveryTarget) (rowA rowB : OutboxEntry), serde.Faithful →
      Bindable a → Bindable b → a.endpoint ≠ b.endpoint → Creates serde a rowA →
        Creates serde b rowB → rowA.routeKey ≠ rowB.routeKey := by
  intro h
  exact h readsNothing (groupOf "tenant-a") (groupOf "tenant-b") _ _ derivedText_faithful
    bindable_tenantA bindable_tenantB (by decide) (creates_rowOf _) (creates_rowOf _) rfl

end MagicLaw.Push
