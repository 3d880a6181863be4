import MagicLaw.WeChat.ILink

/-!
# Which answers accept a message

`send_text_via_ilink` reads `errcode` and `ret` as integers of 64 bits, where
everything else counts as 0, and keeps 32 bits of `errcode`.  So a code may be
lost, and then the answer is taken for one without it.

`sendAccepted_iff` says for which answers the verdict is the one that the
codes themselves give.
-/

namespace MagicLaw.WeChat

open Lib Lib.Text

/-! ## The codes as they are read -/

/-- `errcode` as it is read -/
def readErrcode (value : Json) : Int32 :=
  Int32.ofInt (((value.get? "errcode").bind Json.asI64?).getD 0)

/-- `ret` as it is read -/
def readRet (value : Json) : Int := ((value.get? "ret").bind Json.asI64?).getD 0

def FitsI64 (n : Int) : Prop := -2 ^ 63 ≤ n ∧ n < 2 ^ 63

instance (n : Int) : Decidable (FitsI64 n) := inferInstanceAs (Decidable (_ ∧ _))

/-- The `errcode` is read as 0. -/
def LosesErrcode (n : Int) : Prop := n ≠ 0 ∧ (¬ FitsI64 n ∨ n % 2 ^ 32 = 0)

/-- The `ret` is read as 0. -/
def LosesRet (n : Int) : Prop := n ≠ 0 ∧ ¬ FitsI64 n

instance (n : Int) : Decidable (LosesErrcode n) := inferInstanceAs (Decidable (_ ∧ _))

instance (n : Int) : Decidable (LosesRet n) := inferInstanceAs (Decidable (_ ∧ _))

/-- The field is this integer, or missing. -/
def HasCode (value : Json) (key : String) (code : Option Int) : Prop :=
  value.get? key = code.map .int

theorem readI64_of_hasCode {value : Json} {key : String} {code : Option Int}
    (h : HasCode value key code) :
    ((value.get? key).bind Json.asI64?).getD 0 =
      if FitsI64 (code.getD 0) then code.getD 0 else 0 := by
  rw [h]
  cases code with
  | none => rfl
  | some n =>
    show (if FitsI64 n then some n else none).getD 0 = if FitsI64 n then n else 0
    split <;> rfl

theorem int32_ofInt_eq_zero_iff (n : Int) : Int32.ofInt n = 0 ↔ n % 2 ^ 32 = 0 := by
  rw [← Int32.toInt_inj, Int32.toInt_ofInt]
  show n.bmod (2 ^ 32) = 0 ↔ _
  rw [Int.bmod_def]
  split <;> omega

theorem readErrcode_eq_zero_iff {value : Json} {errcode : Option Int}
    (h : HasCode value "errcode" errcode) :
    readErrcode value = 0 ↔ errcode.getD 0 = 0 ∨ LosesErrcode (errcode.getD 0) := by
  unfold readErrcode LosesErrcode
  rw [readI64_of_hasCode h, int32_ofInt_eq_zero_iff]
  by_cases hfits : FitsI64 (errcode.getD 0)
  · rw [if_pos hfits]
    by_cases hzero : errcode.getD 0 = 0
    · simp [hzero]
    · simp [hzero, hfits]
  · rw [if_neg hfits]
    have hne : errcode.getD 0 ≠ 0 := by
      intro hzero
      rw [hzero] at hfits
      exact hfits (by decide)
    simp [hne, hfits]

theorem readRet_eq_zero_iff {value : Json} {ret : Option Int} (h : HasCode value "ret" ret) :
    readRet value = 0 ↔ ret.getD 0 = 0 ∨ LosesRet (ret.getD 0) := by
  unfold readRet LosesRet
  rw [readI64_of_hasCode h]
  by_cases hfits : FitsI64 (ret.getD 0)
  · simp [hfits]
  · have hne : ret.getD 0 ≠ 0 := by
      intro hzero
      rw [hzero] at hfits
      exact hfits (by decide)
    simp [hfits, hne]

/-! ## The verdict -/

/-- The answer has a `server_id` that is not blank, in `msg` or next to it. -/
def Acknowledged (value : Json) : Prop :=
  ∃ id, isBlank id = false ∧ (value.str? "server_id" = some id ∨
    ∃ msg, value.get? "msg" = some msg ∧ msg.str? "server_id" = some id)

theorem hasServerId_iff (value : Json) : hasServerId value = true ↔ Acknowledged value := by
  unfold hasServerId Acknowledged
  rw [Bool.or_eq_true, Option.any_eq_true, Option.any_eq_true]
  simp only [Option.bind_eq_some_iff, Bool.not_eq_eq_eq_not, Bool.not_true]
  constructor
  · intro h
    rcases h with ⟨id, ⟨msg, hmsg, hid⟩, hblank⟩ | ⟨id, hid, hblank⟩
    · exact ⟨id, hblank, Or.inr ⟨msg, hmsg, hid⟩⟩
    · exact ⟨id, hblank, Or.inl hid⟩
  · intro h
    obtain ⟨id, hblank, hid | ⟨msg, hmsg, hid⟩⟩ := h
    · exact Or.inr ⟨id, hid, hblank⟩
    · exact Or.inl ⟨id, ⟨msg, hmsg, hid⟩, hblank⟩

/-- `send_text_via_ilink` returns `Ok`. -/
def Accepts (value : Json) : Prop := ∃ resp, sendTextResult (.body value) = .ok resp

theorem accepts_iff (value : Json) :
    Accepts value ↔ readErrcode value = 0 ∧ (readRet value = 0 ∨ Acknowledged value) := by
  rw [← hasServerId_iff]
  unfold Accepts
  show (∃ resp, acceptSend value = .ok resp) ↔ _
  unfold acceptSend readErrcode readRet
  dsimp only
  generalize Int32.ofInt (((value.get? "errcode").bind Json.asI64?).getD 0) = errcode
  generalize ((value.get? "ret").bind Json.asI64?).getD 0 = ret
  split
  · rename_i hexpired
    subst hexpired
    simp
  · split
    · rename_i hcode
      simp [hcode]
    · rename_i hcode
      rw [not_not] at hcode
      split
      · rename_i hret
        rw [Bool.and_eq_true, decide_eq_true_eq, Bool.not_eq_true'] at hret
        simp [hret.1, hret.2]
      · rename_i hret
        rw [Bool.and_eq_true, decide_eq_true_eq, Bool.not_eq_true', not_and_or, not_not,
          Bool.not_eq_false] at hret
        simp [hcode, hret]

/-- What the codes say: no error, and no rejection or an acknowledgement. -/
def SaysAccepted (value : Json) (errcode ret : Option Int) : Prop :=
  errcode.getD 0 = 0 ∧ (ret.getD 0 = 0 ∨ Acknowledged value)

/-- The verdict on an answer is what its codes say exactly when neither an
`errcode` is lost in an answer that is accepted without it, nor a `ret` in one
that has no acknowledgement. -/
theorem sendAccepted_iff {value : Json} {errcode ret : Option Int}
    (herrcode : HasCode value "errcode" errcode) (hret : HasCode value "ret" ret) :
    (Accepts value ↔ SaysAccepted value errcode ret) ↔
      ¬ (LosesErrcode (errcode.getD 0) ∧
          (ret.getD 0 = 0 ∨ LosesRet (ret.getD 0) ∨ Acknowledged value)) ∧
        ¬ (errcode.getD 0 = 0 ∧ LosesRet (ret.getD 0) ∧ ¬ Acknowledged value) := by
  rw [accepts_iff, readErrcode_eq_zero_iff herrcode, readRet_eq_zero_iff hret]
  unfold SaysAccepted
  have hkept : ¬ LosesErrcode 0 := fun h => h.1 rfl
  by_cases hzero : errcode.getD 0 = 0
  · by_cases hlost : LosesRet (ret.getD 0)
    · have hne : ret.getD 0 ≠ 0 := hlost.1
      simp [hzero, hkept, hlost, hne]
    · simp [hzero, hkept, hlost]
  · by_cases herr : LosesErrcode (errcode.getD 0)
    · simp [hzero, herr, or_assoc]
    · simp [hzero, herr]

/-- A rejection without an acknowledgement. -/
def rejection : Json := .obj [("ret", .int (-2)), ("errcode", .int 0)]

theorem rejection_exact : Accepts rejection ↔ SaysAccepted rejection (some 0) (some (-2)) :=
  (sendAccepted_iff (show HasCode rejection "errcode" (some 0) from rfl)
    (show HasCode rejection "ret" (some (-2)) from rfl)).mpr
    ⟨fun h => absurd h.1 (by decide), fun h => absurd h.2.1 (by decide)⟩

def SendAcceptanceExact : Prop :=
  ∀ (value : Json) (errcode ret : Option Int), HasCode value "errcode" errcode →
    HasCode value "ret" ret → (Accepts value ↔ SaysAccepted value errcode ret)

/-- An `errcode` of which the low 32 bits are 0 is taken for none. -/
theorem not_sendAcceptanceExact : ¬ SendAcceptanceExact := by
  intro h
  have hexact := h (.obj [("ret", .int 0), ("errcode", .int 4294967296)]) (some 4294967296)
    (some 0) rfl rfl
  exact absurd (hexact.mp ⟨_, rfl⟩).1 (by decide)

end MagicLaw.WeChat
