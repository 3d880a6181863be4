import MagicLaw.Cli.Parser
import MagicLaw.Lib.Boundaries
import MagicLaw.Lib.Program
import MagicLaw.Mcp.Tools
import MagicLaw.WeChat.ILink

/-!
# The login of WeChat

`run_wechat_login` of `main.rs`, with `get_bot_qrcode` and `get_qrcode_status` of
`channels/wechat/ilink.rs`.  The command shows a QR code, asks every 2 seconds
what became of it, and writes the account that was confirmed to
`account.json`.  The other commands and the MCP server read the file, each with
a `load_project_wechat_account` of its own.

`login_saves`: whatever fails, the server is asked at most 150 times, 2
seconds apart.  The file changes after a confirmation only, and after a login
both of them read the account that was confirmed.  The command panics when
standard output does not take a text, and, when the file is written, on a
token whose byte 20 is inside a character.

`serde_json` and the data directory of `default_wechat_data_dir` are
parameters.
-/

namespace MagicLaw.WeChat.Login

open Lib Lib.Bytes Lib.Program Lib.Boundaries
open MagicLaw.Cli (WechatLoginCommand)
open MagicLaw.Mcp (Serde Surroundings join textField? optionalTextField?)

/-! ## The requests -/

structure ILinkQrcodeResponse where
  ret : Int32
  errcode : Option Int32
  errmsg : Option String
  qrcode : String
  qrcodeImgContent : Option String

structure ILinkQrcodeStatusResponse where
  ret : Int32
  errcode : Option Int32
  errmsg : Option String
  status : Option String
  botToken : Option String
  baseurl : Option String
  ilinkBotId : Option String
  ilinkUserId : Option String

/-- What the two requests make of an answer: `ret`, `errcode` and `errmsg` are
those of the body. -/
def checked {β : Type} (name : String) (ret : β → Int32) (errcode : β → Option Int32)
    (errmsg : β → Option String) : Http β → Except String β
  | .noAnswer err | .failed err => .error s!"ilink {name} request failed: {err}"
  | .unreadable err => .error s!"failed to read ilink {name} response: {err}"
  | .status status body => .error s!"ilink {name} HTTP {status}: {body}"
  | .empty =>
    .error s!"invalid ilink {name} JSON response: EOF while parsing a value at line 1 column 0"
  | .invalid err => .error s!"invalid ilink {name} JSON response: {err}"
  | .body value =>
    let code := (errcode value).getD 0
    let text := (errmsg value).getD "unknown error"
    if ret value ≠ 0 then
      .error s!"ilink {name} business error: ret={ret value}, errcode={code}, errmsg={text}"
    else .ok value

/-- `get_bot_qrcode` -/
def getBotQrcode : Http ILinkQrcodeResponse → Except String ILinkQrcodeResponse :=
  checked "get_bot_qrcode" (·.ret) (·.errcode) (·.errmsg)

/-- `get_qrcode_status` -/
def getQrcodeStatus : Http ILinkQrcodeStatusResponse → Except String ILinkQrcodeStatusResponse :=
  checked "get_qrcode_status" (·.ret) (·.errcode) (·.errmsg)

/-! ## The calls of the command -/

inductive Call where
  | createDirAll
  | getBotQrcode
  /-- `QrCode::new`, and `image.save` of its picture -/
  | saveQrcode (scanValue : String)
  | openQrPopup
  | closeQrPopup
  | sleep (secs : Nat)
  | getQrcodeStatus (qrcode : String)
  /-- `println!`, with its line end, or `print!` -/
  | print (text : String)
  | flush
  /-- `Utc::now().to_rfc3339()` -/
  | now
  /-- `fs::write` of `account.json` -/
  | writeAccount (content : List UInt8)

def Call.Reply : Call → Type
  | .createDirAll | .saveQrcode _ | .print _ | .flush | .writeAccount _ => Except String Unit
  | .getBotQrcode => Except String ILinkQrcodeResponse
  | .getQrcodeStatus _ => Except String ILinkQrcodeStatusResponse
  | .openQrPopup => Bool
  | .closeQrPopup | .sleep _ => Unit
  | .now => String

/-- What the environment picks for a call.  A write that fails may have written
the first bytes. -/
structure Outcome where
  fault : Option String
  elapsed : Nat
  qrcode : Http ILinkQrcodeResponse
  status : Http ILinkQrcodeStatusResponse
  popup : Bool
  time : String
  written : Option Nat

/-- A request for the status: when it was made, and what came of it. -/
structure Poll where
  instant : Nat
  answer : Http ILinkQrcodeStatusResponse

/-- `account.json`, the window with the QR code, the seconds that have passed,
and, the newest first, the requests for the status and the texts that standard
output did not take. -/
structure Desk where
  account : Option (List UInt8)
  popup : Bool
  clock : Nat
  polls : List Poll
  unprinted : List String

/-- Standard output did not take the text. -/
def Desk.lost (s : Desk) (text : String) : Desk := { s with unprinted := text :: s.unprinted }

def attempt (o : Outcome) : Except String Unit :=
  match o.fault with
  | some e => .error e
  | none => .ok ()

def handle (s : Desk) (o : Outcome) : (c : Call) → c.Reply × Desk
  | .createDirAll | .saveQrcode _ | .flush => (attempt o, s)
  | .print text =>
    match o.fault with
    | none => (.ok (), s)
    | some e => (.error e, s.lost text)
  | .getBotQrcode => (getBotQrcode o.qrcode, { s with clock := s.clock + o.elapsed })
  | .openQrPopup => (o.popup, { s with popup := o.popup })
  | .closeQrPopup => ((), { s with popup := false })
  | .sleep secs => ((), { s with clock := s.clock + secs + o.elapsed })
  | .getQrcodeStatus _ =>
    (getQrcodeStatus o.status,
      { s with clock := s.clock + o.elapsed, polls := ⟨s.clock, o.status⟩ :: s.polls })
  | .now => (o.time, s)
  | .writeAccount content =>
    match o.fault with
    | none => (.ok (), { s with account := some content })
    | some e =>
      match o.written with
      | none => (.error e, s)
      | some n => (.error e, { s with account := some (content.take n) })

/-! ## The command -/

/-- How the command ends before its last line. -/
inductive Stop where
  | failed (e : String)
  | panicked
  deriving DecidableEq

abbrev Work := ExceptT Stop (Prog Call.Reply)

def call (c : Call) : Work c.Reply := ExceptT.lift (.perform c)

/-- The `?` on a reply. -/
def orFail {α : Type} : Except String α → Work α
  | .ok a => pure a
  | .error e => throw (.failed e)

/-- `print!`, which panics when standard output does not take the text. -/
def print (text : String) : Work Unit := do
  match ← call (.print text) with
  | .ok () => pure ()
  | .error _ => throw .panicked

def println (text : String) : Work Unit := print (text ++ "\n")

def baseUrl : String := "https://ilinkai.weixin.qq.com"

def maxWaitSecs : Nat := 300

def pollIntervalSecs : Nat := 2

/-- What the loop is left with. -/
structure Confirmed where
  token : String
  base : String
  accountId : Option String
  userId : Option String

/-- The `match` on the answer, with what the loop is left with, or `none` where
it goes on. -/
def onStatus (resp : ILinkQrcodeStatusResponse) : Work (Option Confirmed) :=
  match resp.status.getD "wait" with
  | "wait" | "waiting" => do
    print "."
    orFail (← call .flush)
    pure none
  | "scaned" | "scanned" => do
    println "\n👀 已扫码，请在微信中确认..."
    pure none
  | "expired" => do
    call .closeQrPopup
    throw (.failed "二维码已过期，请重新运行登录命令")
  | "confirmed" =>
    match resp.botToken with
    | none => throw (.failed "登录确认但未返回 bot_token")
    | some token => do
      println "\n✓ 二维码扫描成功！"
      call .closeQrPopup
      pure (some ⟨token, resp.baseurl.getD baseUrl, resp.ilinkBotId, resp.ilinkUserId⟩)
  | other => do
    println s!"\n状态: {other}"
    pure none

/-- One status check.  One that fails is tried again. -/
def checkStatus (qrcode : String) : Work (Option Confirmed) := do
  match ← call (.getQrcodeStatus qrcode) with
  | .error _ => pure none
  | .ok resp => onStatus resp

def pollStatus (qrcode : String) (elapsedSecs : Nat) : Work Confirmed := do
  call (.sleep pollIntervalSecs)
  match ← checkStatus qrcode with
  | some confirmed => pure confirmed
  | none =>
    if _h : maxWaitSecs ≤ elapsedSecs + pollIntervalSecs then do
      call .closeQrPopup
      throw (.failed s!"二维码等待超时 ({maxWaitSecs}秒)")
    else pollStatus qrcode (elapsedSecs + pollIntervalSecs)
termination_by maxWaitSecs - elapsedSecs
decreasing_by
  have hpos : 0 < pollIntervalSecs := by decide
  omega

/-- `ProjectWechatAccount` of `cli/commands.rs`. -/
structure ProjectWechatAccount where
  token : String
  baseUrl : String
  accountId : String
  userId : Option String
  savedAt : Option String

/-- The fields as they are serialized: a user id that is none is `null`, and a
time that is none is left out. -/
def ProjectWechatAccount.toJson (account : ProjectWechatAccount) : Json :=
  .obj ([("token", .str account.token), ("baseUrl", .str account.baseUrl),
    ("accountId", .str account.accountId),
    ("userId", (account.userId.map Json.str).getD .null)] ++
    (account.savedAt.map fun time => ("savedAt", Json.str time)).toList)

def ProjectWechatAccount.ofJson (value : Json) : Option ProjectWechatAccount := do
  guard (value.isRecord 5)
  let token ← textField? value 0 "token"
  let baseUrl ← textField? value 1 "baseUrl"
  let accountId ← textField? value 2 "accountId"
  let userId ← optionalTextField? value 3 "userId"
  let savedAt ← optionalTextField? value 4 "savedAt"
  return ⟨token, baseUrl, accountId, userId, savedAt⟩

/-- The `load_project_wechat_account` of the commands, without the texts of its
errors. -/
def loadProjectWechatAccount (serde : Serde) (env : Surroundings) (dataDir : String) :
    Option ProjectWechatAccount :=
  match env.readToString (join dataDir "account.json") with
  | .error _ => none
  | .ok content => (serde.fromStr content).bind ProjectWechatAccount.ofJson

/-- `serde_json` with `to_string_pretty`, whose text of an account is read as
the account. -/
structure AccountSerde extends Serde where
  toStringPretty : Json → String
  fromStr_pretty : ∀ account : ProjectWechatAccount,
    fromStr (toStringPretty account.toJson ++ "\n") = some account.toJson

/-- `&token[..std::cmp::min(20, token.len())]` -/
def tokenStart (token : String) : Option String := sliceTo token (min 20 (asBytes token).length)

def accountOf (cmd : WechatLoginCommand) (confirmed : Confirmed) (savedAt : String) :
    ProjectWechatAccount where
  token := confirmed.token
  baseUrl := confirmed.base
  accountId := (cmd.accountId <|> confirmed.accountId).getD "unknown_account_id"
  userId := confirmed.userId
  savedAt := some savedAt

/-- The start of the token, whose slice panics inside a character. -/
def printToken (token : String) : Work Unit :=
  match tokenStart token with
  | none => throw .panicked
  | some start => println s!"  token: {start}..."

def reportSaved (accountJsonPath : String) (account : ProjectWechatAccount) : Work Unit := do
  println "✓ 登录成功！"
  println s!"账户信息已保存到: {accountJsonPath}"
  printToken account.token
  println s!"  baseUrl: {account.baseUrl}"
  println s!"  accountId: {account.accountId}"
  println "\n现在可以运行以下命令启动 daemon:"
  println "  scripts/daemon-up.sh"

def saveAccount (serde : AccountSerde) (dataDir : String) (cmd : WechatLoginCommand)
    (confirmed : Confirmed) : Work Unit := do
  let savedAt ← call .now
  let account := accountOf cmd confirmed savedAt
  orFail (← call (.writeAccount (asBytes (serde.toStringPretty account.toJson ++ "\n"))))
  reportSaved (join dataDir "account.json") account

def showPopup : Work Unit := do
  match ← call .openQrPopup with
  | true => println "✓ 已弹出二维码窗口，请在微信中扫描"
  | false => pure ()

/-- What the user scans. -/
def announce (qrcodePath qrcode scanValue : String) : Work Unit := do
  println "\n========== 请用微信扫描以下二维码登录 =========="
  println s!"二维码 ID: {qrcode}"
  println s!"扫码链接: {scanValue}"
  println s!"图片位置: {qrcodePath}"
  println "============================================\n"
  println "等待二维码扫描..."

/-- The QR code is made, saved and shown.  Yields its id. -/
def showQrcode (dataDir : String) : Work String := do
  orFail (← call .createDirAll)
  println "正在获取二维码..."
  let resp ← orFail (← call .getBotQrcode)
  let scanValue := resp.qrcodeImgContent.getD resp.qrcode
  let qrcodePath := join dataDir "qrcode.png"
  orFail (← call (.saveQrcode scanValue))
  println s!"✓ 二维码已生成: {qrcodePath}"
  showPopup
  announce qrcodePath resp.qrcode scanValue
  pure resp.qrcode

/-- `run_wechat_login`, where `defaultDir` is what `default_wechat_data_dir`
finds. -/
def runWechatLogin (serde : AccountSerde) (defaultDir : String) (cmd : WechatLoginCommand) :
    Work Unit := do
  let dataDir := cmd.dataDir.getD defaultDir
  let qrcode ← showQrcode dataDir
  let confirmed ← pollStatus qrcode 0
  println "\n"
  saveAccount serde dataDir cmd confirmed

/-! ## The calls -/

section Calls

variable {α β : Type} {s t : Desk} {Q : Except Stop α → Desk → Prop}

theorem wp_call {c : Call} {k : c.Reply → Work α}
    (h : ∀ o, wp handle anyOutcome Q (k (handle s o c).1).run (handle s o c).2) :
    wp handle anyOutcome Q (call c >>= k).run s :=
  wp_anyOutcome_lift_bind h

theorem wp_orFail {reply : Except String β} {k : β → Work α}
    (hfailed : ∀ e, Q (.error (.failed e)) s) (h : ∀ b, wp handle anyOutcome Q (k b).run s) :
    wp handle anyOutcome Q (orFail reply >>= k).run s := by
  refine wp_exceptT_bind.mpr ?_
  cases reply with
  | ok b => exact h b
  | error e => exact hfailed e

theorem wp_print {Q : Except Stop Unit → Desk → Prop} {text : String}
    (hpanics : ∀ lost, Q (.error .panicked) (s.lost lost)) (h : Q (.ok ()) s) :
    wp handle anyOutcome Q (print text).run s := by
  refine wp_call fun o => ?_
  simp only [handle]
  cases o.fault with
  | none => exact h
  | some e => exact hpanics text

theorem wp_print_bind {text : String} {k : Unit → Work α}
    (hpanics : ∀ lost, Q (.error .panicked) (s.lost lost))
    (h : wp handle anyOutcome Q (k ()).run s) :
    wp handle anyOutcome Q (print text >>= k).run s :=
  wp_exceptT_bind.mpr (wp_print hpanics h)

/-- A text that standard output does not take is the last one, and the command
panics. -/
def PanicsUnprinted (s : Desk) (result : Except Stop α) (t : Desk) : Prop :=
  result = .error .panicked ↔ t.unprinted ≠ s.unprinted

theorem panicsUnprinted_lost {lost : String} (h : t.unprinted = s.unprinted) :
    PanicsUnprinted s (.error .panicked : Except Stop α) (t.lost lost) :=
  iff_of_true rfl (h ▸ List.cons_ne_self _ _)

theorem panicsUnprinted_ok {a : α} (h : t.unprinted = s.unprinted) :
    PanicsUnprinted s (.ok a) t :=
  iff_of_false nofun (not_not.mpr h)

theorem panicsUnprinted_failed {e : String} (h : t.unprinted = s.unprinted) :
    PanicsUnprinted s (.error (.failed e) : Except Stop α) t :=
  iff_of_false nofun (not_not.mpr h)

theorem PanicsUnprinted.unprinted_eq {a : α} (h : PanicsUnprinted s (.ok a) t) :
    t.unprinted = s.unprinted :=
  not_not.mp fun hne => nomatch h.mpr hne

theorem PanicsUnprinted.since {u : Desk} {result : Except Stop α}
    (h : PanicsUnprinted t result u) (hunprinted : t.unprinted = s.unprinted) :
    PanicsUnprinted s result u := by
  rwa [PanicsUnprinted, hunprinted] at h

/-- What comes after a stop does not matter. -/
theorem PanicsUnprinted.stopped {stop : Stop}
    (h : PanicsUnprinted s (.error stop : Except Stop α) t) :
    PanicsUnprinted s (.error stop : Except Stop β) t := by
  cases stop with
  | failed e => exact panicsUnprinted_failed (not_not.mp fun hne => nomatch h.mpr hne)
  | panicked => exact iff_of_true rfl (h.mp rfl)

/-- What the command does before the requests for the status. -/
structure Prepared (s : Desk) (result : Except Stop α) (t : Desk) : Prop where
  polls : t.polls = s.polls
  account : t.account = s.account
  panics : PanicsUnprinted s result t

theorem wp_announce {Q : Except Stop Unit → Desk → Prop} {qrcodePath qrcode scanValue : String}
    (hpanics : ∀ lost, Q (.error .panicked) (s.lost lost)) (h : Q (.ok ()) s) :
    wp handle anyOutcome Q (announce qrcodePath qrcode scanValue).run s := by
  refine wp_print_bind hpanics (wp_print_bind hpanics (wp_print_bind hpanics ?_))
  exact wp_print_bind hpanics (wp_print_bind hpanics (wp_print hpanics h))

theorem wp_showPopup {Q : Except Stop Unit → Desk → Prop}
    (hpanics : ∀ popup lost, Q (.error .panicked) ({ s with popup := popup }.lost lost))
    (h : ∀ popup, Q (.ok ()) { s with popup := popup }) :
    wp handle anyOutcome Q showPopup.run s := by
  refine wp_call fun o => ?_
  simp only [handle]
  cases o.popup with
  | false => exact h false
  | true => exact wp_print (hpanics true) (h true)

theorem wp_showQrcode (dataDir : String) (s : Desk) :
    wp handle anyOutcome (Prepared s) (showQrcode dataDir).run s := by
  have hlost : ∀ {t : Desk}, t.polls = s.polls → t.account = s.account →
      t.unprinted = s.unprinted → ∀ lost, Prepared s (.error .panicked : Except Stop String)
        (t.lost lost) :=
    fun hpolls haccount hunprinted lost =>
      ⟨hpolls, haccount, panicsUnprinted_lost hunprinted⟩
  have hfailed : ∀ {t : Desk}, t.polls = s.polls → t.account = s.account →
      t.unprinted = s.unprinted → ∀ e, Prepared s (.error (.failed e) : Except Stop String) t :=
    fun hpolls haccount hunprinted e =>
      ⟨hpolls, haccount, panicsUnprinted_failed hunprinted⟩
  refine wp_call fun o => wp_orFail (hfailed rfl rfl rfl) fun _ => ?_
  refine wp_print_bind (hlost rfl rfl rfl) ?_
  refine wp_call fun o => wp_orFail (hfailed rfl rfl rfl) fun resp => ?_
  refine wp_call fun o => wp_orFail (hfailed rfl rfl rfl) fun _ => ?_
  refine wp_print_bind (hlost rfl rfl rfl) (wp_exceptT_bind.mpr ?_)
  refine wp_showPopup (fun _ => hlost rfl rfl rfl) fun popup => wp_exceptT_bind.mpr ?_
  exact wp_announce (hlost rfl rfl rfl) ⟨rfl, rfl, panicsUnprinted_ok rfl⟩

end Calls

/-! ## One status check -/

/-- The answer ends the loop, if standard output works. -/
def Decides : Http ILinkQrcodeStatusResponse → Prop
  | .body resp => resp.ret = 0 ∧ (resp.status = some "expired" ∨ resp.status = some "confirmed")
  | _ => False

/-- The answer confirms the login. -/
def Confirms (answer : Http ILinkQrcodeStatusResponse) (confirmed : Confirmed) : Prop :=
  ∃ resp, answer = .body resp ∧ resp.ret = 0 ∧ resp.status = some "confirmed" ∧
    resp.botToken = some confirmed.token ∧ confirmed.base = resp.baseurl.getD baseUrl ∧
    confirmed.accountId = resp.ilinkBotId ∧ confirmed.userId = resp.ilinkUserId

/-- What a status check that was answered makes of it. -/
structure Checked (s : Desk) (answer : Http ILinkQrcodeStatusResponse)
    (result : Except Stop (Option Confirmed)) (t : Desk) : Prop where
  account : t.account = s.account
  panics : PanicsUnprinted s result t
  undecided : result = .ok none → ¬Decides answer
  confirmed : ∀ c, result = .ok (some c) → Confirms answer c ∧ t.popup = false

section Poll

variable {s : Desk}

theorem getQrcodeStatus_eq_ok {answer : Http ILinkQrcodeStatusResponse}
    {resp : ILinkQrcodeStatusResponse} (h : getQrcodeStatus answer = .ok resp) :
    answer = .body resp ∧ resp.ret = 0 := by
  unfold getQrcodeStatus checked at h
  split at h
  case h_7 value =>
    by_cases hret : value.ret = 0
    · rw [if_neg (not_not.mpr hret)] at h
      cases h
      exact ⟨rfl, hret⟩
    · rw [if_pos hret] at h
      cases h
  all_goals cases h

theorem not_decides_of_error {answer : Http ILinkQrcodeStatusResponse} {e : String}
    (h : getQrcodeStatus answer = .error e) : ¬Decides answer := by
  intro hdecides
  cases answer with
  | body resp =>
    have hok : getQrcodeStatus (.body resp) = .ok resp := if_neg (not_not.mpr hdecides.1)
    rw [hok] at h
    cases h
  | noAnswer | failed | unreadable | status | empty | invalid => exact hdecides

theorem checked_lost {answer : Http ILinkQrcodeStatusResponse} (lost : String) :
    Checked s answer (.error .panicked) (s.lost lost) :=
  ⟨rfl, panicsUnprinted_lost rfl, nofun, nofun⟩

theorem checked_failed {t : Desk} {answer : Http ILinkQrcodeStatusResponse} (e : String)
    (haccount : t.account = s.account) (hunprinted : t.unprinted = s.unprinted) :
    Checked s answer (.error (.failed e)) t :=
  ⟨haccount, panicsUnprinted_failed hunprinted, nofun, nofun⟩

/-- The loop goes on. -/
theorem checked_none {answer : Http ILinkQrcodeStatusResponse} (h : ¬Decides answer) :
    Checked s answer (.ok none) s :=
  ⟨rfl, panicsUnprinted_ok rfl, fun _ => h, nofun⟩

/-- What the command does with an answer. -/
theorem wp_onStatus {resp : ILinkQrcodeStatusResponse} (hret : resp.ret = 0) :
    wp handle anyOutcome
      (fun result t => (t.polls = s.polls ∧ t.clock = s.clock) ∧ Checked s (.body resp) result t)
      (onStatus resp).run s := by
  unfold onStatus
  have hother : ∀ {status : String}, resp.status.getD "wait" = status → status ≠ "expired" →
      status ≠ "confirmed" → ¬Decides (.body resp) := by
    rintro status rfl hexpired hconfirmed ⟨-, hstatus | hstatus⟩
    · exact hexpired (by rw [hstatus]; rfl)
    · exact hconfirmed (by rw [hstatus]; rfl)
  have hlost : ∀ lost, ((s.lost lost).polls = s.polls ∧ (s.lost lost).clock = s.clock) ∧
      Checked s (.body resp) (.error .panicked) (s.lost lost) :=
    fun lost => ⟨⟨rfl, rfl⟩, checked_lost lost⟩
  split
  case h_1 hstatus | h_2 hstatus =>
    refine wp_print_bind hlost (wp_call fun o => ?_)
    refine wp_orFail (fun e => ⟨⟨rfl, rfl⟩, checked_failed e rfl rfl⟩) fun _ => ?_
    exact ⟨⟨rfl, rfl⟩, checked_none (hother hstatus (by decide) (by decide))⟩
  case h_3 hstatus | h_4 hstatus =>
    refine wp_print_bind hlost ?_
    exact ⟨⟨rfl, rfl⟩, checked_none (hother hstatus (by decide) (by decide))⟩
  case h_5 =>
    exact wp_call fun o => ⟨⟨rfl, rfl⟩, checked_failed _ rfl rfl⟩
  case h_6 hstatus =>
    cases htoken : resp.botToken with
    | none => exact ⟨⟨rfl, rfl⟩, checked_failed _ rfl rfl⟩
    | some token =>
      have hconfirmed : resp.status = some "confirmed" := by
        cases hs : resp.status with
        | none =>
          rw [hs] at hstatus
          exact absurd hstatus (by decide)
        | some status =>
          rw [hs] at hstatus
          exact congrArg some hstatus
      refine wp_print_bind hlost (wp_call fun o => ?_)
      refine ⟨⟨rfl, rfl⟩, rfl, panicsUnprinted_ok rfl, nofun, fun c hc => ?_⟩
      cases hc
      exact ⟨⟨resp, rfl, hret, hconfirmed, htoken, rfl, rfl, rfl⟩, rfl⟩
  case h_7 hexpired hconfirmed =>
    refine wp_print_bind hlost ?_
    exact ⟨⟨rfl, rfl⟩, checked_none (hother rfl (hexpired ·) (hconfirmed ·))⟩

/-- One status check asks once. -/
theorem wp_checkStatus (qrcode : String) :
    wp handle anyOutcome
      (fun result t => ∃ answer, t.polls = ⟨s.clock, answer⟩ :: s.polls ∧ s.clock ≤ t.clock ∧
        Checked s answer result t)
      (checkStatus qrcode).run s := by
  refine wp_call fun o => ?_
  simp only [handle]
  cases hanswer : getQrcodeStatus o.status with
  | error e =>
    exact ⟨o.status, rfl, Nat.le_add_right _ _, rfl, panicsUnprinted_ok rfl,
      fun _ => not_decides_of_error hanswer, nofun⟩
  | ok resp =>
    obtain ⟨hbody, hret⟩ := getQrcodeStatus_eq_ok hanswer
    refine wp_mono ?_ (wp_onStatus hret)
    rintro result t ⟨⟨hpolls, hclock⟩, hchecked⟩
    exact ⟨o.status, hpolls, hclock ▸ Nat.le_add_right _ _, hchecked.account, hchecked.panics,
      hbody ▸ hchecked.undecided, hbody ▸ hchecked.confirmed⟩

/-- The last of the answers confirms, and none before it ends the loop. -/
def ConfirmedLast (made : List Poll) (confirmed : Confirmed) : Prop :=
  ∃ poll earlier, made = poll :: earlier ∧ Confirms poll.answer confirmed ∧
    ∀ p ∈ earlier, ¬Decides p.answer

/-- What the loop has done, with the requests that it made. -/
structure Polled (s : Desk) (elapsedSecs : Nat) (result : Except Stop Confirmed) (t : Desk)
    (made : List Poll) : Prop where
  polls : t.polls = made ++ s.polls
  account : t.account = s.account
  panics : PanicsUnprinted s result t
  count : elapsedSecs + pollIntervalSecs * made.length < maxWaitSecs + pollIntervalSecs
  spaced : made.Pairwise fun later earlier => earlier.instant + pollIntervalSecs ≤ later.instant
  since : ∀ poll ∈ made, s.clock + pollIntervalSecs ≤ poll.instant
  confirmed : ∀ c, result = .ok c → t.popup = false ∧ ConfirmedLast made c

/-- The loop ends with this check. -/
theorem polled_last {t : Desk} {elapsedSecs start : Nat} {result : Except Stop Confirmed}
    {answer : Http ILinkQrcodeStatusResponse} (helapsed : elapsedSecs < maxWaitSecs)
    (hstart : s.clock + pollIntervalSecs ≤ start) (hpolls : t.polls = ⟨start, answer⟩ :: s.polls)
    (haccount : t.account = s.account) (hpanics : PanicsUnprinted s result t)
    (hconfirmed : ∀ c, result = .ok c → Confirms answer c ∧ t.popup = false) :
    Polled s elapsedSecs result t [⟨start, answer⟩] where
  polls := hpolls
  account := haccount
  panics := hpanics
  count := Nat.add_lt_add_right helapsed _
  spaced := List.pairwise_singleton _ _
  since := List.forall_mem_singleton.mpr hstart
  confirmed c hc := ⟨(hconfirmed c hc).2, _, [], rfl, (hconfirmed c hc).1, nofun⟩

/-- A check that is not the last one, and the rest of the loop. -/
theorem Polled.cons {t u : Desk} {elapsedSecs start : Nat} {result : Except Stop Confirmed}
    {answer : Http ILinkQrcodeStatusResponse} {made : List Poll}
    (hstart : s.clock + pollIntervalSecs ≤ start) (hclock : start ≤ t.clock)
    (hpolls : t.polls = ⟨start, answer⟩ :: s.polls) (haccount : t.account = s.account)
    (hunprinted : t.unprinted = s.unprinted) (hundecided : ¬Decides answer)
    (h : Polled t (elapsedSecs + pollIntervalSecs) result u made) :
    Polled s elapsedSecs result u (made ++ [⟨start, answer⟩]) where
  polls := by rw [h.polls, hpolls, List.append_assoc, List.singleton_append]
  account := h.account.trans haccount
  panics := h.panics.since hunprinted
  count := by
    have hcount := h.count
    rw [List.length_append, List.length_singleton, Nat.mul_succ]
    omega
  spaced := by
    refine List.pairwise_append.mpr ⟨h.spaced, List.pairwise_singleton _ _, ?_⟩
    intro later hlater earlier hearlier
    obtain rfl := List.mem_singleton.mp hearlier
    exact (Nat.add_le_add_right hclock _).trans (h.since later hlater)
  since poll hpoll := by
    rcases List.mem_append.mp hpoll with hpoll | hpoll
    · have hsince := h.since poll hpoll
      omega
    · obtain rfl := List.mem_singleton.mp hpoll
      exact hstart
  confirmed c hc := by
    obtain ⟨hpopup, poll, earlier, rfl, hconfirms, hearlier⟩ := h.confirmed c hc
    refine ⟨hpopup, poll, earlier ++ [⟨start, answer⟩], rfl, hconfirms, fun p hp => ?_⟩
    rcases List.mem_append.mp hp with hp | hp
    · exact hearlier p hp
    · obtain rfl := List.mem_singleton.mp hp
      exact hundecided

theorem wp_pollStatus (qrcode : String) {elapsedSecs : Nat} (helapsed : elapsedSecs < maxWaitSecs)
    (s : Desk) :
    wp handle anyOutcome (fun result t => ∃ made, Polled s elapsedSecs result t made)
      (pollStatus qrcode elapsedSecs).run s := by
  induction hleft : maxWaitSecs - elapsedSecs using Nat.strong_induction_on
    generalizing elapsedSecs s with
  | h left ih =>
    rw [pollStatus]
    refine wp_call fun o => wp_exceptT_bind.mpr (wp_mono ?_ (wp_checkStatus qrcode))
    rintro result t ⟨answer, hpolls, hclock, hchecked⟩
    have hstart : s.clock + pollIntervalSecs ≤ s.clock + pollIntervalSecs + o.elapsed :=
      Nat.le_add_right _ _
    cases result with
    | error stop =>
      exact ⟨_, polled_last helapsed hstart hpolls hchecked.account hchecked.panics.stopped nofun⟩
    | ok result =>
      have hunprinted : t.unprinted = s.unprinted := hchecked.panics.unprinted_eq
      cases result with
      | some confirmed =>
        refine ⟨_, polled_last helapsed hstart hpolls hchecked.account
          (panicsUnprinted_ok hunprinted) fun c hc => hchecked.confirmed c ?_⟩
        exact congrArg _ (congrArg some (Except.ok.inj hc))
      | none =>
        by_cases hlast : maxWaitSecs ≤ elapsedSecs + pollIntervalSecs
        · simp only [dif_pos hlast]
          exact wp_call fun o' => ⟨_, polled_last helapsed hstart hpolls hchecked.account
            (panicsUnprinted_failed hunprinted) nofun⟩
        · simp only [dif_neg hlast]
          have hpos : 0 < pollIntervalSecs := by decide
          refine wp_mono ?_ (ih (maxWaitSecs - (elapsedSecs + pollIntervalSecs)) (by omega)
            (Nat.not_le.mp hlast) t rfl)
          rintro result u ⟨made, hpolled⟩
          exact ⟨_, hpolled.cons hstart hclock hpolls hchecked.account hunprinted
            (hchecked.undecided rfl)⟩

end Poll

/-! ## The file -/

/-- What the MCP server knows of an account. -/
def ProjectWechatAccount.toMcp (account : ProjectWechatAccount) : Mcp.ProjectWechatAccount :=
  ⟨account.token, account.baseUrl, account.accountId, account.userId⟩

/-- The commands read what was written. -/
theorem ofJson_toJson (account : ProjectWechatAccount) :
    ProjectWechatAccount.ofJson account.toJson = some account := by
  obtain ⟨token, baseUrl, accountId, userId, savedAt⟩ := account
  cases userId <;> cases savedAt <;> rfl

/-- The MCP server reads its part of it. -/
theorem mcp_ofJson_toJson (account : ProjectWechatAccount) :
    Mcp.ProjectWechatAccount.ofJson account.toJson = some account.toMcp := by
  obtain ⟨token, baseUrl, accountId, userId, savedAt⟩ := account
  cases userId <;> cases savedAt <;> rfl

/-- Both readers of a file with this text get the account. -/
def ReadsAs (serde : AccountSerde) (text : String) (account : ProjectWechatAccount) : Prop :=
  ∀ (env : Surroundings) (dataDir : String),
    env.readToString (join dataDir "account.json") = .ok text →
    loadProjectWechatAccount serde.toSerde env dataDir = some account ∧
      Mcp.loadProjectWechatAccount serde.toSerde env dataDir = .ok account.toMcp

/-- The file after a login, and what the command does after the write. -/
structure Saved (serde : AccountSerde) (cmd : WechatLoginCommand) (confirmed : Confirmed)
    (s : Desk) (result : Except Stop Unit) (t : Desk) : Prop where
  /-- the text of the file, and what is read from it -/
  read : ∃ text savedAt, t.account = some (asBytes text) ∧
    ReadsAs serde text (accountOf cmd confirmed savedAt)
  unfailing : ∀ e, result ≠ .error (.failed e)
  panics : result = .error .panicked ↔ t.unprinted ≠ s.unprinted ∨
    isCharBoundary confirmed.token (min 20 (asBytes confirmed.token).length) = false
  popup : t.popup = false

theorem tokenStart_eq_none_iff {token : String} : tokenStart token = none ↔
    isCharBoundary token (min 20 (asBytes token).length) = false := by
  unfold tokenStart
  generalize min 20 (asBytes token).length = index
  cases hboundary : isCharBoundary token index with
  | false => exact iff_of_true (if_neg (by simp [hboundary])) rfl
  | true =>
    obtain ⟨p, rest, rfl, rfl⟩ := isCharBoundary_iff.mp hboundary
    rw [sliceTo_append]
    exact iff_of_false nofun nofun

section Save

variable {serde : AccountSerde} {cmd : WechatLoginCommand} {confirmed : Confirmed} {s : Desk}

/-- The texts after the write change nothing but what was not printed. -/
theorem wp_reportSaved {Q : Except Stop Unit → Desk → Prop} {accountJsonPath : String}
    {account : ProjectWechatAccount}
    (hlost : ∀ lost, Q (.error .panicked) (s.lost lost))
    (hcut : tokenStart account.token = none → Q (.error .panicked) s)
    (h : ∀ start, tokenStart account.token = some start → Q (.ok ()) s) :
    wp handle anyOutcome Q (reportSaved accountJsonPath account).run s := by
  refine wp_print_bind hlost (wp_print_bind hlost (wp_exceptT_bind.mpr ?_))
  unfold printToken
  cases hstart : tokenStart account.token with
  | none => exact hcut hstart
  | some start =>
    refine wp_print hlost (wp_print_bind hlost (wp_print_bind hlost ?_))
    exact wp_print_bind hlost (wp_print hlost (h start hstart))

theorem readsAs_pretty (serde : AccountSerde) (account : ProjectWechatAccount) :
    ReadsAs serde (serde.toStringPretty account.toJson ++ "\n") account := by
  intro env dataDir henv
  have hread := serde.fromStr_pretty account
  constructor
  · simp only [loadProjectWechatAccount, henv, hread, Option.bind_some, ofJson_toJson]
  · simp only [Mcp.loadProjectWechatAccount, henv, hread, Option.bind_some, mcp_ofJson_toJson]

theorem panicked_ne_failed (e : String) :
    (.error .panicked : Except Stop Unit) ≠ .error (.failed e) := by
  simp

theorem ok_ne_stop (stop : Stop) : (.ok () : Except Stop Unit) ≠ .error stop := by
  simp

theorem wp_saveAccount {dataDir : String} (hpopup : s.popup = false) :
    wp handle anyOutcome
      (fun result t => t.polls = s.polls ∧
        ((∃ e, result = .error (.failed e)) ∧ t.unprinted = s.unprinted ∨
          Saved serde cmd confirmed s result t))
      (saveAccount serde dataDir cmd confirmed).run s := by
  refine wp_call fun o => wp_call fun o' => wp_exceptT_bind.mpr ?_
  simp only [handle]
  cases o'.fault with
  | some e =>
    cases o'.written with
    | none => exact ⟨rfl, .inl ⟨⟨e, rfl⟩, rfl⟩⟩
    | some n => exact ⟨rfl, .inl ⟨⟨e, rfl⟩, rfl⟩⟩
  | none =>
    have hread := readsAs_pretty serde (accountOf cmd confirmed o.time)
    refine wp_reportSaved ?_ ?_ ?_
    · exact fun lost => ⟨rfl, .inr ⟨⟨_, o.time, rfl, hread⟩, panicked_ne_failed,
        iff_of_true rfl (.inl (List.cons_ne_self _ _)), hpopup⟩⟩
    · exact fun hstart => ⟨rfl, .inr ⟨⟨_, o.time, rfl, hread⟩, panicked_ne_failed,
        iff_of_true rfl (.inr (tokenStart_eq_none_iff.mp hstart)), hpopup⟩⟩
    · intro start hstart
      have hboundary : ¬isCharBoundary confirmed.token
          (min 20 (asBytes confirmed.token).length) = false := by
        rw [← tokenStart_eq_none_iff]
        exact hstart ▸ Option.some_ne_none start
      refine ⟨rfl, .inr ⟨⟨_, o.time, rfl, hread⟩, fun e => ok_ne_stop (.failed e),
        iff_of_false (ok_ne_stop .panicked) ?_, hpopup⟩⟩
      rintro (hne | hcut)
      · exact hne rfl
      · exact hboundary hcut

end Save

/-- What a run of the command has done. -/
structure LoginRun (serde : AccountSerde) (cmd : WechatLoginCommand) (s : Desk)
    (result : Except Stop Unit) (t : Desk) (made : List Poll) : Prop where
  polls : t.polls = made ++ s.polls
  count : made.length ≤ 150
  spaced : made.Pairwise fun later earlier => earlier.instant + 2 ≤ later.instant
  /-- nothing was written, or a login was confirmed -/
  account : t.account = s.account ∨ ∃ confirmed, ConfirmedLast made confirmed
  /-- the command failed where everything was printed, or panicked where a text
  was not printed and the file is as it was, or the account is saved -/
  saved : (∃ e, result = .error (.failed e)) ∧ t.unprinted = s.unprinted ∨
    (result = .error .panicked ∧ t.unprinted ≠ s.unprinted ∧ t.account = s.account) ∨
    ∃ confirmed, ConfirmedLast made confirmed ∧ Saved serde cmd confirmed s result t

/-- The command ends before the write. -/
theorem loginRun_stopped {serde : AccountSerde} {cmd : WechatLoginCommand} {s t : Desk}
    {stop : Stop} {made : List Poll} (hpolls : t.polls = made ++ s.polls)
    (hcount : made.length ≤ 150)
    (hspaced : made.Pairwise fun later earlier => earlier.instant + 2 ≤ later.instant)
    (haccount : t.account = s.account)
    (hpanics : PanicsUnprinted s (.error stop : Except Stop Unit) t) :
    LoginRun serde cmd s (.error stop) t made where
  polls := hpolls
  count := hcount
  spaced := hspaced
  account := .inl haccount
  saved := by
    cases stop with
    | failed e => exact .inl ⟨⟨e, rfl⟩, not_not.mp fun hne => nomatch hpanics.mpr hne⟩
    | panicked => exact .inr (.inl ⟨rfl, hpanics.mp rfl, haccount⟩)

/-- Whatever fails, the status is asked at most 150 times and at least 2
seconds apart; the file is written only after a request that was answered with
a confirmation and a token, where no answer before it was decisive; and unless
the command fails, or standard output does not take a text before the write,
both readers of the file get the account that was confirmed.  The command
panics then exactly where a text is not taken or the start of the token that it
prints ends inside a character. -/
theorem login_saves (serde : AccountSerde) (defaultDir : String) (cmd : WechatLoginCommand)
    (fs : Nat → Outcome) (s : Desk) :
    let (result, t) := (runWechatLogin serde defaultDir cmd).run.play handle fs s
    ∃ made, LoginRun serde cmd s result t made := by
  have hrun : wp handle anyOutcome (fun result t => ∃ made, LoginRun serde cmd s result t made)
      (runWechatLogin serde defaultDir cmd).run s := by
    refine wp_exceptT_bind.mpr (wp_mono ?_ (wp_showQrcode _ s))
    rintro result t₁ hprepared
    cases result with
    | error stop =>
      exact ⟨[], loginRun_stopped hprepared.polls (Nat.zero_le _) .nil hprepared.account
        hprepared.panics.stopped⟩
    | ok qrcode =>
      have hunprinted : t₁.unprinted = s.unprinted := hprepared.panics.unprinted_eq
      refine wp_exceptT_bind.mpr (wp_mono ?_ (wp_pollStatus qrcode (by decide) t₁))
      rintro result t₂ ⟨made, hpolled⟩
      have hpolls : t₂.polls = made ++ s.polls := hpolled.polls.trans (by rw [hprepared.polls])
      have haccount : t₂.account = s.account := hpolled.account.trans hprepared.account
      have hpanics : PanicsUnprinted s result t₂ := hpolled.panics.since hunprinted
      have hcount : made.length ≤ 150 := by
        have hcount : 0 + 2 * made.length < 300 + 2 := hpolled.count
        omega
      cases result with
      | error stop =>
        exact ⟨made, loginRun_stopped hpolls hcount hpolled.spaced haccount hpanics.stopped⟩
      | ok confirmed =>
        obtain ⟨hpopup, hconfirmed⟩ := hpolled.confirmed confirmed rfl
        refine wp_print_bind (fun lost => ⟨made, loginRun_stopped hpolls hcount hpolled.spaced
          haccount (panicsUnprinted_lost hpanics.unprinted_eq)⟩) ?_
        refine wp_mono ?_ (wp_saveAccount hpopup)
        rintro result t₃ ⟨hsame, hended⟩
        refine ⟨made, hsame.trans hpolls, hcount, hpolled.spaced, .inr ⟨confirmed, hconfirmed⟩, ?_⟩
        have hbefore : t₂.unprinted = s.unprinted := hpanics.unprinted_eq
        rcases hended with ⟨hfailed, hprinted⟩ | hsaved
        · exact .inl ⟨hfailed, hprinted.trans hbefore⟩
        · exact .inr (.inr ⟨confirmed, hconfirmed, hsaved.read, hsaved.unfailing,
            hbefore ▸ hsaved.panics, hsaved.popup⟩)
  exact play_of_wp hrun fs

end MagicLaw.WeChat.Login
