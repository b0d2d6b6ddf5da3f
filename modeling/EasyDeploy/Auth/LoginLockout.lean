import EasyDeploy.Auth.Accounts
import EasyDeploy.Foundation.Transition
import Mathlib.Data.List.DropRight

/-!
# Login lockout

A login reads the account with its counter of failed attempts, compares the
password and then records how that went. A wrong password is recorded by writing
back the counter that was read, plus one, so that logins which overlap count as
one attempt.
-/

namespace EasyDeploy.Auth
open Foundation Foundation.Transition

/-- After as many failures an account is locked. -/
def maxFailedLoginAttempts : Int := 5

theorem maxFailedLoginAttempts_pos : 0 < maxFailedLoginAttempts := by decide

/-- A row of `admin_accounts`. -/
structure LoginAccount where
  id : Int
  username : String
  passwordHash : String
  status : AccountStatus
  failedLoginAttempts : Int
  lockedReason : String
deriving Repr, DecidableEq

/-- The next statement of a login that has read the account. -/
inductive LoginStage
  | comparing
  | recordingFailure
  | recordingSuccess
deriving Repr, DecidableEq

/-- A login with the row that it has read. -/
structure LoginCall where
  account : LoginAccount
  password : String
  stage : LoginStage
deriving Repr, DecidableEq

/-- The accounts with the calls under way. -/
structure LoginService where
  accounts : List LoginAccount
  calls : List LoginCall
deriving Repr, DecidableEq

/-- A user name without surrounding blanks, which is not empty. -/
def normalizeUsername (username : String) : Except AuthError String :=
  let username := String.ofList ((trim username).toList.map Char.toLower)
  if username = "" then
    .error (.invalidInput "请输入用户名")
  else if username.toList.length < 3 then
    .error (.invalidInput "用户名至少需要 3 个字符")
  else
    .ok username

/-- The statement behind a wrong password. -/
def recordFailedLogin (accounts : List LoginAccount) (accountId failedAttempts : Int)
    (locked : Bool) : List LoginAccount :=
  updateAt accounts (·.id) accountId (fun _ => true) fun account =>
    { account with
      failedLoginAttempts := failedAttempts
      status := if locked then .locked else account.status
      lockedReason := if locked then "连续登录失败自动锁定" else account.lockedReason }

/-- The update of a login that succeeds. -/
def recordLogin (accounts : List LoginAccount) (accountId : Int) : List LoginAccount :=
  updateAt accounts (·.id) accountId (fun _ => true) fun account =>
    { account with failedLoginAttempts := 0, lockedReason := "" }

/-- The status of an account is changed. -/
def setLoginStatus (accounts : List LoginAccount) (accountId : Int) (status : AccountStatus) :
    List LoginAccount :=
  updateAt accounts (·.id) accountId (fun _ => true) fun account =>
    { account with
      status
      failedLoginAttempts := if status = .active then 0 else account.failedLoginAttempts
      lockedReason := match status with
        | .locked => "管理员手动锁定"
        | .active => ""
        | .disabled => account.lockedReason }

/-- A login reads its account first; its later statements may fail, which ends it. -/
inductive LoginAction
  | createAccount (username passwordHash : String)
  | login (username password : String)
  | compare (call : LoginCall)
  | recordFailedLogin (call : LoginCall)
  | recordLogin (call : LoginCall)
  | fail (call : LoginCall)
  | setAccountStatus (accountId : Int) (status : AccountStatus)
  | setPasswordHash (accountId : Int) (passwordHash : String)
deriving Repr, DecidableEq

namespace LoginService

variable (verify : String → String → Except AuthError Bool) (service : LoginService)

/-- The start of `login`. -/
def beginLogin (username password : String) : Except AuthError LoginCall := do
  let username ← normalizeUsername username
  if trim password = "" then
    .error (.invalidInput "请输入密码")
  else
    match service.accounts.find? fun account => account.username == username with
    | none => .error (.unauthorized "用户名或密码错误")
    | some account =>
        if account.status = .active then
          .ok ⟨account, password, .comparing⟩
        else if account.status = .locked then
          .error (.forbidden "账号已锁定")
        else
          .error (.forbidden "账号未启用")

/-- A call is at another stage. -/
def callAt (call : LoginCall) (stage : LoginStage) : LoginService :=
  { service with calls := service.calls.erase call ++ [{ call with stage }] }

/-- The steps of logins and of what administrators do. -/
def step : LoginAction → Option LoginService
  | .createAccount username passwordHash =>
      if service.accounts.any fun account => account.username == username then
        none
      else
        some { service with
          accounts := service.accounts ++
            [⟨nextId (service.accounts.map (·.id)), username, passwordHash, .active, 0, ""⟩] }
  | .login username password =>
      match service.beginLogin username password with
      | .ok call => some { service with calls := service.calls ++ [call] }
      | .error _ => some service
  | .compare call =>
      if call ∈ service.calls ∧ call.stage = .comparing then
        match verify call.password call.account.passwordHash with
        | .ok false => some (service.callAt call .recordingFailure)
        | .ok true => some (service.callAt call .recordingSuccess)
        | .error _ => some { service with calls := service.calls.erase call }
      else
        none
  | .recordFailedLogin call =>
      if call ∈ service.calls ∧ call.stage = .recordingFailure then
        let failedAttempts := call.account.failedLoginAttempts + 1
        some {
          accounts := recordFailedLogin service.accounts call.account.id failedAttempts
            (decide (maxFailedLoginAttempts ≤ failedAttempts))
          calls := service.calls.erase call }
      else
        none
  | .recordLogin call =>
      if call ∈ service.calls ∧ call.stage = .recordingSuccess then
        some {
          accounts := recordLogin service.accounts call.account.id
          calls := service.calls.erase call }
      else
        none
  | .fail call =>
      if call ∈ service.calls then
        some { service with calls := service.calls.erase call }
      else
        none
  | .setAccountStatus accountId status =>
      some { service with accounts := setLoginStatus service.accounts accountId status }
  | .setPasswordHash accountId passwordHash =>
      some { service with
        accounts := updateAt service.accounts (·.id) accountId (fun _ => true) fun account =>
          { account with passwordHash } }

end LoginService

theorem LoginService.beginLogin_eq_ok {service : LoginService} {username password : String}
    {call : LoginCall} (h : service.beginLogin username password = .ok call) :
    call.account ∈ service.accounts ∧ call.account.status = .active ∧ call.stage = .comparing := by
  unfold beginLogin at h
  cases hname : normalizeUsername username with
  | error error =>
      rw [hname] at h
      cases h
  | ok name =>
      rw [hname] at h
      simp only [bind, Except.bind] at h
      split at h
      · cases h
      · split at h
        · cases h
        · rename_i account hfound
          split at h
          · rename_i hactive
            obtain rfl := Except.ok.inj h
            exact ⟨List.mem_of_find?_eq_some hfound, hactive, rfl⟩
          · split at h
            · cases h
            · cases h

/-- What counts for the lockout of an account. -/
inductive LoginEvent
  | compared (accountId : Int)
  | recorded (accountId : Int)
  | reset (accountId : Int)
deriving Repr, DecidableEq

/-- What a step records. -/
def loginEvent (verify : String → String → Except AuthError Bool) :
    LoginAction → Option LoginEvent
  | .compare call =>
      match verify call.password call.account.passwordHash with
      | .ok false => some (.compared call.account.id)
      | _ => none
  | .recordFailedLogin call => some (.recorded call.account.id)
  | .recordLogin call => some (.reset call.account.id)
  | .setAccountStatus accountId .active => some (.reset accountId)
  | _ => none

/-- The logins of a platform that starts without accounts. -/
def login (verify : String → String → Except AuthError Bool) :
    Transition LoginService LoginAction where
  initial service := service = ⟨[], []⟩
  step service := service.step verify

/-- The same with the log of the attempts. -/
def logins (verify : String → String → Except AuthError Bool) :
    Transition (List LoginEvent × LoginService) LoginAction :=
  (login verify).logged fun _ => loginEvent verify

/-- The number of events since the counter of the account was last reset. -/
def sinceReset (log : List LoginEvent) (accountId : Int) (event : LoginEvent) : Nat :=
  (log.rtakeWhile (· != .reset accountId)).count event

section Counts

variable {log : List LoginEvent} {accountId : Int} {event other : LoginEvent}

@[simp] theorem sinceReset_nil : sinceReset [] accountId event = 0 := rfl

@[simp] theorem sinceReset_reset : sinceReset (log ++ [.reset accountId]) accountId event = 0 := by
  rw [sinceReset, List.rtakeWhile_concat, if_neg (by simp)]
  rfl

theorem sinceReset_concat (h : other ≠ .reset accountId) :
    sinceReset (log ++ [other]) accountId event =
      sinceReset log accountId event + if other = event then 1 else 0 := by
  rw [sinceReset, List.rtakeWhile_concat, if_pos (by simpa using h), List.count_append,
    List.count_singleton, sinceReset]
  simp only [beq_iff_eq]

theorem sinceReset_other (h : other ≠ .reset accountId) (hevent : other ≠ event) :
    sinceReset (log ++ [other]) accountId event = sinceReset log accountId event := by
  rw [sinceReset_concat h, if_neg hevent, Nat.add_zero]

end Counts

/-- The login has compared a wrong password, which it has not recorded. -/
def LoginCall.failing (accountId : Int) (call : LoginCall) : Bool :=
  call.stage == .recordingFailure && call.account.id == accountId

/-- The calls that are about to record a failure. -/
def LoginService.failing (service : LoginService) (accountId : Int) : Nat :=
  service.calls.countP (LoginCall.failing accountId)

/-- A wrong password is compared and recorded while the counter is what the login has read, and no
other wrong password is waiting to be recorded then. -/
def LoginService.Unhurried (verify : String → String → Except AuthError Bool)
    (service : LoginService) : LoginAction → Prop
  | .compare call => verify call.password call.account.passwordHash = .ok false →
      service.failing call.account.id = 0 ∧ ∀ account ∈ service.accounts,
        account.id = call.account.id →
          account.failedLoginAttempts = call.account.failedLoginAttempts
  | .recordFailedLogin call => ∀ account ∈ service.accounts, account.id = call.account.id →
      account.failedLoginAttempts = call.account.failedLoginAttempts
  | .fail call => call.stage ≠ .recordingFailure
  | _ => True

/-- The counters agree with the log. -/
structure Tallied (log : List LoginEvent) (service : LoginService) : Prop where
  keyed : Keyed service.accounts (·.id)
  unknown : ∀ accountId, accountId ∉ service.accounts.map (·.id) →
    sinceReset log accountId (.compared accountId) = 0 ∧
      sinceReset log accountId (.recorded accountId) = 0
  read : ∀ call ∈ service.calls, call.account.id ∈ service.accounts.map (·.id) ∧
    0 ≤ call.account.failedLoginAttempts ∧
    call.account.failedLoginAttempts < maxFailedLoginAttempts
  counted : ∀ account ∈ service.accounts,
    account.failedLoginAttempts = sinceReset log account.id (.recorded account.id)
  compared : ∀ account ∈ service.accounts,
    sinceReset log account.id (.compared account.id) ≤
      sinceReset log account.id (.recorded account.id) + service.failing account.id
  single : ∀ accountId, service.failing accountId ≤ 1
  late : ∀ call ∈ service.calls, call.stage = .recordingFailure →
    ∀ account ∈ service.accounts, account.id = call.account.id →
      account.failedLoginAttempts ≤ call.account.failedLoginAttempts
  limited : ∀ account ∈ service.accounts,
    account.failedLoginAttempts ≤ maxFailedLoginAttempts ∧
      (account.status = .active → account.failedLoginAttempts < maxFailedLoginAttempts)

variable {verify : String → String → Except AuthError Bool} {service service' : LoginService}
  {log : List LoginEvent} {action : LoginAction}

namespace LoginService

/-- A login that goes on or ends. -/
theorem failing_erase {call : LoginCall} (hcall : call ∈ service.calls)
    (accounts : List LoginAccount) (accountId : Int) :
    (LoginService.mk accounts (service.calls.erase call)).failing accountId +
      (if call.failing accountId = true then 1 else 0) = service.failing accountId := by
  exact countP_erase_add hcall _

theorem failing_callAt {call : LoginCall} (hcall : call ∈ service.calls) (stage : LoginStage)
    (accountId : Int) :
    (service.callAt call stage).failing accountId +
      (if call.failing accountId = true then 1 else 0) =
    service.failing accountId +
      if ({ call with stage } : LoginCall).failing accountId = true then 1 else 0 := by
  have herase := failing_erase hcall service.accounts accountId
  have hsplit : (service.callAt call stage).failing accountId =
      (LoginService.mk service.accounts (service.calls.erase call)).failing accountId +
        if ({ call with stage } : LoginCall).failing accountId = true then 1 else 0 := by
    rw [failing, failing, callAt, List.countP_append, List.countP_singleton]
  omega

theorem exists_of_failing {accountId : Int} (h : service.failing accountId ≠ 0) :
    ∃ call ∈ service.calls, call.stage = .recordingFailure ∧ call.account.id = accountId := by
  obtain ⟨call, hcall, hfailing⟩ := List.countP_pos_iff.mp (Nat.pos_of_ne_zero h)
  rw [LoginCall.failing, Bool.and_eq_true, beq_iff_eq, beq_iff_eq] at hfailing
  exact ⟨call, hcall, hfailing⟩

theorem failing_of_mem {call : LoginCall} (hcall : call ∈ service.calls)
    (hstage : call.stage = .recordingFailure) : service.failing call.account.id ≠ 0 := by
  intro hzero
  have hfailing : call.failing call.account.id = true := by
    rw [LoginCall.failing, hstage, beq_self_eq_true, beq_self_eq_true]
    rfl
  exact absurd (List.countP_pos_iff.mpr ⟨call, hcall, hfailing⟩) (by rw [failing] at hzero; omega)

end LoginService

namespace Tallied

/-- Logins that begin, go on to their success or end. -/
theorem calls (h : Tallied log service) (haccounts : service'.accounts = service.accounts)
    (hcalls : ∀ call ∈ service'.calls, call ∈ service.calls ∨
      call.stage ≠ .recordingFailure ∧ call.account.id ∈ service.accounts.map (·.id) ∧
        0 ≤ call.account.failedLoginAttempts ∧
        call.account.failedLoginAttempts < maxFailedLoginAttempts)
    (hfailing : ∀ accountId, service'.failing accountId = service.failing accountId) :
    Tallied log service' := by
  constructor
  · rw [haccounts]
    exact h.keyed
  · rw [haccounts]
    exact h.unknown
  · intro call hcall
    rw [haccounts]
    rcases hcalls call hcall with hold | hnew
    · exact h.read call hold
    · exact hnew.2
  · rw [haccounts]
    exact h.counted
  · intro account haccount
    rw [haccounts] at haccount
    rw [hfailing]
    exact h.compared account haccount
  · intro accountId
    rw [hfailing]
    exact h.single accountId
  · intro call hcall hstage
    rw [haccounts]
    rcases hcalls call hcall with hold | hnew
    · exact h.late call hold hstage
    · exact absurd hstage hnew.1
  · rw [haccounts]
    exact h.limited

/-- A login that ends without recording a failure that it has come to. -/
theorem ends (h : Tallied log service) {call : LoginCall} (hcall : call ∈ service.calls)
    (hstage : call.stage ≠ .recordingFailure) :
    Tallied log { service with calls := service.calls.erase call } := by
  apply h.calls
  · rfl
  · intro other hother
    exact .inl (List.mem_of_mem_erase hother)
  · intro accountId
    have herase := LoginService.failing_erase hcall service.accounts accountId
    have hnot : call.failing accountId = false := by
      rw [LoginCall.failing, beq_eq_false_iff_ne.mpr hstage, Bool.false_and]
    rw [hnot] at herase
    simpa using herase

/-- Accounts that keep their counters and are not activated. -/
theorem accounts (h : Tallied log service) {accountId : Int} {change : LoginAccount → LoginAccount}
    (hid : ∀ account, (change account).id = account.id)
    (hcounter : ∀ account, (change account).failedLoginAttempts = account.failedLoginAttempts)
    (hactive : ∀ account, (change account).status = .active → account.status = .active) :
    Tallied log { service with
      accounts := updateAt service.accounts (·.id) accountId (fun _ => true) change } := by
  have hids : (updateAt service.accounts (·.id) accountId (fun _ => true) change).map (·.id) =
      service.accounts.map (·.id) := map_updateAt hid
  constructor
  · exact h.keyed.updateAt hid
  · intro other hother
    rw [hids] at hother
    exact h.unknown other hother
  · intro call hcall
    rw [hids]
    exact h.read call hcall
  · apply forall_updateAt
    · intro account haccount _ _
      rw [hid, hcounter]
      exact h.counted account haccount
    · intro account haccount _
      exact h.counted account haccount
  · apply forall_updateAt
    · intro account haccount _ _
      rw [hid]
      exact h.compared account haccount
    · intro account haccount _
      exact h.compared account haccount
  · exact h.single
  · intro call hcall hstage
    apply forall_updateAt
    · intro account haccount _ _ heq
      rw [hid] at heq
      rw [hcounter]
      exact h.late call hcall hstage account haccount heq
    · intro account haccount _
      exact h.late call hcall hstage account haccount
  · apply forall_updateAt
    · intro account haccount _ _
      rw [hcounter]
      exact ⟨(h.limited account haccount).1, fun hstatus =>
        (h.limited account haccount).2 (hactive account hstatus)⟩
    · intro account haccount _
      exact h.limited account haccount

/-- A new account. -/
theorem create (h : Tallied log service) (username passwordHash : String) :
    Tallied log { service with
      accounts := service.accounts ++
        [⟨nextId (service.accounts.map (·.id)), username, passwordHash, .active, 0, ""⟩] } := by
  have hfresh : nextId (service.accounts.map (·.id)) ∉ service.accounts.map (·.id) :=
    fun hmem => absurd (lt_nextId hmem) (lt_irrefl _)
  have hnone := h.unknown _ hfresh
  constructor
  · exact h.keyed.append hfresh
  · intro accountId hunknown
    apply h.unknown
    intro hmem
    apply hunknown
    rw [List.map_append]
    exact List.mem_append_left _ hmem
  · intro call hcall
    rw [List.map_append]
    exact ⟨List.mem_append_left _ (h.read call hcall).1, (h.read call hcall).2⟩
  · intro account haccount
    rcases List.mem_append.mp haccount with hold | hnew
    · exact h.counted account hold
    · rw [List.mem_singleton.mp hnew, hnone.2]
      rfl
  · intro account haccount
    rcases List.mem_append.mp haccount with hold | hnew
    · exact h.compared account hold
    · rw [List.mem_singleton.mp hnew, hnone.1]
      exact Nat.zero_le _
  · exact h.single
  · intro call hcall hstage account haccount hid
    rcases List.mem_append.mp haccount with hold | hnew
    · exact h.late call hcall hstage account hold hid
    · have hknown := (h.read call hcall).1
      rw [← hid, List.mem_singleton.mp hnew] at hknown
      exact absurd hknown hfresh
  · intro account haccount
    rcases List.mem_append.mp haccount with hold | hnew
    · exact h.limited account hold
    · rw [List.mem_singleton.mp hnew]
      exact ⟨maxFailedLoginAttempts_pos.le, fun _ => maxFailedLoginAttempts_pos⟩

/-- The counter of an account is reset. -/
theorem reset (h : Tallied log service) {accountId : Int} {change : LoginAccount → LoginAccount}
    (hid : ∀ account, (change account).id = account.id)
    (hcounter : ∀ account, (change account).failedLoginAttempts = 0) :
    Tallied (log ++ [.reset accountId]) { service with
      accounts := updateAt service.accounts (·.id) accountId (fun _ => true) change } := by
  have hids : (updateAt service.accounts (·.id) accountId (fun _ => true) change).map (·.id) =
      service.accounts.map (·.id) := map_updateAt hid
  have hother {other : Int} (hne : other ≠ accountId) (event : LoginEvent)
      (hevent : event ≠ .reset accountId) :
      sinceReset (log ++ [.reset accountId]) other event = sinceReset log other event := by
    apply sinceReset_other
    · intro heq
      exact hne (LoginEvent.reset.inj heq).symm
    · exact hevent.symm
  constructor
  · exact h.keyed.updateAt hid
  · intro other hunknown
    rw [hids] at hunknown
    by_cases heq : other = accountId
    · rw [heq, sinceReset_reset, sinceReset_reset]
      exact ⟨rfl, rfl⟩
    · rw [hother heq _ (by simp), hother heq _ (by simp)]
      exact h.unknown other hunknown
  · intro call hcall
    rw [hids]
    exact h.read call hcall
  · apply forall_updateAt
    · intro account haccount heq _
      rw [hid, hcounter, heq, sinceReset_reset]
      rfl
    · intro account haccount hne
      rw [hother (fun heq => Bool.noConfusion (hne heq)) _ (by simp)]
      exact h.counted account haccount
  · apply forall_updateAt
    · intro account haccount heq _
      rw [hid, heq, sinceReset_reset]
      exact Nat.zero_le _
    · intro account haccount hne
      have hne' : account.id ≠ accountId := fun heq => Bool.noConfusion (hne heq)
      rw [hother hne' _ (by simp), hother hne' _ (by simp)]
      exact h.compared account haccount
  · exact h.single
  · intro call hcall hstage
    apply forall_updateAt
    · intro account haccount _ _ _
      rw [hcounter]
      exact (h.read call hcall).2.1
    · intro account haccount _
      exact h.late call hcall hstage account haccount
  · apply forall_updateAt
    · intro account haccount _ _
      rw [hcounter]
      exact ⟨maxFailedLoginAttempts_pos.le, fun _ => maxFailedLoginAttempts_pos⟩
    · intro account haccount _
      exact h.limited account haccount

/-- A wrong password is compared. -/
theorem compareWrong (h : Tallied log service) {call : LoginCall} (hcall : call ∈ service.calls)
    (hstage : call.stage = .comparing) (hnone : service.failing call.account.id = 0)
    (hcurrent : ∀ account ∈ service.accounts, account.id = call.account.id →
      account.failedLoginAttempts = call.account.failedLoginAttempts) :
    Tallied (log ++ [.compared call.account.id]) (service.callAt call .recordingFailure) := by
  have hfailing (accountId : Int) : (service.callAt call .recordingFailure).failing accountId =
      service.failing accountId + if call.account.id = accountId then 1 else 0 := by
    have hmoved := LoginService.failing_callAt hcall .recordingFailure accountId
    rw [LoginCall.failing, LoginCall.failing, hstage] at hmoved
    simpa using hmoved
  have hmem {other : LoginCall} (hother : other ∈ (service.callAt call .recordingFailure).calls) :
      other ∈ service.calls ∨ other = { call with stage := .recordingFailure } := by
    rcases List.mem_append.mp hother with hold | hnew
    · exact .inl (List.mem_of_mem_erase hold)
    · exact .inr (List.mem_singleton.mp hnew)
  have hrecorded (accountId : Int) : sinceReset (log ++ [.compared call.account.id]) accountId
      (.recorded accountId) = sinceReset log accountId (.recorded accountId) :=
    sinceReset_other (by simp) (by simp)
  have hcompared (accountId : Int) : sinceReset (log ++ [.compared call.account.id]) accountId
      (.compared accountId) = sinceReset log accountId (.compared accountId) +
        if call.account.id = accountId then 1 else 0 := by
    simp only [sinceReset_concat (show LoginEvent.compared call.account.id ≠ .reset accountId by simp),
      LoginEvent.compared.injEq]
  constructor
  · exact h.keyed
  · intro accountId hunknown
    have hne : call.account.id ≠ accountId := fun heq => hunknown (heq ▸ (h.read call hcall).1)
    rw [hcompared, hrecorded, if_neg hne, Nat.add_zero]
    exact h.unknown accountId hunknown
  · intro other hother
    rcases hmem hother with hold | rfl
    · exact h.read other hold
    · exact h.read call hcall
  · intro account haccount
    rw [hrecorded]
    exact h.counted account haccount
  · intro account haccount
    have hbefore := h.compared account haccount
    rw [hcompared, hrecorded, hfailing]
    omega
  · intro accountId
    have hbefore := h.single accountId
    rw [hfailing]
    split
    · rename_i heq
      rw [← heq, hnone]
    · exact hbefore
  · intro other hother hotherStage account haccount hid
    rcases hmem hother with hold | rfl
    · exact h.late other hold hotherStage account haccount hid
    · exact le_of_eq (hcurrent account haccount hid)
  · exact h.limited

/-- A wrong password is recorded. -/
theorem recordFailed (h : Tallied log service) {call : LoginCall} (hcall : call ∈ service.calls)
    (hstage : call.stage = .recordingFailure)
    (hcurrent : ∀ account ∈ service.accounts, account.id = call.account.id →
      account.failedLoginAttempts = call.account.failedLoginAttempts) :
    Tallied (log ++ [.recorded call.account.id]) {
      accounts := recordFailedLogin service.accounts call.account.id
        (call.account.failedLoginAttempts + 1)
        (decide (maxFailedLoginAttempts ≤ call.account.failedLoginAttempts + 1))
      calls := service.calls.erase call } := by
  obtain ⟨hknown, hnonneg, hlimit⟩ := h.read call hcall
  have hfailing (accounts : List LoginAccount) (accountId : Int) :
      (LoginService.mk accounts (service.calls.erase call)).failing accountId +
        (if call.account.id = accountId then 1 else 0) = service.failing accountId := by
    have herase := LoginService.failing_erase hcall accounts accountId
    rw [LoginCall.failing, hstage] at herase
    simpa using herase
  have hids : (recordFailedLogin service.accounts call.account.id
      (call.account.failedLoginAttempts + 1)
      (decide (maxFailedLoginAttempts ≤ call.account.failedLoginAttempts + 1))).map (·.id) =
      service.accounts.map (·.id) := map_updateAt fun _ => rfl
  have hcompared (accountId : Int) : sinceReset (log ++ [.recorded call.account.id]) accountId
      (.compared accountId) = sinceReset log accountId (.compared accountId) :=
    sinceReset_other (by simp) (by simp)
  have hrecorded (accountId : Int) : sinceReset (log ++ [.recorded call.account.id]) accountId
      (.recorded accountId) = sinceReset log accountId (.recorded accountId) +
        if call.account.id = accountId then 1 else 0 := by
    simp only [sinceReset_concat (show LoginEvent.recorded call.account.id ≠ .reset accountId by simp),
      LoginEvent.recorded.injEq]
  constructor
  · exact h.keyed.updateAt fun _ => rfl
  · intro accountId hunknown
    rw [hids] at hunknown
    have hne : call.account.id ≠ accountId := fun heq => hunknown (heq ▸ hknown)
    rw [hcompared, hrecorded, if_neg hne, Nat.add_zero]
    exact h.unknown accountId hunknown
  · intro other hother
    rw [hids]
    exact h.read other (List.mem_of_mem_erase hother)
  · apply forall_updateAt
    · intro account haccount heq _
      have hbefore := h.counted account haccount
      rw [hcurrent account haccount heq, heq] at hbefore
      rw [heq, hrecorded, if_pos rfl, hbefore]
      rfl
    · intro account haccount hne
      rw [hrecorded, if_neg fun heq => Bool.noConfusion (hne heq.symm), Nat.add_zero]
      exact h.counted account haccount
  · apply forall_updateAt
    · intro account haccount heq _
      show sinceReset _ account.id (.compared account.id) ≤
        sinceReset _ account.id (.recorded account.id) + LoginService.failing _ account.id
      have hbefore := h.compared account haccount
      have hless := hfailing (recordFailedLogin service.accounts call.account.id
        (call.account.failedLoginAttempts + 1)
        (decide (maxFailedLoginAttempts ≤ call.account.failedLoginAttempts + 1))) account.id
      rw [hcompared, hrecorded]
      omega
    · intro account haccount _
      have hbefore := h.compared account haccount
      have hless := hfailing (recordFailedLogin service.accounts call.account.id
        (call.account.failedLoginAttempts + 1)
        (decide (maxFailedLoginAttempts ≤ call.account.failedLoginAttempts + 1))) account.id
      rw [hcompared, hrecorded]
      omega
  · intro accountId
    have hbefore := h.single accountId
    have hless := hfailing (recordFailedLogin service.accounts call.account.id
      (call.account.failedLoginAttempts + 1)
      (decide (maxFailedLoginAttempts ≤ call.account.failedLoginAttempts + 1))) accountId
    omega
  · intro other hother hotherStage
    -- The call that is recorded is the only one on its account.
    have hne : other.account.id ≠ call.account.id := by
      intro heq
      have hbefore := h.single call.account.id
      have hless := hfailing service.accounts call.account.id
      rw [if_pos rfl] at hless
      have hrest : (LoginService.mk service.accounts (service.calls.erase call)).failing
          other.account.id ≠ 0 := LoginService.failing_of_mem hother hotherStage
      rw [heq] at hrest
      omega
    apply forall_updateAt
    · intro account haccount heq _ hid
      exact absurd (hid.symm.trans heq) hne
    · intro account haccount _ hid
      exact h.late other (List.mem_of_mem_erase hother) hotherStage account haccount hid
  · apply forall_updateAt
    · intro account haccount heq _
      refine ⟨hlimit, fun hactive => ?_⟩
      by_cases hlocked : maxFailedLoginAttempts ≤ call.account.failedLoginAttempts + 1
      · rw [decide_eq_true hlocked] at hactive
        cases hactive
      · exact lt_of_not_ge hlocked
    · intro account haccount _
      exact h.limited account haccount

/-- What a step keeps. -/
theorem step (h : Tallied log service) (hpermitted : service.Unhurried verify action)
    (hstep : service.step verify action = some service') :
    Tallied (log ++ (loginEvent verify action).toList) service' := by
  have hsilent (h : Tallied log service') (hnone : loginEvent verify action = none) :
      Tallied (log ++ (loginEvent verify action).toList) service' := by
    rw [hnone, Option.toList_none, List.append_nil]
    exact h
  cases action with
  | createAccount username passwordHash =>
      simp only [LoginService.step] at hstep
      split at hstep
      · cases hstep
      · obtain rfl := Option.some.inj hstep
        exact hsilent (h.create username passwordHash) rfl
  | login username password =>
      refine hsilent ?_ rfl
      simp only [LoginService.step] at hstep
      split at hstep
      · rename_i call hbegin
        obtain rfl := Option.some.inj hstep
        obtain ⟨hmem, hactive, hstage⟩ := LoginService.beginLogin_eq_ok hbegin
        apply h.calls
        · rfl
        · intro other hother
          rcases List.mem_append.mp hother with hold | hnew
          · exact .inl hold
          · obtain rfl := List.mem_singleton.mp hnew
            refine .inr ⟨by rw [hstage]; decide, List.mem_map_of_mem hmem, ?_,
              (h.limited _ hmem).2 hactive⟩
            rw [h.counted _ hmem]
            exact Int.natCast_nonneg _
        · intro accountId
          rw [LoginService.failing, List.countP_append, List.countP_singleton,
            LoginCall.failing, hstage]
          rfl
      · obtain rfl := Option.some.inj hstep
        exact h
  | compare call =>
      simp only [LoginService.step] at hstep
      split at hstep
      · rename_i hcall
        obtain ⟨hcall, hstage⟩ := hcall
        split at hstep
        · rename_i hwrong
          obtain rfl := Option.some.inj hstep
          obtain ⟨hnone, hcurrent⟩ := hpermitted hwrong
          have hevent : loginEvent verify (.compare call) = some (.compared call.account.id) := by
            simp only [loginEvent, hwrong]
          rw [hevent]
          exact h.compareWrong hcall hstage hnone hcurrent
        · rename_i hright
          obtain rfl := Option.some.inj hstep
          refine hsilent ?_ (by simp only [loginEvent, hright])
          apply h.calls
          · rfl
          · intro other hother
            rcases List.mem_append.mp hother with hold | hnew
            · exact .inl (List.mem_of_mem_erase hold)
            · rw [List.mem_singleton.mp hnew]
              exact .inr ⟨(fun hstage => by cases hstage), h.read call hcall⟩
          · intro accountId
            have hmoved := LoginService.failing_callAt hcall .recordingSuccess accountId
            rw [LoginCall.failing, LoginCall.failing, hstage] at hmoved
            simpa using hmoved
        · rename_i herror
          obtain rfl := Option.some.inj hstep
          refine hsilent (h.ends hcall ?_) (by simp only [loginEvent, herror])
          rw [hstage]
          decide
      · cases hstep
  | recordFailedLogin call =>
      simp only [LoginService.step] at hstep
      split at hstep
      · rename_i hcall
        obtain rfl := Option.some.inj hstep
        exact h.recordFailed hcall.1 hcall.2 hpermitted
      · cases hstep
  | recordLogin call =>
      simp only [LoginService.step] at hstep
      split at hstep
      · rename_i hcall
        obtain rfl := Option.some.inj hstep
        exact (h.ends hcall.1 (by rw [hcall.2]; decide)).reset (fun _ => rfl) fun _ => rfl
      · cases hstep
  | fail call =>
      simp only [LoginService.step] at hstep
      split at hstep
      · rename_i hcall
        obtain rfl := Option.some.inj hstep
        exact hsilent (h.ends hcall hpermitted) rfl
      · cases hstep
  | setAccountStatus accountId status =>
      obtain rfl := Option.some.inj hstep
      cases status with
      | active => exact h.reset (fun _ => rfl) fun _ => rfl
      | disabled =>
          refine hsilent (h.accounts ?_ ?_ ?_) rfl
          · exact fun _ => rfl
          · exact fun _ => rfl
          · intro account hstatus
            cases hstatus
      | locked =>
          refine hsilent (h.accounts ?_ ?_ ?_) rfl
          · exact fun _ => rfl
          · exact fun _ => rfl
          · intro account hstatus
            cases hstatus
  | setPasswordHash accountId passwordHash =>
      obtain rfl := Option.some.inj hstep
      refine hsilent (h.accounts ?_ ?_ ?_) rfl
      · exact fun _ => rfl
      · exact fun _ => rfl
      · exact fun _ hstatus => hstatus

end Tallied

theorem tallied_of_reached {permitted : List LoginEvent × LoginService → LoginAction → Prop}
    (hpermitted : ∀ state action, permitted state action → state.2.Unhurried verify action)
    (h : (logins verify).Reached permitted (log, service)) : Tallied log service := by
  refine h.invariant (P := fun state : List LoginEvent × LoginService =>
    Tallied state.1 state.2) ?_ ?_
  · rintro ⟨log, start⟩ ⟨hlog, hstart⟩
    obtain rfl : log = [] := hlog
    obtain rfl : start = ⟨[], []⟩ := hstart
    constructor
    · exact List.nodup_nil
    · exact fun _ _ => ⟨rfl, rfl⟩
    · exact fun _ hmem => absurd hmem List.not_mem_nil
    · exact fun _ hmem => absurd hmem List.not_mem_nil
    · exact fun _ hmem => absurd hmem List.not_mem_nil
    · exact fun _ => Nat.zero_le _
    · exact fun _ hmem => absurd hmem List.not_mem_nil
    · exact fun _ hmem => absurd hmem List.not_mem_nil
  · rintro ⟨log, before⟩ action ⟨log', after⟩ - hallowed htallied hlogged
    have hentry : ((login verify).logged fun _ => loginEvent verify).step (log, before) action =
        some (log', after) := hlogged
    obtain ⟨hstep, rfl⟩ := step_logged_eq_some.mp hentry
    have hunhurried : before.Unhurried verify action := hpermitted (log, before) action hallowed
    have htallied : Tallied log before := htallied
    exact htallied.step hunhurried hstep

/-- An account that is locked and that the change leaves locked. -/
theorem locked_of_update {change : LoginAccount → LoginAccount} {accountId : Int}
    (hkeyed : Keyed service.accounts (·.id)) (hid : ∀ account, (change account).id = account.id)
    {account account' : LoginAccount} (haccount : account ∈ service.accounts)
    (hlocked : account.status = .locked)
    (hchange : account.id = accountId → (change account).status = .locked)
    (haccount' : account' ∈ updateAt service.accounts (·.id) accountId (fun _ => true) change)
    (heq : account'.id = account.id) : account'.status = .locked := by
  obtain ⟨old, hold, rfl⟩ := mem_updateAt.mp haccount'
  split at heq
  · rename_i hwanted
    rw [if_pos hwanted]
    obtain rfl := hkeyed.eq hold haccount ((hid old).symm.trans heq)
    exact hchange hwanted.1
  · rename_i hwanted
    rw [if_neg hwanted, hkeyed.eq hold haccount heq]
    exact hlocked

/-- Only administrators change the status of a locked account. -/
theorem locked_of_step (hkeyed : Keyed service.accounts (·.id))
    (hstep : service.step verify action = some service') {account account' : LoginAccount}
    (haccount : account ∈ service.accounts) (hlocked : account.status = .locked)
    (hadmin : ∀ status, action ≠ .setAccountStatus account.id status)
    (haccount' : account' ∈ service'.accounts) (heq : account'.id = account.id) :
    account'.status = .locked := by
  have hsame (hmem : account' ∈ service.accounts) : account'.status = .locked := by
    rw [hkeyed.eq hmem haccount heq]
    exact hlocked
  cases action with
  | createAccount username passwordHash =>
      simp only [LoginService.step] at hstep
      split at hstep
      · cases hstep
      · obtain rfl := Option.some.inj hstep
        rcases List.mem_append.mp haccount' with hold | hnew
        · exact hsame hold
        · have hknown : account.id ∈ service.accounts.map (·.id) := List.mem_map_of_mem haccount
          rw [← heq, List.mem_singleton.mp hnew] at hknown
          exact absurd (lt_nextId hknown) (lt_irrefl _)
  | login username password =>
      simp only [LoginService.step] at hstep
      split at hstep
      · obtain rfl := Option.some.inj hstep
        exact hsame haccount'
      · obtain rfl := Option.some.inj hstep
        exact hsame haccount'
  | compare call =>
      simp only [LoginService.step] at hstep
      split at hstep
      · split at hstep
        · obtain rfl := Option.some.inj hstep
          exact hsame haccount'
        · obtain rfl := Option.some.inj hstep
          exact hsame haccount'
        · obtain rfl := Option.some.inj hstep
          exact hsame haccount'
      · cases hstep
  | recordFailedLogin call =>
      simp only [LoginService.step] at hstep
      split at hstep
      · obtain rfl := Option.some.inj hstep
        refine locked_of_update hkeyed ?_ haccount hlocked ?_ haccount' heq
        · exact fun _ => rfl
        · intro _
          show (if _ then AccountStatus.locked else account.status) = .locked
          rw [hlocked, ite_self]
      · cases hstep
  | recordLogin call =>
      simp only [LoginService.step] at hstep
      split at hstep
      · obtain rfl := Option.some.inj hstep
        refine locked_of_update hkeyed ?_ haccount hlocked ?_ haccount' heq
        · exact fun _ => rfl
        · exact fun _ => hlocked
      · cases hstep
  | fail call =>
      simp only [LoginService.step] at hstep
      split at hstep
      · obtain rfl := Option.some.inj hstep
        exact hsame haccount'
      · cases hstep
  | setAccountStatus accountId status =>
      obtain rfl := Option.some.inj hstep
      refine locked_of_update hkeyed ?_ haccount hlocked ?_ haccount' heq
      · exact fun _ => rfl
      · intro hid
        exact absurd (by rw [hid]) (hadmin status)
  | setPasswordHash accountId passwordHash =>
      obtain rfl := Option.some.inj hstep
      refine locked_of_update hkeyed ?_ haccount hlocked ?_ haccount' heq
      · exact fun _ => rfl
      · exact fun _ => hlocked

/-- What the lockout is for. -/
structure LockoutHolds (verify : String → String → Except AuthError Bool) (log : List LoginEvent)
    (service : LoginService) : Prop where
  /-- Between two resets few wrong passwords are compared with the hash of an account. -/
  compared : ∀ account ∈ service.accounts,
    (sinceReset log account.id (.compared account.id) : Int) ≤ maxFailedLoginAttempts
  /-- The counter is the number of wrong attempts that were recorded since the last reset. -/
  counted : ∀ account ∈ service.accounts,
    account.failedLoginAttempts = sinceReset log account.id (.recorded account.id)
  /-- Too many failures lock an account. -/
  locks : ∀ account ∈ service.accounts,
    maxFailedLoginAttempts ≤ account.failedLoginAttempts → account.status ≠ .active
  /-- An account stays locked until an administrator sets its status. -/
  staysLocked : ∀ action service', service.step verify action = some service' →
    ∀ account ∈ service.accounts, account.status = .locked →
    (∀ status, action ≠ .setAccountStatus account.id status) →
    ∀ account' ∈ service'.accounts, account'.id = account.id → account'.status = .locked

/-- The lockout holds in every run in which wrong passwords are recorded against the counter that
their logins have read. -/
theorem lockout_holds
    (h : (logins verify).Reached (fun state => state.2.Unhurried verify) (log, service)) :
    LockoutHolds verify log service := by
  have htallied := tallied_of_reached (fun _ _ hallowed => hallowed) h
  constructor
  · intro account haccount
    have hcounted := htallied.counted account haccount
    have hcompared := htallied.compared account haccount
    have hlimited := (htallied.limited account haccount).1
    have hsingle := htallied.single account.id
    by_cases hnone : service.failing account.id = 0
    · omega
    · -- The attempt that is waiting had read a counter below the limit.
      obtain ⟨call, hcall, hstage, hid⟩ := LoginService.exists_of_failing hnone
      have hlate := htallied.late call hcall hstage account haccount hid.symm
      have hread := (htallied.read call hcall).2.2
      omega
  · exact htallied.counted
  · intro account haccount hmany hactive
    exact absurd ((htallied.limited account haccount).2 hactive) (not_lt_of_ge hmany)
  · intro action service' hstep account haccount hlocked hadmin account' haccount' heq
    exact locked_of_step htallied.keyed hstep haccount hlocked hadmin haccount' heq

namespace LockoutSample

def plain (password passwordHash : String) : Except AuthError Bool :=
  .ok (password == passwordHash)

/-- A login with a wrong password after some failures. -/
def guess (failures : Int) (stage : LoginStage) : LoginCall :=
  ⟨⟨1, "admin", "secret", .active, failures, ""⟩, "guess", stage⟩

/-- One guess after the other. -/
def guesses (failures : List Int) : List LoginAction :=
  .createAccount "admin" "secret" :: failures.flatMap fun failures =>
    [.login " Admin " "guess", .compare (guess failures .comparing),
      .recordFailedLogin (guess failures .recordingFailure)]

/-- Guesses that overlap. -/
def overlappingGuesses : List LoginAction :=
  .createAccount "admin" "secret" ::
    (List.replicate 6 (.login "admin" "guess") ++
      List.replicate 6 (.compare (guess 0 .comparing)))

/-- Only one login is under way, and the counter is what it has read. -/
def alone (service : LoginService) (call : LoginCall) : Bool :=
  service.calls == [call] && service.accounts.all fun account =>
    account.id != call.account.id ||
      account.failedLoginAttempts == call.account.failedLoginAttempts

def oneAtATime (state : List LoginEvent × LoginService) : LoginAction → Bool
  | .compare call => call.stage == .comparing && alone state.2 call
  | .recordFailedLogin call => alone state.2 call
  | .fail _ => false
  | _ => true

theorem current_of_alone {service : LoginService} {call : LoginCall}
    (h : alone service call = true) : service.calls = [call] ∧
      ∀ account ∈ service.accounts, account.id = call.account.id →
        account.failedLoginAttempts = call.account.failedLoginAttempts := by
  rw [alone, Bool.and_eq_true, beq_iff_eq, List.all_eq_true] at h
  refine ⟨h.1, fun account haccount hid => ?_⟩
  have hrow := h.2 account haccount
  rw [Bool.or_eq_true, bne_iff_ne, beq_iff_eq] at hrow
  exact hrow.resolve_left fun hne => hne hid

theorem unhurried_of_oneAtATime (state : List LoginEvent × LoginService) (action : LoginAction)
    (h : oneAtATime state action = true) : state.2.Unhurried plain action := by
  cases action with
  | compare call =>
      rw [oneAtATime, Bool.and_eq_true, beq_iff_eq] at h
      obtain ⟨hcalls, hcurrent⟩ := current_of_alone h.2
      refine fun _ => ⟨?_, hcurrent⟩
      rw [LoginService.failing, hcalls, List.countP_singleton, LoginCall.failing, h.1]
      rfl
  | recordFailedLogin call => exact (current_of_alone h).2
  | fail call => cases h
  | _ => exact trivial

end LockoutSample

/-- Five guesses lock an account. -/
theorem lockout_holds_guesses : ∃ log service,
    (logins LockoutSample.plain).Reached
      (fun state => state.2.Unhurried LockoutSample.plain) (log, service) ∧
    service.accounts.map (·.status) = [.locked] ∧
    LockoutHolds LockoutSample.plain log service := by
  have hexec : (((logins LockoutSample.plain).restrict LockoutSample.oneAtATime).exec
      ([], ⟨[], []⟩) (LockoutSample.guesses [0, 1, 2, 3, 4])).any (fun state =>
        state.2.accounts.map (·.status) == [.locked]) = true := by decide
  obtain ⟨⟨log, service⟩, hs, hlocked⟩ := (Option.any_eq_true _ _).mp hexec
  have hstart : Reachable ((logins LockoutSample.plain).restrict LockoutSample.oneAtATime)
      ([], ⟨[], []⟩) := .start ⟨rfl, rfl⟩
  have hreached :=
    (Reached.of_restrict (hstart.exec hs)).mono LockoutSample.unhurried_of_oneAtATime
  exact ⟨log, service, hreached, beq_iff_eq.mp hlocked, lockout_holds hreached⟩

/-- Six guesses that overlap are all compared. -/
theorem overlapping_guesses_compared : ¬ ∀ log service,
    (logins LockoutSample.plain).Reachable (log, service) → ∀ account ∈ service.accounts,
      (sinceReset log account.id (.compared account.id) : Int) ≤ maxFailedLoginAttempts := by
  intro h
  have hexec : ((logins LockoutSample.plain).exec ([], ⟨[], []⟩)
      LockoutSample.overlappingGuesses).any (fun state => state.2.accounts.any fun account =>
        sinceReset state.1 account.id (.compared account.id) == 6) = true := by decide
  obtain ⟨⟨log, service⟩, hs, hmany⟩ := (Option.any_eq_true _ _).mp hexec
  obtain ⟨account, haccount, hcompared⟩ := List.any_eq_true.mp hmany
  have hstart : (logins LockoutSample.plain).Reachable ([], ⟨[], []⟩) := .start ⟨rfl, rfl⟩
  have hfew := h log service (hstart.exec hs) account haccount
  rw [beq_iff_eq.mp hcompared] at hfew
  exact absurd hfew (by decide)

end EasyDeploy.Auth
