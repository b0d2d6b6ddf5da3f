import EasyDeploy.Auth.CompleteRevocation

/-!
# Rotation of refresh tokens

A refresh confirms the session of its token, issues a new session and revokes the
old one. The token is redeemed by the call that comes to its end. Two refreshes
that confirm the same session before it is revoked both come there, and a refresh
that fails behind its insert leaves the new session active.
-/

namespace EasyDeploy.Auth
open Foundation Foundation.Transition

/-- The new session is in the table. -/
def IssueStage.inserted : IssueStage → Bool
  | .saving _ | .revokingOld | .deletingOld => true
  | _ => false

/-- A refresh of the session. -/
def Issue.refreshes (sessionId : Int) (issue : Issue) : Bool := issue.refreshed == some sessionId

/-- A refresh of the session that has inserted the new one. -/
def Issue.replaces (sessionId : Int) (issue : Issue) : Bool :=
  issue.refreshes sessionId && issue.stage.inserted

/-- Steps of the service, and the failure of a statement of `issue_session` or behind it. -/
inductive RotationAction
  | act (action : Action)
  | fail (issue : Issue)
deriving Repr, DecidableEq

namespace Service

variable (service : Service)

/-- The refreshes of a session under way. -/
def refreshes (sessionId : Int) : Nat := service.issuing.countP (Issue.refreshes sessionId)

/-- Those that have still to insert its successor. -/
def replacements (sessionId : Int) : Nat := service.issuing.countP (Issue.replaces sessionId)

/-- The hashes of tokens are unique. -/
def unused (accessTokenHash refreshTokenHash : String) : Bool :=
  service.database.sessions.all fun row =>
    row.accessTokenHash != accessTokenHash && row.refreshTokenHash != refreshTokenHash

/-- The steps that touch sessions. -/
def rotate (verify : String → String → Bool) : RotationAction → Option Service
  | .act (.insert issue accessTokenHash refreshTokenHash) =>
      if service.unused accessTokenHash refreshTokenHash then
        service.step verify (.insert issue accessTokenHash refreshTokenHash)
      else
        none
  | .act action => service.step verify action
  | .fail issue =>
      if issue ∈ service.issuing then
        some { service with issuing := service.issuing.erase issue }
      else
        none

/-- Nobody is logged in, and the rows have tokens of their own. -/
structure Fresh : Prop where
  start : service.Initial
  ids : Keyed service.database.sessions (·.id)
  accessTokens : Keyed service.database.sessions (·.accessTokenHash)
  refreshTokens : Keyed service.database.sessions (·.refreshTokenHash)

/-- A refresh confirms an active session only when no other refresh of it is under way, and does not
fail behind its insert. -/
def Alternates : RotationAction → Prop
  | .act (.confirmRefresh snapshot) =>
      service.database.isActive snapshot.sessionId = true →
        service.refreshes snapshot.sessionId = 0
  | .fail issue => issue.refreshed.isSome = true → issue.stage.inserted = false
  | _ => True

end Service

/-- A refresh of a session inserts the new one, or returns it. -/
inductive RotationEvent
  | created (sessionId : Int)
  | redeemed (sessionId : Int)
deriving Repr, DecidableEq

/-- What a step tells the owner of a session. -/
def rotationEvent : RotationAction → Option RotationEvent
  | .act (.insert issue _ _) => issue.refreshed.map .created
  | .act (.deleteOld issue) => issue.refreshed.map .redeemed
  | _ => none

/-- The service with no other steps. -/
def rotationSystem (verify : String → String → Bool) : Transition Service RotationAction where
  initial := Service.Fresh
  step service := service.rotate verify

/-- The service with the log of its refreshes. -/
def rotation (verify : String → String → Bool) :
    Transition (List RotationEvent × Service) RotationAction :=
  (rotationSystem verify).logged fun _ => rotationEvent

/-- Sessions are revoked, and nothing else happens to them. -/
structure Database.Revoked (database database' : Database) : Prop where
  ids : database'.sessions.map (·.id) = database.sessions.map (·.id)
  accessTokens : database'.sessions.map (·.accessTokenHash) =
    database.sessions.map (·.accessTokenHash)
  refreshTokens : database'.sessions.map (·.refreshTokenHash) =
    database.sessions.map (·.refreshTokenHash)
  active : ∀ sessionId, database'.isActive sessionId = true → database.isActive sessionId = true

namespace Database

variable {database database' : Database}

theorem Revoked.same (h : database'.sessions = database.sessions) :
    database.Revoked database' := by
  refine ⟨by rw [h], by rw [h], by rw [h], fun sessionId hactive => ?_⟩
  rw [isActive, ← h]
  exact hactive

theorem revoked_accountSessions (accountId : Int) (spared : Option Int) :
    database.Revoked (database.revokeAccountSessions accountId spared) :=
  ⟨map_updateAt fun _ => rfl, map_updateAt fun _ => rfl, map_updateAt fun _ => rfl,
    fun _ => isActive_revokeAccountSessions⟩

theorem revoked_sessionRecord (sessionId : Int) :
    database.Revoked (database.revokeSessionRecord sessionId) :=
  ⟨map_updateAt fun _ => rfl, map_updateAt fun _ => rfl, map_updateAt fun _ => rfl,
    fun _ hactive => (isActive_revokeSessionRecord hactive).1⟩

end Database

theorem revoked_makeChange (service : Service) (number : Nat) (request : Request) :
    service.database.Revoked (service.makeChange number request).1 := by
  cases request with
  | setAccountStatus accountId status =>
      simp only [Service.makeChange]
      split
      · exact .same rfl
      · exact .same rfl
  | revokeAdminSession sessionId => exact Database.revoked_sessionRecord sessionId
  | _ => exact .same rfl

variable {verify : String → String → Bool} {service service' : Service} {action : RotationAction}
  {log : List RotationEvent}

/-- The sessions and the calls that issue sessions, before and after a step. -/
inductive Rotating (service service' : Service) : RotationAction → Prop
  | aside {action : RotationAction} (hissuing : service'.issuing = service.issuing)
      (hsessions : service.database.Revoked service'.database)
      (hevent : rotationEvent action = none) : Rotating service service' action
  | began {action : RotationAction} {issue : Issue}
      (hissuing : service'.issuing = service.issuing ++ [issue])
      (hsessions : service'.database = service.database) (hstage : issue.stage = .readingRoles)
      (hold : ∀ old, issue.refreshed = some old → service.database.isActive old = true ∧
        (service.Alternates action → service.refreshes old = 0))
      (hevent : rotationEvent action = none) : Rotating service service' action
  | moved {action : RotationAction} {issue : Issue} {stage : IssueStage}
      (hmem : issue ∈ service.issuing) (hissuing : service'.issuing = service.issueAt issue stage)
      (hsessions : service.database.Revoked service'.database)
      (hstage : stage.inserted = issue.stage.inserted)
      (hdeleting : stage = .deletingOld → ∀ old, issue.refreshed = some old →
        service'.database.isActive old = false)
      (hevent : rotationEvent action = none) : Rotating service service' action
  | inserted {issue : Issue} {snapshot : Snapshot} {accessTokenHash refreshTokenHash : String}
      (hmem : issue ∈ service.issuing) (hstage : issue.stage.inserted = false)
      (hunused : service.unused accessTokenHash refreshTokenHash = true)
      (hissuing : service'.issuing = service.issueAt issue (.saving snapshot))
      (hsessions : service'.database = (service.database.insertSession issue.accountId
        accessTokenHash refreshTokenHash).2) :
      Rotating service service' (.act (.insert issue accessTokenHash refreshTokenHash))
  | redeemed {issue : Issue} {old : Int} (hmem : issue ∈ service.issuing)
      (hold : issue.refreshed = some old) (hstage : issue.stage = .deletingOld)
      (hissuing : service'.issuing = service.issuing.erase issue)
      (hsessions : service'.database = service.database) :
      Rotating service service' (.act (.deleteOld issue))
  | dropped {action : RotationAction} {issue : Issue} (hmem : issue ∈ service.issuing)
      (hissuing : service'.issuing = service.issuing.erase issue)
      (hsessions : service'.database = service.database)
      (hplain : service.Alternates action → issue.refreshed.isSome = true →
        issue.stage.inserted = false)
      (hevent : rotationEvent action = none) : Rotating service service' action

namespace Service

/-- The row that a refresh confirms is active. -/
theorem isActive_of_confirm {sessionId : Int} {refreshTokenHash : String} {row : SessionRow}
    {account : AuthAccount}
    (h : service.database.refreshRow sessionId refreshTokenHash = some (row, account)) :
    row.id = sessionId ∧ service.database.isActive sessionId = true := by
  obtain ⟨found, hfind, hpair⟩ := Option.bind_eq_some_iff.mp h
  obtain ⟨owner, _, heq⟩ := Option.map_eq_some_iff.mp hpair
  obtain rfl : found = row := congrArg Prod.fst heq
  have hguard := List.find?_some hfind
  simp only [Bool.and_eq_true, beq_iff_eq] at hguard
  refine ⟨hguard.1.1, List.any_eq_true.mpr ⟨found, List.mem_of_find?_eq_some hfind, ?_⟩⟩
  rw [hguard.1.1, hguard.1.2, beq_self_eq_true]
  rfl

/-- Steps on calls of administrators and on the session store. -/
theorem revoked_of_step {action : Action}
    (hissuing : ∀ issue, action ≠ .readRoles issue ∧ action ≠ .readPermissions issue ∧
      action ≠ .save issue ∧ action ≠ .revokeOld issue ∧ action ≠ .deleteOld issue ∧
      ∀ accessTokenHash refreshTokenHash, action ≠ .insert issue accessTokenHash refreshTokenHash)
    (hlogin : ∀ accountId password, action ≠ .login accountId password)
    (hrefresh : ∀ snapshot, action ≠ .confirmRefresh snapshot)
    (hstep : service.step verify action = some service') :
    service'.issuing = service.issuing ∧ service.database.Revoked service'.database := by
  cases action with
  | login accountId password => exact absurd rfl (hlogin accountId password)
  | readRoles issue => exact absurd rfl (hissuing issue).1
  | readPermissions issue => exact absurd rfl (hissuing issue).2.1
  | insert issue access refresh => exact absurd rfl ((hissuing issue).2.2.2.2.2 access refresh)
  | save issue => exact absurd rfl (hissuing issue).2.2.1
  | revokeOld issue => exact absurd rfl (hissuing issue).2.2.2.1
  | deleteOld issue => exact absurd rfl (hissuing issue).2.2.2.2.1
  | confirmRefresh snapshot => exact absurd rfl (hrefresh snapshot)
  | authenticate accessTokenHash =>
      obtain ⟨snapshot, -, rfl⟩ := Option.map_eq_some_iff.mp hstep
      exact ⟨rfl, .same rfl⟩
  | confirm snapshot =>
      simp only [step] at hstep
      split at hstep
      · obtain rfl := Option.some.inj hstep
        exact ⟨rfl, .same rfl⟩
      · cases hstep
  | refresh refreshTokenHash =>
      obtain ⟨snapshot, -, rfl⟩ := Option.map_eq_some_iff.mp hstep
      exact ⟨rfl, .same rfl⟩
  | start request =>
      simp only [step] at hstep
      split at hstep
      · obtain rfl := Option.some.inj hstep
        exact ⟨rfl, .same rfl⟩
      · cases hstep
  | change call =>
      simp only [step] at hstep
      split at hstep
      · obtain rfl := Option.some.inj hstep
        exact ⟨rfl, revoked_makeChange service (service.clock + 1) call.request⟩
      · cases hstep
  | list call =>
      simp only [step] at hstep
      split at hstep
      · split at hstep
        · obtain rfl := Option.some.inj hstep
          exact ⟨rfl, .same rfl⟩
        · cases hstep
      · cases hstep
  | revoke call =>
      simp only [step] at hstep
      split at hstep
      · split at hstep
        · obtain rfl := Option.some.inj hstep
          exact ⟨rfl, Database.revoked_accountSessions _ none⟩
        · cases hstep
      · split at hstep
        · obtain rfl := Option.some.inj hstep
          exact ⟨rfl, Database.revoked_accountSessions _ _⟩
        · cases hstep
      · cases hstep
  | delete call =>
      simp only [step] at hstep
      split at hstep
      · split at hstep
        · obtain rfl := Option.some.inj hstep
          exact ⟨rfl, .same rfl⟩
        · cases hstep
      · split at hstep
        · obtain rfl := Option.some.inj hstep
          exact ⟨rfl, .same rfl⟩
        · cases hstep
      · cases hstep
  | answer call =>
      simp only [step] at hstep
      split at hstep
      · obtain rfl := Option.some.inj hstep
        exact ⟨rfl, .same rfl⟩
      · cases hstep
  | fail call =>
      simp only [step] at hstep
      split at hstep
      · obtain rfl := Option.some.inj hstep
        exact ⟨rfl, .same rfl⟩
      · cases hstep

end Service

theorem rotating_of_rotate (hstep : service.rotate verify action = some service') :
    Rotating service service' action := by
  cases action with
  | fail issue =>
      simp only [Service.rotate] at hstep
      split at hstep
      · rename_i hmem
        obtain rfl := Option.some.inj hstep
        exact .dropped hmem rfl rfl (fun halternates => halternates) rfl
      · cases hstep
  | act action =>
      have haside (hissuing : ∀ issue, action ≠ .readRoles issue ∧
            action ≠ .readPermissions issue ∧ action ≠ .save issue ∧ action ≠ .revokeOld issue ∧
            action ≠ .deleteOld issue ∧ ∀ accessTokenHash refreshTokenHash,
              action ≠ .insert issue accessTokenHash refreshTokenHash)
          (hlogin : ∀ accountId password, action ≠ .login accountId password)
          (hrefresh : ∀ snapshot, action ≠ .confirmRefresh snapshot)
          (hstep : service.step verify action = some service')
          (hevent : rotationEvent (.act action) = none) : Rotating service service' (.act action) := by
        obtain ⟨hsame, hrevoked⟩ := Service.revoked_of_step hissuing hlogin hrefresh hstep
        exact .aside hsame hrevoked hevent
      cases action with
      | login accountId password =>
          simp only [Service.rotate, Service.step] at hstep
          split at hstep
          · split at hstep
            · obtain rfl := Option.some.inj hstep
              exact .began rfl rfl rfl (fun old heq => by cases heq) rfl
            · cases hstep
          · cases hstep
      | readRoles issue =>
          simp only [Service.rotate, Service.step] at hstep
          split at hstep
          · rename_i hissue
            obtain rfl := Option.some.inj hstep
            exact .moved hissue.1 rfl (.same rfl) (by rw [hissue.2]; rfl)
              (fun heq => by cases heq) rfl
          · cases hstep
      | readPermissions issue =>
          simp only [Service.rotate, Service.step] at hstep
          split at hstep
          · rename_i roleCodes hstage
            split at hstep
            · rename_i hmem
              obtain rfl := Option.some.inj hstep
              exact .moved hmem rfl (.same rfl) (by rw [hstage]; rfl)
                (fun heq => by cases heq) rfl
            · cases hstep
          · cases hstep
      | insert issue accessTokenHash refreshTokenHash =>
          simp only [Service.rotate] at hstep
          split at hstep
          · rename_i hunused
            simp only [Service.step] at hstep
            split at hstep
            · rename_i roleCodes permissionKeys hstage
              split at hstep
              · rename_i hmem
                obtain rfl := Option.some.inj hstep
                exact .inserted hmem (by rw [hstage]; rfl) hunused rfl rfl
              · cases hstep
            · cases hstep
          · cases hstep
      | save issue =>
          simp only [Service.rotate, Service.step] at hstep
          split at hstep
          · rename_i snapshot hstage
            split at hstep
            · rename_i hmem
              obtain rfl := Option.some.inj hstep
              cases hrefreshed : issue.refreshed with
              | none =>
                  refine .dropped hmem rfl rfl (fun _ hsome => ?_) rfl
                  rw [hrefreshed] at hsome
                  cases hsome
              | some old =>
                  refine .moved hmem (show _ = service.issueAt issue .revokingOld from rfl)
                    (.same rfl) ?_ (fun heq => by cases heq) rfl
                  rw [hstage]
                  rfl
            · cases hstep
          · cases hstep
      | revokeOld issue =>
          simp only [Service.rotate, Service.step] at hstep
          split at hstep
          · rename_i old hold
            split at hstep
            · rename_i hissue
              obtain rfl := Option.some.inj hstep
              refine .moved hissue.1 rfl (Database.revoked_sessionRecord old) ?_ ?_ rfl
              · rw [hissue.2]
                rfl
              · intro _ other hother
                obtain rfl := Option.some.inj (hold.symm.trans hother)
                apply Bool.eq_false_iff.mpr
                intro hactive
                exact (Database.isActive_revokeSessionRecord hactive).2 rfl
            · cases hstep
          · cases hstep
      | deleteOld issue =>
          simp only [Service.rotate, Service.step] at hstep
          split at hstep
          · rename_i old hold
            split at hstep
            · rename_i hissue
              obtain rfl := Option.some.inj hstep
              exact .redeemed hissue.1 hold hissue.2 rfl rfl
            · cases hstep
          · cases hstep
      | confirmRefresh snapshot =>
          simp only [Service.rotate, Service.step] at hstep
          split at hstep
          · split at hstep
            · rename_i row account hrow
              obtain ⟨hid, hactive⟩ := Service.isActive_of_confirm hrow
              split at hstep
              · obtain rfl := Option.some.inj hstep
                refine .began rfl rfl rfl (fun old hold => ?_) rfl
                obtain rfl : row.id = old := Option.some.inj hold
                rw [hid]
                exact ⟨hactive, fun halternates => halternates hactive⟩
              · obtain rfl := Option.some.inj hstep
                exact .aside rfl (.same rfl) rfl
            · obtain rfl := Option.some.inj hstep
              exact .aside rfl (.same rfl) rfl
          · cases hstep
      | _ => exact haside (by simp) (by simp) (by simp) hstep rfl

namespace Service

/-- A call goes on. -/
theorem refreshes_issueAt {issue : Issue} (hmem : issue ∈ service.issuing) (stage : IssueStage)
    (sessionId : Int) :
    (service.issueAt issue stage).countP (Issue.refreshes sessionId) =
      service.refreshes sessionId := by
  have herase := countP_erase_add hmem (Issue.refreshes sessionId)
  have hsame : Issue.refreshes sessionId { issue with stage } = issue.refreshes sessionId := rfl
  rw [issueAt, List.countP_append, List.countP_singleton, hsame, refreshes]
  exact herase

theorem replacements_issueAt {issue : Issue} (hmem : issue ∈ service.issuing) (stage : IssueStage)
    (sessionId : Int) :
    (service.issueAt issue stage).countP (Issue.replaces sessionId) +
      (if issue.replaces sessionId = true then 1 else 0) =
    service.replacements sessionId +
      if Issue.replaces sessionId { issue with stage } = true then 1 else 0 := by
  have herase := countP_erase_add hmem (Issue.replaces sessionId)
  rw [issueAt, List.countP_append, List.countP_singleton, replacements]
  omega

end Service

/-- What the log and the calls say of the sessions. -/
structure Rotated (log : List RotationEvent) (service : Service) : Prop where
  ids : Keyed service.database.sessions (·.id)
  accessTokens : Keyed service.database.sessions (·.accessTokenHash)
  refreshTokens : Keyed service.database.sessions (·.refreshTokenHash)
  known : ∀ issue ∈ service.issuing, ∀ old, issue.refreshed = some old →
    old ∈ service.database.sessions.map (·.id)
  deleting : ∀ issue ∈ service.issuing, issue.stage = .deletingOld →
    ∀ old, issue.refreshed = some old → service.database.isActive old = false
  redeemed : ∀ old, .redeemed old ∈ log → old ∈ service.database.sessions.map (·.id) ∧
    service.database.isActive old = false
  once : ∀ old, log.count (.redeemed old) + service.refreshes old ≤ 1
  created : ∀ old, log.count (.created old) =
    log.count (.redeemed old) + service.replacements old

theorem Database.Revoked.inactive {database database' : Database} (h : database.Revoked database')
    {sessionId : Int} (hclosed : database.isActive sessionId = false) :
    database'.isActive sessionId = false := by
  apply Bool.eq_false_iff.mpr
  intro hactive
  rw [h.active sessionId hactive] at hclosed
  cases hclosed

theorem isActive_of_mem {database : Database} {sessionId : Int}
    (h : database.isActive sessionId = true) : sessionId ∈ database.sessions.map (·.id) := by
  obtain ⟨row, hrow, hactive⟩ := List.any_eq_true.mp h
  rw [Bool.and_eq_true, beq_iff_eq] at hactive
  exact List.mem_map.mpr ⟨row, hrow, hactive.1⟩

namespace Rotated

/-- Sessions are revoked while calls go on, end or stay as they are. -/
theorem keep (h : Rotated log service)
    (hsessions : service.database.Revoked service'.database)
    (hissuing : ∀ issue ∈ service'.issuing,
      (∃ old ∈ service.issuing, old.refreshed = issue.refreshed) ∧
      (issue.stage = .deletingOld → issue ∈ service.issuing ∨
        ∀ old, issue.refreshed = some old → service'.database.isActive old = false))
    (hrefreshes : ∀ old, service'.refreshes old ≤ service.refreshes old)
    (hreplacements : ∀ old, service'.replacements old = service.replacements old) :
    Rotated log service' := by
  constructor
  · rw [Keyed, hsessions.ids]
    exact h.ids
  · rw [Keyed, hsessions.accessTokens]
    exact h.accessTokens
  · rw [Keyed, hsessions.refreshTokens]
    exact h.refreshTokens
  · intro issue hissue old hold
    obtain ⟨before, hbefore, hrefreshed⟩ := (hissuing issue hissue).1
    rw [hsessions.ids]
    exact h.known before hbefore old (hrefreshed.trans hold)
  · intro issue hissue hstage old hold
    rcases (hissuing issue hissue).2 hstage with hmem | hclosed
    · exact hsessions.inactive (h.deleting issue hmem hstage old hold)
    · exact hclosed old hold
  · intro old hold
    rw [hsessions.ids]
    exact ⟨(h.redeemed old hold).1, hsessions.inactive (h.redeemed old hold).2⟩
  · intro old
    have hbefore := h.once old
    have hless := hrefreshes old
    omega
  · intro old
    rw [hreplacements]
    exact h.created old

/-- A login or a refresh begins. -/
theorem begin (h : Rotated log service) {issue : Issue}
    (hissuing : service'.issuing = service.issuing ++ [issue])
    (hsessions : service'.database = service.database) (hstage : issue.stage = .readingRoles)
    (hold : ∀ old, issue.refreshed = some old → service.database.isActive old = true ∧
      service.refreshes old = 0) : Rotated log service' := by
  have hmem {other : Issue} (hother : other ∈ service'.issuing) :
      other ∈ service.issuing ∨ other = issue := by
    rw [hissuing] at hother
    exact (List.mem_append.mp hother).imp_right List.mem_singleton.mp
  constructor
  · rw [hsessions]
    exact h.ids
  · rw [hsessions]
    exact h.accessTokens
  · rw [hsessions]
    exact h.refreshTokens
  · intro other hother old hrefreshed
    rw [hsessions]
    rcases hmem hother with hbefore | rfl
    · exact h.known other hbefore old hrefreshed
    · exact isActive_of_mem (hold old hrefreshed).1
  · intro other hother hdeleting old hrefreshed
    rw [hsessions]
    rcases hmem hother with hbefore | rfl
    · exact h.deleting other hbefore hdeleting old hrefreshed
    · rw [hstage] at hdeleting
      cases hdeleting
  · rw [hsessions]
    exact h.redeemed
  · intro old
    have hbefore := h.once old
    rw [Service.refreshes, hissuing, List.countP_append, List.countP_singleton,
      ← Service.refreshes]
    split
    · rename_i hrefreshes
      obtain ⟨hactive, hnone⟩ := hold old (beq_iff_eq.mp hrefreshes)
      -- The session is active, so that nobody has redeemed its token.
      have hcount : log.count (.redeemed old) = 0 := by
        apply List.count_eq_zero.mpr
        intro hredeemed
        rw [(h.redeemed old hredeemed).2] at hactive
        cases hactive
      omega
    · omega
  · intro old
    have hnot : issue.replaces old = false := by
      rw [Issue.replaces, hstage]
      exact Bool.and_false _
    rw [Service.replacements, hissuing, List.countP_append, List.countP_singleton, hnot]
    exact h.created old

/-- A call inserts its session. -/
theorem insert (h : Rotated log service) {issue : Issue} {snapshot : Snapshot}
    {accessTokenHash refreshTokenHash : String} (hmem : issue ∈ service.issuing)
    (hstage : issue.stage.inserted = false)
    (hunused : service.unused accessTokenHash refreshTokenHash = true)
    (hissuing : service'.issuing = service.issueAt issue (.saving snapshot))
    (hsessions : service'.database = (service.database.insertSession issue.accountId
      accessTokenHash refreshTokenHash).2) :
    Rotated (log ++ (issue.refreshed.map RotationEvent.created).toList) service' := by
  have hfresh : nextId (service.database.sessions.map (·.id)) ∉
      service.database.sessions.map (·.id) := Database.fresh_insertSession
  have hids {sessionId : Int} (hknown : sessionId ∈ service.database.sessions.map (·.id)) :
      sessionId ∈ service'.database.sessions.map (·.id) := by
    rw [hsessions]
    exact List.map_append ▸ List.mem_append_left _ hknown
  have hinactive {sessionId : Int} (hknown : sessionId ∈ service.database.sessions.map (·.id))
      (hclosed : service.database.isActive sessionId = false) :
      service'.database.isActive sessionId = false := by
    apply Bool.eq_false_iff.mpr
    intro hactive
    rw [hsessions] at hactive
    rw [Database.isActive_insertSession hknown hactive] at hclosed
    cases hclosed
  have hhashes {row : SessionRow} (hrow : row ∈ service.database.sessions) :
      row.accessTokenHash ≠ accessTokenHash ∧ row.refreshTokenHash ≠ refreshTokenHash := by
    have hrow := List.all_eq_true.mp hunused row hrow
    rw [Bool.and_eq_true, bne_iff_ne, bne_iff_ne] at hrow
    exact hrow
  have hissues {other : Issue} (hother : other ∈ service'.issuing) :
      other ∈ service.issuing ∨ other = { issue with stage := .saving snapshot } := by
    rw [hissuing] at hother
    exact Service.mem_issueAt hother
  have hcount (event : RotationEvent) : (log ++ (issue.refreshed.map RotationEvent.created).toList).count
      event = log.count event + if issue.refreshed.map RotationEvent.created = some event then 1
        else 0 := by
    rw [List.count_append]
    cases issue.refreshed with
    | none => rfl
    | some old =>
        rw [Option.map_some, Option.toList_some, List.count_singleton]
        simp only [beq_iff_eq, Option.some.injEq]
  have hredeemed (old : Int) : (log ++ (issue.refreshed.map RotationEvent.created).toList).count
      (.redeemed old) = log.count (.redeemed old) := by
    rw [hcount, if_neg, Nat.add_zero]
    intro heq
    obtain ⟨other, -, hother⟩ := Option.map_eq_some_iff.mp heq
    cases hother
  constructor
  · rw [hsessions]
    exact h.ids.append hfresh
  · rw [hsessions]
    apply h.accessTokens.append
    intro hknown
    obtain ⟨row, hrow, heq⟩ := List.mem_map.mp hknown
    exact (hhashes hrow).1 heq
  · rw [hsessions]
    apply h.refreshTokens.append
    intro hknown
    obtain ⟨row, hrow, heq⟩ := List.mem_map.mp hknown
    exact (hhashes hrow).2 heq
  · intro other hother old hold
    rcases hissues hother with hbefore | rfl
    · exact hids (h.known other hbefore old hold)
    · exact hids (h.known issue hmem old hold)
  · intro other hother hdeleting old hold
    rcases hissues hother with hbefore | rfl
    · exact hinactive (h.known other hbefore old hold) (h.deleting other hbefore hdeleting old hold)
    · cases hdeleting
  · intro old hold
    have hbefore : RotationEvent.redeemed old ∈ log := by
      have hpos := List.count_pos_iff.mpr hold
      rw [hredeemed] at hpos
      exact List.count_pos_iff.mp hpos
    obtain ⟨hknown, hclosed⟩ := h.redeemed old hbefore
    exact ⟨hids hknown, hinactive hknown hclosed⟩
  · intro old
    rw [hredeemed, Service.refreshes, hissuing, Service.refreshes_issueAt hmem]
    exact h.once old
  · intro old
    have hbefore := h.created old
    have hmoved := Service.replacements_issueAt hmem (.saving snapshot) old
    have hnot : issue.replaces old = false := by
      rw [Issue.replaces, hstage]
      exact Bool.and_false _
    have hnow : Issue.replaces old { issue with stage := .saving snapshot } =
        (issue.refreshed == some old) := Bool.and_true _
    rw [hnot, hnow, if_neg Bool.false_ne_true] at hmoved
    have hcreated : issue.refreshed.map RotationEvent.created = some (.created old) ↔
        (issue.refreshed == some old) = true := by
      rw [beq_iff_eq]
      cases issue.refreshed with
      | none => simp
      | some other => simp
    rw [hredeemed, hcount, Service.replacements, hissuing]
    simp only [hcreated]
    omega

/-- A refresh returns. -/
theorem redeem (h : Rotated log service) {issue : Issue} {old : Int}
    (hmem : issue ∈ service.issuing) (hold : issue.refreshed = some old)
    (hstage : issue.stage = .deletingOld)
    (hissuing : service'.issuing = service.issuing.erase issue)
    (hsessions : service'.database = service.database) :
    Rotated (log ++ [.redeemed old]) service' := by
  have hother {other : Issue} (hother : other ∈ service'.issuing) : other ∈ service.issuing := by
    rw [hissuing] at hother
    exact List.mem_of_mem_erase hother
  have hrefreshes (id : Int) : service'.refreshes id + (if old = id then 1 else 0) =
      service.refreshes id := by
    have herase := countP_erase_add hmem (Issue.refreshes id)
    rw [Issue.refreshes, hold] at herase
    simp only [Service.refreshes, hissuing]
    simpa using herase
  have hreplacements (id : Int) : service'.replacements id + (if old = id then 1 else 0) =
      service.replacements id := by
    have herase := countP_erase_add hmem (Issue.replaces id)
    rw [Issue.replaces, Issue.refreshes, hold, hstage] at herase
    simp only [Service.replacements, hissuing]
    simpa [IssueStage.inserted] using herase
  have hcount (id : Int) : (log ++ [RotationEvent.redeemed old]).count (.redeemed id) =
      log.count (.redeemed id) + if old = id then 1 else 0 := by
    rw [List.count_append, List.count_singleton]
    simp only [beq_iff_eq, RotationEvent.redeemed.injEq]
  constructor
  · rw [hsessions]
    exact h.ids
  · rw [hsessions]
    exact h.accessTokens
  · rw [hsessions]
    exact h.refreshTokens
  · intro other hissue
    rw [hsessions]
    exact h.known other (hother hissue)
  · intro other hissue
    rw [hsessions]
    exact h.deleting other (hother hissue)
  · intro id hid
    rw [hsessions]
    rcases List.mem_append.mp hid with hbefore | hnew
    · exact h.redeemed id hbefore
    · obtain rfl := RotationEvent.redeemed.inj (List.mem_singleton.mp hnew)
      exact ⟨h.known issue hmem id hold, h.deleting issue hmem hstage id hold⟩
  · intro id
    have hbefore := h.once id
    have hless := hrefreshes id
    rw [hcount]
    omega
  · intro id
    have hbefore := h.created id
    have hless := hreplacements id
    have hsame : (log ++ [RotationEvent.redeemed old]).count (.created id) =
        log.count (.created id) := by
      rw [List.count_append, List.count_singleton, if_neg (by simp), Nat.add_zero]
    rw [hsame, hcount]
    omega

theorem step (h : Rotated log service) (hpermitted : service.Alternates action)
    (hrotating : Rotating service service' action) :
    Rotated (log ++ (rotationEvent action).toList) service' := by
  cases hrotating with
  | aside hissuing hsessions hevent =>
      rw [hevent, Option.toList_none, List.append_nil]
      apply h.keep hsessions
      · intro issue hissue
        rw [hissuing] at hissue
        exact ⟨⟨issue, hissue, rfl⟩, fun _ => .inl hissue⟩
      · intro old
        rw [Service.refreshes, hissuing]
        exact le_rfl
      · intro old
        rw [Service.replacements, hissuing]
        rfl
  | began hissuing hsessions hstage hold hevent =>
      rw [hevent, Option.toList_none, List.append_nil]
      apply h.begin hissuing hsessions hstage
      intro old hrefreshed
      exact ⟨(hold old hrefreshed).1, (hold old hrefreshed).2 hpermitted⟩
  | @moved _ issue stage hmem hissuing hsessions hstage hdeleting hevent =>
      rw [hevent, Option.toList_none, List.append_nil]
      apply h.keep hsessions
      · intro other hother
        rw [hissuing] at hother
        rcases Service.mem_issueAt hother with hbefore | rfl
        · exact ⟨⟨other, hbefore, rfl⟩, fun _ => .inl hbefore⟩
        · exact ⟨⟨issue, hmem, rfl⟩, fun heq => .inr (hdeleting heq)⟩
      · intro old
        rw [Service.refreshes, hissuing, Service.refreshes_issueAt hmem]
      · intro old
        have hmoved := Service.replacements_issueAt hmem stage old
        have hsame : Issue.replaces old { issue with stage } = issue.replaces old := by
          rw [Issue.replaces, Issue.replaces, hstage]
          rfl
        rw [hsame] at hmoved
        rw [Service.replacements, hissuing]
        omega
  | inserted hmem hstage hunused hissuing hsessions =>
      exact h.insert hmem hstage hunused hissuing hsessions
  | @redeemed issue old hmem hold hstage hissuing hsessions =>
      have hevent : rotationEvent (.act (.deleteOld issue)) = some (.redeemed old) := by
        rw [rotationEvent, hold]
        rfl
      rw [hevent]
      exact h.redeem hmem hold hstage hissuing hsessions
  | @dropped _ issue hmem hissuing hsessions hplain hevent =>
      rw [hevent, Option.toList_none, List.append_nil]
      apply h.keep (.same (congrArg Database.sessions hsessions))
      · intro other hother
        rw [hissuing] at hother
        have hbefore := List.mem_of_mem_erase hother
        exact ⟨⟨other, hbefore, rfl⟩, fun _ => .inl hbefore⟩
      · intro old
        have herase := countP_erase_add hmem (Issue.refreshes old)
        rw [Service.refreshes, hissuing, Service.refreshes]
        omega
      · intro old
        have herase := countP_erase_add hmem (Issue.replaces old)
        have hnot : issue.replaces old = false := by
          cases hrefreshed : issue.refreshed with
          | none =>
              rw [Issue.replaces, Issue.refreshes, hrefreshed]
              rfl
          | some other =>
              rw [Issue.replaces, hplain hpermitted (by rw [hrefreshed]; rfl)]
              exact Bool.and_false _
        rw [hnot, if_neg Bool.false_ne_true, Nat.add_zero] at herase
        rw [Service.replacements, hissuing, herase]
        rfl

end Rotated

theorem rotated_of_reached
    (h : (rotation verify).Reached (fun state => state.2.Alternates) (log, service)) :
    Rotated log service := by
  refine h.invariant (P := fun state : List RotationEvent × Service =>
    Rotated state.1 state.2) ?_ ?_
  · rintro ⟨log, start⟩ ⟨hlog, hstart⟩
    obtain rfl : log = [] := hlog
    have hstart : start.Fresh := hstart
    obtain ⟨-, hissuing, -, -, -, -, -, -⟩ := hstart.start
    constructor
    · exact hstart.ids
    · exact hstart.accessTokens
    · exact hstart.refreshTokens
    · rw [hissuing]
      exact fun _ hmem => absurd hmem List.not_mem_nil
    · rw [hissuing]
      exact fun _ hmem => absurd hmem List.not_mem_nil
    · exact fun _ hmem => absurd hmem List.not_mem_nil
    · intro old
      rw [Service.refreshes, hissuing]
      exact Nat.zero_le _
    · intro old
      rw [Service.replacements, hissuing]
      rfl
  · rintro ⟨log, before⟩ action ⟨log', after⟩ - hallowed hrotated hlogged
    have hentry : ((rotationSystem verify).logged fun _ => rotationEvent).step (log, before)
        action = some (log', after) := hlogged
    obtain ⟨hstep, rfl⟩ := step_logged_eq_some.mp hentry
    have hrotated : Rotated log before := hrotated
    exact hrotated.step hallowed (rotating_of_rotate hstep)

/-- What the rotation of refresh tokens is for; a row stands for its tokens. -/
structure RotationHolds (log : List RotationEvent) (service : Service) : Prop where
  /-- No two sessions have a token in common. -/
  distinct : Keyed service.database.sessions (·.accessTokenHash) ∧
    Keyed service.database.sessions (·.refreshTokenHash)
  /-- A refresh token is redeemed once at most. -/
  once : ∀ row ∈ service.database.sessions, log.count (.redeemed row.id) ≤ 1
  /-- The tokens of a session whose refresh token has been redeemed are refused. -/
  refused : ∀ row ∈ service.database.sessions, .redeemed row.id ∈ log → ∀ sessionId,
    service.database.admitsAccess sessionId row.accessTokenHash = false ∧
      service.database.refreshRow sessionId row.refreshTokenHash = none
  /-- The sessions that refreshes have issued are those that they have returned, and those of the
  refreshes under way. -/
  handedOut : ∀ row ∈ service.database.sessions, log.count (.created row.id) =
    log.count (.redeemed row.id) + service.replacements row.id

theorem Rotated.refused (h : Rotated log service) {row : SessionRow}
    (hrow : row ∈ service.database.sessions) (hredeemed : .redeemed row.id ∈ log)
    (sessionId : Int) : service.database.admitsAccess sessionId row.accessTokenHash = false ∧
      service.database.refreshRow sessionId row.refreshTokenHash = none := by
  have hclosed := (h.redeemed row.id hredeemed).2
  constructor
  · apply Bool.eq_false_iff.mpr
    intro hadmits
    obtain ⟨other, hother, hguard⟩ := List.any_eq_true.mp hadmits
    simp only [Bool.and_eq_true, beq_iff_eq] at hguard
    obtain rfl := h.accessTokens.eq hother hrow hguard.1.2
    rw [hguard.1.1.1, Service.isActive_of_admitsAccess hadmits] at hclosed
    cases hclosed
  · cases hresult : service.database.refreshRow sessionId row.refreshTokenHash with
    | none => rfl
    | some pair =>
        obtain ⟨found, account⟩ := pair
        obtain ⟨other, hfind, -⟩ := Option.bind_eq_some_iff.mp hresult
        have hguard := List.find?_some hfind
        simp only [Bool.and_eq_true, beq_iff_eq] at hguard
        obtain rfl := h.refreshTokens.eq (List.mem_of_find?_eq_some hfind) hrow hguard.2
        have hactive := (Service.isActive_of_confirm hresult).2
        rw [hguard.1.1, hactive] at hclosed
        cases hclosed

/-- The rotation holds in every run whose refreshes of one session do not overlap and do not fail
behind their insert. -/
theorem rotation_holds
    (h : (rotation verify).Reached (fun state => state.2.Alternates) (log, service)) :
    RotationHolds log service := by
  have hrotated := rotated_of_reached h
  constructor
  · exact ⟨hrotated.accessTokens, hrotated.refreshTokens⟩
  · intro row _
    have honce := hrotated.once row.id
    omega
  · intro row hrow hredeemed sessionId
    exact hrotated.refused hrow hredeemed sessionId
  · intro row _
    exact hrotated.created row.id

namespace RotationSample

open RevocationSample

/-- A refresh of the first session that has confirmed it. -/
def refresh (stage : IssueStage) : Issue := ⟨1, 0, [], some 1, stage⟩

/-- The first session is issued, and its refresh token is presented so many times. -/
def presented (times : Nat) : List RotationAction :=
  (.login 1 "old" :: reading (attempt 0) ++ issuing (attempt 0) first ++
    List.replicate times (Action.refresh "refresh") ++
    List.replicate times (Action.confirmRefresh first)).map .act

/-- A refresh goes on to its end. -/
def redeeming (sessionId : Int) (accessTokenHash refreshTokenHash : String) :
    List RotationAction :=
  let renewed : Snapshot :=
    ⟨sessionId, 1, ["operator"], ["apps.deploy"], accessTokenHash, refreshTokenHash⟩
  [.readRoles (refresh .readingRoles),
    .readPermissions (refresh (.readingPermissions ["operator"])),
    .insert (refresh (.inserting ["operator"] ["apps.deploy"])) accessTokenHash refreshTokenHash,
    .save (refresh (.saving renewed)), .revokeOld (refresh .revokingOld),
    .deleteOld (refresh .deletingOld)].map .act

def alternating (state : List RotationEvent × Service) : RotationAction → Bool
  | .act (.confirmRefresh snapshot) => state.2.refreshes snapshot.sessionId == 0
  | .fail _ => false
  | _ => true

theorem alternates_of_alternating (state : List RotationEvent × Service) (action : RotationAction)
    (h : alternating state action = true) : state.2.Alternates action := by
  cases action with
  | fail issue => cases h
  | act action =>
      cases action with
      | confirmRefresh snapshot => exact fun _ => beq_iff_eq.mp h
      | _ => exact trivial

theorem fresh_service : RevocationSample.service.Fresh :=
  ⟨initial_service, List.nodup_nil, List.nodup_nil, List.nodup_nil⟩

end RotationSample

/-- A refresh token that is redeemed. -/
theorem rotation_holds_redeemed : ∃ log service,
    (rotation RevocationSample.verify).Reached (fun state => state.2.Alternates) (log, service) ∧
    log = [.created 1, .redeemed 1] ∧ RotationHolds log service := by
  have hexec : (((rotation RevocationSample.verify).restrict RotationSample.alternating).exec
      ([], RevocationSample.service)
      (RotationSample.presented 1 ++ RotationSample.redeeming 2 "access2" "refresh2")).any
        (fun state => state.1 == [.created 1, .redeemed 1]) = true := by decide
  obtain ⟨⟨log, service⟩, hs, hlog⟩ := (Option.any_eq_true _ _).mp hexec
  have hstart : Reachable ((rotation RevocationSample.verify).restrict RotationSample.alternating)
      ([], RevocationSample.service) := .start ⟨rfl, RotationSample.fresh_service⟩
  have hreached :=
    (Reached.of_restrict (hstart.exec hs)).mono RotationSample.alternates_of_alternating
  exact ⟨log, service, hreached, beq_iff_eq.mp hlog, rotation_holds hreached⟩

/-- A refresh token that is redeemed twice. -/
theorem token_redeemed_twice : ¬ ∀ log service,
    (rotation RevocationSample.verify).Reachable (log, service) →
      ∀ row ∈ service.database.sessions, log.count (.redeemed row.id) ≤ 1 := by
  intro h
  have hexec : ((rotation RevocationSample.verify).exec ([], RevocationSample.service)
      (RotationSample.presented 2 ++ RotationSample.redeeming 2 "access2" "refresh2" ++
        RotationSample.redeeming 3 "access3" "refresh3")).any (fun state =>
          state.2.database.sessions.any fun row => state.1.count (.redeemed row.id) == 2) = true := by
    decide
  obtain ⟨⟨log, service⟩, hs, hany⟩ := (Option.any_eq_true _ _).mp hexec
  obtain ⟨row, hrow, htwice⟩ := List.any_eq_true.mp hany
  have hstart : (rotation RevocationSample.verify).Reachable ([], RevocationSample.service) :=
    .start ⟨rfl, RotationSample.fresh_service⟩
  have honce := h log service (hstart.exec hs) row hrow
  rw [beq_iff_eq.mp htwice] at honce
  exact absurd honce (by decide)

end EasyDeploy.Auth
