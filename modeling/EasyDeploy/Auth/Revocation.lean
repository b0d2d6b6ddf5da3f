import EasyDeploy.Auth.Sessions

/-!
# Complete revocations

While no session is inserted whose account was changed and revoked since it was
read, every session that is still active after a change of its account is one
that the call of the change has yet to revoke.
-/

namespace EasyDeploy.Auth
open Foundation
open Foundation.Transition

namespace Service

variable (service : Service)

/-- The call of the change is still to revoke the sessions of the account. -/
def Pending (change : Change) (accountId : Int) : Prop :=
  ∃ call ∈ service.calls, call.change = some change ∧ call.willRevoke accountId = true

/-- The session carries the rights of its account. -/
def Current (snapshot : Snapshot) : Prop :=
  (snapshot.roleCodes, snapshot.permissionKeys) = service.database.rights snapshot.accountId

/-- An authentication or a refresh succeeds on the session. -/
def Accepts (snapshot : Snapshot) : Prop :=
  (snapshot ∈ service.authenticating ∧
    service.database.admitsAccess snapshot.sessionId snapshot.accessTokenHash = true) ∨
  (snapshot ∈ service.refreshing ∧
    (service.database.refreshRow snapshot.sessionId snapshot.refreshTokenHash).any
      (·.2.status == .active) = true)

/-- Sessions that are accepted were issued after every change by a call that has returned, and
carry the rights of their accounts unless a revocation is under way. -/
def Revokes : Prop :=
  ∀ snapshot, service.Accepts snapshot →
    (∃ issued ∈ service.issued, issued.snapshot = snapshot) ∧
    ∀ issued ∈ service.issued, issued.snapshot = snapshot →
      (∀ change ∈ service.changes, (∀ call ∈ service.calls, call.change ≠ some change) →
        issued.stale change = false) ∧
      (service.Current snapshot ∨
        ∃ call ∈ service.calls, call.willRevoke snapshot.accountId = true)

/-- The identifier that the next session gets. -/
def newSessionId : Int := nextId (service.database.sessions.map (·.id))

/-- A session is inserted only while the calls of all changes since its account was read, and of
those that a session it replaces has missed, are still to revoke the sessions of the account;
accounts keep a role from its change until they are listed; and calls that have changed roles or
permissions do not fail. -/
def Careful : Action → Prop
  | .insert issue _ _ => ∀ change ∈ service.changes,
      issue.stamp < change.number ∨ change ∈ issue.missed →
      change.concerns issue.accountId service.newSessionId = true →
      service.Pending change issue.accountId
  | .list call => ∀ change roleId, call.change = some change → call.stage = .listing roleId →
      change.accounts ⊆ service.database.roleAccounts roleId
  | .fail call => ∀ change, call.change = some change → change.rights = false
  | _ => True

/-- The rights of the account have changed since it was read. -/
def Overtaken (issue : Issue) : Prop :=
  ∃ change ∈ service.changes, change.rights = true ∧ change.spared = none ∧
    issue.accountId ∈ change.accounts ∧ issue.stamp < change.number

/-- What a call that issues a session has read. -/
def Reads (issue : Issue) : Prop :=
  match issue.stage with
  | .readingPermissions roleCodes =>
      roleCodes = service.database.roleCodes issue.accountId ∨ service.Overtaken issue
  | .inserting roleCodes permissionKeys =>
      (roleCodes, permissionKeys) = service.database.rights issue.accountId ∨
        service.Overtaken issue
  | .saving snapshot => ∃ issued ∈ service.issued, issued.snapshot = snapshot
  | _ => True

/-- Unless its row is revoked, every change that the session missed is about to revoke it. -/
def Safe (issued : Issued) : Prop :=
  service.database.isActive issued.snapshot.sessionId = true →
    (∀ change ∈ service.changes, issued.stale change = true →
      service.Pending change issued.snapshot.accountId) ∧
    (service.Current issued.snapshot ∨
      ∃ change, change.rights = true ∧ service.Pending change issued.snapshot.accountId)

/-- What the tables and the calls under way keep. -/
structure Sound : Prop where
  stored : ∀ snapshot ∈ service.store ++ service.authenticating ++ service.refreshing,
    ∃ issued ∈ service.issued, issued.snapshot = snapshot
  owned : ∀ issued ∈ service.issued, ∀ row ∈ service.database.sessions,
    row.id = issued.snapshot.sessionId → row.accountId = issued.snapshot.accountId
  present : ∀ issued ∈ service.issued,
    issued.snapshot.sessionId ∈ service.database.sessions.map (·.id)
  stamped : ∀ issue ∈ service.issuing, issue.stamp ≤ service.clock
  stampedIssued : ∀ issued ∈ service.issued, issued.stamp ≤ service.clock
  reads : ∀ issue ∈ service.issuing, service.Reads issue
  safe : ∀ issued ∈ service.issued, service.Safe issued
  sparing : ∀ call ∈ service.calls, ∀ accountId sessionId,
    call.stage = .revokingOthers accountId sessionId → ∃ change, call.change = some change ∧
      change.spared = some sessionId ∧ change.session = none ∧ change.rights = false

variable {service}

theorem isActive_of_admitsAccess {sessionId : Int} {accessTokenHash : String}
    (h : service.database.admitsAccess sessionId accessTokenHash = true) :
    service.database.isActive sessionId = true := by
  obtain ⟨row, hrow, hadmits⟩ := List.any_eq_true.mp h
  simp only [Bool.and_eq_true] at hadmits
  exact List.any_eq_true.mpr ⟨row, hrow, by simp only [Bool.and_eq_true]; exact hadmits.1.1⟩

theorem isActive_of_refreshRow {sessionId : Int} {refreshTokenHash : String}
    {p : SessionRow × AuthAccount → Bool}
    (h : (service.database.refreshRow sessionId refreshTokenHash).any p = true) :
    service.database.isActive sessionId = true := by
  obtain ⟨_, hrow, -⟩ := (Option.any_eq_true _ _).mp h
  obtain ⟨row, hfind, -⟩ := Option.bind_eq_some_iff.mp hrow
  have hguard := List.find?_some hfind
  simp only [Bool.and_eq_true] at hguard
  exact List.any_eq_true.mpr ⟨row, List.mem_of_find?_eq_some hfind, by
    simp only [Bool.and_eq_true]; exact hguard.1⟩

theorem Sound.revokes (h : service.Sound) : service.Revokes := by
  intro snapshot haccepts
  have hheld : snapshot ∈ service.store ++ service.authenticating ++ service.refreshing ∧
      service.database.isActive snapshot.sessionId = true := by
    rcases haccepts with ⟨hmem, hadmits⟩ | ⟨hmem, hrow⟩
    · exact ⟨by simp [hmem], isActive_of_admitsAccess hadmits⟩
    · exact ⟨by simp [hmem], isActive_of_refreshRow hrow⟩
  refine ⟨h.stored snapshot hheld.1, ?_⟩
  rintro issued hissued rfl
  obtain ⟨hstale, hrights⟩ := h.safe issued hissued hheld.2
  constructor
  · intro change hchange hreturned
    refine Bool.eq_false_iff.mpr fun hmissed => ?_
    obtain ⟨call, hcall, heq, -⟩ := hstale change hchange hmissed
    exact hreturned call hcall heq
  · refine hrights.imp_right ?_
    rintro ⟨change, -, call, hcall, -, hrevokes⟩
    exact ⟨call, hcall, hrevokes⟩

variable {service' : Service}

theorem Safe.keep {issued : Issued} (h : service.Safe issued)
    (hactive : service'.database.isActive issued.snapshot.sessionId = true →
      service.database.isActive issued.snapshot.sessionId = true)
    (hrights : service'.database.rights issued.snapshot.accountId =
      service.database.rights issued.snapshot.accountId)
    (hchanges : service'.changes ⊆ service.changes)
    (hpending : service'.database.isActive issued.snapshot.sessionId = true →
      ∀ change, issued.stale change = true ∨ change.rights = true →
        service.Pending change issued.snapshot.accountId →
        service'.Pending change issued.snapshot.accountId) : service'.Safe issued := by
  intro hopen
  obtain ⟨hstale, hcurrent⟩ := h (hactive hopen)
  refine ⟨fun change hchange hmissed => ?_, ?_⟩
  · exact hpending hopen change (.inl hmissed) (hstale change (hchanges hchange) hmissed)
  · refine hcurrent.imp (fun hsame => hsame.trans hrights.symm) ?_
    rintro ⟨change, hchange, hpend⟩
    exact ⟨change, hchange, hpending hopen change (.inr hchange) hpend⟩

theorem Overtaken.keep {issue : Issue} (h : service.Overtaken issue)
    (hchanges : ∀ change ∈ service.changes, change.rights = true → change ∈ service'.changes) :
    service'.Overtaken issue := by
  obtain ⟨change, hchange, hrights, hrest⟩ := h
  exact ⟨change, hchanges change hchange hrights, hrights, hrest⟩

theorem Reads.keep {issue : Issue} (h : service.Reads issue)
    (hrights : service'.database.rights issue.accountId =
      service.database.rights issue.accountId)
    (hissued : service.issued ⊆ service'.issued)
    (hchanges : ∀ change ∈ service.changes, change.rights = true → change ∈ service'.changes) :
    service'.Reads issue := by
  unfold Reads at h ⊢
  split at h
  · exact h.imp (fun hsame => hsame.trans (congrArg Prod.fst hrights).symm) (·.keep hchanges)
  · exact h.imp (fun hsame => hsame.trans hrights.symm) (·.keep hchanges)
  · obtain ⟨issued, hmem, hsnapshot⟩ := h
    exact ⟨issued, hissued hmem, hsnapshot⟩
  · exact trivial

/-- Steps that leave the tables and the calls alone. -/
theorem Sound.shuffle (h : service.Sound) {store authenticating refreshing : List Snapshot}
    {issuing : List Issue}
    (hstored : ∀ snapshot ∈ store ++ authenticating ++ refreshing,
      snapshot ∈ service.store ++ service.authenticating ++ service.refreshing ∨
        ∃ issued ∈ service.issued, issued.snapshot = snapshot)
    (hissuing : ∀ issue ∈ issuing,
      issue ∈ service.issuing ∨ issue.stamp ≤ service.clock ∧ service.Reads issue) :
    ({ service with store, authenticating, refreshing, issuing } : Service).Sound where
  stored snapshot hmem := (hstored snapshot hmem).elim (h.stored snapshot) id
  owned := h.owned
  present := h.present
  stamped issue hmem := (hissuing issue hmem).elim (h.stamped issue) (·.1)
  stampedIssued := h.stampedIssued
  reads issue hmem := (hissuing issue hmem).elim (h.reads issue) (·.2)
  safe := h.safe
  sparing := h.sparing

theorem mem_issueAt {issue other : Issue} {stage : IssueStage}
    (h : other ∈ service.issueAt issue stage) :
    other ∈ service.issuing ∨ other = { issue with stage } :=
  (List.mem_append.mp h).imp List.mem_of_mem_erase List.mem_singleton.mp

/-- A call that issues a session goes on. -/
theorem Sound.issueAt (h : service.Sound) {issue : Issue} {stage : IssueStage}
    (hmem : issue ∈ service.issuing) (hreads : service.Reads { issue with stage }) :
    ({ service with issuing := service.issueAt issue stage } : Service).Sound := by
  refine h.shuffle (fun snapshot hsnapshot => .inl hsnapshot) fun other hother => ?_
  rcases mem_issueAt hother with hold | rfl
  · exact .inl hold
  · exact .inr ⟨h.stamped issue hmem, hreads⟩

theorem mem_without {snapshot stored : Snapshot} (h : stored ∈ service.without snapshot) :
    stored ∈ service.store :=
  List.mem_of_mem_filter h

variable {verify : String → String → Bool}

theorem Sound.login_step (h : service.Sound) {accountId : Int} {password : String}
    (hstep : service.step verify (.login accountId password) = some service') : service'.Sound := by
  simp only [step] at hstep
  split at hstep
  · split at hstep
    · obtain rfl := Option.some.inj hstep
      refine h.shuffle (fun snapshot hsnapshot => .inl hsnapshot) fun issue hissue => ?_
      rcases List.mem_append.mp hissue with hold | hnew
      · exact .inl hold
      · rw [List.mem_singleton.mp hnew]
        exact .inr ⟨le_rfl, trivial⟩
    · cases hstep
  · cases hstep

theorem Sound.read_step (h : service.Sound) {issue : Issue}
    (hstep : service.step verify (.readRoles issue) = some service' ∨
      service.step verify (.readPermissions issue) = some service') : service'.Sound := by
  rcases hstep with hstep | hstep
  · simp only [step] at hstep
    split at hstep
    · rename_i hissue
      obtain rfl := Option.some.inj hstep
      exact h.issueAt hissue.1 (.inl rfl)
    · cases hstep
  · simp only [step] at hstep
    split at hstep
    · rename_i roleCodes hstage
      split at hstep
      · rename_i hissue
        obtain rfl := Option.some.inj hstep
        have hreads := h.reads issue hissue
        simp only [Reads, hstage] at hreads
        refine h.issueAt hissue (hreads.imp_left fun hcodes => ?_)
        rw [hcodes]
        rfl
      · cases hstep
    · cases hstep

theorem Sound.save_step (h : service.Sound) {issue : Issue}
    (hstep : service.step verify (.save issue) = some service') : service'.Sound := by
  simp only [step] at hstep
  split at hstep
  · rename_i snapshot hstage
    split at hstep
    · rename_i hissue
      obtain rfl := Option.some.inj hstep
      have hreads := h.reads issue hissue
      simp only [Reads, hstage] at hreads
      refine h.shuffle (fun stored hstored => ?_) fun other hother => ?_
      · simp only [List.append_assoc, List.mem_append, List.mem_singleton] at hstored ⊢
        rcases hstored with hold | rfl | hheld
        · exact .inl (.inl hold)
        · exact .inr hreads
        · exact .inl (.inr hheld)
      · split at hother
        · rcases mem_issueAt hother with hold | rfl
          · exact .inl hold
          · exact .inr ⟨h.stamped issue hissue, trivial⟩
        · exact .inl (List.mem_of_mem_erase hother)
    · cases hstep
  · cases hstep

theorem Sound.deleteOld_step (h : service.Sound) {issue : Issue}
    (hstep : service.step verify (.deleteOld issue) = some service') : service'.Sound := by
  simp only [step] at hstep
  split at hstep
  · split at hstep
    · obtain rfl := Option.some.inj hstep
      refine h.shuffle (fun stored hstored => .inl ?_) fun other hother =>
        .inl (List.mem_of_mem_erase hother)
      simp only [List.mem_append] at hstored ⊢
      exact hstored.imp_left (Or.imp_left List.mem_of_mem_filter)
    · cases hstep
  · cases hstep

theorem Sound.lookup_step (h : service.Sound) {hash : String}
    (hstep : service.step verify (.authenticate hash) = some service' ∨
      service.step verify (.refresh hash) = some service') : service'.Sound := by
  rcases hstep with hstep | hstep
  all_goals
    obtain ⟨snapshot, hfind, rfl⟩ := Option.map_eq_some_iff.mp hstep
    have hmem := List.mem_of_find?_eq_some hfind
    refine h.shuffle (fun stored hstored => .inl ?_) fun other hother => .inl hother
    simp only [List.mem_append, List.mem_singleton] at hstored ⊢
  · rcases hstored with (hold | hold | rfl) | hold
    · exact .inl (.inl hold)
    · exact .inl (.inr hold)
    · exact .inl (.inl hmem)
    · exact .inr hold
  · rcases hstored with (hold | hold) | hold | rfl
    · exact .inl (.inl hold)
    · exact .inl (.inr hold)
    · exact .inr hold
    · exact .inl (.inl hmem)

theorem Sound.confirm_step (h : service.Sound) {snapshot : Snapshot}
    (hstep : service.step verify (.confirm snapshot) = some service') : service'.Sound := by
  simp only [step] at hstep
  split at hstep
  · obtain rfl := Option.some.inj hstep
    refine h.shuffle (fun stored hstored => .inl ?_) fun other hother => .inl hother
    simp only [List.mem_append] at hstored ⊢
    refine hstored.imp_left (Or.imp (fun hold => ?_) List.mem_of_mem_erase)
    split at hold
    · exact hold
    · exact mem_without hold
  · cases hstep

theorem Sound.confirmRefresh_step (h : service.Sound) {snapshot : Snapshot}
    (hstep : service.step verify (.confirmRefresh snapshot) = some service') : service'.Sound := by
  have hfailed : ({ service with
      refreshing := service.refreshing.erase snapshot
      store := service.without snapshot } : Service).Sound := by
    refine h.shuffle (fun stored hstored => .inl ?_) fun other hother => .inl hother
    simp only [List.mem_append] at hstored ⊢
    exact hstored.imp (Or.imp_left mem_without) List.mem_of_mem_erase
  simp only [step] at hstep
  split at hstep
  · split at hstep
    · split at hstep
      · obtain rfl := Option.some.inj hstep
        refine h.shuffle (fun stored hstored => .inl ?_) fun other hother => ?_
        · simp only [List.mem_append] at hstored ⊢
          exact hstored.imp_right List.mem_of_mem_erase
        · rcases List.mem_append.mp hother with hold | hnew
          · exact .inl hold
          · rw [List.mem_singleton.mp hnew]
            exact .inr ⟨le_rfl, trivial⟩
      · obtain rfl := Option.some.inj hstep
        exact hfailed
    · obtain rfl := Option.some.inj hstep
      exact hfailed
  · cases hstep

end Service

end EasyDeploy.Auth
