import EasyDeploy.Auth.Revocation

/-!
# Runs of administrative calls

What a call changes and what it has left to revoke, step by step, and from the
steps every careful run.
-/

namespace EasyDeploy.Auth
open Foundation
open Foundation.Transition

namespace Service

variable {service service' : Service} {verify : String → String → Bool}

/-- A session that is inserted in a careful run is known to be stale or is accepted. -/
theorem Sound.insert_step (h : service.Sound) {issue : Issue}
    {accessTokenHash refreshTokenHash : String}
    (hcareful : service.Careful (.insert issue accessTokenHash refreshTokenHash))
    (hstep : service.step verify (.insert issue accessTokenHash refreshTokenHash) = some service') :
    service'.Sound := by
  simp only [step] at hstep
  split at hstep
  · rename_i roleCodes permissionKeys hstage
    split at hstep
    · rename_i hissue
      obtain rfl := Option.some.inj hstep
      have hreads := h.reads issue hissue
      simp only [Reads, hstage] at hreads
      refine ⟨fun snapshot hsnapshot => ?_, fun issued hissued row hrow hid => ?_,
        fun issued hissued => ?_, fun other hother => ?_, fun issued hissued => ?_,
        fun other hother => ?_, fun issued hissued => ?_, h.sparing⟩
      · obtain ⟨issued, hmem, heq⟩ := h.stored snapshot hsnapshot
        exact ⟨issued, List.mem_append_left _ hmem, heq⟩
      · rcases List.mem_append.mp hissued with hold | hnew
        · rcases List.mem_append.mp hrow with hrow | hrow
          · exact h.owned issued hold row hrow hid
          · rw [List.mem_singleton.mp hrow] at hid
            exact absurd (h.present issued hold) (hid ▸ Database.fresh_insertSession)
        · rw [List.mem_singleton.mp hnew] at hid ⊢
          rcases List.mem_append.mp hrow with hrow | hrow
          · exact absurd (List.mem_map.mpr ⟨row, hrow, hid⟩) Database.fresh_insertSession
          · rw [List.mem_singleton.mp hrow]
      · refine List.mem_map.mpr ?_
        rcases List.mem_append.mp hissued with hold | hnew
        · obtain ⟨row, hrow, hid⟩ := List.mem_map.mp (h.present issued hold)
          exact ⟨row, List.mem_append_left _ hrow, hid⟩
        · rw [List.mem_singleton.mp hnew]
          exact ⟨_, List.mem_append_right _ (List.mem_singleton_self _), rfl⟩
      · rcases mem_issueAt hother with hold | rfl
        · exact h.stamped other hold
        · exact h.stamped issue hissue
      · rcases List.mem_append.mp hissued with hold | hnew
        · exact h.stampedIssued issued hold
        · rw [List.mem_singleton.mp hnew]
          exact h.stamped issue hissue
      · rcases mem_issueAt hother with hold | rfl
        · exact (h.reads other hold).keep rfl (List.subset_append_left _ _) fun _ hmem _ => hmem
        · exact ⟨_, List.mem_append_right _ (List.mem_singleton_self _), rfl⟩
      · rcases List.mem_append.mp hissued with hold | hnew
        · exact (h.safe issued hold).keep (Database.isActive_insertSession (h.present issued hold))
            rfl (List.Subset.refl _) fun _ _ _ hpending => hpending
        · rw [List.mem_singleton.mp hnew]
          intro _
          refine ⟨fun change hchange hstale => ?_, hreads.imp id ?_⟩
          · simp only [Issued.stale, Bool.and_eq_true, Bool.or_eq_true, decide_eq_true_eq,
              List.contains_eq_mem] at hstale
            exact hcareful change hchange hstale.1 hstale.2
          · rintro ⟨change, hchange, hrights, hspared, haccount, hstamp⟩
            refine ⟨change, hrights, hcareful change hchange (.inl hstamp) ?_⟩
            simp [Change.concerns, hspared, haccount]
    · cases hstep
  · cases hstep

/-- What the change of a request does to sessions and rights, and that its call is to revoke the
sessions that it concerns. -/
structure Changes (service : Service) (request : Request) (number : Nat)
    (result : Database × Option Change × Option CallStage) : Prop where
  active : ∀ sessionId, result.1.isActive sessionId = true →
    service.database.isActive sessionId = true
  rows : ∀ row' ∈ result.1.sessions, ∃ row ∈ service.database.sessions,
    row.id = row'.id ∧ row.accountId = row'.accountId
  ids : result.1.sessions.map (·.id) = service.database.sessions.map (·.id)
  rights : ∀ accountId, result.1.rights accountId = service.database.rights accountId ∨
    ∃ change, result.2.1 = some change ∧ change.rights = true ∧ change.spared = none ∧
      accountId ∈ change.accounts
  revokes : ∀ change, result.2.1 = some change → change.number = number ∧
    ∃ stage, result.2.2 = some stage ∧ ∀ accountId sessionId,
      change.concerns accountId sessionId = true →
      (Call.willRevoke ⟨request, some change, stage⟩ accountId = true ∨
        result.1.isActive sessionId = false)
  sparing : ∀ accountId sessionId, result.2.2 = some (.revokingOthers accountId sessionId) →
    ∃ change, result.2.1 = some change ∧ change.spared = some sessionId ∧
      change.session = none ∧ change.rights = false

/-- The accounts of a role are those that hold it. -/
theorem mem_roleAccounts {database : Database} {accountId roleId : Int} :
    accountId ∈ database.roleAccounts roleId ↔ database.holdsRole accountId roleId = true := by
  simp [Database.roleAccounts, Database.holdsRole]

/-- The changes of one account. -/
theorem concerns_account {number : Nat} {accountId other sessionId : Int} {spared : Option Int}
    {rights : Bool} (h : Change.concerns ⟨number, [accountId], spared, none, rights⟩ other sessionId =
      true) : other = accountId := by
  simp only [Change.concerns, Bool.or_eq_true, Bool.and_eq_true] at h
  rcases h with ⟨h, -⟩ | h
  · simpa using h
  · cases h

/-- What a request changes. -/
theorem changes_makeChange (service : Service) (request : Request) (number : Nat) :
    Changes service request number (service.makeChange number request) := by
  have hrows : ∀ row' ∈ service.database.sessions, ∃ row ∈ service.database.sessions,
      row.id = row'.id ∧ row.accountId = row'.accountId := fun row hrow => ⟨row, hrow, rfl, rfl⟩
  cases request with
  | setAccountStatus accountId status =>
      simp only [makeChange]
      split
      · exact ⟨fun _ => id, hrows, rfl, fun _ => .inl rfl, nofun, nofun⟩
      · refine ⟨fun _ => id, hrows, rfl, fun _ => .inl rfl, ?_, nofun⟩
        rintro change ⟨⟩
        refine ⟨rfl, _, rfl, fun other sessionId hconcerns => .inl ?_⟩
        rw [concerns_account hconcerns]
        simp [Call.willRevoke]
  | resetAccountPassword accountId passwordHash =>
      refine ⟨fun _ => id, hrows, rfl, fun _ => .inl rfl, ?_, nofun⟩
      rintro change ⟨⟩
      refine ⟨rfl, _, rfl, fun other sessionId hconcerns => .inl ?_⟩
      rw [concerns_account hconcerns]
      simp [Call.willRevoke]
  | updateAccountRoles accountId roleIds =>
      refine ⟨fun _ => id, hrows, rfl, fun other => ?_, ?_, nofun⟩
      · rcases eq_or_ne other accountId with rfl | hne
        · exact .inr ⟨_, rfl, rfl, rfl, List.mem_singleton_self _⟩
        · exact .inl (Database.rights_replaceAccountRoles roleIds hne)
      · rintro change ⟨⟩
        refine ⟨rfl, _, rfl, fun other sessionId hconcerns => .inl ?_⟩
        rw [concerns_account hconcerns]
        simp [Call.willRevoke]
  | setRoleStatus roleId active =>
      refine ⟨fun _ => id, hrows, rfl, fun other => ?_, ?_, nofun⟩
      · cases hholds : service.database.holdsRole other roleId with
        | true => exact .inr ⟨_, rfl, rfl, rfl, mem_roleAccounts.mpr hholds⟩
        | false => exact .inl (Database.rights_setRoleStatus active hholds)
      · rintro change ⟨⟩
        refine ⟨rfl, _, rfl, fun other sessionId hconcerns => .inl ?_⟩
        simpa [Change.concerns, Call.willRevoke] using hconcerns
  | updateRolePermissions roleId permissionKeys =>
      refine ⟨fun _ => id, hrows, rfl, fun other => ?_, ?_, nofun⟩
      · cases hholds : service.database.holdsRole other roleId with
        | true => exact .inr ⟨_, rfl, rfl, rfl, mem_roleAccounts.mpr hholds⟩
        | false => exact .inl (Database.rights_replaceRolePermissions permissionKeys hholds)
      · rintro change ⟨⟩
        refine ⟨rfl, _, rfl, fun other sessionId hconcerns => .inl ?_⟩
        simpa [Change.concerns, Call.willRevoke] using hconcerns
  | changeOwnPassword accountId sessionId passwordHash =>
      refine ⟨fun _ => id, hrows, rfl, fun _ => .inl rfl, ?_, ?_⟩
      · rintro change ⟨⟩
        refine ⟨rfl, _, rfl, fun other otherSession hconcerns => .inl ?_⟩
        rw [concerns_account hconcerns]
        simp [Call.willRevoke]
      · rintro own spared ⟨⟩
        exact ⟨_, rfl, rfl, rfl, rfl⟩
  | revokeAdminSession sessionId =>
      refine ⟨fun other hactive => (Database.isActive_revokeSessionRecord hactive).1,
        fun row' hrow => Database.row_of_updateAt hrow, map_updateAt fun _ => rfl,
        fun _ => .inl rfl, ?_, nofun⟩
      rintro change ⟨⟩
      refine ⟨rfl, _, rfl, fun accountId other hconcerns => .inr ?_⟩
      have hother : sessionId = other := by simpa [Change.concerns] using hconcerns
      refine Bool.eq_false_iff.mpr fun hactive => ?_
      exact (Database.isActive_revokeSessionRecord hactive).2 hother.symm

/-- A call that has still to revoke something is not at its change. -/
theorem not_changing_of_willRevoke {call : Call} {accountId : Int}
    (h : call.willRevoke accountId = true) : call.stage ≠ .changing := by
  intro hstage
  rw [Call.willRevoke, hstage] at h
  cases h

/-- A session that has been overtaken stays so. -/
theorem Reads.overtaken {issue : Issue} (h : service.Reads issue)
    (hovertaken : service'.Overtaken issue) (hissued : service.issued ⊆ service'.issued) :
    service'.Reads issue := by
  unfold Reads at h ⊢
  split at h
  · exact .inr hovertaken
  · exact .inr hovertaken
  · obtain ⟨issued, hmem, hsnapshot⟩ := h
    exact ⟨issued, hissued hmem, hsnapshot⟩
  · exact trivial

/-- The change of a request leaves a sound service. -/
theorem Sound.change_step (h : service.Sound) {call : Call}
    (hstep : service.step verify (.change call) = some service') : service'.Sound := by
  simp only [step] at hstep
  split at hstep
  · rename_i hcall
    have hchanges := changes_makeChange service call.request (service.clock + 1)
    generalize service.makeChange (service.clock + 1) call.request = result at hstep hchanges
    obtain ⟨database, change, stage⟩ := result
    obtain rfl := Option.some.inj hstep
    -- The call itself had nothing to revoke before.
    have hpending (other : Change) (accountId : Int) (hpend : service.Pending other accountId) :
        ∃ waiting ∈ service.calls.erase call ++
            (stage.map fun stage => ({ call with change, stage } : Call)).toList,
          waiting.change = some other ∧ waiting.willRevoke accountId = true := by
      obtain ⟨waiting, hwaiting, heq, hrevokes⟩ := hpend
      refine ⟨waiting, List.mem_append_left _ ((List.mem_erase_of_ne ?_).mpr hwaiting), heq,
        hrevokes⟩
      rintro rfl
      exact not_changing_of_willRevoke hrevokes hcall.2
    have hnew (other : Change) (hother : change = some other) (accountId sessionId : Int)
        (hconcerns : other.concerns accountId sessionId = true)
        (hactive : database.isActive sessionId = true) :
        ∃ waiting ∈ service.calls.erase call ++
            (stage.map fun stage => ({ call with change, stage } : Call)).toList,
          waiting.change = some other ∧ waiting.willRevoke accountId = true := by
      obtain ⟨-, stage', hstage', hrevokes⟩ := hchanges.revokes other hother
      obtain rfl : stage = some stage' := hstage'
      refine ⟨_, List.mem_append_right _ (List.mem_singleton_self _), hother, ?_⟩
      rcases hrevokes accountId sessionId hconcerns with hrevokes | hclosed
      · rw [hother]
        exact hrevokes
      · rw [hactive] at hclosed
        cases hclosed
    have hmissed (accountId sessionId : Int) (other : Change) (hspared : other.spared = none)
        (haccount : accountId ∈ other.accounts) : other.concerns accountId sessionId = true := by
      simp [Change.concerns, hspared, haccount]
    refine ⟨h.stored, fun issued hissued row' hrow' hid => ?_, fun issued hissued => ?_,
      fun issue hissue => (h.stamped issue hissue).trans (Nat.le_succ _),
      fun issued hissued => (h.stampedIssued issued hissued).trans (Nat.le_succ _),
      fun issue hissue => ?_, fun issued hissued hactive => ?_, fun other hother => ?_⟩
    · obtain ⟨row, hrow, hsame, haccount⟩ := hchanges.rows row' hrow'
      rw [← haccount]
      exact h.owned issued hissued row hrow (hsame.trans hid)
    · rw [hchanges.ids]
      exact h.present issued hissued
    · rcases hchanges.rights issue.accountId with hsame | ⟨other, hother, hrights, hspared, hmem⟩
      · exact (h.reads issue hissue).keep hsame (List.Subset.refl _)
          fun _ hold _ => List.mem_append_left _ hold
      · refine (h.reads issue hissue).overtaken ?_ (List.Subset.refl _)
        refine ⟨other, List.mem_append_right _ (Option.mem_toList.mpr hother), hrights, hspared,
          hmem, ?_⟩
        rw [(hchanges.revokes other hother).1]
        exact Nat.lt_succ_of_le (h.stamped issue hissue)
    · obtain ⟨hstale, hcurrent⟩ := h.safe issued hissued (hchanges.active _ hactive)
      constructor
      · intro other hother hmissing
        rcases List.mem_append.mp hother with hold | hlast
        · exact hpending other _ (hstale other hold hmissing)
        · simp only [Issued.stale, Bool.and_eq_true] at hmissing
          exact hnew other (Option.mem_toList.mp hlast) _ _ hmissing.2 hactive
      · rcases hchanges.rights issued.snapshot.accountId with hsame |
          ⟨other, hother, hrights, hspared, hmem⟩
        · refine hcurrent.imp (fun hcurrent => Eq.trans hcurrent hsame.symm) ?_
          rintro ⟨other, hrights, hpend⟩
          exact ⟨other, hrights, hpending other _ hpend⟩
        · exact .inr ⟨other, hrights,
            hnew other hother _ _ (hmissed _ _ other hspared hmem) hactive⟩
    · rcases List.mem_append.mp hother with hold | hlast
      · exact h.sparing other (List.mem_of_mem_erase hold)
      · obtain ⟨stage', hstage', rfl⟩ := Option.map_eq_some_iff.mp (Option.mem_toList.mp hlast)
        rintro accountId sessionId rfl
        exact hchanges.sparing accountId sessionId hstage'
  · cases hstep

/-- What a call that goes on has yet to revoke. -/
theorem Pending.callAt {call : Call} {stage : CallStage} {change : Change} {accountId : Int}
    (h : service.Pending change accountId)
    (hmoved : call.change = some change → call.willRevoke accountId = true →
      Call.willRevoke { call with stage } accountId = true) :
    ∃ waiting ∈ service.callAt call stage,
      waiting.change = some change ∧ waiting.willRevoke accountId = true := by
  obtain ⟨waiting, hwaiting, heq, hrevokes⟩ := h
  rcases eq_or_ne waiting call with rfl | hne
  · exact ⟨_, List.mem_append_right _ (List.mem_singleton_self _), heq, hmoved heq hrevokes⟩
  · exact ⟨waiting, List.mem_append_left _ ((List.mem_erase_of_ne hne).mpr hwaiting), heq, hrevokes⟩

theorem mem_callAt {call other : Call} {stage : CallStage}
    (h : other ∈ service.callAt call stage) :
    other ∈ service.calls ∨ other = { call with stage } :=
  (List.mem_append.mp h).imp List.mem_of_mem_erase List.mem_singleton.mp

/-- A call goes on and may have revoked sessions. -/
theorem Sound.callAt (h : service.Sound) {call : Call} {stage : CallStage} {database : Database}
    {store : List Snapshot} (hstore : store ⊆ service.store)
    (hrows : ∀ row' ∈ database.sessions, ∃ row ∈ service.database.sessions,
      row.id = row'.id ∧ row.accountId = row'.accountId)
    (hids : database.sessions.map (·.id) = service.database.sessions.map (·.id))
    (hrights : ∀ accountId, database.rights accountId = service.database.rights accountId)
    (hactive : ∀ sessionId, database.isActive sessionId = true →
      service.database.isActive sessionId = true)
    (hmoved : ∀ issued ∈ service.issued,
      database.isActive issued.snapshot.sessionId = true → ∀ change,
      issued.stale change = true ∨ change.rights = true → call.change = some change →
      call.willRevoke issued.snapshot.accountId = true →
      Call.willRevoke { call with stage } issued.snapshot.accountId = true)
    (hsparing : ∀ accountId sessionId, stage ≠ .revokingOthers accountId sessionId) :
    ({ service with database, store, calls := service.callAt call stage } : Service).Sound where
  stored snapshot hsnapshot := by
    refine h.stored snapshot ?_
    simp only [List.mem_append] at hsnapshot ⊢
    exact hsnapshot.imp_left (Or.imp_left (hstore ·))
  owned issued hissued row' hrow' hid := by
    obtain ⟨row, hrow, hsame, haccount⟩ := hrows row' hrow'
    rw [← haccount]
    exact h.owned issued hissued row hrow (hsame.trans hid)
  present issued hissued := by
    rw [hids]
    exact h.present issued hissued
  stamped := h.stamped
  stampedIssued := h.stampedIssued
  reads issue hissue := (h.reads issue hissue).keep (hrights issue.accountId) (List.Subset.refl _)
    fun _ hmem _ => hmem
  safe issued hissued := (h.safe issued hissued).keep (hactive _) (hrights _) (List.Subset.refl _)
    fun hopen change hconcerned hpending =>
      hpending.callAt (hmoved issued hissued hopen change hconcerned)
  sparing other hother accountId sessionId hstage := by
    rcases mem_callAt hother with hold | rfl
    · exact h.sparing other hold accountId sessionId hstage
    · exact absurd hstage (hsparing accountId sessionId)

/-- The list of the sessions to revoke leaves a sound service. -/
theorem Sound.list_step (h : service.Sound) {call : Call} (hcareful : service.Careful (.list call))
    (hstep : service.step verify (.list call) = some service') : service'.Sound := by
  simp only [step] at hstep
  split at hstep
  · rename_i roleId hstage
    split at hstep
    · obtain rfl := Option.some.inj hstep
      refine h.callAt (List.Subset.refl _) (fun row hrow => ⟨row, hrow, rfl, rfl⟩) rfl (fun _ => rfl)
        (fun _ => id) (fun issued _ _ change _ hchange hrevokes => ?_) (fun _ _ heq => by cases heq)
      simp only [Call.willRevoke, hstage, hchange, Option.any_some, List.contains_eq_mem,
        decide_eq_true_eq] at hrevokes ⊢
      exact hcareful change roleId hchange hstage hrevokes
    · cases hstep
  · cases hstep

/-- A revocation leaves a sound service. -/
theorem Sound.revoke_step (h : service.Sound) {call : Call}
    (hstep : service.step verify (.revoke call) = some service') : service'.Sound := by
  have hrevoked (accountId : Int) (spared : Option Int) {stage : CallStage}
      (hmoved : ∀ issued ∈ service.issued,
        (issued.snapshot.accountId = accountId → spared = some issued.snapshot.sessionId) →
        ∀ change, issued.stale change = true ∨ change.rights = true →
        call.change = some change → call.willRevoke issued.snapshot.accountId = true →
        Call.willRevoke { call with stage } issued.snapshot.accountId = true)
      (hsparing : ∀ accountId sessionId, stage ≠ .revokingOthers accountId sessionId) :
      ({ service with
        database := service.database.revokeAccountSessions accountId spared
        calls := service.callAt call stage } : Service).Sound := by
    refine h.callAt (List.Subset.refl _) (fun row' hrow => Database.row_of_updateAt hrow)
      (map_updateAt fun _ => rfl) (fun _ => rfl)
      (fun _ => Database.isActive_revokeAccountSessions) (fun issued hissued hopen => ?_) hsparing
    refine hmoved issued hissued fun heq => ?_
    exact Database.spared_of_isActive
      (fun row hrow hid => (h.owned issued hissued row hrow hid).trans heq) hopen
  simp only [step] at hstep
  split at hstep
  · rename_i accountId accounts hstage
    split at hstep
    · obtain rfl := Option.some.inj hstep
      refine hrevoked accountId none (fun issued _ hother change _ _ hrevokes => ?_)
        (fun _ _ heq => by cases heq)
      simp only [Call.willRevoke, hstage, List.contains_eq_mem, List.mem_cons, decide_eq_true_eq,
        List.tail_cons] at hrevokes ⊢
      exact hrevokes.resolve_left fun heq => by cases hother heq
    · cases hstep
  · rename_i accountId sessionId hstage
    split at hstep
    · rename_i hcall
      obtain rfl := Option.some.inj hstep
      refine hrevoked accountId (some sessionId) (fun issued _ hspared change hconcerned hchange
        hrevokes => ?_) (fun _ _ heq => by cases heq)
      -- The session that is left is the one that the change spares.
      obtain ⟨own, hown, hownSpared, hownSession, hownRights⟩ :=
        h.sparing call hcall accountId sessionId hstage
      obtain rfl := Option.some.inj (hown.symm.trans hchange)
      simp only [Call.willRevoke, hstage, beq_iff_eq] at hrevokes
      rcases hconcerned with hstale | hrights
      · simp [Issued.stale, Change.concerns, hownSpared, hownSession, hspared hrevokes.symm]
          at hstale
      · rw [hownRights] at hrights
        cases hrights
    · cases hstep
  · cases hstep

/-- The end of a change leaves a sound service. -/
theorem Sound.delete_step (h : service.Sound) {call : Call}
    (hstep : service.step verify (.delete call) = some service') : service'.Sound := by
  simp only [step] at hstep
  split at hstep
  · rename_i accountId accounts hstage
    split at hstep
    · obtain rfl := Option.some.inj hstep
      refine h.callAt (List.filter_subset_self _) (fun row hrow => ⟨row, hrow, rfl, rfl⟩) rfl
        (fun _ => rfl) (fun _ => id) (fun issued _ _ change _ _ hrevokes => ?_)
        (fun _ _ heq => by cases heq)
      simpa only [Call.willRevoke, hstage, List.tail_cons] using hrevokes
    · cases hstep
  · rename_i sessionId hstage
    split at hstep
    · obtain rfl := Option.some.inj hstep
      refine h.callAt (List.filter_subset_self _) (fun row hrow => ⟨row, hrow, rfl, rfl⟩) rfl
        (fun _ => rfl) (fun _ => id) (fun issued _ _ change _ _ hrevokes => ?_)
        (fun _ _ heq => by cases heq)
      simp only [Call.willRevoke, hstage] at hrevokes
      cases hrevokes
    · cases hstep
  · cases hstep

/-- A call ends that has nothing left to revoke, or whose change is forgotten. -/
theorem Sound.erase (h : service.Sound) {call : Call} {changes : List Change}
    (hchanges : changes ⊆ service.changes)
    (hrights : ∀ change ∈ service.changes, change.rights = true → change ∈ changes)
    (hdone : ∀ change accountId, change ∈ changes ∨ change.rights = true →
      call.change = some change → call.willRevoke accountId = false) :
    ({ service with calls := service.calls.erase call, changes } : Service).Sound where
  stored := h.stored
  owned := h.owned
  present := h.present
  stamped := h.stamped
  stampedIssued := h.stampedIssued
  reads issue hissue := (h.reads issue hissue).keep rfl (List.Subset.refl _) hrights
  safe issued hissued hactive := by
    have hpending (change : Change) (hchange : change ∈ changes ∨ change.rights = true)
        (hpend : service.Pending change issued.snapshot.accountId) :
        ∃ waiting ∈ service.calls.erase call,
          waiting.change = some change ∧
            waiting.willRevoke issued.snapshot.accountId = true := by
      obtain ⟨waiting, hwaiting, heq, hrevokes⟩ := hpend
      refine ⟨waiting, (List.mem_erase_of_ne ?_).mpr hwaiting, heq, hrevokes⟩
      rintro rfl
      rw [hdone change _ hchange heq] at hrevokes
      cases hrevokes
    obtain ⟨hstale, hcurrent⟩ := h.safe issued hissued hactive
    refine ⟨fun change hchange hmissed =>
      hpending change (.inl hchange) (hstale change (hchanges hchange) hmissed), ?_⟩
    refine hcurrent.imp_right ?_
    rintro ⟨change, hright, hpend⟩
    exact ⟨change, hright, hpending change (.inr hright) hpend⟩
  sparing other hother := h.sparing other (List.mem_of_mem_erase hother)

/-- An answer leaves a sound service. -/
theorem Sound.answer_step (h : service.Sound) {call : Call}
    (hstep : service.step verify (.answer call) = some service') : service'.Sound := by
  simp only [step] at hstep
  split at hstep
  · rename_i hcall
    obtain rfl := Option.some.inj hstep
    refine h.erase (List.Subset.refl _) (fun _ hmem _ => hmem) fun change accountId _ _ => ?_
    rw [Call.willRevoke, hcall.2]
    rfl
  · cases hstep

/-- A failure in a careful run leaves a sound service. -/
theorem Sound.fail_step (h : service.Sound) {call : Call} (hcareful : service.Careful (.fail call))
    (hstep : service.step verify (.fail call) = some service') : service'.Sound := by
  simp only [step] at hstep
  split at hstep
  · obtain rfl := Option.some.inj hstep
    refine h.erase (List.filter_subset_self _) (fun change hmem hrights => ?_)
      fun change accountId hchange heq => ?_
    · refine List.mem_filter.mpr ⟨hmem, bne_iff_ne.mpr fun heq => ?_⟩
      rw [hcareful change heq.symm] at hrights
      cases hrights
    · rcases hchange with hmem | hrights
      · exact absurd heq.symm (bne_iff_ne.mp (List.mem_filter.mp hmem).2)
      · rw [hcareful change heq] at hrights
        cases hrights
  · cases hstep

/-- A request that begins leaves a sound service. -/
theorem Sound.start_step (h : service.Sound) {request : Request}
    (hstep : service.step verify (.start request) = some service') : service'.Sound := by
  simp only [step] at hstep
  split at hstep
  · obtain rfl := Option.some.inj hstep
    refine ⟨h.stored, h.owned, h.present, h.stamped, h.stampedIssued, h.reads,
      fun issued hissued => ?_, fun call hcall => ?_⟩
    · refine (h.safe issued hissued).keep id rfl (List.Subset.refl _) ?_
      rintro _ change _ ⟨call, hcall, hrest⟩
      exact ⟨call, List.mem_append_left _ hcall, hrest⟩
    · rcases List.mem_append.mp hcall with hold | hnew
      · exact h.sparing call hold
      · rw [List.mem_singleton.mp hnew]
        intro _ _ heq
        cases heq
  · cases hstep

/-- The end of a refresh leaves a sound service. -/
theorem Sound.revokeOld_step (h : service.Sound) {issue : Issue}
    (hstep : service.step verify (.revokeOld issue) = some service') : service'.Sound := by
  simp only [step] at hstep
  split at hstep
  · rename_i old hold
    split at hstep
    · rename_i hissue
      obtain rfl := Option.some.inj hstep
      have hreads : service.Reads { issue with stage := .deletingOld } := trivial
      have hmoved := h.issueAt hissue.1 hreads
      refine ⟨hmoved.stored, fun issued hissued row' hrow' hid => ?_, fun issued hissued => ?_,
        hmoved.stamped, hmoved.stampedIssued, fun other hother => ?_, fun issued hissued => ?_,
        hmoved.sparing⟩
      · obtain ⟨row, hrow, hsame, haccount⟩ := Database.row_of_updateAt hrow'
        rw [← haccount]
        exact h.owned issued hissued row hrow (hsame.trans hid)
      · have hids : (service.database.revokeSessionRecord old).sessions.map (·.id) =
            service.database.sessions.map (·.id) := map_updateAt fun _ => rfl
        rw [hids]
        exact h.present issued hissued
      · exact hmoved.reads other hother
      · exact (h.safe issued hissued).keep
          (fun hactive => (Database.isActive_revokeSessionRecord hactive).1) rfl
          (List.Subset.refl _) fun _ _ _ hpending => hpending
    · cases hstep
  · cases hstep

/-- Every careful step leaves a sound service. -/
theorem Sound.step (h : service.Sound) {action : Action} (hcareful : service.Careful action)
    (hstep : service.step verify action = some service') : service'.Sound := by
  cases action with
  | login accountId password => exact h.login_step hstep
  | readRoles issue => exact h.read_step (.inl hstep)
  | readPermissions issue => exact h.read_step (.inr hstep)
  | insert issue accessTokenHash refreshTokenHash => exact h.insert_step hcareful hstep
  | save issue => exact h.save_step hstep
  | revokeOld issue => exact h.revokeOld_step hstep
  | deleteOld issue => exact h.deleteOld_step hstep
  | authenticate accessTokenHash => exact h.lookup_step (.inl hstep)
  | confirm snapshot => exact h.confirm_step hstep
  | refresh refreshTokenHash => exact h.lookup_step (.inr hstep)
  | confirmRefresh snapshot => exact h.confirmRefresh_step hstep
  | start request => exact h.start_step hstep
  | change call => exact h.change_step hstep
  | list call => exact h.list_step hcareful hstep
  | revoke call => exact h.revoke_step hstep
  | delete call => exact h.delete_step hstep
  | answer call => exact h.answer_step hstep
  | fail call => exact h.fail_step hcareful hstep

/-- An initial service is sound. -/
theorem Initial.sound (h : service.Initial) : service.Sound := by
  obtain ⟨hstore, hissuing, hauthenticating, hrefreshing, hcalls, -, hissued, -⟩ := h
  constructor
  · simp [hstore, hauthenticating, hrefreshing]
  · simp [hissued]
  · simp [hissued]
  · simp [hissuing]
  · simp [hissued]
  · simp [hissuing]
  · simp [hissued]
  · simp [hcalls]

end Service

/-- In careful runs revocations are complete. -/
theorem revocation_complete {verify : String → String → Bool} {service : Service}
    (h : (authentication verify).Reached Service.Careful service) : service.Revokes := by
  refine Service.Sound.revokes (h.invariant (fun _ => Service.Initial.sound) ?_)
  exact fun _ _ _ _ hcareful hsound hstep => hsound.step hcareful hstep

namespace RevocationSample

def verify (password passwordHash : String) : Bool := password == passwordHash

/-- An account with one role and its permission. -/
def service : Service where
  database := ⟨[⟨1, "old", .active⟩], [⟨1, "operator", true, false⟩], [(1, 1)], [(1, "apps.deploy")],
    []⟩
  store := []
  issuing := []
  authenticating := []
  refreshing := []
  calls := []
  clock := 0
  changes := []
  issued := []

/-- The session with that number. -/
def snapshot (sessionId : Int) (accessTokenHash refreshTokenHash : String) : Snapshot :=
  ⟨sessionId, 1, ["operator"], ["apps.deploy"], accessTokenHash, refreshTokenHash⟩

def first : Snapshot := snapshot 1 "access" "refresh"

def second : Snapshot := snapshot 2 "access-2" "refresh-2"

def third : Snapshot := snapshot 3 "access-3" "refresh-3"

/-- What a login or a refresh reads behind its first statement. -/
def reading (issue : IssueStage → Issue) : List Action :=
  [.readRoles (issue .readingRoles), .readPermissions (issue (.readingPermissions ["operator"]))]

def issuing (issue : IssueStage → Issue) (session : Snapshot) : List Action :=
  [.insert (issue (.inserting ["operator"] ["apps.deploy"])) session.accessTokenHash
      session.refreshTokenHash, .save (issue (.saving session)),
    .authenticate session.accessTokenHash]

def attempt (stamp : Nat) : IssueStage → Issue := Issue.mk 1 stamp [] none

/-- A call on the account up to its change, and from there to its answer. -/
def changing (request : Request) : List Action :=
  [.start request, .change ⟨request, none, .changing⟩]

def change (rights : Bool) : Change := ⟨1, [1], none, none, rights⟩

def revoking (request : Request) (change : Change) : List Action :=
  [.revoke ⟨request, some change, .revoking [1]⟩, .delete ⟨request, some change, .deleting [1]⟩,
    .answer ⟨request, some change, .revoking []⟩]

def reset : Request := .resetAccountPassword 1 "new"

/-- A refresh of the first session that reads it behind the change of the password. -/
def refresh : IssueStage → Issue := Issue.mk 1 1 [change false] (some 1)

def refreshing : List Action :=
  .login 1 "old" :: reading (attempt 0) ++ issuing (attempt 0) first ++ changing reset ++
    [.refresh "refresh", .confirmRefresh first] ++ reading refresh

/-- The session is presented, its row admits it, and no call is under way. -/
def presented (session : Snapshot) (service : Service) : Bool :=
  service.authenticating.contains session &&
    service.database.admitsAccess session.sessionId session.accessTokenHash && service.calls.isEmpty

theorem accepts_of_presented {session : Snapshot} {service : Service}
    (h : presented session service = true) : service.Accepts session ∧ service.calls = [] := by
  simp only [presented, Bool.and_eq_true, List.contains_eq_mem, decide_eq_true_eq,
    List.isEmpty_iff] at h
  exact ⟨.inl h.1, h.2⟩

/-- Runs whose sessions are issued behind all changes, or before the calls have revoked. -/
def orderly (service : Service) : Action → Bool
  | .insert issue _ _ => service.changes.all fun change =>
      decide (change.number ≤ issue.stamp) && !issue.missed.contains change ||
        service.calls.any fun call =>
          call.change == some change && call.willRevoke issue.accountId
  | .list _ | .fail _ => false
  | _ => true

theorem careful_of_orderly (service : Service) (action : Action)
    (h : orderly service action = true) : service.Careful action := by
  cases action with
  | insert issue accessTokenHash refreshTokenHash =>
      intro change hchange hmissed _
      have hordered := List.all_eq_true.mp h change hchange
      simp only [Bool.or_eq_true, Bool.and_eq_true, decide_eq_true_eq, Bool.not_eq_true',
        List.any_eq_true, beq_iff_eq, List.contains_eq_mem, decide_eq_false_iff_not] at hordered
      refine hordered.resolve_left fun hbehind => ?_
      rcases hmissed with hlater | hmissed
      · exact absurd hlater (Nat.not_lt.mpr hbehind.1)
      · exact hbehind.2 hmissed
  | list call => cases h
  | fail call => cases h
  | _ => exact trivial

theorem initial_service : service.Initial :=
  ⟨rfl, rfl, rfl, rfl, rfl, rfl, rfl, fun _ hmem => absurd hmem List.not_mem_nil⟩

end RevocationSample

open RevocationSample

/-- The password is reset while a session is refreshed, which is revoked with the others; then a
session is issued from the new password. -/
theorem revocation_complete_reset : ∃ service,
    (authentication verify).Reached Service.Careful service ∧ service.Accepts third ∧
    service.Revokes := by
  have hany : (((authentication verify).restrict orderly).exec RevocationSample.service
      (refreshing ++ issuing refresh second ++ revoking reset (change false) ++
        .login 1 "new" :: reading (attempt 1) ++ issuing (attempt 1) third)).any
          (presented third) = true := by
    decide +kernel
  obtain ⟨service, hexec, hpresented⟩ := (Option.any_eq_true _ _).mp hany
  have hstart : Reachable ((authentication verify).restrict orderly) RevocationSample.service :=
    .start initial_service
  have hreached := (Reached.of_restrict (hstart.exec hexec)).mono careful_of_orderly
  exact ⟨service, hreached, (accepts_of_presented hpresented).1, revocation_complete hreached⟩

/-- A login reads the account, the password is reset or the roles are replaced, the call revokes
all sessions and returns, and then the login inserts its session; or a refresh reads a session with
the former password before the reset revokes it, and inserts the new one behind the reset. -/
theorem login_survives_revocation :
    (¬ ∀ service, (authentication verify).Reachable service → service.Revokes) ∧
    (∃ service, (authentication verify).Reachable service ∧ service.Accepts first ∧
      service.calls = [] ∧ ¬ service.Current first) ∧
    ∃ service, (authentication verify).Reachable service ∧ service.Accepts second ∧
      service.calls = [] ∧ change false ∈ service.changes ∧
      ∃ issued ∈ service.issued, issued.snapshot = second ∧ issued.stale (change false) = true := by
  have hstart : Reachable (authentication verify) RevocationSample.service := .start initial_service
  refine ⟨?_, ?_, ?_⟩
  · intro hrevokes
    have hany : ((authentication verify).exec RevocationSample.service
        (.login 1 "old" :: reading (attempt 0) ++ changing reset ++ revoking reset (change false) ++
          issuing (attempt 0) first)).any (fun service => presented first service &&
            service.changes.contains (change false) && service.issued.contains ⟨first, 0, []⟩) =
          true := by
      decide +kernel
    obtain ⟨service, hexec, hstate⟩ := (Option.any_eq_true _ _).mp hany
    simp only [Bool.and_eq_true, List.contains_eq_mem, decide_eq_true_eq] at hstate
    obtain ⟨⟨hpresented, hchange⟩, hissued⟩ := hstate
    obtain ⟨haccepts, hcalls⟩ := accepts_of_presented hpresented
    have hstale := ((hrevokes service (hstart.exec hexec) first haccepts).2 _ hissued rfl).1 _
      hchange (by rw [hcalls]; exact fun _ hmem => absurd hmem List.not_mem_nil)
    exact absurd hstale (by decide)
  · have hany : ((authentication verify).exec RevocationSample.service
        (.login 1 "old" :: reading (attempt 0) ++ changing (.updateAccountRoles 1 []) ++
          revoking (.updateAccountRoles 1 []) (change true) ++ issuing (attempt 0) first)).any
          (fun service => presented first service &&
            service.database.rights 1 != (first.roleCodes, first.permissionKeys)) = true := by
      decide +kernel
    obtain ⟨service, hexec, hstate⟩ := (Option.any_eq_true _ _).mp hany
    simp only [Bool.and_eq_true, bne_iff_ne] at hstate
    obtain ⟨haccepts, hcalls⟩ := accepts_of_presented hstate.1
    exact ⟨service, hstart.exec hexec, haccepts, hcalls, fun hsame => hstate.2 hsame.symm⟩
  · have hany : ((authentication verify).exec RevocationSample.service
        (refreshing ++ revoking reset (change false) ++ issuing refresh second)).any
          (fun service => presented second service && service.changes.contains (change false) &&
            service.issued.contains ⟨second, 1, [change false]⟩) = true := by
      decide +kernel
    obtain ⟨service, hexec, hstate⟩ := (Option.any_eq_true _ _).mp hany
    simp only [Bool.and_eq_true, List.contains_eq_mem, decide_eq_true_eq] at hstate
    obtain ⟨⟨hpresented, hchange⟩, hissued⟩ := hstate
    obtain ⟨haccepts, hcalls⟩ := accepts_of_presented hpresented
    exact ⟨service, hstart.exec hexec, haccepts, hcalls, hchange, _, hissued, rfl, by decide⟩

end EasyDeploy.Auth
