import EasyDeploy.ReleaseQueue.DueScan

/-!
# Careful runs of the schedule worker

While every time that is entered is one the program reads and no update fails in
the middle of a scan, items are promoted in time and none of their applications
is lost.
-/

namespace EasyDeploy.ReleaseQueue
open Foundation
open Foundation.Transition

variable {calendar : Calendar} {entered : Int → String}

/-- The entered time of the item has come. -/
def Due (calendar : Calendar) (entered : Int → String) (now : Clock) (item : QueueItem) : Prop :=
  ∃ instant, calendar.instantEntered (entered item.id) = some instant ∧ instant ≤ now.time

/-- Scans that promoted due items only and skipped none. -/
def Recorded (calendar : Calendar) (entered : Int → String) (scan : DueScan) : Prop :=
  (∀ item, (item, .promoted) ∈ scan.promotions → Due calendar entered scan.now item) ∧
  ∀ promotion ∈ scan.promotions, promotion.2 ≠ .skipped

theorem DueScan.exists_of_mem_appIds {scan : DueScan} {appId : Int} (h : appId ∈ scan.appIds) :
    ∃ item, (item, .promoted) ∈ scan.promotions ∧ item.appId = appId := by
  obtain ⟨⟨item, promotion⟩, hmem, rfl⟩ := List.mem_map.mp h
  obtain ⟨hpromotion, hpromoted⟩ := List.mem_filter.mp hmem
  obtain rfl : promotion = .promoted := beq_iff_eq.mp hpromoted
  exact ⟨item, hpromotion, rfl⟩

/-- A scan that has dealt with one more item. -/
theorem Recorded.concat {scan : DueScan} {item : QueueItem} {promotion : Promotion}
    (h : Recorded calendar entered scan)
    (hpromoted : promotion = .promoted → Due calendar entered scan.now item)
    (hskipped : promotion ≠ .skipped) :
    Recorded calendar entered
      { scan with promotions := scan.promotions ++ [(item, promotion)] } := by
  refine ⟨fun other hother => ?_, fun other hother => ?_⟩
  · rcases List.mem_append.mp hother with hold | hnew
    · exact h.1 other hold
    · obtain ⟨rfl, rfl⟩ := Prod.mk.inj (List.mem_singleton.mp hnew)
      exact hpromoted rfl
  · rcases List.mem_append.mp hother with hold | hnew
    · exact h.2 other hold
    · obtain rfl := List.mem_singleton.mp hnew
      exact hskipped

theorem DueScan.read_abandon (scan : DueScan) (store : Store) (item : QueueItem)
    (items : List QueueItem) : (scan.abandon store item items).read = scan.read := rfl

/-- A scan that is left promotes nothing any more. -/
theorem DueScan.appIds_abandon (scan : DueScan) (store : Store) (item : QueueItem)
    (items : List QueueItem) : (scan.abandon store item items).appIds = scan.appIds := by
  have hrest : (items.map fun other =>
      (other, if store.isScheduled other.id then Promotion.skipped else .unscheduled)).filter
        (fun promotion => promotion.2 == .promoted) = [] := by
    refine List.filter_eq_nil_iff.mpr fun promotion hmem => ?_
    obtain ⟨other, -, rfl⟩ := List.mem_map.mp hmem
    dsimp only
    split <;> decide
  rw [DueScan.appIds, DueScan.abandon, List.filter_append, List.filter_cons_of_neg (by simp),
    hrest, List.append_nil, DueScan.appIds]

/-- A scan that is left when no item behind the update is scheduled. -/
theorem Recorded.abandon {scan : DueScan} {store : Store} {item : QueueItem}
    {items : List QueueItem} (h : Recorded calendar entered scan)
    (hrest : ∀ other ∈ items, store.isScheduled other.id = false) :
    Recorded calendar entered (scan.abandon store item items) := by
  have hleft (promotion : QueueItem × Promotion)
      (hmem : promotion ∈ (scan.abandon store item items).promotions) :
      promotion ∈ scan.promotions ∨ promotion.2 = .failed ∨ promotion.2 = .unscheduled := by
    rcases List.mem_append.mp hmem with hold | hnew
    · exact .inl hold
    · rcases List.mem_cons.mp hnew with rfl | hother
      · exact .inr (.inl rfl)
      · obtain ⟨other, hbehind, rfl⟩ := List.mem_map.mp hother
        simp [hrest other hbehind]
  constructor
  · intro other hother
    rcases hleft _ hother with hold | hfailed | hunscheduled
    · exact h.1 other hold
    · cases hfailed
    · cases hunscheduled
  · intro promotion hmem
    rcases hleft _ hmem with hold | hfailed | hunscheduled
    · exact h.2 promotion hold
    · rw [hfailed]
      decide
    · rw [hunscheduled]
      decide

namespace ScheduledWorld

/-- The store holds the time that the operator entered for the item. -/
def Stored (calendar : Calendar) (entered : Int → String) (item : QueueItem) : Prop :=
  ∃ instant, calendar.parsed (entered item.id) = some instant ∧ instant.year ≤ 9999 ∧
    item.scheduledPublishAt = some instant.toRfc3339

/-- What the table, the calls under way and the log keep. -/
structure Sound (calendar : Calendar) (entered : Int → String) (state : ScheduledWorld) :
    Prop where
  stored : ∀ item ∈ state.world.store.queue, item.awaitsTime = true →
    Stored calendar entered item
  scanning : ∀ scan items, state.stage = .updating scan items →
    scan.promotions.map (·.1) ++ items = scan.read ∧ scan.sent = [] ∧
    ∀ item ∈ scan.read, Due calendar entered scan.now item
  sending : ∀ scan appIds, state.stage = .sending scan appIds →
    scan.promotions.map (·.1) = scan.read ∧ scan.sent ++ appIds = scan.appIds
  ended : ∀ scan ∈ state.scans,
    scan.promotions.map (·.1) = scan.read ∧ scan.sent = scan.appIds
  delivered : state.sent = state.allScans.flatMap (·.sent)
  recorded : ∀ scan ∈ state.allScans, Recorded calendar entered scan

variable {state state' : ScheduledWorld}

theorem Sound.lossless (h : state.Sound calendar entered) : state.Lossless calendar entered where
  punctual scan hscan item hitem := (h.recorded scan hscan).1 item hitem
  covered scan hscan := (h.ended scan hscan).1
  complete scan hscan := (h.recorded scan hscan).2
  sent scan hscan := (h.ended scan hscan).2
  sending scan appIds hstage := (h.sending scan appIds hstage).2
  delivered := h.delivered

/-- The scan under way has ended. -/
theorem forall_ended {P : DueScan → Prop} {scans : List DueScan} {scan : DueScan}
    (h : ∀ scan ∈ scans, P scan) (hlast : P scan) : ∀ other ∈ scans ++ [scan], P other := by
  intro other hother
  rcases List.mem_append.mp hother with hold | hnew
  · exact h other hold
  · rw [List.mem_singleton.mp hnew]
    exact hlast

/-- Items are read when their time has come. -/
theorem Stored.due {item : QueueItem} (h : Stored calendar entered item) {now : Clock}
    (htime : item.scheduledPublishAt.any (fun time => decide (time ≤ now.text)) = true) :
    Due calendar entered now item := by
  obtain ⟨instant, hparsed, hyear, hstored⟩ := h
  rw [hstored] at htime
  refine ⟨instant, ?_, DateTime.le_of_toRfc3339_le hyear (of_decide_eq_true htime)⟩
  rw [Calendar.instantEntered, hparsed]
  rfl

theorem mem_dueItems {store : Store} {now : String} {item : QueueItem}
    (h : item ∈ Site.dueItems ⟨store, []⟩ now) : item ∈ store.queue ∧ item.awaitsTime = true ∧
      item.scheduledPublishAt.any (fun time => decide (time ≤ now)) = true := by
  have hmem := mem_sortBy.mp (List.mem_of_mem_take h)
  simp only [List.mem_filter, Bool.and_eq_true] at hmem
  exact ⟨hmem.1, hmem.2.1, hmem.2.2⟩

theorem Sound.others_step (h : state.Sound calendar entered) {action : Action}
    (hcareful : state.Careful calendar entered (.others action))
    (hstep : state.step calendar entered (.others action) = some state') :
    state'.Sound calendar entered := by
  simp only [step] at hstep
  split at hstep
  · rename_i hadmits
    obtain ⟨world, hworld, rfl⟩ := Option.map_eq_some_iff.mp hstep
    refine ⟨fun item hitem hawaits => ?_, h.scanning, h.sending, h.ended, h.delivered, h.recorded⟩
    rcases World.awaits_step hworld hitem hawaits with hold |
      ⟨call, snapshotId, time, rfl, hcall, hid, htime⟩
    · exact h.stored item hold hawaits
    · obtain ⟨instant, hparsed, hyear⟩ := hcareful (by rw [hcall]; rfl)
      have hnormal := Calendar.normalizePublishedAt_of_parsed hparsed
      simp only [admits, hcall, Option.all_some, hnormal, beq_iff_eq] at hadmits
      exact ⟨instant, hid ▸ hparsed, hyear, htime.trans hadmits.symm⟩
  · cases hstep

theorem Sound.select_step (h : state.Sound calendar entered) {now : Clock} {works : Bool}
    (hstep : state.step calendar entered (.select now works) = some state') :
    state'.Sound calendar entered := by
  simp only [step] at hstep
  split at hstep
  · rename_i hstage
    obtain rfl := Option.some.inj hstep
    have hdelivered := h.delivered
    have hrecorded := h.recorded
    simp only [allScans, hstage, ScheduleStage.scan, Option.toList_none, List.append_nil]
      at hdelivered hrecorded
    cases works with
    | false =>
        refine ⟨h.stored, nofun, nofun, h.ended, ?_, ?_⟩ <;>
          simp only [allScans, Bool.false_eq_true, if_false, ScheduleStage.scan,
            Option.toList_none, List.append_nil]
        · exact hdelivered
        · exact hrecorded
    | true =>
        rw [if_pos rfl]
        refine ⟨h.stored, fun scan items hscan => ?_, nofun, h.ended, ?_, ?_⟩
        · obtain ⟨rfl, rfl⟩ := ScheduleStage.updating.inj hscan
          refine ⟨rfl, rfl, fun item hitem => ?_⟩
          obtain ⟨hmem, hawaits, htime⟩ := mem_dueItems hitem
          exact (h.stored item hmem hawaits).due htime
        · simpa [allScans, ScheduleStage.scan] using hdelivered
        · exact forall_ended hrecorded ⟨fun _ hmem => absurd hmem List.not_mem_nil,
            fun _ hmem => absurd hmem List.not_mem_nil⟩
  · cases hstep

theorem awaits_tryPromoteItem {store store' : Store} {works promoted : Bool} {queueId : Int}
    (h : store.tryPromoteItem works queueId = .ok (promoted, store')) : store.Awaits store' := by
  cases works with
  | true => exact Store.awaits_promoteItem h
  | false => cases h

theorem Sound.update_step (h : state.Sound calendar entered) {works : Bool}
    (hcareful : state.Careful calendar entered (.update works))
    (hstep : state.step calendar entered (.update works) = some state') :
    state'.Sound calendar entered := by
  simp only [step] at hstep
  split at hstep
  · rename_i scan item items hstage
    obtain ⟨hread, hunsent, hdue⟩ := h.scanning _ _ hstage
    have hitem : Due calendar entered scan.now item := hdue item (by rw [← hread]; simp)
    have hdelivered : state.sent = state.scans.flatMap (·.sent) := by
      simpa [allScans, hstage, ScheduleStage.scan, hunsent] using h.delivered
    have hrecorded := h.recorded
    simp only [allScans, hstage, ScheduleStage.scan, Option.toList_some] at hrecorded
    have hold (other : DueScan) (hother : other ∈ state.scans) : Recorded calendar entered other :=
      hrecorded other (List.mem_append_left _ hother)
    have hlast : Recorded calendar entered scan := hrecorded scan (by simp)
    split at hstep
    · rename_i promoted store hpromote
      obtain rfl := Option.some.inj hstep
      refine ⟨fun other hother hawaits => ?_, fun scan' items' hscan => ?_, nofun, h.ended, ?_, ?_⟩
      · exact h.stored other (awaits_tryPromoteItem hpromote other hother hawaits) hawaits
      · obtain ⟨rfl, rfl⟩ := ScheduleStage.updating.inj hscan
        exact ⟨by simpa using hread, hunsent, hdue⟩
      · simpa [allScans, ScheduleStage.scan, hunsent] using hdelivered
      · exact forall_ended hold
          (hlast.concat (fun _ => hitem) (by cases promoted <;> decide))
    · rename_i error hpromote
      obtain ⟨hnone, hrest⟩ := hcareful scan item items error hstage hpromote
      obtain rfl := Option.some.inj hstep
      refine ⟨h.stored, nofun, nofun, forall_ended h.ended ⟨?_, ?_⟩, ?_, ?_⟩
      · rw [DueScan.read_abandon, ← hread]
        simp [DueScan.abandon, Function.comp_def]
      · rw [DueScan.appIds_abandon, hnone]
        exact hunsent
      · simpa [allScans, ScheduleStage.scan, DueScan.abandon, hunsent] using hdelivered
      · simp only [allScans, ScheduleStage.scan, Option.toList_none, List.append_nil]
        exact forall_ended hold (hlast.abandon hrest)
  · cases hstep

theorem Sound.collect_step (h : state.Sound calendar entered)
    (hstep : state.step calendar entered .collect = some state') :
    state'.Sound calendar entered := by
  simp only [step] at hstep
  split at hstep
  · rename_i scan hstage
    obtain ⟨hread, hunsent, -⟩ := h.scanning _ _ hstage
    have hdelivered := h.delivered
    have hrecorded := h.recorded
    simp only [allScans, hstage, ScheduleStage.scan] at hdelivered hrecorded
    obtain rfl := Option.some.inj hstep
    refine ⟨h.stored, nofun, fun scan' appIds hscan => ?_, h.ended, hdelivered, hrecorded⟩
    obtain ⟨rfl, rfl⟩ := ScheduleStage.sending.inj hscan
    rw [List.append_nil] at hread
    exact ⟨hread, by rw [hunsent, List.nil_append]⟩
  · cases hstep

theorem Sound.send_step (h : state.Sound calendar entered)
    (hstep : state.step calendar entered .send = some state') :
    state'.Sound calendar entered := by
  have hdelivered := h.delivered
  have hrecorded := h.recorded
  simp only [step] at hstep
  split at hstep
  · rename_i scan hstage
    obtain ⟨hread, hsent⟩ := h.sending _ _ hstage
    rw [List.append_nil] at hsent
    simp only [allScans, hstage, ScheduleStage.scan, Option.toList_some] at hdelivered hrecorded
    obtain rfl := Option.some.inj hstep
    refine ⟨h.stored, nofun, nofun, forall_ended h.ended ⟨hread, hsent⟩, ?_, ?_⟩ <;>
      simp only [allScans, ScheduleStage.scan, Option.toList_none, List.append_nil]
    · exact hdelivered
    · exact hrecorded
  · rename_i scan appId appIds hstage
    obtain ⟨hread, hsent⟩ := h.sending _ _ hstage
    simp only [allScans, hstage, ScheduleStage.scan, Option.toList_some] at hdelivered hrecorded
    obtain rfl := Option.some.inj hstep
    refine ⟨h.stored, nofun, fun scan' appIds' hscan => ?_, h.ended, ?_, ?_⟩
    · obtain ⟨rfl, rfl⟩ := ScheduleStage.sending.inj hscan
      exact ⟨hread, by rw [← List.append_cons]; exact hsent⟩
    · rw [hdelivered]
      simp [allScans, ScheduleStage.scan]
    · exact forall_ended (fun other hother => hrecorded other (List.mem_append_left _ hother))
        (hrecorded scan (by simp))
  · cases hstep

theorem Sound.step (h : state.Sound calendar entered) {action : ScheduleAction}
    (hcareful : state.Careful calendar entered action)
    (hstep : state.step calendar entered action = some state') : state'.Sound calendar entered := by
  cases action with
  | others action => exact h.others_step hcareful hstep
  | select now works => exact h.select_step hstep
  | update works => exact h.update_step hcareful hstep
  | collect => exact h.collect_step hstep
  | send => exact h.send_step hstep

/-- What was collected is sent, and the scan ends. -/
theorem exec_send {scan : DueScan} {appIds : List Int} (hstage : state.stage = .sending scan appIds) :
    (scheduling calendar entered).exec state (List.replicate (appIds.length + 1) .send) =
      some { state with
        stage := .ticking
        sent := state.sent ++ appIds
        scans := state.scans ++ [{ scan with sent := scan.sent ++ appIds }] } := by
  induction appIds generalizing state scan with
  | nil =>
      have hsend : (scheduling calendar entered).step state .send =
          some { state with stage := .ticking, scans := state.scans ++ [scan] } := by
        simp only [scheduling, ScheduledWorld.step, hstage]
      simp only [List.length_nil, List.replicate_succ, List.replicate_zero, Transition.exec, hsend,
        List.append_nil]
  | cons appId appIds ih =>
      have hsend : (scheduling calendar entered).step state .send =
          some { state with
            stage := .sending { scan with sent := scan.sent ++ [appId] } appIds
            sent := state.sent ++ [appId] } := by
        simp only [scheduling, ScheduledWorld.step, hstage]
      rw [List.length_cons, List.replicate_succ, Transition.exec, hsend]
      refine (ih rfl).trans ?_
      simp

end ScheduledWorld

/-- In careful runs scans promote items in time, deal with all that they have read, and send the
applications of all that they have promoted. -/
theorem due_scans_lossless {state : ScheduledWorld}
    (h : (scheduling calendar entered).Reached (ScheduledWorld.Careful calendar entered) state) :
    state.Lossless calendar entered ∧
    ∀ scan appIds, state.stage = .sending scan appIds →
      (scheduling calendar entered).exec state (List.replicate (appIds.length + 1) .send) =
        some { state with
          stage := .ticking
          sent := state.sent ++ appIds
          scans := state.scans ++ [{ scan with sent := scan.sent ++ appIds }] } := by
  refine ⟨ScheduledWorld.Sound.lossless ?_, fun scan appIds => ScheduledWorld.exec_send⟩
  refine h.invariant (fun state hinitial => ?_) fun state action state' _ hcareful hsound hstep =>
    hsound.step hcareful hstep
  obtain ⟨hstage, hsent, hscans, hwaiting⟩ := hinitial
  refine ⟨fun item hitem hawaits => ?_, fun scan items hupdating => ?_,
    fun scan appIds hsending => ?_, ?_, ?_, ?_⟩
  · rw [hwaiting item hitem] at hawaits
    cases hawaits
  · rw [hstage] at hupdating
    cases hupdating
  · rw [hstage] at hsending
    cases hsending
  · rw [hscans]
    nofun
  · rw [ScheduledWorld.allScans, hstage, hscans, hsent]
    rfl
  · rw [ScheduledWorld.allScans, hstage, hscans]
    nofun

namespace DueSample

/-- On the ninth of June 2026. -/
def june (hour second : Nat) (hhour : hour < 24) (hsecond : second < 60) : DateTime :=
  ⟨2026, 6, 9, hour, 0, second, 0, by decide, by decide, hhour, by decide, by omega, by decide⟩

/-- The library on three texts: a time of day in UTC, one whose year in UTC has five digits, and
one with an offset but without seconds. -/
def threeTexts : Calendar where
  parseFromRfc3339 text :=
    if text = "2026-06-09T10:00:00Z" then
      some (june 10 0 (by decide) (by decide))
    else if text = "9999-12-31T23:59:59-01:00" then
      some ⟨10000, 1, 1, 0, 59, 59, 0, by decide, by decide, by decide, by decide, by decide,
        by decide⟩
    else
      none
  parseFromStr _ _ := none
  eastEight _ := none
  iso8601 text :=
    if text = "2026-06-09T10:00-08:00" then some (june 18 0 (by decide) (by decide)) else none

def now : Clock := ⟨june 10 30 (by decide) (by decide), by decide, by decide, by decide⟩

/-- Two applications with a release each. -/
def world : ScheduledWorld :=
  ⟨⟨⟨[⟨1, 1, .received⟩, ⟨2, 2, .received⟩], [], []⟩, [], none, none, [], [], [], []⟩, .ticking,
    [], []⟩

/-- The requests that schedule the release at a stored time. -/
def schedule (release : Release) (time : String) : List ScheduleAction :=
  [.others (.readRelease release.id (some time)), .others (.checkRelease ⟨release, some time, false⟩),
    .others (.commitRelease ⟨release, some time, true⟩ 7 true)]

/-- Runs in which updates fail only where nothing is lost. -/
def attentive (state : ScheduledWorld) : ScheduleAction → Bool
  | .update works =>
      match state.stage with
      | .updating scan (item :: items) =>
          (state.world.store.tryPromoteItem works item.id).isOk || scan.appIds.isEmpty &&
            items.all fun other => !state.world.store.isScheduled other.id
      | _ => true
  | _ => true

theorem careful_of_attentive (state : ScheduledWorld) (action : ScheduleAction)
    (h : attentive state action = true) :
    state.Careful threeTexts (fun _ => "2026-06-09T10:00:00Z") action := by
  cases action with
  | update works =>
      intro scan item items error hstage herror
      simpa [attentive, hstage, herror, Except.isOk, Except.toBool] using h
  | others action =>
      have hdated : threeTexts.Dated "2026-06-09T10:00:00Z" :=
        ⟨june 10 0 (by decide) (by decide), by decide, by decide⟩
      cases action with
      | commitRelease call snapshotId works =>
          cases works with
          | true => exact fun _ => hdated
          | false => exact trivial
      | _ => exact trivial
  | _ => exact trivial

/-- Both applications are scheduled at the time and the items are read. -/
def scan (time : String) : List ScheduleAction :=
  schedule ⟨1, 1, .received⟩ time ++ schedule ⟨2, 2, .received⟩ time ++ [.select now true]

theorem initial_world (entered : Int → String) : (scheduling threeTexts entered).initial world :=
  ⟨rfl, rfl, rfl, fun _ hmem => absurd hmem List.not_mem_nil⟩

/-- An item is promoted before its instant has come. -/
theorem promoted_early (time : String) (instant : DateTime)
    (hentered : threeTexts.instantEntered time = some instant) (hlater : ¬ instant ≤ now.time)
    (hany : ((scheduling threeTexts fun _ => time).exec DueSample.world
      (scan ((threeTexts.normalizePublishedAt time).toOption.join.getD "") ++
        [.update true, .update true, .collect, .send, .send, .send])).any (fun state =>
          state.scans.any fun scan => scan.now == now && scan.appIds == [1, 2]) = true)
    (hlossless : ∀ state, (scheduling threeTexts fun _ => time).Reachable state →
      state.Lossless threeTexts fun _ => time) : False := by
  obtain ⟨state, hexec, hstate⟩ := (Option.any_eq_true _ _).mp hany
  simp only [Bool.and_eq_true, beq_iff_eq, List.any_eq_true] at hstate
  obtain ⟨scan, hscan, hnow, happs⟩ := hstate
  have hsound := hlossless state (.exec (.start (initial_world _)) hexec)
  have hdue : 1 ∈ scan.appIds := by
    rw [happs]
    decide
  obtain ⟨item, hitem, -⟩ := DueScan.exists_of_mem_appIds hdue
  have hall : scan ∈ state.allScans := List.mem_append_left _ hscan
  obtain ⟨instant', hinstant, hle⟩ := hsound.punctual scan hall item hitem
  obtain rfl := Option.some.inj (hentered.symm.trans hinstant)
  exact hlater (hnow ▸ hle)

end DueSample

open DueSample

/-- Two scans: the update of the first one fails before it has promoted anything, and the second
one promotes the items of both applications. -/
theorem due_scans_lossless_promoted : ∃ state,
    (scheduling threeTexts fun _ => "2026-06-09T10:00:00Z").Reached
      (ScheduledWorld.Careful threeTexts fun _ => "2026-06-09T10:00:00Z") state ∧
    state.sent = [1, 2] ∧ state.Lossless threeTexts fun _ => "2026-06-09T10:00:00Z" := by
  have hany : ((((scheduling threeTexts fun _ => "2026-06-09T10:00:00Z").restrict attentive).exec
      DueSample.world (schedule ⟨1, 1, .received⟩ "2026-06-09T10:00:00Z" ++
        [.select now true, .update false] ++ schedule ⟨2, 2, .received⟩ "2026-06-09T10:00:00Z" ++
        [.select now true, .update true, .update true, .collect, .send, .send, .send])).any
          (·.sent == [1, 2])) = true := by
    decide
  obtain ⟨state, hexec, hsent⟩ := (Option.any_eq_true _ _).mp hany
  have hstart : Reachable ((scheduling threeTexts fun _ => "2026-06-09T10:00:00Z").restrict
      attentive) DueSample.world := .start (initial_world fun _ => "2026-06-09T10:00:00Z")
  have hreached := Reached.of_restrict (hstart.exec hexec)
  have hcareful := hreached.mono careful_of_attentive
  exact ⟨state, hcareful, beq_iff_eq.mp hsent, (due_scans_lossless hcareful).1⟩

/-- The update of the second item fails: the first item is queued, and its application is never
sent. Items whose times are stored as entered, or have a year of five digits, are promoted
before their time. -/
theorem due_scan_loses_application :
    (¬ ∀ state, (scheduling threeTexts fun _ => "2026-06-09T10:00:00Z").Reachable state →
      state.Lossless threeTexts fun _ => "2026-06-09T10:00:00Z") ∧
    (¬ ∀ state, (scheduling threeTexts fun _ => "2026-06-09T10:00-08:00").Reachable state →
      state.Lossless threeTexts fun _ => "2026-06-09T10:00-08:00") ∧
    ¬ ∀ state, (scheduling threeTexts fun _ => "9999-12-31T23:59:59-01:00").Reachable state →
      state.Lossless threeTexts fun _ => "9999-12-31T23:59:59-01:00" := by
  refine ⟨fun hlossless => ?_, fun hlossless => ?_, fun hlossless => ?_⟩
  · have hany : ((scheduling threeTexts fun _ => "2026-06-09T10:00:00Z").exec DueSample.world
        (scan "2026-06-09T10:00:00Z" ++ [.update true, .update false])).any (fun state =>
          state.scans.any fun scan => scan.appIds == [1] && scan.sent == []) = true := by
      decide
    obtain ⟨state, hexec, hstate⟩ := (Option.any_eq_true _ _).mp hany
    simp only [Bool.and_eq_true, beq_iff_eq, List.any_eq_true] at hstate
    obtain ⟨scan, hscan, happs, hunsent⟩ := hstate
    have hsound := hlossless state (.exec (.start (initial_world _)) hexec)
    have hlost := hsound.sent scan hscan
    rw [happs, hunsent] at hlost
    cases hlost
  · exact promoted_early "2026-06-09T10:00-08:00" (june 18 0 (by decide) (by decide))
      (by decide) (by decide) (by decide +kernel) hlossless
  · exact promoted_early "9999-12-31T23:59:59-01:00"
      ⟨10000, 1, 1, 0, 59, 59, 0, by decide, by decide, by decide, by decide, by decide,
        by decide⟩ (by decide) (by decide) (by decide +kernel) hlossless

end EasyDeploy.ReleaseQueue
