import EasyDeploy.BinaryTask.BlueGreen

/-!
# Traffic stays on a running slot

Starting and stopping the standby slot leaves the proxies and the active slot
alone. A run keeps the traffic on a running slot unless the configuration of
some proxy has changed and the switch does not come to its end.
-/

namespace EasyDeploy.BinaryTask
open Foundation
open Foundation.Transition

/-- Nothing has changed but the state of one slot, which receives no traffic. -/
structure OnlySlot (slot : Slot) (state state' : AppState) : Prop where
  activeSlot : state'.activeSlot = state.activeSlot
  proxy : ∀ node, (state'.nodes node).proxy = (state.nodes node).proxy
  running : ∀ node other, other ≠ slot →
    (state'.nodes node).running other = (state.nodes node).running other
  interrupted : state'.interrupted = state.interrupted

namespace OnlySlot

variable {slot : Slot} {state state' state'' : AppState}

theorem refl : OnlySlot slot state state := ⟨rfl, fun _ => rfl, fun _ _ _ => rfl, rfl⟩

theorem trans (h : OnlySlot slot state state') (h' : OnlySlot slot state' state'') :
    OnlySlot slot state state'' :=
  ⟨h'.activeSlot.trans h.activeSlot, fun node => (h'.proxy node).trans (h.proxy node),
    fun node other hne => (h'.running node other hne).trans (h.running node other hne),
    h'.interrupted.trans h.interrupted⟩

theorem systemctl {node : Int} (hidle : (state.nodes node).proxy ≠ some slot) (running : Bool) :
    OnlySlot slot state (state.systemctl node slot running) := by
  refine ⟨rfl, fun other => ?_, fun other otherSlot hne => ?_, if_neg hidle⟩
  · by_cases heq : other = node
    · subst heq
      simp only [AppState.systemctl, Function.update_self]
    · simp only [AppState.systemctl, Function.update_of_ne heq]
  · by_cases heq : other = node
    · subst heq
      simp only [AppState.systemctl, Function.update_self, Function.update_of_ne hne]
    · simp only [AppState.systemctl, Function.update_of_ne heq]

end OnlySlot

section Run

variable {job : BinaryTaskJob} {script : RunScript} {state : AppState}

theorem runBinaryTaskOnNode_onlySlot {node : Int}
    (hidle : (state.nodes node).proxy ≠ some job.targetSlot) :
    OnlySlot job.targetSlot state (runBinaryTaskOnNode job script node state).2 := by
  simp only [runBinaryTaskOnNode]
  split
  · exact .refl
  · exact .refl
  · split
    · exact .systemctl hidle _
    · exact .systemctl hidle _
    · split <;> exact .systemctl hidle _

/-- A node on which all commands succeed runs the slot. -/
theorem runBinaryTaskOnNode_of_succeeds {node : Int}
    (h : (script.nodes node).succeeds = true) :
    runBinaryTaskOnNode job script node state =
      (.ok true, state.systemctl node job.targetSlot true) := by
  have hall := h
  simp only [NodeScript.succeeds, Bool.and_eq_true, beq_iff_eq] at hall
  simp only [runBinaryTaskOnNode, hall.1.1, hall.1.2, hall.2, h, Bool.true_or]

/-- A node on which a command does not succeed does not report success. -/
theorem runBinaryTaskOnNode_ne_ok {node : Int} (h : (script.nodes node).succeeds = false) :
    (runBinaryTaskOnNode job script node state).1 ≠ .ok true := by
  intro hok
  simp only [runBinaryTaskOnNode] at hok
  split at hok
  · cases hok
  · cases hok
  · rename_i hprepared
    split at hok
    · cases hok
    · cases hok
    · rename_i hrestarted
      split at hok
      · cases hok
      · cases hok
      · rename_i hhealthy
        rw [NodeScript.succeeds, hprepared, hrestarted, hhealthy] at h
        cases h

/-- The loop only touches the standby slot. -/
theorem runOnNodes_onlySlot {nodes : List Int} {overallSuccess : Bool} {promotedSlot : Option Slot}
    (hidle : ∀ node ∈ nodes, (state.nodes node).proxy ≠ some job.targetSlot) :
    OnlySlot job.targetSlot state
      (runOnNodes job script nodes overallSuccess promotedSlot state).2.2 := by
  induction nodes generalizing overallSuccess promotedSlot state with
  | nil => exact .refl
  | cons node rest ih =>
      have hstep : OnlySlot job.targetSlot state (runBinaryTaskOnNode job script node state).2 :=
        runBinaryTaskOnNode_onlySlot (hidle node (.head _))
      have hrest : ∀ other ∈ rest, ((runBinaryTaskOnNode job script node state).2.nodes other).proxy ≠
          some job.targetSlot := fun other hmem => by
        rw [hstep.proxy]
        exact hidle other (.tail _ hmem)
      rcases hresult : runBinaryTaskOnNode job script node state with ⟨result, state'⟩
      rw [hresult] at hstep hrest
      unfold runOnNodes
      rw [hresult]
      split
      · rename_i heq
        obtain ⟨-, rfl⟩ := Prod.mk.inj heq
        split
        · split <;> exact hstep.trans (ih hrest)
        · exact hstep.trans (ih hrest)
      · rename_i heq
        obtain ⟨-, rfl⟩ := Prod.mk.inj heq
        split
        · exact hstep
        · exact hstep.trans (ih hrest)

/-- Where every node succeeds, the standby slot runs on all of them. -/
theorem runOnNodes_of_succeeds {nodes : List Int} {promotedSlot : Option Slot}
    (h : ∀ node ∈ nodes, (script.nodes node).succeeds = true)
    (hpromoted : promotedSlot = none ∨ promotedSlot = some job.targetSlot) :
    ∃ state', runOnNodes job script nodes true promotedSlot state =
        (true, if nodes = [] then promotedSlot else some job.targetSlot, state') ∧
      ∀ node, node ∈ nodes ∨ (state.nodes node).running job.targetSlot = true →
        (state'.nodes node).running job.targetSlot = true := by
  induction nodes generalizing promotedSlot state with
  | nil => exact ⟨state, rfl, fun node hnode => hnode.resolve_left List.not_mem_nil⟩
  | cons node rest ih =>
      have hany : (promotedSlot.any fun existing => existing != job.targetSlot) = false := by
        rcases hpromoted with rfl | rfl
        · rfl
        · simp
      obtain ⟨state', hrun, hrunning⟩ := @ih (state.systemctl node job.targetSlot true)
        (some job.targetSlot) (fun other hmem => h other (.tail _ hmem)) (.inr rfl)
      refine ⟨state', ?_, fun other hother => hrunning other ?_⟩
      · rw [runOnNodes, runBinaryTaskOnNode_of_succeeds (h node (.head _))]
        simp only [BinaryTaskJob.promotedSlot, if_true, hany, Bool.false_eq_true, if_false, hrun,
          ite_self, List.cons_ne_nil]
      · by_cases heq : other = node
        · subst heq
          exact .inr (by simp only [AppState.systemctl, Function.update_self])
        · simp only [AppState.systemctl, Function.update_of_ne heq]
          exact hother.imp_left fun hmem => (List.mem_cons.mp hmem).resolve_left heq

theorem runOnNodes_of_not {nodes : List Int} {overallSuccess : Bool} {promotedSlot : Option Slot}
    (h : overallSuccess = false ∨ ∃ node ∈ nodes, (script.nodes node).succeeds = false) :
    (runOnNodes job script nodes overallSuccess promotedSlot state).1 = false := by
  induction nodes generalizing overallSuccess promotedSlot state with
  | nil => exact h.resolve_right fun ⟨_, hmem, _⟩ => absurd hmem List.not_mem_nil
  | cons node rest ih =>
      unfold runOnNodes
      rcases hresult : runBinaryTaskOnNode job script node state with ⟨result, state'⟩
      have hrest (hok : result = .ok true) :
          overallSuccess = false ∨ ∃ node ∈ rest, (script.nodes node).succeeds = false := by
        refine h.imp_right fun ⟨other, hmem, hfails⟩ => ⟨other, ?_, hfails⟩
        refine (List.mem_cons.mp hmem).resolve_left fun heq => ?_
        have hne : (runBinaryTaskOnNode job script node state).1 ≠ .ok true :=
          runBinaryTaskOnNode_ne_ok (heq ▸ hfails)
        rw [hresult] at hne
        exact hne hok
      split
      · rename_i heq
        obtain ⟨hok, -⟩ := Prod.mk.inj heq
        split
        · split
          · exact ih (.inl rfl)
          · exact ih (hrest hok)
        · exact ih (hrest hok)
      · split
        · rfl
        · exact ih (.inl rfl)

/-- Nothing has changed but the proxies. -/
structure OnlyProxies (state state' : AppState) : Prop where
  activeSlot : state'.activeSlot = state.activeSlot
  running : ∀ node, (state'.nodes node).running = (state.nodes node).running
  interrupted : state'.interrupted = state.interrupted

theorem OnlyProxies.trans {state state' state'' : AppState} (h : OnlyProxies state state')
    (h' : OnlyProxies state' state'') : OnlyProxies state state'' :=
  ⟨h'.activeSlot.trans h.activeSlot, fun node => (h'.running node).trans (h.running node),
    h'.interrupted.trans h.interrupted⟩

theorem onlyProxies_pointProxy (node : Int) (proxy : Option Slot) :
    OnlyProxies state (state.pointProxy node proxy) := by
  refine ⟨rfl, fun other => ?_, rfl⟩
  by_cases heq : other = node
  · subst heq
    simp only [AppState.pointProxy, Function.update_self]
  · simp only [AppState.pointProxy, Function.update_of_ne heq]

theorem switchBinaryProxyOnNode_onlyProxies (node : Int) :
    OnlyProxies state (switchBinaryProxyOnNode job script node state).2 := by
  simp only [switchBinaryProxyOnNode]
  split
  · exact onlyProxies_pointProxy node _
  · exact ⟨rfl, fun _ => rfl, rfl⟩

theorem switchProxies_onlyProxies {nodes : List Int} :
    OnlyProxies state (switchProxies job script nodes state).2 := by
  induction nodes generalizing state with
  | nil => exact ⟨rfl, fun _ => rfl, rfl⟩
  | cons node rest ih =>
      have hstep : OnlyProxies state (switchBinaryProxyOnNode job script node state).2 :=
        switchBinaryProxyOnNode_onlyProxies node
      rw [switchProxies]
      split <;> rename_i heq <;> rw [heq] at hstep
      · exact hstep.trans ih
      · exact hstep

/-- A proxy that has been switched stays switched. -/
theorem switchProxies_proxy {nodes : List Int} {node : Int}
    (hproxy : (state.nodes node).proxy = some job.targetSlot)
    (hwritten : (script.switches node).written = .success) :
    ((switchProxies job script nodes state).2.nodes node).proxy = some job.targetSlot := by
  induction nodes generalizing state with
  | nil => exact hproxy
  | cons other rest ih =>
      have hstep : ((switchBinaryProxyOnNode job script other state).2.nodes node).proxy =
          some job.targetSlot := by
        simp only [switchBinaryProxyOnNode]
        split
        · by_cases heq : node = other
          · subst heq
            simp only [AppState.pointProxy, Function.update_self, hwritten, if_true]
          · simpa only [AppState.pointProxy, Function.update_of_ne heq] using hproxy
        · exact hproxy
      rw [switchProxies]
      split <;> rename_i heq <;> rw [heq] at hstep
      · exact ih hstep
      · exact hstep

/-- All proxies are switched exactly when every switch succeeds. -/
theorem switchProxies_fst {nodes : List Int} :
    (switchProxies job script nodes state).1 = nodes.all fun node =>
      (script.switches node).succeeds := by
  induction nodes generalizing state with
  | nil => rfl
  | cons node rest ih =>
      have hfst : (switchBinaryProxyOnNode job script node state).1 =
          (script.switches node).succeeds := by
        simp only [switchBinaryProxyOnNode]
        split
        · rfl
        · rename_i hprepared
          simp only [SwitchScript.succeeds, Bool.eq_false_iff.mpr hprepared, Bool.false_and]
      rw [switchProxies, List.all_cons, ← hfst]
      split <;> rename_i heq <;> rw [heq]
      · rw [ih, Bool.true_and]
      · rfl

theorem written_of_succeeds {commands : SwitchScript} (h : commands.succeeds = true) :
    commands.prepared = true ∧ commands.written = .success := by
  simp only [SwitchScript.succeeds, Bool.and_eq_true, beq_iff_eq] at h
  exact ⟨h.1.1.1.1, h.1.1.1.2⟩

theorem switchProxies_cons_of_written {first : Int} {rest : List Int}
    (hprepared : (script.switches first).prepared = true)
    (hwritten : (script.switches first).written = .success) :
    ((switchProxies job script (first :: rest) state).2.nodes first).proxy =
      some job.targetSlot := by
  have hstep : ((switchBinaryProxyOnNode job script first state).2.nodes first).proxy =
      some job.targetSlot := by
    simp only [switchBinaryProxyOnNode, hprepared, hwritten, if_true, AppState.pointProxy,
      Function.update_self]
  rw [switchProxies]
  split <;> rename_i heq <;> rw [heq] at hstep
  · exact switchProxies_proxy hstep hwritten
  · exact hstep

theorem switchProxies_of_succeeds {nodes : List Int}
    (h : ∀ node ∈ nodes, (script.switches node).succeeds = true) :
    ∀ node ∈ nodes, ((switchProxies job script nodes state).2.nodes node).proxy =
      some job.targetSlot := by
  induction nodes generalizing state with
  | nil => exact fun _ hmem => absurd hmem List.not_mem_nil
  | cons first rest ih =>
      intro node hmem
      rcases List.mem_cons.mp hmem with rfl | hmem
      · obtain ⟨hprepared, hwritten⟩ := written_of_succeeds (h node (.head _))
        exact switchProxies_cons_of_written hprepared hwritten
      · obtain ⟨hprepared, -⟩ := written_of_succeeds (h first (.head _))
        have hsucceeds := h first (.head _)
        simp only [switchProxies, switchBinaryProxyOnNode, hprepared, if_true, hsucceeds]
        exact ih (fun other hother => h other (.tail _ hother)) node hmem

theorem cleanupBinaryStandbySlot_onlySlot {nodes : List Int}
    (hidle : ∀ node ∈ nodes, (state.nodes node).proxy ≠ some job.targetSlot) :
    OnlySlot job.targetSlot state (cleanupBinaryStandbySlot job script nodes state) := by
  induction nodes generalizing state with
  | nil => exact .refl
  | cons node rest ih =>
      simp only [cleanupBinaryStandbySlot]
      split
      · have hstep := OnlySlot.systemctl (hidle node (.head _))
          ((script.stops node).stopped != .success && (script.stops node).leftRunning)
        split
        · refine hstep.trans (ih fun other hmem => ?_)
          rw [hstep.proxy]
          exact hidle other (.tail _ hmem)
        · exact hstep
      · exact .refl

/-- Whatever is stopped, the cleanup leaves the active slot and the proxies alone. -/
theorem cleanupBinaryStandbySlot_proxy {nodes : List Int} :
    (cleanupBinaryStandbySlot job script nodes state).activeSlot = state.activeSlot ∧
    ∀ node, ((cleanupBinaryStandbySlot job script nodes state).nodes node).proxy =
      (state.nodes node).proxy := by
  induction nodes generalizing state with
  | nil => exact ⟨rfl, fun _ => rfl⟩
  | cons first rest ih =>
      have hstep (running : Bool) (node : Int) :
          ((state.systemctl first job.targetSlot running).nodes node).proxy =
            (state.nodes node).proxy := by
        by_cases heq : node = first
        · subst heq
          simp only [AppState.systemctl, Function.update_self]
        · simp only [AppState.systemctl, Function.update_of_ne heq]
      simp only [cleanupBinaryStandbySlot]
      split
      · split
        · exact ⟨ih.1, fun node => (ih.2 node).trans (hstep _ node)⟩
        · exact ⟨rfl, hstep _⟩
      · exact ⟨rfl, fun _ => rfl⟩

end Run

/-- A restart that gets as far as the proxies either leaves the configuration of the first one as it
is, or switches all of them and records the slot. -/
def RunScript.Keeps (script : RunScript) (job : BinaryTaskJob) (targets : List Int) : Prop :=
  script.started = true → (∀ node ∈ targets, (script.nodes node).succeeds = true) →
    job.rendersProxyConfig = true → ∀ first ∈ targets.head?,
      ((script.switches first).prepared = false ∨ (script.switches first).written ≠ .success ∧
        (script.switches first).leftProxy = some (normalizedSlot job.activeSlot)) ∨
      (∀ node ∈ targets, (script.switches node).succeeds = true) ∧ script.logged = true ∧
        script.recorded = true

namespace AppState

variable {job : BinaryTaskJob} {script : RunScript} {targets : List Int} {state state' : AppState}

/-- The proxies stay on the active slot where only the standby slot changes. -/
theorem Serves.of_onlySlot (h : state.Serves targets)
    (honly : OnlySlot (standbySlot state.activeSlot) state state') : state'.Serves targets := by
  intro node hmem
  obtain ⟨hproxy, hrunning⟩ := h node hmem
  rw [honly.activeSlot, honly.proxy, honly.running _ _ (standbySlot_ne _).symm]
  exact ⟨hproxy, hrunning⟩

theorem Serves.idle (h : state.Serves targets) :
    ∀ node ∈ targets, (state.nodes node).proxy ≠ some (standbySlot state.activeSlot) := by
  intro node hmem hproxy
  rw [(h node hmem).1] at hproxy
  exact standbySlot_ne state.activeSlot (Option.some.inj hproxy).symm

/-- The traffic of a node that points elsewhere is not served. -/
theorem not_serves_of_proxy {node : Int} (hmem : node ∈ targets)
    (hproxy : (state.nodes node).proxy ≠ some (normalizedSlot state.activeSlot)) :
    ¬ state.Serves targets := fun h => hproxy (h node hmem).1

/-- The first configuration is not written: the traffic stays where it points at the old slot. -/
theorem cleanup_serves_iff {first : Int} {rest : List Int} (hjob : job.activeSlot = state.activeSlot)
    (hserves : state.Serves (first :: rest)) {proxy : Option Slot} :
    ((cleanupBinaryStandbySlot job script (first :: rest) (state.pointProxy first proxy)).Serves
        (first :: rest) ∧
      (cleanupBinaryStandbySlot job script (first :: rest) (state.pointProxy first proxy)).interrupted =
        state.interrupted) ↔ proxy = some (normalizedSlot job.activeSlot) := by
  have htarget : job.targetSlot = standbySlot state.activeSlot := by
    rw [BinaryTaskJob.targetSlot, hjob]
  constructor
  · rintro ⟨hafter, -⟩
    obtain ⟨hactive, hproxies⟩ :=
      @cleanupBinaryStandbySlot_proxy job script (state.pointProxy first proxy) (first :: rest)
    have hfirst := (hafter first (.head _)).1
    rw [hproxies, hactive] at hfirst
    simpa only [pointProxy, Function.update_self, hjob] using hfirst
  · rintro rfl
    have hsame : OnlySlot job.targetSlot state
        (state.pointProxy first (some (normalizedSlot job.activeSlot))) := by
      have honly : OnlyProxies state
          (state.pointProxy first (some (normalizedSlot job.activeSlot))) :=
        onlyProxies_pointProxy first _
      refine ⟨rfl, fun node => ?_, fun node other _ => congrFun (honly.running node) other, rfl⟩
      by_cases heq : node = first
      · subst heq
        simp only [pointProxy, Function.update_self, (hserves node (.head _)).1, hjob]
      · simp only [pointProxy, Function.update_of_ne heq]
    have hidle : ∀ node ∈ first :: rest,
        ((state.pointProxy first (some (normalizedSlot job.activeSlot))).nodes node).proxy ≠
          some job.targetSlot := fun node hmem => by
      rw [hsame.proxy, htarget]
      exact hserves.idle node hmem
    have hcleanup := hsame.trans (@cleanupBinaryStandbySlot_onlySlot _ script _ _ hidle)
    exact ⟨hserves.of_onlySlot (htarget ▸ hcleanup), hcleanup.interrupted⟩

/-- Behind a first proxy that points at the standby slot, the traffic is served only when the slot
is recorded. -/
theorem not_serves_of_switched {first : Int} {rest : List Int}
    (hjob : job.activeSlot = state.activeSlot) (hactive : state'.activeSlot = state.activeSlot)
    (hproxy : (state'.nodes first).proxy = some job.targetSlot) :
    ¬ state'.Serves (first :: rest) := by
  refine not_serves_of_proxy (.head _) fun heq => ?_
  rw [hproxy, hactive, ← hjob] at heq
  exact standbySlot_ne job.activeSlot (Option.some.inj heq)

/-- All proxies are switched, and the log entry and the record of the slot follow. -/
theorem promote_serves_iff {first : Int} {rest : List Int} (hproxy : job.proxyEnabled = true)
    (hjob : job.activeSlot = state.activeSlot) (honly : OnlyProxies state state')
    (hrunning : ∀ node ∈ first :: rest, (state.nodes node).running job.targetSlot = true)
    (hproxies : ∀ node ∈ first :: rest, (state'.nodes node).proxy = some job.targetSlot)
    {after : AppState} (hafter : after = if job.proxyEnabled && !script.logged then state'
      else if script.recorded then { state' with activeSlot := job.targetSlot.asStr } else state') :
    (after.Serves (first :: rest) ∧ after.interrupted = state.interrupted) ↔
      script.logged = true ∧ script.recorded = true := by
  have hlost : ¬ state'.Serves (first :: rest) :=
    not_serves_of_switched hjob honly.activeSlot (hproxies first (.head _))
  rw [hproxy, Bool.true_and] at hafter
  cases hlogged : script.logged with
  | false =>
      rw [hlogged, Bool.not_false, if_pos rfl] at hafter
      obtain rfl := hafter
      exact ⟨fun h => absurd h.1 hlost, fun h => by cases h.1⟩
  | true =>
      rw [hlogged, Bool.not_true, if_neg Bool.false_ne_true] at hafter
      cases hrecorded : script.recorded with
      | false =>
          rw [hrecorded, if_neg Bool.false_ne_true] at hafter
          obtain rfl := hafter
          exact ⟨fun h => absurd h.1 hlost, fun h => by cases h.2⟩
      | true =>
          rw [hrecorded, if_pos rfl] at hafter
          obtain rfl := hafter
          refine ⟨fun _ => ⟨rfl, rfl⟩, fun _ => ⟨fun node hmem => ?_, honly.interrupted⟩⟩
          rw [normalizedSlot_asStr]
          refine ⟨hproxies node hmem, ?_⟩
          show (state'.nodes node).running job.targetSlot = true
          rw [honly.running]
          exact hrunning node hmem

/-- Behind a run that has started the standby slot on all nodes. -/
theorem switch_serves_iff {first : Int} {rest : List Int} (hproxy : job.proxyEnabled = true)
    (hjob : job.activeSlot = state.activeSlot) (hserves : state.Serves (first :: rest))
    (hrunning : ∀ node ∈ first :: rest, (state.nodes node).running job.targetSlot = true)
    {after : AppState}
    (hafter : after = match switchBinaryProxyToTargets job script (first :: rest) state with
      | (true, state) =>
          if job.proxyEnabled && !script.logged then state
          else if script.recorded then { state with activeSlot := job.targetSlot.asStr } else state
      | (false, state) => cleanupBinaryStandbySlot job script (first :: rest) state) :
    (after.Serves (first :: rest) ∧ after.interrupted = state.interrupted) ↔
      (job.rendersProxyConfig = true →
        ((script.switches first).prepared = false ∨ (script.switches first).written ≠ .success ∧
          (script.switches first).leftProxy = some (normalizedSlot job.activeSlot)) ∨
        (∀ node ∈ first :: rest, (script.switches node).succeeds = true) ∧ script.logged = true ∧
          script.recorded = true) := by
  have hcleanup : (cleanupBinaryStandbySlot job script (first :: rest) state).Serves (first :: rest) ∧
      (cleanupBinaryStandbySlot job script (first :: rest) state).interrupted =
        state.interrupted := by
    have htarget : job.targetSlot = standbySlot state.activeSlot := by
      rw [BinaryTaskJob.targetSlot, hjob]
    have hidle : ∀ node ∈ first :: rest, (state.nodes node).proxy ≠ some job.targetSlot :=
      htarget ▸ hserves.idle
    have honly := @cleanupBinaryStandbySlot_onlySlot _ script _ _ hidle
    exact ⟨hserves.of_onlySlot (htarget ▸ honly), honly.interrupted⟩
  rw [switchBinaryProxyToTargets, if_pos hproxy] at hafter
  by_cases hrendered : job.rendersProxyConfig = true
  · rw [if_pos hrendered] at hafter
    rw [forall_prop_of_true hrendered]
    have honly : OnlyProxies state (switchProxies job script (first :: rest) state).2 :=
      switchProxies_onlyProxies
    by_cases hall : ∀ node ∈ first :: rest, (script.switches node).succeeds = true
    · obtain ⟨hprepared, hwritten⟩ := written_of_succeeds (hall first (.head _))
      have hproxies := @switchProxies_of_succeeds job script state (first :: rest) hall
      have hfst := @switchProxies_fst job script state (first :: rest)
      rw [List.all_eq_true.mpr hall] at hfst
      rcases hswitch : switchProxies job script (first :: rest) state with ⟨ok, state'⟩
      rw [hswitch] at honly hproxies hfst hafter
      obtain rfl : ok = true := hfst
      rw [promote_serves_iff hproxy hjob honly hrunning hproxies hafter]
      refine ⟨fun h => .inr ⟨hall, h⟩, fun h => ?_⟩
      rcases h with (hunprepared | ⟨hunwritten, -⟩) | ⟨-, h⟩
      · rw [hprepared] at hunprepared
        cases hunprepared
      · exact absurd hwritten hunwritten
      · exact h
    · have hfst : (switchProxies job script (first :: rest) state).1 = false := by
        rw [switchProxies_fst]
        exact Bool.eq_false_iff.mpr fun h => hall (List.all_eq_true.mp h)
      rw [or_iff_left fun h => hall h.1]
      cases hprepared : (script.switches first).prepared with
      | false =>
          have hswitch : switchProxies job script (first :: rest) state = (false, state) := by
            simp only [switchProxies, switchBinaryProxyOnNode, hprepared, Bool.false_eq_true,
              if_false]
          rw [hswitch] at hafter
          obtain rfl := hafter
          exact ⟨fun _ => .inl rfl, fun _ => hcleanup⟩
      | true =>
          rw [or_iff_right fun h => by cases h]
          by_cases hwritten : (script.switches first).written = .success
          · have hfirst := @switchProxies_cons_of_written job script state first rest hprepared
              hwritten
            rcases hswitch : switchProxies job script (first :: rest) state with ⟨ok, state'⟩
            rw [hswitch] at honly hfirst hfst hafter
            obtain rfl : ok = false := hfst
            obtain rfl := hafter
            obtain ⟨hactive, hproxies⟩ :=
              @cleanupBinaryStandbySlot_proxy job script state' (first :: rest)
            exact ⟨fun h => absurd h.1 (not_serves_of_switched hjob
              (hactive.trans honly.activeSlot) ((hproxies first).trans hfirst)),
              fun h => absurd hwritten h.1⟩
          · have hfails : (script.switches first).succeeds = false :=
              Bool.eq_false_iff.mpr fun h => hwritten (written_of_succeeds h).2
            have hswitch : switchProxies job script (first :: rest) state =
                (false, state.pointProxy first (script.switches first).leftProxy) := by
              simp only [switchProxies, switchBinaryProxyOnNode, hprepared, if_true, hfails,
                if_neg hwritten]
            rw [hswitch] at hafter
            obtain rfl := hafter
            rw [cleanup_serves_iff hjob hserves]
            exact ⟨fun h => ⟨hwritten, h⟩, And.right⟩
  · rw [if_neg hrendered] at hafter
    obtain rfl := hafter
    exact ⟨fun _ h => absurd h hrendered, fun _ => hcleanup⟩

/-- A run keeps the traffic of all target nodes on a running slot, and never restarts or stops that
slot, exactly when it keeps to the condition. -/
theorem runBinaryTaskJob_serves_iff (hproxy : job.proxyEnabled = true)
    (hjob : job.activeSlot = state.activeSlot) (hserves : state.Serves targets) :
    ((runBinaryTaskJob job script targets state).Serves targets ∧
      (runBinaryTaskJob job script targets state).interrupted = state.interrupted) ↔
      script.Keeps job targets := by
  have htarget : job.targetSlot = standbySlot state.activeSlot := by
    rw [BinaryTaskJob.targetSlot, hjob]
  cases targets with
  | nil =>
      rw [runBinaryTaskJob, List.isEmpty_nil, Bool.not_true, Bool.and_false,
        if_neg Bool.false_ne_true]
      exact ⟨fun _ _ _ _ _ hfirst => absurd hfirst (Option.not_mem_none _),
        fun _ => ⟨hserves, rfl⟩⟩
  | cons first rest =>
      unfold RunScript.Keeps
      cases hstarted : script.started with
      | false =>
          rw [runBinaryTaskJob, hstarted, Bool.false_and, if_neg Bool.false_ne_true]
          exact ⟨fun _ h => absurd h Bool.false_ne_true, fun _ => ⟨hserves, rfl⟩⟩
      | true =>
          have hidle := hserves.idle
          rw [← htarget] at hidle
          have honly := @runOnNodes_onlySlot job script state (first :: rest) true none hidle
          rw [forall_prop_of_true rfl]
          simp only [runBinaryTaskJob, hstarted, Bool.true_and, List.isEmpty_cons, Bool.not_false,
            if_true]
          by_cases hall : ∀ node ∈ first :: rest, (script.nodes node).succeeds = true
          · obtain ⟨state', hrun, hrunning⟩ :=
              @runOnNodes_of_succeeds job script state (first :: rest) none hall (.inl rfl)
            rw [hrun] at honly
            rw [hrun, if_neg (List.cons_ne_nil _ _), forall_prop_of_true hall]
            have hactive : job.activeSlot = state'.activeSlot := hjob.trans honly.activeSlot.symm
            have hserves' : state'.Serves (first :: rest) := hserves.of_onlySlot (htarget ▸ honly)
            rw [← honly.interrupted]
            refine (switch_serves_iff hproxy hactive hserves' (fun node hmem =>
              hrunning node (.inl hmem)) rfl).trans (forall_congr' fun _ => ?_)
            simp only [List.head?_cons, Option.mem_some, forall_eq']
          · obtain ⟨node, hnode⟩ := not_forall.mp hall
            obtain ⟨hmem, hfails⟩ := Classical.not_imp.mp hnode
            have hfst := @runOnNodes_of_not job script state (first :: rest) true none
              (.inr ⟨node, hmem, Bool.eq_false_iff.mpr hfails⟩)
            rcases hrun : runOnNodes job script (first :: rest) true none state with
              ⟨ok, promoted, state'⟩
            rw [hrun] at honly hfst
            obtain rfl : ok = false := hfst
            exact ⟨fun _ h => absurd h hall,
              fun _ => ⟨hserves.of_onlySlot (htarget ▸ honly), honly.interrupted⟩⟩

end AppState

/-- A restart that keeps to the condition, from the slot that is recorded. -/
def AppState.Careful (config : BinaryConfig) (targets : List Int) (state : AppState)
    (script : RunScript) : Prop :=
  script.Keeps (config.job state.activeSlot) targets

/-- The traffic of all target nodes stays on a running slot, which is the recorded one and has never
been restarted or stopped, in every sequence of restarts that keep to the condition; and no other
restart keeps it there. -/
theorem traffic_stays_on_running_slot (config : BinaryConfig) (targets : List Int)
    (hproxy : config.proxyEnabled = true) :
    (∀ state, (restarts config targets).Reached (AppState.Careful config targets) state →
      state.Serves targets ∧ state.interrupted = []) ∧
    ∀ (state : AppState) (script : RunScript), state.Serves targets →
      (((state.restart config targets script).Serves targets ∧
        (state.restart config targets script).interrupted = state.interrupted) ↔
          state.Careful config targets script) := by
  have hrestart (state : AppState) (script : RunScript) (hserves : state.Serves targets) :
      ((state.restart config targets script).Serves targets ∧
        (state.restart config targets script).interrupted = state.interrupted) ↔
          state.Careful config targets script :=
    @AppState.runBinaryTaskJob_serves_iff (config.job state.activeSlot) _ _ _ hproxy rfl hserves
  refine ⟨fun state h => ?_, hrestart⟩
  refine h.invariant (fun _ hinitial => hinitial) fun state script state' _ hcareful ih hstep => ?_
  obtain rfl := Option.some.inj hstep
  obtain ⟨hserves, hinterrupted⟩ := (hrestart state script ih.1).mpr hcareful
  exact ⟨hserves, hinterrupted.trans ih.2⟩

/-- Two nodes with the blue slot behind their proxies. -/
def twoNodes : List Int := [1, 2]

def blueState : AppState :=
  ⟨"blue", fun _ => ⟨some .blue, fun slot => slot == .blue⟩, []⟩

def twoNodeConfig : BinaryConfig :=
  ⟨8080, 8081, true, "caddy", "app.example", .rollingStopOnFailure⟩

theorem serves_blueState : blueState.Serves twoNodes := fun _ _ => ⟨rfl, rfl⟩

/-- All commands succeed. -/
def smoothScript : RunScript where
  started := true
  nodes _ := ⟨.success, .success, .success, false⟩
  switches _ := ⟨true, .success, none, .success, .success, true⟩
  stops _ := ⟨true, .success, false, true⟩
  logged := true
  recorded := true

/-- A restart on two nodes on which every phase succeeds. -/
theorem traffic_stays_on_running_slot_smooth :
    (blueState.restart twoNodeConfig twoNodes smoothScript).Serves twoNodes ∧
      (blueState.restart twoNodeConfig twoNodes smoothScript).interrupted = [] ∧
      (blueState.restart twoNodeConfig twoNodes smoothScript).activeSlot = "green" := by
  have hcareful : blueState.Careful twoNodeConfig twoNodes smoothScript :=
    fun _ _ _ _ _ => .inr ⟨fun _ _ => rfl, rfl, rfl⟩
  have hreached : (restarts twoNodeConfig twoNodes).Reached
      (AppState.Careful twoNodeConfig twoNodes)
      (blueState.restart twoNodeConfig twoNodes smoothScript) :=
    .next (.start ⟨serves_blueState, rfl⟩) hcareful rfl
  obtain ⟨hserves, hinterrupted⟩ :=
    (traffic_stays_on_running_slot twoNodeConfig twoNodes rfl).1 _ hreached
  exact ⟨hserves, hinterrupted, by decide⟩

/-- The proxy of the second node does not reload. -/
def stuckScript : RunScript :=
  { smoothScript with
    switches := fun node => ⟨true, .success, none, .success,
      if node = 2 then .failed else .success, true⟩ }

/-- The cleanup stops the slot that the first proxy has been switched to. -/
theorem cleanup_stops_traffic : ¬ ∀ (config : BinaryConfig) (targets : List Int)
    (state : AppState) (script : RunScript), config.proxyEnabled = true → state.Serves targets →
      ∀ node ∈ targets, ∃ slot,
        ((state.restart config targets script).nodes node).proxy = some slot ∧
        ((state.restart config targets script).nodes node).running slot = true := by
  intro h
  obtain ⟨slot, hproxy, hrunning⟩ := h twoNodeConfig twoNodes blueState stuckScript rfl
    serves_blueState 1 (.head _)
  have hgreen : ((blueState.restart twoNodeConfig twoNodes stuckScript).nodes 1).proxy =
      some .green := by decide
  obtain rfl := Option.some.inj (hproxy.symm.trans hgreen)
  have hstopped : ((blueState.restart twoNodeConfig twoNodes stuckScript).nodes 1).running .green =
      false := by decide
  rw [hstopped] at hrunning
  cases hrunning

end EasyDeploy.BinaryTask
