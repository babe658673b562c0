import IconSharedMemory.StatePublication

/-! # Calls of the module and its activation

The contract of `HardwareModuleRuntime` says that `ReadStatus()` is not forwarded to a
module that is not activated.  `OnReadStatus` has no such check: it calls the module
whatever the state is, so a trigger before the activation reaches it
(`read_status_before_activation`).  `OnApplyCommand` has one, but the state it checks can
outlive the activation: when `Disabled()` fails during a deactivation, `kFaulted` is
published instead of `kDeactivating`, and `Deactivate()` is called all the same.

What the code relies on is therefore that `OnReadStatus` is triggered in the states of an
activated module only and that no deactivation starts with a failing `Disabled()`
(`Gated`).  Then every call of `ReadStatus()` and `ApplyCommand()` falls between a
successful `Activate()` and the next `Deactivate()` (`module_calls_gated`).

The proof follows the one callback that is running: callbacks do not overlap, apart from
the three actions, which neither set the state nor activate anything.  `View` says what
holds at each of its program points.
-/
namespace Intrinsic

/-- The states of an activated module. -/
def StateCode.active : StateCode → Bool
  | .activated | .motionEnabling | .motionEnabled | .motionDisabling | .clearingFaults
  | .faulted => true
  | _ => false

/-- The states in which the module must not be called in real time. -/
def StateCode.inactive : StateCode → Bool
  | .deactivated | .deactivating | .preparing | .prepared | .activating | .initFailed => true
  | _ => false

theorem StateCode.inactive_of_active {code : StateCode} (h : code.active = true) :
    code.inactive = false := by
  revert h
  cases code <;> decide

/-- Where `kFaulted` can be entered from. -/
theorem active_of_guard_faulted {code : StateCode}
    (h : hardwareModuleTransitionGuard code .faulted = .allowed) (hne : code ≠ .preparing) :
    code.active = true := by
  revert h hne
  cases code <;> decide

namespace CallbackHandler
open Runs

/-! ## Use and observation -/

/-- The callbacks that set the state themselves. -/
def Task.serial : Task → Bool
  | .action | .shutdown => false
  | _ => true

/-- The thread is in a callback that sets the state itself. -/
def Pc.inSerial (pc : Pc) : Prop := ∃ k, pc.task = some k ∧ k.serial = true

/-- **Callbacks do not overlap**, apart from the actions and `Shutdown`. -/
def Serial {Tid : Type} (c : Config Tid) (t : Tid) : Label → Prop
  | .start cb => cb.task.serial = true → ∀ u, u ≠ t → ¬ (c.locals u).inSerial
  | _ => True

/-- What the code relies on: `OnReadStatus` is called in the states of an activated module,
and `Disabled()` does not fail when a deactivation calls it. -/
def Triggered {Tid : Type} (c : Config Tid) : Label → Prop
  | .start .readStatus => c.shared.stateCode.active = true
  | .setState (.deactivating _) _ _ _ (some code) => code = .ok
  | _ => True

def Gated {Tid : Type} (c : Config Tid) (t : Tid) (l : Label) : Prop :=
  Serial c t l ∧ Triggered c l

/-- The effect of a step on the activation: it begins with an `Activate()` that returned ok,
and ends with the call of `Deactivate()`. -/
def Label.activation (l : Label) (isActive : Bool) : Bool :=
  match l with
  | .call .activate code => if code = .ok then true else isActive
  | .call .deactivate _ => false
  | _ => isActive

/-- The module is activated after a word. -/
def activeAfter {Tid : Type} (w : List (Tid × Label)) : Bool :=
  w.foldl (fun isActive x => x.2.activation isActive) false

theorem activeAfter_snoc {Tid : Type} (w : List (Tid × Label)) (x : Tid × Label) :
    activeAfter (w ++ [x]) = x.2.activation (activeAfter w) := by
  simp [activeAfter]

/-! ## What requests ask for -/

section Asks
variable {s s' : Shared} {pc pc' : Pc} {l : Label}

/-- A request never asks for one of the states outside the activation. -/
def Asks : Pc → Prop
  | .requestGuard q | .requestLock q | .requestStamp q | .requestInsert q _ =>
    q.target.inactive = false
  | .processDrop r | .processCheck r => r.target.inactive = false
  | _ => True

theorem inactive_faultState (code : StatusCode) : (faultState code).inactive = false := by
  unfold faultState
  split <;> rfl

theorem inactive_complete (a : Action) (id : Nat) (st : Status) :
    (Ask.complete a id st).target.inactive = false := by
  unfold Ask.complete
  split
  · cases a <;> rfl
  · exact inactive_faultState _

theorem asks_next (site : Site) (changed : Bool) : Asks (site.next changed) := by
  cases site with
  | deactivating nested => cases changed <;> cases nested <;> exact trivial
  | deactivated nested => cases nested <;> exact trivial
  | _ => cases changed <;> exact trivial

theorem Atom.asks (h : Atom s pc l s' pc') (hasks : Asks pc)
    (hqueue : ∀ r ∈ s.requestQueue, r.target.inactive = false) :
    Asks pc' ∧ ∀ r ∈ s'.requestQueue, r.target.inactive = false := by
  cases h with
  | start cb => exact ⟨by cases cb <;> exact trivial, hqueue⟩
  | @setState site state status disabled now =>
    refine ⟨asks_next _ _, ?_⟩
    obtain ⟨-, heq⟩ | ⟨-, stored, status', heq, -⟩ :=
      s.setStateDirectly_cases disabled now state status
    · rw [heq]
      exact hqueue
    · rw [heq]
      exact hqueue
  | @statusCall k st =>
    refine ⟨?_, hqueue⟩
    cases k with
    | prepare =>
      unfold StatusCall.next
      dsimp only
      split <;> exact trivial
    | action a first => exact inactive_complete a first st
  | @realtimeCall k st =>
    refine ⟨?_, hqueue⟩
    cases k <;> unfold RealtimeCall.next <;> dsimp only <;> split <;> exact trivial
  | prepareLoad => exact ⟨by split <;> exact trivial, hqueue⟩
  | @cancelDone k => cases k <;> exact ⟨trivial, hqueue⟩
  | cancelDrop => exact ⟨trivial, fun r hr => hqueue r (List.mem_of_mem_tail hr)⟩
  | @actionLoad a => exact ⟨by cases a <;> exact rfl, hqueue⟩
  | requestAllowed => exact ⟨hasks, hqueue⟩
  | requestLock => exact ⟨hasks, hqueue⟩
  | requestStamp => exact ⟨hasks, hqueue⟩
  | requestInsert =>
    refine ⟨trivial, fun r hr => ?_⟩
    rcases List.mem_append.mp hr with hr | hr
    · exact hqueue r hr
    · rw [List.mem_singleton.mp hr]
      exact hasks
  | requestAnswered => exact ⟨by unfold Ask.next; split <;> exact trivial, hqueue⟩
  | requestGivenUp => exact ⟨by unfold Ask.next; split <;> exact trivial, hqueue⟩
  | processFront hcheck hfront =>
    refine ⟨hqueue _ ?_, hqueue⟩
    rw [hfront]
    exact .head _
  | processDrop => exact ⟨hasks, fun r hr => hqueue r (List.mem_of_mem_tail hr)⟩
  | enabledLoad => exact ⟨by split <;> exact trivial, hqueue⟩
  | readStatusLoad => exact ⟨by split <;> exact trivial, hqueue⟩
  | applyLoad => exact ⟨by split; exacts [trivial, by split <;> exact trivial], hqueue⟩
  | _ => exact ⟨trivial, hqueue⟩

end Asks

/-! ## The running callback -/

/-- Between callbacks: the states of an activated module are published only while it is
activated, and no `OnPrepare` is half way. -/
def Rest (code : StateCode) (isActive : Bool) : Prop :=
  (code.active = true → isActive = true) ∧ code ≠ .preparing

/-- Half way through an activation or a deactivation. -/
def Off (code : StateCode) : Prop := code.active = false ∧ code ≠ .preparing

/-- During `OnReadStatus`. -/
def On (code : StateCode) (isActive : Bool) : Prop := isActive = true ∧ code.inactive = false

/-- **What holds at each program point** of a callback that sets the state itself. -/
def View (code : StateCode) (isActive : Bool) : Pc → Prop
  | .setState (.deactivating _) state _ => Rest code isActive ∧ state = .deactivating
  | .setState (.deactivated _) state _ =>
    Off code ∧ (state = .deactivated ∨ state = .fatallyFaulted)
  | .setState .preparing state _ => Rest code isActive ∧ state = .preparing
  | .setState .prepared state _ =>
    code = .preparing ∧ (state = .prepared ∨ state = .fatallyFaulted)
  | .setState .activating state _ => Rest code isActive ∧ state = .activating
  | .setState .activated state _ =>
    Off code ∧ (state = .activated ∧ isActive = true ∨ state = .fatallyFaulted)
  | .setState .applyCommand state _ =>
    Rest code isActive ∧ (state = .faulted ∨ state = .fatallyFaulted)
  | .setState .initFailed state _ => Rest code isActive ∧ state = .initFailed
  | .setState _ state _ => On code isActive ∧ state.inactive = false
  | .rejectRequests _ | .cancelEmpty (.deactivate _) | .cancelFront (.deactivate _)
  | .cancelRespond (.deactivate _) _ | .cancelDrop (.deactivate _)
  | .realtimeCall (.deactivate _) => Off code
  | .cancelEmpty .prepare | .cancelFront .prepare | .cancelRespond .prepare _
  | .cancelDrop .prepare | .statusCall .prepare => code = .preparing
  | .cancelEmpty .activate | .cancelFront .activate | .cancelRespond .activate _
  | .cancelDrop .activate | .realtimeCall .activate => Off code
  | .processStore | .processEmpty | .processFront | .processDrop _ | .processCheck _
  | .processRespond _ _ | .enabledLoad | .realtimeCall .enabled | .realtimeCall .readStatus
  | .readStatusLoad _ | .cancelEmpty .readStatus | .cancelFront .readStatus
  | .cancelRespond .readStatus _ | .cancelDrop .readStatus => On code isActive
  | .realtimeCall .applyCommand => Rest code isActive ∧ code = .motionEnabled
  | _ => Rest code isActive

section View
variable {s s' : Shared} {pc pc' : Pc} {l : Label} {code : StateCode} {isActive : Bool}

theorem Off.rest (h : Off code) : Rest code isActive :=
  ⟨fun hactive => absurd (hactive.symm.trans h.1) nofun, h.2⟩

theorem On.rest (h : On code isActive) : Rest code isActive := by
  refine ⟨fun _ => h.1, ?_⟩
  rintro rfl
  cases h.2

theorem view_afterDeactivate (nested : Bool) (h : Rest code isActive) :
    View code isActive (afterDeactivate nested) := by
  cases nested
  · exact h
  · exact ⟨h, rfl⟩

theorem View.refused {site : Site} {state : StateCode} {status : RealtimeStatus}
    (hv : View code isActive (.setState site state status))
    (hguard : hardwareModuleTransitionGuard code state ≠ .allowed) :
    View code isActive (site.next false) := by
  cases site with
  | deactivating nested => exact view_afterDeactivate nested hv.1
  | deactivated nested => exact view_afterDeactivate nested hv.1.rest
  | prepared =>
    -- the guard lets `OnPrepare` finish
    obtain ⟨rfl, rfl | rfl⟩ := hv <;> exact absurd rfl hguard
  | activated => exact hv.1.rest
  | readStatus => exact hv.1.rest
  | process r => exact hv.1
  | enabledHook => exact hv.1
  | preparing => exact hv.1
  | activating => exact hv.1
  | applyCommand => exact hv.1
  | initFailed => exact hv.1

theorem View.stored {site : Site} {state : StateCode} {status : RealtimeStatus}
    (hv : View code isActive (.setState site state status))
    (hguard : hardwareModuleTransitionGuard code state = .allowed) :
    View state isActive (site.next true) := by
  cases site with
  | deactivating nested =>
    obtain ⟨-, rfl⟩ := hv
    exact ⟨rfl, nofun⟩
  | deactivated nested =>
    refine view_afterDeactivate nested ?_
    obtain ⟨-, rfl | rfl⟩ := hv <;> exact ⟨nofun, nofun⟩
  | preparing => exact hv.2
  | prepared => obtain ⟨-, rfl | rfl⟩ := hv <;> exact ⟨nofun, nofun⟩
  | activating =>
    obtain ⟨-, rfl⟩ := hv
    exact ⟨rfl, nofun⟩
  | activated =>
    obtain ⟨-, ⟨rfl, hactive⟩ | rfl⟩ := hv
    · exact ⟨fun _ => hactive, nofun⟩
    · exact ⟨nofun, nofun⟩
  | applyCommand =>
    obtain ⟨hrest, rfl | rfl⟩ := hv
    · -- only from a state of an activated module
      exact ⟨fun _ => hrest.1 (active_of_guard_faulted hguard hrest.2), nofun⟩
    · exact ⟨nofun, nofun⟩
  | initFailed =>
    obtain ⟨-, rfl⟩ := hv
    exact ⟨nofun, nofun⟩
  | process r => exact ⟨hv.1.1, hv.2⟩
  | enabledHook => exact ⟨hv.1.1, hv.2⟩
  | readStatus => exact ⟨hv.1.1, hv.2⟩

/-- A failing `Disabled()` puts `kFaulted` in the place of the wanted state. -/
theorem View.substituted {site : Site} {state : StateCode} {status : RealtimeStatus}
    (hv : View .motionEnabled isActive (.setState site state status))
    (hguard : hardwareModuleTransitionGuard .motionEnabled state = .allowed)
    (hsite : ∀ nested, site ≠ .deactivating nested) :
    View .faulted isActive (site.next true) := by
  cases site with
  | deactivating nested => exact absurd rfl (hsite nested)
  | deactivated nested => cases hv.1.1
  | preparing => obtain ⟨-, rfl⟩ := hv; cases hguard
  | prepared => cases hv.1
  | activating => obtain ⟨-, rfl⟩ := hv; cases hguard
  | activated => cases hv.1.1
  | applyCommand => exact ⟨fun _ => hv.1.1 rfl, nofun⟩
  | initFailed => obtain ⟨-, rfl⟩ := hv; cases hguard
  | process r => exact ⟨hv.1.1, rfl⟩
  | enabledHook => exact ⟨hv.1.1, rfl⟩
  | readStatus => exact ⟨hv.1.1, rfl⟩

theorem View.setState {Tid : Type} {c : Config Tid} {site : Site} {state : StateCode}
    {status : RealtimeStatus} (hv : View s.stateCode isActive (.setState site state status))
    (hok : Triggered c l) (h : SetOutcome s site state status l s' pc') :
    View s'.stateCode (l.activation isActive) pc' := by
  cases h with
  | refused hguard => exact hv.refused hguard
  | stored now hguard => exact hv.stored hguard
  | disabled now code stored status' hguard henabled hnow hstored =>
    rw [henabled] at hv
    rcases hstored with rfl | ⟨rfl, hcode⟩
    · exact hv.stored hguard
    · refine hv.substituted hguard ?_
      rintro nested rfl
      exact hcode hok

/-- The other steps of a callback, and its start. -/
theorem Atom.view {Tid : Type} {c : Config Tid} (h : Atom s pc l s' pc') (hasks : Asks pc)
    (hc : c.shared = s) (hok : Triggered c l) (hv : View s.stateCode isActive pc) :
    View s'.stateCode (l.activation isActive) pc' := by
  cases h with
  | start cb =>
    cases cb with
    | activate => exact ⟨hv, rfl⟩
    | deactivate => exact ⟨hv, rfl⟩
    | readStatus =>
      have hactive : s.stateCode.active = true := hc ▸ hok
      exact ⟨hv.1 hactive, StateCode.inactive_of_active hactive⟩
    | initFailed st => exact ⟨hv, rfl⟩
    | _ => exact hv
  | setState disabled now hnow =>
    exact hv.setState hok (Atom.setOutcome (.setState disabled now hnow))
  | @statusCall k st =>
    cases k with
    | prepare =>
      unfold StatusCall.next
      dsimp only
      split
      · exact ⟨hv, .inl rfl⟩
      · exact ⟨hv, .inr rfl⟩
    | action a first => cases a <;> exact hv
  | @realtimeCall k st =>
    unfold RealtimeCall.next
    cases k with
    | activate =>
      dsimp only
      split
      · rename_i hst
        have hcode : st.code = .ok := of_decide_eq_true hst
        refine ⟨hv, .inl ⟨rfl, ?_⟩⟩
        show (if st.code = .ok then true else isActive) = true
        rw [if_pos hcode]
      · exact ⟨hv, .inr rfl⟩
    | deactivate nested =>
      dsimp only
      split
      · exact ⟨hv, .inl rfl⟩
      · exact ⟨hv, .inr rfl⟩
    | enabled =>
      dsimp only
      split
      · exact hv
      · exact ⟨hv, rfl⟩
    | readStatus =>
      dsimp only
      split
      · exact hv.rest
      · exact hv
    | applyCommand =>
      dsimp only
      split
      · exact hv.1
      · refine ⟨hv.1, ?_⟩
        unfold faultState
        split
        · exact .inr rfl
        · exact .inl rfl
  | prepareLoad => split <;> exact ⟨hv, rfl⟩
  | @cancelDone k =>
    cases k with
    | readStatus => exact hv.rest
    | _ => exact hv
  | @cancelMore k => cases k <;> exact hv
  | @cancelFront k => cases k <;> exact hv
  | @cancelRespond k => cases k <;> exact hv
  | @cancelDrop k => cases k <;> exact hv
  | requestAnswered => unfold Ask.next; split <;> exact hv
  | requestGivenUp => unfold Ask.next; split <;> exact hv
  | processFresh => exact ⟨hv, hasks⟩
  | enabledLoad => split <;> exact hv
  | readStatusLoad =>
    split
    · exact hv.rest
    · exact ⟨hv, inactive_faultState _⟩
  | applyLoad =>
    split
    · exact hv
    · split
      · exact ⟨hv, .inl rfl⟩
      · rename_i henabled
        exact ⟨hv, not_not.mp henabled⟩
  | _ => exact hv

theorem serial_deactivateTask (nested : Bool) : (deactivateTask nested).serial = true := by
  cases nested <;> rfl

/-- All callers of `SetStateDirectly` are such callbacks. -/
theorem Site.serial (site : Site) : site.task.serial = true := by
  cases site with
  | deactivating nested => exact serial_deactivateTask nested
  | deactivated nested => exact serial_deactivateTask nested
  | _ => rfl

theorem RealtimeCall.serial (k : RealtimeCall) : k.task.serial = true := by
  cases k with
  | deactivate nested => exact serial_deactivateTask nested
  | _ => rfl

/-- Of the callers of `CancelPendingRequests` all but `Shutdown` are. -/
theorem Canceller.eq_shutdown (k : Canceller) (h : k.task.serial = true → False) :
    k = .shutdown := by
  cases k with
  | shutdown => rfl
  | deactivate nested => exact (h (serial_deactivateTask nested)).elim
  | _ => exact (h rfl).elim

/-- Outside those callbacks a thread's view is that of a handler at rest. -/
theorem view_iff_rest (hnot : ¬ pc.inSerial) : View code isActive pc ↔ Rest code isActive := by
  have hserial : ∀ k, pc.task = some k → k.serial = true → False :=
    fun k hk hs => hnot ⟨k, hk, hs⟩
  cases pc with
  | setState site => exact (hserial _ rfl site.serial).elim
  | statusCall k =>
    cases k with
    | prepare => exact (hserial _ rfl rfl).elim
    | action => exact Iff.rfl
  | realtimeCall k => exact (hserial _ rfl k.serial).elim
  | rejectRequests nested => exact (hserial _ rfl (serial_deactivateTask nested)).elim
  | cancelEmpty k =>
    obtain rfl := k.eq_shutdown (hserial _ rfl)
    exact Iff.rfl
  | cancelFront k =>
    obtain rfl := k.eq_shutdown (hserial _ rfl)
    exact Iff.rfl
  | cancelRespond k r =>
    obtain rfl := k.eq_shutdown (hserial _ rfl)
    exact Iff.rfl
  | cancelDrop k =>
    obtain rfl := k.eq_shutdown (hserial _ rfl)
    exact Iff.rfl
  | processStore => exact (hserial _ rfl rfl).elim
  | processEmpty => exact (hserial _ rfl rfl).elim
  | processFront => exact (hserial _ rfl rfl).elim
  | processDrop => exact (hserial _ rfl rfl).elim
  | processCheck => exact (hserial _ rfl rfl).elim
  | processRespond => exact (hserial _ rfl rfl).elim
  | enabledLoad => exact (hserial _ rfl rfl).elim
  | readStatusLoad => exact (hserial _ rfl rfl).elim
  | _ => exact Iff.rfl

/-- Outside those callbacks a thread neither sets the state nor activates the module. -/
theorem Atom.offSerial (h : Atom s pc l s' pc') (hnot : ¬ pc.inSerial) :
    s'.stateCode = s.stateCode ∧ l.activation isActive = isActive := by
  cases h with
  | setState => exact absurd ⟨_, rfl, Site.serial _⟩ hnot
  | @statusCall k st =>
    cases k with
    | prepare => exact ⟨rfl, rfl⟩
    | action a first => cases a <;> exact ⟨rfl, rfl⟩
  | realtimeCall => exact absurd ⟨_, rfl, RealtimeCall.serial _⟩ hnot
  | @cancelDone k => cases k <;> exact ⟨rfl, rfl⟩
  | _ => exact ⟨rfl, rfl⟩

end View

/-! ## Every run -/

section Run
variable {Tid : Type} [DecidableEq Tid] {w : List (Tid × Label)} {c d : Config Tid}
  {x : Tid × Label} {now : Nat}

/-- **The invariant.**  At most one callback that sets the state is running; a thread beside
which none is running has the view that its program point calls for. -/
structure GateInv (w : List (Tid × Label)) (c : Config Tid) : Prop where
  exclusive : AtMostOne Pc.inSerial c.locals
  view : ∀ t, (∀ u, u ≠ t → ¬ (c.locals u).inSerial) →
    View c.shared.stateCode (activeAfter w) (c.locals t)
  asks : ∀ t, Asks (c.locals t)
  queue : ∀ r ∈ c.shared.requestQueue, r.target.inactive = false

omit [DecidableEq Tid] in
theorem gateInv_initial (now : Nat) : GateInv [] (initial Tid now) where
  exclusive := by rintro t u ⟨k, hk, -⟩; cases hk
  view _ _ := ⟨nofun, nofun⟩
  asks _ := trivial
  queue := nofun

/-- A thread enters such a callback only while no other thread is in one. -/
theorem AtMostOne.serial {t : Tid} {l : Label} {s' : Shared} {pc' : Pc}
    (h : AtMostOne Pc.inSerial c.locals) (hok : Serial c t l)
    (hatom : Atom c.shared (c.locals t) l s' pc') :
    AtMostOne Pc.inSerial (Function.update c.locals t pc') := by
  refine @AtMostOne.inTask _ _ _ Task.serial _ _ _ _ h hatom ?_
  rintro cb rfl
  exact hok

theorem GateInv.step (h : GateInv w c) (hs : Step Gated c x d) : GateInv (w ++ [x]) d := by
  cases hs with
  | @mk t l s' pc' hok hatom =>
    obtain ⟨hasks, hqueue⟩ := hatom.asks (h.asks t) h.queue
    refine ⟨AtMostOne.serial h.exclusive hok.1 hatom, fun v hv => ?_,
      forall_update _ hasks fun u _ => h.asks u, hqueue⟩
    rw [activeAfter_snoc]
    dsimp only at hv ⊢
    have hothers : ∀ u, u ≠ v → u ≠ t → ¬ (c.locals u).inSerial := by
      intro u huv hut
      have hu := hv u huv
      rwa [Function.update_of_ne hut] at hu
    by_cases hvt : v = t
    · subst hvt
      rw [Function.update_self]
      exact hatom.view (h.asks v) rfl hok.2 (h.view v fun u huv => hothers u huv huv)
    · have hpc' : ¬ pc'.inSerial := by
        have ht := hv t (Ne.symm hvt)
        rwa [Function.update_self] at ht
      rw [Function.update_of_ne hvt]
      by_cases hserial : (c.locals t).inSerial
      · -- the callback of `t` has ended: its view says that the handler is at rest
        have hnot : ∀ u, u ≠ t → ¬ (c.locals u).inSerial :=
          fun u hut hu => hut (h.exclusive u t hu hserial)
        have hview := hatom.view (h.asks t) rfl hok.2 (h.view t hnot)
        exact (view_iff_rest (hnot v hvt)).mpr ((view_iff_rest hpc').mp hview)
      · obtain ⟨hcode, hactive⟩ := hatom.offSerial hserial
        rw [hcode, hactive]
        refine h.view v fun u huv => ?_
        by_cases hut : u = t
        · exact hut ▸ hserial
        · exact hothers u huv hut

theorem gateInv_run (h : Run (Step Gated) (initial Tid now) w c) : GateInv w c :=
  h.invariant (gateInv_initial now) fun _ _ _ _ hi hs => hi.step hs

/-- A step that calls `ReadStatus()` or `ApplyCommand()`. -/
def Label.callsModule : Label → Prop
  | .call .readStatus _ | .call .applyCommand _ => True
  | _ => False

theorem Atom.callsModule {s s' : Shared} {pc pc' : Pc} {l : Label} (h : Atom s pc l s' pc')
    (hl : l.callsModule) : pc = .realtimeCall .readStatus ∨ pc = .realtimeCall .applyCommand := by
  cases h with
  | @statusCall k =>
    cases k with
    | prepare => exact hl.elim
    | action a first => cases a <;> exact hl.elim
  | @realtimeCall k =>
    cases k with
    | readStatus => exact .inl rfl
    | applyCommand => exact .inr rfl
    | _ => exact hl.elim
  | _ => exact hl.elim

/-- **Module calls are gated by activation.**  When the callbacks do not overlap,
`OnReadStatus` is triggered in the states of an activated module only and `Disabled()`
does not fail during a deactivation, then `ReadStatus()` and `ApplyCommand()` are called
only after an `Activate()` that returned ok and before the next `Deactivate()`, and in
none of the states outside. -/
theorem module_calls_gated {t : Tid} {l : Label}
    (h : Run (Step Gated) (initial Tid now) w c) (hs : Step Gated c (t, l) d)
    (hl : l.callsModule) :
    activeAfter w = true ∧ c.shared.stateCode.inactive = false := by
  have hinv := gateInv_run h
  have hview : ∀ k, c.locals t = .realtimeCall k →
      View c.shared.stateCode (activeAfter w) (.realtimeCall k) := by
    intro k hk
    rw [← hk]
    refine hinv.view t fun u hut hu => hut (hinv.exclusive u t hu ?_)
    exact ⟨_, by rw [hk]; rfl, k.serial⟩
  rcases hs.atomic.2.1.callsModule hl with hpc | hpc
  · exact hview _ hpc
  · obtain ⟨hrest, hcode⟩ := hview _ hpc
    rw [hcode] at hrest ⊢
    exact ⟨hrest.1 rfl, rfl⟩

end Run

/-- What comes before the call of the module in an `OnReadStatus` without a request. -/
def readStatus : List (Bool × Label) :=
  [(true, .start .readStatus), (true, .internal), (true, .empty true), (true, .internal)]

theorem serial_two {s : Shared} {x y : Pc} {t : Bool} {l : Label}
    (hother : (if t then x else y) = .idle) : Serial (Pool.two s x y) t l := by
  unfold Serial
  split
  · rintro - u hu ⟨k, hk, -⟩
    cases t <;> cases u <;> first | exact hu rfl | (cases hother; cases hk)
  · exact trivial

/-- **`ReadStatus()` is called before any activation**: the trigger comes while the module
is deactivated. -/
theorem read_status_before_activation : ∃ c d : Config Bool,
    Run (Step Serial) (initial Bool 0) readStatus c ∧
      Step Serial c (true, .call .readStatus .ok) d ∧
      activeAfter readStatus = false ∧ c.shared.stateCode = .deactivated := by
  refine ⟨Pool.two (Shared.init 0) .idle (.realtimeCall .readStatus), _, ?_,
    .second (serial_two rfl) (.realtimeCall rtOkStatus), rfl, rfl⟩
  rw [Pool.eq_two (initial Bool 0)]
  refine .cons (.second (serial_two rfl) (.start .readStatus)) ?_
  refine .cons (.second (serial_two rfl) .processStore) ?_
  refine .cons (.second (serial_two rfl) (.processNothing rfl)) ?_
  exact .single (.second (serial_two rfl) .enabledLoad)

/-- After the activation the call is a good one. -/
theorem module_calls_gated_activated : ∃ c d : Config Bool,
    Run (Step Gated) (initial Bool 0) (activation ++ readStatus) c ∧
      Step Gated c (true, .call .readStatus .ok) d ∧
      activeAfter (activation ++ readStatus) = true ∧ c.shared.stateCode.inactive = false := by
  have hactivation : Run (Step Gated) (initial Bool 0) activation
      (Pool.two activated .idle .idle) := by
    refine activation_run fun s pc l hl => ⟨serial_two rfl, ?_⟩
    simp only [CallbackHandler.activation, List.mem_cons, Prod.mk.injEq, true_and,
      List.not_mem_nil, or_false] at hl
    rcases hl with rfl | rfl | rfl | rfl | rfl | rfl | rfl | rfl | rfl | rfl | rfl | rfl <;>
      exact trivial
  have hrun : Run (Step Gated) (initial Bool 0) (activation ++ readStatus)
      (Pool.two { activated with previousCycle := .activated } .idle
        (.realtimeCall .readStatus)) := by
    refine hactivation.append ?_
    refine .cons (.second ⟨serial_two rfl, rfl⟩ (.start .readStatus)) ?_
    refine .cons (.second ⟨serial_two rfl, trivial⟩ .processStore) ?_
    refine .cons (.second ⟨serial_two rfl, trivial⟩ (.processNothing rfl)) ?_
    exact .single (.second ⟨serial_two rfl, trivial⟩ .enabledLoad)
  have hstep : Step Gated
      (Pool.two { activated with previousCycle := .activated } .idle (.realtimeCall .readStatus))
      (true, .call .readStatus .ok)
      (Pool.two { activated with previousCycle := .activated } .idle .idle) :=
    .second ⟨serial_two rfl, trivial⟩ (.realtimeCall rtOkStatus)
  exact ⟨_, _, hrun, hstep, module_calls_gated hrun hstep trivial⟩

end CallbackHandler

end Intrinsic
