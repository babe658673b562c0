import IconSharedMemory.CallbackHandler

/-! # What the handler publishes

The state of the module is kept three times: as an atomic code for the handler's own
threads, in the shared memory for ICON, and in a triple buffer for the non-real-time
side.  One function writes all three, `SetStateDirectly`.

The first part says what that function does, once for all its callers
(`setStateDirectly_cases`): it leaves everything alone, or it stores a state that the
transition guard allows; this also when a failing `Disabled()` puts another state in
the place of the wanted one.  From this follows, over every run, that nothing illegal is
ever published and that the three copies agree (`published_transitions_allowed`).

The second part is about reading the state back.  `GetHardwareModuleState` takes the
buffer's "nothing new" for "no state": what it returns is the published state exactly
when something was published since the last read (`state_read_back_iff`).
-/
namespace Intrinsic

namespace AsyncBuffer
variable {α : Type}

/-- The entry committed last, or what the buffer was constructed with. -/
def newest (b : AsyncBuffer α) : α := b.buffers b.state.fetched.activeIndex

@[simp] theorem newest_getActiveBuffer (b : AsyncBuffer α) :
    b.getActiveBuffer.2.newest = b.newest := by
  unfold newest getActiveBuffer State.fetched
  dsimp only
  split <;> simp_all

theorem newest_commit (b : AsyncBuffer α) (v : α) :
    ((b.getFreeBuffer.2.write b.getFreeBuffer.1 v).commitFreeBuffer).2.newest = v :=
  Function.update_self ..

end AsyncBuffer

namespace CallbackHandler
open Runs

/-! ## One call of `SetStateDirectly` -/

namespace Shared
variable {s : Shared} {now : Nat} {state : StateCode} {status disabled : RealtimeStatus}

@[simp] theorem store_changed : (s.store now state status).1 = true := rfl

@[simp] theorem store_stateCode : (s.store now state status).2.stateCode = state := rfl

theorem newest_store : (s.store now state status).2.hwmStateBuffer.newest =
    .setState state status.getMessage :=
  AsyncBuffer.newest_commit ..

/-- **What `SetStateDirectly` does.**  It changes nothing, or it stores the wanted state,
or `kFaulted` instead because it left `kMotionEnabled` and `Disabled()` failed. -/
theorem setStateDirectly_cases (s : Shared) (disabled : RealtimeStatus) (now : Nat)
    (state : StateCode) (status : RealtimeStatus) :
    (hardwareModuleTransitionGuard s.stateCode state ≠ .allowed ∧
      s.setStateDirectly disabled now state status false = (false, s)) ∨
    hardwareModuleTransitionGuard s.stateCode state = .allowed ∧
      ∃ stored status', s.setStateDirectly disabled now state status false =
          s.store now stored status' ∧
        (stored = state ∨ stored = .faulted ∧ s.stateCode = .motionEnabled ∧
          disabled.isOk = false) := by
  unfold setStateDirectly
  by_cases hguard : hardwareModuleTransitionGuard s.stateCode state = .allowed
  · refine .inr ⟨hguard, ?_⟩
    have hne := ne_of_guard_allowed hguard
    rw [if_neg (fun h => h.2 hguard), if_neg (fun h => hne h.1), if_neg hne]
    dsimp only
    split
    · rename_i hhook
      refine ⟨_, _, rfl, .inr ⟨rfl, ?_⟩⟩
      unfold checkAndTriggerDisabledTransitionHook at hhook
      split at hhook
      · exact ⟨‹_›, hhook.1⟩
      · cases hhook.1
    · exact ⟨_, _, rfl, .inl rfl⟩
  · exact .inl ⟨hguard, if_pos ⟨rfl, hguard⟩⟩

/-- The constructor's call finds the state as it wants it. -/
theorem init_eq (now : Nat) : init now = members now := by
  unfold init setStateDirectly
  rw [if_neg nofun, if_pos ⟨rfl, rfl⟩]

/-- Where no `Disabled()` fails, an allowed call stores what it was asked to. -/
theorem setStateDirectly_of_allowed
    (hguard : hardwareModuleTransitionGuard s.stateCode state = .allowed)
    (hhook : s.stateCode ≠ .motionEnabled ∨ disabled.isOk = true) :
    s.setStateDirectly disabled now state status false = s.store now state status := by
  have hne := ne_of_guard_allowed hguard
  have hok : (checkAndTriggerDisabledTransitionHook s.stateCode disabled).isOk = true := by
    unfold checkAndTriggerDisabledTransitionHook
    split
    · exact hhook.resolve_left (not_not_intro ‹_›)
    · rfl
  unfold setStateDirectly
  rw [if_neg (fun h => h.2 hguard), if_neg (fun h => hne h.1), if_neg hne]
  exact if_neg fun h => absurd (hok.symm.trans h.1) (by decide)

end Shared

/-! ## Every run -/

section Published
variable {Tid : Type} [DecidableEq Tid] {ok : Config Tid → Tid → Label → Prop}
  {s s' : Shared} {pc pc' : Pc} {l : Label}

/-- **The three ways a step at `SetStateDirectly` can go.**  The guard refuses; the state is
stored; or motion was enabled, `Disabled()` returned `code`, and the state or, after an
error, `kFaulted` is stored. -/
inductive SetOutcome (s : Shared) (site : Site) (state : StateCode) (status : RealtimeStatus) :
    Label → Shared → Pc → Prop
  | refused (hguard : hardwareModuleTransitionGuard s.stateCode state ≠ .allowed) :
      SetOutcome s site state status (.setState site s.stateCode s.stateCode false none) s
        (site.next false)
  | stored (now : Nat) (hguard : hardwareModuleTransitionGuard s.stateCode state = .allowed)
      (hother : s.stateCode ≠ .motionEnabled) (hnow : s.clock ≤ now) :
      SetOutcome s site state status (.setState site s.stateCode state true none)
        (s.store now state status).2 (site.next true)
  | disabled (now : Nat) (code : StatusCode) (stored : StateCode) (status' : RealtimeStatus)
      (hguard : hardwareModuleTransitionGuard .motionEnabled state = .allowed)
      (henabled : s.stateCode = .motionEnabled) (hnow : s.clock ≤ now)
      (hstored : stored = state ∨ stored = .faulted ∧ code ≠ .ok) :
      SetOutcome s site state status (.setState site .motionEnabled stored true (some code))
        (s.store now stored status').2 (site.next true)

theorem Atom.setOutcome {site : Site} {state : StateCode} {status : RealtimeStatus}
    (h : Atom s (.setState site state status) l s' pc') :
    SetOutcome s site state status l s' pc' := by
  cases h with
  | setState disabled now hnow =>
    unfold Shared.setStateLabel Shared.triggersDisabled
    obtain ⟨hguard, heq⟩ | ⟨hguard, stored, status', heq, hstored⟩ :=
      s.setStateDirectly_cases disabled now state status
    · rw [heq]
      simpa [hguard] using SetOutcome.refused hguard
    · by_cases henabled : s.stateCode = .motionEnabled
      · have hstored' : stored = state ∨ stored = .faulted ∧ disabled.code ≠ .ok :=
          hstored.imp_right fun h => ⟨h.1, of_decide_eq_false h.2.2⟩
        rw [heq]
        rw [henabled] at hguard
        simpa [henabled, hguard] using
          SetOutcome.disabled now disabled.code stored status' hguard henabled hnow hstored'
      · rw [Shared.setStateDirectly_of_allowed hguard (.inl henabled)]
        simpa [henabled] using SetOutcome.stored now hguard henabled hnow

/-- A step with the label of `SetStateDirectly` is one of its calls. -/
theorem Atom.at_setState {site : Site} {before after : StateCode} {changed : Bool}
    {code : Option StatusCode} (h : Atom s pc (.setState site before after changed code) s' pc') :
    ∃ state status, pc = .setState site state status ∧
      SetOutcome s site state status (.setState site before after changed code) s' pc' := by
  generalize hl : Label.setState site before after changed code = l at h
  cases h with
  | @setState site' state status disabled now hnow =>
    obtain rfl : site = site' := (Label.setState.inj hl).1
    exact ⟨state, status, rfl, Atom.setOutcome (.setState disabled now hnow)⟩
  | _ => cases hl

/-- A call that the guard allows, outside `kMotionEnabled`. -/
theorem Atom.stores {site : Site} {state : StateCode} {status : RealtimeStatus} (now : Nat)
    (hguard : hardwareModuleTransitionGuard s.stateCode state = .allowed)
    (hother : s.stateCode ≠ .motionEnabled) (hnow : s.clock ≤ now) :
    Atom s (.setState site state status) (.setState site s.stateCode state true none)
      (s.store now state status).2 (site.next true) := by
  have hresult : s.setStateDirectly rtOkStatus now state status false = s.store now state status :=
    Shared.setStateDirectly_of_allowed hguard (.inl hother)
  have h := @Atom.setState s site state status rtOkStatus now hnow
  rw [hresult] at h
  have htriggers : s.triggersDisabled state = false := by simp [Shared.triggersDisabled, hother]
  rwa [Shared.setStateLabel, htriggers] at h

/-- The handler after `OnPrepare` and `OnActivate` of a module without errors. -/
def activated : Shared :=
  { ((((Shared.init 0).store 0 .preparing rtOkStatus).2.store 0 .prepared rtOkStatus).2.store 0
      .activating rtOkStatus).2.store 0 .activated rtOkStatus |>.2 with rejectNewRequests := false }

/-- The steps of the two callbacks. -/
def activation : List (Bool × Label) :=
  [(false, .start .prepare), (false, .internal),
    (false, .setState .preparing .deactivated .preparing true none), (false, .empty true),
    (false, .call .prepare .ok), (false, .setState .prepared .preparing .prepared true none),
    (false, .start .activate), (false, .setState .activating .prepared .activating true none),
    (false, .empty true), (false, .call .activate .ok),
    (false, .setState .activated .activating .activated true none), (false, .internal)]

/-- They lead to the same handler whatever a new one does with requests. -/
theorem activation_run_of_rejects {ok : Config Bool → Bool → Label → Prop} (rejects : Bool)
    (hok : ∀ s pc l, (false, l) ∈ activation → ok (Pool.two s pc .idle) false l) :
    Run (Step ok) (Pool.two { Shared.init 0 with rejectNewRequests := rejects } .idle .idle)
      activation (Pool.two activated .idle .idle) := by
  refine .cons (.first (hok _ _ _ (by simp [activation])) (.start .prepare)) ?_
  refine .cons (.first (hok _ _ _ (by simp [activation])) .prepareLoad) ?_
  refine .cons (.first (hok _ _ _ (by simp [activation])) (.stores 0 rfl nofun (Nat.le_refl _))) ?_
  refine .cons (.first (hok _ _ _ (by simp [activation])) (.cancelDone rfl)) ?_
  refine .cons (.first (hok _ _ _ (by simp [activation])) (.statusCall okStatus)) ?_
  refine .cons (.first (hok _ _ _ (by simp [activation])) (.stores 0 rfl nofun (Nat.le_refl _))) ?_
  refine .cons (.first (hok _ _ _ (by simp [activation])) (.start .activate)) ?_
  refine .cons (.first (hok _ _ _ (by simp [activation])) (.stores 0 rfl nofun (Nat.le_refl _))) ?_
  refine .cons (.first (hok _ _ _ (by simp [activation])) (.cancelDone rfl)) ?_
  refine .cons (.first (hok _ _ _ (by simp [activation])) (.realtimeCall rtOkStatus)) ?_
  refine .cons (.first (hok _ _ _ (by simp [activation])) (.stores 0 rfl nofun (Nat.le_refl _))) ?_
  exact .single (.first (hok _ _ _ (by simp [activation])) .acceptRequests)

theorem activation_run {ok : Config Bool → Bool → Label → Prop}
    (hok : ∀ s pc l, (false, l) ∈ activation → ok (Pool.two s pc .idle) false l) :
    Run (Step ok) (initial Bool 0) activation (Pool.two activated .idle .idle) := by
  rw [Pool.eq_two (initial Bool 0)]
  exact activation_run_of_rejects false hok

/-- The first request of `OnEnableMotion`. -/
def enableRequest : Request := (Ask.begin .enableMotion .activated).request 0 0

/-- The handler while `OnEnableMotion` waits for it. -/
def asked : Shared :=
  { activated with requestQueue := [enableRequest], nextId := 1, actionLock := true }

/-- The steps of `OnEnableMotion` up to there. -/
def asking : List (Bool × Label) :=
  [(false, .start (.action .enableMotion)), (false, .internal), (false, .internal),
    (false, .internal), (false, .internal), (false, .internal),
    (false, .insert enableRequest none)]

theorem asking_run {ok : Config Bool → Bool → Label → Prop}
    (hok : ∀ s pc l, (false, l) ∈ asking → ok (Pool.two s pc .idle) false l) :
    Run (Step ok) (Pool.two activated .idle .idle) asking
      (Pool.two asked (.requestWait (Ask.begin .enableMotion .activated) 0) .idle) := by
  refine .cons (.first (hok _ _ _ (by simp [asking])) (.start (.action .enableMotion))) ?_
  refine .cons (.first (hok _ _ _ (by simp [asking])) (.actionLock rfl)) ?_
  refine .cons (.first (hok _ _ _ (by simp [asking])) .actionLoad) ?_
  refine .cons (.first (hok _ _ _ (by simp [asking])) (.requestAllowed rfl)) ?_
  refine .cons (.first (hok _ _ _ (by simp [asking])) (.requestLock rfl rfl)) ?_
  refine .cons (.first (hok _ _ _ (by simp [asking])) (.requestStamp 0 (Nat.le_refl _))) ?_
  exact .single (.first (hok _ _ _ (by simp [asking])) (.requestInsert (by decide)))

/-- A request is inserted at time 0, and then the run goes on. -/
theorem inserting_run {ok : Config Bool → Bool → Label → Prop} {s : Shared} {q : Ask} {y : Pc}
    {w : List (Bool × Label)} {d : Config Bool} (hok : ∀ s x l, ok (Pool.two s x y) false l)
    (hguard : hardwareModuleTransitionGuard q.source q.target = .allowed)
    (hfree : s.nonRtBufferLock = false) (haccepts : s.rejectNewRequests = false)
    (hclock : s.clock = 0) (hroom : s.requestQueue.length < kMaxPendingRequests)
    (h : Run (Step ok)
      (Pool.two
        { s with
          requestQueue := s.requestQueue ++ [q.request s.nextId 0]
          nextId := s.nextId + 1
          nonRtBufferLock := false
          clock := 0 }
        (.requestWait q s.nextId) y) w d) :
    Run (Step ok) (Pool.two s (.requestGuard q) y)
      ((false, .internal) :: (false, .internal) :: (false, .internal) ::
        (false, .insert (q.request s.nextId 0) q.first) :: w) d := by
  refine .cons (.first (hok _ _ _) (.requestAllowed hguard)) ?_
  refine .cons (.first (hok _ _ _) (.requestLock hfree haccepts)) ?_
  refine .cons (.first (hok _ _ _) (.requestStamp 0 (Nat.le_of_eq hclock))) ?_
  exact .cons (.first (hok _ _ _) (.requestInsert hroom)) h

/-- `OnReadStatus` takes the first request from the queue, and then the run goes on. -/
theorem taking_run {ok : Config Bool → Bool → Label → Prop} {s : Shared} {x : Pc} {r : Request}
    {rest : List Request} {w : List (Bool × Label)} {d : Config Bool}
    (hok : ∀ s y l, ok (Pool.two s x y) true l) (haccessed : s.frontAccessed = false)
    (hqueue : s.requestQueue = r :: rest)
    (h : Run (Step ok)
      (Pool.two
        ({ s with previousCycle := s.stateCode, frontAccessed := true } : Shared).dropFront x
        (.processCheck r)) w d) :
    Run (Step ok) (Pool.two s x .idle)
      ((true, .start .readStatus) :: (true, .internal) :: (true, .empty false) ::
        (true, .front r) :: (true, .dropFront) :: w) d := by
  have hmore : s.requestQueue ≠ [] := by
    rw [hqueue]
    exact List.cons_ne_nil _ _
  refine .cons (.second (hok _ _ _) (.start .readStatus)) ?_
  refine .cons (.second (hok _ _ _) .processStore) ?_
  refine .cons (.second (hok _ _ _) (.processEmpty hmore)) ?_
  refine .cons (.second (hok _ _ _) (.processFront haccessed hqueue)) ?_
  exact .cons (.second (hok _ _ _) (.processDrop rfl)) h

/-- The state code after `SetStateDirectly`: the old one, or one that the guard allows. -/
theorem SetOutcome.guarded {site : Site} {state : StateCode} {status : RealtimeStatus}
    (h : SetOutcome s site state status l s' pc') : s' = s ∨
      hardwareModuleTransitionGuard s.stateCode s'.stateCode = .allowed ∧
        ∃ now stored status', s' = (s.store now stored status').2 := by
  cases h with
  | refused => exact .inl rfl
  | stored now hguard => exact .inr ⟨hguard, now, state, status, rfl⟩
  | disabled now code stored status' hguard henabled hnow hstored =>
    refine .inr ⟨?_, now, stored, status', rfl⟩
    rw [henabled]
    rcases hstored with rfl | ⟨rfl, -⟩
    · exact hguard
    · rfl

/-- The three copies of the state. -/
structure Agree (s : Shared) : Prop where
  sharedMemory : s.sharedMemory.code = s.stateCode
  buffer : s.hwmStateBuffer.newest = s.sharedMemory

theorem agree_init (now : Nat) : Agree (.init now) := ⟨rfl, rfl⟩

/-- Only `SetStateDirectly` touches the published state. -/
theorem Atom.publishes (h : Atom s pc l s' pc') :
    (∃ site state status, pc = .setState site state status ∧
      SetOutcome s site state status l s' pc') ∨
    s'.stateCode = s.stateCode ∧ s'.sharedMemory = s.sharedMemory ∧
      s'.hwmStateBuffer.newest = s.hwmStateBuffer.newest := by
  cases h with
  | setState disabled now hnow =>
    exact .inl ⟨_, _, _, rfl, Atom.setOutcome (.setState disabled now hnow)⟩
  | @cancelDone k => cases k <;> exact .inr ⟨rfl, rfl, rfl⟩
  | getState => exact .inr ⟨rfl, rfl, AsyncBuffer.newest_getActiveBuffer _⟩
  | _ => exact .inr ⟨rfl, rfl, rfl⟩

/-- The state code stays or changes as the guard allows. -/
theorem Atom.guarded (h : Atom s pc l s' pc') :
    s'.stateCode = s.stateCode ∨
      hardwareModuleTransitionGuard s.stateCode s'.stateCode = .allowed := by
  obtain ⟨site, state, status, -, hset⟩ | ⟨hcode, -⟩ := h.publishes
  · exact hset.guarded.imp (congrArg Shared.stateCode) And.left
  · exact .inl hcode

theorem Agree.atom (hagree : Agree s) (h : Atom s pc l s' pc') : Agree s' := by
  obtain ⟨site, state, status, -, hset⟩ | ⟨hcode, hmemory, hbuffer⟩ := h.publishes
  · obtain rfl | ⟨-, now, stored, status', rfl⟩ := hset.guarded
    · exact hagree
    · exact ⟨rfl, Shared.newest_store⟩
  · exact ⟨by rw [hmemory, hcode]; exact hagree.sharedMemory,
      by rw [hbuffer, hmemory]; exact hagree.buffer⟩

theorem agree_run {now : Nat} {w : List (Tid × Label)} {c : Config Tid}
    (h : Run (Step ok) (initial Tid now) w c) : Agree c.shared :=
  h.stateInvariant (I := fun c => Agree c.shared) (agree_init now) fun _ _ _ hi hs =>
    hi.atom hs.atomic.2.1

/-- **No illegal transition is ever published.**  In every state that a run reaches, the
three copies agree, and whatever step comes next, by whichever thread and with whichever
results of the module's methods, changes the state only as the guard allows. -/
theorem published_transitions_allowed {now : Nat} {w : List (Tid × Label)} {c : Config Tid}
    (h : Run (Step ok) (initial Tid now) w c) :
    (c.shared.sharedMemory.code = c.shared.stateCode ∧
      c.shared.hwmStateBuffer.newest.code = c.shared.stateCode ∧
      c.shared.hwmStateBuffer.newest.message = c.shared.sharedMemory.message) ∧
    ∀ x d, Step ok c x d →
      (d.shared.stateCode ≠ c.shared.stateCode →
        hardwareModuleTransitionGuard c.shared.stateCode d.shared.stateCode = .allowed) ∧
      (c.shared.stateCode = .fatallyFaulted → d.shared.stateCode = .fatallyFaulted) ∧
      (c.shared.stateCode = .initFailed →
        d.shared.stateCode = .initFailed ∨ d.shared.stateCode = .fatallyFaulted) := by
  have hagree := agree_run h
  refine ⟨⟨hagree.sharedMemory, ?_, ?_⟩, fun x d hs => ?_⟩
  · rw [hagree.buffer]
    exact hagree.sharedMemory
  · rw [hagree.buffer]
  · have hguarded := hs.atomic.2.1.guarded
    refine ⟨fun hne => hguarded.resolve_left hne, fun hfatal => ?_, fun hfailed => ?_⟩
    · rw [hfatal] at hguarded
      exact hguarded.resolve_right (guard_from_fatallyFaulted _)
    · rw [hfailed] at hguarded
      exact hguarded.imp_right eq_fatallyFaulted_of_guard_initFailed

/-- After activation the state is left as the guard allows. -/
theorem published_transitions_allowed_activated :
    ∃ c : Config Bool, c.shared.stateCode = .activated ∧
      ∀ x d, Step Pool.free c x d → d.shared.stateCode ≠ .activated →
        hardwareModuleTransitionGuard .activated d.shared.stateCode = .allowed :=
  ⟨_, rfl, fun x d hs =>
    ((published_transitions_allowed (activation_run fun _ _ _ _ => trivial)).2 x d hs).1⟩

end Published

/-! ## Reading the state back -/

/-- `HardwareModuleExitCode` -/
inductive HardwareModuleExitCode
  | normalShutdown | restartRequested | fatalFaultDuringInit | fatalFaultDuringExec
  deriving DecidableEq, Repr

/-- What the restart callback of a `HardwareModuleRuntime` works on. -/
structure Runtime where
  handler : Shared
  /-- The promise of the exit code while its owner is alive, and its value once it is set. -/
  exitCodePromise : Option (Option HardwareModuleExitCode)
  /-- `domain_socket_server_` has not been destroyed. -/
  domainSocketServer : Bool

/-- The `switch` of the restart callback; nothing stands for the rejection. -/
def restartExitCode : StateCode → Option HardwareModuleExitCode
  | .motionEnabled => none
  | .initFailed => some .fatalFaultDuringInit
  | .fatallyFaulted => some .fatalFaultDuringExec
  | _ => some .restartRequested

namespace Runtime

/-- A connected runtime. -/
def connect (now : Nat) : Runtime := ⟨.init now, some none, true⟩

/-- The callback of the restart trigger. -/
def restart (r : Runtime) : Runtime :=
  match r.exitCodePromise with
  | some none =>
    let (state, handler) := r.handler.getHardwareModuleState
    match restartExitCode state.code with
    | none => { r with handler := handler }
    | some exitCode => ⟨handler, some (some exitCode), false⟩
  | _ => r

end Runtime

/-- `SetStateDirectly` returns before it stores anything. -/
def Shared.skips (s : Shared) (state : StateCode) (status : RealtimeStatus) (force : Bool) : Prop :=
  (force = false ∧ hardwareModuleTransitionGuard s.stateCode state ≠ .allowed) ∨
    (s.stateCode = state ∧ s.sharedMemory.getMessage = status.getMessage)

/-- What the calls on a runtime show: a state was published, or it was read. -/
inductive Event
  | published (st : HardwareModuleState)
  | read
  | nothing

/-- **The calls on a runtime**, one after the other: `SetStateDirectly` with any arguments,
`GetHardwareModuleState`, and the restart trigger. -/
inductive Runtime.Step : Runtime → Event → Runtime → Prop
  | skipped {r : Runtime} (disabled status : RealtimeStatus) (now : Nat) (state : StateCode)
      (force : Bool) (hskips : r.handler.skips state status force) :
      Runtime.Step r .nothing
        { r with handler := (r.handler.setStateDirectly disabled now state status force).2 }
  | published {r : Runtime} (disabled status : RealtimeStatus) (now : Nat) (state : StateCode)
      (force : Bool) (hskips : ¬ r.handler.skips state status force) :
      Runtime.Step r
        (.published (r.handler.setStateDirectly disabled now state status force).2.sharedMemory)
        { r with handler := (r.handler.setStateDirectly disabled now state status force).2 }
  | getState {r : Runtime} :
      Runtime.Step r .read { r with handler := r.handler.getHardwareModuleState.2 }
  | restart {r : Runtime} :
      Runtime.Step r (if r.exitCodePromise = some none then .read else .nothing) r.restart

/-- The most recently published state along a word, and whether it has not been read yet.
The state of a new handler counts as published and read. -/
def history (w : List Event) : HardwareModuleState × Bool :=
  w.foldl (fun h e =>
    match e with
    | .published st => (st, true)
    | .read => (h.1, false)
    | .nothing => h) (.init, false)

def lastPublished (w : List Event) : HardwareModuleState := (history w).1

def unread (w : List Event) : Bool := (history w).2

section ReadBack
variable {now : Nat} {w : List Event} {r r' : Runtime} {e : Event} {s : Shared}

@[simp] theorem history_published (w : List Event) (st : HardwareModuleState) :
    history (w ++ [.published st]) = (st, true) := by
  simp [history]

@[simp] theorem history_read (w : List Event) :
    history (w ++ [.read]) = ((history w).1, false) := by
  simp [history]

@[simp] theorem history_nothing (w : List Event) :
    history (w ++ [.nothing]) = history w := by
  simp [history]

theorem Shared.setStateDirectly_skipped {disabled status : RealtimeStatus} {state : StateCode}
    {force : Bool} (h : s.skips state status force) :
    s.setStateDirectly disabled now state status force = (false, s) := by
  unfold setStateDirectly
  split
  · rfl
  · rename_i hguard
    exact if_pos (h.resolve_left hguard)

/-- A call that does not return early stores some state. -/
theorem Shared.setStateDirectly_stored {disabled status : RealtimeStatus} {state : StateCode}
    {force : Bool} (h : ¬ s.skips state status force) :
    ∃ stored status', (s.setStateDirectly disabled now state status force).2 =
      (s.store now stored status').2 := by
  unfold setStateDirectly
  rw [if_neg fun hguard => h (.inl hguard), if_neg fun hsame => h (.inr hsame)]
  split
  · exact ⟨_, _, rfl⟩
  · dsimp only
    split <;> exact ⟨_, _, rfl⟩

/-- What `GetHardwareModuleState` returns. -/
theorem Shared.getHardwareModuleState_eq (s : Shared) : s.getHardwareModuleState.1 =
    if s.hwmStateBuffer.state.mailboxFull then s.hwmStateBuffer.newest else .init := rfl

theorem Shared.getHardwareModuleState_empties (s : Shared) :
    s.getHardwareModuleState.2.hwmStateBuffer.state.mailboxFull = false := by
  show s.hwmStateBuffer.state.fetched.mailboxFull = false
  unfold AsyncBuffer.State.fetched
  split
  · rfl
  · exact Bool.not_eq_true _ ▸ ‹_›

/-- The buffer holds the most recently published state, and its mailbox is full as long
as nobody has read it. -/
def ReadBack (w : List Event) (s : Shared) : Prop :=
  s.hwmStateBuffer.newest = lastPublished w ∧ s.hwmStateBuffer.state.mailboxFull = unread w

theorem ReadBack.read (h : ReadBack w s) :
    ReadBack (w ++ [.read]) s.getHardwareModuleState.2 := by
  refine ⟨?_, ?_⟩
  · rw [lastPublished, history_read]
    exact (AsyncBuffer.newest_getActiveBuffer _).trans h.1
  · rw [unread, history_read]
    exact s.getHardwareModuleState_empties

theorem ReadBack.nothing (h : ReadBack w s) : ReadBack (w ++ [.nothing]) s := by
  rw [ReadBack, lastPublished, unread, history_nothing]
  exact h

theorem Runtime.restart_handler (r : Runtime) : r.restart.handler =
    if r.exitCodePromise = some none then r.handler.getHardwareModuleState.2 else r.handler := by
  unfold restart
  split
  · rename_i hpromise
    rw [if_pos hpromise]
    dsimp only
    split <;> rfl
  · rename_i hpromise
    rw [if_neg hpromise]

theorem ReadBack.step (h : ReadBack w r.handler) (hs : Runtime.Step r e r') :
    ReadBack (w ++ [e]) r'.handler := by
  cases hs with
  | skipped disabled status now state force hskips =>
    rw [Shared.setStateDirectly_skipped hskips]
    exact h.nothing
  | published disabled status now state force hskips =>
    obtain ⟨stored, status', heq⟩ := @Shared.setStateDirectly_stored now _ disabled _ _ _ hskips
    rw [heq, ReadBack, lastPublished, unread, history_published]
    exact ⟨Shared.newest_store, rfl⟩
  | getState => exact h.read
  | restart =>
    rw [r.restart_handler]
    split
    · exact h.read
    · exact h.nothing

theorem readBack_run (h : Run Runtime.Step (.connect now) w r) : ReadBack w r.handler :=
  h.invariant (I := fun w r => ReadBack w r.handler) ⟨rfl, rfl⟩ fun _ _ _ _ hi hs => hi.step hs

/-- What the restart callback does when the module's state has this code: it leaves the
promise alone while motion is enabled, and reports a fatal fault as what it is. -/
structure RestartMeets (r : Runtime) (code : StateCode) : Prop where
  rejects : code = .motionEnabled → r.restart.exitCodePromise = r.exitCodePromise
  duringInit : r.exitCodePromise = some none →
    (r.restart.exitCodePromise = some (some .fatalFaultDuringInit) ↔ code = .initFailed)
  duringExec : r.exitCodePromise = some none →
    (r.restart.exitCodePromise = some (some .fatalFaultDuringExec) ↔ code = .fatallyFaulted)

theorem Runtime.restart_promise (hpromise : r.exitCodePromise = some none) :
    r.restart.exitCodePromise =
      some (restartExitCode r.handler.getHardwareModuleState.1.code) := by
  unfold restart
  rw [hpromise]
  dsimp only
  split
  · rename_i hnone
    rw [hnone]
  · rename_i hsome
    rw [hsome]

theorem Runtime.restart_set (hpromise : r.exitCodePromise ≠ some none) : r.restart = r := by
  unfold restart
  split
  · exact absurd ‹_› hpromise
  · rfl

/-- A restart callback that reads the right state does the right thing. -/
theorem restartMeets_of_read (r : Runtime) :
    RestartMeets r r.handler.getHardwareModuleState.1.code := by
  by_cases hpromise : r.exitCodePromise = some none
  · have hset := Runtime.restart_promise hpromise
    generalize r.handler.getHardwareModuleState.1.code = code at hset ⊢
    refine ⟨fun hcode => ?_, fun _ => ?_, fun _ => ?_⟩
    · rw [hset, hcode, hpromise]
      rfl
    · rw [hset]
      cases code <;> decide
    · rw [hset]
      cases code <;> decide
  · refine ⟨fun _ => ?_, fun h => absurd h hpromise, fun h => absurd h hpromise⟩
    rw [Runtime.restart_set hpromise]

/-- **When the state is read back.**  After any sequence of calls, `GetHardwareModuleState`
returns the most recently published state exactly when nobody has read that state yet or
it is the default state; the restart callback then decides by the published state. -/
theorem state_read_back_iff (h : Run Runtime.Step (.connect now) w r) :
    (r.handler.getHardwareModuleState.1 = lastPublished w ↔
      unread w = true ∨ lastPublished w = .init) ∧
    (unread w = true ∨ lastPublished w = .init → RestartMeets r (lastPublished w).code) := by
  obtain ⟨hnewest, hfull⟩ := readBack_run h
  have hiff : r.handler.getHardwareModuleState.1 = lastPublished w ↔
      unread w = true ∨ lastPublished w = .init := by
    rw [Shared.getHardwareModuleState_eq, hfull, hnewest]
    by_cases hunread : unread w = true
    · simp [hunread]
    · simp only [hunread, if_false, false_or, Bool.false_eq_true]
      exact eq_comm
  refine ⟨hiff, fun hcond => ?_⟩
  rw [← hiff.mpr hcond]
  exact restartMeets_of_read r

/-- A publication that the guard allows, outside `kMotionEnabled`. -/
theorem Runtime.Step.stores {state : StateCode} (status : RealtimeStatus)
    (hguard : hardwareModuleTransitionGuard r.handler.stateCode state = .allowed)
    (hother : r.handler.stateCode ≠ .motionEnabled) :
    Runtime.Step r (.published (.setState state status.getMessage))
      { r with handler := (r.handler.store 0 state status).2 } := by
  have hskips : ¬ r.handler.skips state status false := by
    rintro (⟨-, hnot⟩ | ⟨hsame, -⟩)
    · exact hnot hguard
    · exact ne_of_guard_allowed hguard hsame
  have h := Runtime.Step.published rtOkStatus status 0 state false hskips
  rwa [Shared.setStateDirectly_of_allowed hguard (.inl hother)] at h

/-- The states on the way to `kMotionEnabled`. -/
def toMotionEnabled : List Event :=
  [.preparing, .prepared, .activating, .activated, .motionEnabling, .motionEnabled].map
    fun code => .published (.setState code [])

/-- A runtime that has gone that way. -/
theorem toMotionEnabled_run : ∃ s, Run Runtime.Step (.connect 0) toMotionEnabled
    ⟨s, some none, true⟩ := by
  apply Exists.intro
  refine .cons (.stores rtOkStatus rfl nofun) ?_
  refine .cons (.stores rtOkStatus rfl nofun) ?_
  refine .cons (.stores rtOkStatus rfl nofun) ?_
  refine .cons (.stores rtOkStatus rfl nofun) ?_
  refine .cons (.stores rtOkStatus rfl nofun) ?_
  exact .single (.stores rtOkStatus rfl nofun)

/-- The first read after motion was enabled sees it. -/
theorem state_read_back_iff_first_read : ∃ r, Run Runtime.Step (.connect 0) toMotionEnabled r ∧
    r.handler.getHardwareModuleState.1.code = .motionEnabled := by
  obtain ⟨s, hrun⟩ := toMotionEnabled_run
  exact ⟨_, hrun, congrArg (·.code) ((state_read_back_iff hrun).1.mpr (.inl rfl))⟩

/-- **The second read is wrong.**  Motion is enabled and the state has been read once: the
next read returns the default state, and the restart trigger is not rejected. -/
theorem restart_accepted_while_enabled : ∃ r,
    Run Runtime.Step (.connect 0) (toMotionEnabled ++ [.read]) r ∧
      (lastPublished (toMotionEnabled ++ [.read])).code = .motionEnabled ∧
      r.handler.getHardwareModuleState.1.code = .deactivated ∧
      r.exitCodePromise = some none ∧
      r.restart.exitCodePromise = some (some .restartRequested) := by
  obtain ⟨s, hrun⟩ := toMotionEnabled_run
  have hempty : s.getHardwareModuleState.2.getHardwareModuleState.1 = .init := by
    rw [Shared.getHardwareModuleState_eq, Shared.getHardwareModuleState_empties]
    rfl
  refine ⟨_, hrun.snoc .getState, rfl, ?_, rfl, ?_⟩
  · dsimp only
    rw [hempty]
    rfl
  · rw [Runtime.restart_promise rfl]
    dsimp only
    rw [hempty]
    rfl

end ReadBack

end CallbackHandler

end Intrinsic
