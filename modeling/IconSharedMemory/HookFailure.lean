import IconSharedMemory.RequestCustody
import IconSharedMemory.ActivationGate

/-! # When `Disabled()` fails

`SetStateDirectly` calls the module's hook `Disabled()` when it leaves `kMotionEnabled`.
When the hook fails, it publishes `kFaulted` instead of the state it was asked for, and it
returns true all the same: its callers take the wanted state to be published.

Two callers act on that.  `ProcessNextPendingRequest` answers the request with OK, so the
action that waits for the answer goes on and calls the module
(`ok_reply_for_another_state`).  `OnDeactivate` calls `Deactivate()` and then wants to
publish `kDeactivated`, which the guard refuses from `kFaulted`: a module that has been
deactivated stays published as faulted (`deactivated_but_faulted`).

Both are right exactly when the substitution does not take place
(`ok_reply_took_effect_iff`, `deactivation_published_iff`).
-/
namespace Intrinsic

/-- The states that `SetStateDirectly` publishes whatever `Disabled()` returns. -/
def StateCode.faulty (code : StateCode) : Bool :=
  code = .initFailed || code = .fatallyFaulted || code = .faulted

namespace CallbackHandler
open Runs

/-! ## The call that leaves `kMotionEnabled` -/

section Leave
variable {s s' : Shared} {pc' : Pc} {l : Label} {site : Site} {state : StateCode}
  {status : RealtimeStatus}

/-- What is published when `Disabled()` returns a status with this code. -/
def afterHook (state : StateCode) (code : StatusCode) : StateCode :=
  if code ≠ .ok ∧ state.faulty = false then .faulted else state

theorem afterHook_eq_iff (code : StatusCode) :
    afterHook state code = state ↔ ¬ (code ≠ .ok ∧ state.faulty = false) := by
  unfold afterHook
  split
  · rename_i h
    refine ⟨fun heq => ?_, fun hnot => absurd h hnot⟩
    rw [← heq] at h
    cases h.2
  · rename_i h
    exact ⟨fun _ => h, fun _ => rfl⟩

/-- The status with which `kFaulted` is then published. -/
def hookFault (disabled : RealtimeStatus) : RealtimeStatus :=
  formatRealtimeStatus disabled.code (ascii "Disabled() failed: " ++ disabled.getMessage)

/-- **`SetStateDirectly` leaves `kMotionEnabled`**: it always reports success, and what it
publishes depends on the hook. -/
theorem Shared.setStateDirectly_enabled {disabled : RealtimeStatus} {now : Nat}
    (henabled : s.stateCode = .motionEnabled)
    (hguard : hardwareModuleTransitionGuard .motionEnabled state = .allowed) :
    s.setStateDirectly disabled now state status false =
      s.store now (afterHook state disabled.code)
        (if disabled.code ≠ .ok ∧ state.faulty = false then hookFault disabled else status) := by
  have hne := ne_of_guard_allowed hguard
  have hhook : checkAndTriggerDisabledTransitionHook s.stateCode disabled = disabled :=
    if_pos henabled
  unfold setStateDirectly afterHook
  rw [hhook, henabled, if_neg (fun h => h.2 hguard), if_neg (fun h => hne h.1), if_neg hne]
  have hiff : (disabled.isOk = false ∧ state ≠ .initFailed ∧ state ≠ .fatallyFaulted ∧
      state ≠ .faulted) ↔ (disabled.code ≠ .ok ∧ state.faulty = false) := by
    unfold RealtimeStatus.isOk StateCode.faulty
    simp [and_assoc]
  simp only [hiff]
  split
  · rfl
  · rfl

/-- The same for the step of a thread. -/
theorem Atom.afterHook (h : Atom s (.setState site state status) l s' pc')
    (henabled : s.stateCode = .motionEnabled)
    (hguard : hardwareModuleTransitionGuard .motionEnabled state = .allowed) :
    ∃ code now status', l = .setState site .motionEnabled (afterHook state code) true (some code) ∧
      s' = (s.store now (CallbackHandler.afterHook state code) status').2 ∧
      pc' = site.next true := by
  cases h with
  | setState disabled now hnow =>
    have heq := @Shared.setStateDirectly_enabled s state status disabled now henabled hguard
    refine ⟨disabled.code, now, _, ?_, congrArg Prod.snd heq, ?_⟩
    · unfold Shared.setStateLabel Shared.triggersDisabled
      rw [heq, henabled]
      simp [hguard]
    · rw [heq]
      rfl

/-- The step of a hook that fails. -/
theorem Atom.substitutes (disabled : RealtimeStatus) (now : Nat) (hnow : s.clock ≤ now)
    (henabled : s.stateCode = .motionEnabled)
    (hguard : hardwareModuleTransitionGuard .motionEnabled state = .allowed)
    (hfails : disabled.code ≠ .ok) (hstate : state.faulty = false) :
    Atom s (.setState site state status)
      (.setState site .motionEnabled .faulted true (some disabled.code))
      (s.store now .faulted (hookFault disabled)).2 (site.next true) := by
  have heq := @Shared.setStateDirectly_enabled s state status disabled now henabled hguard
  have h := @Atom.setState s site state status disabled now hnow
  have hleft : CallbackHandler.afterHook state disabled.code = .faulted := if_pos ⟨hfails, hstate⟩
  have htriggers : s.triggersDisabled state = true := by
    simp [Shared.triggersDisabled, henabled, hguard]
  rwa [Shared.setStateLabel, htriggers, heq, hleft, if_pos ⟨hfails, hstate⟩, henabled] at h

theorem Atom.atSite {pc : Pc} {before after : StateCode} {changed : Bool}
    {hook : Option StatusCode} (h : Atom s pc l s' pc')
    (hl : l = .setState site before after changed hook) :
    ∃ state status, pc = .setState site state status := by
  cases h with
  | @setState site' state status =>
    obtain ⟨rfl, -⟩ := Label.setState.inj hl
    exact ⟨state, status, rfl⟩
  | _ => cases hl

/-- Outside `kMotionEnabled` the guard alone decides. -/
theorem Atom.stateCode_of_ne (h : Atom s (.setState site state status) l s' pc')
    (hne : s.stateCode ≠ .motionEnabled) : s'.stateCode =
      if hardwareModuleTransitionGuard s.stateCode state = .allowed then state
      else s.stateCode := by
  cases h.setOutcome with
  | refused hguard => rw [if_neg hguard]
  | stored now hguard => rw [if_pos hguard, Shared.store_stateCode]
  | disabled now code stored status' hguard henabled => exact absurd henabled hne

end Leave

/-! ## Answers to requests -/

/-- Another state is put in the place of the one that a request asks for: motion is enabled,
the guard allows the request, `Disabled()` fails, and the request is not for a fault. -/
def Label.substitutes : Label → Prop
  | .setState (.process r) before _ _ (some code) =>
    before = .motionEnabled ∧ hardwareModuleTransitionGuard .motionEnabled r.target = .allowed ∧
      code ≠ .ok ∧ r.target.faulty = false
  | _ => False

instance (l : Label) : Decidable l.substitutes := by
  unfold Label.substitutes
  split <;> infer_instance

section Request
variable {s s' : Shared} {pc pc' : Pc} {l : Label} {r : Request} {reply : RealtimeStatus}

/-- `ProcessNextPendingRequest` sets the state that the request asks for. -/
def Pc.wants : Pc → Prop
  | .setState (.process r) state _ => state = r.target
  | _ => True

/-- Only `ProcessNextPendingRequest` answers a request with OK. -/
def Pc.declines : Pc → Prop
  | .processRespond _ reply => reply.isOk = false
  | _ => True

theorem Pc.plain.wants (h : pc.plain) : pc.wants := by
  cases pc with
  | setState site => cases site <;> first | exact trivial | exact h.elim
  | _ => exact trivial

theorem Pc.plain.declines (h : pc.plain) : pc.declines := by
  cases pc <;> first | exact trivial | exact h.elim

theorem Ask.next_wants (q : Ask) (id : Nat) (isOk : Bool) :
    (q.next id isOk).wants ∧ (q.next id isOk).declines := by
  unfold Ask.next
  split <;> exact ⟨trivial, trivial⟩

theorem Atom.wants (h : Atom s pc l s' pc') :
    pc'.wants ∧ ((∀ r state status, pc ≠ .setState (.process r) state status) → pc'.declines) := by
  by_cases hpc : pc.plain
  · obtain ⟨hpc', -⟩ | ⟨k, rfl, rfl, rfl, rfl, -⟩ | ⟨rfl, rfl, rfl, rfl, -⟩ |
      ⟨a, rfl, rfl, rfl, rfl, -⟩ := h.plain hpc
    · exact ⟨hpc'.wants, fun _ => hpc'.declines⟩
    · exact ⟨trivial, fun _ => trivial⟩
    · exact ⟨trivial, fun _ => trivial⟩
    · exact ⟨trivial, fun _ => trivial⟩
  · cases h with
    | @setState site state status =>
      cases site with
      | process r => exact ⟨trivial, fun hne => absurd rfl (hne r state status)⟩
      | _ => exact absurd trivial hpc
    | @statusCall k st =>
      cases k with
      | prepare => exact absurd trivial hpc
      | action a first => exact ⟨trivial, fun _ => trivial⟩
    | @requestAnswered q id reply => exact (q.next_wants id reply.isOk).imp_right fun h _ => h
    | @requestGivenUp q id => exact (q.next_wants id false).imp_right fun h _ => h
    | processFresh => exact ⟨rfl, fun _ => trivial⟩
    | processStale => exact ⟨trivial, fun _ => rfl⟩
    | _ => first | exact absurd trivial hpc | exact ⟨trivial, fun _ => trivial⟩

/-- **A request is answered with OK** only after `SetStateDirectly` has published something;
what it has published is the request's target unless `Disabled()` made it another state. -/
theorem Atom.accepts {state : StateCode} {status : RealtimeStatus}
    (h : Atom s (.setState (.process r) state status) l s' (.processRespond r reply))
    (hstate : state = r.target) :
    ((reply.isOk = true → s'.sharedMemory.code = r.target) ↔ ¬ l.substitutes) ∧
      (reply.isOk = true → ¬ l.substitutes →
        ∃ before hook, l = .setState (.process r) before r.target true hook) := by
  subst hstate
  cases h.setOutcome with
  | refused => exact ⟨iff_of_true nofun id, nofun⟩
  | stored => exact ⟨iff_of_true (fun _ => rfl) id, fun _ _ => ⟨_, _, rfl⟩⟩
  | disabled now code stored status' hguard henabled =>
    obtain ⟨code', -, -, hl, -⟩ := h.afterHook henabled hguard
    cases hl
    have hsub : (¬ Label.substitutes (.setState (.process r) .motionEnabled
        (CallbackHandler.afterHook r.target code) true (some code))) ↔
        CallbackHandler.afterHook r.target code = r.target := by
      rw [afterHook_eq_iff]
      exact not_congr ⟨fun hs => hs.2.2, fun hs => ⟨rfl, hguard, hs⟩⟩
    refine ⟨Iff.trans ?_ hsub.symm, fun _ hnot => ⟨_, _, by rw [hsub.mp hnot]⟩⟩
    exact ⟨fun hcode => hcode rfl, fun hcode _ => hcode⟩

theorem Atom.accepted (h : Atom s pc l s' pc') (hpc : pc' = .processRespond r reply)
    (hreply : reply.isOk = true) : ∃ state status, pc = .setState (.process r) state status := by
  subst hpc
  by_contra hnot
  have hdeclines : reply.isOk = false := by
    refine h.wants.2 ?_
    rintro r' state status rfl
    cases h.setOutcome <;> exact hnot ⟨state, status, rfl⟩
  cases hdeclines.symm.trans hreply

theorem Atom.responded {id : Nat} (h : Atom s pc l s' pc') (hl : l = .respond id reply)
    (hreply : reply.isOk = true) : ∃ r, r.id = id ∧ pc = .processRespond r reply := by
  cases h with
  | cancelRespond => cases hl; cases hreply
  | processRespond => cases hl; exact ⟨_, rfl, rfl⟩
  | _ => cases hl

theorem Atom.waited {id : Nat} (h : Atom s pc l s' pc') (hl : l = .waited id true) :
    ∃ reply, s.replies id = some reply ∧ reply.isOk = true := by
  cases h with
  | @requestAnswered q id' reply hreply =>
    obtain ⟨rfl, hok⟩ := Label.waited.inj hl
    exact ⟨reply, hreply, hok⟩
  | _ => cases hl

end Request

section Answers
variable {Tid : Type} [DecidableEq Tid] {ok : Config Tid → Tid → Label → Prop}
  {w : List (Tid × Label)} {c d : Config Tid} {now : Nat}

/-- The state that the request asks for has been published by the step that processed it. -/
def TookEffect (w : List (Tid × Label)) (r : Request) : Prop :=
  r ∈ inserted w ∧ ∃ u before hook, (u, .setState (.process r) before r.target true hook) ∈ w

/-- What is known about answers as long as nothing has been substituted. -/
structure Answered (w : List (Tid × Label)) (c : Config Tid) : Prop where
  respond : ∀ t r reply, c.locals t = .processRespond r reply → reply.isOk = true →
    TookEffect w r
  replied : ∀ id reply, c.shared.replies id = some reply → reply.isOk = true →
    ∃ r, r.id = id ∧ TookEffect w r
  waited : ∀ t id, (t, .waited id true) ∈ w → ∃ r, r.id = id ∧ TookEffect w r

omit [DecidableEq Tid] in
theorem TookEffect.snoc {r : Request} (h : TookEffect w r) (x : Tid × Label) :
    TookEffect (w ++ [x]) r := by
  obtain ⟨hr, u, before, hook, hmem⟩ := h
  refine ⟨?_, u, before, hook, List.mem_append_left _ hmem⟩
  rw [inserted_snoc]
  exact List.mem_append_left _ hr

theorem wants_run (h : Run (Step ok) (initial Tid now) w c) (t : Tid) : (c.locals t).wants := by
  refine h.stateInvariant (I := fun c => ∀ t, (c.locals t).wants) (fun _ => trivial) ?_ t
  rintro c ⟨t, l⟩ d hi hs
  cases hs with
  | mk hok hatom => exact forall_update Pc.wants hatom.wants.1 fun u _ => hi u

theorem Answered.step (h : Answered w c) (hfront : FrontInv c) (hledger : Ledger w c)
    (hwants : ∀ t, (c.locals t).wants) {t : Tid} {l : Label} (hs : Step ok c (t, l) d)
    (hsub : ¬ l.substitutes) : Answered (w ++ [(t, l)]) d := by
  cases hs with
  | @mk _ _ s' pc' hok hatom =>
    refine ⟨?_, ?_, ?_⟩
    · intro u r reply hu hreply
      obtain ⟨rfl, hpc'⟩ | ⟨-, hpc⟩ := of_update (P := (· = Pc.processRespond r reply)) hu
      · -- this is the step that has set the state
        obtain ⟨state, status, hpc⟩ := hatom.accepted hpc' hreply
        have hr := hledger.hand u r (by rw [hpc]; rfl)
        have hstate := hwants u
        rw [hpc] at hatom hstate
        obtain ⟨before, hook, rfl⟩ := ((hpc' ▸ hatom).accepts hstate).2 hreply hsub
        refine ⟨?_, u, before, hook, List.mem_append_right _ (.head _)⟩
        rw [inserted_snoc]
        exact List.mem_append_left _ hr
      · exact (h.respond u r reply hpc hreply).snoc _
    · intro id reply hid hreply
      dsimp only at hid
      have hold : c.shared.replies id = some reply →
          ∃ r, r.id = id ∧ TookEffect (w ++ [(t, l)]) r :=
        fun hold => (h.replied id reply hold hreply).imp fun r hr => ⟨hr.1, hr.2.snoc _⟩
      cases hatom.custody hfront.accessed with
      | keep _ _ hreplies => exact hold (hreplies ▸ hid)
      | insert _ _ _ hreplies => exact hold (hreplies ▸ hid)
      | take _ _ hreplies => exact hold (hreplies ▸ hid)
      | @answer r reply' _ _ hreplies =>
        rw [hreplies] at hid
        by_cases heq : id = r.id
        · subst heq
          rw [Function.update_self] at hid
          cases hid
          obtain ⟨r', hid, hpc⟩ := hatom.responded rfl hreply
          exact ⟨r', hid, (h.respond t r' reply hpc hreply).snoc _⟩
        · rw [Function.update_of_ne heq] at hid
          exact hold hid
    · intro u id hmem
      have hreplied : ∃ r, r.id = id ∧ TookEffect w r := by
        rcases List.mem_append.mp hmem with hmem | hmem
        · exact h.waited u id hmem
        · cases List.mem_singleton.mp hmem
          obtain ⟨reply, hid, hreply⟩ := hatom.waited rfl
          exact h.replied id reply hid hreply
      exact hreplied.imp fun r hr => ⟨hr.1, hr.2.snoc _⟩

omit [DecidableEq Tid] in
theorem answered_initial (now : Nat) : Answered [] (initial Tid now) where
  respond _ _ _ h := by cases h
  replied id reply h := by
    rw [show (initial Tid now).shared = .members now from Shared.init_eq now] at h
    cases h
  waited _ _ h := by cases h

theorem answered_run (h : Run (Step ok) (initial Tid now) w c)
    (hsub : ∀ x ∈ w, ¬ x.2.substitutes) : Answered w c := by
  induction h with
  | nil => exact answered_initial now
  | snoc h hs ih =>
    refine (ih fun x hx => hsub x (List.mem_append_left _ hx)).step (frontInv_run h)
      (ledger_run h) (wants_run h) hs (hsub _ (List.mem_append_right _ (.head _)))

/-- **A request that is answered with OK took effect** exactly when nothing was substituted.
In every reachable state, the step that processes a request publishes the state the request
asks for, if it answers with OK, exactly when it is not the case that motion is enabled, the
guard allows the request, `Disabled()` fails and the request is not for a fault.  In a run
without such a step, whenever `SetStateAndWait` has returned true, the request was inserted
and the step that processed it published exactly its target. -/
theorem ok_reply_took_effect_iff (h : Run (Step ok) (initial Tid now) w c) :
    (∀ t r before after changed hook d reply,
      Step ok c (t, .setState (.process r) before after changed hook) d →
      d.locals t = .processRespond r reply →
      ((reply.isOk = true → d.shared.sharedMemory.code = r.target) ↔
        ¬ (Label.setState (.process r) before after changed hook).substitutes)) ∧
    ((∀ x ∈ w, ¬ x.2.substitutes) → ∀ t id, (t, .waited id true) ∈ w →
      ∃ r, r.id = id ∧ TookEffect w r) := by
  refine ⟨?_, fun hsub => (answered_run h hsub).waited⟩
  intro t r before after changed hook d reply hs hreply
  have hwants := wants_run h t
  cases hs with
  | @mk _ _ s' pc' hok hatom =>
    dsimp only at hreply ⊢
    rw [Function.update_self] at hreply
    subst hreply
    obtain ⟨state, status, hpc⟩ := hatom.atSite rfl
    rw [hpc] at hatom hwants
    exact (hatom.accepts hwants).1

end Answers

/-- The request of an `OnDisableMotion` that comes next. -/
def disableRequest : Request := (Ask.begin .disableMotion .motionEnabled).request 2 0

/-- `OnEnableMotion` returns, `OnDisableMotion` asks for its intermediate state, and the
cycle that works this off finds `Disabled()` failing. -/
def disabling : List (Bool × Label) :=
  [(false, .waited 1 true), (false, .internal), (false, .start (.action .disableMotion)),
    (false, .internal), (false, .internal), (false, .internal), (false, .internal),
    (false, .internal), (false, .insert disableRequest none), (true, .start .readStatus),
    (true, .internal), (true, .empty false), (true, .front disableRequest), (true, .dropFront),
    (true, .check disableRequest true),
    (true, .setState (.process disableRequest) .motionEnabled .faulted true (some .internal)),
    (true, .respond 2 rtOkStatus), (true, .internal), (true, .call .readStatus .ok),
    (false, .waited 2 true), (false, .call .disableMotion .ok)]

/-- **An answer for a state that was not reached.**  The request for `kMotionDisabling` is
answered with OK although `kFaulted` has been published, and `OnDisableMotion` goes on to
call `DisableMotion()`. -/
theorem ok_reply_for_another_state : disableRequest.target = .motionDisabling ∧
    ∃ s pc, Run (Step Documented) (initial Bool 0) (activation ++ asking ++ enabling ++ disabling)
      (Pool.two s pc .idle) ∧ s.sharedMemory.code = .faulted := by
  refine ⟨rfl, ?_⟩
  obtain ⟨s, hrun, henabled⟩ := enabling_run (fun _ _ _ => documented_first)
    fun _ _ _ _ => documented_second
  obtain ⟨hcode, hqueue, haccessed, hreply, hnext, haccepts, hunlocked, htime, hclock⟩ := henabled
  cases s
  dsimp only at *
  subst hcode hqueue haccessed hnext haccepts hunlocked htime hclock
  apply Exists.intro
  apply Exists.intro
  refine ⟨hrun.append ?_, ?_⟩
  · refine .cons (.first documented_first (@Atom.requestAnswered _ _ 1 rtOkStatus hreply)) ?_
    refine .cons (.first documented_first .actionUnlock) ?_
    refine .cons (.first documented_first (.start (.action .disableMotion))) ?_
    refine .cons (.first documented_first (.actionLock rfl)) ?_
    refine .cons (.first documented_first .actionLoad) ?_
    refine inserting_run (fun _ _ _ => documented_first) rfl rfl rfl rfl (Nat.succ_pos 9) ?_
    refine taking_run (fun _ _ _ => documented_second rfl) rfl rfl ?_
    refine .cons (.second (documented_second rfl) (.processFresh rfl)) ?_
    refine .cons (.second (documented_second rfl) (.substitutes (formatRealtimeStatus .internal [])
      0 (Nat.le_refl _) rfl rfl nofun rfl)) ?_
    refine .cons (.second (documented_second rfl) .processRespond) ?_
    refine .cons (.second (documented_second rfl) .enabledLoad) ?_
    refine .cons (.second (documented_second rfl) (.realtimeCall rtOkStatus)) ?_
    refine .cons (.first documented_first (@Atom.requestAnswered _ _ 2 rtOkStatus rfl)) ?_
    exact .single (.first documented_first (.statusCall okStatus))
  · rfl

/-- While motion is being enabled, the first answer with OK is for a state that was
published. -/
theorem ok_reply_took_effect_iff_enabling : ∃ r, r.id = 0 ∧
    TookEffect (activation ++ asking ++ enabling) r := by
  obtain ⟨s, hrun, -⟩ := enabling_run (fun _ _ _ => documented_first)
    fun _ _ _ _ => documented_second
  refine (ok_reply_took_effect_iff hrun).2 ?_ false 0 (by simp [enabling])
  decide

/-! ## Deactivation -/

/-- What `Disabled()` and `Deactivate()` returned in an `OnDeactivate`. -/
structure Deactivation where
  hook : Option StatusCode
  result : Option StatusCode

/-- The thread's last `OnDeactivate` after a further step of the thread. -/
def Deactivation.record (x : Deactivation) : Label → Deactivation
  | .setState (.deactivating _) _ _ _ hook => ⟨hook, none⟩
  | .call .deactivate code => { x with result := some code }
  | _ => x

/-- A thread's last `OnDeactivate` in a word. -/
def deactivation {Tid : Type} [DecidableEq Tid] (w : List (Tid × Label)) (t : Tid) :
    Deactivation :=
  w.foldl (fun x y => if y.1 = t then x.record y.2 else x) ⟨none, none⟩

/-- `Disabled()` was called, and failed. -/
def Deactivation.hookFailed (x : Deactivation) : Prop := ∃ code ∈ x.hook, code ≠ .ok

/-- The state that `OnDeactivate` is to end with, by what `Deactivate()` returned. -/
def deactivationState (code : StatusCode) : StateCode :=
  if code = .ok then .deactivated else .fatallyFaulted

/-- The state while `OnDeactivate` is at work. -/
def Deactivation.stateCode (x : Deactivation) : StateCode :=
  x.hook.elim .deactivating (afterHook .deactivating)

/-- **What holds at each program point** of an `OnDeactivate` beside which no other callback
sets the state. -/
def Deactivates (code : StateCode) (x : Deactivation) : Pc → Prop
  | .setState (.deactivating _) state _ => state = .deactivating
  | .setState (.deactivated _) state _ =>
    code = x.stateCode ∧ ∃ result, x.result = some result ∧ state = deactivationState result
  | .rejectRequests _ | .cancelEmpty (.deactivate _) | .cancelFront (.deactivate _)
  | .cancelRespond (.deactivate _) _ | .cancelDrop (.deactivate _)
  | .realtimeCall (.deactivate _) => code = x.stateCode
  | _ => True

section Deactivates
variable {s s' : Shared} {pc pc' : Pc} {l : Label} {x : Deactivation} {code : StateCode}

theorem Deactivation.stateCode_of_failed (h : x.hookFailed) : x.stateCode = .faulted := by
  obtain ⟨code, hhook, hcode⟩ := h
  rw [stateCode, Option.mem_def.mp hhook]
  exact if_pos ⟨hcode, rfl⟩

theorem Deactivation.stateCode_of_not_failed (h : ¬ x.hookFailed) :
    x.stateCode = .deactivating := by
  unfold stateCode
  cases hhook : x.hook with
  | none => rfl
  | some code =>
    have hcode : code = .ok := by
      by_contra hne
      exact h ⟨code, hhook, hne⟩
    rw [hcode]
    rfl

theorem deactivates_afterDeactivate (nested : Bool) :
    Deactivates code x (afterDeactivate nested) := by
  cases nested <;> exact trivial

theorem next_deactivate (nested : Bool) (st : RealtimeStatus) :
    (RealtimeCall.deactivate nested).next st =
      .setState (.deactivated nested) (deactivationState st.code)
        (if st.isOk then rtOkStatus else st) := by
  unfold RealtimeCall.next deactivationState RealtimeStatus.isOk
  by_cases hcode : st.code = .ok
  · simp [hcode]
  · simp [hcode]

theorem deactivates_setState {site : Site} {state : StateCode} {status : RealtimeStatus}
    (hx : Deactivates s.stateCode x (.setState site state status))
    (h : Atom s (.setState site state status) l s' pc') :
    Deactivates s'.stateCode (x.record l) pc' := by
  cases site with
  | deactivating nested =>
    obtain rfl : state = .deactivating := hx
    cases h.setOutcome with
    | refused => exact deactivates_afterDeactivate nested
    | stored => exact rfl
    | disabled now code stored status' hguard henabled =>
      obtain ⟨code', -, -, hl, -⟩ := h.afterHook henabled hguard
      cases hl
      exact rfl
  | deactivated nested => cases h.setOutcome <;> exact deactivates_afterDeactivate nested
  | _ => cases h.setOutcome <;> exact trivial

theorem Atom.deactivates (h : Atom s pc l s' pc') (hx : Deactivates s.stateCode x pc) :
    Deactivates s'.stateCode (x.record l) pc' := by
  cases h with
  | start cb => cases cb <;> first | exact trivial | exact rfl
  | setState disabled now hnow => exact deactivates_setState hx (.setState disabled now hnow)
  | @statusCall k st =>
    cases k with
    | prepare =>
      unfold StatusCall.next
      dsimp only
      split <;> exact trivial
    | action a first => exact trivial
  | @realtimeCall k st =>
    cases k with
    | deactivate nested =>
      rw [next_deactivate]
      exact ⟨hx, st.code, rfl, rfl⟩
    | _ =>
      unfold RealtimeCall.next
      dsimp only
      split <;> exact trivial
  | prepareLoad => split <;> first | exact rfl | exact trivial
  | rejectRequests => exact hx
  | @cancelDone k => cases k <;> exact hx
  | @cancelMore k => cases k <;> exact hx
  | @cancelFront k => cases k <;> exact hx
  | @cancelRespond k => cases k <;> exact hx
  | @cancelDrop k => cases k <;> exact hx
  | requestAnswered => unfold Ask.next; split <;> exact trivial
  | requestGivenUp => unfold Ask.next; split <;> exact trivial
  | enabledLoad => split <;> exact trivial
  | readStatusLoad => split <;> exact trivial
  | applyLoad => split; exacts [trivial, by split <;> exact trivial]
  | _ => exact trivial

/-- The state that `OnDeactivate` finds when it sets the state for the second time, and what
becomes of it. -/
theorem Atom.deactivated {nested : Bool} {state : StateCode} {status : RealtimeStatus}
    {result : StatusCode} (h : Atom s (.setState (.deactivated nested) state status) l s' pc')
    (hcode : s.stateCode = x.stateCode) (hstate : state = deactivationState result) :
    s'.stateCode = deactivationState result ↔ ¬ (x.hookFailed ∧ result = .ok) := by
  subst hstate
  by_cases hfailed : x.hookFailed
  · rw [x.stateCode_of_failed hfailed] at hcode
    have hs' := h.stateCode_of_ne (by rw [hcode]; exact nofun)
    rw [hcode] at hs'
    by_cases hresult : result = .ok
    · -- the guard does not let `kFaulted` be left for `kDeactivated`
      rw [hs', hresult]
      exact iff_of_false nofun (not_not_intro ⟨hfailed, rfl⟩)
    · have hfatal : deactivationState result = .fatallyFaulted := if_neg hresult
      rw [hs', hfatal]
      exact iff_of_true rfl fun hboth => hresult hboth.2
  · rw [x.stateCode_of_not_failed hfailed] at hcode
    have hs' := h.stateCode_of_ne (by rw [hcode]; exact nofun)
    rw [hcode] at hs'
    refine iff_of_true (hs'.trans (if_pos ?_)) fun hboth => hfailed hboth.1
    unfold deactivationState
    split <;> rfl

theorem deactivates_of_not_inSerial (h : ¬ pc.inSerial) : Deactivates code x pc := by
  cases pc with
  | setState site => exact absurd ⟨_, rfl, site.serial⟩ h
  | realtimeCall k => exact absurd ⟨_, rfl, k.serial⟩ h
  | rejectRequests nested => exact absurd ⟨_, rfl, serial_deactivateTask nested⟩ h
  | cancelEmpty k => obtain rfl := k.eq_shutdown fun hk => h ⟨_, rfl, hk⟩; exact trivial
  | cancelFront k => obtain rfl := k.eq_shutdown fun hk => h ⟨_, rfl, hk⟩; exact trivial
  | cancelRespond k => obtain rfl := k.eq_shutdown fun hk => h ⟨_, rfl, hk⟩; exact trivial
  | cancelDrop k => obtain rfl := k.eq_shutdown fun hk => h ⟨_, rfl, hk⟩; exact trivial
  | _ => exact trivial

end Deactivates

section DeactivationRun
variable {Tid : Type} [DecidableEq Tid] {ok : Config Tid → Tid → Label → Prop}
  {w : List (Tid × Label)} {c d : Config Tid} {x : Tid × Label} {now : Nat}

theorem deactivation_snoc (w : List (Tid × Label)) (x : Tid × Label) (t : Tid) :
    deactivation (w ++ [x]) t =
      if x.1 = t then (deactivation w t).record x.2 else deactivation w t := by
  simp [deactivation]

/-- **The invariant.**  At most one callback that sets the state is running, and every thread
is where its last `OnDeactivate` has brought it. -/
structure DeactivationInv (w : List (Tid × Label)) (c : Config Tid) : Prop where
  exclusive : AtMostOne Pc.inSerial c.locals
  points : ∀ t, Deactivates c.shared.stateCode (deactivation w t) (c.locals t)

theorem deactivationInv_initial (now : Nat) : DeactivationInv [] (initial Tid now) where
  exclusive := by rintro t u ⟨k, hk, -⟩; cases hk
  points _ := trivial

theorem DeactivationInv.step (hserial : ∀ c t l, ok c t l → Serial c t l)
    (h : DeactivationInv w c) (hs : Step ok c x d) : DeactivationInv (w ++ [x]) d := by
  cases hs with
  | @mk t l s' pc' hok hatom =>
    refine ⟨AtMostOne.serial h.exclusive (hserial _ _ _ hok) hatom, fun u => ?_⟩
    dsimp only
    rw [deactivation_snoc]
    by_cases hut : u = t
    · subst hut
      rw [if_pos rfl, Function.update_self]
      exact hatom.deactivates (h.points u)
    · rw [if_neg fun htu => hut htu.symm, Function.update_of_ne hut]
      by_cases ht : (c.locals t).inSerial
      · exact deactivates_of_not_inSerial fun hu => hut (h.exclusive u t hu ht)
      · rw [(@Atom.offSerial _ _ _ _ _ false hatom ht).1]
        exact h.points u

/-- **A deactivation ends as `Deactivate()` returned**, unless `Disabled()` failed before.
Callbacks that set the state do not overlap.  Then, in every reachable state and for all
results of the module's methods, the step with which an `OnDeactivate` that has called
`Deactivate()` returns leaves `kDeactivated` published after a success and `kFatallyFaulted`
after an error, exactly when it is not the case that `Disabled()` failed and `Deactivate()`
succeeded. -/
theorem deactivation_published_iff (hserial : ∀ c t l, ok c t l → Serial c t l)
    (h : Run (Step ok) (initial Tid now) w c) {t : Tid} {nested changed : Bool}
    {before after : StateCode} {hook : Option StatusCode}
    (hs : Step ok c (t, .setState (.deactivated nested) before after changed hook) d) :
    ∃ result, (deactivation w t).result = some result ∧
      (d.shared.sharedMemory.code = deactivationState result ↔
        ¬ ((deactivation w t).hookFailed ∧ result = .ok)) := by
  have hinv : DeactivationInv w c :=
    h.invariant (I := DeactivationInv) (deactivationInv_initial now) fun _ _ _ _ hi hs =>
      hi.step hserial hs
  rw [(agree_run (h.snoc hs)).sharedMemory]
  have hpoint := hinv.points t
  cases hs with
  | @mk _ _ s' pc' hok hatom =>
    obtain ⟨state, status, hpc⟩ := hatom.atSite rfl
    rw [hpc] at hatom hpoint
    obtain ⟨hcode, result, hresult, hstate⟩ := hpoint
    exact ⟨result, hresult, hatom.deactivated hcode hstate⟩

end DeactivationRun

theorem serial_beside_action {s : Shared} {pc pc' : Pc} {l : Label}
    (h : pc.task = some .action) : Serial (Pool.two s pc pc') true l := by
  unfold Serial
  split
  · rintro - (_ | _) hu ⟨k, hk, hserial⟩
    · cases h.symm.trans hk
      cases hserial
    · exact hu rfl
  · exact trivial

/-- `OnDeactivate` while motion is enabled and `Disabled()` fails. -/
def failingDeactivation : List (Bool × Label) :=
  [(true, .start .deactivate),
    (true, .setState (.deactivating false) .motionEnabled .faulted true (some .internal)),
    (true, .internal), (true, .empty true), (true, .call .deactivate .ok),
    (true, .setState (.deactivated false) .faulted .faulted false none)]

/-- A call that the guard refuses. -/
theorem Atom.refuses {s : Shared} {site : Site} {state : StateCode} {status : RealtimeStatus}
    (hguard : hardwareModuleTransitionGuard s.stateCode state ≠ .allowed) :
    Atom s (.setState site state status) (.setState site s.stateCode s.stateCode false none) s
      (site.next false) := by
  have heq : s.setStateDirectly rtOkStatus s.clock state status false = (false, s) :=
    if_pos ⟨rfl, hguard⟩
  have h := @Atom.setState s site state status rtOkStatus s.clock (Nat.le_refl _)
  have htriggers : s.triggersDisabled state = false := by simp [Shared.triggersDisabled, hguard]
  rwa [Shared.setStateLabel, htriggers, heq] at h

/-- **A deactivated module stays published as faulted.**  `Disabled()` fails, `Deactivate()`
succeeds, and the guard does not let `kFaulted` be left for `kDeactivated`. -/
theorem deactivated_but_faulted : ∃ s pc, Run (Step Serial) (initial Bool 0)
    (activation ++ asking ++ enabling ++ failingDeactivation) (Pool.two s pc .idle) ∧
      s.sharedMemory.code = .faulted := by
  obtain ⟨s, hrun, henabled⟩ := enabling_run (fun _ _ _ => serial_two rfl)
    fun _ _ _ _ => serial_beside_action
  obtain ⟨hcode, hqueue, haccessed, -, -, -, -, -, hclock⟩ := henabled
  cases s
  dsimp only at *
  subst hcode hqueue haccessed hclock
  apply Exists.intro
  apply Exists.intro
  refine ⟨hrun.append ?_, ?_⟩
  · refine .cons (.second (serial_beside_action rfl) (.start .deactivate)) ?_
    refine .cons (.second (serial_beside_action rfl) (.substitutes
      (formatRealtimeStatus .internal []) 0 (Nat.le_refl _) rfl rfl nofun rfl)) ?_
    refine .cons (.second (serial_beside_action rfl) .rejectRequests) ?_
    refine .cons (.second (serial_beside_action rfl) (.cancelDone rfl)) ?_
    refine .cons (.second (serial_beside_action rfl) (.realtimeCall rtOkStatus)) ?_
    exact .single (.second (serial_beside_action rfl) (.refuses nofun))
  · rfl

/-- `OnDeactivate` after an activation, up to the call of `Deactivate()`. -/
def plainDeactivation : List (Bool × Label) :=
  [(false, .start .deactivate),
    (false, .setState (.deactivating false) .activated .deactivating true none),
    (false, .internal), (false, .empty true), (false, .call .deactivate .ok)]

/-- The module is then published as deactivated. -/
theorem deactivation_published_iff_activated : ∃ c d : Config Bool,
    Run (Step Serial) (initial Bool 0) (activation ++ plainDeactivation) c ∧
      Step Serial c
        (false, .setState (.deactivated false) .deactivating .deactivated true none) d ∧
      d.shared.sharedMemory.code = .deactivated := by
  have hrun : ∃ s, Run (Step Serial) (initial Bool 0) (activation ++ plainDeactivation)
      (Pool.two s (.setState (.deactivated false) .deactivated rtOkStatus) .idle) ∧
      s.stateCode = .deactivating ∧ s.clock = 0 := by
    apply Exists.intro
    refine ⟨(activation_run fun _ _ _ _ => serial_two rfl).append ?_, ?_⟩
    · refine .cons (.first (serial_two rfl) (.start .deactivate)) ?_
      refine .cons (.first (serial_two rfl) (.stores 0 rfl nofun (Nat.le_refl _))) ?_
      refine .cons (.first (serial_two rfl) .rejectRequests) ?_
      refine .cons (.first (serial_two rfl) (.cancelDone rfl)) ?_
      exact .single (.first (serial_two rfl) (.realtimeCall rtOkStatus))
    · exact ⟨rfl, rfl⟩
  obtain ⟨s, hrun, hcode, hclock⟩ := hrun
  have hatom : Atom s (.setState (.deactivated false) .deactivated rtOkStatus)
      (.setState (.deactivated false) .deactivating .deactivated true none)
      (s.store 0 .deactivated rtOkStatus).2 ((Site.deactivated false).next true) := by
    rw [← hcode]
    exact .stores 0 (by rw [hcode]; rfl) (by rw [hcode]; exact nofun) (Nat.le_of_eq hclock)
  have hs := @Pool.Step.first _ _ _ _ Serial _ _ _ _ .idle _ (serial_two rfl) hatom
  refine ⟨_, _, hrun, hs, ?_⟩
  obtain ⟨result, hresult, hiff⟩ := deactivation_published_iff (fun _ _ _ => id) hrun hs
  have hrecord : deactivation (activation ++ plainDeactivation) false = ⟨none, some .ok⟩ := rfl
  rw [hrecord] at hresult hiff
  cases hresult
  refine hiff.mpr ?_
  rintro ⟨⟨code, hcode, -⟩, -⟩
  cases hcode

end CallbackHandler
end Intrinsic
