import IconSharedMemory.Brackets
import IconSharedMemory.StatePublication

/-! # The hooks around enabled motion

`Enabled()` tells the module that commands follow, `Disabled()` that no more will come.
The two are called by different means.  `Disabled()` is called by `SetStateDirectly`
itself, whoever leaves `kMotionEnabled` and for whatever reason.  `Enabled()` is called
by `OnReadStatus` when the state of the previous cycle was `kMotionEnabling` and the
current one is `kMotionEnabled`; between the change of the state and the call the hook
is *pending*.

The documented use of the handler is that no state is set while a real-time callback
runs, other than by that callback (`Documented`).  Under it the hook that is pending is
always called, and the calls of `Enabled()`, `ApplyCommand()` and `Disabled()` are
bracketed in every run (`hooks_bracketed`).
-/
namespace Intrinsic.CallbackHandler
open Runs

/-! ## Use and observation -/

def Task.realtime : Task → Bool
  | .readStatus | .applyCommand => true
  | _ => false

/-- The thread is in `OnReadStatus` or `OnApplyCommand`. -/
def Pc.inRealtime (pc : Pc) : Prop := ∃ k, pc.task = some k ∧ k.realtime = true

/-- **The documented use.**  A real-time callback is not called while another thread is in
one, and no other thread sets the state meanwhile. -/
def Documented {Tid : Type} (c : Config Tid) (t : Tid) : Label → Prop
  | .start .readStatus | .start .applyCommand | .setState _ _ _ _ _ =>
    ∀ u, u ≠ t → ¬ (c.locals u).inRealtime
  | _ => True

/-- The calls of a step that the brackets are made of. -/
def Label.hooks (l : Label) : List Method :=
  l.calls.filter fun m => m = .enabled ∨ m = .applyCommand ∨ m = .disabled

/-- The step enters `kMotionEnabled`. -/
def Label.enters : Label → Bool
  | .setState _ before after _ _ => before ≠ .motionEnabled && after = .motionEnabled
  | _ => false

/-- The step leaves `kMotionEnabled`. -/
def Label.leaves : Label → Bool
  | .setState _ before after _ _ => before = .motionEnabled && after ≠ .motionEnabled
  | _ => false

section Word
variable {Tid : Type}

/-- The calls of the module along a word, restricted to the brackets. -/
def hookCalls (w : List (Tid × Label)) : List Method := w.flatMap fun x => x.2.hooks

theorem hookCalls_snoc (w : List (Tid × Label)) (x : Tid × Label) :
    hookCalls (w ++ [x]) = hookCalls w ++ x.2.hooks := by
  simp [hookCalls]

end Word

/-! ## Brackets and the state -/

/-- **The brackets and the state code.**  A bracket is open while motion is enabled, from
the moment the hook is no longer pending.  `entered` counts the entries so far. -/
structure Hooked (calls : List Method) (entered : Nat) (isOpen : Bool) (code : StateCode)
    (pending : Prop) : Prop where
  word : Bracketed .enabled .applyCommand .disabled calls isOpen
  isOpen_iff : isOpen = true ↔ code = .motionEnabled ∧ ¬ pending
  enabled : pending → code = .motionEnabled
  due : pending → entered = calls.count .enabled + 1
  done : ¬ pending → entered = calls.count .enabled

namespace Hooked
variable {calls : List Method} {entered : Nat} {isOpen : Bool} {code code' : StateCode}
  {pending pending' : Prop}

theorem keep (h : Hooked calls entered isOpen code pending) (hiff : pending' ↔ pending) :
    Hooked calls entered isOpen code pending' := by
  rw [propext hiff]
  exact h

theorem not_pending (h : Hooked calls entered isOpen code pending)
    (hcode : code ≠ .motionEnabled) : ¬ pending :=
  fun hp => hcode (h.enabled hp)

theorem closed (h : Hooked calls entered isOpen code pending) (hcode : code ≠ .motionEnabled) :
    isOpen = false :=
  Bool.eq_false_iff.mpr fun hopen => hcode (h.isOpen_iff.mp hopen).1

/-- The state changes, and is not enabled before or after. -/
theorem move (h : Hooked calls entered isOpen code pending) (hcode : code ≠ .motionEnabled)
    (hcode' : code' ≠ .motionEnabled) (hnot : ¬ pending') :
    Hooked calls entered isOpen code' pending' where
  word := h.word
  isOpen_iff := by simp [h.closed hcode, hcode']
  enabled hp := absurd hp hnot
  due hp := absurd hp hnot
  done _ := h.done (h.not_pending hcode)

/-- Motion gets enabled; the hook is pending. -/
theorem enter (h : Hooked calls entered isOpen code pending) (hcode : code ≠ .motionEnabled)
    (hp : pending') : Hooked calls (entered + 1) isOpen .motionEnabled pending' where
  word := h.word
  isOpen_iff := by simp [h.closed hcode, hp]
  enabled _ := rfl
  due _ := congrArg (· + 1) (h.done (h.not_pending hcode))
  done hnot := absurd hp hnot

/-- `Enabled()` is called. -/
theorem callEnabled (h : Hooked calls entered isOpen code pending) (hp : pending)
    (hnot : ¬ pending') : Hooked (calls ++ [.enabled]) entered true code pending' where
  word := by
    have hclosed : isOpen = false :=
      Bool.eq_false_iff.mpr fun hopen => (h.isOpen_iff.mp hopen).2 hp
    exact (hclosed ▸ h.word).opened
  isOpen_iff := by simp [h.enabled hp, hnot]
  enabled _ := h.enabled hp
  due hp' := absurd hp' hnot
  done _ := by
    rw [h.due hp, List.count_append]
    rfl

/-- `ApplyCommand()` is called. -/
theorem callApplyCommand (h : Hooked calls entered isOpen code pending)
    (hcode : code = .motionEnabled) (hp : ¬ pending) (hnot : ¬ pending') :
    Hooked (calls ++ [.applyCommand]) entered true code pending' where
  word := ((h.isOpen_iff.mpr ⟨hcode, hp⟩) ▸ h.word).inner
  isOpen_iff := by simp [hcode, hnot]
  enabled _ := hcode
  due hp' := absurd hp' hnot
  done _ := by
    rw [h.done hp, List.count_append]
    rfl

/-- Motion gets disabled, and `Disabled()` is called. -/
theorem leave (h : Hooked calls entered isOpen code pending) (hcode : code = .motionEnabled)
    (hp : ¬ pending) (hcode' : code' ≠ .motionEnabled) (hnot : ¬ pending') :
    Hooked (calls ++ [.disabled]) entered false code' pending' where
  word := ((h.isOpen_iff.mpr ⟨hcode, hp⟩) ▸ h.word).closed
  isOpen_iff := by simp [hcode']
  enabled hp' := absurd hp' hnot
  due hp' := absurd hp' hnot
  done _ := by
    rw [h.done hp, List.count_append]
    rfl

end Hooked

/-! ## One thread -/

/-- The thread is going to call `Enabled()` because of the present state. -/
def Pending (s : Shared) : Pc → Prop
  | .processRespond _ _ | .enabledLoad =>
    s.previousCycle = .motionEnabling ∧ s.stateCode = .motionEnabled
  | .realtimeCall .enabled => True
  | _ => False

/-- What a thread relies on.  Until a request is applied, the state of the previous cycle is
the present one; only a request asks for `kMotionEnabled`; the two calls for enabled
motion are made while it is enabled. -/
def Consistent (s : Shared) : Pc → Prop
  | .processEmpty | .processFront | .processDrop _ | .processCheck _
  | .setState (.process _) _ _ => s.previousCycle = s.stateCode
  | .setState _ state _ => state ≠ .motionEnabled
  | .realtimeCall .enabled | .realtimeCall .applyCommand => s.stateCode = .motionEnabled
  | _ => True

section Thread
variable {s s' : Shared} {pc pc' : Pc} {l : Label}

theorem faultState_ne_motionEnabled (code : StatusCode) : faultState code ≠ .motionEnabled := by
  unfold faultState
  split <;> decide

theorem consistent_afterDeactivate (nested : Bool) : Consistent s (afterDeactivate nested) := by
  cases nested
  · exact trivial
  · exact nofun

theorem consistent_next (site : Site) (changed : Bool) : Consistent s (site.next changed) := by
  cases site with
  | deactivating nested =>
    cases changed
    · exact consistent_afterDeactivate nested
    · exact trivial
  | deactivated nested => exact consistent_afterDeactivate nested
  | _ => cases changed <;> exact trivial

theorem Atom.consistent (h : Atom s pc l s' pc') (hc : Consistent s pc) : Consistent s' pc' := by
  cases h with
  | start cb => cases cb <;> first | exact trivial | exact nofun
  | @setState site state status => exact consistent_next _ _
  | @statusCall k st =>
    cases k with
    | prepare =>
      unfold StatusCall.next
      dsimp only
      split <;> exact nofun
    | action a first => exact trivial
  | @realtimeCall k st =>
    cases k <;> unfold RealtimeCall.next <;> dsimp only <;> split <;>
      first | exact trivial | exact faultState_ne_motionEnabled _ | exact nofun
  | prepareLoad => split <;> exact nofun
  | @cancelDone k => cases k <;> exact trivial
  | requestAnswered => unfold Ask.next; split <;> exact trivial
  | requestGivenUp => unfold Ask.next; split <;> exact trivial
  | processStore => exact rfl
  | processEmpty => exact hc
  | processFront => exact hc
  | processDrop => exact hc
  | processFresh => exact hc
  | enabledLoad =>
    split
    · rename_i hboth
      exact hboth.2
    · exact trivial
  | readStatusLoad =>
    split
    · exact trivial
    · exact faultState_ne_motionEnabled _
  | applyLoad =>
    split
    · exact trivial
    · split
      · exact nofun
      · rename_i henabled
        exact not_not.mp henabled
  | _ => exact trivial

/-- Only an applied request can leave the hook pending. -/
theorem pending_next {site : Site} {changed : Bool} (h : Pending s (site.next changed)) :
    (∃ r, site = .process r) ∧ s.previousCycle = .motionEnabling ∧
      s.stateCode = .motionEnabled := by
  cases site with
  | process r => exact ⟨⟨r, rfl⟩, h⟩
  | deactivating nested => cases changed <;> cases nested <;> exact h.elim
  | deactivated nested => cases nested <;> exact h.elim
  | _ => cases changed <;> exact h.elim

variable {calls : List Method} {entered : Nat} {isOpen : Bool}

/-- One `SetStateDirectly` keeps the brackets. -/
theorem Hooked.setState {site : Site} {state : StateCode} {status : RealtimeStatus}
    (hhooked : Hooked calls entered isOpen s.stateCode False)
    (hc : Consistent s (.setState site state status))
    (h : SetOutcome s site state status l s' pc') :
    ∃ isOpen', Hooked (calls ++ l.hooks) (entered + if l.enters then 1 else 0) isOpen'
      s'.stateCode (Pending s' pc') := by
  cases h with
  | refused =>
    -- what the request saw is still so, and it was not `kMotionEnabled`
    have hnot : ¬ Pending s (site.next false) := by
      intro hp
      obtain ⟨⟨r, rfl⟩, hprevious, hcode⟩ := pending_next hp
      have hsame : s.previousCycle = s.stateCode := hc
      rw [hprevious, hcode] at hsame
      cases hsame
    refine ⟨isOpen, ?_⟩
    simpa [Label.hooks, Label.calls, Label.enters] using hhooked.keep (iff_of_false hnot id)
  | stored now hguard hother =>
    refine ⟨isOpen, ?_⟩
    by_cases henters : state = .motionEnabled
    · -- only a request leads here, and it was `kMotionEnabling` until now
      subst henters
      have hsource := eq_motionEnabling_of_guard hguard
      have hp : Pending (s.store now .motionEnabled status).2 (site.next true) := by
        cases site with
        | process r =>
          have hsame : s.previousCycle = s.stateCode := hc
          exact ⟨hsame.trans hsource, rfl⟩
        | _ => exact absurd rfl hc
      simpa [Label.hooks, Label.calls, Label.enters, hother] using hhooked.enter hother hp
    · have hnot : ¬ Pending (s.store now state status).2 (site.next true) :=
        fun hp => henters (pending_next hp).2.2
      simpa [Label.hooks, Label.calls, Label.enters, henters] using
        hhooked.move hother henters hnot
  | disabled now code stored status' hguard henabled hnow hstored =>
    have hcode' : stored ≠ .motionEnabled := by
      rcases hstored with rfl | ⟨rfl, -⟩
      · exact (ne_of_guard_allowed hguard).symm
      · exact nofun
    have hnot : ¬ Pending (s.store now stored status').2 (site.next true) :=
      fun hp => hcode' (pending_next hp).2.2
    refine ⟨false, ?_⟩
    simpa [Label.hooks, Label.calls, Label.enters] using
      hhooked.leave henabled id hcode' hnot

/-- A step without a hook that leaves the state code alone. -/
theorem Hooked.silent {code : StateCode} {pending pending' : Prop}
    (h : Hooked calls entered isOpen code pending) (hhooks : l.hooks = [])
    (henters : l.enters = false) (hiff : pending' ↔ pending) :
    ∃ isOpen', Hooked (calls ++ l.hooks) (entered + if l.enters then 1 else 0) isOpen'
      code pending' := by
  rw [hhooks, henters, List.append_nil]
  exact ⟨isOpen, h.keep hiff⟩

theorem not_pending_statusCall (k : StatusCall) (st : Status) : ¬ Pending s (k.next st) := by
  cases k with
  | prepare =>
    unfold StatusCall.next
    dsimp only
    split <;> exact id
  | action a first => exact id

theorem not_pending_realtimeCall (k : RealtimeCall) (st : RealtimeStatus) :
    ¬ Pending s (k.next st) := by
  cases k <;> unfold RealtimeCall.next <;> dsimp only <;> split <;> exact id

/-- **A step of a thread keeps the brackets**, if no other thread has a hook pending. -/
theorem Atom.hooked (h : Atom s pc l s' pc') (hc : Consistent s pc)
    (hhooked : Hooked calls entered isOpen s.stateCode (Pending s pc)) :
    ∃ isOpen', Hooked (calls ++ l.hooks) (entered + if l.enters then 1 else 0) isOpen'
      s'.stateCode (Pending s' pc') := by
  -- as long as the request has not been looked at, the hook cannot be pending
  have hsame : s.previousCycle = s.stateCode →
      ¬ (s.previousCycle = .motionEnabling ∧ s.stateCode = .motionEnabled) := by
    rintro heq ⟨hprevious, hcode⟩
    rw [hprevious, hcode] at heq
    cases heq
  cases h with
  | start cb =>
    exact hhooked.silent rfl rfl (iff_of_false (by cases cb <;> exact id) id)
  | setState disabled now hnow =>
    exact hhooked.setState hc (Atom.setOutcome (.setState disabled now hnow))
  | @statusCall k st =>
    refine hhooked.silent ?_ rfl (iff_of_false (not_pending_statusCall k st) id)
    cases k with
    | prepare => rfl
    | action a first => cases a <;> rfl
  | @realtimeCall k st =>
    have hnot : ¬ Pending s (k.next st) := not_pending_realtimeCall k st
    cases k with
    | enabled => exact ⟨true, hhooked.callEnabled trivial hnot⟩
    | applyCommand => exact ⟨true, hhooked.callApplyCommand hc id hnot⟩
    | _ => exact hhooked.silent rfl rfl (iff_of_false hnot id)
  | prepareLoad => exact hhooked.silent rfl rfl (iff_of_false (by split <;> exact id) id)
  | @cancelDone k => cases k <;> exact hhooked.silent rfl rfl Iff.rfl
  | requestAnswered =>
    exact hhooked.silent rfl rfl (iff_of_false (by unfold Ask.next; split <;> exact id) id)
  | requestGivenUp =>
    exact hhooked.silent rfl rfl (iff_of_false (by unfold Ask.next; split <;> exact id) id)
  | processNothing => exact hhooked.silent rfl rfl (iff_of_false (hsame hc) id)
  | processStale => exact hhooked.silent rfl rfl (iff_of_false (hsame hc) id)
  | enabledLoad =>
    refine hhooked.silent rfl rfl ?_
    split
    · rename_i hboth
      exact iff_of_true trivial hboth
    · rename_i hboth
      exact iff_of_false id hboth
  | readStatusLoad => exact hhooked.silent rfl rfl (iff_of_false (by split <;> exact id) id)
  | applyLoad =>
    refine hhooked.silent rfl rfl (iff_of_false ?_ id)
    split
    · exact id
    · split <;> exact id
  | _ => exact hhooked.silent rfl rfl Iff.rfl

theorem Pending.inRealtime (h : Pending s pc) : pc.inRealtime := by
  cases pc with
  | processRespond => exact ⟨_, rfl, rfl⟩
  | enabledLoad => exact ⟨_, rfl, rfl⟩
  | realtimeCall k =>
    cases k with
    | enabled => exact ⟨_, rfl, rfl⟩
    | _ => exact h.elim
  | _ => exact h.elim

/-- Outside the real-time callbacks a thread relies on nothing that changes. -/
theorem Consistent.frame (h : Consistent s pc) (hnot : ¬ pc.inRealtime) : Consistent s' pc := by
  cases pc with
  | processEmpty => exact absurd ⟨_, rfl, rfl⟩ hnot
  | processFront => exact absurd ⟨_, rfl, rfl⟩ hnot
  | processDrop => exact absurd ⟨_, rfl, rfl⟩ hnot
  | processCheck => exact absurd ⟨_, rfl, rfl⟩ hnot
  | setState site state status =>
    cases site with
    | process r => exact absurd ⟨_, rfl, rfl⟩ hnot
    | _ => exact h
  | realtimeCall k =>
    cases k with
    | enabled => exact absurd ⟨_, rfl, rfl⟩ hnot
    | applyCommand => exact absurd ⟨_, rfl, rfl⟩ hnot
    | _ => exact trivial
  | _ => exact trivial

/-- A step outside the real-time callbacks that does not set the state. -/
theorem Atom.outside (h : Atom s pc l s' pc') (hnot : ¬ pc.inRealtime)
    (hset : ∀ site state status, pc ≠ .setState site state status) :
    l.hooks = [] ∧ l.enters = false ∧ s'.stateCode = s.stateCode ∧
      s'.previousCycle = s.previousCycle ∧ ¬ Pending s' pc' := by
  cases h with
  | start cb => exact ⟨rfl, rfl, rfl, rfl, by cases cb <;> exact id⟩
  | setState => exact absurd rfl (hset _ _ _)
  | @statusCall k st =>
    refine ⟨?_, rfl, rfl, rfl, not_pending_statusCall k st⟩
    cases k with
    | prepare => rfl
    | action a first => cases a <;> rfl
  | @realtimeCall k st =>
    refine ⟨?_, rfl, rfl, rfl, not_pending_realtimeCall k st⟩
    cases k with
    | activate => rfl
    | deactivate nested => rfl
    | _ => exact absurd ⟨_, rfl, rfl⟩ hnot
  | prepareLoad => exact ⟨rfl, rfl, rfl, rfl, by split <;> exact id⟩
  | @cancelDone k => cases k <;> exact ⟨rfl, rfl, rfl, rfl, id⟩
  | requestAnswered => exact ⟨rfl, rfl, rfl, rfl, by unfold Ask.next; split <;> exact id⟩
  | requestGivenUp => exact ⟨rfl, rfl, rfl, rfl, by unfold Ask.next; split <;> exact id⟩
  | processStore => exact absurd ⟨_, rfl, rfl⟩ hnot
  | processNothing => exact absurd ⟨_, rfl, rfl⟩ hnot
  | processStale => exact absurd ⟨_, rfl, rfl⟩ hnot
  | processRespond => exact absurd ⟨_, rfl, rfl⟩ hnot
  | enabledLoad => exact absurd ⟨_, rfl, rfl⟩ hnot
  | readStatusLoad => exact absurd ⟨_, rfl, rfl⟩ hnot
  | applyLoad => exact absurd ⟨_, rfl, rfl⟩ hnot
  | _ => exact ⟨rfl, rfl, rfl, rfl, id⟩

theorem SetOutcome.leaves {site : Site} {state : StateCode} {status : RealtimeStatus}
    (h : SetOutcome s site state status l s' pc') :
    l.hooks.count .disabled = if l.leaves then 1 else 0 := by
  cases h with
  | refused => simp [Label.leaves, Label.hooks, Label.calls]
  | stored now hguard hother => simp [Label.leaves, Label.hooks, Label.calls, hother]
  | disabled now code stored status' hguard henabled hnow hstored =>
    have hne : stored ≠ .motionEnabled := by
      rcases hstored with rfl | ⟨rfl, -⟩
      · exact (ne_of_guard_allowed hguard).symm
      · exact nofun
    simp [Label.leaves, Label.hooks, Label.calls, hne]

/-- `Disabled()` is called in exactly the steps that leave `kMotionEnabled`. -/
theorem Atom.leaves (h : Atom s pc l s' pc') :
    l.hooks.count .disabled = if l.leaves then 1 else 0 := by
  cases h with
  | setState disabled now hnow => exact (Atom.setOutcome (.setState disabled now hnow)).leaves
  | @statusCall k st =>
    cases k with
    | prepare => rfl
    | action a first => cases a <;> rfl
  | @realtimeCall k st => cases k <;> rfl
  | _ => rfl

end Thread

/-! ## Every run -/

section Run
variable {Tid : Type} [DecidableEq Tid] {w : List (Tid × Label)} {c d : Config Tid}
  {x : Tid × Label}

/-- The number of entries into `kMotionEnabled` along a word. -/
def entries (w : List (Tid × Label)) : Nat := w.countP fun x => x.2.enters

/-- The number of exits from `kMotionEnabled` along a word. -/
def exits (w : List (Tid × Label)) : Nat := w.countP fun x => x.2.leaves

omit [DecidableEq Tid] in
theorem entries_snoc (w : List (Tid × Label)) (x : Tid × Label) :
    entries (w ++ [x]) = entries w + if x.2.enters then 1 else 0 := by
  simp [entries, List.countP_append, List.countP_singleton]

/-- **The invariant.**  At most one thread is in a real-time callback, every thread can rely
on what it relies on, and the calls so far fit the state. -/
structure HookInv (w : List (Tid × Label)) (c : Config Tid) : Prop where
  exclusive : AtMostOne Pc.inRealtime c.locals
  consistent : ∀ t, Consistent c.shared (c.locals t)
  hooked : ∃ isOpen, Hooked (hookCalls w) (entries w) isOpen c.shared.stateCode
    (∃ t, Pending c.shared (c.locals t))

omit [DecidableEq Tid] in
theorem hookInv_initial (now : Nat) : HookInv [] (initial Tid now) where
  exclusive := by rintro t u ⟨k, hk, -⟩; cases hk
  consistent _ := trivial
  hooked := by
    refine ⟨false, .nil, ?_, ?_, ?_, fun _ => rfl⟩
    · exact iff_of_false nofun nofun
    · rintro ⟨t, ht⟩
      exact ht.elim
    · rintro ⟨t, ht⟩
      exact ht.elim

/-- A thread enters a real-time callback only while no other thread is in one. -/
theorem AtMostOne.realtime {t : Tid} {l : Label} {s' : Shared} {pc' : Pc}
    (h : AtMostOne Pc.inRealtime c.locals) (hok : Documented c t l)
    (hatom : Atom c.shared (c.locals t) l s' pc') :
    AtMostOne Pc.inRealtime (Function.update c.locals t pc') := by
  refine @AtMostOne.inTask _ _ _ Task.realtime _ _ _ _ h hatom ?_
  rintro cb rfl hkind
  cases cb with
  | readStatus => exact hok
  | applyCommand => exact hok
  | _ => cases hkind

theorem HookInv.step (h : HookInv w c) (hs : Step Documented c x d) : HookInv (w ++ [x]) d := by
  cases hs with
  | @mk t l s' pc' hok hatom =>
    obtain ⟨isOpen, hhooked⟩ := h.hooked
    have hexclusive := AtMostOne.realtime h.exclusive hok hatom
    by_cases halone : ∀ u, u ≠ t → ¬ (c.locals u).inRealtime
    · -- no other thread has a hook pending or relies on the state
      refine ⟨hexclusive, forall_update _ (hatom.consistent (h.consistent t)) fun u hu =>
        (h.consistent u).frame (halone u hu), ?_⟩
      have hbefore : Pending c.shared (c.locals t) ↔ ∃ u, Pending c.shared (c.locals u) := by
        refine ⟨fun hp => ⟨t, hp⟩, ?_⟩
        rintro ⟨u, hu⟩
        by_cases hut : u = t
        · exact hut ▸ hu
        · exact absurd hu.inRealtime (halone u hut)
      have hafter : (∃ u, Pending s' (Function.update c.locals t pc' u)) ↔ Pending s' pc' := by
        refine ⟨?_, fun hp => ⟨t, by rwa [Function.update_self]⟩⟩
        rintro ⟨u, hu⟩
        obtain ⟨-, hp⟩ | ⟨hut, hp⟩ := of_update hu
        · exact hp
        · exact absurd hp.inRealtime (halone u hut)
      obtain ⟨isOpen', hhooked'⟩ := hatom.hooked (h.consistent t) (hhooked.keep hbefore)
      rw [hookCalls_snoc, entries_snoc]
      exact ⟨isOpen', hhooked'.keep hafter⟩
    · -- another thread is in a real-time callback, so this one is not and sets no state
      have hnot : ¬ (c.locals t).inRealtime := by
        intro hrt
        exact halone fun u hu hu' => hu (h.exclusive u t hu' hrt)
      have hset : ∀ site state status, c.locals t ≠ .setState site state status := by
        intro site state status heq
        rw [heq] at hatom
        cases hatom with
        | setState => exact halone hok
      obtain ⟨hhooks, henters, hcode, hprevious, hnotPending⟩ := hatom.outside hnot hset
      have hsame : ∀ pc, Pending s' pc ↔ Pending c.shared pc := by
        intro pc
        unfold Pending
        rw [hcode, hprevious]
      have hconsistent : ∀ pc, Consistent c.shared pc → Consistent s' pc := by
        intro pc
        unfold Consistent
        rw [hcode, hprevious]
        exact id
      have hpending : (∃ u, Pending s' (Function.update c.locals t pc' u)) ↔
          ∃ u, Pending c.shared (c.locals u) := by
        constructor
        · rintro ⟨u, hu⟩
          obtain ⟨-, hp⟩ | ⟨-, hp⟩ := of_update hu
          · exact absurd hp hnotPending
          · exact ⟨u, (hsame _).mp hp⟩
        · rintro ⟨u, hu⟩
          have hut : u ≠ t := by
            rintro rfl
            exact hnot hu.inRealtime
          exact ⟨u, by rw [Function.update_of_ne hut]; exact (hsame _).mpr hu⟩
      refine ⟨hexclusive, forall_update _ (hatom.consistent (h.consistent t)) fun u _ =>
        hconsistent _ (h.consistent u), ?_⟩
      rw [hookCalls_snoc, entries_snoc]
      obtain ⟨isOpen', hhooked'⟩ := hhooked.silent hhooks henters hpending
      exact ⟨isOpen', hcode.symm ▸ hhooked'⟩

theorem hookInv_run {now : Nat} (h : Run (Step Documented) (initial Tid now) w c) : HookInv w c :=
  h.invariant (hookInv_initial now) fun _ _ _ _ hi hs => hi.step hs

theorem count_disabled {ok : Config Tid → Tid → Label → Prop} {now : Nat}
    (h : Run (Step ok) (initial Tid now) w c) : exits w = (hookCalls w).count .disabled := by
  refine h.invariant (I := fun w _ => exits w = (hookCalls w).count .disabled) rfl ?_
  rintro w c ⟨t, l⟩ d hi hs
  have hlabel := hs.atomic.2.1.leaves
  rw [hookCalls_snoc, List.count_append, hlabel, ← hi]
  simp [exits, List.countP_append, List.countP_singleton]

/-- **The hooks are bracketed.**  In every run of the documented use, the calls of
`Enabled()`, `ApplyCommand()` and `Disabled()` are a word of `(Enabled ApplyCommand*
Disabled)*`, possibly cut short; `Disabled()` was called once per exit from
`kMotionEnabled`, and `Enabled()` once per entry as soon as no real-time callback is
running. -/
theorem hooks_bracketed {now : Nat} (h : Run (Step Documented) (initial Tid now) w c) :
    (∃ rest, hookCalls w ++ rest ∈ brackets Method.enabled .applyCommand .disabled) ∧
      (hookCalls w).count .disabled = exits w ∧
      ((∀ t, ¬ (c.locals t).inRealtime) → (hookCalls w).count .enabled = entries w) := by
  obtain ⟨isOpen, hhooked⟩ := (hookInv_run h).hooked
  refine ⟨hhooked.word.exists_complete, (count_disabled h).symm, fun hnone => ?_⟩
  refine (hhooked.done ?_).symm
  rintro ⟨t, ht⟩
  exact hnone t ht.inRealtime

end Run

/-! ## Enabling motion -/

/-- The second request of `OnEnableMotion`. -/
def enabledRequest : Request := (Ask.complete .enableMotion 0 okStatus).request 1 0

/-- The two cycles that work off its requests, and what `OnEnableMotion` does in
between. -/
def enabling : List (Bool × Label) :=
  [(true, .start .readStatus), (true, .internal), (true, .empty false),
    (true, .front enableRequest), (true, .dropFront), (true, .check enableRequest true),
    (true, .setState (.process enableRequest) .activated .motionEnabling true none),
    (true, .respond 0 rtOkStatus), (true, .internal), (true, .call .readStatus .ok),
    (false, .waited 0 true), (false, .call .enableMotion .ok), (false, .internal),
    (false, .internal), (false, .internal), (false, .insert enabledRequest (some 0)),
    (true, .start .readStatus), (true, .internal), (true, .empty false),
    (true, .front enabledRequest), (true, .dropFront), (true, .check enabledRequest true),
    (true, .setState (.process enabledRequest) .motionEnabling .motionEnabled true none),
    (true, .respond 1 rtOkStatus), (true, .internal), (true, .call .enabled .ok),
    (true, .call .readStatus .ok)]

theorem documented_first {s : Shared} {pc : Pc} {l : Label} :
    Documented (Pool.two s pc .idle) false l := by
  unfold Documented
  split
  any_goals exact trivial
  all_goals
    rintro (_ | _) hu ⟨k, hk, -⟩
    · exact hu rfl
    · cases hk

theorem documented_second {s : Shared} {pc pc' : Pc} {l : Label} (h : pc.task = some .action) :
    Documented (Pool.two s pc pc') true l := by
  unfold Documented
  split
  any_goals exact trivial
  all_goals
    rintro (_ | _) hu ⟨k, hk, hrt⟩
    · rw [show (Pool.two s pc pc').locals false = pc from rfl, h] at hk
      cases hk
      cases hrt
    · exact hu rfl

theorem asked_run : Run (Step Documented) (initial Bool 0) (activation ++ asking)
    (Pool.two asked (.requestWait (Ask.begin .enableMotion .activated) 0) .idle) :=
  (activation_run fun _ _ _ _ => documented_first).append
    (asking_run fun _ _ _ _ => documented_first)

/-- Motion is enabled, and the second request of `OnEnableMotion` has been answered. -/
structure Enabled (s : Shared) : Prop where
  code : s.stateCode = .motionEnabled
  queue : s.requestQueue = []
  accessed : s.frontAccessed = false
  reply : s.replies 1 = some rtOkStatus
  nextId : s.nextId = 2
  accepts : s.rejectNewRequests = false
  unlocked : s.nonRtBufferLock = false
  updateTime : s.updateTime = 0
  clock : s.clock = 0

/-- Of this run only what the callers promise is left open. -/
theorem enabling_run {ok : Config Bool → Bool → Label → Prop}
    (hfirst : ∀ s pc l, ok (Pool.two s pc .idle) false l)
    (hsecond : ∀ s pc pc' l, pc.task = some .action → ok (Pool.two s pc pc') true l) :
    ∃ s, Run (Step ok) (initial Bool 0) (activation ++ asking ++ enabling)
      (Pool.two s (.requestWait (.complete .enableMotion 0 okStatus) 1) .idle) ∧ Enabled s := by
  have hasked := (activation_run fun s pc l _ => hfirst s pc l).append
    (asking_run fun s pc l _ => hfirst s pc l)
  apply Exists.intro
  refine ⟨hasked.append ?_, ?_⟩
  · refine taking_run (fun _ _ _ => hsecond _ _ _ _ rfl) rfl rfl ?_
    refine .cons (.second (hsecond _ _ _ _ rfl) (.processFresh rfl)) ?_
    refine .cons (.second (hsecond _ _ _ _ rfl) (.stores 0 rfl nofun (Nat.le_refl _))) ?_
    refine .cons (.second (hsecond _ _ _ _ rfl) .processRespond) ?_
    refine .cons (.second (hsecond _ _ _ _ rfl) .enabledLoad) ?_
    refine .cons (.second (hsecond _ _ _ _ rfl) (.realtimeCall rtOkStatus)) ?_
    refine .cons (.first (hfirst _ _ _) (@Atom.requestAnswered _ _ 0 rtOkStatus rfl)) ?_
    refine .cons (.first (hfirst _ _ _) (.statusCall okStatus)) ?_
    refine inserting_run hfirst rfl rfl rfl rfl (by decide) ?_
    refine taking_run (fun _ _ _ => hsecond _ _ _ _ rfl) rfl rfl ?_
    refine .cons (.second (hsecond _ _ _ _ rfl) (.processFresh rfl)) ?_
    refine .cons (.second (hsecond _ _ _ _ rfl) (.stores 0 rfl nofun (Nat.le_refl _))) ?_
    refine .cons (.second (hsecond _ _ _ _ rfl) .processRespond) ?_
    refine .cons (.second (hsecond _ _ _ _ rfl) .enabledLoad) ?_
    refine .cons (.second (hsecond _ _ _ _ rfl) (.realtimeCall rtOkStatus)) ?_
    exact .single (.second (hsecond _ _ _ _ rfl) (.realtimeCall rtOkStatus))
  · exact ⟨rfl, rfl, rfl, rfl, rfl, rfl, rfl, rfl, rfl⟩

/-- Once motion is enabled, `Enabled()` has been called once. -/
theorem hooks_bracketed_enabling : ∃ c, Run (Step Documented) (initial Bool 0)
      (activation ++ asking ++ enabling) c ∧ c.shared.stateCode = .motionEnabled ∧
    (hookCalls (activation ++ asking ++ enabling)).count .enabled = 1 := by
  obtain ⟨s, hrun, henabled⟩ := enabling_run (fun _ _ _ => documented_first)
    fun _ _ _ _ => documented_second
  refine ⟨_, hrun, henabled.code, ((hooks_bracketed hrun).2.2 ?_).trans (by decide)⟩
  rintro (_ | _) ⟨k, hk, hrt⟩
  · cases hk
    cases hrt
  · cases hk

end Intrinsic.CallbackHandler
