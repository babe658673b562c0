import IconSharedMemory.Lockstep
import Mathlib.Tactic.Cases

/-! # The realtime clock

`RealtimeClock` (`icon/hal/realtime_clock.h`) drives the control cycle.  Its owner is
in operation A of a lockstep all the time it is *not* inside `TickBlockingWithDeadline`:
the constructor starts operation A, a tick ends it, lets ICON have its operation B, and
starts A again.  `Reset` recovers from a tick that failed.

The model has the owner's thread, ICON's thread and the lockstep between them.  The
owner's program is a sequence of calls to the lockstep; `Phase` says which one is next
or running, and every step inside a call is a step of `Lockstep.Atom`.  The owner
follows the documentation: it ticks only after its last call succeeded, so a failed
tick is followed by `Reset`.  ICON starts and ends operation B over and over.

`Reset` cancels the lockstep and resets it whether or not ICON is still in operation B,
which is the usual reason why a tick fails.  So both sides can be in their operations at
once, and the next tick writes the cycle's start time under ICON's eyes
(`reset_overlaps_control_cycle`).  A `Reset` that cancels while ICON is outside
operation B is safe (`clock_and_cycle_exclusive`).
-/
namespace Intrinsic.RealtimeClock
open Runs Lockstep

/-! ## The model -/

/-- The functions of a lockstep. -/
inductive Call
  | startOperationA | endOperationA | startOperationB | endOperationB | cancel | reset
  deriving DecidableEq, Repr

/-- The function a step of the lockstep belongs to. -/
def callOf : Lockstep.Label → Call
  | .startWait .a _ | .startOk .a | .startCancelled .a | .startRefused .a | .startRepost .a =>
    .startOperationA
  | .startWait .b _ | .startOk .b | .startCancelled .b | .startRefused .b | .startRepost .b =>
    .startOperationB
  | .endALoad | .endACancelled | .endAReload | .endARefused | .endAStore | .endAPost _ =>
    .endOperationA
  | .endBOk | .endBCancelled | .endBRefused | .endBPost _ => .endOperationB
  | .cancelStore | .cancelPostA | .cancelPostB => .cancel
  | .resetCheck | .resetRefused | .resetWaitA _ | .resetWaitB _ | .resetStore | .resetPost _ =>
    .reset

/-- Where the owner is. -/
inductive Phase
  /-- In the constructor. -/
  | constructing
  /-- The constructor's start failed, which is fatal. -/
  | aborted
  /-- Between calls, the last of which succeeded: the owner is in operation A. -/
  | ready
  /-- Between calls, the last of which failed. -/
  | failed
  /-- `TickBlockingWithDeadline`: the timestamp is written, `EndOperationA` is next. -/
  | tickEnd
  | tickStart
  /-- `Reset` -/
  | resetCancel
  | resetReset
  /-- `Reset`, with the status of the lockstep's `Reset`. -/
  | resetStart (resetStatus : RealtimeStatus)
  /-- In the destructor. -/
  | destructing
  | destroyed
  deriving DecidableEq, Repr

/-- The call to the lockstep the owner is in. -/
def Phase.call : Phase → Option Call
  | .constructing | .tickStart | .resetStart _ => some .startOperationA
  | .tickEnd | .destructing => some .endOperationA
  | .resetCancel => some .cancel
  | .resetReset => some .reset
  | .aborted | .ready | .failed | .destroyed => none

/-- Between two calls. -/
def Phase.atRest : Phase → Prop
  | .ready | .failed => True
  | _ => False

/-- What the owner does once its call to the lockstep has returned `st`. -/
def Phase.returned (st : RealtimeStatus) : Phase → Phase
  | .constructing => if st.isOk then .ready else .aborted
  | .tickEnd => if st.isOk then .tickStart else .failed
  | .tickStart => if st.isOk then .ready else .failed
  | .resetReset => .resetStart st
  -- a failure of the lockstep's `Reset` is what is returned
  | .resetStart resetStatus => if resetStatus.isOk && st.isOk then .ready else .failed
  | .destructing => .destroyed
  | p => p

/-- The phase after a step of the owner inside the lockstep; `Cancel` returns nothing. -/
def Phase.next (p : Phase) (l : Lockstep.Label) : Phase :=
  match l, l.returns with
  | .cancelPostB, _ => .resetReset
  | _, some st => p.returned st
  | _, none => p

/-- The lockstep, the clock update segment, the owner and ICON. -/
structure Config where
  lockstep : Lockstep.Shared
  cycleStartNanoseconds : Int
  phase : Phase
  owner : Thread
  icon : Thread

/-- The segments have their default values and the constructor is running. -/
def initial : Config := ⟨.init, 0, .constructing, .init, .init⟩

/-- The steps: the owner calls `TickBlockingWithDeadline`, which first writes the
timestamp, or `Reset` or the destructor; the owner or ICON takes a step inside the
lockstep, and the label of the owner's step has the phase it leads to. -/
inductive Label
  | tick (timestamp : Int)
  | reset
  | destroy
  | owner (l : Lockstep.Label) (next : Phase)
  | icon (l : Lockstep.Label)

/-- ICON ends an operation B it has started, and starts one when it has none. -/
def IconCalls (th : Thread) (l : Lockstep.Label) : Prop :=
  (callOf l = .startOperationB ∧ th.held = []) ∨
    (callOf l = .endOperationB ∧ (th.pc = .idle → Side.b ∈ th.held))

/-- One step.  `ok` is a further promise about the owner's steps. -/
inductive Step (ok : Config → Lockstep.Label → Prop) : Config → Label → Config → Prop
  | tick {c : Config} (timestamp : Int) (hphase : c.phase = .ready) :
      Step ok c (.tick timestamp)
        { c with cycleStartNanoseconds := timestamp, phase := .tickEnd }
  | reset {c : Config} (hphase : c.phase.atRest) :
      Step ok c .reset { c with phase := .resetCancel }
  | destroy {c : Config} (hphase : c.phase.atRest) :
      Step ok c .destroy { c with phase := .destructing }
  | owner {c : Config} {l : Lockstep.Label} {s : Lockstep.Shared} {th : Thread} (hok : ok c l)
      (hcall : c.phase.call = some (callOf l)) (hatom : Atom c.lockstep c.owner l s th) :
      Step ok c (.owner l (c.phase.next l))
        { c with lockstep := s, owner := th, phase := c.phase.next l }
  | icon {c : Config} {l : Lockstep.Label} {s : Lockstep.Shared} {th : Thread}
      (hcall : IconCalls c.icon l) (hatom : Atom c.lockstep c.icon l s th) :
      Step ok c (.icon l) { c with lockstep := s, icon := th }

/-- ICON is in operation B: between a successful `StartOperationB` and the return of
its `EndOperationB`. -/
def InB (c : Config) : Prop := Side.b ∈ c.icon.held ∨ c.icon.pc = .endBPost

/-- The step returns from `EndOperationB`. -/
def Label.endsB : Label → Bool
  | .icon (.endBPost _) | .icon .endBCancelled | .icon .endBRefused => true
  | _ => false

/-- The owner follows the documentation, and nothing more is promised. -/
def Documented (_ : Config) (_ : Lockstep.Label) : Prop := True

/-- The `Cancel` of `Reset` stores `kCancelled` while ICON is not in operation B. -/
def CancelOutsideB (c : Config) (l : Lockstep.Label) : Prop := l = .cancelStore → ¬ InB c

/-! ## One token for the way from B to A

The owner comes into operation A only with the token of `b_finished_`.  It lies in
that futex, or the owner carries it (between its wait and its compare-exchange, or
inside the lockstep's `Reset`), or ICON does (at the `Post` of `EndOperationB`), or it
is used up while A and B take their turns. -/

/-- The owner carries the token of `b_finished_`. -/
def carriesB : Pc → Bool
  | .startCas _ | .resetStore | .resetPost => true
  | _ => false

/-- A and B are taking their turns. -/
def midCycle : State → Bool
  | .aRunning | .aFinished | .bRunning => true
  | _ => false

/-- The tokens for the way from B to A that are not with ICON. -/
def ownTokens (s : Lockstep.Shared) (pc : Pc) : Nat :=
  (decide (s.bFinished = .posted)).toNat + (carriesB pc).toNat + (midCycle s.state).toNat

/-- The tokens for the way from B to A. -/
def bTokens (c : Config) : Nat :=
  ownTokens c.lockstep c.owner.pc + (decide (c.icon.pc = .endBPost)).toNat

/-- The owner is at a point that it reaches, and leaves, with a cancelled lockstep. -/
def cancelling : Pc → Prop
  | .startRepost _ | .cancelPostA | .cancelPostB | .resetWaitA | .resetWaitB | .resetStore => True
  | _ => False

/-- Where ICON can be. -/
inductive IconPlace (s : State) : Thread → Prop
  | idle : IconPlace s ⟨[], .idle⟩
  | startCas : IconPlace s ⟨[], .startCas .b⟩
  | startRepost : IconPlace s ⟨[], .startRepost .b⟩
  | inB (hs : s = .bRunning) : IconPlace s ⟨[.b], .idle⟩
  | endBPost (hs : s ≠ .cancelled) : IconPlace s ⟨[], .endBPost⟩

/-- **The clock's invariant**, as long as nobody cancels during operation B. -/
structure Inv (c : Config) : Prop where
  oneToken : bTokens c ≤ 1
  icon : IconPlace c.lockstep.state c.icon
  ending : c.owner.pc = .endAStore → c.lockstep.state = .aRunning
  cancelling : cancelling c.owner.pc → c.lockstep.state = .cancelled
  ready : c.phase = .ready → c.lockstep.state = .aRunning

theorem inv_initial : Inv initial where
  oneToken := by decide
  icon := .idle
  ending := nofun
  cancelling h := h.elim
  ready := nofun

variable {c d : Config} {l : Lockstep.Label} {s : Lockstep.Shared} {th : Thread}

/-- **In operation A the owner is alone.** -/
theorem Inv.exclusive (h : Inv c) (hready : c.phase = .ready) : ¬ InB c := by
  obtain ⟨⟨_, _, st⟩, _, _, _, ic⟩ := c
  obtain rfl : st = .aRunning := h.ready hready
  have hone := h.oneToken
  intro hB
  cases h.icon with
  | inB hs => cases hs
  | endBPost _ =>
    simp only [bTokens, ownTokens, midCycle, decide_true, Bool.toNat_true] at hone
    omega
  | _ => rcases hB with hB | hB <;> cases hB

/-- The three ways in which a step inside the lockstep leads on. -/
theorem next_cases (p : Phase) (l : Lockstep.Label) :
    p.next l = .resetReset ∨ p.next l = p ∨
      ∃ st, l.returns = some st ∧ p.next l = p.returned st := by
  unfold Phase.next
  split
  · exact .inl rfl
  · rename_i st _ hst
    exact .inr (.inr ⟨st, hst, rfl⟩)
  · exact .inr (.inl rfl)

/-- Only a successful start of operation A makes the owner ready. -/
theorem startOk_of_ready {p : Phase} (hcall : p.call = some (callOf l))
    (h : p.next l = .ready) : l = .startOk .a := by
  obtain hnext | hnext | ⟨st, hst, hnext⟩ := next_cases p l <;> rw [hnext] at h
  · cases h
  · rw [h] at hcall
    cases hcall
  · -- the call returned ok, and it was a start
    have hok : st.isOk = true ∧ p.call = some .startOperationA := by
      cases hok : st.isOk <;> cases p <;> simp_all [Phase.returned, Phase.call]
    have hl : callOf l = .startOperationA := Option.some.inj (hcall.symm.trans hok.2)
    cases l with
    | startOk x => cases x with
      | a => rfl
      | b => cases hl
    | startWait x st' =>
      by_cases hok' : st'.isOk = true <;> simp only [Label.returns, hok'] at hst
      · cases hst
      · obtain rfl := Option.some.inj hst
        exact absurd hok.1 hok'
    | startRepost x | startRefused x =>
      cases x <;> obtain rfl := Option.some.inj hst <;> cases hok.1
    | startCancelled x => cases hst
    | _ => cases hl

/-- ICON's place survives a change of state that neither ends operation B nor
cancels. -/
theorem IconPlace.change {st st' : State} (h : IconPlace st th) (hs : st ≠ .bRunning)
    (hs' : st' ≠ .cancelled) : IconPlace st' th := by
  cases h with
  | inB hst => exact absurd hst hs
  | endBPost => exact .endBPost hs'
  | idle => exact .idle
  | startCas => exact .startCas
  | startRepost => exact .startRepost

/-- Outside operation B ICON's place does not depend on the state. -/
theorem IconPlace.outside {st : State} (h : IconPlace st th) (hheld : Side.b ∉ th.held)
    (hpc : th.pc ≠ .endBPost) (st' : State) : IconPlace st' th := by
  cases h with
  | inB => exact absurd (List.mem_cons_self ..) hheld
  | endBPost => exact absurd rfl hpc
  | idle => exact .idle
  | startCas => exact .startCas
  | startRepost => exact .startRepost

/-- While the lockstep is cancelled ICON is outside operation B. -/
theorem IconPlace.of_cancelled (h : IconPlace .cancelled th) :
    Side.b ∉ th.held ∧ th.pc ≠ .endBPost := by
  cases h with
  | inB hs => cases hs
  | endBPost hs => exact absurd rfl hs
  | _ => exact ⟨List.not_mem_nil, nofun⟩

/-- A step of the owner that gains no token. -/
theorem Inv.owner_move (h : Inv c) {p : Phase}
    (htoken : ownTokens s th.pc ≤ ownTokens c.lockstep c.owner.pc)
    (hicon : IconPlace s.state c.icon) (hending : th.pc = .endAStore → s.state = .aRunning)
    (hcancelling : RealtimeClock.cancelling th.pc → s.state = .cancelled)
    (hready : p = .ready → s.state = .aRunning) :
    Inv { c with lockstep := s, owner := th, phase := p } where
  oneToken := Nat.le_trans (Nat.add_le_add_right htoken _) h.oneToken
  icon := hicon
  ending := hending
  cancelling := hcancelling
  ready := hready

/-- A step of the owner that changes neither the state nor `b_finished_`. -/
theorem Inv.owner_frame (h : Inv c) {p : Phase} (hstate : s.state = c.lockstep.state)
    (hb : s.bFinished = c.lockstep.bFinished) (hcarries : carriesB th.pc = false)
    (hending : th.pc = .endAStore → c.lockstep.state = .aRunning)
    (hcancelling : RealtimeClock.cancelling th.pc → c.lockstep.state = .cancelled)
    (hready : p = .ready → c.lockstep.state = .aRunning) :
    Inv { c with lockstep := s, owner := th, phase := p } := by
  refine h.owner_move ?_ (hstate ▸ h.icon) (fun he => hstate.trans (hending he))
    (fun hc => hstate.trans (hcancelling hc)) (fun hp => hstate.trans (hready hp))
  simp only [ownTokens, hstate, hb, hcarries, Bool.toNat_false]
  omega

/-- The owner posts `b_finished_` while the lockstep is cancelled. -/
theorem Inv.owner_post (h : Inv c) {p : Phase} (hs : c.lockstep.state = .cancelled)
    (hstate : s.state = c.lockstep.state) (hcarries : carriesB th.pc = false)
    (hending : th.pc ≠ .endAStore) (hready : p ≠ .ready) :
    Inv { c with lockstep := s, owner := th, phase := p } where
  oneToken := by
    have hicon := (hs ▸ h.icon).of_cancelled.2
    have hle := Bool.toNat_le (decide (s.bFinished = .posted))
    simp only [bTokens, ownTokens, hstate, hs, hcarries, hicon, midCycle, decide_false,
      Bool.toNat_false]
    omega
  icon := hstate ▸ h.icon
  ending he := absurd he hending
  cancelling _ := hstate.trans hs
  ready hp := absurd hp hready

/-- A wait of the owner on `b_finished_` that goes to a point where it carries the
token if it got it, and to `idle` otherwise. -/
theorem Inv.owner_wait (h : Inv c) {p : Phase} {f : BinaryFutex} {st : RealtimeStatus} {pc : Pc}
    (hwait : c.lockstep.bFinished.Wait f st)
    (hcarries : carriesB c.owner.pc = false) (hpc : carriesB pc = true) (hne : pc ≠ .endAStore)
    (hcancelling : RealtimeClock.cancelling pc → c.lockstep.state = .cancelled)
    (hready : p = .ready → c.lockstep.state = .aRunning) :
    Inv { c with
      lockstep := { c.lockstep with bFinished := f },
      owner := { c.owner with pc := if st.isOk then pc else .idle }, phase := p } := by
  by_cases hok : st.isOk = true
  · obtain ⟨hposted, rfl⟩ := hwait.ok hok
    rw [if_pos hok]
    refine h.owner_move ?_ h.icon (fun he => absurd he hne) hcancelling hready
    simp only [ownTokens, hposted, hcarries, hpc]
    exact Nat.le_refl _
  · obtain rfl := hwait.notOk (Bool.eq_false_iff.mpr hok)
    rw [if_neg hok]
    exact h.owner_frame rfl rfl rfl nofun (fun hc => hc.elim) hready

/-- **Every step of the owner keeps the invariant.** -/
theorem Inv.owner_step (h : Inv c) (hok : CancelOutsideB c l)
    (hcall : c.phase.call = some (callOf l)) (hatom : Atom c.lockstep c.owner l s th) :
    Inv { c with lockstep := s, owner := th, phase := c.phase.next l } := by
  have hready : l ≠ .startOk .a → c.phase.next l = .ready → c.lockstep.state = .aRunning :=
    fun hne hn => absurd (startOk_of_ready hcall hn) hne
  have hnotB : callOf l ≠ .startOperationB ∧ callOf l ≠ .endOperationB := by
    constructor <;> intro he <;> rw [he] at hcall <;> cases hp : c.phase <;> rw [hp] at hcall <;>
      cases hcall
  cases hatom with
  | startWait x f st hpc hwait =>
    cases x with
    | b => exact absurd rfl hnotB.1
    | a => exact h.owner_wait hwait (by rw [hpc]; rfl) rfl nofun (fun hc => hc.elim) (hready nofun)
  | startOk x hpc hs =>
    cases x with
    | b => exact absurd rfl hnotB.1
    | a =>
      refine h.owner_move ?_ (h.icon.change (by rw [hs]; exact nofun) nofun) nofun
        (fun hc => hc.elim) (fun _ => rfl)
      simp only [ownTokens, hpc, hs]
      exact Nat.le_refl _
  | startCancelled x hpc hs =>
    exact h.owner_frame rfl rfl rfl nofun (fun _ => hs) (hready nofun)
  | startRefused x hpc hs hc =>
    exact h.owner_frame rfl rfl rfl nofun (fun hc => hc.elim) (hready nofun)
  | startRepost x hpc =>
    have hs := h.cancelling (by rw [hpc]; trivial)
    refine h.owner_post hs (x.setAwaited_state ..) rfl nofun fun hp => ?_
    rw [hready nofun hp] at hs
    cases hs
  | endAStore hpc =>
    have hs := h.ending hpc
    refine h.owner_move ?_ (h.icon.change (by rw [hs]; exact nofun) nofun) nofun
      (fun hc => hc.elim) (fun hp => absurd (startOk_of_ready hcall hp) nofun)
    simp only [ownTokens, hpc, hs]
    exact Nat.le_refl _
  | endBOk | endBCancelled | endBRefused | endBPost => exact absurd rfl hnotB.2
  | cancelStore hpc =>
    obtain ⟨hheld, hpost⟩ := not_or.mp (hok rfl)
    refine h.owner_move ?_ (h.icon.outside hheld hpost _) nofun (fun _ => rfl)
      (fun hp => absurd (startOk_of_ready hcall hp) nofun)
    simp only [ownTokens, hpc, carriesB, midCycle, Bool.toNat_false]
    omega
  | cancelPostB hpc =>
    have hs := h.cancelling (by rw [hpc]; trivial)
    refine h.owner_post hs rfl rfl nofun fun hp => ?_
    rw [hready nofun hp] at hs
    cases hs
  | resetWaitA f st hpc hwait =>
    have hs := h.cancelling (by rw [hpc]; trivial)
    refine h.owner_frame rfl rfl ?_ ?_ (fun _ => hs) (hready nofun) <;> dsimp only <;> split <;>
      first | rfl | exact nofun
  | resetWaitB f st hpc hwait =>
    have hs := h.cancelling (by rw [hpc]; trivial)
    exact h.owner_wait hwait (by rw [hpc]; rfl) rfl nofun (fun _ => hs) (hready nofun)
  | resetStore hpc =>
    have hs := h.cancelling (by rw [hpc]; trivial)
    refine h.owner_move ?_ (h.icon.change (by rw [hs]; exact nofun) nofun) nofun
      (fun hc => hc.elim) (fun hp => absurd (startOk_of_ready hcall hp) nofun)
    simp only [ownTokens, hpc, hs]
    exact Nat.le_refl _
  | resetPost hpc =>
    refine h.owner_move ?_ h.icon nofun (fun hc => hc.elim) (hready nofun)
    have hle := Bool.toNat_le (decide ((c.lockstep.bFinished.post).1 = .posted))
    simp only [ownTokens, hpc, carriesB, Bool.toNat_true, Bool.toNat_false]
    omega
  | endAReload hpc hs =>
    exact h.owner_frame rfl rfl rfl (fun _ => hs) (fun hc => hc.elim) (hready nofun)
  | cancelPostA hpc =>
    exact h.owner_frame rfl rfl rfl nofun (fun _ => h.cancelling (by rw [hpc]; trivial))
      (hready nofun)
  | resetCheck hpc hs => exact h.owner_frame rfl rfl rfl nofun (fun _ => hs) (hready nofun)
  | endACancelled | endALoad | endARefused | endAPost | resetRefused =>
    exact h.owner_frame rfl rfl rfl nofun (fun hc => hc.elim) (hready nofun)

/-- A step of ICON that keeps the state and `b_finished_`. -/
theorem Inv.icon_frame (h : Inv c) (hstate : s.state = c.lockstep.state)
    (hb : s.bFinished = c.lockstep.bFinished) (hpc : th.pc ≠ .endBPost)
    (hplace : IconPlace c.lockstep.state th) : Inv { c with lockstep := s, icon := th } where
  oneToken := by
    have hone := h.oneToken
    simp only [bTokens, ownTokens, hstate, hb, hpc, decide_false, Bool.toNat_false] at hone ⊢
    omega
  icon := hstate ▸ hplace
  ending he := hstate.trans (h.ending he)
  cancelling hc := hstate.trans (h.cancelling hc)
  ready hp := hstate.trans (h.ready hp)

/-- ICON changes the state, from one of the states the owner does not rely on. -/
theorem Inv.icon_state (h : Inv c) {st : State}
    (hold : c.lockstep.state = .aFinished ∨ c.lockstep.state = .bRunning)
    (hplace : IconPlace st th)
    (htoken : bTokens { c with lockstep := { c.lockstep with state := st }, icon := th } ≤ 1) :
    Inv { c with lockstep := { c.lockstep with state := st }, icon := th } := by
  have hrun : c.lockstep.state ≠ .aRunning := by rcases hold with h | h <;> rw [h] <;> exact nofun
  have hcanc : c.lockstep.state ≠ .cancelled := by
    rcases hold with h | h <;> rw [h] <;> exact nofun
  exact ⟨htoken, hplace, fun he => absurd (h.ending he) hrun,
    fun hc => absurd (h.cancelling hc) hcanc, fun hp => absurd (h.ready hp) hrun⟩

/-- **Every step of ICON keeps the invariant.** -/
theorem Inv.icon_step (h : Inv c) (hcall : IconCalls c.icon l)
    (hatom : Atom c.lockstep c.icon l s th) : Inv { c with lockstep := s, icon := th } := by
  have hone := h.oneToken
  have hplace := h.icon
  generalize hic : c.icon = ic at hcall hatom hplace
  obtain ⟨held, pc⟩ := ic
  -- the step belongs to a call of the B side
  have hcalls : callOf l = .startOperationB ∨ callOf l = .endOperationB :=
    hcall.imp And.left And.left
  -- a step at the beginning of a start is taken outside operation B, one of an end inside
  have hstart : callOf l = .startOperationB → held = [] := by
    rintro hl
    rcases hcall with hc | hc
    · exact hc.2
    · rw [hl] at hc; cases hc.1
  have hend : pc = .idle → callOf l = .endOperationB →
      held = [.b] ∧ c.lockstep.state = .bRunning := by
    rintro rfl hl
    rcases hcall with hc | hc
    · rw [hl] at hc; cases hc.1
    · have hmem := hc.2 rfl
      cases hplace with
      | inB hs => exact ⟨rfl, hs⟩
      | idle => exact absurd hmem List.not_mem_nil
  cases hatom with
  | startWait x f st hpc hwait =>
    cases x with
    | a => rcases hcalls with hl | hl <;> cases hl
    | b =>
      obtain rfl := hstart rfl
      by_cases hok : st.isOk = true
      · rw [if_pos hok]
        exact h.icon_frame rfl rfl nofun .startCas
      · rw [if_neg hok]
        exact h.icon_frame rfl rfl nofun .idle
  | startOk x hpc hs =>
    cases x with
    | a => rcases hcalls with hl | hl <;> cases hl
    | b =>
      obtain rfl := hstart rfl
      obtain rfl : pc = .startCas .b := hpc
      refine h.icon_state (.inl hs) (.inB rfl) ?_
      simp only [bTokens, ownTokens, hic, hs] at hone ⊢
      exact hone
  | startCancelled x hpc hs =>
    cases x with
    | a => rcases hcalls with hl | hl <;> cases hl
    | b =>
      obtain rfl := hstart rfl
      exact h.icon_frame rfl rfl nofun .startRepost
  | startRefused x hpc hs hc =>
    cases x with
    | a => rcases hcalls with hl | hl <;> cases hl
    | b =>
      obtain rfl := hstart rfl
      exact h.icon_frame rfl rfl nofun .idle
  | startRepost x hpc =>
    cases x with
    | a => rcases hcalls with hl | hl <;> cases hl
    | b =>
      obtain rfl := hstart rfl
      exact h.icon_frame rfl rfl nofun .idle
  | endBOk hpc hs =>
    obtain ⟨rfl, -⟩ := hend hpc rfl
    obtain rfl : pc = .idle := hpc
    refine h.icon_state (.inr hs) (.endBPost nofun) ?_
    simp only [bTokens, ownTokens, hic, hs] at hone ⊢
    exact hone
  | endBCancelled hpc hs => exact absurd (hs.symm.trans (hend hpc rfl).2) nofun
  | endBRefused hpc hs hc => exact absurd (hend hpc rfl).2 hs
  | endBPost hpc =>
    obtain rfl : pc = .endBPost := hpc
    cases hplace with
    | endBPost hs =>
      refine ⟨?_, .idle, h.ending, h.cancelling, h.ready⟩
      have hle := Bool.toNat_le (decide (c.lockstep.bFinished.post.1 = .posted))
      simp only [bTokens, ownTokens, hic, decide_true, Bool.toNat_true] at hone ⊢
      simp only [reduceCtorEq, decide_false, Bool.toNat_false]
      omega
  | _ => rcases hcalls with hl | hl <;> cases hl

/-- **Every step keeps the invariant**, when nobody cancels during operation B. -/
theorem Inv.step {x : Label} (h : Inv c) (hs : Step CancelOutsideB c x d) : Inv d := by
  cases hs with
  | tick _ hphase | reset hphase | destroy hphase =>
    exact ⟨h.oneToken, h.icon, h.ending, h.cancelling, nofun⟩
  | owner hok hcall hatom => exact h.owner_step hok hcall hatom
  | icon hcall hatom => exact h.icon_step hcall hatom

/-! ## The clock and the control cycle -/

/-- The owner writes the cycle's start time, or `TickBlockingWithDeadline` or `Reset`
returns ok. -/
def Label.disturbs : Label → Prop
  | .tick _ => True
  | .owner _ next => next = .ready
  | _ => False

/-- A step taken while ICON is in operation B leaves it there, unless it returns from
`EndOperationB`. -/
theorem inB_step {ok : Config → Lockstep.Label → Prop} {x : Label} (hB : InB c)
    (hs : Step ok c x d) (hx : x.endsB = false) : InB d := by
  cases hs with
  | tick | reset | destroy | owner => exact hB
  | icon hcall hatom =>
    rcases hcall with ⟨hl, hheld⟩ | ⟨hl, -⟩
    · -- no start is called in operation B
      have hpost : c.icon.pc = .endBPost := by
        rcases hB with hB | hB
        · rw [hheld] at hB
          exact absurd hB List.not_mem_nil
        · exact hB
      cases hatom with
      | startWait _ _ _ hpc | startOk _ hpc | startCancelled _ hpc | startRefused _ hpc
      | startRepost _ hpc => rw [hpost] at hpc; cases hpc
      | _ => cases hl
    · cases hatom with
      | endBOk => exact .inr rfl
      | endBCancelled | endBRefused | endBPost => cases hx
      | startWait y | startOk y | startCancelled y | startRefused y | startRepost y =>
        cases y <;> cases hl
      | _ => cases hl

/-- What holds of the steps `v` that follow a successful `StartOperationB`, as long as
none of them returns from `EndOperationB`. -/
structure During (v : List Label) (c : Config) : Prop where
  inv : Inv c
  inB : InB c
  quiet : ∀ x ∈ v, ¬ x.disturbs

theorem During.step {v : List Label} {x : Label} (h : During v c) (hs : Step CancelOutsideB c x d)
    (hx : x.endsB = false) : During (v ++ [x]) d := by
  have hinv := h.inv.step hs
  have hB := inB_step h.inB hs hx
  refine ⟨hinv, hB, fun y hy => ?_⟩
  rcases List.mem_append.mp hy with hy | hy
  · exact h.quiet y hy
  rw [List.mem_singleton.mp hy]
  intro hdisturbs
  cases hs with
  | tick _ hphase => exact h.inv.exclusive hphase h.inB
  | owner => exact hinv.exclusive hdisturbs hB
  | _ => exact hdisturbs

/-- **The clock owner and the control cycle do not overlap**, in every run in which
`Reset` cancels the lockstep only while ICON is outside operation B.  From a
successful `StartOperationB` until ICON's `EndOperationB` returns, the cycle's start
time is not written, neither `TickBlockingWithDeadline` nor `Reset` returns ok, and the
owner is not in operation A. -/
theorem clock_and_cycle_exclusive {u v : List Label}
    (h : Run (Step CancelOutsideB) initial (u ++ [.icon (.startOk .b)] ++ v) c)
    (hv : ∀ x ∈ v, x.endsB = false) : (∀ x ∈ v, ¬ x.disturbs) ∧ c.phase ≠ .ready := by
  obtain ⟨d, hud, hvc⟩ := h.split
  have hinv : Inv d := hud.stateInvariant inv_initial fun _ _ _ => Inv.step
  obtain ⟨e, -, hstart⟩ := hud.unsnoc
  have hB : InB d := by
    cases hstart with
    | icon hcall hatom =>
      cases hatom
      exact .inl (List.mem_cons_self ..)
  have hduring : (∀ x ∈ v, x.endsB = false) → During v c := by
    refine hvc.invariant (I := fun v c => (∀ x ∈ v, x.endsB = false) → During v c) ?_ ?_
    · exact fun _ => ⟨hinv, hB, fun y hy => absurd hy List.not_mem_nil⟩
    · intro v' c' x d' hi hs hv'
      have hbefore := hi fun y hy => hv' y (List.mem_append_left _ hy)
      exact hbefore.step hs (hv' x (List.mem_append_right _ (List.mem_singleton.mpr rfl)))
  exact ⟨(hduring hv).quiet, fun hp => (hduring hv).inv.exclusive hp (hduring hv).inB⟩

/-- A step of the owner, with the phase it leads to. -/
theorem Step.ownerTo {ok : Config → Lockstep.Label → Prop} {s s' : Lockstep.Shared} {t : Int}
    {p p' : Phase} {o o' i : Thread} (hok : ok ⟨s, t, p, o, i⟩ l)
    (hcall : p.call = some (callOf l)) (hnext : p.next l = p') (hatom : Atom s o l s' o') :
    Step ok ⟨s, t, p, o, i⟩ (.owner l p') ⟨s', t, p', o', i⟩ := by
  subst hnext
  exact .owner hok hcall hatom

/-- What a tick returns that ICON does not finish in time. -/
def timedOut : RealtimeStatus :=
  formatRealtimeStatus .deadlineExceeded
    (ascii "Timeout after " ++ ascii (toString 3) ++ ascii " ms")

/-- The constructor, and the first tick up to the point at which ICON may start
operation B. -/
def firstTick : List Label :=
  [.owner (.startWait .a rtOkStatus) .constructing, .owner (.startOk .a) .ready, .tick 1,
    .owner .endALoad .tickEnd, .owner .endAReload .tickEnd, .owner .endAStore .tickEnd,
    .owner (.endAPost rtOkStatus) .tickStart, .icon (.startWait .b rtOkStatus)]

/-- The owner has ended operation A for the first time, and ICON is about to start
operation B. -/
theorem firstTick_run (ok : Config → Lockstep.Label → Prop)
    (hok : ∀ c l, l ≠ .cancelStore → ok c l) :
    Run (Step ok) initial firstTick
      ⟨⟨.ready, .ready, .aFinished⟩, 1, .tickStart, ⟨[], .idle⟩, ⟨[], .startCas .b⟩⟩ := by
  refine .cons (.ownerTo (by exact hok _ _ nofun) rfl rfl
    (.startWait .a .ready _ rfl (by exact .taken))) ?_
  refine .cons (.ownerTo (by exact hok _ _ nofun) rfl rfl (.startOk .a rfl rfl)) ?_
  refine .cons (.tick 1 rfl) ?_
  refine .cons (.ownerTo (by exact hok _ _ nofun) rfl rfl (.endALoad rfl (by decide))) ?_
  refine .cons (.ownerTo (by exact hok _ _ nofun) rfl rfl (.endAReload rfl rfl)) ?_
  refine .cons (.ownerTo (by exact hok _ _ nofun) rfl rfl (.endAStore rfl)) ?_
  refine .cons (.ownerTo (by exact hok _ _ nofun) rfl rfl (.endAPost rfl)) ?_
  exact .single (.icon (.inl ⟨rfl, rfl⟩) (.startWait .b .ready _ rfl .taken))

/-- ICON then starts its operation B. -/
theorem startB_run (ok : Config → Lockstep.Label → Prop)
    (hok : ∀ c l, l ≠ .cancelStore → ok c l) :
    Run (Step ok) initial (firstTick ++ [.icon (.startOk .b)])
      ⟨⟨.ready, .ready, .bRunning⟩, 1, .tickStart, ⟨[], .idle⟩, ⟨[.b], .idle⟩⟩ :=
  (firstTick_run ok hok).snoc (.icon (.inl ⟨rfl, rfl⟩) (.startOk .b rfl rfl))

/-- One tick, during which ICON performs its operation B. -/
theorem clock_and_cycle_exclusive_one_tick :
    ∃ c, Run (Step CancelOutsideB) initial
        (firstTick ++ [.icon (.startOk .b)] ++ [.owner (.startWait .a timedOut) .failed]) c ∧
      (∀ x ∈ [Label.owner (.startWait .a timedOut) .failed], ¬ x.disturbs) ∧
      c.phase ≠ .ready := by
  have h : Run (Step CancelOutsideB) initial
      (firstTick ++ [.icon (.startOk .b)] ++ [.owner (.startWait .a timedOut) .failed])
      ⟨⟨.ready, .ready, .bRunning⟩, 1, .failed, ⟨[], .idle⟩, ⟨[.b], .idle⟩⟩ := by
    refine (startB_run CancelOutsideB fun _ _ hl he => absurd he hl).snoc ?_
    exact .ownerTo (by exact nofun) rfl rfl (.startWait .a .ready _ rfl (.timedOut _ 3))
  exact ⟨_, h, clock_and_cycle_exclusive h (by simp [Label.endsB])⟩

/-- **`Reset` can put the owner into operation A during ICON's operation B.**  The first
tick times out while ICON is in operation B; `Reset` cancels the lockstep, resets it and
starts operation A, and returns ok.  The next tick writes the cycle's start time. -/
theorem reset_overlaps_control_cycle :
    ∃ (u v : List Label) (c : Config),
      Run (Step Documented) initial (u ++ [.icon (.startOk .b)] ++ v) c ∧
        (∀ x ∈ v, x.endsB = false) ∧ Label.owner (.startOk .a) .ready ∈ v ∧ Label.tick 2 ∈ v ∧
        InB c ∧ c.cycleStartNanoseconds = 2 := by
  refine ⟨firstTick, [.owner (.startWait .a timedOut) .failed, .reset,
    .owner .cancelStore .resetCancel, .owner .cancelPostA .resetCancel,
    .owner .cancelPostB .resetReset, .owner .resetCheck .resetReset,
    .owner (.resetWaitA rtOkStatus) .resetReset, .owner (.resetWaitB rtOkStatus) .resetReset,
    .owner .resetStore .resetReset, .owner (.resetPost rtOkStatus) (.resetStart rtOkStatus),
    .owner (.startWait .a rtOkStatus) (.resetStart rtOkStatus), .owner (.startOk .a) .ready,
    .tick 2], ⟨⟨.ready, .ready, .aRunning⟩, 2, .tickEnd, ⟨[.a], .idle⟩, ⟨[.b], .idle⟩⟩, ?_,
    by simp [Label.endsB], by simp, by simp, .inl (List.mem_cons_self ..), rfl⟩
  refine (startB_run Documented fun _ _ _ => trivial).append ?_
  refine .cons (.ownerTo trivial rfl rfl (.startWait .a .ready _ rfl (.timedOut _ 3))) ?_
  refine .cons (.reset (by trivial)) ?_
  refine .cons (.ownerTo trivial rfl rfl (.cancelStore rfl)) ?_
  refine .cons (.ownerTo trivial rfl rfl (.cancelPostA rfl)) ?_
  refine .cons (.ownerTo trivial rfl rfl (.cancelPostB rfl)) ?_
  refine .cons (.ownerTo trivial rfl rfl (.resetCheck rfl rfl)) ?_
  refine .cons (.ownerTo trivial rfl rfl (.resetWaitA .ready _ rfl .taken)) ?_
  refine .cons (.ownerTo trivial rfl rfl (.resetWaitB .ready _ rfl .taken)) ?_
  refine .cons (.ownerTo trivial rfl rfl (.resetStore rfl)) ?_
  refine .cons (.ownerTo trivial rfl rfl (.resetPost rfl)) ?_
  refine .cons (.ownerTo trivial rfl rfl (.startWait .a .ready _ rfl (by exact .taken))) ?_
  refine .cons (.ownerTo trivial rfl rfl (.startOk .a rfl rfl)) ?_
  exact .single (.tick 2 rfl)

end Intrinsic.RealtimeClock
