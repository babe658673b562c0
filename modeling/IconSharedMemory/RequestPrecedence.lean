import IconSharedMemory.ActionRequests
import IconSharedMemory.RequestReaders

/-! # Faults and deactivations come first

An action changes the state twice: its first request asks for an intermediate state, and
after the module's method has returned, its completion request asks for the state that
follows.  In between the state may be taken away from the action: a real-time callback
reports a fault, or the module is deactivated.  Then the completion request must not be
applied, not even if a later action brings the same intermediate state back.

The argument does not need the timestamps of the requests.  Actions exclude each other, so
the completion request has the number that follows the first request's (`ActionInv`), and
the queue gives out the requests in the order of their numbers.  What comes after the
completion request is therefore applied only when the completion request has been dealt
with, and nothing else sets an intermediate state (`Late`).

Requests are answered at most once, but not always in the order of their insertion:
`OnDeactivate` may answer the next one while `OnReadStatus` has one in hand
(`cancelled_out_of_order`).  `disturbed_action_not_completed` puts the results together.
-/
namespace Intrinsic.CallbackHandler
open Runs

/-! ## What `OnReadStatus` is at work on -/

/-- The request that `ProcessNextPendingRequest` has taken and not decided on. -/
def Pc.processing : Pc → Option Request
  | .processDrop r | .processCheck r | .setState (.process r) _ _ => some r
  | _ => none

/-- It has not been compared with the state. -/
def Pc.unchecked : Pc → Prop
  | .processDrop _ | .processCheck _ => True
  | _ => False

/-- The states while the method of an action runs. -/
def Intermediate (code : StateCode) : Prop := ∃ a : Action, code = a.intermediate

/-- Nobody but `ProcessNextPendingRequest` asks for such a state. -/
def Pc.direct : Pc → Prop
  | .setState (.process _) _ _ => True
  | .setState _ state _ => ¬ Intermediate state
  | _ => True

section Processing
variable {s s' : Shared} {pc pc' : Pc} {l : Label} {r : Request}

theorem Pc.hand_of_processing (h : pc.processing = some r) : pc.hand = some r := by
  cases pc with
  | setState site => cases site <;> exact h
  | _ => first | exact h | cases h

theorem Pc.task_of_processing (h : pc.processing = some r) : pc.task = some .readStatus := by
  cases pc with
  | setState site => cases site <;> first | rfl | cases h
  | _ => first | rfl | cases h

theorem not_intermediate {code : StateCode} (h : code ≠ .motionEnabling ∧ code ≠ .motionDisabling ∧
    code ≠ .clearingFaults) : ¬ Intermediate code := by
  rintro ⟨a, rfl⟩
  cases a
  · exact h.1 rfl
  · exact h.2.1 rfl
  · exact h.2.2 rfl

theorem not_intermediate_faultState (code : StatusCode) : ¬ Intermediate (faultState code) := by
  unfold faultState
  split <;> exact not_intermediate (by decide)

theorem direct_next (site : Site) (changed : Bool) : (site.next changed).direct := by
  cases site with
  | deactivating nested =>
    cases changed <;> cases nested <;> first | exact trivial | exact not_intermediate (by decide)
  | deactivated nested =>
    cases nested <;> first | exact trivial | exact not_intermediate (by decide)
  | _ => cases changed <;> exact trivial

/-- A step leads to a program point from which no intermediate state is set directly. -/
theorem Atom.direct (h : Atom s pc l s' pc') : pc'.direct := by
  cases h with
  | start cb => cases cb <;> first | exact trivial | exact not_intermediate (by decide)
  | setState => exact direct_next _ _
  | @statusCall k st =>
    cases k with
    | prepare =>
      unfold StatusCall.next
      dsimp only
      split <;> exact not_intermediate (by decide)
    | action a first => exact trivial
  | @realtimeCall k st =>
    cases k <;> unfold RealtimeCall.next <;> dsimp only <;> split <;>
      first
        | exact trivial
        | exact not_intermediate (by decide)
        | exact not_intermediate_faultState _
  | prepareLoad => split <;> exact not_intermediate (by decide)
  | @cancelDone k => cases k <;> exact trivial
  | requestAnswered => unfold Ask.next; split <;> exact trivial
  | requestGivenUp => unfold Ask.next; split <;> exact trivial
  | enabledLoad => split <;> exact trivial
  | readStatusLoad => split; exacts [trivial, not_intermediate_faultState _]
  | applyLoad => split; exacts [trivial, by split; exacts [not_intermediate (by decide), trivial]]
  | _ => exact trivial

theorem Pc.plain.processing (h : pc.plain) : pc.processing = none := by
  by_contra hprocessing
  obtain ⟨r, hr⟩ := Option.ne_none_iff_exists'.mp hprocessing
  exact Option.some_ne_none r ((Pc.hand_of_processing hr).symm.trans h.hand)

theorem processing_next (site : Site) (changed : Bool) :
    (site.next changed).processing = none := by
  by_cases hsite : ∃ r, site = .process r
  · obtain ⟨r, rfl⟩ := hsite
    cases changed <;> rfl
  · exact (plain_next (fun r heq => hsite ⟨r, heq⟩) changed).processing

/-- A request is taken, then dropped, then compared with the state; only a request that is
up to date goes on from there. -/
theorem Atom.processing (h : Atom s pc l s' pc') (hr : pc'.processing = some r) :
    (l = .front r ∧ pc'.unchecked ∧ pc.task = some .readStatus ∧ pc.processing = none) ∨
    (pc.processing = some r ∧ pc.unchecked ∧
      (pc'.unchecked ∨ l = .check r true ∧ s.fresh r = true)) := by
  have hnone : pc'.processing ≠ none := fun heq => Option.some_ne_none r (hr.symm.trans heq)
  by_cases hpc : pc.plain
  · obtain ⟨hpc', -⟩ | ⟨k, -, -, -, rfl, -⟩ | ⟨-, -, -, rfl, -⟩ | ⟨a, -, -, -, rfl, -⟩ :=
      h.plain hpc
    · exact absurd hpc'.processing hnone
    · exact absurd rfl hnone
    · exact absurd rfl hnone
    · exact absurd rfl hnone
  · cases h with
    | setState => exact absurd (processing_next _ _) hnone
    | @statusCall k st =>
      cases k with
      | prepare => exact absurd trivial hpc
      | action b first => exact absurd rfl hnone
    | requestAnswered => unfold Ask.next at hnone; split at hnone <;> exact absurd rfl hnone
    | requestGivenUp => unfold Ask.next at hnone; split at hnone <;> exact absurd rfl hnone
    | processFront =>
      cases hr
      exact .inl ⟨rfl, trivial, rfl, rfl⟩
    | processDrop =>
      cases hr
      exact .inr ⟨rfl, trivial, .inl trivial⟩
    | processFresh hfresh =>
      cases hr
      exact .inr ⟨rfl, trivial, .inr ⟨rfl, hfresh⟩⟩
    | _ => first | exact absurd trivial hpc | exact absurd rfl hnone

/-- A step that leads into an intermediate state applies a request. -/
theorem Atom.intermediate (h : Atom s pc l s' pc') (hdirect : pc.direct)
    (hcode : Intermediate s'.stateCode) :
    s'.stateCode = s.stateCode ∨ ∃ r, pc.processing = some r ∧ ¬ pc.unchecked := by
  obtain ⟨site, state, status, rfl, hset⟩ | ⟨hsame, -⟩ := h.publishes
  · cases site with
    | process r => exact .inr ⟨r, rfl, id⟩
    | _ =>
      -- what is stored is what the caller asked for, or `kFaulted`
      cases hset with
      | refused => exact .inl rfl
      | stored => exact absurd hcode hdirect
      | disabled now code stored status' hguard henabled hnow hstored =>
        obtain rfl | ⟨rfl, -⟩ := hstored
        · exact absurd hcode hdirect
        · have hfaulted : ¬ Intermediate .faulted := not_intermediate (by decide)
          exact absurd hcode hfaulted
  · exact .inl hsame

end Processing

/-! ## Disturbed actions -/

/-- The step compares the request with this number with the state. -/
def Label.checks (id : Nat) : Label → Prop
  | .check r _ => r.id = id
  | _ => False

/-- The step reports a fault or deactivates the module. -/
def Label.disturbs : Label → Prop
  | .setState _ _ after true _ =>
    after = .faulted ∨ after = .fatallyFaulted ∨ after = .deactivating
  | _ => False

/-- `OnReadStatus` has one caller. -/
def OneReadStatus {Tid : Type} (c : Config Tid) (t : Tid) : Label → Prop
  | .start .readStatus => ∀ u, u ≠ t → (c.locals u).task ≠ some .readStatus
  | _ => True

/-- The state is not set while another thread has a request in hand. -/
def SetsAlone {Tid : Type} (c : Config Tid) (t : Tid) : Label → Prop
  | .setState _ _ _ _ _ => ∀ u, u ≠ t → (c.locals u).hand = none
  | _ => True

section Late
variable {Tid : Type} [DecidableEq Tid] {ok : Config Tid → Tid → Label → Prop}
  {c d : Config Tid} {x : Tid × Label} {w : List (Tid × Label)} {now n : Nat} {code : StateCode}

/-- What is known about `ProcessNextPendingRequest`: it runs in one thread, which compares a
request with the state before it applies it. -/
structure ProcessInv (w : List (Tid × Label)) (c : Config Tid) : Prop where
  alone : AtMostOne (fun pc : Pc => pc.task = some .readStatus) c.locals
  direct : ∀ t, (c.locals t).direct
  checked : ∀ t r, (c.locals t).processing = some r → ¬ (c.locals t).unchecked →
    ∃ u, (u, .check r true) ∈ w

omit [DecidableEq Tid] in
theorem processInv_initial (now : Nat) : ProcessInv [] (initial Tid now) where
  alone := by
    intro t u h
    cases h
  direct _ := trivial
  checked := by
    intro t r h
    cases h

theorem ProcessInv.step (h : ProcessInv w c) (hs : Step OneReadStatus c x d) :
    ProcessInv (w ++ [x]) d := by
  cases hs with
  | @mk t l s' pc' hok hatom =>
    refine ⟨?_, forall_update _ hatom.direct fun u _ => h.direct u, ?_⟩
    · have hkind : ∀ f : Tid → Pc, AtMostOne (Pc.inTask fun k => k = .readStatus) f ↔
          AtMostOne (fun pc : Pc => pc.task = some .readStatus) f := by
        intro f
        simp [AtMostOne, Pc.inTask]
      refine (hkind _).mp (AtMostOne.inTask ((hkind _).mpr h.alone) hatom ?_)
      rintro cb rfl hread u hut ⟨k, hk, hkr⟩
      cases cb with
      | readStatus => exact hok u hut (by rw [hk, of_decide_eq_true hkr])
      | _ => cases hread
    · intro u r hr hnot
      obtain ⟨rfl, hself⟩ | ⟨hut, hother⟩ :=
        of_update (P := fun pc : Pc => pc.processing = some r ∧ ¬ pc.unchecked) ⟨hr, hnot⟩
      · obtain ⟨-, hunchecked, -⟩ | ⟨-, -, hunchecked | ⟨rfl, -⟩⟩ := hatom.processing hself.1
        · exact absurd hunchecked hself.2
        · exact absurd hunchecked hself.2
        · exact ⟨u, List.mem_append_right _ List.mem_cons_self⟩
      · obtain ⟨v, hv⟩ := h.checked u r hother.1 hother.2
        exact ⟨v, List.mem_append_left _ hv⟩

theorem processInv_run (h : Run (Step OneReadStatus) (initial Tid now) w c) : ProcessInv w c :=
  h.invariant (processInv_initial now) fun _ _ _ _ hi hs => hi.step hs

/-- Everything that is known about a run. -/
structure Known (w : List (Tid × Label)) (c : Config Tid) : Prop where
  front : FrontInv c
  kept : Kept c
  ledger : Ledger w c
  process : ProcessInv w c

theorem known_run (h : Run (Step OneReadStatus) (initial Tid now) w c) : Known w c :=
  ⟨(kept_run h).1, (kept_run h).2, ledger_run h, processInv_run h⟩

/-- The requests before the number `n` are decided. -/
structure Past (n : Nat) (c : Config Tid) : Prop where
  taken : n ≤ c.shared.taken
  processing : ∀ t r, (c.locals t).processing = some r → n ≤ r.id

/-- The number of requests that have been taken grows; a request that is taken has this
number. -/
theorem Known.taken (h : Known w c) (hs : Step ok c x d) :
    c.shared.taken ≤ d.shared.taken ∧ ∀ r, x.2 = .front r →
      r.id = c.shared.taken ∧ d.shared.taken = c.shared.taken + 1 := by
  cases hs with
  | @mk t l s' pc' hok hatom =>
    cases hatom.custody h.front.accessed with
    | keep hpending hnext _ _ hl =>
      refine ⟨(taken_keep hpending hnext).ge, ?_⟩
      rintro r rfl
      cases hl
    | insert _ hpending hnext => exact ⟨(taken_insert hpending hnext).ge, nofun⟩
    | take hpending hnext =>
      have htaken := taken_take hpending hnext h.kept.total
      refine ⟨htaken ▸ Nat.le_succ _, ?_⟩
      rintro r ⟨⟩
      exact ⟨(h.kept.head hpending).1, htaken⟩
    | answer hpending hnext => exact ⟨(taken_keep hpending hnext).ge, nofun⟩

/-- What a thread is at work on after a step: what it was at work on, or the request that was
taken in this step. -/
theorem processing_step (hs : Step ok c x d) {t : Tid} {r : Request}
    (hr : (d.locals t).processing = some r) :
    (t = x.1 ∧ x.2 = .front r ∧ (d.locals t).unchecked ∧ (c.locals t).task = some .readStatus ∧
      (c.locals t).processing = none) ∨
    ((c.locals t).processing = some r ∧ ((d.locals t).unchecked ∨ d.locals t = c.locals t ∨
      t = x.1 ∧ (c.locals t).unchecked ∧ c.shared.fresh r = true)) := by
  obtain ⟨y, l⟩ := x
  obtain ⟨-, hatom, hothers⟩ := hs.atomic
  by_cases hty : t = y
  · subst hty
    obtain ⟨hfront, hunchecked, htask, hnone⟩ | ⟨hsame, hold, hnew⟩ := hatom.processing hr
    · exact .inl ⟨rfl, hfront, hunchecked, htask, hnone⟩
    · refine .inr ⟨hsame, ?_⟩
      obtain hnew | ⟨-, hfresh⟩ := hnew
      · exact .inl hnew
      · exact .inr (.inr ⟨rfl, hold, hfresh⟩)
  · rw [hothers t hty] at hr ⊢
    exact .inr ⟨hr, .inr (.inl rfl)⟩

theorem Past.step (h : Past n c) (hknown : Known w c) (hs : Step ok c x d) : Past n d := by
  obtain ⟨hle, hfront⟩ := hknown.taken hs
  refine ⟨h.taken.trans hle, fun t r hr => ?_⟩
  obtain ⟨-, hl, -⟩ | ⟨hold, -⟩ := processing_step hs hr
  · exact (hfront r hl).1 ▸ h.taken
  · exact h.processing t r hold

/-- The request with the number `n` has been taken, and `ProcessNextPendingRequest` is not at
work on it. -/
def Settled (n : Nat) (c : Config Tid) : Prop :=
  n < c.shared.taken ∧ ∀ t r, (c.locals t).processing = some r → r.id ≠ n

/-- The state is not `code`, and `ProcessNextPendingRequest` is at work on nothing but the
request with the number `n`, which it has not compared with the state. -/
def Awaited (n : Nat) (code : StateCode) (c : Config Tid) : Prop :=
  c.shared.stateCode ≠ code ∧
    ∀ t r, (c.locals t).processing = some r → r.id = n ∧ (c.locals t).unchecked

theorem Settled.step (h : Settled n c) (hknown : Known w c) (hs : Step ok c x d) :
    Settled n d := by
  obtain ⟨hle, hfront⟩ := hknown.taken hs
  refine ⟨h.1.trans_le hle, fun t r hr => ?_⟩
  obtain ⟨-, hl, -⟩ | ⟨hold, -⟩ := processing_step hs hr
  · rw [(hfront r hl).1]
    exact h.1.ne'
  · exact h.2 t r hold

/-- **The request with the number `n` comes too late**, when it leads on from `code`. -/
structure Late (n : Nat) (code : StateCode) (w : List (Tid × Label)) (c : Config Tid) :
    Prop where
  past : Past n c
  late : (∀ r ∈ inserted w, r.id = n → r.source = code) → Settled n c ∨ Awaited n code c

/-- While the state is awaited it stays away: it is not set directly, and no request is about
to be applied. -/
theorem Awaited.stateCode (h : Awaited n code c) (hknown : Known w c) (hcode : Intermediate code)
    (hs : Step ok c x d) : d.shared.stateCode ≠ code := by
  obtain ⟨t, l⟩ := x
  intro heq
  obtain hsame | ⟨r, hr, hchecked⟩ :=
    hs.atomic.2.1.intermediate (hknown.process.direct t) (heq ▸ hcode)
  · exact h.1 (hsame.symm.trans heq)
  · exact hchecked (h.2 t r hr).2

theorem Awaited.step (h : Awaited n code c) (hpast : Past n c) (hnot : ¬ Settled n c)
    (hknown : Known w c) (hcode : Intermediate code)
    (hsource : ∀ r ∈ inserted w, r.id = n → r.source = code) (hs : Step ok c x d) :
    Awaited n code d := by
  refine ⟨h.stateCode hknown hcode hs, fun t r hr => ?_⟩
  obtain ⟨-, hl, hunchecked, htask, hnone⟩ | ⟨hold, hstage⟩ := processing_step hs hr
  · -- nobody was at work on anything, so `n` had not been taken
    have hidle : ∀ u r', (c.locals u).processing ≠ some r' := by
      intro u r' hu
      obtain rfl := hknown.process.alone u t (Pc.task_of_processing hu) htask
      exact nomatch hnone.symm.trans hu
    have hle : c.shared.taken ≤ n := by
      by_contra hlt
      exact hnot ⟨Nat.lt_of_not_le hlt, fun u r' hu => absurd hu (hidle u r')⟩
    have hid := ((hknown.taken hs).2 r hl).1
    exact ⟨hid.trans (hle.antisymm hpast.taken), hunchecked⟩
  · obtain ⟨hid, hunchecked⟩ := h.2 t r hold
    refine ⟨hid, ?_⟩
    obtain hnew | hsame | ⟨-, -, hfresh⟩ := hstage
    · exact hnew
    · rwa [hsame]
    · -- a request that leads on from `code` is not up to date
      have hmem := hknown.ledger.hand t r (Pc.hand_of_processing hold)
      have hstate : r.source = c.shared.stateCode := by
        simp only [Shared.fresh, Bool.and_eq_true, decide_eq_true_eq] at hfresh
        exact hfresh.2
      exact absurd (hstate.symm.trans (hsource r hmem hid)) h.1

theorem Late.step (h : Late n code w c) (hknown : Known w c) (hcode : Intermediate code)
    (hs : Step ok c x d) : Late n code (w ++ [x]) d := by
  refine ⟨h.past.step hknown hs, fun hsource => ?_⟩
  have hsource' : ∀ r ∈ inserted w, r.id = n → r.source = code :=
    fun r hr => hsource r (mem_inserted_snoc hr)
  by_cases hsettled : Settled n c
  · exact .inl (hsettled.step hknown hs)
  · obtain hsettled' | hawaited := h.late hsource'
    · exact absurd hsettled' hsettled
    · exact .inr (hawaited.step h.past hsettled hknown hcode hsource' hs)

omit [DecidableEq Tid] in
/-- After a disturbance the request comes too late, unless it is about to be applied. -/
theorem late_of_disturbed (hpast : Past n c) (hknown : Known w c)
    (hcode : c.shared.stateCode ≠ code)
    (hunchecked : ∀ t r, (c.locals t).processing = some r → r.id = n → (c.locals t).unchecked) :
    Late n code w c := by
  refine ⟨hpast, fun _ => ?_⟩
  by_cases hother : ∃ t r, (c.locals t).processing = some r ∧ r.id ≠ n
  · -- `ProcessNextPendingRequest` is at work on a later request
    obtain ⟨t, r, hr, hne⟩ := hother
    have hle := hpast.processing t r hr
    have hlt := hknown.kept.hand_lt t r (Pc.hand_of_processing hr)
    refine .inl ⟨by omega, fun u r' hu => ?_⟩
    obtain rfl := hknown.process.alone u t (Pc.task_of_processing hu) (Pc.task_of_processing hr)
    obtain rfl := Option.some.inj (hu.symm.trans hr)
    exact hne
  · refine .inr ⟨hcode, fun t r hr => ?_⟩
    have hid : r.id = n := by
      by_contra hne
      exact hother ⟨t, r, hr, hne⟩
    exact ⟨hid, hunchecked t r hr hid⟩

theorem Late.not_applies (h : Late n code w c)
    (hsource : ∀ r ∈ inserted w, r.id = n → r.source = code) {t : Tid} {l : Label}
    (hs : Step ok c (t, l) d) : ¬ l.applies n := by
  intro hl
  obtain ⟨r, state, status, hpc, hid⟩ := hs.atomic.2.1.applies hl
  have hr : (c.locals t).processing = some r := by
    rw [hpc]
    rfl
  obtain hsettled | hawaited := h.late hsource
  · exact hsettled.2 t r hr hid
  · have hunchecked := (hawaited.2 t r hr).2
    rw [hpc] at hunchecked
    exact hunchecked

/-- When a request is applied the earlier ones are decided, and so is this one. -/
theorem past_of_applies (hknown : Known w c) {t : Tid} {l : Label} {id : Nat}
    (hs : Step ok c (t, l) d) (hl : l.applies id) : Past (id + 1) d := by
  obtain ⟨-, hatom, hothers⟩ := hs.atomic
  obtain ⟨r, state, status, hpc, rfl⟩ := hatom.applies hl
  have hr : (c.locals t).processing = some r := by
    rw [hpc]
    rfl
  have hlt := hknown.kept.hand_lt t r (Pc.hand_of_processing hr)
  have hle := (hknown.taken hs).1
  refine ⟨by omega, fun u r' hu => ?_⟩
  by_cases hut : u = t
  · subst hut
    rw [hpc] at hatom
    obtain ⟨rfl, -⟩ | ⟨-, hunchecked, -⟩ := hatom.processing hu
    · exact hl.elim
    · exact hunchecked.elim
  · rw [hothers u hut] at hu
    exact absurd (hknown.process.alone u t (Pc.task_of_processing hu)
      (Pc.task_of_processing hr)) hut

/-- A disturbance is a call of `SetStateDirectly` that leads out of every intermediate
state. -/
theorem Atom.disturbs {s s' : Shared} {pc pc' : Pc} {l : Label} (h : Atom s pc l s' pc')
    (hl : l.disturbs) : ¬ Intermediate s'.stateCode ∧ pc'.processing = none := by
  have hafter : ∀ {after : StateCode}, after = .faulted ∨ after = .fatallyFaulted ∨
      after = .deactivating → ¬ Intermediate after := by
    rintro after (rfl | rfl | rfl) <;> exact not_intermediate (by decide)
  cases l with
  | setState site before after changed code =>
    obtain ⟨state, status, rfl, hset⟩ := h.at_setState
    cases hset with
    | refused => exact hl.elim
    | stored => exact ⟨hafter hl, processing_next _ _⟩
    | disabled => exact ⟨hafter hl, processing_next _ _⟩
  | _ => exact hl.elim

end Late

/-! ## The results -/

section Results
variable {Tid : Type} [DecidableEq Tid] {ok : Config Tid → Tid → Label → Prop}
  {c d : Config Tid} {w past future : List (Tid × Label)} {now id : Nat} {r : Request}

/-- **A disturbed action.**  The first request of the action, with the number `id`, is
applied; later, at the end of `past`, the action is disturbed; `r` is its completion
request, whenever that is inserted. -/
structure Disturbed (w past future : List (Tid × Label)) (id : Nat) (r : Request) : Prop where
  word : w = past ++ future
  disturbed : ∃ w₁ w₂ x y l₁ l₂, past = w₁ ++ (x, l₁) :: w₂ ++ [(y, l₂)] ∧
    l₁.applies id ∧ l₂.disturbs
  completion : ∃ t, (t, .insert r (some id)) ∈ w

/-- At the end of `past` the completion request is not about to be applied: it has not been
compared with the state, or no state is set while a request is in hand. -/
def Undecided (ok : Config Tid → Tid → Label → Prop) (past : List (Tid × Label)) (r : Request) :
    Prop :=
  (∀ x ∈ past, ¬ x.2.checks r.id) ∨ ∀ c t l, ok c t l → SetsAlone c t l

theorem Disturbed.ends (hd : Disturbed w past future id r)
    (hone : ∀ c t l, ok c t l → OneReadStatus c t l)
    (h : Run (Step ok) (initial Tid now) past c) :
    ∃ b y l, Step ok b (y, l) c ∧ l.disturbs ∧ Past (id + 1) c := by
  have hknown : ∀ {w c}, Run (Step ok) (initial Tid now) w c → Known w c :=
    fun h => known_run (h.mono fun _ _ _ hs => hs.weaken hone)
  obtain ⟨w₁, w₂, x, y, l₁, l₂, rfl, hl₁, hl₂⟩ := hd.disturbed
  obtain ⟨b, hbefore, hdisturbed⟩ := h.unsnoc
  obtain ⟨a, h₁, h₂⟩ := hbefore.split
  obtain ⟨a', hs, h₂⟩ := h₂.uncons
  refine ⟨b, y, l₂, hdisturbed, hl₂, ?_⟩
  have hpast : Past (id + 1) b :=
    Run.invariantFrom (I := fun _ c => Past (id + 1) c) (h₁.snoc hs)
      (past_of_applies (hknown h₁) hs hl₁) (fun w c x d hrun hi hs => hi.step (hknown hrun) hs) h₂
  exact hpast.step (hknown hbefore) hdisturbed

/-- The completion request of a disturbed action is not applied after the disturbance. -/
theorem Disturbed.not_applied (hd : Disturbed w past future id r)
    (hone : ∀ c t l, ok c t l → OneReadStatus c t l) (hundecided : Undecided ok past r)
    (h : Run (Step ok) (initial Tid now) w c) : ∀ x ∈ future, ¬ x.2.applies r.id := by
  have hknown : ∀ {w c}, Run (Step ok) (initial Tid now) w c → Known w c :=
    fun h => known_run (h.mono fun _ _ _ hs => hs.weaken hone)
  obtain ⟨t, hcompletion⟩ := hd.completion
  obtain ⟨hid, a, hsource, -⟩ := (actionInv_run h).completes t r id hcompletion
  have hcode : Intermediate r.source := ⟨a, hsource⟩
  -- every request with this number is the completion request
  have hunique : ∀ r' ∈ inserted w, r'.id = r.id → r'.source = r.source := by
    intro r' hr' heq
    have hr : r ∈ inserted w := List.mem_filterMap.mpr ⟨_, hcompletion, rfl⟩
    rw [(hknown h).ledger.eq_of_id hr' hr heq]
  obtain rfl := hd.word
  obtain ⟨d, hpast, hfuture⟩ := h.split
  obtain ⟨b, y, l, hs, hl, hdecided⟩ := hd.ends hone hpast
  obtain ⟨hok, hatom, hothers⟩ := hs.atomic
  obtain ⟨hstate, hnone⟩ := hatom.disturbs hl
  have hlate : Late r.id r.source past d := by
    rw [← hid] at hdecided
    refine late_of_disturbed hdecided (hknown hpast) (fun heq => hstate (heq ▸ hcode)) ?_
    intro u r' hr' heq
    by_contra hchecked
    obtain hnever | hsets := hundecided
    · obtain ⟨v, hv⟩ := (hknown hpast).process.checked u r' hr' hchecked
      exact hnever _ hv heq
    · have hut : u ≠ y := by
        rintro rfl
        exact nomatch hnone.symm.trans hr'
      rw [hothers u hut] at hr'
      have hnobody := hsets b y l hok
      cases l with
      | setState => exact nomatch (hnobody u hut).symm.trans (Pc.hand_of_processing hr')
      | _ => exact hl.elim
  intro x hx
  obtain ⟨v₁, v₂, rfl⟩ := List.append_of_mem hx
  obtain ⟨e, h₁, h₂⟩ := hfuture.split
  obtain ⟨e', hx, -⟩ := h₂.uncons
  have hlate' := Run.invariantFrom (I := fun w c => Late r.id r.source w c) hpast hlate
    (fun w c x d hrun hi hs => hi.step (hknown hrun) hcode hs) h₁
  refine hlate'.not_applies (fun r' hr' => hunique r' ?_) hx
  rw [← List.append_assoc, inserted, List.filterMap_append]
  exact List.mem_append_left _ hr'

/-- **Faults and deactivations come first.**  `OnReadStatus` has one caller; whatever else is
called, and however the steps are interleaved: the completion request of a disturbed action
is not applied.  A request is answered at most once.  Requests are answered in the order of
their insertion when none is taken while another thread has one in hand. -/
theorem disturbed_action_not_completed (hone : ∀ c t l, ok c t l → OneReadStatus c t l)
    (h : Run (Step ok) (initial Tid now) w c) :
    (∀ past future id r, Disturbed w past future id r → Undecided ok past r →
      ∀ x ∈ future, ¬ x.2.applies r.id) ∧
    (∀ id, answers w id ≤ 1) ∧
    ((∀ c t l, ok c t l → TakesAlone c t l) → (answeredIds w).Pairwise (· < ·)) := by
  refine ⟨?_, ?_, ?_⟩
  · intro past future id r hd hundecided
    exact hd.not_applied hone hundecided h
  · intro id
    rw [(ledger_run h).count]
    split <;> omega
  · intro htakes
    exact (inOrder_run (h.mono fun _ _ _ hs => hs.weaken htakes)).sorted

end Results

/-! ## A fault while motion is being enabled, and a cancellation out of order -/

theorem oneReadStatus_two {s : Shared} {x y : Pc} {t : Bool} {l : Label}
    (h : (if t then x else y).task ≠ some .readStatus) : OneReadStatus (Pool.two s x y) t l := by
  unfold OneReadStatus
  split
  · rintro u hut
    cases t <;> cases u <;> first | exact absurd rfl hut | exact h
  · exact trivial

theorem oneReadStatus_asked : Run (Step OneReadStatus) (initial Bool 0) (activation ++ asking)
    (Pool.two asked (.requestWait (Ask.begin .enableMotion .activated) 0) .idle) :=
  (activation_run fun _ _ _ _ => oneReadStatus_two nofun).append
    (asking_run fun _ _ _ _ => oneReadStatus_two nofun)

/-- `OnReadStatus` applies the first request of `OnEnableMotion`; then `ReadStatus()` fails. -/
def faulting (st : RealtimeStatus) : List (Bool × Label) :=
  processing ++ [(true, .respond 0 rtOkStatus), (true, .internal),
    (true, .call .readStatus st.code), (true, .internal),
    (true, .setState .readStatus .motionEnabling .faulted true none)]

/-- `OnEnableMotion` goes on, and the next `OnReadStatus` finds its second request. -/
def completing : List (Bool × Label) :=
  [(true, .empty true), (false, .waited 0 true), (false, .call .enableMotion .ok),
    (false, .internal), (false, .internal), (false, .internal),
    (false, .insert enabledRequest (some 0)), (true, .start .readStatus), (true, .internal),
    (true, .empty false), (true, .front enabledRequest), (true, .dropFront),
    (true, .check enabledRequest false)]

/-- A `ReadStatus()` that fails. -/
def lost : RealtimeStatus := formatRealtimeStatus .unavailable (ascii "connection lost")

theorem faulting_run : ∃ s pc pc', Run (Step OneReadStatus) (initial Bool 0)
    ((activation ++ asking ++ faulting lost) ++ completing) (Pool.two s pc pc') := by
  apply Exists.intro
  apply Exists.intro
  apply Exists.intro
  rw [List.append_assoc]
  refine oneReadStatus_asked.append ?_
  refine taking_run (fun _ _ _ => oneReadStatus_two nofun) rfl rfl ?_
  refine .cons (.second trivial (.processFresh rfl)) ?_
  refine .cons (.second trivial (.stores 0 rfl nofun (Nat.le_refl _))) ?_
  refine .cons (.second trivial .processRespond) ?_
  refine .cons (.second trivial .enabledLoad) ?_
  refine .cons (.second trivial (.realtimeCall lost)) ?_
  refine .cons (.second trivial .readStatusLoad) ?_
  refine .cons (.second trivial (.stores 0 rfl nofun (Nat.le_refl _))) ?_
  refine .cons (.second trivial (.cancelDone rfl)) ?_
  refine .cons (.first trivial (@Atom.requestAnswered _ _ 0 rtOkStatus rfl)) ?_
  refine .cons (.first trivial (.statusCall okStatus)) ?_
  refine inserting_run (fun _ _ _ => oneReadStatus_two nofun) rfl rfl rfl rfl (by decide) ?_
  refine taking_run (fun _ _ _ => oneReadStatus_two nofun) rfl rfl ?_
  exact .single (.second trivial (.processStale rfl))

/-- The second request of `OnEnableMotion` is not applied. -/
theorem disturbed_action_not_completed_faulted : ∃ c : Config Bool,
    Run (Step OneReadStatus) (initial Bool 0)
      ((activation ++ asking ++ faulting lost) ++ completing) c ∧
    Disturbed ((activation ++ asking ++ faulting lost) ++ completing)
      (activation ++ asking ++ faulting lost) completing 0 enabledRequest ∧
    ∀ x ∈ completing, ¬ x.2.applies 1 := by
  obtain ⟨s, pc, pc', hrun⟩ := faulting_run
  have hdisturbed : Disturbed ((activation ++ asking ++ faulting lost) ++ completing)
      (activation ++ asking ++ faulting lost) completing 0 enabledRequest := by
    refine ⟨rfl, ⟨activation ++ asking ++ processing.dropLast,
      [(true, .respond 0 rtOkStatus), (true, .internal), (true, .call .readStatus lost.code),
        (true, .internal)], true, true,
      .setState (.process enableRequest) .activated .motionEnabling true none,
      .setState .readStatus .motionEnabling .faulted true none, ?_, ?_, ?_⟩, ?_⟩
    · rfl
    · rfl
    · exact .inl rfl
    · exact ⟨false, by simp [completing]⟩
  have hunchecked : ∀ x ∈ activation ++ asking ++ faulting lost,
      ¬ x.2.checks enabledRequest.id := by
    simp [activation, asking, faulting, processing, Label.checks, enableRequest, enabledRequest,
      Ask.request]
  exact ⟨_, hrun, hdisturbed, (disturbed_action_not_completed (fun _ _ _ hok => hok) hrun).1
    _ _ _ _ hdisturbed (.inl hunchecked)⟩

/-- The request of the second `OnEnableMotion`. -/
def secondRequest : Request := (Ask.begin .enableMotion .activated).request 1 0

/-- `OnEnableMotion` gives up and is called again, and gives up again.  `OnReadStatus` takes
the first of the two requests; `OnDeactivate` cancels the second; then `OnReadStatus` finds
that the first is out of date. -/
def overtaking : List (Bool × Label) :=
  [(false, .waited 0 false), (false, .internal), (false, .start (.action .enableMotion)),
    (false, .internal), (false, .internal), (false, .internal), (false, .internal),
    (false, .internal), (false, .insert secondRequest none), (false, .waited 1 false),
    (false, .internal), (true, .start .readStatus), (true, .internal), (true, .empty false),
    (true, .front enableRequest), (true, .dropFront), (false, .start .deactivate),
    (false, .setState (.deactivating false) .activated .deactivating true none),
    (false, .internal), (false, .empty false), (false, .front secondRequest),
    (false, .respond 1 (formatRealtimeStatus .cancelled (Canceller.deactivate false).reason)),
    (true, .check enableRequest false),
    (true, .respond 0 (formatRealtimeStatus .cancelled
      (ascii "Request cancelled due to newer request")))]

/-- **A request is answered before one that was inserted earlier.** -/
theorem cancelled_out_of_order : ∃ s pc pc',
    Run (Step OneReadStatus) (initial Bool 0) (activation ++ asking ++ overtaking)
      (Pool.two s pc pc') ∧
    answeredIds (activation ++ asking ++ overtaking) = [1, 0] := by
  apply Exists.intro
  apply Exists.intro
  apply Exists.intro
  refine ⟨oneReadStatus_asked.append ?_, rfl⟩
  refine .cons (.first trivial .requestGivenUp) ?_
  refine .cons (.first trivial .actionUnlock) ?_
  refine .cons (.first trivial (.start (.action .enableMotion))) ?_
  refine .cons (.first trivial (.actionLock rfl)) ?_
  refine .cons (.first trivial .actionLoad) ?_
  refine inserting_run (fun _ _ _ => oneReadStatus_two nofun) rfl rfl rfl rfl (by decide) ?_
  refine .cons (.first trivial .requestGivenUp) ?_
  refine .cons (.first trivial .actionUnlock) ?_
  refine taking_run (fun _ _ _ => oneReadStatus_two nofun) rfl rfl ?_
  refine .cons (.first trivial (.start .deactivate)) ?_
  refine .cons (.first trivial (.stores 0 rfl nofun (Nat.le_refl _))) ?_
  refine .cons (.first trivial .rejectRequests) ?_
  refine .cons (.first trivial (.cancelMore nofun)) ?_
  refine .cons (.first trivial (.cancelFront rfl rfl)) ?_
  refine .cons (.first trivial .cancelRespond) ?_
  refine .cons (.second trivial (.processStale rfl)) ?_
  exact .single (.second trivial .processRespond)

end Intrinsic.CallbackHandler
