import IconSharedMemory.LockstepTokens

/-! # A cancellation wakes everyone

`Cancel` posts each of the two futexes once, however many threads wait for them.  That
is enough because a start that finds `kCancelled` posts the futex it has taken again:
one token is handed from waiter to waiter.

The invariant (`Served`) is about one futex at a time.  While the state is
`kCancelled`, the futex is posted, or a thread is about to post it: a start that has
taken the token, or a `Cancel` that has not come to its `Post` yet.  A step of `Reset`
takes tokens for good, so the invariant lasts from the store of a `Cancel` to the next
step of a `Reset` (`undisturbed`), also of one that was called before the `Cancel`
(`earlier_reset_takes_token`).  `EndOperationA` may overwrite `kCancelled`; then
there is nothing to show until the next `Cancel`, which posts both futexes again.
-/
namespace Intrinsic.Lockstep
open Runs

/-! ## Who is about to post -/

/-- A start of the operation that has taken the token and not started. -/
def Pc.carries (x : Side) : Pc → Prop
  | .startCas y | .startRepost y => y = x
  | _ => False

/-- A `Cancel` that has not posted the futex this side waits for. -/
def Pc.cancels (x : Side) : Pc → Prop
  | .cancelPostA => True
  | .cancelPostB => x = .a
  | _ => False

/-- A `Cancel` is in progress. -/
def Pc.inCancel : Pc → Prop
  | .cancelPostA | .cancelPostB => True
  | _ => False

/-- The thread is about to post the futex this side waits for. -/
def Pc.serves (x : Side) (pc : Pc) : Prop := pc.carries x ∨ pc.cancels x

/-- A step of `Reset`. -/
def Label.ofReset : Label → Bool
  | .resetCheck | .resetRefused | .resetWaitA _ | .resetWaitB _ | .resetStore | .resetPost _ => true
  | _ => false

/-- What a step does to "undisturbed". -/
def Label.undisturbed (b : Bool) : Label → Bool
  | .cancelStore => true
  | l => b && !l.ofReset

/-- No step of a `Reset` has been taken since the last time a `Cancel` stored
`kCancelled`. -/
def undisturbed {Tid : Type} (w : List (Tid × Label)) : Bool :=
  w.foldl (fun b y => y.2.undisturbed b) true

/-- The futex this side waits for is posted, or a thread is about to post it. -/
def Served {Tid : Type} (x : Side) (c : Config Tid) : Prop :=
  x.awaited c.shared = .posted ∨ ∃ t, (c.locals t).pc.serves x

/-! ## What a step does -/

section Effect
variable {s s' : Shared} {th th' : Thread} {l : Label}

@[simp] theorem Side.awaited_setAwaited (x : Side) (s : Shared) (f : BinaryFutex) :
    x.awaited (x.setAwaited s f) = f := by
  cases x <;> rfl

theorem Side.awaited_setAwaited_of_ne {x y : Side} (h : y ≠ x) (s : Shared) (f : BinaryFutex) :
    y.awaited (x.setAwaited s f) = y.awaited s := by
  cases x <;> cases y <;> first | rfl | exact absurd rfl h

/-- Nothing in the lockstep closes a futex. -/
theorem Atom.notClosed (h : Atom s th l s' th') (hs : s.NotClosed) : s'.NotClosed := by
  cases h with
  | startWait x f st hpc hwait => exact hs.setAwaited x (hwait.not_closed (hs.awaited x))
  | startRepost x hpc => exact hs.setAwaited x (BinaryFutex.post_not_closed (hs.awaited x))
  | endAPost hpc => exact ⟨BinaryFutex.post_not_closed hs.1, hs.2⟩
  | endBPost hpc => exact ⟨hs.1, BinaryFutex.post_not_closed hs.2⟩
  | cancelPostA hpc => exact ⟨BinaryFutex.post_not_closed hs.1, hs.2⟩
  | cancelPostB hpc => exact ⟨hs.1, BinaryFutex.post_not_closed hs.2⟩
  | resetWaitA f st hpc hwait => exact ⟨hwait.not_closed hs.1, hs.2⟩
  | resetWaitB f st hpc hwait => exact ⟨hs.1, hwait.not_closed hs.2⟩
  | resetPost hpc => exact ⟨hs.1, BinaryFutex.post_not_closed hs.2⟩
  | _ => exact hs

/-- Only a `Cancel` makes the state `kCancelled`. -/
theorem Atom.cancelled_before (h : Atom s th l s' th') (hl : l ≠ .cancelStore)
    (hs' : s'.state = .cancelled) : s.state = .cancelled := by
  cases h with
  | startWait x f st hpc hwait => rwa [Side.setAwaited_state] at hs'
  | startRepost x hpc => rwa [Side.setAwaited_state] at hs'
  | startOk x hpc hs => cases x <;> cases hs'
  | endAStore hpc => cases hs'
  | endBOk hpc hs => cases hs'
  | resetStore hpc => cases hs'
  | cancelStore hpc => exact absurd rfl hl
  | _ => exact hs'

/-- A start that waits on one side leaves the other side's futex alone. -/
theorem Side.posted_setAwaited {x y : Side} {f : BinaryFutex} (hy : y.awaited s = .posted)
    (hx : y = x → f = .posted) : y.awaited (x.setAwaited s f) = .posted := by
  by_cases h : y = x
  · subst h
    rw [awaited_setAwaited]
    exact hx rfl
  · rwa [awaited_setAwaited_of_ne h]

/-- **Taking a token means to bring it back.**  A thread that finds the futex posted, or
was about to post it, leaves it posted or is about to post it. -/
theorem Atom.serves (x : Side) (h : Atom s th l s' th') (hclosed : s.NotClosed)
    (hs : s.state = .cancelled) (hs' : s'.state = .cancelled) (hl : l.ofReset = false)
    (hserved : x.awaited s = .posted ∨ th.pc.serves x) :
    x.awaited s' = .posted ∨ th'.pc.serves x := by
  -- a thread that is not about to post anything finds the futex posted
  have hposted : ∀ pc, th.pc = pc → ¬ pc.serves x → x.awaited s = .posted := by
    rintro pc rfl hpc
    exact hserved.resolve_right hpc
  cases h with
  | startWait y f st hpc hwait =>
    have hbefore := hposted _ hpc fun h => h.elim id id
    by_cases hok : st.isOk = true
    · by_cases hxy : x = y
      · subst hxy
        dsimp only
        rw [if_pos hok]
        exact .inr (.inl rfl)
      · exact .inl (Side.posted_setAwaited hbefore fun h => absurd h hxy)
    · obtain rfl := hwait.notOk (Bool.eq_false_iff.mpr hok)
      refine .inl (Side.posted_setAwaited hbefore ?_)
      rintro rfl
      exact hbefore
  | startCancelled y hpc =>
    by_cases hxy : x = y
    · subst hxy
      exact .inr (.inl rfl)
    · exact .inl (hposted _ hpc fun h => h.elim (fun heq => hxy heq.symm) id)
  | startRepost y hpc =>
    rw [BinaryFutex.post_of_not_closed (hclosed.awaited y)]
    by_cases hxy : x = y
    · subst hxy
      exact .inl (x.awaited_setAwaited ..)
    · have hbefore := hposted _ hpc fun h => h.elim (fun heq => hxy heq.symm) id
      exact .inl (Side.posted_setAwaited hbefore fun _ => rfl)
  | cancelPostA hpc =>
    rw [BinaryFutex.post_of_not_closed hclosed.1]
    cases x with
    | a => exact .inr (.inr rfl)
    | b => exact .inl rfl
  | cancelPostB hpc =>
    rw [BinaryFutex.post_of_not_closed hclosed.2]
    cases x with
    | a => exact .inl rfl
    | b => exact .inl (hposted _ hpc fun h => h.elim id nofun)
  | cancelStore hpc => exact .inr (.inr trivial)
  | endAPost hpc =>
    rw [BinaryFutex.post_of_not_closed hclosed.1]
    cases x with
    | a => exact .inl (hposted _ hpc fun h => h.elim id nofun)
    | b => exact .inl rfl
  | endBPost hpc =>
    rw [BinaryFutex.post_of_not_closed hclosed.2]
    cases x with
    | a => exact .inl rfl
    | b => exact .inl (hposted _ hpc fun h => h.elim id nofun)
  | endACancelled hpc => exact .inl (hposted _ hpc fun h => h.elim id id)
  | endBCancelled hpc => exact .inl (hposted _ hpc fun h => h.elim id id)
  | endARefused hpc => exact .inl (hposted _ hpc fun h => h.elim id id)
  | startOk y hpc hstate => cases y <;> cases hs'
  | startRefused y hpc hstate hc => exact absurd hs hc
  | endALoad hpc hstate => exact absurd hs hstate
  | endAReload hpc hstate => cases hs.symm.trans hstate
  | endAStore hpc => cases hs'
  | endBOk hpc hstate => cases hs'
  | endBRefused hpc hstate hc => exact absurd hs hc
  | resetRefused | resetCheck | resetWaitA | resetWaitB | resetStore | resetPost => cases hl

end Effect

/-! ## Every run -/

variable {Tid : Type} [DecidableEq Tid] {w : List (Tid × Label)} {c d : Config Tid} {t : Tid}
  {l : Label}

omit [DecidableEq Tid] in
theorem undisturbed_snoc (w : List (Tid × Label)) (t : Tid) (l : Label) :
    undisturbed (w ++ [(t, l)]) = l.undisturbed (undisturbed w) := by
  simp [undisturbed]

theorem Label.undisturbed_eq {b : Bool} (hl : l ≠ .cancelStore) :
    l.undisturbed b = (b && !l.ofReset) := by
  cases l <;> first | exact absurd rfl hl | rfl

/-- From the store of a `Cancel` on, both futexes are served. -/
structure CancelInv (w : List (Tid × Label)) (c : Config Tid) : Prop where
  notClosed : c.shared.NotClosed
  served : undisturbed w = true → c.shared.state = .cancelled → ∀ x, Served x c

omit [DecidableEq Tid] in
theorem cancelInv_initial : CancelInv [] (initial Tid) where
  notClosed := ⟨nofun, nofun⟩
  served _ h := by cases h

theorem CancelInv.step (h : CancelInv w c) (hs : Pool.Step Atom Pool.free c (t, l) d) :
    CancelInv (w ++ [(t, l)]) d := by
  cases hs with
  | @mk _ _ sh th hok hatom =>
    refine ⟨hatom.notClosed h.notClosed, fun hcalm hstate x => ?_⟩
    have hself : ∀ {Q : Pc → Prop}, Q th.pc →
        ∃ u, Q (Function.update c.locals t th u).pc := by
      intro Q hQ
      exact ⟨t, by rwa [Function.update_self]⟩
    by_cases hl : l = .cancelStore
    · subst hl
      cases hatom with
      | cancelStore hpc => exact .inr (hself (.inr trivial))
    · rw [undisturbed_snoc, Label.undisturbed_eq hl, Bool.and_eq_true, Bool.not_eq_true'] at hcalm
      obtain ⟨hcalm, hreset⟩ := hcalm
      have hbefore := hatom.cancelled_before hl hstate
      have hmine := hatom.serves x h.notClosed hbefore hstate hreset
      obtain hposted | ⟨u, hu⟩ := h.served hcalm hbefore x
      · exact (hmine (.inl hposted)).imp_right hself
      · by_cases hut : u = t
        · subst hut
          exact (hmine (.inr hu)).imp_right hself
        · refine .inr ⟨u, ?_⟩
          dsimp only
          rwa [Function.update_of_ne hut]

theorem cancelInv_run (h : Run (Pool.Step Atom Pool.free) (initial Tid) w c) : CancelInv w c :=
  h.invariant cancelInv_initial fun _ _ y _ hi hs => hi.step (t := y.1) (l := y.2) hs

/-- A thread that has taken the token can only post it again, and its call then returns
`kAborted`. -/
theorem Atom.of_carries {s s' : Shared} {th th' : Thread} {x : Side} (h : Atom s th l s' th')
    (hclosed : s.NotClosed) (hstate : s.state = .cancelled) (hpc : th.pc.carries x) :
    l = .startCancelled x ∧ s' = s ∧ th'.pc = .startRepost x ∨
      (x.awaited s' = .posted ∧ s'.state = s.state) ∧
        ∃ st, l.returns = some st ∧ st.code = .aborted := by
  cases h with
  | startCancelled y hy =>
    rw [hy] at hpc
    obtain rfl : y = x := hpc
    exact .inl ⟨rfl, rfl, rfl⟩
  | startRepost y hy =>
    rw [hy] at hpc
    obtain rfl : y = x := hpc
    rw [BinaryFutex.post_of_not_closed (hclosed.awaited y)]
    refine .inr ⟨⟨y.awaited_setAwaited .., y.setAwaited_state ..⟩, ?_⟩
    cases y <;> exact ⟨_, rfl, rfl⟩
  | startOk y hy hs => cases y <;> cases hstate.symm.trans hs
  | startRefused y hy hs hc => exact absurd hstate hc
  | startWait y f st hy => rw [hy] at hpc; exact hpc.elim
  | endACancelled hy | endALoad hy | endARefused hy | endAReload hy | endAStore hy | endAPost hy
  | endBOk hy | endBCancelled hy | endBRefused hy | endBPost hy | cancelStore hy | cancelPostA hy
  | cancelPostB hy | resetRefused hy | resetCheck hy | resetWaitA _ _ hy | resetWaitB _ _ hy
  | resetStore hy | resetPost hy => rw [hy] at hpc; exact hpc.elim

/-- The post of a thread that has taken the token. -/
theorem repost_run {x : Side} (hclosed : c.shared.NotClosed)
    (ht : (c.locals t).pc = .startRepost x) :
    ∃ d, Run (Pool.Step Atom Pool.free) c [(t, .startRepost x)] d ∧
      x.awaited d.shared = .posted := by
  refine ⟨_, .single (.mk trivial (.startRepost x ht)), ?_⟩
  rw [BinaryFutex.post_of_not_closed (hclosed.awaited x)]
  exact x.awaited_setAwaited ..

/-- **A token that is on its way arrives**: the thread that has taken it can post it by its
own steps. -/
theorem carrier_posts {x : Side} (hclosed : c.shared.NotClosed)
    (hstate : c.shared.state = .cancelled) (ht : (c.locals t).pc.carries x) :
    ∃ v d, Run (Pool.Step Atom Pool.free) c v d ∧ (∀ y ∈ v, y.1 = t) ∧
      x.awaited d.shared = .posted := by
  cases hpc : (c.locals t).pc with
  | startCas y =>
    rw [hpc] at ht
    obtain rfl : y = x := ht
    have hcancelled : Pool.Step Atom Pool.free c (t, .startCancelled y) _ :=
      .mk trivial (.startCancelled y hpc hstate)
    obtain ⟨d, hrun, hposted⟩ := repost_run (t := t) (x := y)
      (c := ⟨c.shared, Function.update c.locals t { c.locals t with pc := .startRepost y }⟩)
      hclosed (by simp)
    exact ⟨_, d, .cons hcancelled hrun, by simp, hposted⟩
  | startRepost y =>
    rw [hpc] at ht
    obtain rfl : y = x := ht
    obtain ⟨d, hrun, hposted⟩ := repost_run hclosed hpc
    exact ⟨_, d, hrun, by simp, hposted⟩
  | _ =>
    rw [hpc] at ht
    exact ht.elim

/-- **Cancel wakes everyone.**  In every state that any number of threads can bring a
lockstep into, if it is cancelled, no `Cancel` is in progress and no `Reset` has made a
step since the last `Cancel` stored `kCancelled`: the futex that a start waits for is
posted, or a start that has taken its token is about to post it again.  Where it is
posted, any waiting thread can take the token; a thread that has taken one can do nothing
but see the cancellation, post the futex and return `kAborted`, for which it needs nobody
else. -/
theorem cancel_wakes_everyone (h : Run (Pool.Step Atom Pool.free) (initial Tid) w c)
    (hstate : c.shared.state = .cancelled) (hcancel : ∀ t, ¬ (c.locals t).pc.inCancel)
    (hreset : undisturbed w = true) (x : Side) :
    (x.awaited c.shared = .posted ∨ ∃ t, (c.locals t).pc.carries x) ∧
    (x.awaited c.shared = .posted → ∀ t, (c.locals t).pc = .idle →
      ∃ d, Pool.Step Atom Pool.free c (t, .startWait x rtOkStatus) d ∧
        (d.locals t).pc.carries x) ∧
    (∀ t l d, (c.locals t).pc.carries x → Pool.Step Atom Pool.free c (t, l) d →
      l = .startCancelled x ∧ d.shared = c.shared ∧ (d.locals t).pc = .startRepost x ∨
      (x.awaited d.shared = .posted ∧ d.shared.state = c.shared.state) ∧
        ∃ st, l.returns = some st ∧ st.code = .aborted) ∧
    (∀ t, (c.locals t).pc.carries x →
      ∃ v d, Run (Pool.Step Atom Pool.free) c v d ∧ (∀ y ∈ v, y.1 = t) ∧
        x.awaited d.shared = .posted) := by
  have hinv := cancelInv_run h
  refine ⟨?_, fun hposted t hidle => ?_, fun t l d ht hs => ?_, fun t ht => ?_⟩
  · obtain hposted | ⟨t, hcarries | hcancels⟩ := hinv.served hreset hstate x
    · exact .inl hposted
    · exact .inr ⟨t, hcarries⟩
    · have hnot := hcancel t
      cases hpc : (c.locals t).pc <;> rw [hpc] at hcancels hnot <;>
        first | exact absurd trivial hnot | exact hcancels.elim
  · have hwait : (x.awaited c.shared).Wait .ready rtOkStatus := hposted ▸ .taken
    refine ⟨_, .mk trivial (.startWait x .ready rtOkStatus hidle hwait), ?_⟩
    dsimp only
    rw [Function.update_self]
    rfl
  · exact hs.atomic.2.1.of_carries hinv.notClosed hstate ht
  · exact carrier_posts hinv.notClosed hstate ht

/-- Thread `false` cancels; thread `true` has taken the token of B and is on its way to post
it again. -/
theorem cancel_wakes_everyone_waiter :
    ∃ (w : List (Bool × Label)) (c : Config Bool),
      Run (Pool.Step Atom Pool.free) (initial Bool) w c ∧ c.shared.state = .cancelled ∧
        c.shared.aFinished = .ready ∧ ∃ t, (c.locals t).pc.carries .b := by
  have h : Run (Pool.Step Atom Pool.free) (initial Bool)
      [(false, .cancelStore), (false, .cancelPostA), (false, .cancelPostB),
        (true, .startWait .b rtOkStatus)]
      (.two ⟨.ready, .posted, .cancelled⟩ ⟨[], .idle⟩ ⟨[], .startCas .b⟩) := by
    rw [Pool.eq_two (initial Bool)]
    refine .cons (s := .two ⟨.ready, .posted, .cancelled⟩ ⟨[], .cancelPostA⟩ ⟨[], .idle⟩)
      (.first trivial (.cancelStore rfl)) ?_
    refine .cons (s := .two ⟨.posted, .posted, .cancelled⟩ ⟨[], .cancelPostB⟩ ⟨[], .idle⟩)
      (.first trivial (.cancelPostA rfl)) ?_
    refine .cons (s := .two ⟨.posted, .posted, .cancelled⟩ ⟨[], .idle⟩ ⟨[], .idle⟩)
      (.first trivial (.cancelPostB rfl)) ?_
    exact .single (.second trivial (.startWait .b .ready _ rfl .taken))
  have hcancel : ∀ t, ¬ ((Pool.two ⟨.ready, .posted, .cancelled⟩ ⟨[], .idle⟩
      ⟨[], .startCas .b⟩ : Config Bool).locals t).pc.inCancel := by
    intro t
    cases t <;> exact id
  exact ⟨_, _, h, rfl, rfl,
    (cancel_wakes_everyone h rfl hcancel rfl .b).1.resolve_left nofun⟩

/-- What a step does to "no `Reset` started".  The first step of a `Reset` looks at the
state. -/
def Label.noResetStarted (b : Bool) : Label → Bool
  | .cancelStore => true
  | .resetCheck | .resetRefused => false
  | _ => b

/-- No `Reset` has been started since the last time a `Cancel` stored `kCancelled`. -/
def noResetStarted {Tid : Type} (w : List (Tid × Label)) : Bool :=
  w.foldl (fun b y => y.2.noResetStarted b) true

/-- **A `Reset` that was started before the last `Cancel` takes a token for good.**  Thread
`true` has found the lockstep cancelled when thread `false` cancels once more, and then takes
the token of `a_finished_`, for which starts of operation B wait. -/
theorem earlier_reset_takes_token :
    ∃ (w : List (Bool × Label)) (c : Config Bool),
      Run (Pool.Step Atom Pool.free) (initial Bool) w c ∧ c.shared.state = .cancelled ∧
        (∀ t, ¬ (c.locals t).pc.inCancel) ∧ noResetStarted w = true ∧
        ¬ (Side.b.awaited c.shared = .posted ∨ ∃ t, (c.locals t).pc.carries .b) := by
  have hcancel : ∀ th : Thread, Run (Pool.Step Atom Pool.free)
      (.two ⟨.posted, .posted, .cancelled⟩ ⟨[], .idle⟩ th)
      [(false, .cancelStore), (false, .cancelPostA), (false, .cancelPostB)]
      (.two ⟨.posted, .posted, .cancelled⟩ ⟨[], .idle⟩ th) := fun _ =>
    .cons (.first trivial (.cancelStore rfl)) <| .cons (.first trivial (.cancelPostA rfl)) <|
      .single (.first trivial (.cancelPostB rfl))
  have h : Run (Pool.Step Atom Pool.free) (initial Bool)
      ([(false, .cancelStore), (false, .cancelPostA), (false, .cancelPostB), (true, .resetCheck)] ++
        [(false, .cancelStore), (false, .cancelPostA), (false, .cancelPostB)] ++
        [(true, .resetWaitA rtOkStatus)])
      (.two ⟨.ready, .posted, .cancelled⟩ ⟨[], .idle⟩ ⟨[], .resetWaitB⟩) := by
    rw [Pool.eq_two (initial Bool)]
    refine .append (.append ?_ (hcancel ⟨[], .resetWaitA⟩)) (.single (.second trivial
      (.resetWaitA .ready _ rfl .taken)))
    exact .cons (.first trivial (.cancelStore rfl)) <| .cons (.first trivial (.cancelPostA rfl)) <|
      .cons (.first trivial (.cancelPostB rfl)) <| .single (.second trivial (.resetCheck rfl rfl))
  refine ⟨_, _, h, rfl, ?_, rfl, ?_⟩
  · rintro (_ | _) <;> exact id
  · rintro (hposted | ⟨_ | _, hcarries⟩)
    · cases hposted
    · exact hcarries
    · exact hcarries

end Intrinsic.Lockstep
