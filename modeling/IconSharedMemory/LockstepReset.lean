import IconSharedMemory.LockstepCancel

/-! # A reset that fails

`Reset` takes the tokens of both futexes of a cancelled lockstep, that of `a_finished_`
first, and returns the error of the wait that fails.  A start that finds `kCancelled` posts
again what it has taken; `Reset` does not.  If the second wait fails, the token of
`a_finished_` is gone, unless a start has another one: a `Cancel` may have posted the futex
while a start was between its wait and its compare-exchange.

Nothing is won while the lockstep is only started and reset (`Served` is not gained by any
such step), and a start loses nothing.  So a token that is gone stays away, and a token
that is missing in the end was abandoned by some `Reset` (`Abandons`).
-/
namespace Intrinsic.Lockstep
open Runs

/-! ## Starts and resets -/

/-- A step of a start, or of a `Reset` that has not taken both tokens. -/
def Label.quiet : Label → Bool
  | .resetCheck | .resetRefused | .resetWaitA _ | .resetWaitB _ => true
  | l => l.ofStart

/-- A `Reset` has taken the token of the futex this side waits for. -/
def Pc.took : Side → Pc → Prop
  | .b, .resetWaitB | _, .resetStore => True
  | _, _ => False

/-- The futex this side waits for is posted, or the thread is about to post it. -/
def Backs (x : Side) (s : Shared) (th : Thread) : Prop :=
  x.awaited s = .posted ∨ th.pc.serves x

section Effect
variable {s s' : Shared} {th th' : Thread} {l : Label} {x : Side}

theorem not_serves_idle (x : Side) : ¬ Pc.idle.serves x := fun h => h.elim id id

theorem Pc.serves_startCas {x y : Side} : (Pc.startCas y).serves x ↔ y = x :=
  ⟨fun h => h.elim id False.elim, .inl⟩

theorem Pc.serves_startRepost {x y : Side} : (Pc.startRepost y).serves x ↔ y = x :=
  ⟨fun h => h.elim id False.elim, .inl⟩

/-- The state stays `kCancelled`. -/
theorem Atom.cancelled_of_quiet (h : Atom s th l s' th') (hl : l.quiet = true)
    (hs : s.state = .cancelled) : s'.state = .cancelled := by
  cases h with
  | startWait y f st hpc hwait => rwa [Side.setAwaited_state]
  | startRepost y hpc => rwa [Side.setAwaited_state]
  | startOk y hpc hstate => cases y <;> cases hs.symm.trans hstate
  | startCancelled | startRefused | resetCheck | resetRefused | resetWaitA | resetWaitB => exact hs
  | _ => cases hl

/-- **Nothing is won**: what is posted or about to be posted was so before. -/
theorem Atom.backs_before (h : Atom s th l s' th') (hl : l.quiet = true)
    (hs : s.state = .cancelled) (hb : Backs x s' th') : Backs x s th := by
  cases h with
  | startWait y f st hpc hwait =>
    obtain hb | hb := hb
    · by_cases hxy : x = y
      · subst hxy
        rw [Side.awaited_setAwaited] at hb
        exact .inl (hwait.posted_before hb)
      · rw [Side.awaited_setAwaited_of_ne hxy] at hb
        exact .inl hb
    · dsimp only at hb
      split at hb
      · rename_i hok
        obtain rfl := Pc.serves_startCas.mp hb
        exact .inl (hwait.ok hok).1
      · exact absurd hb (not_serves_idle x)
  | startOk y hpc hstate => cases y <;> cases hs.symm.trans hstate
  | startCancelled y hpc =>
    refine hb.imp_right fun hb => ?_
    rw [hpc, Pc.serves_startCas]
    exact Pc.serves_startRepost.mp hb
  | startRefused y hpc hstate hc => exact absurd hs hc
  | startRepost y hpc =>
    by_cases hxy : x = y
    · exact .inr (by rw [hpc, Pc.serves_startRepost, hxy])
    · obtain hb | hb := hb
      · rw [Side.awaited_setAwaited_of_ne hxy] at hb
        exact .inl hb
      · exact absurd hb (not_serves_idle x)
  | resetRefused hpc hstate => exact absurd hs hstate
  | resetCheck hpc => exact hb.imp_right fun h => h.elim False.elim False.elim
  | resetWaitA f st hpc hwait =>
    obtain hb | hb := hb
    · cases x with
      | a => exact .inl hb
      | b => exact .inl (hwait.posted_before hb)
    · dsimp only at hb
      split at hb <;> exact (hb.elim id id).elim
  | resetWaitB f st hpc hwait =>
    obtain hb | hb := hb
    · cases x with
      | a => exact .inl (hwait.posted_before hb)
      | b => exact .inl hb
    · dsimp only at hb
      split at hb <;> exact (hb.elim id id).elim
  | _ => cases hl

/-- **Who takes a token** posts it again, or is a `Reset` that has it now. -/
theorem Atom.backs_after (h : Atom s th l s' th') (hl : l.quiet = true) (hclosed : s.NotClosed)
    (hs : s.state = .cancelled) (hb : Backs x s th) : Backs x s' th' ∨ th'.pc.took x := by
  have hs' := h.cancelled_of_quiet hl hs
  cases hreset : l.ofReset with
  | false => exact .inl (h.serves x hclosed hs hs' hreset hb)
  | true =>
    -- a `Reset` is not about to post anything, so it finds the futex posted
    have hposted : ∀ pc, th.pc = pc → ¬ pc.serves x → x.awaited s = .posted := by
      rintro pc rfl hpc
      exact hb.resolve_right hpc
    cases h with
    | resetRefused hpc hstate => exact absurd hs hstate
    | resetCheck hpc => exact .inl (.inl (hposted _ hpc (not_serves_idle x)))
    | resetWaitA f st hpc hwait =>
      have hbefore := hposted _ hpc fun h => h.elim id id
      by_cases hok : st.isOk = true
      · cases x with
        | a => exact .inl (.inl hbefore)
        | b =>
          dsimp only
          rw [if_pos hok]
          exact .inr trivial
      · obtain rfl := hwait.notOk (Bool.eq_false_iff.mpr hok)
        exact .inl (.inl hbefore)
    | resetWaitB f st hpc hwait =>
      have hbefore := hposted _ hpc fun h => h.elim id id
      by_cases hok : st.isOk = true
      · dsimp only
        rw [if_pos hok]
        exact .inr (by cases x <;> exact trivial)
      · obtain rfl := hwait.notOk (Bool.eq_false_iff.mpr hok)
        exact .inl (.inl hbefore)
    | startWait | startOk | startCancelled | startRefused | startRepost => cases hreset
    | _ => cases hl

/-- A `Reset` that has a token keeps it until its second wait fails; it has the first one
then. -/
theorem Atom.took_after (h : Atom s th l s' th') (hl : l.quiet = true) (ht : th.pc.took x) :
    th'.pc.took x ∨ x = .b ∧ ∃ st, l = .resetWaitB st ∧ st.isOk = false := by
  cases h with
  | resetWaitB f st hpc hwait =>
    rw [hpc] at ht
    cases x with
    | a => exact ht.elim
    | b =>
      by_cases hok : st.isOk = true
      · dsimp only
        rw [if_pos hok]
        exact .inl trivial
      · exact .inr ⟨rfl, st, rfl, Bool.eq_false_iff.mpr hok⟩
  | startWait _ _ _ hpc | startOk _ hpc | startCancelled _ hpc | startRefused _ hpc
  | startRepost _ hpc | resetRefused hpc | resetCheck hpc | resetWaitA _ _ hpc =>
    rw [hpc] at ht
    cases x <;> exact ht.elim
  | _ => cases hl

theorem Atom.pc_resetStore (h : Atom s th .resetStore s' th') : th'.pc = .resetPost := by
  cases h
  rfl

theorem Atom.of_resetPost (h : Atom s th l s' th') (hpc : th.pc = .resetPost) :
    ∃ st, l = .resetPost st := by
  cases h with
  | resetPost => exact ⟨_, rfl⟩
  | _ => simp_all

theorem Atom.resetPost_ok {st : RealtimeStatus} (h : Atom s th (.resetPost st) s' th')
    (hclosed : s.NotClosed) : st.isOk = true := by
  cases h with
  | resetPost hpc =>
    rw [BinaryFutex.post_of_not_closed hclosed.2]
    rfl

end Effect

/-! ## What a failed reset leaves -/

variable {Tid : Type} [DecidableEq Tid] {w v : List (Tid × Label)} {c d e : Config Tid}
  {t : Tid} {l : Label} {x : Side}

omit [DecidableEq Tid] in
theorem served_iff (t : Tid) : Served x c ↔
    Backs x c.shared (c.locals t) ∨ ∃ u, u ≠ t ∧ (c.locals u).pc.serves x := by
  constructor
  · rintro (hposted | ⟨u, hu⟩)
    · exact .inl (.inl hposted)
    · by_cases hut : u = t
      · exact .inl (.inr (hut ▸ hu))
      · exact .inr ⟨u, hut, hu⟩
  · rintro ((hposted | ht) | ⟨u, -, hu⟩)
    · exact .inl hposted
    · exact .inr ⟨t, ht⟩
    · exact .inr ⟨u, hu⟩

/-- A token that is gone stays away. -/
theorem served_before (hs : Pool.Step Atom Pool.free c (t, l) d) (hl : l.quiet = true)
    (hstate : c.shared.state = .cancelled) (hserved : Served x d) : Served x c := by
  obtain ⟨-, hatom, hothers⟩ := hs.atomic
  rw [served_iff t] at hserved ⊢
  obtain hmine | ⟨u, hut, hu⟩ := hserved
  · exact .inl (hatom.backs_before hl hstate hmine)
  · exact .inr ⟨u, hut, by rwa [hothers u hut] at hu⟩

/-- The token is on hand, or a `Reset` has it. -/
def Kept (x : Side) (c : Config Tid) : Prop := Served x c ∨ ∃ t, (c.locals t).pc.took x

/-- **A token that is kept stays so**, unless it is abandoned by a `Reset` that fails. -/
theorem kept_after (hs : Pool.Step Atom Pool.free c (t, l) d) (hl : l.quiet = true)
    (hclosed : c.shared.NotClosed) (hstate : c.shared.state = .cancelled) (hkept : Kept x c)
    (hfails : x = .b → ∀ st, l = .resetWaitB st → st.isOk = false → Served x c) : Kept x d := by
  obtain ⟨-, hatom, hothers⟩ := hs.atomic
  have hafter : Served x c → Kept x d := by
    rw [served_iff t]
    rintro (hmine | ⟨u, hut, hu⟩)
    · obtain hb | ht := hatom.backs_after hl hclosed hstate hmine
      · exact .inl ((served_iff t).mpr (.inl hb))
      · exact .inr ⟨t, ht⟩
    · exact .inl (.inr ⟨u, by rwa [hothers u hut]⟩)
  obtain hserved | ⟨u, hu⟩ := hkept
  · exact hafter hserved
  · by_cases hut : u = t
    · subst hut
      obtain htook | ⟨hx, st, rfl, hst⟩ := hatom.took_after hl hu
      · exact .inr ⟨u, htook⟩
      · exact hafter (hfails hx st rfl hst)
    · exact .inr ⟨u, by rwa [hothers u hut]⟩

/-- Only starts and resets are called, and no `Reset` is successful. -/
structure Unsuccessful (v : List (Tid × Label)) : Prop where
  calls : ∀ y ∈ v, y.2.ofStart = true ∨ y.2.ofReset = true
  fails : ∀ y ∈ v, y.2.ofReset = true → ∀ st, y.2.returns = some st → st.isOk = false

/-- **A `Reset` abandons a token**: its second wait fails when `a_finished_` is not posted and
no other thread is about to post it. -/
def Abandons (c : Config Tid) (v : List (Tid × Label)) (d : Config Tid) : Prop :=
  ∃ v₁ t st v₂ e, v = v₁ ++ (t, .resetWaitB st) :: v₂ ∧ st.isOk = false ∧
    Run (Pool.Step Atom Pool.free) c v₁ e ∧
    Run (Pool.Step Atom Pool.free) e ((t, .resetWaitB st) :: v₂) d ∧ ¬ Served .b e

/-- **The lockstep is as `Cancel` has left it.**  Both futexes are posted; a start takes its
token at once and returns `kAborted`, and changes nothing; a `Reset` is successful. -/
structure Recovered (d : Config Tid) : Prop where
  cancelled : d.shared.state = .cancelled
  posted : d.shared.aFinished = .posted ∧ d.shared.bFinished = .posted
  starts : ∀ t x, (x.awaited d.shared).tryWait.2 = some true ∧
    ∃ st e, (Label.startRepost x).returns = some st ∧ st.code = .aborted ∧
      Run (Pool.Step Atom Pool.free) d
        [(t, .startWait x rtOkStatus), (t, .startCancelled x), (t, .startRepost x)] e ∧
      e.shared = d.shared
  resets : ∀ t, ∃ e, Run (Pool.Step Atom Pool.free) d
      [(t, .resetCheck), (t, .resetWaitA rtOkStatus), (t, .resetWaitB rtOkStatus),
        (t, .resetStore), (t, .resetPost rtOkStatus)] e ∧ e.shared = .init

theorem recovered_of_posted (hidle : ∀ t, (d.locals t).pc = .idle)
    (hstate : d.shared.state = .cancelled) (ha : d.shared.aFinished = .posted)
    (hb : d.shared.bFinished = .posted) : Recovered d := by
  -- what a thread can do on its own, it can do in the pool
  have halone : ∀ {t : Tid} {u : List Label} {s' : Shared},
      Run (Pool.Solo Atom) (d.shared, ⟨(d.locals t).held, .idle⟩) u
        (s', ⟨(d.locals t).held, .idle⟩) →
      ∃ e, Run (Pool.Step Atom Pool.free) d (u.map fun l => (t, l)) e ∧ e.shared = s' := by
    intro t u s' hsolo
    have hself : (⟨(d.locals t).held, .idle⟩ : Thread) = d.locals t := by rw [← hidle t]
    have hfree : ∀ (s : Shared) (x : Thread) (l : Label),
        Pool.free ⟨s, Function.update d.locals t x⟩ t l := fun _ _ _ => trivial
    have hrun := Pool.alone hfree hsolo
    rw [hself, Function.update_eq_self] at hrun
    exact ⟨_, hrun, rfl⟩
  have hposted : ∀ x : Side, x.awaited d.shared = .posted := by
    intro x
    cases x with
    | a => exact hb
    | b => exact ha
  refine ⟨hstate, ⟨ha, hb⟩, fun t x => ⟨by rw [hposted x]; rfl, ?_⟩, fun t => ?_⟩
  · have hwait : (x.awaited d.shared).Wait .ready rtOkStatus := hposted x ▸ .taken
    have hshared : x.setAwaited (x.setAwaited d.shared .ready)
        (x.awaited (x.setAwaited d.shared .ready)).post.1 = d.shared := by
      rw [Side.awaited_setAwaited]
      cases x with
      | a => exact congrArg (fun f => (⟨d.shared.aFinished, f, d.shared.state⟩ : Shared)) hb.symm
      | b => exact congrArg (fun f => (⟨f, d.shared.bFinished, d.shared.state⟩ : Shared)) ha.symm
    have hsolo := halone (t := t) <|
      .cons (.mk (.startWait x .ready rtOkStatus rfl hwait)) <|
      .cons (.mk (.startCancelled x rfl (by rwa [Side.setAwaited_state]))) <|
      .single (.mk (.startRepost x rfl))
    obtain ⟨e, hrun, he⟩ := hsolo
    obtain ⟨st, hst, hcode⟩ :
        ∃ st, (Label.startRepost x).returns = some st ∧ st.code = .aborted := by
      cases x <;> exact ⟨_, rfl, rfl⟩
    exact ⟨st, e, hst, hcode, hrun, he.trans hshared⟩
  · have hwaitA : d.shared.aFinished.Wait .ready rtOkStatus := ha ▸ .taken
    have hwaitB : d.shared.bFinished.Wait .ready rtOkStatus := hb ▸ .taken
    exact halone <|
      .cons (.mk (.resetCheck rfl hstate)) <|
      .cons (.mk (.resetWaitA .ready rtOkStatus rfl hwaitA)) <|
      .cons (.mk (.resetWaitB .ready rtOkStatus rfl hwaitB)) <|
      .cons (.mk (.resetStore rfl)) <|
      .single (.mk (.resetPost rfl))

/-! ## Every run -/

theorem notClosed_run (h : Run (Pool.Step Atom Pool.free) c v d) (hc : c.shared.NotClosed) :
    d.shared.NotClosed :=
  h.stateInvariant (I := fun c => c.shared.NotClosed) hc
    fun _ _ _ hclosed hs => hs.atomic.2.1.notClosed hclosed

theorem cancelled_run (h : Run (Pool.Step Atom Pool.free) c v d)
    (hquiet : ∀ y ∈ v, y.2.quiet = true) (hstate : c.shared.state = .cancelled) :
    d.shared.state = .cancelled := by
  induction h with
  | nil => exact hstate
  | snoc _ hs ih =>
    rw [List.forall_mem_append, List.forall_mem_singleton] at hquiet
    exact hs.atomic.2.1.cancelled_of_quiet hquiet.2 (ih hquiet.1)

theorem not_served_run (h : Run (Pool.Step Atom Pool.free) c v d)
    (hquiet : ∀ y ∈ v, y.2.quiet = true) (hstate : c.shared.state = .cancelled)
    (hnot : ¬ Served x c) : ¬ Served x d := by
  induction h with
  | nil => exact hnot
  | snoc hrun hs ih =>
    rw [List.forall_mem_append, List.forall_mem_singleton] at hquiet
    exact fun hserved => ih hquiet.1
      (served_before hs hquiet.2 (cancelled_run hrun hquiet.1 hstate) hserved)

/-- After its store a `Reset` has nothing left to do but to post. -/
theorem resetPost_mem (h : Run (Pool.Step Atom Pool.free) c v d)
    (hpc : (c.locals t).pc = .resetPost) :
    (d.locals t).pc = .resetPost ∨ ∃ st, (t, Label.resetPost st) ∈ v := by
  induction h with
  | nil => exact .inl hpc
  | @snoc v d d' y _ hs ih =>
    obtain ⟨u, l⟩ := y
    obtain hd | ⟨st, hmem⟩ := ih
    · obtain ⟨-, hatom, hothers⟩ := hs.atomic
      by_cases hut : u = t
      · subst hut
        obtain ⟨st, rfl⟩ := hatom.of_resetPost hd
        exact .inr ⟨st, List.mem_append_right _ (.head _)⟩
      · exact .inl (by rwa [hothers t (Ne.symm hut)])
    · exact .inr ⟨st, List.mem_append_left _ hmem⟩

/-- A `Reset` that returns an error has not stored anything. -/
theorem Unsuccessful.quiet (hv : Unsuccessful v) (h : Run (Pool.Step Atom Pool.free) c v d)
    (hclosed : c.shared.NotClosed) (hidle : ∀ t, (d.locals t).pc = .idle) :
    ∀ y ∈ v, y.2.quiet = true := by
  have hpost : ∀ t st, (t, Label.resetPost st) ∉ v := by
    intro t st hmem
    obtain ⟨v₁, v₂, rfl⟩ := List.append_of_mem hmem
    obtain ⟨e, hrun, hrest⟩ := h.split
    obtain ⟨e', hs, -⟩ := hrest.uncons
    have hok := hs.atomic.2.1.resetPost_ok (notClosed_run hrun hclosed)
    rw [hv.fails _ hmem rfl st rfl] at hok
    cases hok
  have hstore : ∀ t, (t, Label.resetStore) ∉ v := by
    intro t hmem
    obtain ⟨v₁, v₂, rfl⟩ := List.append_of_mem hmem
    obtain ⟨e, -, hrest⟩ := h.split
    obtain ⟨e', hs, hrest⟩ := hrest.uncons
    obtain hd | ⟨st, hmem⟩ := resetPost_mem hrest hs.atomic.2.1.pc_resetStore
    · cases (hidle t).symm.trans hd
    · exact hpost t st (List.mem_append_right _ (List.mem_cons_of_mem _ hmem))
  rintro ⟨t, l⟩ hmem
  have hcalls := hv.calls _ hmem
  cases l with
  | resetStore => exact absurd hmem (hstore t)
  | resetPost st => exact absurd hmem (hpost t st)
  | _ => first | rfl | simp [Label.ofStart, Label.ofReset] at hcalls

/-- Every token of the lockstep is on hand in the end, if no `Reset` has abandoned one. -/
theorem kept_run (h : Run (Pool.Step Atom Pool.free) c v d) (hquiet : ∀ y ∈ v, y.2.quiet = true)
    (hclosed : c.shared.NotClosed) (hstate : c.shared.state = .cancelled)
    (hserved : ∀ x, Served x c) (habandons : ¬ Abandons c v d) : ∀ x, Kept x d := by
  induction h with
  | nil => exact fun x => .inl (hserved x)
  | @snoc v e d y hrun hs ih =>
    obtain ⟨t, l⟩ := y
    rw [List.forall_mem_append, List.forall_mem_singleton] at hquiet
    have hkept : ∀ x, Kept x e := by
      refine ih hquiet.1 ?_
      rintro ⟨v₁, u, st, v₂, e₁, rfl, hst, hrun₁, hrun₂, hnot⟩
      exact habandons ⟨v₁, u, st, v₂ ++ [(t, l)], e₁, by simp, hst, hrun₁, hrun₂.snoc hs, hnot⟩
    have hstate := cancelled_run hrun hquiet.1 hstate
    have hclosed := notClosed_run hrun hclosed
    refine fun x => kept_after hs hquiet.2 hclosed hstate (hkept x) ?_
    rintro rfl st rfl hst
    by_contra hnot
    exact habandons ⟨v, t, st, [], e, rfl, hst, hrun, .single hs, hnot⟩

omit [DecidableEq Tid] in
theorem Kept.posted (h : Kept x d) (hidle : ∀ t, (d.locals t).pc = .idle) :
    x.awaited d.shared = .posted := by
  rcases h with (hposted | ⟨t, ht⟩) | ⟨t, ht⟩
  · exact hposted
  · rw [hidle t] at ht
    exact absurd ht (not_serves_idle x)
  · rw [hidle t] at ht
    cases x <;> exact ht.elim

/-- **What a `Reset` that fails leaves behind.**  A lockstep has been cancelled, and then it is
started and reset by any threads until all calls have returned, the resets with errors.  It is
as `Cancel` has left it exactly if no `Reset` has abandoned the token of `a_finished_`. -/
theorem failed_reset_recovers_iff (h : Run (Pool.Step Atom Pool.free) (initial Tid) w c)
    (hstate : c.shared.state = .cancelled) (hreset : undisturbed w = true)
    (hrun : Run (Pool.Step Atom Pool.free) c v d) (hv : Unsuccessful v)
    (hidle : ∀ t, (d.locals t).pc = .idle) : Recovered d ↔ ¬ Abandons c v d := by
  have hinv := cancelInv_run h
  have hquiet := hv.quiet hrun hinv.notClosed hidle
  constructor
  · rintro hd ⟨v₁, t, st, v₂, e, rfl, -, hrun₁, hrun₂, hnot⟩
    rw [List.forall_mem_append] at hquiet
    exact not_served_run hrun₂ hquiet.2 (cancelled_run hrun₁ hquiet.1 hstate) hnot
      (.inl hd.posted.1)
  · intro habandons
    have hkept := kept_run hrun hquiet hinv.notClosed hstate (hinv.served hreset hstate) habandons
    exact recovered_of_posted hidle (cancelled_run hrun hquiet hstate) ((hkept .b).posted hidle)
      ((hkept .a).posted hidle)

/-- A `Reset` waits for 100 ms. -/
def resetTimeout : RealtimeStatus :=
  formatRealtimeStatus .deadlineExceeded
    (ascii "Timeout after " ++ ascii (toString 100) ++ ascii " ms")

/-- Thread `false` cancels. -/
def cancelling : List (Bool × Label) :=
  [(false, .cancelStore), (false, .cancelPostA), (false, .cancelPostB)]

theorem cancelling_run : Run (Pool.Step Atom Pool.free) (initial Bool) cancelling
    (.two ⟨.posted, .posted, .cancelled⟩ .init .init) := by
  rw [Pool.eq_two (initial Bool)]
  exact .cons (.first trivial (.cancelStore rfl)) <|
    .cons (.first trivial (.cancelPostA rfl)) <| .single (.first trivial (.cancelPostB rfl))

/-- Thread `true` starts B; meanwhile thread `false` resets, and does not get the first
token. -/
def resettingFirst : List (Bool × Label) :=
  [(true, .startWait .b rtOkStatus), (false, .resetCheck), (false, .resetWaitA resetTimeout),
    (true, .startCancelled .b), (true, .startRepost .b)]

/-- Thread `true` starts A; meanwhile thread `false` resets, and does not get the second
token. -/
def resettingSecond : List (Bool × Label) :=
  [(true, .startWait .a rtOkStatus), (false, .resetCheck), (false, .resetWaitA rtOkStatus),
    (false, .resetWaitB resetTimeout), (true, .startCancelled .a), (true, .startRepost .a)]

theorem unsuccessful_resettingFirst : Unsuccessful resettingFirst where
  calls := by decide
  fails := by simp [resettingFirst, Label.ofReset, Label.returns, resetTimeout]

theorem unsuccessful_resettingSecond : Unsuccessful resettingSecond where
  calls := by decide
  fails := by simp [resettingSecond, Label.ofReset, Label.returns, resetTimeout]

/-- The first of these leaves the lockstep as it was. -/
theorem failed_reset_recovers_first : ∃ d : Config Bool,
    Run (Pool.Step Atom Pool.free) (.two ⟨.posted, .posted, .cancelled⟩ .init .init)
      resettingFirst d ∧ Recovered d := by
  have hrun : Run (Pool.Step Atom Pool.free)
      (.two ⟨.posted, .posted, .cancelled⟩ .init .init) resettingFirst
      (.two ⟨.posted, .posted, .cancelled⟩ .init .init) :=
    .cons (.second trivial (.startWait .b .ready _ rfl .taken)) <|
    .cons (.first trivial (.resetCheck rfl rfl)) <|
    .cons (.first trivial (.resetWaitA .ready _ rfl (.timedOut _ 100))) <|
    .cons (.second trivial (.startCancelled .b rfl rfl)) <|
    .single (.second trivial (.startRepost .b rfl))
  refine ⟨_, hrun, (failed_reset_recovers_iff cancelling_run rfl rfl hrun
    unsuccessful_resettingFirst fun t => by cases t <;> rfl).mpr ?_⟩
  rintro ⟨v₁, t, st, v₂, -, hv, -⟩
  have hmem : (t, Label.resetWaitB st) ∈ resettingFirst := hv ▸ by simp
  simp [resettingFirst] at hmem

/-- The second does not: `a_finished_` is not posted, so that a start of B and another `Reset`
wait until their deadlines. -/
theorem failed_reset_loses_token : ∃ (w v : List (Bool × Label)) (c d : Config Bool),
    Run (Pool.Step Atom Pool.free) (initial Bool) w c ∧ c.shared.state = .cancelled ∧
      undisturbed w = true ∧ Run (Pool.Step Atom Pool.free) c v d ∧ Unsuccessful v ∧
      (∀ t, (d.locals t).pc = .idle) ∧ d.shared.aFinished = .ready ∧
      (Side.b.awaited d.shared).tryWait.2 = some false ∧ ¬ Recovered d := by
  have hrun : Run (Pool.Step Atom Pool.free)
      (.two ⟨.posted, .posted, .cancelled⟩ .init .init) resettingSecond
      (.two ⟨.ready, .posted, .cancelled⟩ .init .init) :=
    .cons (.second trivial (.startWait .a .ready _ rfl .taken)) <|
    .cons (.first trivial (.resetCheck rfl rfl)) <|
    .cons (.first trivial (.resetWaitA .ready _ rfl .taken)) <|
    .cons (.first trivial (.resetWaitB .ready _ rfl (.timedOut _ 100))) <|
    .cons (.second trivial (.startCancelled .a rfl rfl)) <|
    .single (.second trivial (.startRepost .a rfl))
  refine ⟨_, _, _, _, cancelling_run, rfl, rfl, hrun, unsuccessful_resettingSecond, ?_, rfl, rfl,
    fun hd => by cases hd.posted.1⟩
  intro t
  cases t <;> rfl

end Intrinsic.Lockstep
