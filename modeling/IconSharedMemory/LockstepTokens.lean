import IconSharedMemory.LockstepSafety

/-! # Conservation of the lockstep's token

As long as nobody cancels, a lockstep has one token.  It lies in one of the two
futexes, or a thread carries it: between its successful wait and its
compare-exchange, while its operation is in progress, or between the state change
and the `Post` of its `End`.  What the token is at any moment determines `state_`
(`Token.state`), and a step either turns the one token into another one or does not
see it (`Atom.token`).

From that everything a client relies on follows (`one_token`): no start is refused,
no matched end fails, and the system never comes to rest without a posted futex.
Waits may time out or fail at any moment; a wait that fails takes no token.
-/
namespace Intrinsic.Lockstep
open Runs

/-! ## Where the token is -/

/-- What the token can be: permission to start B (`aSide`: operation A is over),
permission to start A (`bSide`), or a running operation. -/
inductive Token
  | aSide | bSide
  | running (x : Side)
  deriving DecidableEq, Repr

/-- The value of `state_` that goes with the token. -/
def Token.state : Token → State
  | .aSide => .aFinished
  | .bSide => .bFinished
  | .running x => x.running

/-- The token a start of the operation takes. -/
def Side.takes : Side → Token
  | .a => .bSide
  | .b => .aSide

/-- The tokens in a futex. -/
def lyingIn (f : BinaryFutex) (k : Token) : List Token := if f = .posted then [k] else []

/-- The tokens in the two futexes. -/
def Shared.tokens (s : Shared) : List Token :=
  lyingIn s.aFinished .aSide ++ lyingIn s.bFinished .bSide

/-- The token a thread carries in the middle of a start or an end. -/
def Pc.token : Pc → List Token
  | .startCas x => [x.takes]
  | .endAPost => [.aSide]
  | .endBPost => [.bSide]
  | _ => []

/-- The tokens a thread carries. -/
def Thread.tokens (th : Thread) : List Token := th.held.map .running ++ th.pc.token

/-- Neither futex is closed. -/
def Shared.NotClosed (s : Shared) : Prop := s.aFinished ≠ .closed ∧ s.bFinished ≠ .closed

/-- Not one of the places that only a cancellation leads to. -/
def Pc.calm : Pc → Prop
  | .startRepost _ | .cancelPostA | .cancelPostB | .resetWaitA | .resetWaitB | .resetStore
  | .resetPost => False
  | _ => True

@[simp] theorem lyingIn_posted (k : Token) : lyingIn .posted k = [k] := rfl

@[simp] theorem lyingIn_ready (k : Token) : lyingIn .ready k = [] := rfl

theorem Shared.NotClosed.setAwaited {s : Shared} (h : s.NotClosed) (x : Side) {f : BinaryFutex}
    (hf : f ≠ .closed) : (x.setAwaited s f).NotClosed := by
  cases x with
  | a => exact ⟨h.1, hf⟩
  | b => exact ⟨hf, h.2⟩

theorem Shared.NotClosed.awaited {s : Shared} (h : s.NotClosed) (x : Side) :
    x.awaited s ≠ .closed := by
  cases x with
  | a => exact h.2
  | b => exact h.1

/-! ## What the clients promise, and what they get -/

/-- Nobody cancels, and an operation is ended by the thread that holds it. -/
def NoCancel {Tid : Type} (c : Config Tid) (t : Tid) (l : Label) : Prop :=
  l ≠ .cancelStore ∧ Usage c t l

/-- A start's step. -/
def Label.ofStart : Label → Bool
  | .startWait _ _ | .startOk _ | .startCancelled _ | .startRefused _ | .startRepost _ => true
  | _ => false

/-- An end's step. -/
def Label.ofEnd : Label → Bool
  | .endALoad | .endACancelled | .endAReload | .endARefused | .endAStore | .endAPost _ | .endBOk
  | .endBCancelled | .endBRefused | .endBPost _ => true
  | _ => false

/-- What a step's call may return: a start neither `kFailedPrecondition` nor
`kAborted`, an end only ok. -/
def Label.Fine (l : Label) : Prop :=
  ∀ st, l.returns = some st →
    (l.ofStart → st.code ≠ .failedPrecondition ∧ st.code ≠ .aborted) ∧ (l.ofEnd → st.isOk)

/-- A step that does not end its call. -/
theorem Label.fine_of_none {l : Label} (h : l.returns = none) : l.Fine := by
  intro st hst
  rw [h] at hst
  cases hst

/-- A step that belongs to neither a start nor an end. -/
theorem Label.fine_of_other {l : Label} (hstart : l.ofStart = false) (hend : l.ofEnd = false) :
    l.Fine := by
  intro st _
  rw [hstart, hend]
  exact ⟨nofun, nofun⟩

/-- The wait of a start takes the token or fails in a way the caller is told about. -/
theorem fine_startWait {x : Side} {f f' : BinaryFutex} {st : RealtimeStatus} (h : f.Wait f' st)
    (hf : f ≠ .closed) : (Label.startWait x st).Fine := by
  intro st' hst'
  refine ⟨fun _ => ?_, nofun⟩
  cases h with
  | taken => cases hst'
  | closed => exact absurd rfl hf
  | timedOut | failed | clockFailed =>
    obtain rfl := Option.some.inj hst'
    exact ⟨nofun, nofun⟩

/-! ## What a step does to the token -/

/-- The thread sees the token `k` or no token, and `k` fits the state. -/
def Sees (k : Token) (s : Shared) (th : Thread) : Prop :=
  s.state = k.state ∧ (s.tokens ++ th.tokens = [k] ∨ s.tokens ++ th.tokens = [])

/-- **What a step does to the token `k`**: the thread that sees it turns it into one
that fits the new state; a thread that does not see it leaves no other. -/
def TokenEffect (k : Token) (s : Shared) (th : Thread) (s' : Shared) (th' : Thread) : Prop :=
  ∃ k', s'.state = k'.state ∧
    (s.tokens ++ th.tokens = [k] ∧ s'.tokens ++ th'.tokens = [k'] ∨
      k' = k ∧ s.tokens ++ th.tokens = [] ∧ s'.tokens ++ th'.tokens = [])

section Effect
variable {s s' : Shared} {th th' : Thread} {k j : Token}

theorem Sees.one (h : Sees k s th) : (s.tokens ++ th.tokens).length ≤ 1 := by
  rcases h.2 with h | h <;> simp [h]

/-- A token in the middle of the thread's call is the only one it sees. -/
theorem Sees.of_pc (h : Sees k s th) (hpc : th.pc.token = [j]) :
    s.tokens = [] ∧ th.held = [] ∧ s.state = j.state := by
  have hone := h.one
  rw [Thread.tokens, hpc] at hone
  simp only [List.length_append, List.length_map, List.length_singleton] at hone
  have htokens : s.tokens = [] := List.length_eq_zero_iff.mp (by omega)
  have hheld : th.held = [] := List.length_eq_zero_iff.mp (by omega)
  obtain ⟨hk, hsee⟩ := h
  simp only [Thread.tokens, hpc, htokens, hheld, List.map_nil, List.nil_append, reduceCtorEq,
    or_false, List.singleton_inj] at hsee
  exact ⟨htokens, hheld, hsee ▸ hk⟩

/-- An operation the thread has in progress is the only token it sees. -/
theorem Sees.of_held (h : Sees k s th) {x : Side} (hx : x ∈ th.held) :
    s.tokens = [] ∧ th.held = [x] ∧ th.pc.token = [] ∧ s.state = x.running := by
  have hone := h.one
  simp only [Thread.tokens, List.length_append, List.length_map] at hone
  have hpos := List.length_pos_of_mem hx
  obtain ⟨y, hy⟩ := List.length_eq_one_iff.mp (show th.held.length = 1 by omega)
  have htokens : s.tokens = [] := List.length_eq_zero_iff.mp (by omega)
  have hpc : th.pc.token = [] := List.length_eq_zero_iff.mp (by omega)
  rw [hy, List.mem_singleton] at hx
  subst hx
  obtain ⟨hk, hsee⟩ := h
  simp only [Thread.tokens, hpc, htokens, hy, List.map_cons, List.map_nil, List.append_nil,
    List.nil_append, reduceCtorEq, or_false, List.singleton_inj] at hsee
  exact ⟨htokens, hy, hpc, by rw [hk, ← hsee]; rfl⟩

/-- A step that only moves the token, or leaves it where it is. -/
theorem Sees.moves (h : Sees k s th) (hstate : s'.state = s.state)
    (hperm : (s'.tokens ++ th'.tokens).Perm (s.tokens ++ th.tokens)) :
    TokenEffect k s th s' th' := by
  refine ⟨k, hstate.trans h.1, ?_⟩
  rcases h.2 with hsee | hsee <;> rw [hsee] at hperm
  · exact .inl ⟨hsee, List.perm_singleton.mp hperm⟩
  · exact .inr ⟨rfl, hsee, List.perm_nil.mp hperm⟩

/-- A step by the thread that carries the token. -/
theorem Sees.turns (h : Sees k s th) (j' : Token) (hbefore : s.tokens ++ th.tokens = [j])
    (hstate : s'.state = j'.state) (hafter : s'.tokens ++ th'.tokens = [j']) :
    TokenEffect k s th s' th' := by
  refine ⟨j', hstate, .inl ⟨?_, hafter⟩⟩
  rcases h.2 with hsee | hsee
  · exact hsee
  · rw [hbefore] at hsee
    cases hsee

/-- A successful wait takes the token out of the futex. -/
theorem perm_startWait (x : Side) (hf : x.awaited s = .posted) (hpc : th.pc = .idle) :
    ((x.setAwaited s .ready).tokens ++ Thread.tokens { th with pc := .startCas x }).Perm
      (s.tokens ++ th.tokens) := by
  cases x with
  | a =>
    have hb : s.bFinished = .posted := hf
    simp only [Side.setAwaited, Shared.tokens, Thread.tokens, hb, hpc, lyingIn_ready,
      lyingIn_posted, Pc.token, Side.takes, List.append_nil, List.append_assoc]
    exact List.Perm.append_left _ List.perm_append_comm
  | b =>
    have ha : s.aFinished = .posted := hf
    simp only [Side.setAwaited, Shared.tokens, Thread.tokens, ha, hpc, lyingIn_ready,
      lyingIn_posted, Pc.token, Side.takes, List.append_nil, List.nil_append]
    rw [← List.append_assoc, List.append_assoc [Token.aSide]]
    exact List.perm_append_comm

end Effect

/-- **What one step does while nobody cancels.** -/
theorem Atom.token {s s' : Shared} {th th' : Thread} {l : Label} {k : Token}
    (h : Atom s th l s' th') (hsee : Sees k s th) (hclosed : s.NotClosed) (hcalm : th.pc.calm)
    (hl : l ≠ .cancelStore) (henda : th.pc.endingA → Side.a ∈ th.held)
    (hendb : l = .endBOk ∨ l = .endBRefused → Side.b ∈ th.held) :
    TokenEffect k s th s' th' ∧ s'.NotClosed ∧ th'.pc.calm ∧ l.Fine := by
  have hstate : s.state ≠ .cancelled := by
    rw [hsee.1]
    rcases k with _ | _ | (_ | _) <;> exact nofun
  cases h with
  | startWait x f st hpc hwait =>
    have hf := hwait.not_closed (hclosed.awaited x)
    refine ⟨?_, hclosed.setAwaited x hf, ?_, fine_startWait hwait (hclosed.awaited x)⟩
    · by_cases hok : st.isOk = true
      · obtain ⟨hposted, rfl⟩ := hwait.ok hok
        rw [if_pos hok]
        exact hsee.moves (x.setAwaited_state ..) (perm_startWait x hposted hpc)
      · obtain rfl := hwait.notOk (Bool.eq_false_iff.mpr hok)
        rw [if_neg hok]
        refine hsee.moves (x.setAwaited_state ..) ?_
        cases x <;> simp only [Side.setAwaited, Side.awaited, Thread.tokens, hpc] <;> rfl
    · dsimp only
      split <;> trivial
  | startOk x hpc hs =>
    obtain ⟨htokens, hheld, -⟩ := hsee.of_pc (j := x.takes) (by rw [hpc]; rfl)
    refine ⟨hsee.turns (.running x) (j := x.takes) ?_ rfl ?_, hclosed, trivial, ?_⟩
    · simp only [htokens, Thread.tokens, hheld, hpc]; rfl
    · show s.tokens ++ _ = _
      simp only [htokens, Thread.tokens, hheld]; rfl
    · intro st hst
      obtain rfl := Option.some.inj hst
      exact ⟨fun _ => ⟨nofun, nofun⟩, nofun⟩
  | startRefused x hpc hs hc =>
    obtain ⟨-, -, hk⟩ := hsee.of_pc (j := x.takes) (by rw [hpc]; rfl)
    cases x <;> exact absurd hk hs
  | endALoad hpc hs =>
    refine ⟨hsee.moves rfl ?_, hclosed, trivial, Label.fine_of_none rfl⟩
    simp only [Thread.tokens, hpc]; rfl
  | endARefused hpc hs =>
    exact absurd (hsee.of_held (henda (by rw [hpc]; trivial))).2.2.2 hs
  | endAReload hpc hs =>
    refine ⟨hsee.moves rfl ?_, hclosed, trivial, Label.fine_of_none rfl⟩
    simp only [Thread.tokens, hpc]; rfl
  | endAStore hpc =>
    obtain ⟨htokens, hheld, hnone, -⟩ := hsee.of_held (henda (by rw [hpc]; trivial))
    refine ⟨hsee.turns .aSide (j := .running .a) ?_ rfl ?_, hclosed, trivial,
      Label.fine_of_none rfl⟩
    · simp only [htokens, Thread.tokens, hheld, hnone]; rfl
    · show s.tokens ++ _ = _
      simp only [htokens, Thread.tokens, hheld]; rfl
  | endAPost hpc =>
    obtain ⟨htokens, hheld, hk⟩ := hsee.of_pc (j := .aSide) (by rw [hpc]; rfl)
    obtain ⟨-, hb⟩ := List.append_eq_nil_iff.mp htokens
    rw [BinaryFutex.post_of_not_closed hclosed.1]
    refine ⟨hsee.turns .aSide (j := .aSide) ?_ hk ?_, ⟨nofun, hclosed.2⟩, trivial, ?_⟩
    · simp only [htokens, Thread.tokens, hheld, hpc]; rfl
    · simp only [Shared.tokens, Thread.tokens, hheld, hb]; rfl
    · intro st hst
      obtain rfl := Option.some.inj hst
      exact ⟨nofun, fun _ => rfl⟩
  | endBOk hpc hs =>
    obtain ⟨htokens, hheld, hnone, -⟩ := hsee.of_held (hendb (.inl rfl))
    refine ⟨hsee.turns .bSide (j := .running .b) ?_ rfl ?_, hclosed, trivial,
      Label.fine_of_none rfl⟩
    · simp only [htokens, Thread.tokens, hheld, hnone]; rfl
    · show s.tokens ++ _ = _
      simp only [htokens, Thread.tokens, hheld]; rfl
  | endBRefused hpc hs hc => exact absurd (hsee.of_held (hendb (.inr rfl))).2.2.2 hs
  | endBPost hpc =>
    obtain ⟨htokens, hheld, hk⟩ := hsee.of_pc (j := .bSide) (by rw [hpc]; rfl)
    obtain ⟨ha, -⟩ := List.append_eq_nil_iff.mp htokens
    rw [BinaryFutex.post_of_not_closed hclosed.2]
    refine ⟨hsee.turns .bSide (j := .bSide) ?_ hk ?_, ⟨hclosed.1, nofun⟩, trivial, ?_⟩
    · simp only [htokens, Thread.tokens, hheld, hpc]; rfl
    · simp only [Shared.tokens, Thread.tokens, hheld, ha]; rfl
    · intro st hst
      obtain rfl := Option.some.inj hst
      exact ⟨nofun, fun _ => rfl⟩
  | resetRefused hpc hs =>
    refine ⟨hsee.moves rfl ?_, hclosed, trivial, Label.fine_of_other rfl rfl⟩
    simp only [Thread.tokens, hpc]; rfl
  | startCancelled x hpc hs => exact absurd hs hstate
  | endACancelled hpc hs => exact absurd hs hstate
  | endBCancelled hpc hs => exact absurd hs hstate
  | resetCheck hpc hs => exact absurd hs hstate
  | cancelStore hpc => exact absurd rfl hl
  | startRepost x hpc => rw [hpc] at hcalm; exact hcalm.elim
  | cancelPostA hpc => rw [hpc] at hcalm; exact hcalm.elim
  | cancelPostB hpc => rw [hpc] at hcalm; exact hcalm.elim
  | resetWaitA f st hpc hwait => rw [hpc] at hcalm; exact hcalm.elim
  | resetWaitB f st hpc hwait => rw [hpc] at hcalm; exact hcalm.elim
  | resetStore hpc => rw [hpc] at hcalm; exact hcalm.elim
  | resetPost hpc => rw [hpc] at hcalm; exact hcalm.elim

/-! ## The token along a run -/

variable {Tid : Type} [DecidableEq Tid] {w : List (Tid × Label)} {c d : Config Tid} {t : Tid}
  {l : Label}

/-- **The token invariant**: there is exactly one token, it fits the state, and no
call so far has failed other than by its wait. -/
structure TokenInv (w : List (Tid × Label)) (c : Config Tid) : Prop where
  notClosed : c.shared.NotClosed
  calm : ∀ t, (c.locals t).pc.calm
  token : ∃ k, Single Thread.tokens c.shared.tokens k c.locals ∧ c.shared.state = k.state
  fine : ∀ y ∈ w, y.2.Fine

omit [DecidableEq Tid] in
theorem tokenInv_initial : TokenInv [] (initial Tid) where
  notClosed := ⟨nofun, nofun⟩
  calm _ := trivial
  token := ⟨.bSide, .lies rfl fun _ => rfl, rfl⟩
  fine _ h := absurd h List.not_mem_nil

theorem TokenInv.step (h : TokenInv w c) (hinv : Inv w c)
    (hs : Pool.Step Atom NoCancel c (t, l) d) : TokenInv (w ++ [(t, l)]) d := by
  obtain ⟨k, hsingle, hk⟩ := h.token
  cases hs with
  | mk hok hatom =>
    obtain ⟨⟨k', hk', heffect⟩, hclosed, hcalm, hfine⟩ :=
      hatom.token ⟨hk, hsingle.sees t⟩ h.notClosed (h.calm t) hok.1 (hinv.endingA t) (by
        rintro (rfl | rfl) <;> exact hok.2)
    refine ⟨hclosed, forall_update (fun th : Thread => th.pc.calm) hcalm fun u _ => h.calm u,
      ⟨k', ?_, hk'⟩, ?_⟩
    · rcases heffect with ⟨hsees, hafter⟩ | ⟨rfl, hsees, hafter⟩
      · exact hsingle.exchange hsees hafter
      · exact hsingle.ignore hsees hafter
    · intro y hy
      rcases List.mem_append.mp hy with hy | hy
      · exact h.fine y hy
      · rw [List.mem_singleton.mp hy]
        exact hfine

theorem tokenInv_run (h : Run (Pool.Step Atom NoCancel) (initial Tid) w c) :
    Inv w c ∧ TokenInv w c :=
  h.invariant (I := fun w c => Inv w c ∧ TokenInv w c) ⟨inv_initial, tokenInv_initial⟩
    fun _ _ y _ hi hs => ⟨inv_step (t := y.1) (l := y.2) hi.1 (hs.weaken fun _ _ _ hok => hok.2),
      hi.2.step (t := y.1) (l := y.2) hi.1 hs⟩

/-- **Token conservation.**  In every state that any number of threads can bring the
lockstep into without cancelling it, there is exactly one token, in a futex or with
one thread, and it fits `state_`.  No start has returned `kFailedPrecondition` or
`kAborted` and no end has failed.  And the system is not stuck: a thread has an
operation in progress or is in the middle of a start or an end, or a futex is
posted. -/
theorem one_token (h : Run (Pool.Step Atom NoCancel) (initial Tid) w c) :
    (∃ k, Single Thread.tokens c.shared.tokens k c.locals ∧ c.shared.state = k.state) ∧
      (∀ y ∈ w, y.2.Fine) ∧
      ((∃ t, (c.locals t).held ≠ [] ∨ (c.locals t).pc ≠ .idle) ∨
        c.shared.aFinished = .posted ∨ c.shared.bFinished = .posted) := by
  obtain ⟨-, hinv⟩ := tokenInv_run h
  refine ⟨hinv.token, hinv.fine, ?_⟩
  obtain ⟨k, hsingle, -⟩ := hinv.token
  cases hsingle with
  | lies hlying _ =>
    right
    by_contra hnot
    obtain ⟨ha, hb⟩ := not_or.mp hnot
    rw [Shared.tokens, lyingIn, lyingIn, if_neg ha, if_neg hb] at hlying
    cases hlying
  | carriedBy t _ ht _ =>
    refine .inl ⟨t, ?_⟩
    by_contra hnot
    obtain ⟨hheld, hpc⟩ := not_or.mp hnot
    rw [Thread.tokens, not_not.mp hheld, not_not.mp hpc] at ht
    cases ht

/-- A start of B times out; then A is performed, and B starts with the token A left. -/
theorem one_token_after_timeout :
    ∃ (w : List (Bool × Label)) (c : Config Bool),
      Run (Pool.Step Atom NoCancel) (initial Bool) w c ∧ (c.locals true).held = [.b] ∧
        (∃ k, Single Thread.tokens c.shared.tokens k c.locals ∧ c.shared.state = k.state) ∧
        (∀ y ∈ w, y.2.Fine) ∧
        ((∃ t, (c.locals t).held ≠ [] ∨ (c.locals t).pc ≠ .idle) ∨
          c.shared.aFinished = .posted ∨ c.shared.bFinished = .posted) := by
  let late := formatRealtimeStatus .deadlineExceeded
    (ascii "Timeout after " ++ ascii (toString 5) ++ ascii " ms")
  have h : Run (Pool.Step Atom NoCancel) (initial Bool)
      [(true, .startWait .b late), (false, .startWait .a rtOkStatus), (false, .startOk .a),
        (false, .endALoad), (false, .endAReload), (false, .endAStore),
        (false, .endAPost rtOkStatus), (true, .startWait .b rtOkStatus), (true, .startOk .b)]
      (.two ⟨.ready, .ready, .bRunning⟩ ⟨[], .idle⟩ ⟨[.b], .idle⟩) := by
    rw [Pool.eq_two (initial Bool)]
    refine .cons (.second (by exact ⟨nofun, trivial⟩) (.startWait .b .ready _ rfl
      (.timedOut _ 5))) ?_
    refine .cons (.first (by exact ⟨nofun, trivial⟩) (.startWait .a .ready _ rfl .taken)) ?_
    refine .cons (.first (by exact ⟨nofun, trivial⟩) (.startOk .a rfl rfl)) ?_
    refine .cons (.first (by exact ⟨nofun, List.mem_cons_self ..⟩) (.endALoad rfl (by decide))) ?_
    refine .cons (.first (by exact ⟨nofun, trivial⟩) (.endAReload rfl rfl)) ?_
    refine .cons (.first (by exact ⟨nofun, trivial⟩) (.endAStore rfl)) ?_
    refine .cons (.first (by exact ⟨nofun, trivial⟩) (.endAPost rfl)) ?_
    refine .cons (.second (by exact ⟨nofun, trivial⟩) (.startWait .b .ready _ rfl .taken)) ?_
    exact .single (.second (by exact ⟨nofun, trivial⟩) (.startOk .b rfl rfl))
  exact ⟨_, _, h, rfl, one_token h⟩

end Intrinsic.Lockstep
