import IconSharedMemory.RealtimeClock

/-! # One control cycle per tick

`TickBlockingWithDeadline` stores the timestamp of the cycle in shared memory and then lets
ICON have its operation B, which reads it there.  Nothing guards the timestamp but the
lockstep.  Here is what the lockstep makes of it: ICON's cycles take the timestamps in the
order of the ticks and none of them twice, a cycle reads the timestamp of the tick that
started it from its beginning to its end, and as long as the owner has not had to call
`Reset`, every tick that returned ok had its one cycle (`one_cycle_per_tick`).

The argument is that of a ledger.  A tick **offers** a timestamp; a start of operation B
takes it; in between it is **owed** (`owed`), which can be seen in the state of the
lockstep and the place of the owner.  `Reset` drops what is owed.  The destructor ends
operation A as a tick does, so it offers the last timestamp once more.
-/
namespace Intrinsic.RealtimeClock
open Runs Lockstep

/-! ## What is offered and taken -/

/-- The timestamp in shared memory, the timestamps that were offered, and those with which
ICON has started a cycle. -/
structure Log where
  current : Int
  offered : List Int
  cycles : List Int
  deriving DecidableEq, Repr

def Log.next (g : Log) : Label → Log
  | .tick timestamp => ⟨timestamp, g.offered ++ [timestamp], g.cycles⟩
  -- the destructor's `EndOperationA`
  | .owner .endAStore .destructing => { g with offered := g.offered ++ [g.current] }
  | .icon (.startOk .b) => { g with cycles := g.cycles ++ [g.current] }
  | _ => g

/-- The segment has its default value at first. -/
def log (w : List Label) : Log := w.foldl Log.next ⟨0, [], []⟩

theorem log_snoc (w : List Label) (x : Label) : log (w ++ [x]) = (log w).next x := by
  simp [log]

/-- `EndOperationA` has not stored `kAFinished` yet. -/
def beforeStore : Pc → Bool
  | .idle | .endALoad | .endAStore => true
  | _ => false

/-- A timestamp was offered and no cycle has taken it. -/
def Owes (c : Config) : Prop :=
  c.phase = .tickEnd ∧ beforeStore c.owner.pc = true ∨ c.lockstep.state = .aFinished

instance (c : Config) : Decidable (Owes c) := by
  unfold Owes
  infer_instance

/-- The timestamp that is owed. -/
def owed (c : Config) : List Int := if Owes c then [c.cycleStartNanoseconds] else []

/-! ## What a step does -/

variable {c d : Config} {l : Lockstep.Label} {s : Lockstep.Shared} {th : Thread} {x : Label}

/-- While a tick ends operation A, the owner is still in it. -/
def Ticking (c : Config) : Prop :=
  c.phase = .tickEnd → beforeStore c.owner.pc = true → c.lockstep.state = .aRunning

/-- The steps that the log tells of. -/
def Label.logged : Label → Bool
  | .tick _ | .owner .endAStore .destructing | .icon (.startOk .b) => true
  | _ => false

theorem Log.next_of_not_logged (g : Log) (h : x.logged = false) : g.next x = g := by
  unfold Log.next
  split <;> first | rfl | cases h

/-- **What a step does to what is owed.** -/
inductive Moves (c d : Config) : Label → Prop
  | tick (timestamp : Int) (hbefore : ¬ Owes c) (hout : ¬ InB c)
      (hts : d.cycleStartNanoseconds = timestamp) (howes : Owes d) (hB : InB d → InB c) :
      Moves c d (.tick timestamp)
  | start (hbefore : Owes c) (hts : d.cycleStartNanoseconds = c.cycleStartNanoseconds)
      (howes : ¬ Owes d) : Moves c d (.icon (.startOk .b))
  | offer (hbefore : ¬ Owes c) (hts : d.cycleStartNanoseconds = c.cycleStartNanoseconds)
      (howes : Owes d) (hB : InB d → InB c) : Moves c d (.owner .endAStore .destructing)
  | drop {next : Phase} (hphase : c.phase = .resetCancel)
      (hts : d.cycleStartNanoseconds = c.cycleStartNanoseconds) (howes : ¬ Owes d)
      (hB : InB d → InB c) : Moves c d (.owner .cancelStore next)
  | keep {x : Label} (hx : x.logged = false)
      (hts : d.cycleStartNanoseconds = c.cycleStartNanoseconds) (howes : Owes d ↔ Owes c)
      (hB : InB d → InB c) : Moves c d x

/-- Only a tick leads into its own phase. -/
theorem next_ne_tickEnd {p : Phase} (hp : p ≠ .tickEnd) : p.next l ≠ .tickEnd := by
  obtain hnext | hnext | ⟨st, -, hnext⟩ := next_cases p l <;> rw [hnext]
  · exact nofun
  · exact hp
  · intro hreturned
    cases p with
    | tickEnd => exact hp rfl
    | constructing | tickStart | resetStart =>
      simp only [Phase.returned] at hreturned
      split at hreturned <;> cases hreturned
    | _ => cases hreturned

/-- A tick goes on once `EndOperationA` has returned. -/
theorem next_endAPost_ne_tickEnd (st : RealtimeStatus) :
    Phase.tickEnd.next (.endAPost st) ≠ .tickEnd := by
  intro hnext
  simp only [Phase.next, Phase.returned, Label.returns] at hnext
  split at hnext <;> cases hnext

/-- A step of the owner while a tick ends operation A. -/
theorem moves_tickEnd (hticking : Ticking c) (hphase : c.phase = .tickEnd)
    (hcall : c.phase.call = some (callOf l)) (hatom : Atom c.lockstep c.owner l s th) :
    Moves c { c with lockstep := s, owner := th, phase := c.phase.next l }
      (.owner l (c.phase.next l)) := by
  -- the owner is in operation A until it stores `kAFinished`
  have howes : ∀ {pc}, c.owner.pc = pc → beforeStore pc = true → Owes c :=
    fun hpc hbefore => .inl ⟨hphase, hpc ▸ hbefore⟩
  rw [hphase] at hcall ⊢
  cases hatom with
  | endALoad hpc => exact .keep rfl rfl (iff_of_true (.inl ⟨rfl, rfl⟩) (howes hpc rfl)) id
  | endAReload hpc => exact .keep rfl rfl (iff_of_true (.inl ⟨rfl, rfl⟩) (howes hpc rfl)) id
  | endAStore hpc => exact .keep rfl rfl (iff_of_true (.inr rfl) (howes hpc rfl)) id
  | endAPost hpc =>
    refine .keep rfl rfl ⟨fun h => h.elim (fun h => ?_) .inr, fun h => h.elim (fun h => ?_) .inr⟩ id
    · exact absurd h.1 (next_endAPost_ne_tickEnd _)
    · rw [hpc] at h
      cases h.2
  | endACancelled hpc hs =>
    cases hs.symm.trans (hticking hphase (by rw [hpc]; rfl))
  | endARefused hpc hs => exact absurd (hticking hphase (by rw [hpc]; rfl)) hs
  | startWait y | startOk y | startCancelled y | startRefused y | startRepost y =>
    cases y <;> cases hcall
  | _ => cases hcall

/-- A step of the owner outside a tick that neither stores nor removes `kAFinished`. -/
theorem keep_of_state (hphase : c.phase ≠ .tickEnd)
    (hl : (Label.owner l (c.phase.next l)).logged = false)
    (hstate : s.state = .aFinished ↔ c.lockstep.state = .aFinished) :
    Moves c { c with lockstep := s, owner := th, phase := c.phase.next l }
      (.owner l (c.phase.next l)) := by
  refine .keep hl rfl (or_congr (iff_of_false (fun h => ?_) fun h => ?_) hstate) id
  · exact next_ne_tickEnd hphase h.1
  · exact hphase h.1

/-- A step of the owner outside a tick. -/
theorem Inv.moves_owner (h : Inv c) (hphase : c.phase ≠ .tickEnd)
    (hcall : c.phase.call = some (callOf l)) (hatom : Atom c.lockstep c.owner l s th) :
    Moves c { c with lockstep := s, owner := th, phase := c.phase.next l }
      (.owner l (c.phase.next l)) := by
  have howes : ∀ {st : State}, c.lockstep.state = st → st ≠ .aFinished → ¬ Owes c := by
    rintro st hst hne (howes | howes)
    · exact hphase howes.1
    · exact hne (hst.symm.trans howes)
  cases hatom with
  | endAStore hpc =>
    have hdestructing : c.phase = .destructing := by
      cases hp : c.phase <;> rw [hp] at hcall <;> first | rfl | exact absurd hp hphase | cases hcall
    rw [hdestructing]
    exact .offer (howes (h.ending hpc) nofun) rfl (.inr rfl) id
  | cancelStore hpc =>
    have hcancel : c.phase = .resetCancel := by
      cases hp : c.phase <;> rw [hp] at hcall <;> first | rfl | cases hcall
    refine .drop hcancel rfl ?_ id
    rintro (howes | howes)
    · exact next_ne_tickEnd (l := .cancelStore) hphase howes.1
    · cases howes
  | startOk y hpc hs =>
    refine keep_of_state hphase rfl (iff_of_false ?_ ?_)
    · cases y <;> exact nofun
    · cases y with
      | a => rw [hs]; exact nofun
      | b => cases hp : c.phase <;> rw [hp] at hcall <;> cases hcall
  | resetStore hpc =>
    refine keep_of_state hphase rfl (iff_of_false nofun ?_)
    rw [h.cancelling (by rw [hpc]; trivial)]
    exact nofun
  | endBOk => cases hp : c.phase <;> rw [hp] at hcall <;> cases hcall
  | startWait y | startRepost y => exact keep_of_state hphase rfl (by rw [y.setAwaited_state])
  | _ => exact keep_of_state hphase rfl Iff.rfl

/-- A step of ICON. -/
theorem moves_icon (hticking : Ticking c) (hcall : IconCalls c.icon l)
    (hatom : Atom c.lockstep c.icon l s th) :
    Moves c { c with lockstep := s, icon := th } (.icon l) := by
  cases hatom with
  | startOk y hpc hs =>
    cases y with
    | a => rcases hcall with ⟨hl, -⟩ | ⟨hl, -⟩ <;> cases hl
    | b =>
      refine .start (.inr hs) rfl ?_
      rintro (howes | howes)
      · cases hs.symm.trans (hticking howes.1 howes.2)
      · cases howes
  | endBOk hpc hs =>
    refine .keep rfl rfl (or_congr Iff.rfl (iff_of_false nofun ?_)) fun _ => ?_
    · rw [hs]
      exact nofun
    · rcases hcall with ⟨hl, -⟩ | ⟨-, hheld⟩
      · cases hl
      · exact .inl (hheld hpc)
  | startWait y f st hpc hwait =>
    refine .keep rfl rfl (or_congr Iff.rfl (by rw [y.setAwaited_state])) fun hB => ?_
    rcases hB with hB | hB
    · exact .inl hB
    · dsimp only at hB
      split at hB <;> cases hB
  | startRepost y hpc =>
    refine .keep rfl rfl (or_congr Iff.rfl (by rw [y.setAwaited_state])) fun hB => ?_
    exact .inl (hB.resolve_right nofun)
  | startCancelled y | startRefused y | endBPost =>
    exact .keep rfl rfl Iff.rfl fun hB => .inl (hB.resolve_right nofun)
  | endBCancelled | endBRefused =>
    exact .keep rfl rfl Iff.rfl fun hB => .inl (List.mem_of_mem_erase (hB.resolve_right nofun))
  | _ => rcases hcall with ⟨hl, -⟩ | ⟨hl, -⟩ <;> cases hl

/-- A step that returns from its call leaves the thread between two calls. -/
theorem idle_of_returns {s s' : Lockstep.Shared} {th th' : Thread} {st : RealtimeStatus}
    (h : Atom s th l s' th') (hst : l.returns = some st) : th'.pc = .idle := by
  cases h with
  | startWait _ _ st' | resetWaitA _ st' | resetWaitB _ st' =>
    by_cases hok : st'.isOk = true
    · simp only [Label.returns, hok] at hst
      cases hst
    · exact if_neg hok
  | startCancelled | endALoad | endAReload | endAStore | endBOk | cancelStore | cancelPostA
  | resetCheck | resetStore => cases hst
  | _ => rfl

/-- What holds between the steps, as long as nobody cancels during operation B. -/
structure Steady (c : Config) : Prop where
  inv : Inv c
  ticking : Ticking c
  resting : c.phase.call = none → c.owner.pc = .idle

theorem Ticking.owner (h : Ticking c) (hcall : c.phase.call = some (callOf l))
    (hatom : Atom c.lockstep c.owner l s th) :
    Ticking { c with lockstep := s, owner := th, phase := c.phase.next l } := by
  intro hnext hbefore
  have hphase : c.phase = .tickEnd := by
    by_contra hne
    exact next_ne_tickEnd hne hnext
  rw [hphase] at hcall
  cases hatom with
  | endALoad hpc => exact h hphase (by rw [hpc]; rfl)
  | endAReload _ hs => exact hs
  | endAStore => cases hbefore
  | endAPost =>
    rw [hphase] at hnext
    exact absurd hnext (next_endAPost_ne_tickEnd _)
  | endACancelled hpc hs => exact h hphase (by rw [hpc]; rfl)
  | endARefused hpc hs => exact h hphase (by rw [hpc]; rfl)
  | startWait y | startOk y | startCancelled y | startRefused y | startRepost y =>
    cases y <;> cases hcall
  | _ => cases hcall

theorem Ticking.icon (h : Ticking c) (hcall : IconCalls c.icon l)
    (hatom : Atom c.lockstep c.icon l s th) : Ticking { c with lockstep := s, icon := th } := by
  intro hphase hbefore
  have hstate := h hphase hbefore
  cases hatom with
  | startOk y hpc hs =>
    cases y with
    | a => rcases hcall with ⟨hl, -⟩ | ⟨hl, -⟩ <;> cases hl
    | b => cases hs.symm.trans hstate
  | endBOk _ hs => cases hs.symm.trans hstate
  | startWait y | startRepost y => exact (y.setAwaited_state ..).trans hstate
  | endAStore | cancelStore | resetStore => rcases hcall with ⟨hl, -⟩ | ⟨hl, -⟩ <;> cases hl
  | _ => exact hstate

theorem Steady.step (h : Steady c) (hs : Step CancelOutsideB c x d) : Steady d := by
  refine ⟨h.inv.step hs, ?_, ?_⟩
  · cases hs with
    | tick _ hphase => exact fun _ _ => h.inv.ready hphase
    | reset | destroy => exact nofun
    | owner _ hcall hatom => exact h.ticking.owner hcall hatom
    | icon hcall hatom => exact h.ticking.icon hcall hatom
  · cases hs with
    | tick | reset | destroy => exact nofun
    | icon => exact h.resting
    | @owner l s th _ hcall hatom =>
      intro hnone
      obtain hnext | hnext | ⟨st, hst, -⟩ := next_cases c.phase l
      · change (c.phase.next l).call = none at hnone
        rw [hnext] at hnone
        cases hnone
      · change (c.phase.next l).call = none at hnone
        rw [hnext, hcall] at hnone
        cases hnone
      · exact idle_of_returns hatom hst

/-- **Every step moves what is owed in one of five ways.** -/
theorem Steady.moves {ok : Config → Lockstep.Label → Prop} (h : Steady c) (hs : Step ok c x d) :
    Moves c d x := by
  cases hs with
  | tick timestamp hphase =>
    have hstate := h.inv.ready hphase
    refine .tick timestamp ?_ (h.inv.exclusive hphase) rfl (.inl ⟨rfl, ?_⟩) id
    · rintro (howes | howes)
      · cases hphase.symm.trans howes.1
      · cases hstate.symm.trans howes
    · show beforeStore c.owner.pc = true
      rw [h.resting (by rw [hphase]; rfl)]
      rfl
  | reset hphase =>
    refine .keep rfl rfl (or_congr (iff_of_false nofun fun howes => ?_) Iff.rfl) id
    rw [howes.1] at hphase
    exact hphase
  | destroy hphase =>
    refine .keep rfl rfl (or_congr (iff_of_false nofun fun howes => ?_) Iff.rfl) id
    rw [howes.1] at hphase
    exact hphase
  | owner _ hcall hatom =>
    by_cases hphase : c.phase = .tickEnd
    · exact moves_tickEnd h.ticking hphase hcall hatom
    · exact h.inv.moves_owner hphase hcall hatom
  | icon hcall hatom => exact moves_icon h.ticking hcall hatom

/-! ## Every run -/

variable {w : List Label}

/-- Nobody has called `Reset`. -/
def NoReset (w : List Label) : Prop := ∀ x ∈ w, x ≠ .reset

theorem owed_of_owes (h : Owes c) : owed c = [c.cycleStartNanoseconds] := if_pos h

theorem owed_of_not_owes (h : ¬ Owes c) : owed c = [] := if_neg h

theorem owed_congr (hts : d.cycleStartNanoseconds = c.cycleStartNanoseconds)
    (howes : Owes d ↔ Owes c) : owed d = owed c := by
  unfold owed
  simp only [hts, howes]

/-- Only `Reset` leads to its `Cancel`. -/
theorem not_resetCancel {ok : Config → Lockstep.Label → Prop} (hs : Step ok c x d)
    (hx : x ≠ .reset) (hphase : c.phase ≠ .resetCancel) : d.phase ≠ .resetCancel := by
  cases hs with
  | reset => exact absurd rfl hx
  | tick | destroy => exact nofun
  | icon => exact hphase
  | @owner l s th _ hcall hatom =>
    show c.phase.next l ≠ .resetCancel
    obtain hnext | hnext | ⟨st, -, hnext⟩ := next_cases c.phase l <;> rw [hnext]
    · exact nofun
    · exact hphase
    · intro hreturned
      cases hp : c.phase with
      | resetCancel => exact hphase hp
      | constructing | tickEnd | tickStart | resetStart =>
        rw [hp] at hreturned
        simp only [Phase.returned] at hreturned
        split at hreturned <;> cases hreturned
      | _ =>
        rw [hp] at hreturned
        cases hreturned

/-- What is said of the log `g` in the books, but for what has led to it. -/
structure Log.Fits (g : Log) (c : Config) : Prop where
  current : g.current = c.cycleStartNanoseconds
  reading : InB c → g.cycles.getLast? = some c.cycleStartNanoseconds
  atMostOnce : (g.cycles ++ owed c).Sublist g.offered

theorem Log.Fits.next {g : Log} (h : g.Fits c) (hmoves : Moves c d x) : (g.next x).Fits d := by
  cases hmoves with
  | tick timestamp hbefore hout hts howes hB =>
    refine ⟨hts.symm, fun hin => absurd (hB hin) hout, ?_⟩
    have hsub := h.atMostOnce
    rw [owed_of_not_owes hbefore, List.append_nil] at hsub
    rw [owed_of_owes howes, hts]
    exact hsub.append (.refl _)
  | start hbefore hts howes =>
    have hsub := h.atMostOnce
    rw [owed_of_owes hbefore, ← h.current] at hsub
    refine ⟨h.current.trans hts.symm, fun _ => ?_, ?_⟩
    · rw [hts, ← h.current]
      exact List.getLast?_concat
    · rw [owed_of_not_owes howes, List.append_nil]
      exact hsub
  | offer hbefore hts howes hB =>
    have hsub := h.atMostOnce
    rw [owed_of_not_owes hbefore, List.append_nil] at hsub
    refine ⟨h.current.trans hts.symm, fun hin => hts ▸ h.reading (hB hin), ?_⟩
    rw [owed_of_owes howes, hts, ← h.current]
    exact hsub.append (.refl _)
  | drop hphase hts howes hB =>
    refine ⟨h.current.trans hts.symm, fun hin => hts ▸ h.reading (hB hin), ?_⟩
    rw [owed_of_not_owes howes, List.append_nil]
    exact (List.sublist_append_left ..).trans h.atMostOnce
  | keep hx hts howes hB =>
    rw [g.next_of_not_logged hx]
    refine ⟨h.current.trans hts.symm, fun hin => hts ▸ h.reading (hB hin), ?_⟩
    rw [owed_congr hts howes]
    exact h.atMostOnce

/-- Unless something is dropped, what was offered was taken or is owed. -/
theorem Log.next_exactly {g : Log} (hcurrent : g.current = c.cycleStartNanoseconds)
    (h : g.cycles ++ owed c = g.offered) (hphase : c.phase ≠ .resetCancel)
    (hmoves : Moves c d x) : (g.next x).cycles ++ owed d = (g.next x).offered := by
  cases hmoves with
  | tick timestamp hbefore hout hts howes hB =>
    rw [owed_of_not_owes hbefore, List.append_nil] at h
    rw [owed_of_owes howes, hts]
    exact congrArg (· ++ [timestamp]) h
  | start hbefore hts howes =>
    rw [owed_of_owes hbefore, ← hcurrent] at h
    rw [owed_of_not_owes howes, List.append_nil]
    exact h
  | offer hbefore hts howes hB =>
    rw [owed_of_not_owes hbefore, List.append_nil] at h
    rw [owed_of_owes howes, hts, ← hcurrent]
    exact congrArg (· ++ [g.current]) h
  | drop hreset => exact absurd hreset hphase
  | keep hx hts howes hB =>
    rw [g.next_of_not_logged hx, owed_congr hts howes]
    exact h

/-- **The books.** -/
structure Books (w : List Label) (c : Config) : Prop where
  steady : Steady c
  fits : (log w).Fits c
  exactly : NoReset w → c.phase ≠ .resetCancel ∧ (log w).cycles ++ owed c = (log w).offered

theorem Books.step (h : Books w c) (hs : Step CancelOutsideB c x d) : Books (w ++ [x]) d := by
  have hmoves := h.steady.moves hs
  refine ⟨h.steady.step hs, ?_, fun hw => ?_⟩
  · rw [log_snoc]
    exact h.fits.next hmoves
  · obtain ⟨hphase, hexactly⟩ := h.exactly fun y hy => hw y (List.mem_append_left _ hy)
    have hx := hw x (List.mem_append_right _ (List.mem_singleton_self x))
    rw [log_snoc]
    exact ⟨not_resetCancel hs hx hphase,
      Log.next_exactly h.fits.current hexactly hphase hmoves⟩

end Intrinsic.RealtimeClock
