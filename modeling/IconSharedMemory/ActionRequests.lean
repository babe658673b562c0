import IconSharedMemory.RequestCustody

/-! # The two requests of an action

`OnEnableMotion`, `OnDisableMotion` and `OnClearFaults` change the state twice, by two
requests.  The first asks for an intermediate state, from whatever state the action has
loaded.  When it has been applied the module's method is called, and the second, the
*completion request*, asks for the state that follows from the method's result.

Actions exclude each other by `action_lock_`, and nobody else inserts requests.  So while an
action has begun, its first request is the newest one; its completion request has the next
number, and leads on from the state that the first request leads to (`ActionInv`).
-/
namespace Intrinsic.CallbackHandler
open Runs

/-! ## One step -/

/-- The thread has `action_lock_`. -/
def Pc.acting : Pc → Prop
  | .actionLoad _ | .requestGuard _ | .requestLock _ | .requestStamp _ | .requestInsert _ _
  | .requestWait _ _ | .statusCall (.action _ _) | .actionUnlock => True
  | _ => False

/-- What the action that the thread is in is asking for. -/
def Pc.ask : Pc → Option Ask
  | .requestGuard q | .requestLock q | .requestStamp q | .requestInsert q _ | .requestWait q _ =>
    some q
  | _ => none

/-- The action and its first request, from the insertion of this request to the insertion of
the next. -/
def Pc.begun : Pc → Option (Action × Nat)
  | .requestGuard q | .requestLock q | .requestStamp q | .requestInsert q _ =>
    q.first.map fun id => (q.action, id)
  | .requestWait q id => if q.first = none then some (q.action, id) else none
  | .statusCall (.action a id) => some (a, id)
  | _ => none

/-- The first request leads into the intermediate state, the second out of it. -/
def Ask.sound (q : Ask) : Prop :=
  (q.first = none → q.target = q.action.intermediate) ∧
    (q.first ≠ none → q.source = q.action.intermediate)

section Actions
variable {s s' : Shared} {pc pc' : Pc} {l : Label}

theorem Ask.begin_sound (a : Action) (loaded : StateCode) : (Ask.begin a loaded).sound :=
  ⟨fun _ => rfl, fun h => absurd rfl h⟩

theorem Ask.complete_sound (a : Action) (id : Nat) (st : Status) :
    (Ask.complete a id st).sound := by
  unfold Ask.complete
  split
  · exact ⟨nofun, fun _ => rfl⟩
  · exact ⟨nofun, fun _ => rfl⟩

theorem Ask.complete_first (a : Action) (id : Nat) (st : Status) :
    (Ask.complete a id st).first = some id ∧ (Ask.complete a id st).action = a := by
  unfold Ask.complete
  split <;> exact ⟨rfl, rfl⟩

theorem Pc.acting_of_begun (h : pc.begun ≠ none) : pc.acting := by
  cases pc with
  | statusCall k => cases k <;> first | exact trivial | exact absurd rfl h
  | _ => first | exact trivial | exact absurd rfl h

theorem Pc.plain.not_acting (h : pc.plain) : ¬ pc.acting := by
  cases pc with
  | statusCall k => cases k <;> first | exact id | exact h.elim
  | _ => first | exact id | exact h.elim

theorem Pc.plain.ask (h : pc.plain) : pc.ask = none := by
  cases pc <;> first | rfl | exact h.elim

theorem Pc.plain.begun (h : pc.plain) : pc.begun = none := by
  by_contra hbegun
  exact h.not_acting (Pc.acting_of_begun hbegun)

/-- A step takes `action_lock_`, returns it, or leaves it alone. -/
theorem Atom.locksAction (h : Atom s pc l s' pc') :
    (s'.actionLock = s.actionLock ∧ (pc'.acting ↔ pc.acting)) ∨
    (s.actionLock = false ∧ s'.actionLock = true ∧ pc'.acting) ∨
    (s'.actionLock = false ∧ pc.acting ∧ ¬ pc'.acting) := by
  by_cases hpc : pc.plain
  · obtain ⟨hpc', hsame, -⟩ | ⟨k, rfl, rfl, rfl, rfl, -⟩ | ⟨rfl, rfl, rfl, rfl, -⟩ |
      ⟨a, rfl, rfl, rfl, rfl, hfree⟩ := h.plain hpc
    · exact .inl ⟨hsame.actionLock, iff_of_false hpc'.not_acting hpc.not_acting⟩
    · exact .inl ⟨rfl, Iff.rfl⟩
    · exact .inl ⟨rfl, Iff.rfl⟩
    · exact .inr (.inl ⟨hfree, rfl, trivial⟩)
  · cases h with
    | @setState site state status disabled now =>
      have hsame := s.setStateDirectly_requests disabled now state status
      cases site with
      | process r => exact .inl ⟨hsame.actionLock, Iff.rfl⟩
      | _ => exact absurd trivial hpc
    | @statusCall k st =>
      cases k with
      | prepare => exact absurd trivial hpc
      | action a first => exact .inl ⟨rfl, Iff.rfl⟩
    | requestAnswered => exact .inl ⟨rfl, by unfold Ask.next; split <;> exact Iff.rfl⟩
    | requestGivenUp => exact .inl ⟨rfl, by unfold Ask.next; split <;> exact Iff.rfl⟩
    | actionUnlock => exact .inr (.inr ⟨rfl, trivial, id⟩)
    | _ => first | exact absurd trivial hpc | exact .inl ⟨rfl, Iff.rfl⟩

theorem Atom.inserts {r : Request} {first : Option Nat} (h : Atom s pc (.insert r first) s' pc') :
    ∃ q now, pc = .requestInsert q now ∧ pc' = .requestWait q s.nextId ∧
      r = q.request s.nextId now ∧ first = q.first := by
  generalize hl : Label.insert r first = l at h
  cases h with
  | @requestInsert q now =>
    cases hl
    exact ⟨q, now, rfl, rfl, rfl, rfl⟩
  | _ => cases hl

/-- A step starts to ask for a state, or goes on with what the action asks for. -/
theorem Atom.ask (h : Atom s pc l s' pc') (hsound : ∀ q, pc.ask = some q → q.sound) :
    ∀ q, pc'.ask = some q → q.sound := by
  have hnone : pc'.ask = none → ∀ q, pc'.ask = some q → q.sound := by
    intro hask q hq
    rw [hask] at hq
    cases hq
  by_cases hpc : pc.plain
  · obtain ⟨hpc', -⟩ | ⟨k, -, -, -, rfl, -⟩ | ⟨-, -, -, rfl, -⟩ | ⟨a, -, -, -, rfl, -⟩ :=
      h.plain hpc
    · exact hnone hpc'.ask
    · exact hnone rfl
    · exact hnone rfl
    · exact hnone rfl
  · cases h with
    | @setState site =>
      cases site with
      | process r => exact hnone rfl
      | _ => exact absurd trivial hpc
    | @statusCall k st =>
      cases k with
      | prepare => exact absurd trivial hpc
      | action a first =>
        rintro q ⟨⟩
        exact Ask.complete_sound a first st
    | @actionLoad a =>
      rintro q ⟨⟩
      exact Ask.begin_sound a s.stateCode
    | requestAllowed => exact hsound
    | requestLock => exact hsound
    | requestStamp => exact hsound
    | requestInsert => exact hsound
    | requestAnswered => exact hnone (by unfold Ask.next; split <;> rfl)
    | requestGivenUp => exact hnone (by unfold Ask.next; split <;> rfl)
    | _ => first | exact absurd trivial hpc | exact hnone rfl

/-- An action has begun when its first request is inserted. -/
theorem Atom.begun (h : Atom s pc l s' pc') {a : Action} {id : Nat}
    (hbegun : pc'.begun = some (a, id)) :
    pc.begun = some (a, id) ∨ ∃ r q, l = .insert r none ∧ r.id = id ∧ pc.ask = some q ∧
      q.first = none ∧ q.action = a ∧ r.target = q.target := by
  have hnone : pc'.begun ≠ none := fun heq => Option.some_ne_none _ (hbegun.symm.trans heq)
  by_cases hpc : pc.plain
  · obtain ⟨hpc', -⟩ | ⟨k, -, -, -, rfl, -⟩ | ⟨-, -, -, rfl, -⟩ | ⟨a, -, -, -, rfl, -⟩ :=
      h.plain hpc
    · exact absurd hpc'.begun hnone
    · exact absurd rfl hnone
    · exact absurd rfl hnone
    · exact absurd rfl hnone
  · cases h with
    | @setState site =>
      cases site with
      | process r => exact absurd rfl hnone
      | _ => exact absurd trivial hpc
    | @statusCall k st =>
      cases k with
      | prepare => exact absurd trivial hpc
      | action b first =>
        have hcomplete := Ask.complete_first b first st
        have heq : (Pc.requestGuard (.complete b first st)).begun = some (b, first) := by
          rw [Pc.begun, hcomplete.1, hcomplete.2]
          rfl
        exact .inl (heq.symm.trans hbegun)
    | requestAllowed => exact .inl hbegun
    | requestLock => exact .inl hbegun
    | requestStamp => exact .inl hbegun
    | @requestInsert q now =>
      unfold Pc.begun at hbegun
      dsimp only at hbegun
      split at hbegun
      · rename_i hfirst
        cases hbegun
        exact .inr ⟨_, q, by rw [hfirst], rfl, rfl, hfirst, rfl, rfl⟩
      · cases hbegun
    | @requestAnswered q id' reply =>
      unfold Ask.next at hbegun
      split at hbegun
      · rename_i hfirst _
        refine .inl (Eq.trans ?_ hbegun)
        rw [Pc.begun, if_pos hfirst]
        rfl
      · cases hbegun
    | requestGivenUp =>
      unfold Ask.next at hbegun
      split at hbegun
      · rename_i hok
        cases hok
      · cases hbegun
    | _ => first | exact absurd trivial hpc | exact absurd rfl hnone

end Actions

/-! ## Every run -/

section ActionInv
variable {Tid : Type} [DecidableEq Tid] {ok : Config Tid → Tid → Label → Prop}
  {c d : Config Tid} {x : Tid × Label} {w : List (Tid × Label)} {now : Nat}

/-- **The requests of actions.**  While an action has begun its first request is the newest
one.  A completion request has the next number and leads on from the state that the first
request leads to. -/
structure ActionInv (w : List (Tid × Label)) (c : Config Tid) : Prop where
  locked : Owned (c.shared.actionLock = false) Pc.acting c.locals
  sound : ∀ t q, (c.locals t).ask = some q → q.sound
  begun : ∀ t a id, (c.locals t).begun = some (a, id) → c.shared.nextId = id + 1 ∧
    ∃ r ∈ inserted w, r.id = id ∧ r.target = a.intermediate
  completes : ∀ t r id, (t, .insert r (some id)) ∈ w → r.id = id + 1 ∧ ∃ a : Action,
    r.source = a.intermediate ∧ ∃ r₁ ∈ inserted w, r₁.id = id ∧ r₁.target = a.intermediate

omit [DecidableEq Tid] in
theorem actionInv_initial (now : Nat) : ActionInv [] (initial Tid now) where
  locked := ⟨fun _ _ => id, fun h => absurd rfl h, fun _ _ h => h.elim⟩
  sound := by
    intro t q hq
    cases hq
  begun := by
    intro t a id h
    cases h
  completes := nofun

omit [DecidableEq Tid] in
theorem mem_inserted_snoc {r : Request} (h : r ∈ inserted w) : r ∈ inserted (w ++ [x]) := by
  rw [inserted_snoc]
  exact List.mem_append_left _ h

omit [DecidableEq Tid] in
theorem inserted_snoc_insert (w : List (Tid × Label)) (t : Tid) (r : Request)
    (first : Option Nat) : r ∈ inserted (w ++ [(t, .insert r first)]) := by
  rw [inserted_snoc]
  exact List.mem_append_right _ List.mem_cons_self

/-- Only a step of an action makes a new number. -/
theorem Atom.nextId {s s' : Shared} {pc pc' : Pc} {l : Label} (h : Atom s pc l s' pc')
    (haccessed : Accessed s) : s'.nextId = s.nextId ∨ pc.acting := by
  cases h.custody haccessed with
  | keep _ hnext => exact .inl hnext
  | insert =>
    obtain ⟨q, now, rfl, -⟩ := h.inserts
    exact .inr trivial
  | take _ hnext => exact .inl hnext
  | answer _ hnext => exact .inl hnext

theorem ActionInv.step (h : ActionInv w c) (hfront : FrontInv c) (hs : Step ok c x d) :
    ActionInv (w ++ [x]) d := by
  cases hs with
  | @mk t l s' pc' hok hatom =>
    refine ⟨?_, ?_, ?_, ?_⟩
    · obtain ⟨hsame, hacting⟩ | ⟨hfree, hlock, hacting⟩ | ⟨hfree, hold, hnot⟩ :=
        hatom.locksAction
      · exact h.locked.frame (by rw [hsame]) hacting
      · refine h.locked.acquire hfree ?_ hacting
        rw [hlock]
        exact nofun
      · exact h.locked.release hold hfree hnot
    · exact forall_update (fun pc : Pc => ∀ q, pc.ask = some q → q.sound) (hatom.ask (h.sound t))
        fun u _ => h.sound u
    · intro u a id hu
      obtain ⟨rfl, hself⟩ | ⟨hut, hother⟩ :=
        of_update (P := fun pc : Pc => pc.begun = some (a, id)) hu
      · obtain hbegun | ⟨r, q, rfl, rfl, hask, hfirst, rfl, htarget⟩ := hatom.begun hself
        · -- the action goes on; it has not inserted its second request
          obtain ⟨hid, r, hr, hrid⟩ := h.begun u a id hbegun
          refine ⟨?_, r, mem_inserted_snoc hr, hrid⟩
          cases hatom.custody hfront.accessed with
          | keep _ hnext => exact hnext.trans hid
          | insert =>
            obtain ⟨q, stamp, hpc, rfl, -⟩ := hatom.inserts
            rw [hpc] at hbegun
            have hsome : q.first = some id := by
              cases hq : q.first with
              | none => rw [Pc.begun, hq] at hbegun; cases hbegun
              | some first => rw [Pc.begun, hq] at hbegun; cases hbegun; rfl
            rw [Pc.begun, hsome, if_neg nofun] at hself
            cases hself
          | take _ hnext => exact hnext.trans hid
          | answer _ hnext => exact hnext.trans hid
        · -- its first request is inserted in this step
          refine ⟨?_, r, inserted_snoc_insert w u r none, rfl, ?_⟩
          · cases hatom.custody hfront.accessed with
            | insert hid _ hnext => exact hnext.trans (congrArg (· + 1) hid.symm)
            | keep _ _ _ _ hl => cases hl
          · exact htarget.trans ((h.sound u q hask).1 hfirst)
      · -- another action has begun, so this step is not part of an action
        obtain ⟨hid, r, hr, hrid⟩ := h.begun u a id hother
        refine ⟨?_, r, mem_inserted_snoc hr, hrid⟩
        have hacting : (c.locals u).acting :=
          Pc.acting_of_begun fun heq => nomatch heq.symm.trans hother
        obtain hnext | hself := hatom.nextId hfront.accessed
        · exact hnext.trans hid
        · exact absurd (h.locked.unique u t hacting hself) hut
    · intro u r id hmem
      rcases List.mem_append.mp hmem with hmem | hmem
      · obtain ⟨hid, a, hsource, r₁, hr₁, hrest⟩ := h.completes u r id hmem
        exact ⟨hid, a, hsource, r₁, mem_inserted_snoc hr₁, hrest⟩
      · cases List.mem_singleton.mp hmem
        obtain ⟨q, stamp, hpc, -, rfl, hfirst⟩ := hatom.inserts
        have hbegun : (c.locals t).begun = some (q.action, id) := by
          rw [hpc, Pc.begun, ← hfirst]
          rfl
        have hsound : q.sound := h.sound t q (by rw [hpc]; rfl)
        obtain ⟨hid, r₁, hr₁, hrest⟩ := h.begun t q.action id hbegun
        exact ⟨hid, q.action, hsound.2 (by rw [← hfirst]; exact nofun), r₁,
          mem_inserted_snoc hr₁, hrest⟩

theorem actionInv_run (h : Run (Step ok) (initial Tid now) w c) : ActionInv w c := by
  have hinv : FrontInv c ∧ ActionInv w c := by
    refine h.invariant (I := fun w c => FrontInv c ∧ ActionInv w c)
      ⟨frontInv_initial now, actionInv_initial now⟩ ?_
    rintro w c x d ⟨hfront, hi⟩ hs
    exact ⟨hfront.step hs, hi.step hfront hs⟩
  exact hinv.2

end ActionInv

end Intrinsic.CallbackHandler
