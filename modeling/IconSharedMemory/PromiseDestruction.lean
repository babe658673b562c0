import IconSharedMemory.PromiseHandles

/-! # Destruction without waiting

The destructor of a handle destroys the context that the handle owns, and the destructor of a
context waits for what is attached to it.  `IsWaitFreeDestructible`
(`platform/common/buffers/rt_promise.h`) is to say beforehand that there is nothing to wait for.
It looks at `context_` first and takes a null pointer for "nothing to wait for"; the destructor
looks at `internal_context_`.

A handle that owns a context is attached to it or to nothing (`RealtimeHandle.Coherent`).  While
it is attached the test is right.  A handle that was moved from may own a context and be attached
to nothing, and then the test is blind.
-/
namespace Intrinsic.PromiseHandles
open Runs Holdings Promise

/-! ## The test and the destructor -/

section Test
variable {Ctx H α : Type}

/-- `RealtimePromise::IsWaitFreeDestructible` and `RealtimeFuture::IsWaitFreeDestructible` -/
def World.isWaitFreeDestructible (w : World Ctx H α) (h : H) : Option Bool := do
  let this ← w.handles h
  match this.context with
  -- "This should never happen, but we check anyway."
  | none => return true
  | some x =>
    match this.internalContext with
    | none => return true
    | some _ =>
      let c ← w.contexts x
      return c.attached (opposite this.side) == false

/-- The destructor of the handle has nothing to wait for: nothing is attached to the context
that it destroys. -/
def World.WaitFree [DecidableEq Ctx] [DecidableEq H] (w : World Ctx H α) (h : H) : Prop :=
  ∃ r, w.detachAttached h = some r ∧ ∀ x s, r.1.owns h = some x → ¬ r.1.isAttached (s, x)

/-- Since `w` no handle has been attached to the context that `h` owns, and `h` owns it still. -/
structure NoNewPeer (h : H) (w w' : World Ctx H α) : Prop where
  alive : w'.handles h ≠ none
  owns : w'.owns h = w.owns h
  peers : ∀ x s g, w.owns h = some x → w'.AttachedTo s x g → w.AttachedTo s x g

/-- **The test is blind**: the handle is attached to nothing, but something is attached to the
context that it owns. -/
def World.Blind (w : World Ctx H α) (h : H) : Prop :=
  ∃ o x s, w.handles h = some o ∧ o.context = none ∧ o.internalContext = some x ∧
    w.isAttached (s, x)

end Test

/-! ## The two pointers of a handle -/

section Coherent
variable {Ctx H α : Type} {movedFrom : α → α} {slot : Nat → α} {w w' : World Ctx H α} {h g : H}
  {o : RealtimeHandle Ctx} {r : World Ctx H α × List (Event α)}

/-- A handle that owns a context is attached to it or to nothing. -/
def RealtimeHandle.Coherent (o : RealtimeHandle Ctx) : Prop :=
  ∀ x, o.internalContext = some x → o.context = none ∨ o.context = some x

def World.Coherent (w : World Ctx H α) : Prop := ∀ h o, w.handles h = some o → o.Coherent

theorem coherent_of_detached (ho : o.context = none) : o.Coherent := fun _ _ => .inl ho

theorem coherent_of_borrowed (ho : o.internalContext = none) : o.Coherent := by
  intro x hx
  cases ho.symm.trans hx

theorem World.Coherent.of_handles (hw : w.Coherent) (hh : w'.handles = w.handles) :
    w'.Coherent := by
  intro g o hg
  exact hw g o (hh ▸ hg)

variable [DecidableEq Ctx] [DecidableEq H]

omit [DecidableEq Ctx] in
theorem World.Coherent.update {a : Option (RealtimeHandle Ctx)} (hw : w.Coherent)
    (hh : w'.handles = Function.update w.handles h a) (ha : ∀ o, a = some o → o.Coherent) :
    w'.Coherent := by
  intro g o hg
  rw [hh] at hg
  by_cases hgh : g = h
  · rw [hgh, Function.update_self] at hg
    exact ha o hg
  · rw [Function.update_of_ne hgh] at hg
    exact hw g o hg

omit [DecidableEq Ctx] in
theorem World.Coherent.setHandle (hw : w.Coherent) (ho : o.Coherent) :
    (w.setHandle h o).Coherent := by
  refine hw.update rfl ?_
  rintro _ ⟨⟩
  exact ho

theorem World.Coherent.detach {st : RealtimeStatus} (hw : w.Coherent) (haccounts : Accounts w)
    (hd : w.detach h = some (w', st)) : w'.Coherent := by
  obtain ⟨-, -, o, -, hhandles⟩ := detach_spec haccounts hd
  refine hw.update hhandles ?_
  rintro _ ⟨⟩
  exact coherent_of_detached rfl

theorem World.Coherent.detachAttached (hw : w.Coherent) (haccounts : Accounts w)
    (hd : w.detachAttached h = some r) : r.1.Coherent := by
  obtain ⟨-, o, -, hhandles⟩ := detachAttached_spec haccounts hd
  refine hw.update hhandles ?_
  rintro _ ⟨⟩
  exact coherent_of_detached rfl

theorem World.Coherent.moveAssign (hw : w.Coherent) (haccounts : Accounts w)
    (hm : w.moveAssign h g = some r) : r.1.Coherent := by
  rcases moveAssign_cases hm with rfl | ⟨other, w₁, events, this, -, hother, hd, hthis, rfl⟩
  · exact hw
  · have hw₁ := hw.detachAttached haccounts hd
    exact (hw₁.setHandle (hw g other hother)).setHandle (hw₁ h this hthis)

theorem World.Coherent.moveConstruct (hw : w.Coherent) (haccounts : Accounts w)
    (hm : w.moveConstruct h g = some r) : r.1.Coherent := by
  obtain ⟨other, -, hm⟩ := Option.bind_eq_some_iff.mp hm
  split at hm
  case isTrue => cases hm
  case isFalse hnone =>
    exact (hw.setHandle (coherent_of_detached rfl)).moveAssign
      (haccounts.setEmpty (Option.not_isSome_iff_eq_none.mp hnone) _) hm

omit [DecidableEq H] in
theorem destroyInternal_handles {a : Option Ctx} (hd : w.destroyInternal a = some w') :
    w'.handles = w.handles := by
  cases a with
  | none =>
    cases hd
    rfl
  | some x =>
    obtain ⟨rfl, -⟩ := World.destroyContext_eq hd
    rfl

theorem World.Coherent.destroy (hw : w.Coherent) (haccounts : Accounts w)
    (hd : w.destroy h = some r) : r.1.Coherent := by
  obtain ⟨⟨w₁, events⟩, hdetach, hd⟩ := Option.bind_eq_some_iff.mp hd
  obtain ⟨this, -, hd⟩ := Option.bind_eq_some_iff.mp hd
  obtain ⟨w₂, hinternal, hd⟩ := Option.bind_eq_some_iff.mp hd
  cases hd
  have hw₂ := (hw.detachAttached haccounts hdetach).of_handles (destroyInternal_handles hinternal)
  exact hw₂.update (a := none) rfl nofun

theorem World.Coherent.swap {temporary : H} (hw : w.Coherent) (haccounts : Accounts w)
    (hs : w.swap h g temporary = some r) : r.1.Coherent := by
  obtain ⟨⟨w₁, e₁⟩, h₁, hs⟩ := Option.bind_eq_some_iff.mp hs
  obtain ⟨⟨w₂, e₂⟩, h₂, hs⟩ := Option.bind_eq_some_iff.mp hs
  obtain ⟨⟨w₃, e₃⟩, h₃, hs⟩ := Option.bind_eq_some_iff.mp hs
  obtain ⟨⟨w₄, e₄⟩, h₄, hs⟩ := Option.bind_eq_some_iff.mp hs
  cases hs
  have ha₁ := (moveConstruct_sound haccounts h₁).accounts
  have ha₂ := (moveAssign_sound ha₁ h₂).accounts
  have ha₃ := (moveAssign_sound ha₂ h₃).accounts
  have hw₃ := ((hw.moveConstruct haccounts h₁).moveAssign ha₁ h₂).moveAssign ha₂ h₃
  have hw₄ := hw₃.destroy ha₃ h₄
  exact hw₄

theorem World.Coherent.getHandle {x : Ctx} {s : Side} {isReusable : Bool} (hw : w.Coherent)
    (hg : w.getHandle h s x isReusable = some r) : r.1.Coherent := by
  obtain ⟨c, -, hg⟩ := Option.bind_eq_some_iff.mp hg
  split at hg
  · cases hg
  · obtain rfl := Option.some.inj hg
    dsimp only
    have hcontext : (w.setContext x (c.getHandle s).1).Coherent := hw
    split
    · exact hcontext.setHandle (coherent_of_borrowed rfl)
    · exact hcontext

theorem World.Coherent.set {v : α} (hw : w.Coherent) (haccounts : Accounts w)
    (hs : w.set h v = some r) : r.1.Coherent := by
  obtain ⟨this, -, hs⟩ := Option.bind_eq_some_iff.mp hs
  split at hs
  · cases hs
  · split at hs
    · cases hs
      exact hw
    · rename_i x _
      obtain ⟨c, hc, hs⟩ := Option.bind_eq_some_iff.mp hs
      obtain ⟨⟨c', result⟩, hset, hs⟩ := Option.bind_eq_some_iff.mp hs
      have hcontext : (w.setContext x c').Coherent := hw
      cases result with
      | error st =>
        obtain rfl := Option.some.inj hs
        exact hcontext
      | ok st =>
        dsimp only at hs
        split at hs
        · obtain rfl := Option.some.inj hs
          exact hcontext
        · obtain ⟨⟨w₁, detached⟩, hd, hs⟩ := Option.bind_eq_some_iff.mp hs
          obtain rfl := Option.some.inj hs
          exact hcontext.detach (haccounts.setContext hc (Context.set_returns hset).attached) hd

theorem World.Coherent.get (hw : w.Coherent) (haccounts : Accounts w)
    (hg : w.get movedFrom h = some r) : r.1.Coherent := by
  obtain ⟨this, -, hg⟩ := Option.bind_eq_some_iff.mp hg
  split at hg
  · cases hg
  · split at hg
    · cases hg
      exact hw
    · rename_i x _
      obtain ⟨c, hc, hg⟩ := Option.bind_eq_some_iff.mp hg
      obtain ⟨⟨c', result⟩, hget, hg⟩ := Option.bind_eq_some_iff.mp hg
      have hcontext : (w.setContext x c').Coherent := hw
      cases result with
      | error st =>
        obtain rfl := Option.some.inj hg
        exact hcontext
      | ok v =>
        dsimp only at hg
        split at hg
        · obtain rfl := Option.some.inj hg
          exact hcontext
        · obtain ⟨⟨w₁, detached⟩, hd, hg⟩ := Option.bind_eq_some_iff.mp hg
          obtain rfl := Option.some.inj hg
          exact hcontext.detach (haccounts.setContext hc (Context.get_returns hget).attached) hd

/-- **Every call** leaves the two pointers of each handle in agreement. -/
theorem World.Coherent.apply {op : Op Ctx H α} (hw : w.Coherent) (haccounts : Accounts w)
    (hs : w.apply movedFrom slot op = some r) : r.1.Coherent := by
  cases op with
  | newContext x =>
    dsimp only [World.apply] at hs
    split at hs
    · cases hs
    · obtain rfl := Option.some.inj hs
      exact hw
  | destroyContext x =>
    dsimp only [World.apply] at hs
    split at hs
    · cases hs
    · obtain ⟨w', hd, rfl⟩ := Option.map_eq_some_iff.mp hs
      obtain ⟨rfl, -⟩ := World.destroyContext_eq hd
      exact hw
  | construct h s x =>
    dsimp only [World.apply] at hs
    split at hs
    · cases hs
    · obtain rfl := Option.some.inj hs
      have hcontext : (w.newContext x true ((Context.make slot).setAttached s true)).Coherent := hw
      exact hcontext.setHandle fun y hy => .inr hy
  | getDetached h s =>
    dsimp only [World.apply] at hs
    split at hs
    · cases hs
    · obtain rfl := Option.some.inj hs
      exact hw.setHandle (coherent_of_detached rfl)
  | getHandle h s x isReusable => exact hw.getHandle hs
  | getOpposite h g isReusable =>
    obtain ⟨this, -, hs⟩ := Option.bind_eq_some_iff.mp hs
    split at hs
    · cases hs
      exact hw
    · exact hw.getHandle hs
  | moveConstruct h source => exact hw.moveConstruct haccounts hs
  | moveAssign h source => exact hw.moveAssign haccounts hs
  | swap h g temporary => exact hw.swap haccounts hs
  | set h v => exact hw.set haccounts hs
  | get h => exact hw.get haccounts hs
  | cancel h =>
    obtain ⟨this, -, hs⟩ := Option.bind_eq_some_iff.mp hs
    split at hs
    · cases hs
      exact hw
    · obtain ⟨c, -, hs⟩ := Option.bind_eq_some_iff.mp hs
      obtain rfl := Option.some.inj hs
      exact hw
  | cancelContext x =>
    obtain ⟨c, -, hs⟩ := Option.bind_eq_some_iff.mp hs
    obtain rfl := Option.some.inj hs
    exact hw
  | reset x failed =>
    obtain ⟨c, -, hs⟩ := Option.bind_eq_some_iff.mp hs
    obtain ⟨⟨c', st⟩, -, hs⟩ := Option.bind_eq_some_iff.mp hs
    obtain rfl := Option.some.inj hs
    exact hw
  | destroy h => exact hw.destroy haccounts hs

theorem coherent_run {ops : List (Op Ctx H α × List (Event α))}
    (hrun : Run (Step movedFrom slot) World.init ops w) : Accounts w ∧ w.Coherent := by
  refine hrun.stateInvariant (I := fun w => Accounts w ∧ w.Coherent) ⟨accounts_init, nofun⟩ ?_
  rintro w op w' ⟨haccounts, hw⟩ hs
  exact ⟨(apply_sound haccounts hs).accounts, hw.apply haccounts hs⟩

end Coherent

/-! ## What the destructor waits for -/

section Destruction
variable {Ctx H α : Type} [DecidableEq Ctx] [DecidableEq H] {movedFrom : α → α} {slot : Nat → α}
  {w w' : World Ctx H α} {h : H} {o : RealtimeHandle Ctx}

/-- **The handle is detached**: it owns what it owned, and only its own flag is cleared. -/
theorem detachAttached_flags (hw : Accounts w) (hh : w.handles h = some o) :
    ∃ r, w.detachAttached h = some r ∧ r.1.owns h = w.owns h ∧
      ∀ s x, r.1.isAttached (s, x) ↔ w.isAttached (s, x) ∧ ¬ w.AttachedTo s x h := by
  cases hctx : o.context with
  | none =>
    have hnot : ∀ s x, ¬ w.AttachedTo s x h := by
      rintro s x ⟨o', ho', -, hx⟩
      cases hh.symm.trans ho'
      cases hctx.symm.trans hx
    refine ⟨(w, []), by simp [World.detachAttached, hh, hctx], rfl, fun s x => ?_⟩
    exact (and_iff_left (hnot s x)).symm
  | some y =>
    obtain ⟨c, hc, -⟩ := hw.attached hh hctx
    let w₁ := (w.setContext y (c.detach o.side).1).setHandle h { o with context := none }
    refine ⟨(w₁, [.detached (c.detach o.side).2]), ?_, ?_, fun s x => ?_⟩
    · simp [World.detachAttached, World.detach, hh, hctx, hc, w₁]
    · rw [World.owns_setHandle, Function.update_self, World.owns, hh, Option.bind_some]
    · have hself : w.AttachedTo s x h ↔ o.side = s ∧ y = x := by
        simp [World.AttachedTo, hh, hctx]
      rw [hself]
      by_cases hxy : x = y
      · subst hxy
        refine (World.isAttached_update rfl).trans ?_
        rw [World.isAttached_iff hc, Context.detach_attached]
        by_cases hs : s = o.side
        · simp [hs]
        · simp [hs, Ne.symm hs]
      · refine (World.isAttached_of_ne rfl hxy).trans ?_
        simp [Ne.symm hxy]

/-- The destructor has to wait for all handles but the one that is destroyed. -/
theorem waitFree_iff (hw : Accounts w) (hh : w.handles h = some o) :
    w.WaitFree h ↔ ∀ x s, o.internalContext = some x → w.isAttached (s, x) →
      w.AttachedTo s x h := by
  obtain ⟨r, hdetach, howns, hflags⟩ := detachAttached_flags hw hh
  have howns : r.1.owns h = o.internalContext := by
    rw [howns, World.owns, hh, Option.bind_some]
  constructor
  · rintro ⟨r', hr', hfree⟩ x s hx hatt
    cases hdetach.symm.trans hr'
    by_contra hnot
    exact hfree x s (howns.trans hx) ((hflags s x).mpr ⟨hatt, hnot⟩)
  · intro honly
    refine ⟨r, hdetach, fun x s hx hatt => ?_⟩
    obtain ⟨hatt, hnot⟩ := (hflags s x).mp hatt
    exact hnot (honly x s (howns.symm.trans hx) hatt)

/-- The destructor returns at once exactly if it has nothing to wait for. -/
theorem destroy_isSome_iff (hw : Accounts w) : (w.destroy h).isSome ↔ w.WaitFree h := by
  unfold World.WaitFree World.destroy
  constructor
  · intro hsome
    obtain ⟨r, hr⟩ := Option.isSome_iff_exists.mp hsome
    obtain ⟨⟨w₁, events⟩, hdetach, hr⟩ := Option.bind_eq_some_iff.mp hr
    obtain ⟨this, hthis, hr⟩ := Option.bind_eq_some_iff.mp hr
    obtain ⟨w₂, hinternal, -⟩ := Option.bind_eq_some_iff.mp hr
    refine ⟨_, hdetach, fun x s hx => ?_⟩
    have howns : w₁.owns h = this.internalContext := by rw [World.owns, hthis, Option.bind_some]
    rw [← howns, hx] at hinternal
    exact (World.destroyContext_eq hinternal).2 s
  · rintro ⟨⟨w₁, events⟩, hdetach, hfree⟩
    obtain ⟨hsound, o, -, hhandles⟩ := detachAttached_spec hw hdetach
    have hthis : w₁.handles h = some { o with context := none } := by
      rw [show w₁.handles = _ from hhandles, Function.update_self]
    have hinternal : ∃ w₂, w₁.destroyInternal o.internalContext = some w₂ := by
      cases hx : o.internalContext with
      | none => exact ⟨w₁, rfl⟩
      | some x =>
        obtain ⟨howns, hlive⟩ := hsound.accounts.owner hthis hx
        obtain ⟨c, hc⟩ : ∃ c, w₁.contexts x = some c := Option.ne_none_iff_exists'.mp hlive
        have hclear : ∀ s, c.attached s = false := fun s =>
          Bool.eq_false_of_not_eq_true fun hatt =>
            hfree x s howns ((World.isAttached_iff hc).mpr hatt)
        simp [World.destroyInternal, World.destroyContext, hc, hclear]
    obtain ⟨w₂, hinternal⟩ := hinternal
    simp [hdetach, hthis, hinternal]

/-- The test, where it is not blind. -/
theorem waitFree_of_isWaitFreeDestructible (hw : Accounts w) (hco : w.Coherent)
    (hh : w.handles h = some o) (htest : w.isWaitFreeDestructible h = some true)
    (hblind : ¬ w.Blind h) : w.WaitFree h := by
  rw [waitFree_iff hw hh]
  intro x s hx hatt
  obtain hctx | hctx := hco h o hh x hx
  · exact absurd ⟨o, x, s, hh, hctx, hx, hatt⟩ hblind
  · obtain ⟨c, hc, hflag⟩ := hatt
    have hopposite : c.attached (opposite o.side) = false := by
      simpa [World.isWaitFreeDestructible, hh, hctx, hx, hc] using htest
    refine ⟨o, hh, ?_, hctx⟩
    cases hside : o.side <;> cases s <;> simp_all [opposite]

/-- What the test says about `w` holds until a new handle is attached. -/
theorem NoNewPeer.waitFree (hpeer : NoNewPeer h w w') (hw : Accounts w) (hw' : Accounts w')
    (hfree : w.WaitFree h) : w'.WaitFree h := by
  obtain ⟨o', hh'⟩ := Option.ne_none_iff_exists'.mp hpeer.alive
  rw [waitFree_iff hw' hh']
  intro x s hx hatt
  have howns : w.owns h = some x := hpeer.owns ▸ (hw'.owner hh' hx).1
  obtain ⟨o, hh, ho⟩ := Option.bind_eq_some_iff.mp howns
  obtain ⟨g, hg⟩ := (hw'.handles.held (s, x)).mp hatt
  have hg' := hpeer.peers x s g howns (World.refers_iff.mp hg)
  have hrefers := World.refers_iff.mpr hg'
  have hself := (waitFree_iff hw hh).mp hfree x s ho ((hw.handles.held (s, x)).mpr ⟨g, hrefers⟩)
  obtain rfl := hw.handles.unshared g h (s, x) hrefers (World.refers_iff.mpr hself)
  exact World.refers_iff.mp hg

/-- **`IsWaitFreeDestructible` is sound** for a handle, whatever calls have been made, exactly if
the handle is not one that owns a context with something attached to it while it is itself
attached to nothing.  Sound means: if it returns true, then after any further calls that attach
no new handle the destructor does not wait. -/
theorem isWaitFreeDestructible_sound_iff {ops : List (Op Ctx H α × List (Event α))}
    (hrun : Run (Step movedFrom slot) World.init ops w) (hh : w.handles h = some o) :
    (∃ b, w.isWaitFreeDestructible h = some b) ∧
    ((w.isWaitFreeDestructible h = some true → ∀ v w', Run (Step movedFrom slot) w v w' →
      NoNewPeer h w w' → w'.WaitFree h) ↔ ¬ w.Blind h) := by
  obtain ⟨hw, hco⟩ := coherent_run hrun
  refine ⟨?_, ?_, ?_⟩
  · unfold World.isWaitFreeDestructible
    rw [hh, Option.bind_eq_bind, Option.bind_some]
    split
    · exact ⟨_, rfl⟩
    · rename_i x hx
      split
      · exact ⟨_, rfl⟩
      · obtain ⟨c, hc, -⟩ := hw.attached hh hx
        rw [hc]
        exact ⟨_, rfl⟩
  · rintro hsound ⟨o', x, s, ho', hctx, hx, hatt⟩
    cases hh.symm.trans ho'
    have htest : w.isWaitFreeDestructible h = some true := by
      simp [World.isWaitFreeDestructible, hh, hctx]
    have hself : NoNewPeer h w w := ⟨by simp [hh], rfl, fun _ _ _ _ hg => hg⟩
    have hfree := hsound htest [] w .nil hself
    obtain ⟨o', ho', -, hy⟩ := (waitFree_iff hw hh).mp hfree x s hx hatt
    cases hh.symm.trans ho'
    cases hctx.symm.trans hy
  · intro hblind htest v w' hv hpeer
    exact hpeer.waitFree hw (sound_run (hrun.append hv)).1
      (waitFree_of_isWaitFreeDestructible hw hco hh htest hblind)

end Destruction

/-- A promise that owns its context; the future is destroyed. -/
def borrowing : List (Op Nat Nat Nat × List (Event Nat)) :=
  [(.construct 0 .promise 0, []), (.getOpposite 1 0 false, [.returned rtOkStatus]),
    (.destroy 1, [.detached rtOkStatus])]

/-- The promise can be destroyed without waiting, and the test says so. -/
theorem isWaitFreeDestructible_sound_borrowing : ∃ w : World Nat Nat Nat,
    Run (Step id fun _ => 0) World.init borrowing w ∧ w.isWaitFreeDestructible 0 = some true ∧
      w.WaitFree 0 := by
  have hrun : ∃ w : World Nat Nat Nat, Run (Step id fun _ => 0) World.init borrowing w ∧
      w.isWaitFreeDestructible 0 = some true ∧
      w.handles 0 = some ⟨.promise, some 0, some 0, true⟩ :=
    ⟨_, .cons rfl (.cons rfl (.single rfl)), rfl, rfl⟩
  obtain ⟨w, hrun, htest, hh⟩ := hrun
  have hblind : ¬ w.Blind 0 := by
    rintro ⟨o, x, s, ho, hctx, -⟩
    cases hh.symm.trans ho
    cases hctx
  exact ⟨w, hrun, htest, (isWaitFreeDestructible_sound_iff hrun hh).2.mpr hblind htest [] w .nil
    ⟨by simp [hh], rfl, fun _ _ _ _ hg => hg⟩⟩

/-- The promise that was moved from owns a context with a future: the test returns true, but the
destructor waits. -/
theorem isWaitFreeDestructible_unsound : ∃ w : World Nat Nat Nat,
    Run (Step id fun _ => 0) World.init reassigning w ∧
      w.isWaitFreeDestructible 2 = some true ∧ w.destroy 2 = none ∧ ¬ w.WaitFree 2 := by
  have hrun : ∃ w : World Nat Nat Nat, Run (Step id fun _ => 0) World.init reassigning w ∧
      w.isWaitFreeDestructible 2 = some true ∧ w.destroy 2 = none :=
    ⟨_, .cons rfl (.cons rfl (.cons rfl (.cons rfl (.single rfl)))), rfl, rfl⟩
  obtain ⟨w, hrun, htest, hdestroy⟩ := hrun
  refine ⟨w, hrun, htest, hdestroy, fun hfree => ?_⟩
  have hsome := (destroy_isSome_iff (sound_run hrun).1).mpr hfree
  rw [hdestroy] at hsome
  cases hsome

end Intrinsic.PromiseHandles
