import IconSharedMemory.RequestCustody

/-! # The readers of the request queue

Whoever takes a request out of the queue calls `Empty()`, `Front()` and `DropFront()`, in
this order and without a lock.  `OnReadStatus` does so in every cycle, and
`CancelPendingRequests` does so for as long as there is something; it is called from
`OnPrepare`, `OnActivate`, `OnDeactivate`, from the two real-time callbacks after an error,
and from `Shutdown`.

Two readers get into each other's way: `Stop` calls `Shutdown` before it stops the server
that calls `OnReadStatus`, and then the second `Front()` fails its check
(`shutdown_reads_beside_read_status`).  While the queue is read by one thread at a time
(`ReadsAlone`) no check fails, and every request is answered exactly once
(`requests_answered_once`).  They are answered in the order of their insertion while none is
taken beside another one that is still in somebody's hand (`inOrder_run`).
-/
namespace Intrinsic.CallbackHandler
open Runs

/-! ## One reader at a time -/

/-- A reader from an `Empty()` that found something to `DropFront()`. -/
def Pc.reading : Pc → Prop
  | .cancelFront _ | .cancelRespond _ _ | .cancelDrop _ | .processFront | .processDrop _ => True
  | _ => False

/-- The next step calls `Front()`. -/
def Pc.callsFront : Pc → Prop
  | .cancelFront _ | .processFront => True
  | _ => False

/-- The next step calls `DropFront()`. -/
def Pc.callsDropFront : Pc → Prop
  | .cancelDrop _ | .processDrop _ => True
  | _ => False

/-- No thread looks into the queue while another one is reading it. -/
def ReadsAlone {Tid : Type} (c : Config Tid) (t : Tid) : Label → Prop
  | .empty _ => ∀ u, u ≠ t → ¬ (c.locals u).reading
  | _ => True

section Reading
variable {s s' : Shared} {pc pc' : Pc} {l : Label}

theorem Pc.holdsFront.reading (h : pc.holdsFront) : pc.reading := by
  cases pc <;> first | exact trivial | exact h.elim

theorem Pc.callsFront.reading (h : pc.callsFront) : pc.reading := by
  cases pc <;> first | exact trivial | exact h.elim

theorem Pc.callsDropFront.holdsFront (h : pc.callsDropFront) : pc.holdsFront := by
  cases pc <;> first | exact trivial | exact h.elim

theorem Pc.plain.not_reading (h : pc.plain) : ¬ pc.reading := by
  cases pc <;> first | exact id | exact h.elim

/-- A thread starts reading with `Empty()`, and then the queue is not empty. -/
theorem Atom.reading (h : Atom s pc l s' pc') (hreading : pc'.reading) :
    (pc.reading ∧ ¬ pc'.callsFront) ∨
      ((∃ isEmpty, l = .empty isEmpty) ∧ s'.requestQueue ≠ []) := by
  by_cases hpc : pc.plain
  · obtain ⟨hpc', -⟩ | ⟨k, -, rfl, rfl, -, hmore⟩ | ⟨-, rfl, rfl, -, hmore⟩ |
      ⟨a, -, -, -, rfl, -⟩ := h.plain hpc
    · exact absurd hreading hpc'.not_reading
    · exact .inr ⟨⟨_, rfl⟩, hmore⟩
    · exact .inr ⟨⟨_, rfl⟩, hmore⟩
    · exact hreading.elim
  · cases h with
    | @setState site =>
      cases site with
      | process r => exact hreading.elim
      | _ => exact absurd trivial hpc
    | @statusCall k =>
      cases k with
      | prepare => exact absurd trivial hpc
      | action a first => exact hreading.elim
    | requestAnswered => unfold Ask.next at hreading; split at hreading <;> exact hreading.elim
    | requestGivenUp => unfold Ask.next at hreading; split at hreading <;> exact hreading.elim
    | _ =>
      first
        | exact absurd trivial hpc
        | exact hreading.elim
        | exact .inl ⟨trivial, id⟩

/-- Only who reads makes the queue shorter. -/
theorem Atom.requestQueue_ne_nil (h : Atom s pc l s' pc') (hnot : ¬ pc.reading)
    (hqueue : s.requestQueue ≠ []) : s'.requestQueue ≠ [] := by
  obtain ⟨-, -, hkept⟩ | ⟨-, -, -, hkept⟩ | ⟨-, hholds, -⟩ := h.frontAccess
  · exact hkept hqueue
  · exact hkept
  · exact absurd hholds.reading hnot

end Reading

section Alone
variable {Tid : Type} [DecidableEq Tid] {c d : Config Tid} {x : Tid × Label}
  {w : List (Tid × Label)} {now : Nat}

/-- At most one thread reads the queue; when it is going to call `Front()` there is a front
element. -/
structure ReadInv (c : Config Tid) : Prop where
  alone : AtMostOne Pc.reading c.locals
  front : ∀ t, (c.locals t).callsFront → c.shared.requestQueue ≠ []

omit [DecidableEq Tid] in
theorem readInv_initial (now : Nat) : ReadInv (initial Tid now) where
  alone := fun _ _ h => h.elim
  front := fun _ h => h.elim

theorem ReadInv.step (h : ReadInv c) (hs : Step ReadsAlone c x d) : ReadInv d := by
  cases hs with
  | @mk t l s' pc' hok hatom =>
    by_cases hreading : pc'.reading
    · obtain ⟨hold, hnot⟩ | ⟨⟨isEmpty, rfl⟩, hqueue⟩ := hatom.reading hreading
      · refine ⟨h.alone.update fun _ => hold, fun u hu => ?_⟩
        obtain ⟨-, hu⟩ | ⟨hut, hu⟩ := of_update hu
        · exact absurd hu hnot
        · exact absurd (h.alone u t hu.reading hold) hut
      · have hothers : ∀ u, u ≠ t → ¬ (c.locals u).reading := hok
        refine ⟨fun u v hu hv => ?_, fun _ _ => hqueue⟩
        obtain ⟨rfl, -⟩ | ⟨hut, hu⟩ := of_update hu
        · obtain ⟨rfl, -⟩ | ⟨hvt, hv⟩ := of_update hv
          · rfl
          · exact absurd hv (hothers v hvt)
        · exact absurd hu (hothers u hut)
    · refine ⟨h.alone.update fun hp => absurd hp hreading, fun u hu => ?_⟩
      obtain ⟨-, hu⟩ | ⟨hut, hu⟩ := of_update hu
      · exact absurd hu.reading hreading
      · have hnot : ¬ (c.locals t).reading := fun ht => hut (h.alone u t hu.reading ht)
        exact hatom.requestQueue_ne_nil hnot (h.front u hu)

theorem readInv_run (h : Run (Step ReadsAlone) (initial Tid now) w c) : ReadInv c :=
  h.stateInvariant (readInv_initial now) fun _ _ _ hi hs => hi.step hs

omit [DecidableEq Tid] in
/-- While nobody but `t` reads and `t` does not hold the front, nobody has accessed it. -/
theorem FrontInv.not_accessed (h : FrontInv c) {t : Tid} (ht : ¬ (c.locals t).holdsFront)
    (hothers : ∀ u, u ≠ t → ¬ (c.locals u).reading) : c.shared.frontAccessed = false := by
  by_contra haccessed
  obtain ⟨u, hu⟩ := h.owned.held haccessed
  have hut : u ≠ t := fun heq => ht (heq ▸ hu)
  exact hothers u hut hu.reading

/-- `CancelPendingRequests`, on its own, answers what is pending. -/
theorem cancelPendingRequests_run (k : Canceller) : ∀ (queue : List Request) (s : Shared),
    s.requestQueue = queue → s.frontAccessed = false →
    ∃ v s', Run (Pool.Solo Atom) (s, .cancelEmpty k) v (s', k.next) ∧ s'.requestQueue = [] := by
  intro queue
  induction queue with
  | nil =>
    intro s hqueue _
    refine ⟨_, k.release s, .single (.mk (.cancelDone hqueue)), ?_⟩
    cases k <;> exact hqueue
  | cons r rest ih =>
    intro s hqueue haccessed
    have hmore : s.requestQueue ≠ [] := by
      rw [hqueue]
      exact List.cons_ne_nil r rest
    obtain ⟨v, s', hrun, hempty⟩ := ih
      (({ s with frontAccessed := true } : Shared).respond r.id
        (formatRealtimeStatus .cancelled k.reason)).dropFront
      (by rw [Shared.dropFront, Shared.respond, hqueue, List.tail_cons]) rfl
    have hround : Run (Pool.Solo Atom) (s, .cancelEmpty k) _ (s', k.next) :=
      .cons (.mk (.cancelMore hmore)) (.cons (.mk (.cancelFront haccessed hqueue))
        (.cons (.mk .cancelRespond) (.cons (.mk (.cancelDrop rfl)) hrun)))
    exact ⟨_, s', hround, hempty⟩

/-- **What single readers guarantee.**  `Front()` is called while no element is accessed and
there is one; `DropFront()` is called while one is.  A request is pending, or in somebody's
hand, or answered exactly once, and `CancelPendingRequests` answers the pending ones. -/
structure AnsweredOnce (w : List (Tid × Label)) (c : Config Tid) : Prop where
  front : ∀ t, (c.locals t).callsFront →
    c.shared.frontAccessed = false ∧ c.shared.requestQueue ≠ []
  dropFront : ∀ t, (c.locals t).callsDropFront → c.shared.frontAccessed = true
  once : ∀ r ∈ inserted w,
    ((r ∈ c.shared.pending ∨ ∃ t, (c.locals t).hand = some r) ∧ answers w r.id = 0) ∨
      answers w r.id = 1
  cancelled : ∀ t k, c.locals t = .cancelEmpty k → (∀ u, u ≠ t → ¬ (c.locals u).reading) →
    ∃ v d, Run (Step ReadsAlone) c v d ∧ (∀ x ∈ v, x.1 = t) ∧ d.locals t = k.next ∧
      ∀ r ∈ c.shared.pending, answers (w ++ v) r.id = 1

omit [DecidableEq Tid] in
/-- A request that has not been answered is pending or in somebody's hand. -/
theorem Ledger.once (h : Ledger w c) {r : Request} (hr : r ∈ inserted w) :
    ((r ∈ c.shared.pending ∨ ∃ t, (c.locals t).hand = some r) ∧ answers w r.id = 0) ∨
      answers w r.id = 1 := by
  rw [h.count]
  by_cases hnone : c.shared.replies r.id = none
  · rw [if_pos hnone]
    refine .inl ⟨?_, rfl⟩
    by_cases hlt : r.id < c.shared.taken
    · exact .inr (h.held r hr hlt hnone)
    · exact .inl ((h.mem_pending hr).mpr (Nat.le_of_not_lt hlt))
  · rw [if_neg hnone]
    exact .inr rfl

theorem hand_cancellerNext (k : Canceller) : k.next.hand = none := by
  cases k <;> rfl

theorem cancelled_run (h : Run (Step ReadsAlone) (initial Tid now) w c) {t : Tid} {k : Canceller}
    (ht : c.locals t = .cancelEmpty k) (hothers : ∀ u, u ≠ t → ¬ (c.locals u).reading) :
    ∃ v d, Run (Step ReadsAlone) c v d ∧ (∀ x ∈ v, x.1 = t) ∧ d.locals t = k.next ∧
      ∀ r ∈ c.shared.pending, answers (w ++ v) r.id = 1 := by
  obtain ⟨hfront, hkept⟩ := kept_run h
  have hfree : c.shared.frontAccessed = false := by
    apply hfront.not_accessed (t := t) _ hothers
    rw [ht]
    exact id
  obtain ⟨v, s', hsolo, hempty⟩ := cancelPendingRequests_run k _ c.shared rfl hfree
  have hok : ∀ s pc l, ReadsAlone ⟨s, Function.update c.locals t pc⟩ t l := by
    intro s pc l
    unfold ReadsAlone
    split
    · intro u hut
      dsimp only
      rw [Function.update_of_ne hut]
      exact hothers u hut
    · exact trivial
  have hrun := Pool.alone hok hsolo
  dsimp only at hrun
  rw [← ht, Function.update_eq_self] at hrun
  refine ⟨_, _, hrun, ?_, Function.update_self .., fun r hr => ?_⟩
  · intro x hx
    obtain ⟨l, -, rfl⟩ := List.mem_map.mp hx
    rfl
  · have hledger := ledger_run h
    have hmem : r ∈ inserted w := List.mem_of_mem_drop (hledger.pending ▸ hr)
    have hmem' : r ∈ inserted (w ++ v.map fun l => (t, l)) := by
      rw [inserted, List.filterMap_append]
      exact List.mem_append_left _ hmem
    obtain ⟨hpending | ⟨u, hu⟩, -⟩ | hone := (ledger_run (h.append hrun)).once hmem'
    · -- nothing is pending any more
      rw [show Shared.pending _ = [] by simp [Shared.pending, hempty]] at hpending
      exact absurd hpending (List.not_mem_nil)
    · -- whoever has a request in hand had taken it before
      obtain ⟨-, hu⟩ | ⟨-, hu⟩ := hand_of_update hu
      · rw [hand_cancellerNext] at hu
        cases hu
      · have hlt := hkept.hand_lt u r hu
        have hle := (hledger.mem_pending hmem).mp hr
        omega
    · exact hone

/-- **Every request is answered exactly once, and no check of the queue fails**, in every run
in which the queue is read by one thread at a time. -/
theorem requests_answered_once (h : Run (Step ReadsAlone) (initial Tid now) w c) :
    AnsweredOnce w c where
  front t ht := by
    have hread := readInv_run h
    have hothers : ∀ u, u ≠ t → ¬ (c.locals u).reading :=
      fun u hut hu => hut (hread.alone u t hu ht.reading)
    have hnot : ¬ (c.locals t).holdsFront := by
      revert ht
      cases c.locals t <;> first | exact fun _ => id | exact False.elim
    exact ⟨(frontInv_run h).not_accessed hnot hothers, hread.front t ht⟩
  dropFront t ht := by
    have howned := (frontInv_run h).owned
    exact Bool.of_not_eq_false (howned.not_free ht.holdsFront)
  once r hr := (ledger_run h).once hr
  cancelled t k ht hothers := cancelled_run h ht hothers

end Alone

/-- A thread of two that is not beside a reader. -/
theorem readsAlone_two {s : Shared} {x y : Pc} {t : Bool} {l : Label}
    (h : ¬ (if t then x else y).reading) : ReadsAlone (Pool.two s x y) t l := by
  unfold ReadsAlone
  split
  · rintro u hut
    cases t <;> cases u <;> first | exact absurd rfl hut | exact h
  · exact trivial

/-- `OnDeactivate` answers the request of `OnEnableMotion`. -/
def deactivating : List (Bool × Label) :=
  [(true, .start .deactivate),
    (true, .setState (.deactivating false) .activated .deactivating true none),
    (true, .internal), (true, .empty false), (true, .front enableRequest),
    (true, .respond 0 (formatRealtimeStatus .cancelled (Canceller.deactivate false).reason))]

/-- `OnDeactivate` has answered the request of `OnEnableMotion` and now drops it. -/
theorem requests_answered_once_deactivating : ∃ c : Config Bool,
    Run (Step ReadsAlone) (initial Bool 0) (activation ++ asking ++ deactivating) c ∧
      AnsweredOnce (activation ++ asking ++ deactivating) c := by
  have hactivation := activation_run fun s pc l _ =>
    readsAlone_two (s := s) (x := pc) (y := .idle) (t := false) (l := l) id
  have hasked := hactivation.append (asking_run fun s pc l _ =>
    readsAlone_two (s := s) (x := pc) (y := .idle) (t := false) (l := l) id)
  have hrun := hasked.append (
    .cons (.second (readsAlone_two id) (.start .deactivate)) <|
    .cons (.second (readsAlone_two id) (.stores 0 rfl nofun (Nat.le_refl _))) <|
    .cons (.second (readsAlone_two id) .rejectRequests) <|
    .cons (.second (readsAlone_two id) (.cancelMore nofun)) <|
    .cons (.second (readsAlone_two id) (.cancelFront rfl rfl)) <|
    .single (.second (readsAlone_two id) .cancelRespond))
  exact ⟨_, hrun, requests_answered_once hrun⟩

/-- `OnReadStatus` looks at the request; the action gives up; and `Shutdown` finds the
request that `OnReadStatus` has not dropped yet. -/
def stopping : List (Bool × Label) :=
  [(true, .start .readStatus), (true, .internal), (true, .empty false),
    (true, .front enableRequest), (false, .waited 0 false), (false, .internal),
    (false, .start .shutdown), (false, .internal), (false, .internal), (false, .empty false)]

/-- **`Shutdown` reads the queue beside `OnReadStatus`.**  The next step of the first thread
is a call of `Front()` while the `Front()` of the other thread is outstanding: its check
fails. -/
theorem shutdown_reads_beside_read_status : ∃ s,
    Run (Step Documented) (initial Bool 0) (activation ++ asking ++ stopping)
      (Pool.two s (.cancelFront .shutdown) (.processDrop enableRequest)) ∧
    s.frontAccessed = true := by
  apply Exists.intro
  refine ⟨asked_run.append ?_, ?_⟩
  · refine .cons (.second (documented_second rfl) (.start .readStatus)) ?_
    refine .cons (.second (documented_second rfl) .processStore) ?_
    refine .cons (.second (documented_second rfl) (.processEmpty nofun)) ?_
    refine .cons (.second (documented_second rfl) (.processFront rfl rfl)) ?_
    refine .cons (.first trivial .requestGivenUp) ?_
    refine .cons (.first trivial .actionUnlock) ?_
    refine .cons (.first trivial (.start .shutdown)) ?_
    refine .cons (.first trivial (.shutdownLock rfl)) ?_
    refine .cons (.first trivial .shutdownReject) ?_
    exact .single (.first trivial (.cancelMore nofun))
  · rfl

/-! ## Answers in order -/

/-- No request is taken while another thread has one in hand. -/
def TakesAlone {Tid : Type} (c : Config Tid) (t : Tid) : Label → Prop
  | .front _ => ∀ u, u ≠ t → (c.locals u).hand = none
  | _ => True

section Order
variable {Tid : Type} [DecidableEq Tid] {c d : Config Tid} {x : Tid × Label}
  {w : List (Tid × Label)} {now : Nat}

/-- The numbers of the requests that have been answered, in this order. -/
def answeredIds (w : List (Tid × Label)) : List Nat := w.filterMap fun x => x.2.answered

omit [DecidableEq Tid] in
theorem answeredIds_snoc (w : List (Tid × Label)) (t : Tid) (l : Label) :
    answeredIds (w ++ [(t, l)]) = answeredIds w ++ l.answered.toList := by
  rw [answeredIds, List.filterMap_append]
  cases h : l.answered <;> simp [answeredIds, h]

/-- At most one thread has a request in hand, and its number is above those of the requests
that have been answered. -/
structure InOrder (w : List (Tid × Label)) (c : Config Tid) : Prop where
  alone : AtMostOne (fun pc : Pc => pc.hand ≠ none) c.locals
  sorted : (answeredIds w).Pairwise (· < ·)
  taken : ∀ id ∈ answeredIds w, id < c.shared.taken
  below : ∀ id ∈ answeredIds w, ∀ t r, (c.locals t).hand = some r → id < r.id

omit [DecidableEq Tid] in
theorem inOrder_initial (now : Nat) : InOrder [] (initial Tid now) where
  alone := fun _ _ h => absurd rfl h
  sorted := .nil
  taken := nofun
  below := nofun

theorem InOrder.step (h : InOrder w c) (hfront : FrontInv c) (hkept : Kept c)
    (hs : Step TakesAlone c x d) : InOrder (w ++ [x]) d := by
  cases hs with
  | @mk t l s' pc' hok hatom =>
    have hanswered := answeredIds_snoc w t l
    cases hatom.custody hfront.accessed with
    | keep hpending hnext _ hhand hl =>
      rw [answered_eq_none hl, Option.toList_none, List.append_nil] at hanswered
      refine ⟨h.alone.update fun hp => hhand ▸ hp, ?_, ?_, ?_⟩ <;> rw [hanswered]
      · exact h.sorted
      · rw [taken_keep hpending hnext]
        exact h.taken
      · intro id hid u r
        rw [hand_update hhand]
        exact h.below id hid u r
    | insert _ hpending hnext _ hhand hhand' =>
      have hsame : pc'.hand = (c.locals t).hand := hhand'.trans hhand.symm
      rw [show (Label.insert _ _).answered = none from rfl, Option.toList_none,
        List.append_nil] at hanswered
      refine ⟨h.alone.update fun hp => hsame ▸ hp, ?_, ?_, ?_⟩ <;> rw [hanswered]
      · exact h.sorted
      · rw [taken_insert hpending hnext]
        exact h.taken
      · intro id hid u r
        rw [hand_update hsame]
        exact h.below id hid u r
    | @take r hpending hnext _ hhand hhand' =>
      have htaken := taken_take hpending hnext hkept.total
      have hothers : ∀ u, u ≠ t → (c.locals u).hand = none := hok
      rw [show (Label.front r).answered = none from rfl, Option.toList_none,
        List.append_nil] at hanswered
      refine ⟨?_, ?_, ?_, ?_⟩
      · refine AtMostOne.enter fun u hu => ?_
        by_cases hut : u = t
        · exact hu (hut ▸ hhand)
        · exact hu (hothers u hut)
      · rw [hanswered]
        exact h.sorted
      · rw [hanswered, htaken]
        exact fun id hid => (h.taken id hid).trans (Nat.lt_succ_self _)
      · rw [hanswered]
        intro id hid u r' hu
        obtain ⟨-, hr⟩ | ⟨hut, hr⟩ := hand_of_update hu
        · obtain rfl := Option.some.inj (hhand'.symm.trans hr)
          rw [(hkept.head hpending).1]
          exact h.taken id hid
        · exact nomatch (hothers u hut).symm.trans hr
    | @answer r reply hpending hnext _ hhand hhand' =>
      rw [show (Label.respond r.id reply).answered = some r.id from rfl,
        Option.toList_some] at hanswered
      refine ⟨h.alone.update fun hp => absurd hhand' hp, ?_, ?_, ?_⟩ <;> rw [hanswered]
      · refine List.pairwise_append.mpr ⟨h.sorted, List.pairwise_singleton _ _, ?_⟩
        intro id hid id' hid'
        obtain rfl := List.mem_singleton.mp hid'
        exact h.below id hid t r hhand
      · rw [taken_keep hpending hnext]
        intro id hid
        rcases List.mem_append.mp hid with hid | hid
        · exact h.taken id hid
        · obtain rfl := List.mem_singleton.mp hid
          exact hkept.hand_lt t r hhand
      · -- the hand that answered is empty now, and the others were
        intro id hid u r' hu
        obtain ⟨-, hr⟩ | ⟨hut, hr⟩ := hand_of_update hu
        · exact nomatch hhand'.symm.trans hr
        · refine absurd (h.alone u t ?_ ?_) hut
          · exact fun hnone => nomatch hnone.symm.trans hr
          · exact fun hnone => nomatch hnone.symm.trans hhand

theorem inOrder_run (h : Run (Step TakesAlone) (initial Tid now) w c) : InOrder w c := by
  have hinv : (FrontInv c ∧ Kept c) ∧ InOrder w c := by
    refine h.invariant (I := fun w c => (FrontInv c ∧ Kept c) ∧ InOrder w c)
      ⟨⟨frontInv_initial now, kept_initial now⟩, inOrder_initial now⟩ ?_
    rintro w c x d ⟨⟨hfront, hkept⟩, hi⟩ hs
    exact ⟨⟨hfront.step hs, hkept.step hfront hs⟩, hi.step hfront hkept hs⟩
  exact hinv.2

end Order

end Intrinsic.CallbackHandler
