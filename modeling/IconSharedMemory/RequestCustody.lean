import IconSharedMemory.TransitionHooks

/-! # Who has a request

A request for a state change is inserted into the queue by an action, taken out by
whoever reads the queue (`OnReadStatus`, or a callback that cancels what is pending), and
answered by the reader that took it.  The requests are numbered as they are inserted.

`Custody` says what one step can do with requests: nothing, insert one, take one, or
answer one.  From these four cases follows what is known about every request in every run
(`Kept`): the numbers of the pending ones are consecutive and end with the newest, and a
request that a reader has taken is with this reader only and has no answer yet.  `Ledger`
compares this with the word of the run: what was inserted is pending, in somebody's hand or
answered once.

A request whose waiting action has given up is still in the queue and is applied later
(`abandoned_request_applied`), unless waits do not end before the answer
(`failed_requests_not_applied`).
-/
namespace Intrinsic.CallbackHandler
open Runs

/-! ## One step -/

/-- The requests that no reader has taken: the front element is taken once it has been
accessed, although it leaves the queue later. -/
def Shared.pending (s : Shared) : List Request :=
  if s.frontAccessed then s.requestQueue.tail else s.requestQueue

/-- The request that a reader has taken and not answered yet. -/
def Pc.hand : Pc → Option Request
  | .cancelRespond _ r | .processDrop r | .processCheck r | .setState (.process r) _ _
  | .processRespond r _ => some r
  | _ => none

/-- A reader between `Front()` and `DropFront()`. -/
def Pc.holdsFront : Pc → Prop
  | .cancelRespond _ _ | .cancelDrop _ | .processDrop _ => True
  | _ => False

/-- The step inserts, takes or answers a request. -/
def Label.handlesRequest : Label → Bool
  | .insert _ _ | .front _ | .respond _ _ => true
  | _ => false

/-- Program points that have nothing to do with requests. -/
def Pc.plain : Pc → Prop
  | .setState (.process _) _ _ | .statusCall (.action _ _) | .cancelFront _
  | .cancelRespond _ _ | .cancelDrop _ | .actionLoad _ | .requestGuard _ | .requestLock _
  | .requestStamp _ | .requestInsert _ _ | .requestWait _ _ | .actionUnlock | .processFront
  | .processDrop _ | .processCheck _ | .processRespond _ _ => False
  | _ => True

/-- A step leaves alone what requests are about. -/
structure SameRequests (s s' : Shared) : Prop where
  queue : s'.requestQueue = s.requestQueue
  accessed : s'.frontAccessed = s.frontAccessed
  nextId : s'.nextId = s.nextId
  replies : s'.replies = s.replies
  actionLock : s'.actionLock = s.actionLock

section Plain
variable {s s' : Shared} {pc pc' : Pc} {l : Label}

theorem SameRequests.refl (s : Shared) : SameRequests s s := ⟨rfl, rfl, rfl, rfl, rfl⟩

theorem SameRequests.pending (h : SameRequests s s') : s'.pending = s.pending := by
  rw [Shared.pending, h.queue, h.accessed, Shared.pending]

/-- `SetStateDirectly` does not touch the requests. -/
theorem Shared.setStateDirectly_requests (s : Shared) (disabled : RealtimeStatus) (now : Nat)
    (state : StateCode) (status : RealtimeStatus) :
    SameRequests s (s.setStateDirectly disabled now state status false).2 := by
  obtain ⟨-, heq⟩ | ⟨-, stored, status', heq, -⟩ :=
    s.setStateDirectly_cases disabled now state status
  · rw [heq]
    exact .refl s
  · rw [heq]
    exact ⟨rfl, rfl, rfl, rfl, rfl⟩

theorem Pc.plain.hand (h : pc.plain) : pc.hand = none := by
  cases pc with
  | setState site => cases site <;> first | rfl | exact h.elim
  | _ => first | rfl | exact h.elim

theorem Pc.plain.not_holdsFront (h : pc.plain) : ¬ pc.holdsFront := by
  cases pc <;> first | exact id | exact h.elim

theorem plain_next {site : Site} (hsite : ∀ r, site ≠ .process r) (changed : Bool) :
    (site.next changed).plain := by
  cases site with
  | process r => exact absurd rfl (hsite r)
  | deactivating nested => cases changed <;> cases nested <;> exact trivial
  | deactivated nested => cases nested <;> exact trivial
  | _ => cases changed <;> exact trivial

theorem plain_realtimeCall (k : RealtimeCall) (st : RealtimeStatus) : (k.next st).plain := by
  cases k <;> unfold RealtimeCall.next <;> dsimp only <;> split <;> exact trivial

theorem plain_prepareCall (st : Status) : (StatusCall.prepare.next st).plain := by
  unfold StatusCall.next
  dsimp only
  split <;> exact trivial

/-- **Steps from plain program points** lead to plain ones and leave the requests alone, but
for three: a reader has found that the queue is not empty, or an action takes its lock. -/
theorem Atom.plain (h : Atom s pc l s' pc') (hpc : pc.plain) :
    (pc'.plain ∧ SameRequests s s' ∧ l.handlesRequest = false) ∨
    (∃ k, pc = .cancelEmpty k ∧ l = .empty false ∧ s' = s ∧ pc' = .cancelFront k ∧
      s.requestQueue ≠ []) ∨
    (pc = .processEmpty ∧ l = .empty false ∧ s' = s ∧ pc' = .processFront ∧
      s.requestQueue ≠ []) ∨
    (∃ a, pc = .actionLock a ∧ l = .internal ∧ s' = { s with actionLock := true } ∧
      pc' = .actionLoad a ∧ s.actionLock = false) := by
  cases h with
  | start cb => exact .inl ⟨by cases cb <;> exact trivial, .refl s, rfl⟩
  | @setState site state status disabled now =>
    refine .inl ⟨plain_next ?_ _, s.setStateDirectly_requests disabled now state status, rfl⟩
    rintro r rfl
    exact hpc.elim
  | @statusCall k st =>
    cases k with
    | prepare => exact .inl ⟨plain_prepareCall st, .refl s, rfl⟩
    | action => exact hpc.elim
  | realtimeCall => exact .inl ⟨plain_realtimeCall _ _, .refl s, rfl⟩
  | prepareLoad => exact .inl ⟨by split <;> exact trivial, .refl s, rfl⟩
  | @cancelDone k => cases k <;> exact .inl ⟨trivial, ⟨rfl, rfl, rfl, rfl, rfl⟩, rfl⟩
  | @cancelMore k hmore => exact .inr (.inl ⟨k, rfl, rfl, rfl, rfl, hmore⟩)
  | @actionLock a hfree => exact .inr (.inr (.inr ⟨a, rfl, rfl, rfl, rfl, hfree⟩))
  | processEmpty hmore => exact .inr (.inr (.inl ⟨rfl, rfl, rfl, rfl, hmore⟩))
  | enabledLoad => exact .inl ⟨by split <;> exact trivial, .refl s, rfl⟩
  | readStatusLoad => exact .inl ⟨by split <;> exact trivial, .refl s, rfl⟩
  | applyLoad => exact .inl ⟨by split; exacts [trivial, by split <;> exact trivial], .refl s, rfl⟩
  | _ => first | exact hpc.elim | exact .inl ⟨trivial, ⟨rfl, rfl, rfl, rfl, rfl⟩, rfl⟩

end Plain

section Custody
variable {s s' : Shared} {pc pc' : Pc} {l : Label}

/-- **What a step does with requests.** -/
inductive Custody (s : Shared) (pc : Pc) (s' : Shared) (pc' : Pc) : Label → Prop
  | keep {l : Label} (hpending : s'.pending = s.pending) (hnext : s'.nextId = s.nextId)
      (hreplies : s'.replies = s.replies) (hhand : pc'.hand = pc.hand)
      (hl : l.handlesRequest = false) : Custody s pc s' pc' l
  | insert {r : Request} {first : Option Nat} (hid : r.id = s.nextId)
      (hpending : s'.pending = s.pending ++ [r]) (hnext : s'.nextId = s.nextId + 1)
      (hreplies : s'.replies = s.replies) (hhand : pc.hand = none) (hhand' : pc'.hand = none) :
      Custody s pc s' pc' (.insert r first)
  | take {r : Request} (hpending : s.pending = r :: s'.pending) (hnext : s'.nextId = s.nextId)
      (hreplies : s'.replies = s.replies) (hhand : pc.hand = none) (hhand' : pc'.hand = some r) :
      Custody s pc s' pc' (.front r)
  | answer {r : Request} {reply : RealtimeStatus} (hpending : s'.pending = s.pending)
      (hnext : s'.nextId = s.nextId)
      (hreplies : s'.replies = Function.update s.replies r.id (some reply))
      (hhand : pc.hand = some r) (hhand' : pc'.hand = none) :
      Custody s pc s' pc' (.respond r.id reply)

theorem pending_dropFront (h : s.frontAccessed = true) : s.dropFront.pending = s.pending := by
  simp [Shared.pending, Shared.dropFront, h]

theorem pending_front {r : Request} {rest : List Request} (hcheck : s.frontAccessed = false)
    (hqueue : s.requestQueue = r :: rest) :
    s.pending = r :: ({ s with frontAccessed := true } : Shared).pending := by
  simp [Shared.pending, hcheck, hqueue]

/-- The element that has been accessed is still in the queue. -/
def Accessed (s : Shared) : Prop := s.frontAccessed = true → s.requestQueue ≠ []

theorem pending_insert {q : Ask} {now : Nat} (haccessed : Accessed s) :
    ({ s with
      requestQueue := s.requestQueue ++ [q.request s.nextId now]
      nextId := s.nextId + 1
      nonRtBufferLock := false } : Shared).pending = s.pending ++ [q.request s.nextId now] := by
  unfold Shared.pending
  dsimp only
  split
  · rename_i hfront
    obtain ⟨r, rest, hqueue⟩ := List.exists_cons_of_ne_nil (haccessed hfront)
    rw [hqueue]
    rfl
  · rfl

theorem hand_ask (q : Ask) (id : Nat) (ok : Bool) : (q.next id ok).hand = none := by
  unfold Ask.next
  split <;> rfl

theorem Atom.custody (h : Atom s pc l s' pc') (haccessed : Accessed s) :
    Custody s pc s' pc' l := by
  by_cases hpc : pc.plain
  · obtain ⟨hpc', hsame, hl⟩ | ⟨k, rfl, rfl, rfl, rfl, -⟩ | ⟨rfl, rfl, rfl, rfl, -⟩ |
      ⟨a, rfl, rfl, rfl, rfl, -⟩ := h.plain hpc
    · exact .keep hsame.pending hsame.nextId hsame.replies (hpc'.hand.trans hpc.hand.symm) hl
    · exact .keep rfl rfl rfl rfl rfl
    · exact .keep rfl rfl rfl rfl rfl
    · exact .keep rfl rfl rfl rfl rfl
  · cases h with
    | @setState site state status disabled now =>
      have hsame := s.setStateDirectly_requests disabled now state status
      cases site with
      | process r => exact .keep hsame.pending hsame.nextId hsame.replies rfl rfl
      | _ => exact absurd trivial hpc
    | @statusCall k st =>
      cases k with
      | prepare => exact absurd trivial hpc
      | action a first => exact .keep rfl rfl rfl rfl rfl
    | cancelFront hcheck hqueue => exact .take (pending_front hcheck hqueue) rfl rfl rfl rfl
    | cancelRespond => exact .answer rfl rfl rfl rfl rfl
    | cancelDrop hcheck => exact .keep (pending_dropFront hcheck) rfl rfl rfl rfl
    | requestInsert => exact .insert rfl (pending_insert haccessed) rfl rfl rfl rfl
    | @requestAnswered q id reply => exact .keep rfl rfl rfl (hand_ask q id reply.isOk) rfl
    | @requestGivenUp q id => exact .keep rfl rfl rfl (hand_ask q id false) rfl
    | processFront hcheck hqueue => exact .take (pending_front hcheck hqueue) rfl rfl rfl rfl
    | processDrop hcheck => exact .keep (pending_dropFront hcheck) rfl rfl rfl rfl
    | processRespond => exact .answer rfl rfl rfl rfl rfl
    | _ => first | exact absurd trivial hpc | exact .keep rfl rfl rfl rfl rfl

/-- What a step does with the front of the queue: nothing, access it, or drop it. -/
theorem Atom.frontAccess (h : Atom s pc l s' pc') :
    (s'.frontAccessed = s.frontAccessed ∧ (pc'.holdsFront ↔ pc.holdsFront) ∧
      (s.requestQueue ≠ [] → s'.requestQueue ≠ [])) ∨
    (s.frontAccessed = false ∧ s'.frontAccessed = true ∧ pc'.holdsFront ∧
      s'.requestQueue ≠ []) ∨
    (s'.frontAccessed = false ∧ pc.holdsFront ∧ ¬ pc'.holdsFront) := by
  by_cases hpc : pc.plain
  · obtain ⟨hpc', hsame, -⟩ | ⟨k, rfl, rfl, rfl, rfl, -⟩ | ⟨rfl, rfl, rfl, rfl, -⟩ |
      ⟨a, rfl, rfl, rfl, rfl, -⟩ := h.plain hpc
    · refine .inl ⟨hsame.accessed, iff_of_false hpc'.not_holdsFront hpc.not_holdsFront, ?_⟩
      rw [hsame.queue]
      exact id
    · exact .inl ⟨rfl, Iff.rfl, id⟩
    · exact .inl ⟨rfl, Iff.rfl, id⟩
    · exact .inl ⟨rfl, Iff.rfl, id⟩
  · cases h with
    | @setState site state status disabled now =>
      have hsame := s.setStateDirectly_requests disabled now state status
      cases site with
      | process r => exact .inl ⟨hsame.accessed, Iff.rfl, by rw [hsame.queue]; exact id⟩
      | _ => exact absurd trivial hpc
    | @statusCall k st =>
      cases k with
      | prepare => exact absurd trivial hpc
      | action a first => exact .inl ⟨rfl, Iff.rfl, id⟩
    | cancelFront hcheck hqueue => exact .inr (.inl ⟨hcheck, rfl, trivial, by simp [hqueue]⟩)
    | cancelDrop => exact .inr (.inr ⟨rfl, trivial, id⟩)
    | requestInsert => exact .inl ⟨rfl, Iff.rfl, by simp⟩
    | requestAnswered => exact .inl ⟨rfl, by unfold Ask.next; split <;> exact Iff.rfl, id⟩
    | requestGivenUp => exact .inl ⟨rfl, by unfold Ask.next; split <;> exact Iff.rfl, id⟩
    | processFront hcheck hqueue => exact .inr (.inl ⟨hcheck, rfl, trivial, by simp [hqueue]⟩)
    | processDrop => exact .inr (.inr ⟨rfl, trivial, id⟩)
    | _ => first | exact absurd trivial hpc | exact .inl ⟨rfl, Iff.rfl, id⟩

end Custody

/-! ## Every run -/

section Kept
variable {Tid : Type} [DecidableEq Tid] {ok : Config Tid → Tid → Label → Prop}
  {c d : Config Tid} {x : Tid × Label} {w : List (Tid × Label)} {now : Nat}

/-- The front of the queue has been accessed by exactly one reader, or by none. -/
structure FrontInv (c : Config Tid) : Prop where
  owned : Owned (c.shared.frontAccessed = false) Pc.holdsFront c.locals
  accessed : Accessed c.shared

omit [DecidableEq Tid] in
theorem frontInv_initial (now : Nat) : FrontInv (initial Tid now) where
  owned := ⟨fun _ _ => id, fun h => absurd rfl h, fun _ _ h => h.elim⟩
  accessed := nofun

theorem FrontInv.step (h : FrontInv c) (hs : Step ok c x d) : FrontInv d := by
  cases hs with
  | @mk t l s' pc' hok hatom =>
    obtain ⟨hsame, hholds, hqueue⟩ | ⟨hfree, htaken, hholds, hqueue⟩ | ⟨hfree, hheld, hnot⟩ :=
      hatom.frontAccess
    · refine ⟨h.owned.frame (by rw [hsame]) hholds, fun haccess => ?_⟩
      exact hqueue (h.accessed (hsame ▸ haccess))
    · refine ⟨h.owned.acquire hfree ?_ hholds, fun _ => hqueue⟩
      rw [htaken]
      exact nofun
    · refine ⟨h.owned.release hheld hfree hnot, fun haccess => ?_⟩
      exact absurd (hfree.symm.trans haccess) nofun

theorem frontInv_run (h : Run (Step ok) (initial Tid now) w c) : FrontInv c :=
  h.stateInvariant (frontInv_initial now) fun _ _ _ hi hs => hi.step hs

/-- The number of requests that have been taken. -/
def Shared.taken (s : Shared) : Nat := s.nextId - s.pending.length

/-- **Where the requests are.**  The pending ones have consecutive numbers, up to the newest.
A request in a reader's hand has been taken, by this reader only, and has no answer.  What
has an answer has been taken. -/
structure Kept (c : Config Tid) : Prop where
  total : c.shared.taken + c.shared.pending.length = c.shared.nextId
  numbered : c.shared.pending.map (·.id) =
    List.range' c.shared.taken c.shared.pending.length
  hand_lt : ∀ t r, (c.locals t).hand = some r → r.id < c.shared.taken
  unanswered : ∀ t r, (c.locals t).hand = some r → c.shared.replies r.id = none
  alone : ∀ t u r r', (c.locals t).hand = some r → (c.locals u).hand = some r' →
    r.id = r'.id → t = u
  answered : ∀ id, c.shared.replies id ≠ none → id < c.shared.taken

theorem taken_keep {s s' : Shared} (hpending : s'.pending = s.pending)
    (hnext : s'.nextId = s.nextId) : s'.taken = s.taken := by
  rw [Shared.taken, hpending, hnext, Shared.taken]

theorem taken_insert {s s' : Shared} {r : Request} (hpending : s'.pending = s.pending ++ [r])
    (hnext : s'.nextId = s.nextId + 1) : s'.taken = s.taken := by
  rw [Shared.taken, hpending, hnext, List.length_append, List.length_singleton, Shared.taken,
    Nat.add_sub_add_right]

theorem taken_take {s s' : Shared} {r : Request} (hpending : s.pending = r :: s'.pending)
    (hnext : s'.nextId = s.nextId) (htotal : s.taken + s.pending.length = s.nextId) :
    s'.taken = s.taken + 1 := by
  rw [hpending, List.length_cons] at htotal
  rw [Shared.taken, hnext]
  omega

omit [DecidableEq Tid] in
theorem kept_initial (now : Nat) : Kept (initial Tid now) := by
  have hinit : (initial Tid now).shared = .members now := Shared.init_eq now
  have hhand : ∀ t r, ((initial Tid now).locals t).hand ≠ some r := fun _ _ h => by cases h
  refine ⟨?_, ?_, fun t r h => absurd h (hhand t r), fun t r h => absurd h (hhand t r),
    fun t _ r _ h => absurd h (hhand t r), ?_⟩
  · rw [hinit]
    rfl
  · rw [hinit]
    rfl
  · intro id h
    rw [hinit] at h
    exact absurd rfl h

omit [DecidableEq Tid] in
/-- The first pending request is the first that has not been taken. -/
theorem Kept.head (h : Kept c) {r : Request} {rest : List Request}
    (hpending : c.shared.pending = r :: rest) :
    r.id = c.shared.taken ∧ rest.map (·.id) = List.range' (c.shared.taken + 1) rest.length := by
  have hnumbered := h.numbered
  rw [hpending, List.map_cons, List.length_cons, List.range'_succ] at hnumbered
  exact List.cons_eq_cons.mp hnumbered

theorem hand_update {t : Tid} {pc' : Pc} (h : pc'.hand = (c.locals t).hand) (u : Tid) :
    (Function.update c.locals t pc' u).hand = (c.locals u).hand := by
  by_cases hut : u = t
  · subst hut
    rw [Function.update_self, h]
  · rw [Function.update_of_ne hut]

/-- A thread that has a request after `t` moved is `t`, or it had it before. -/
theorem hand_of_update {t u : Tid} {pc' : Pc} {r : Request}
    (h : (Function.update c.locals t pc' u).hand = some r) :
    (u = t ∧ pc'.hand = some r) ∨ (u ≠ t ∧ (c.locals u).hand = some r) :=
  of_update (P := fun pc : Pc => pc.hand = some r) h

/-- A step that has nothing to do with requests. -/
theorem Kept.keep {t : Tid} {s' : Shared} {pc' : Pc} (h : Kept c)
    (hpending : s'.pending = c.shared.pending) (hnext : s'.nextId = c.shared.nextId)
    (hreplies : s'.replies = c.shared.replies) (hhand : pc'.hand = (c.locals t).hand) :
    Kept ⟨s', Function.update c.locals t pc'⟩ := by
  have htaken := taken_keep hpending hnext
  refine ⟨?_, ?_, ?_, ?_, ?_, ?_⟩ <;> dsimp only
  · rw [htaken, hpending, hnext]
    exact h.total
  · rw [htaken, hpending]
    exact h.numbered
  · intro u r
    rw [hand_update hhand, htaken]
    exact h.hand_lt u r
  · intro u r
    rw [hand_update hhand, hreplies]
    exact h.unanswered u r
  · intro u v r r'
    rw [hand_update hhand, hand_update hhand]
    exact h.alone u v r r'
  · rw [hreplies, htaken]
    exact h.answered

/-- A request is inserted. -/
theorem Kept.insert {t : Tid} {s' : Shared} {pc' : Pc} {r : Request} (h : Kept c)
    (hid : r.id = c.shared.nextId) (hpending : s'.pending = c.shared.pending ++ [r])
    (hnext : s'.nextId = c.shared.nextId + 1) (hreplies : s'.replies = c.shared.replies)
    (hhand : (c.locals t).hand = none) (hhand' : pc'.hand = none) :
    Kept ⟨s', Function.update c.locals t pc'⟩ := by
  have htotal := h.total
  have htaken := taken_insert hpending hnext
  have hsame : pc'.hand = (c.locals t).hand := hhand'.trans hhand.symm
  refine ⟨?_, ?_, ?_, ?_, ?_, ?_⟩ <;> dsimp only
  · rw [htaken, hpending, hnext, List.length_append, List.length_singleton]
    omega
  · rw [htaken, hpending, List.map_append, List.length_append, List.length_singleton,
      List.range'_1_concat, h.numbered, List.map_singleton, hid, htotal]
  · intro u r
    rw [hand_update hsame, htaken]
    exact h.hand_lt u r
  · intro u r
    rw [hand_update hsame, hreplies]
    exact h.unanswered u r
  · intro u v r r'
    rw [hand_update hsame, hand_update hsame]
    exact h.alone u v r r'
  · rw [hreplies, htaken]
    exact h.answered

/-- A request is taken from the queue. -/
theorem Kept.take {t : Tid} {s' : Shared} {pc' : Pc} {r : Request} (h : Kept c)
    (hpending : c.shared.pending = r :: s'.pending) (hnext : s'.nextId = c.shared.nextId)
    (hreplies : s'.replies = c.shared.replies) (hhand' : pc'.hand = some r) :
    Kept ⟨s', Function.update c.locals t pc'⟩ := by
  obtain ⟨hid, hrest⟩ := h.head hpending
  have htotal := h.total
  have htaken := taken_take hpending hnext htotal
  rw [hpending, List.length_cons] at htotal
  -- the number of the request that is taken is the first that nobody has
  refine ⟨?_, ?_, ?_, ?_, ?_, ?_⟩ <;> dsimp only
  · rw [htaken, hnext]
    omega
  · rw [htaken]
    exact hrest
  · intro u r' hu
    rw [htaken]
    obtain ⟨-, hr⟩ | ⟨-, hr⟩ := hand_of_update hu
    · obtain rfl := Option.some.inj (hhand'.symm.trans hr)
      omega
    · have := h.hand_lt u r' hr
      omega
  · intro u r' hu
    rw [hreplies]
    obtain ⟨-, hr⟩ | ⟨-, hr⟩ := hand_of_update hu
    · obtain rfl := Option.some.inj (hhand'.symm.trans hr)
      by_contra hanswered
      have := h.answered _ hanswered
      omega
    · exact h.unanswered u r' hr
  · intro u v r₁ r₂ hu hv heq
    obtain ⟨rfl, hr⟩ | ⟨hut, hr⟩ := hand_of_update hu <;>
      obtain ⟨rfl, hr'⟩ | ⟨hvt, hr'⟩ := hand_of_update hv
    · rfl
    · obtain rfl := Option.some.inj (hhand'.symm.trans hr)
      have := h.hand_lt v r₂ hr'
      omega
    · obtain rfl := Option.some.inj (hhand'.symm.trans hr')
      have := h.hand_lt u r₁ hr
      omega
    · exact h.alone u v r₁ r₂ hr hr' heq
  · intro id hanswered
    rw [hreplies] at hanswered
    have := h.answered id hanswered
    rw [htaken]
    omega

/-- A request is answered. -/
theorem Kept.answer {t : Tid} {s' : Shared} {pc' : Pc} {r : Request} {reply : RealtimeStatus}
    (h : Kept c) (hpending : s'.pending = c.shared.pending)
    (hnext : s'.nextId = c.shared.nextId)
    (hreplies : s'.replies = Function.update c.shared.replies r.id (some reply))
    (hhand : (c.locals t).hand = some r) (hhand' : pc'.hand = none) :
    Kept ⟨s', Function.update c.locals t pc'⟩ := by
  have htaken := taken_keep hpending hnext
  have hother : ∀ {u r'}, (Function.update c.locals t pc' u).hand = some r' →
      u ≠ t ∧ (c.locals u).hand = some r' := by
    intro u r' hu
    obtain ⟨-, hr⟩ | hr := hand_of_update hu
    · exact absurd (hhand'.symm.trans hr) nofun
    · exact hr
  refine ⟨?_, ?_, ?_, ?_, ?_, ?_⟩ <;> dsimp only
  · rw [htaken, hpending, hnext]
    exact h.total
  · rw [htaken, hpending]
    exact h.numbered
  · intro u r' hu
    rw [htaken]
    exact h.hand_lt u r' (hother hu).2
  · intro u r' hu
    obtain ⟨hut, hr⟩ := hother hu
    rw [hreplies, Function.update_of_ne fun heq => hut (h.alone u t r' r hr hhand heq)]
    exact h.unanswered u r' hr
  · intro u v r₁ r₂ hu hv
    exact h.alone u v r₁ r₂ (hother hu).2 (hother hv).2
  · intro id hanswered
    rw [hreplies] at hanswered
    rw [htaken]
    by_cases hid : id = r.id
    · exact hid ▸ h.hand_lt t r hhand
    · rw [Function.update_of_ne hid] at hanswered
      exact h.answered id hanswered

theorem Kept.step (h : Kept c) (hfront : FrontInv c) (hs : Step ok c x d) : Kept d := by
  cases hs with
  | mk hok hatom =>
    cases hatom.custody hfront.accessed with
    | keep hpending hnext hreplies hhand => exact h.keep hpending hnext hreplies hhand
    | insert hid hpending hnext hreplies hhand hhand' =>
      exact h.insert hid hpending hnext hreplies hhand hhand'
    | take hpending hnext hreplies _ hhand' => exact h.take hpending hnext hreplies hhand'
    | answer hpending hnext hreplies hhand hhand' =>
      exact h.answer hpending hnext hreplies hhand hhand'

theorem kept_run (h : Run (Step ok) (initial Tid now) w c) : FrontInv c ∧ Kept c :=
  h.stateInvariant (I := fun c => FrontInv c ∧ Kept c)
    ⟨frontInv_initial now, kept_initial now⟩ fun _ _ _ hi hs => ⟨hi.1.step hs, hi.2.step hi.1 hs⟩

/-- The request that a step inserts. -/
def Label.inserted : Label → Option Request
  | .insert r _ => some r
  | _ => none

/-- The requests that have been inserted, in this order. -/
def inserted (w : List (Tid × Label)) : List Request := w.filterMap fun x => x.2.inserted

/-- The number of the request that a step answers. -/
def Label.answered : Label → Option Nat
  | .respond id _ => some id
  | _ => none

/-- How often the request with this number has been answered. -/
def answers (w : List (Tid × Label)) (id : Nat) : Nat :=
  w.countP fun x => x.2.answered = some id

omit [DecidableEq Tid] in
theorem inserted_snoc (w : List (Tid × Label)) (t : Tid) (l : Label) :
    inserted (w ++ [(t, l)]) = inserted w ++ l.inserted.toList := by
  rw [inserted, List.filterMap_append]
  cases h : l.inserted <;> simp [inserted, h]

omit [DecidableEq Tid] in
theorem answers_snoc (w : List (Tid × Label)) (t : Tid) (l : Label) (id : Nat) :
    answers (w ++ [(t, l)]) id = answers w id + if l.answered = some id then 1 else 0 := by
  simp [answers, List.countP_append, List.countP_singleton]

theorem inserted_eq_none {l : Label} (h : l.handlesRequest = false) : l.inserted = none := by
  cases l <;> first | rfl | cases h

theorem answered_eq_none {l : Label} (h : l.handlesRequest = false) : l.answered = none := by
  cases l <;> first | rfl | cases h

/-- **The requests and the word.**  The pending requests are the last of those that were
inserted.  Of the others each is in somebody's hand or has been answered, once. -/
structure Ledger (w : List (Tid × Label)) (c : Config Tid) : Prop where
  numbers : (inserted w).map (·.id) = List.range c.shared.nextId
  pending : c.shared.pending = (inserted w).drop c.shared.taken
  hand : ∀ t r, (c.locals t).hand = some r → r ∈ inserted w
  count : ∀ id, answers w id = if c.shared.replies id = none then 0 else 1
  held : ∀ r ∈ inserted w, r.id < c.shared.taken → c.shared.replies r.id = none →
    ∃ t, (c.locals t).hand = some r

omit [DecidableEq Tid] in
theorem ledger_initial (now : Nat) : Ledger [] (initial Tid now) := by
  have hinit : (initial Tid now).shared = .members now := Shared.init_eq now
  refine ⟨?_, ?_, ?_, ?_, nofun⟩
  · rw [hinit]
    rfl
  · rw [hinit]
    rfl
  · intro t r h
    cases h
  · intro id
    rw [hinit]
    rfl

omit [DecidableEq Tid] in
theorem Ledger.length_inserted (h : Ledger w c) : (inserted w).length = c.shared.nextId := by
  rw [← List.length_map (fun r : Request => r.id), h.numbers, List.length_range]

omit [DecidableEq Tid] in
/-- A request is known by its number. -/
theorem Ledger.eq_of_id (h : Ledger w c) {r r' : Request} (hr : r ∈ inserted w)
    (hr' : r' ∈ inserted w) (hid : r.id = r'.id) : r = r' :=
  List.inj_on_of_nodup_map (h.numbers ▸ List.nodup_range) hr hr' hid

omit [DecidableEq Tid] in
theorem Ledger.getElem_id (h : Ledger w c) {i : Nat} (hi : i < (inserted w).length) :
    (inserted w)[i].id = i := by
  have hmap : ((inserted w).map (·.id))[i]? = some i := by
    rw [h.numbers, List.getElem?_range (h.length_inserted ▸ hi)]
  rw [List.getElem?_map, List.getElem?_eq_getElem hi] at hmap
  exact Option.some.inj hmap

omit [DecidableEq Tid] in
/-- What has not been taken is pending. -/
theorem Ledger.mem_pending (h : Ledger w c) {r : Request} (hr : r ∈ inserted w) :
    r ∈ c.shared.pending ↔ c.shared.taken ≤ r.id := by
  obtain ⟨i, hi, rfl⟩ := List.getElem_of_mem hr
  rw [h.pending, h.getElem_id hi]
  constructor
  · intro hmem
    obtain ⟨j, hj, heq⟩ := List.getElem_of_mem hmem
    have hid := congrArg Request.id heq
    rw [List.getElem_drop, h.getElem_id, h.getElem_id] at hid
    omega
  · intro hle
    rw [List.mem_iff_getElem]
    refine ⟨i - c.shared.taken, by rw [List.length_drop]; omega, ?_⟩
    rw [List.getElem_drop]
    congr 1
    omega

theorem Ledger.keep {t : Tid} {s' : Shared} {pc' : Pc} {l : Label} (h : Ledger w c)
    (hpending : s'.pending = c.shared.pending) (hnext : s'.nextId = c.shared.nextId)
    (hreplies : s'.replies = c.shared.replies) (hhand : pc'.hand = (c.locals t).hand)
    (hl : l.handlesRequest = false) :
    Ledger (w ++ [(t, l)]) ⟨s', Function.update c.locals t pc'⟩ := by
  have hinserted := inserted_snoc w t l
  have hanswers := answers_snoc w t l
  have htaken := taken_keep hpending hnext
  rw [inserted_eq_none hl, Option.toList_none, List.append_nil] at hinserted
  rw [answered_eq_none hl] at hanswers
  refine ⟨?_, ?_, ?_, ?_, ?_⟩ <;> dsimp only
  · rw [hinserted, hnext]
    exact h.numbers
  · rw [hinserted, hpending, htaken]
    exact h.pending
  · intro u r
    rw [hand_update hhand, hinserted]
    exact h.hand u r
  · intro id
    rw [hanswers, hreplies, if_neg nofun]
    exact h.count id
  · rw [hinserted, htaken, hreplies]
    intro r hr hlt hnone
    obtain ⟨u, hu⟩ := h.held r hr hlt hnone
    exact ⟨u, by rwa [hand_update hhand]⟩

theorem Ledger.insert {t : Tid} {s' : Shared} {pc' : Pc} {r : Request} {first : Option Nat}
    (h : Ledger w c) (hkept : Kept c) (hid : r.id = c.shared.nextId)
    (hpending : s'.pending = c.shared.pending ++ [r]) (hnext : s'.nextId = c.shared.nextId + 1)
    (hreplies : s'.replies = c.shared.replies) (hhand : (c.locals t).hand = none)
    (hhand' : pc'.hand = none) :
    Ledger (w ++ [(t, .insert r first)]) ⟨s', Function.update c.locals t pc'⟩ := by
  have hinserted := inserted_snoc w t (.insert r first)
  have hanswers := answers_snoc w t (.insert r first)
  have htaken := taken_insert hpending hnext
  have hsame : pc'.hand = (c.locals t).hand := hhand'.trans hhand.symm
  rw [show (Label.insert r first).inserted = some r from rfl, Option.toList_some] at hinserted
  have hle : c.shared.taken ≤ (inserted w).length := by
    rw [h.length_inserted, ← hkept.total]
    exact Nat.le_add_right _ _
  refine ⟨?_, ?_, ?_, ?_, ?_⟩ <;> dsimp only
  · rw [hinserted, hnext, List.map_append, h.numbers, List.range_succ, List.map_singleton, hid]
  · rw [hinserted, hpending, htaken, List.drop_append_of_le_length hle, h.pending]
  · intro u r'
    rw [hand_update hsame, hinserted]
    exact fun hu => List.mem_append_left _ (h.hand u r' hu)
  · intro id
    rw [hanswers, hreplies, if_neg nofun]
    exact h.count id
  · rw [hinserted, htaken, hreplies]
    intro r' hr' hlt hnone
    rcases List.mem_append.mp hr' with hr' | hr'
    · obtain ⟨u, hu⟩ := h.held r' hr' hlt hnone
      exact ⟨u, by rwa [hand_update hsame]⟩
    · obtain rfl := List.mem_singleton.mp hr'
      rw [hid, ← hkept.total] at hlt
      omega

theorem Ledger.take {t : Tid} {s' : Shared} {pc' : Pc} {r : Request}
    (h : Ledger w c) (hkept : Kept c) (hpending : c.shared.pending = r :: s'.pending)
    (hnext : s'.nextId = c.shared.nextId)
    (hreplies : s'.replies = c.shared.replies) (hhand : (c.locals t).hand = none)
    (hhand' : pc'.hand = some r) :
    Ledger (w ++ [(t, .front r)]) ⟨s', Function.update c.locals t pc'⟩ := by
  have hinserted := inserted_snoc w t (.front r)
  have hanswers := answers_snoc w t (.front r)
  have htaken := taken_take hpending hnext hkept.total
  rw [show (Label.front r).inserted = none from rfl, Option.toList_none,
    List.append_nil] at hinserted
  have hmem : r ∈ inserted w := by
    apply List.mem_of_mem_drop (i := c.shared.taken)
    rw [← h.pending, hpending]
    exact List.mem_cons_self
  refine ⟨?_, ?_, ?_, ?_, ?_⟩ <;> dsimp only
  · rw [hinserted, hnext]
    exact h.numbers
  · rw [hinserted, htaken, ← List.tail_drop, ← h.pending, hpending, List.tail_cons]
  · intro u r' hu
    rw [hinserted]
    obtain ⟨-, hr⟩ | ⟨-, hr⟩ := hand_of_update hu
    · obtain rfl := Option.some.inj (hhand'.symm.trans hr)
      exact hmem
    · exact h.hand u r' hr
  · intro id
    rw [hanswers, hreplies, if_neg nofun]
    exact h.count id
  · rw [hinserted, htaken, hreplies]
    intro r' hr' hlt hnone
    -- either `r'` is the request that is taken, or it had been taken before
    by_cases heq : r' = r
    · exact ⟨t, by rw [Function.update_self, hhand', heq]⟩
    · have hne : r'.id ≠ r.id := fun hid => heq (h.eq_of_id hr' hmem hid)
      have hhead := (hkept.head hpending).1
      obtain ⟨u, hu⟩ := h.held r' hr' (by omega) hnone
      have hut : u ≠ t := by
        rintro rfl
        exact absurd (hhand.symm.trans hu) nofun
      exact ⟨u, by rwa [Function.update_of_ne hut]⟩

theorem Ledger.answer {t : Tid} {s' : Shared} {pc' : Pc} {r : Request} {reply : RealtimeStatus}
    (h : Ledger w c) (hkept : Kept c) (hpending : s'.pending = c.shared.pending)
    (hnext : s'.nextId = c.shared.nextId)
    (hreplies : s'.replies = Function.update c.shared.replies r.id (some reply))
    (hhand : (c.locals t).hand = some r) (hhand' : pc'.hand = none) :
    Ledger (w ++ [(t, .respond r.id reply)]) ⟨s', Function.update c.locals t pc'⟩ := by
  have hinserted := inserted_snoc w t (.respond r.id reply)
  have hanswers := answers_snoc w t (.respond r.id reply)
  have htaken := taken_keep hpending hnext
  rw [show (Label.respond r.id reply).inserted = none from rfl, Option.toList_none,
    List.append_nil] at hinserted
  rw [show (Label.respond r.id reply).answered = some r.id from rfl] at hanswers
  refine ⟨?_, ?_, ?_, ?_, ?_⟩ <;> dsimp only
  · rw [hinserted, hnext]
    exact h.numbers
  · rw [hinserted, hpending, htaken]
    exact h.pending
  · intro u r' hu
    rw [hinserted]
    obtain ⟨-, hr⟩ | ⟨-, hr⟩ := hand_of_update hu
    · exact absurd (hhand'.symm.trans hr) nofun
    · exact h.hand u r' hr
  · intro id
    rw [hanswers, hreplies, h.count]
    by_cases hid : id = r.id
    · subst hid
      rw [Function.update_self, hkept.unanswered t r hhand, if_pos rfl, if_pos rfl,
        if_neg nofun]
    · rw [Function.update_of_ne hid, if_neg fun heq => hid (Option.some.inj heq).symm,
        Nat.add_zero]
  · rw [hinserted, htaken, hreplies]
    intro r' hr' hlt hnone
    have hid : r'.id ≠ r.id := by
      intro heq
      rw [heq, Function.update_self] at hnone
      cases hnone
    rw [Function.update_of_ne hid] at hnone
    obtain ⟨u, hu⟩ := h.held r' hr' hlt hnone
    have hut : u ≠ t := by
      rintro rfl
      exact hid (congrArg Request.id (Option.some.inj (hu.symm.trans hhand)))
    exact ⟨u, by rwa [Function.update_of_ne hut]⟩

theorem Ledger.step (h : Ledger w c) (hfront : FrontInv c) (hkept : Kept c)
    (hs : Step ok c x d) : Ledger (w ++ [x]) d := by
  cases hs with
  | mk hok hatom =>
    cases hatom.custody hfront.accessed with
    | keep hpending hnext hreplies hhand hl => exact h.keep hpending hnext hreplies hhand hl
    | insert hid hpending hnext hreplies hhand hhand' =>
      exact h.insert hkept hid hpending hnext hreplies hhand hhand'
    | take hpending hnext hreplies hhand hhand' =>
      exact h.take hkept hpending hnext hreplies hhand hhand'
    | answer hpending hnext hreplies hhand hhand' =>
      exact h.answer hkept hpending hnext hreplies hhand hhand'

theorem ledger_run (h : Run (Step ok) (initial Tid now) w c) : Ledger w c := by
  have hinv : (FrontInv c ∧ Kept c) ∧ Ledger w c := by
    refine h.invariant (I := fun w c => (FrontInv c ∧ Kept c) ∧ Ledger w c)
      ⟨⟨frontInv_initial now, kept_initial now⟩, ledger_initial now⟩ ?_
    rintro w c x d ⟨⟨hfront, hkept⟩, hi⟩ hs
    exact ⟨⟨hfront.step hs, hkept.step hfront hs⟩, hi.step hfront hkept hs⟩
  exact hinv.2

end Kept

/-! ## Requests of actions that have given up -/

/-- The step applies the request with this number. -/
def Label.applies (id : Nat) : Label → Prop
  | .setState (.process r) _ _ true _ => r.id = id
  | _ => False

/-- A wait does not end before its request is answered. -/
def AnsweredWaits {Tid : Type} (c : Config Tid) (_ : Tid) : Label → Prop
  | .waited id false => c.shared.replies id ≠ none
  | _ => True

theorem Atom.applies {s s' : Shared} {pc pc' : Pc} {l : Label} {id : Nat}
    (h : Atom s pc l s' pc') (hl : l.applies id) :
    ∃ r state status, pc = .setState (.process r) state status ∧ r.id = id := by
  cases l with
  | setState site before after changed code =>
    obtain ⟨state, status, rfl, -⟩ := h.at_setState
    cases site with
    | process r =>
      cases changed with
      | true => exact ⟨r, state, status, rfl, hl⟩
      | false => exact hl.elim
    | _ => exact hl.elim
  | _ => exact hl.elim

section GivenUp
variable {Tid : Type} [DecidableEq Tid] {ok : Config Tid → Tid → Label → Prop}
  {c d : Config Tid} {x : Tid × Label} {w : List (Tid × Label)} {now : Nat}

/-- Answers stay. -/
theorem replies_step (hfront : FrontInv c) (hs : Step ok c x d) {id : Nat}
    (h : c.shared.replies id ≠ none) : d.shared.replies id ≠ none := by
  cases hs with
  | @mk t l s' pc' hok hatom =>
    cases hatom.custody hfront.accessed with
    | keep _ _ hreplies => exact hreplies ▸ h
    | insert _ _ _ hreplies => exact hreplies ▸ h
    | take _ _ hreplies => exact hreplies ▸ h
    | @answer r reply _ _ hreplies =>
      show s'.replies id ≠ none
      rw [hreplies]
      by_cases hid : id = r.id
      · subst hid
        rw [Function.update_self]
        exact nofun
      · rwa [Function.update_of_ne hid]

theorem replies_of_waited (h : Run (Step AnsweredWaits) (initial Tid now) w c) :
    ∀ t id, (t, .waited id false) ∈ w → c.shared.replies id ≠ none := by
  have hinv : FrontInv c ∧ ∀ t id, (t, Label.waited id false) ∈ w → c.shared.replies id ≠ none := by
    refine h.invariant (I := fun w c => FrontInv c ∧
      ∀ t id, (t, Label.waited id false) ∈ w → c.shared.replies id ≠ none)
      ⟨frontInv_initial now, nofun⟩ ?_
    rintro w c ⟨u, l⟩ d ⟨hfront, hi⟩ hs
    refine ⟨hfront.step hs, fun t id hmem => replies_step hfront hs ?_⟩
    rcases List.mem_append.mp hmem with hmem | hmem
    · exact hi t id hmem
    · cases List.mem_singleton.mp hmem
      exact hs.atomic.1
  exact hinv.2

/-- **A request that was reported as failed is not applied later**, in every run in which
no wait ends before its request is answered. -/
theorem failed_requests_not_applied {t : Tid} {id : Nat} {w₁ w₂ : List (Tid × Label)}
    (h : Run (Step AnsweredWaits) (initial Tid now) (w₁ ++ (t, .waited id false) :: w₂) c) :
    ∀ x ∈ w₂, ¬ x.2.applies id := by
  rintro ⟨u, l⟩ hx hl
  obtain ⟨v₁, v₂, rfl⟩ := List.append_of_mem hx
  rw [← List.cons_append, ← List.append_assoc] at h
  obtain ⟨c₁, h₁, h₂⟩ := h.split
  obtain ⟨d, hs, -⟩ := h₂.uncons
  obtain ⟨r, state, status, hpc, rfl⟩ := hs.atomic.2.1.applies hl
  have hhand : (c₁.locals u).hand = some r := by
    rw [hpc]
    rfl
  exact replies_of_waited h₁ t r.id (by simp) ((kept_run h₁).2.unanswered u r hhand)

end GivenUp

/-- `OnApplyCommand` finds that motion is not enabled and answers the request of
`OnEnableMotion`. -/
def applying : List (Bool × Label) :=
  [(true, .start .applyCommand), (true, .internal),
    (true, .setState .applyCommand .activated .faulted true none), (true, .empty false),
    (true, .front enableRequest),
    (true, .respond 0 (formatRealtimeStatus .cancelled Canceller.applyCommand.reason))]

/-- The request of `OnClearFaults`, and how `OnReadStatus` applies it. -/
def clearRequest : Request := (Ask.begin .clearFaults .faulted).request 1 0

def clearing : List (Bool × Label) :=
  [(true, .dropFront), (true, .empty true), (false, .internal),
    (false, .start (.action .clearFaults)), (false, .internal), (false, .internal),
    (false, .internal), (false, .internal), (false, .internal), (false, .insert clearRequest none),
    (true, .start .readStatus), (true, .internal), (true, .empty false),
    (true, .front clearRequest), (true, .dropFront), (true, .check clearRequest true),
    (true, .setState (.process clearRequest) .faulted .clearingFaults true none)]

/-- A step that is not the end of a wait. -/
theorem answeredWaits_of_mem {w : List (Bool × Label)} {c : Config Bool} {t : Bool} {l : Label}
    (hw : ∀ x ∈ w, ∀ id, x.2 ≠ .waited id false) (hl : (t, l) ∈ w) : AnsweredWaits c t l := by
  unfold AnsweredWaits
  split
  · exact absurd rfl (hw _ hl _)
  · exact trivial

/-- The action then gives up, and its request is not applied; that of the next action is. -/
theorem failed_requests_not_applied_faulted : ∃ c : Config Bool,
    Run (Step AnsweredWaits) (initial Bool 0)
      (activation ++ asking ++ applying ++ (false, .waited 0 false) :: clearing) c ∧
    (∃ x ∈ clearing, x.2.applies 1) ∧ ∀ x ∈ clearing, ¬ x.2.applies 0 := by
  have hactivation := activation_run fun s pc l hl =>
    answeredWaits_of_mem (c := Pool.two s pc .idle) (w := activation) (by simp [activation]) hl
  have hasked := hactivation.append (asking_run fun s pc l hl =>
    answeredWaits_of_mem (c := Pool.two s pc .idle) (w := asking) (by simp [asking]) hl)
  have hrun : ∃ c, Run (Step AnsweredWaits)
      (Pool.two asked (.requestWait (Ask.begin .enableMotion .activated) 0) .idle)
      (applying ++ (false, .waited 0 false) :: clearing) c :=
    ⟨_,
      .cons (.second trivial (.start .applyCommand)) <|
      .cons (.second trivial .applyLoad) <|
      .cons (.second trivial (.stores 0 rfl (by decide) (Nat.le_refl _))) <|
      .cons (.second trivial (.cancelMore (List.cons_ne_nil _ _))) <|
      .cons (.second trivial (.cancelFront rfl rfl)) <|
      .cons (.second trivial .cancelRespond) <|
      .cons (.first (Option.some_ne_none _) (@Atom.requestAnswered _ _ _
        (formatRealtimeStatus .cancelled Canceller.applyCommand.reason) rfl)) <|
      .cons (.second trivial (.cancelDrop rfl)) <|
      .cons (.second trivial (.cancelDone rfl)) <|
      .cons (.first trivial .actionUnlock) <|
      .cons (.first trivial (.start (.action .clearFaults))) <|
      .cons (.first trivial (.actionLock rfl)) <|
      .cons (.first trivial .actionLoad) <|
      .cons (.first trivial (.requestAllowed rfl)) <|
      .cons (.first trivial (.requestLock rfl rfl)) <|
      .cons (.first trivial (.requestStamp 0 (Nat.le_refl _))) <|
      .cons (.first trivial (.requestInsert (by decide))) <|
      .cons (.second trivial (.start .readStatus)) <|
      .cons (.second trivial .processStore) <|
      .cons (.second trivial (.processEmpty (List.cons_ne_nil _ _))) <|
      .cons (.second trivial (.processFront rfl rfl)) <|
      .cons (.second trivial (.processDrop rfl)) <|
      .cons (.second trivial (.processFresh rfl)) <|
      .single (.second trivial (.stores 0 rfl (by decide) (Nat.le_refl _)))⟩
  obtain ⟨c, happlied⟩ := hrun
  have hall := hasked.append happlied
  rw [← List.append_assoc] at hall
  exact ⟨c, hall, ⟨_, List.mem_of_getLast? rfl, rfl⟩, failed_requests_not_applied hall⟩

/-- A late `OnReadStatus` works off the request of `OnEnableMotion`. -/
def processing : List (Bool × Label) :=
  [(true, .start .readStatus), (true, .internal), (true, .empty false),
    (true, .front enableRequest), (true, .dropFront), (true, .check enableRequest true),
    (true, .setState (.process enableRequest) .activated .motionEnabling true none)]

/-- **A request is applied after its action has given up.**  The wait of `OnEnableMotion`
times out; the next `OnReadStatus` still finds the request up to date and moves the state
to `kMotionEnabling`, which no action is going to leave. -/
theorem abandoned_request_applied : ∃ s pc,
    Run (Step Documented) (initial Bool 0)
      (activation ++ asking ++ (false, .waited 0 false) :: processing)
      (Pool.two s .actionUnlock pc) ∧
    (∃ x ∈ processing, x.2.applies 0) ∧ s.stateCode = .motionEnabling := by
  apply Exists.intro
  apply Exists.intro
  refine ⟨asked_run.append ?_, ?_, ?_⟩
  · refine .cons (.first documented_first .requestGivenUp) ?_
    refine taking_run (fun _ _ _ => documented_second rfl) rfl rfl ?_
    refine .cons (.second (documented_second rfl) (.processFresh rfl)) ?_
    exact .single (.second (documented_second rfl) (.stores 0 rfl nofun (Nat.le_refl _)))
  · exact ⟨_, List.mem_of_getLast? rfl, rfl⟩
  · rfl

end Intrinsic.CallbackHandler
