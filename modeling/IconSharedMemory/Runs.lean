import Mathlib.Logic.Function.Basic
import Mathlib.Data.List.Induction
import Mathlib.Logic.Equiv.Basic

/-! # Labelled runs of concurrent systems

A system is a labelled transition relation `step : σ → ℓ → σ → Prop`; a **run**
is a finite sequence of its steps together with the word of labels they carry
(`Run`).  Invariants are proved once per step and hold along every run
(`Run.invariant`); a run can be cut at any position of its word (`Run.split`).

A **thread pool** is the special case in which the state is one shared memory
and one local state per thread, and each step is an atomic step of one thread
(`Pool.Step`).  The set of threads is any type: nothing below bounds their
number.  What the clients of a component promise about when they take which
step is the predicate `ok` of `Pool.Step`; it sees the whole pool.

Most safety arguments about such pools are about **ownership**: a token (a
posted semaphore, an unlocked mutex) is either free in the shared memory or held
by exactly one thread (`Owned`), and acquiring, releasing and ignoring it are
the only three things a step can do.  Where it matters how far the owner has got,
the token is a **role** (`Plays`); where a token changes its form as it passes from
hand to hand, it is the **single** one of the pool (`Single`).
-/
namespace Runs

/-! ## Runs of a labelled transition relation -/

section Run
variable {σ ℓ : Type} {step step' : σ → ℓ → σ → Prop} {s₀ s s' : σ} {w w' : List ℓ} {l : ℓ}

/-- `Run step s₀ w s`: from `s₀` the system takes the steps labelled `w`, in that
order, and is then in state `s`. -/
inductive Run (step : σ → ℓ → σ → Prop) (s₀ : σ) : List ℓ → σ → Prop
  | nil : Run step s₀ [] s₀
  | snoc {w : List ℓ} {s s' : σ} {l : ℓ} :
      Run step s₀ w s → step s l s' → Run step s₀ (w ++ [l]) s'

theorem Run.single (h : step s l s') : Run step s [l] s' := .snoc .nil h

theorem Run.append (h : Run step s₀ w s) (h' : Run step s w' s') :
    Run step s₀ (w ++ w') s' := by
  induction h' with
  | nil => rwa [List.append_nil]
  | snoc _ hs ih => rw [← List.append_assoc]; exact ih.snoc hs

theorem Run.cons (h : step s₀ l s) (h' : Run step s w s') : Run step s₀ (l :: w) s' :=
  (Run.single h).append h'

/-- Some run leads from `s₀` to `s`. -/
def Reaches (step : σ → ℓ → σ → Prop) (s₀ s : σ) : Prop := ∃ w, Run step s₀ w s

theorem Reaches.single (h : step s l s') : Reaches step s s' := ⟨[l], .single h⟩

theorem Reaches.head (h : step s₀ l s) (h' : Reaches step s s') : Reaches step s₀ s' := by
  obtain ⟨w, hw⟩ := h'
  exact ⟨l :: w, .cons h hw⟩

/-- A run cut at a position of its word. -/
theorem Run.split (h : Run step s₀ (w ++ w') s') : ∃ s, Run step s₀ w s ∧ Run step s w' s' := by
  induction w' using List.reverseRecOn generalizing s' with
  | nil => exact ⟨s', by rwa [List.append_nil] at h, .nil⟩
  | append_singleton w' l ih =>
    rw [← List.append_assoc] at h
    generalize hw : (w ++ w') ++ [l] = u at h
    cases h with
    | nil => simp at hw
    | snoc hrun hs =>
      obtain ⟨rfl, hl⟩ := List.append_inj' hw rfl
      obtain rfl := List.singleton_inj.mp hl
      obtain ⟨s, h1, h2⟩ := ih hrun
      exact ⟨s, h1, h2.snoc hs⟩

/-- The first step of a nonempty run. -/
theorem Run.uncons (h : Run step s₀ (l :: w) s') : ∃ s, step s₀ l s ∧ Run step s w s' := by
  obtain ⟨s, h1, h2⟩ := Run.split (w := [l]) h
  generalize hu : [l] = u at h1
  cases h1 with
  | nil => cases hu
  | @snoc v a _ x hrun hs =>
    obtain ⟨rfl, rfl⟩ : v = [] ∧ l = x := by
      cases v <;> simp_all
    generalize hn : ([] : List ℓ) = n at hrun
    cases hrun with
    | nil => exact ⟨s, hs, h2⟩
    | snoc _ _ => simp at hn

/-- The last step of a nonempty run. -/
theorem Run.unsnoc (h : Run step s₀ (w ++ [l]) s') : ∃ s, Run step s₀ w s ∧ step s l s' := by
  obtain ⟨s, h1, h2⟩ := h.split
  obtain ⟨s₁, hs, hn⟩ := h2.uncons
  generalize hw : ([] : List ℓ) = u at hn
  cases hn with
  | nil => exact ⟨s, h1, hs⟩
  | snoc _ _ => simp at hw

/-- **The invariant rule**: what holds at the start and is preserved by every
step holds after every run.  The invariant may speak of the word read so far. -/
theorem Run.invariant {I : List ℓ → σ → Prop} (h0 : I [] s₀)
    (hstep : ∀ w s l s', I w s → step s l s' → I (w ++ [l]) s')
    (h : Run step s₀ w s) : I w s := by
  induction h with
  | nil => exact h0
  | snoc _ hs ih => exact hstep _ _ _ _ ih hs

/-- The invariant rule for what begins to hold in the course of a run. -/
theorem Run.invariantFrom {I : List ℓ → σ → Prop} (h : Run step s₀ w s) (hI : I w s)
    (hstep : ∀ w s l s', Run step s₀ w s → I w s → step s l s' → I (w ++ [l]) s')
    (h' : Run step s w' s') : I (w ++ w') s' := by
  induction h' with
  | nil => rwa [List.append_nil]
  | snoc hrun hs ih =>
    rw [← List.append_assoc]
    exact hstep _ _ _ _ (h.append hrun) ih hs

/-- The invariant rule for state predicates. -/
theorem Run.stateInvariant {I : σ → Prop} (h0 : I s₀)
    (hstep : ∀ s l s', I s → step s l s' → I s') (h : Run step s₀ w s) : I s :=
  h.invariant (I := fun _ s => I s) h0 (fun _ s l s' => hstep s l s')

/-- **The ledger rule**: when every step settles what it `opened` or keeps it
pending (`P`), then along every run what was opened is what was settled, in the same
order, followed by what is pending. -/
theorem Run.ledger {β : Type} {P : σ → Option β} {opened settled : ℓ → Option β}
    {I : σ → Prop} (h0 : P s₀ = none) (hI : ∀ w s, Run step s₀ w s → I s)
    (hstep : ∀ s l s', I s → step s l s' →
      (P s).toList ++ (opened l).toList = (settled l).toList ++ (P s').toList)
    (h : Run step s₀ w s) :
    w.filterMap opened = w.filterMap settled ++ (P s).toList := by
  induction h with
  | nil => simp [h0]
  | @snoc w s s' l hrun hs ih =>
    have hlast : ∀ f : ℓ → Option β, [l].filterMap f = (f l).toList := by
      intro f
      cases hf : f l <;> simp [hf]
    rw [List.filterMap_append, List.filterMap_append, hlast, hlast, ih, List.append_assoc,
      hstep s l s' (hI w s hrun) hs, List.append_assoc]

/-- **The simulation rule**: when every step of the system is matched by the
abstract system, by the step that `obs` names or by none, then every run has an
abstract run over the word it shows. -/
theorem Run.simulate {τ m : Type} {astep : τ → m → τ → Prop} {R : σ → τ → Prop} {obs : ℓ → Option m}
    {a₀ : τ} (h0 : R s₀ a₀)
    (hsim : ∀ s a l s', R s a → step s l s' →
      ∃ a', R s' a' ∧ (obs l = none ∧ a' = a ∨ ∃ x, obs l = some x ∧ astep a x a'))
    (h : Run step s₀ w s) : ∃ a, R s a ∧ Run astep a₀ (w.filterMap obs) a := by
  induction h with
  | nil => exact ⟨a₀, h0, .nil⟩
  | snoc _ hs ih =>
    obtain ⟨a, hR, hrun⟩ := ih
    obtain ⟨a', hR', ⟨hobs, rfl⟩ | ⟨x, hobs, hx⟩⟩ := hsim _ _ _ _ hR hs
    · exact ⟨a', hR', by simpa [List.filterMap_append, hobs] using hrun⟩
    · exact ⟨a', hR', by simpa [List.filterMap_append, hobs] using hrun.snoc hx⟩

/-- A run of a restricted system is a run of the larger one. -/
theorem Run.mono (hsub : ∀ s l s', step s l s' → step' s l s')
    (h : Run step s₀ w s) : Run step' s₀ w s := by
  induction h with
  | nil => exact .nil
  | snoc _ hs ih => exact ih.snoc (hsub _ _ _ hs)

end Run

/-! ## Thread pools -/

/-- A shared memory and one local state per thread. -/
structure Pool (Tid Shared Local : Type) where
  shared : Shared
  locals : Tid → Local

namespace Pool
variable {Tid Shared Local Label : Type} [DecidableEq Tid]

/-- One atomic step of thread `t`: it reads and writes the shared memory and its
own local state.  `ok` is what the clients of the component promise about it. -/
inductive Step (atom : Shared → Local → Label → Shared → Local → Prop)
    (ok : Pool Tid Shared Local → Tid → Label → Prop) :
    Pool Tid Shared Local → Tid × Label → Pool Tid Shared Local → Prop
  | mk {c : Pool Tid Shared Local} {t : Tid} {l : Label} {sh : Shared} {loc : Local}
      (hok : ok c t l) (hatom : atom c.shared (c.locals t) l sh loc) :
      Step atom ok c (t, l) ⟨sh, Function.update c.locals t loc⟩

/-- Clients that promise nothing. -/
def free : Pool Tid Shared Local → Tid → Label → Prop := fun _ _ _ => True

variable {atom : Shared → Local → Label → Shared → Local → Prop}
  {ok ok' : Pool Tid Shared Local → Tid → Label → Prop}

theorem Step.weaken {c d : Pool Tid Shared Local} {x : Tid × Label}
    (hsub : ∀ c t l, ok c t l → ok' c t l) (h : Step atom ok c x d) : Step atom ok' c x d := by
  cases h with
  | mk hok hatom => exact .mk (hsub _ _ _ hok) hatom

/-- The atomic step under a pool step. -/
theorem Step.atomic {c d : Pool Tid Shared Local} {t : Tid} {l : Label}
    (h : Step atom ok c (t, l) d) :
    ok c t l ∧ atom c.shared (c.locals t) l d.shared (d.locals t) ∧
      ∀ u, u ≠ t → d.locals u = c.locals u := by
  cases h with
  | mk hok hatom =>
    refine ⟨hok, by simpa using hatom, fun u hu => ?_⟩
    exact Function.update_of_ne hu _ _

/-- One thread on its own. -/
inductive Solo (atom : Shared → Local → Label → Shared → Local → Prop) :
    Shared × Local → Label → Shared × Local → Prop
  | mk {s s' : Shared} {x x' : Local} {l : Label} (h : atom s x l s' x') :
      Solo atom (s, x) l (s', x')

/-- In a pool, a thread may do what it can do on its own, while the others stay where they
are. -/
theorem alone {f : Tid → Local} {t : Tid} {a b : Shared × Local} {w : List Label}
    (hok : ∀ s x l, ok ⟨s, Function.update f t x⟩ t l) (h : Run (Solo atom) a w b) :
    Run (Step atom ok) ⟨a.1, Function.update f t a.2⟩ (w.map fun l => (t, l))
      ⟨b.1, Function.update f t b.2⟩ := by
  induction h with
  | nil => exact .nil
  | @snoc w b d l _ hs ih =>
    cases hs with
    | @mk s s' x x' _ hatom =>
      rw [List.map_append]
      rw [← Function.update_self t x f] at hatom
      have hstep := Step.mk (c := ⟨s, Function.update f t x⟩) (hok s x l) hatom
      rw [Function.update_idem] at hstep
      exact ih.snoc hstep

/-- A pool of two threads, `false` and `true`. -/
def two (sh : Shared) (x y : Local) : Pool Bool Shared Local := ⟨sh, fun t => if t then y else x⟩

theorem eq_two (c : Pool Bool Shared Local) :
    c = two c.shared (c.locals false) (c.locals true) := by
  cases c with
  | mk sh f =>
    refine congrArg (Pool.mk sh) (funext fun t => ?_)
    cases t <;> rfl

/-- A step of the first of two threads. -/
theorem Step.first {ok : Pool Bool Shared Local → Bool → Label → Prop} {s s' : Shared}
    {x x' y : Local} {l : Label} (hok : ok (two s x y) false l) (h : atom s x l s' x') :
    Step atom ok (two s x y) (false, l) (two s' x' y) := by
  rw [eq_two (two s' x' y)]
  have hs := Step.mk (c := two s x y) (t := false) hok h
  rw [eq_two ⟨s', _⟩] at hs
  exact hs

/-- A step of the second of two threads. -/
theorem Step.second {ok : Pool Bool Shared Local → Bool → Label → Prop} {s s' : Shared}
    {x y y' : Local} {l : Label} (hok : ok (two s x y) true l) (h : atom s y l s' y') :
    Step atom ok (two s x y) (true, l) (two s' x y') := by
  rw [eq_two (two s' x y')]
  have hs := Step.mk (c := two s x y) (t := true) hok h
  rw [eq_two ⟨s', _⟩] at hs
  exact hs

end Pool

/-! ## Ownership -/

section Ownership
variable {Tid Local : Type}

/-- At most one thread is in a local state satisfying `P`. -/
def AtMostOne (P : Local → Prop) (f : Tid → Local) : Prop :=
  ∀ t u, P (f t) → P (f u) → t = u

/-- **Ownership of a token**: free, and then no thread holds it, or held by
exactly one thread. -/
structure Owned (isFree : Prop) (P : Local → Prop) (f : Tid → Local) : Prop where
  free_none : isFree → ∀ t, ¬ P (f t)
  held : ¬ isFree → ∃ t, P (f t)
  unique : AtMostOne P f

variable [DecidableEq Tid] {P Q : Local → Prop} {f : Tid → Local} {t u : Tid} {l : Local}

/-- A local state after thread `t` has moved is `t`'s new one or an old one. -/
theorem forall_update (P : Local → Prop) (hself : P l) (hother : ∀ u, u ≠ t → P (f u)) :
    ∀ u, P (Function.update f t l u) :=
  (Function.forall_update_iff f fun _ l => P l).mpr ⟨hself, hother⟩

/-- A thread that holds after `t` moved held before, unless it is `t`. -/
theorem of_update (h : P (Function.update f t l u)) : (u = t ∧ P l) ∨ (u ≠ t ∧ P (f u)) := by
  by_cases hu : u = t
  · subst hu; exact .inl ⟨rfl, by rwa [Function.update_self] at h⟩
  · exact .inr ⟨hu, by rwa [Function.update_of_ne hu] at h⟩

/-- A thread that does not newly satisfy `P` keeps `P` exclusive. -/
theorem AtMostOne.update (h : AtMostOne P f) (hl : P l → P (f t)) :
    AtMostOne P (Function.update f t l) := by
  intro a b ha hb
  rcases of_update ha with ⟨rfl, ha'⟩ | ⟨-, ha'⟩ <;>
    rcases of_update hb with ⟨rfl, hb'⟩ | ⟨-, hb'⟩
  · rfl
  · exact h _ _ (hl ha') hb'
  · exact h _ _ ha' (hl hb')
  · exact h _ _ ha' hb'

/-- A thread may newly satisfy `P` when no thread does. -/
theorem AtMostOne.enter (h : ∀ u, ¬ P (f u)) : AtMostOne P (Function.update f t l) := by
  intro a b ha hb
  rcases of_update ha with ⟨rfl, -⟩ | ⟨-, ha'⟩
  · rcases of_update hb with ⟨rfl, -⟩ | ⟨-, hb'⟩
    · rfl
    · exact absurd hb' (h b)
  · exact absurd ha' (h a)

variable {isFree isFree' : Prop}

/-- A step that neither takes nor returns the token. -/
theorem Owned.frame (h : Owned isFree P f) (hfree : isFree' ↔ isFree) (hl : P l ↔ P (f t)) :
    Owned isFree' P (Function.update f t l) where
  free_none hf :=
    forall_update (fun l => ¬ P l) (fun hp => h.free_none (hfree.mp hf) t (hl.mp hp))
      (fun u _ => h.free_none (hfree.mp hf) u)
  held hf := by
    obtain ⟨u, hu⟩ := h.held (fun hx => hf (hfree.mpr hx))
    by_cases hut : u = t
    · subst hut; exact ⟨u, by rw [Function.update_self]; exact hl.mpr hu⟩
    · exact ⟨u, by rwa [Function.update_of_ne hut]⟩
  unique := h.unique.update hl.mp

/-- Thread `t` takes the free token. -/
theorem Owned.acquire (h : Owned isFree P f) (hf : isFree) (hf' : ¬ isFree') (hl : P l) :
    Owned isFree' P (Function.update f t l) where
  free_none hx := absurd hx hf'
  held _ := ⟨t, by rwa [Function.update_self]⟩
  unique := AtMostOne.enter (h.free_none hf)

/-- Thread `t`, the holder, returns the token. -/
theorem Owned.release (h : Owned isFree P f) (ht : P (f t)) (hf' : isFree') (hl : ¬ P l) :
    Owned isFree' P (Function.update f t l) where
  free_none _ :=
    forall_update (fun l => ¬ P l) hl (fun u hu hp => hu (h.unique u t hp ht))
  held hx := absurd hf' hx
  unique := h.unique.update (fun hp => absurd hp hl)

omit [DecidableEq Tid] in
/-- The threads exchange what they hold. -/
theorem Owned.reindex {g : Tid → Local} (h : Owned isFree P f) (e : Equiv.Perm Tid)
    (hg : ∀ t, P (g t) ↔ P (f (e t))) : Owned isFree P g where
  free_none hf t hp := h.free_none hf (e t) ((hg t).mp hp)
  held hf := by
    obtain ⟨t, ht⟩ := h.held hf
    exact ⟨e.symm t, (hg _).mpr (by rwa [e.apply_symm_apply])⟩
  unique t u ht hu := e.injective (h.unique _ _ ((hg t).mp ht) ((hg u).mp hu))

omit [DecidableEq Tid] in
/-- A holder's token is not free. -/
theorem Owned.not_free (h : Owned isFree P f) (ht : P (f t)) : ¬ isFree :=
  fun hf => h.free_none hf t ht

/-- **One role for the whole pool**: `role` says where in the role a thread is;
at most one thread is not at `idle`, and that thread is at `r`. -/
structure Plays {R : Type} (role : Local → R) (idle r : R) (f : Tid → Local) : Prop where
  at_role : ∀ t, role (f t) ≠ idle → role (f t) = r
  others : ∀ t u, role (f t) ≠ idle → u ≠ t → role (f u) = idle
  played : r ≠ idle → ∃ t, role (f t) = r

section Plays
variable {R : Type} {role : Local → R} {idle r : R}

omit [DecidableEq Tid] in
theorem Plays.none (h : ∀ t, role (f t) = idle) : Plays role idle idle f :=
  ⟨fun t ht => absurd (h t) ht, fun t _ ht => absurd (h t) ht, fun hr => absurd rfl hr⟩

omit [DecidableEq Tid] in
/-- While nobody plays the role all threads are at `idle`. -/
theorem Plays.all_idle (h : Plays role idle idle f) (t : Tid) : role (f t) = idle := by
  by_contra ht
  exact ht (h.at_role t ht)

omit [DecidableEq Tid] in
theorem Plays.congr {g : Tid → Local} (h : Plays role idle r f)
    (hg : ∀ t, role (g t) = role (f t)) : Plays role idle r g where
  at_role t ht := by rw [hg] at ht ⊢; exact h.at_role t ht
  others t u ht hu := by rw [hg] at ht ⊢; exact h.others t u ht hu
  played hr := by
    obtain ⟨t, ht⟩ := h.played hr
    exact ⟨t, (hg t).trans ht⟩

/-- A step that does not move within the role. -/
theorem Plays.frame (h : Plays role idle r f) (hl : role l = role (f t)) :
    Plays role idle r (Function.update f t l) :=
  h.congr fun u => by
    by_cases hu : u = t
    · subst hu; rw [Function.update_self, hl]
    · rw [Function.update_of_ne hu]

/-- Thread `t` moves within the role, the others being at `idle`. -/
theorem Plays.set (hother : ∀ u, u ≠ t → role (f u) = idle) :
    Plays role idle (role l) (Function.update f t l) where
  at_role u hu := by
    by_cases hut : u = t
    · subst hut; rw [Function.update_self]
    · rw [Function.update_of_ne hut] at hu
      exact absurd (hother u hut) hu
  others u v hu hvu := by
    by_cases hvt : v = t
    · rw [Function.update_of_ne (fun hut => hvu (hvt.trans hut.symm))] at hu
      exact absurd (hother u fun hut => hvu (hvt.trans hut.symm)) hu
    · rw [Function.update_of_ne hvt]
      exact hother v hvt
  played _ := ⟨t, by rw [Function.update_self]⟩

end Plays

/-- **One token in the whole pool**: what lies in the shared memory (`lying`) and
what the threads carry is, taken together, the one token `k`. -/
inductive Single {τ : Type} (carried : Local → List τ) (lying : List τ) (k : τ)
    (f : Tid → Local) : Prop
  | lies (hlying : lying = [k]) (hnone : ∀ t, carried (f t) = [])
  | carriedBy (t : Tid) (hlying : lying = []) (ht : carried (f t) = [k])
      (hothers : ∀ u, u ≠ t → carried (f u) = [])

section Single
variable {τ : Type} {carried : Local → List τ} {lying lying' : List τ} {k k' : τ}

omit [DecidableEq Tid] in
/-- A thread sees the token, in the shared memory or with itself, or it sees none. -/
theorem Single.sees (h : Single carried lying k f) (t : Tid) :
    lying ++ carried (f t) = [k] ∨ lying ++ carried (f t) = [] := by
  cases h with
  | lies hlying hnone => exact .inl (by rw [hlying, hnone t]; rfl)
  | carriedBy u hlying hu hothers =>
    by_cases htu : t = u
    · subst htu; exact .inl (by rw [hlying, hu]; rfl)
    · exact .inr (by rw [hlying, hothers t htu]; rfl)

omit [DecidableEq Tid] in
/-- Once a thread sees the token the others carry none. -/
theorem Single.others (h : Single carried lying k f) (ht : lying ++ carried (f t) = [k])
    (hu : u ≠ t) : carried (f u) = [] := by
  cases h with
  | lies _ hnone => exact hnone u
  | carriedBy v hlying _ hothers =>
    by_cases htv : t = v
    · subst htv; exact hothers u hu
    · rw [hlying, hothers t htv] at ht
      cases ht

/-- A thread that sees the token leaves it in another form or at another place. -/
theorem Single.exchange (h : Single carried lying k f) (ht : lying ++ carried (f t) = [k])
    (hl : lying' ++ carried l = [k']) : Single carried lying' k' (Function.update f t l) := by
  have hothers : ∀ u, u ≠ t → carried (Function.update f t l u) = [] := by
    intro u hu
    rw [Function.update_of_ne hu]
    exact h.others ht hu
  rcases List.append_eq_singleton_iff.mp hl with ⟨hfree, hcarried⟩ | ⟨hfree, hcarried⟩
  · exact .carriedBy t hfree (by rwa [Function.update_self]) hothers
  · refine .lies hfree fun u => ?_
    by_cases hu : u = t
    · subst hu; rwa [Function.update_self]
    · exact hothers u hu

/-- A thread that sees no token leaves none behind. -/
theorem Single.ignore (h : Single carried lying k f) (ht : lying ++ carried (f t) = [])
    (hl : lying' ++ carried l = []) : Single carried lying' k (Function.update f t l) := by
  obtain ⟨hfree, hcarried⟩ := List.append_eq_nil_iff.mp hl
  cases h with
  | lies hlying _ =>
    rw [hlying] at ht
    cases ht
  | carriedBy u hlying hu hothers =>
    have hut : u ≠ t := by
      rintro rfl
      rw [hlying, hu] at ht
      cases ht
    refine .carriedBy u hfree (by rwa [Function.update_of_ne hut]) fun v hv => ?_
    by_cases hvt : v = t
    · subst hvt; rwa [Function.update_self]
    · rw [Function.update_of_ne hvt]
      exact hothers v hv

end Single

end Ownership

end Runs
