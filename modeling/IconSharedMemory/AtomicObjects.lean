import IconSharedMemory.Runs

/-! # Programs over objects that are not quite atomic

A concurrent program is usually verified over objects whose operations are single steps.
The objects it really runs over are programs themselves: an operation is carried out in
several steps, and the threads take turns between them.  This is the bridge.

A `Program` is what its threads do: steps of their own, and calls of operations of shared
objects.  It runs over objects of which only a **specification** is given, one step for an
operation (`Program.Atom`), or over an **implementation** of them (`Program.CodeAtom`).
An implementation is **linearizable** when each of its calls is decided in one of its steps,
does to the object in that step what the specification says, and then returns what was
decided (`Linearization`).

Two results hold for every program.  What it does over a linearizable implementation it can
do over the specification, with the same steps of its own in the same order and the same
results (`Linearization.refines`).  And each of its objects, seen alone, is in a run of the
implementation (`object_run`), so what was proved about the implementation holds inside
the program.
-/
namespace AtomicObjects
open Runs

/-! ## Programs, specifications and implementations -/

/-- What the threads of a program do. -/
structure Program (Own Local Obj Op Res Call Label : Type) where
  /-- A step in which no object takes part. -/
  own : Own → Local → Label → Own → Local → Prop
  /-- The thread may make the call now. -/
  calls : Local → Call → Prop
  object : Call → Obj
  op : Call → Op
  /-- Where the thread goes on once the call has returned. -/
  resume : Call → Res → Local → Local
  /-- What the call and its result show. -/
  label : Call → Res → Label

/-- Objects whose operations take several steps. -/
structure Implementation (Tid Op Res Shared Local Label : Type) where
  atom : Tid → Shared → Local → Label → Shared → Local → Prop
  /-- Where a thread is at the beginning and at the end of every call. -/
  idle : Local
  /-- The operation a step belongs to. -/
  op : Label → Option Op
  /-- What the step returns if it is the last one of its call. -/
  returns : Label → Option Res

/-- A thread of a program over an implementation: where it is in the program, and in which
step of which call. -/
structure Frame (Local Call ILocal : Type) where
  here : Local
  inside : Option (Call × ILocal)

/-- The steps of a program over an implementation. -/
inductive Event (Label Call ILabel : Type)
  | own (l : Label)
  | invoke (k : Call)
  | object (k : Call) (l : ILabel)

section Semantics
variable {Tid Own Local Obj Op Res Call Label Val IShared ILocal ILabel : Type} [DecidableEq Obj]

/-- One step of a program over objects whose operations are single steps. -/
inductive Program.Atom (P : Program Own Local Obj Op Res Call Label)
    (spec : Op → Val → Val → Res → Prop) :
    Own × (Obj → Val) → Local → Label → Own × (Obj → Val) → Local → Prop
  | own {s s' : Own} {objs : Obj → Val} {l l' : Local} {a : Label} (h : P.own s l a s' l') :
      Atom P spec (s, objs) l a (s', objs) l'
  | call {s : Own} {objs : Obj → Val} {l : Local} {k : Call} {v : Val} {r : Res}
      (hk : P.calls l k) (h : spec (P.op k) (objs (P.object k)) v r) :
      Atom P spec (s, objs) l (P.label k r) (s, Function.update objs (P.object k) v)
        (P.resume k r l)

/-- Where a step of a call leaves the thread: in the call, or back in the program with what
the call has returned. -/
inductive Lands (P : Program Own Local Obj Op Res Call Label)
    (I : Implementation Tid Op Res IShared ILocal ILabel) (l : Local) (k : Call) (a : ILabel)
    (i' : ILocal) : Frame Local Call ILocal → Prop
  | inside (hi : i' ≠ I.idle) : Lands P I l k a i' ⟨l, some (k, i')⟩
  | back {r : Res} (hi : i' = I.idle) (hr : I.returns a = some r) :
      Lands P I l k a i' ⟨P.resume k r l, none⟩

/-- One step of a program over an implementation of its objects. -/
inductive Program.CodeAtom (P : Program Own Local Obj Op Res Call Label)
    (I : Implementation Tid Op Res IShared ILocal ILabel) (t : Tid) :
    Own × (Obj → IShared) → Frame Local Call ILocal → Event Label Call ILabel →
      Own × (Obj → IShared) → Frame Local Call ILocal → Prop
  | own {s s' : Own} {objs : Obj → IShared} {l l' : Local} {a : Label} (h : P.own s l a s' l') :
      CodeAtom P I t (s, objs) ⟨l, none⟩ (.own a) (s', objs) ⟨l', none⟩
  | invoke {s : Own × (Obj → IShared)} {l : Local} {k : Call} (hk : P.calls l k) :
      CodeAtom P I t s ⟨l, none⟩ (.invoke k) s ⟨l, some (k, I.idle)⟩
  | object {s : Own} {objs : Obj → IShared} {l : Local} {k : Call} {i i' : ILocal} {a : ILabel}
      {x : IShared} {f : Frame Local Call ILocal} (hop : I.op a = some (P.op k))
      (h : I.atom t (objs (P.object k)) i a x i') (hlands : Lands P I l k a i' f) :
      CodeAtom P I t (s, objs) ⟨l, some (k, i)⟩ (.object k a)
        (s, Function.update objs (P.object k) x) f

/-- A pool of threads of the program, over an implementation. -/
abbrev CodePool (Tid Own Local Obj Call IShared ILocal : Type) :=
  Pool Tid (Own × (Obj → IShared)) (Frame Local Call ILocal)

variable [DecidableEq Tid]

/-- One step of one thread, which is one that the clients' promise allows. -/
def Program.Step (P : Program Own Local Obj Op Res Call Label)
    (I : Implementation Tid Op Res IShared ILocal ILabel)
    (ok : CodePool Tid Own Local Obj Call IShared ILocal → Tid → Event Label Call ILabel → Prop)
    (c : CodePool Tid Own Local Obj Call IShared ILocal) (x : Tid × Event Label Call ILabel)
    (d : CodePool Tid Own Local Obj Call IShared ILocal) : Prop :=
  Pool.Step (P.CodeAtom I x.1) ok c x d

end Semantics

/-! ## Linearizable implementations -/

section Linearization
variable {Tid Op Res Val IShared ILocal ILabel : Type}

/-- What a step of a call does to an object that has the value `v`.  A step **decides** the
call, or it comes before or after the step that does. -/
inductive Moves (I : Implementation Tid Op Res IShared ILocal ILabel)
    (spec : Op → Val → Val → Res → Prop) (value : IShared → Val → Prop)
    (settled : ILocal → Option Res) (op : Op) (v : Val) (i : ILocal) (a : ILabel) (s' : IShared)
    (i' : ILocal) : Option Res → Prop
  | before (hi : settled i = none) (hv : value s' v) (hne : i' ≠ I.idle)
      (hi' : settled i' = none) : Moves I spec value settled op v i a s' i' none
  | decides {v' : Val} {r : Res} (hi : settled i = none) (hspec : spec op v v' r)
      (hv : value s' v') (hr : i' = I.idle → I.returns a = some r)
      (hi' : i' ≠ I.idle → settled i' = some r) : Moves I spec value settled op v i a s' i' (some r)
  | after {r : Res} (hi : settled i = some r) (hv : value s' v)
      (hr : i' = I.idle → I.returns a = some r) (hi' : i' ≠ I.idle → settled i' = some r) :
      Moves I spec value settled op v i a s' i' none

/-- **A linearizable implementation**: the values its memory stands for, the steps that
decide, and the places from which a call returns what was decided before. -/
structure Linearization (I : Implementation Tid Op Res IShared ILocal ILabel)
    (spec : Op → Val → Val → Res → Prop) where
  value : IShared → Val → Prop
  decides : ILabel → Option Res
  settled : ILocal → Option Res
  idle : settled I.idle = none
  moves : ∀ {t : Tid} {s s' : IShared} {i i' : ILocal} {a : ILabel} {op : Op} {v : Val},
    I.atom t s i a s' i' → I.op a = some op → value s v →
      Moves I spec value settled op v i a s' i' (decides a)

end Linearization

/-! ## A linearizable implementation is as good as the specification -/

section Refines
variable {Tid Own Local Obj Op Res Call Label Val IShared ILocal ILabel : Type}
  {P : Program Own Local Obj Op Res Call Label}
  {I : Implementation Tid Op Res IShared ILocal ILabel} {spec : Op → Val → Val → Res → Prop}

/-- Two families that are related everywhere still are once related values have been put in
one place. -/
theorem forall_update_two {ι α β : Type} [DecidableEq ι] (R : α → β → Prop) {f : ι → α} {g : ι → β}
    {i : ι} {a : α} {b : β} (h : ∀ j, R (f j) (g j)) (hi : R a b) :
    ∀ j, R (Function.update f i a j) (Function.update g i b j) := by
  intro j
  by_cases hj : j = i
  · subst hj
    rwa [Function.update_self, Function.update_self]
  · rw [Function.update_of_ne hj, Function.update_of_ne hj]
    exact h j

/-- A thread that is in a call is where it may make it. -/
def Frame.Sound (P : Program Own Local Obj Op Res Call Label) (f : Frame Local Call ILocal) :
    Prop :=
  ∀ k i, f.inside = some (k, i) → P.calls f.here k

namespace Linearization
variable (L : Linearization I spec)

/-- Where the thread is over the specification: a call that has been decided has returned. -/
def place (P : Program Own Local Obj Op Res Call Label) (f : Frame Local Call ILocal) : Local :=
  match f.inside with
  | none => f.here
  | some (k, i) => (L.settled i).elim f.here fun r => P.resume k r f.here

/-- What a step shows over the specification. -/
def shows (P : Program Own Local Obj Op Res Call Label) : Event Label Call ILabel → Option Label
  | .own a => some a
  | .invoke _ => none
  | .object k a => (L.decides a).map (P.label k)

/-- The steps that show something, with their threads. -/
def shown (P : Program Own Local Obj Op Res Call Label) (x : Tid × Event Label Call ILabel) :
    Option (Tid × Label) :=
  (L.shows P x.2).map fun a => (x.1, a)

/-- The program over the implementation is where the program over the specification is. -/
structure Related (P : Program Own Local Obj Op Res Call Label)
    (c : CodePool Tid Own Local Obj Call IShared ILocal)
    (d : Pool Tid (Own × (Obj → Val)) Local) : Prop where
  own : d.shared.1 = c.shared.1
  value : ∀ o, L.value (c.shared.2 o) (d.shared.2 o)
  locals : ∀ t, d.locals t = L.place P (c.locals t)
  sound : ∀ t, (c.locals t).Sound P

variable {L} {l : Local} {k : Call} {i i' : ILocal} {a : ILabel} {r : Res}

theorem place_of_open (hi : L.settled i = none) : L.place P ⟨l, some (k, i)⟩ = l := by
  simp only [place, hi, Option.elim_none]

theorem place_of_settled (hi : L.settled i = some r) :
    L.place P ⟨l, some (k, i)⟩ = P.resume k r l := by
  simp only [place, hi, Option.elim_some]

variable {x : Frame Local Call ILocal}

/-- A decided call goes on to return what was decided. -/
theorem place_of_lands (h : Lands P I l k a i' x) (hr : i' = I.idle → I.returns a = some r)
    (hi' : i' ≠ I.idle → L.settled i' = some r) : P.resume k r l = L.place P x := by
  cases h with
  | inside hi => rw [place_of_settled (hi' hi)]
  | back hi hr' =>
    rw [hr hi] at hr'
    rw [Option.some.inj hr']
    rfl

theorem sound_of_lands (h : Lands P I l k a i' x) (hk : P.calls l k) : x.Sound P := by
  cases h with
  | inside hi =>
    rintro k' i'' ⟨⟩
    exact hk
  | back hi hr => exact nofun

section Step
variable [DecidableEq Tid] [DecidableEq Obj] {t : Tid}
  {c : CodePool Tid Own Local Obj Call IShared ILocal} {d : Pool Tid (Own × (Obj → Val)) Local}

/-- A step of one thread that changes one object and the value it stands for. -/
theorem Related.update (h : L.Related P c d) (o : Obj) {y : IShared} {v : Val} {l : Local}
    (hy : L.value y v) (hx : l = L.place P x) (hsound : x.Sound P) :
    L.Related P ⟨(c.shared.1, Function.update c.shared.2 o y), Function.update c.locals t x⟩
      ⟨(d.shared.1, Function.update d.shared.2 o v), Function.update d.locals t l⟩ where
  own := h.own
  value := forall_update_two L.value h.value hy
  locals := forall_update_two (fun f l => l = L.place P f) h.locals hx
  sound := forall_update (fun f : Frame Local Call ILocal => f.Sound P) hsound fun u _ => h.sound u

/-- A step of one thread inside a call of which nothing is to be seen. -/
theorem Related.silent (h : L.Related P c d) (o : Obj) {y : IShared}
    (hy : L.value y (d.shared.2 o)) (hx : d.locals t = L.place P x) (hsound : x.Sound P) :
    L.Related P ⟨(c.shared.1, Function.update c.shared.2 o y), Function.update c.locals t x⟩ d := by
  have hupdate := h.update (t := t) o hy hx hsound
  rwa [Function.update_eq_self, Function.update_eq_self] at hupdate

/-- What the program over the specification does when the one over the implementation takes
a step of thread `t`: the step that is shown, or none. -/
def Follows (L : Linearization I spec) (P : Program Own Local Obj Op Res Call Label)
    (d : Pool Tid (Own × (Obj → Val)) Local) (t : Tid) (e : Event Label Call ILabel)
    (c' : CodePool Tid Own Local Obj Call IShared ILocal) : Prop :=
  (L.shows P e = none ∧ L.Related P c' d) ∨
    ∃ b y l, L.shows P e = some b ∧ P.Atom spec d.shared (d.locals t) b y l ∧
      L.Related P c' ⟨y, Function.update d.locals t l⟩

/-- **A step of a call**: if it decides the call, the program over the specification makes
the call now. -/
theorem Related.object {y : IShared} (h : L.Related P c d)
    (hframe : c.locals t = ⟨l, some (k, i)⟩) (hop : I.op a = some (P.op k))
    (hatom : I.atom t (c.shared.2 (P.object k)) i a y i') (hlands : Lands P I l k a i' x) :
    L.Follows P d t (.object k a)
      ⟨(c.shared.1, Function.update c.shared.2 (P.object k) y), Function.update c.locals t x⟩ := by
  have hk : P.calls l k := by
    have hsound := h.sound t
    rw [hframe] at hsound
    exact hsound k i rfl
  have hplace := h.locals t
  rw [hframe] at hplace
  have hmoves := L.moves hatom hop (h.value (P.object k))
  unfold Follows
  rw [shows]
  generalize L.decides a = r at hmoves ⊢
  cases hmoves with
  | before hset hv hne hset' =>
    refine .inl ⟨rfl, h.silent _ hv ?_ (sound_of_lands hlands hk)⟩
    cases hlands with
    | inside _ => rw [hplace, place_of_open hset, place_of_open hset']
    | back hi _ => exact absurd hi hne
  | @decides v r hset hspec hv hret hset' =>
    rw [place_of_open hset] at hplace
    rw [hplace]
    exact .inr ⟨_, _, _, rfl, .call hk hspec,
      h.update _ hv (place_of_lands hlands hret hset') (sound_of_lands hlands hk)⟩
  | after hset hv hret hset' =>
    rw [place_of_settled hset] at hplace
    exact .inl ⟨rfl, h.silent _ hv (hplace.trans (place_of_lands hlands hret hset'))
      (sound_of_lands hlands hk)⟩

/-- **One step** of the program over the implementation. -/
theorem Related.step {e : Event Label Call ILabel} {y : Own × (Obj → IShared)}
    {before : Frame Local Call ILocal} (h : L.Related P c d) (hbefore : c.locals t = before)
    (hatom : P.CodeAtom I t c.shared before e y x) :
    L.Follows P d t e ⟨y, Function.update c.locals t x⟩ := by
  obtain ⟨s, locals⟩ := c
  have hplace := h.locals t
  rw [hbefore] at hplace
  cases hatom with
  | @own s s' objs l l' b hown =>
    have hstep : P.Atom spec d.shared l b (s', d.shared.2) l' := by
      rw [show d.shared = (s, d.shared.2) from Prod.ext h.own rfl]
      exact .own hown
    rw [← show d.locals t = l from hplace] at hstep
    exact .inr ⟨b, _, l', rfl, hstep, rfl, h.value,
      forall_update_two (fun f l => l = L.place P f) h.locals rfl,
      forall_update (fun f : Frame Local Call ILocal => f.Sound P) nofun fun u _ => h.sound u⟩
  | @invoke _ l k hk =>
    have hsame : d.locals t = L.place P ⟨l, some (k, I.idle)⟩ := by
      rw [place_of_open L.idle]
      exact hplace
    refine .inl ⟨rfl, h.own, h.value, ?_,
      forall_update (fun f : Frame Local Call ILocal => f.Sound P) ?_ fun u _ => h.sound u⟩
    · have hlocals := forall_update_two (i := t) (fun f l => l = L.place P f) h.locals hsame
      rwa [Function.update_eq_self] at hlocals
    · rintro k' i' ⟨⟩
      exact hk
  | object hop hatom hlands => exact h.object hbefore hop hatom hlands

/-- **What a program does over a linearizable implementation, it can do over the
specification**: its own steps in the same order, and its calls in the order in which they
were decided, with the results they return. -/
theorem refines
    {ok : CodePool Tid Own Local Obj Call IShared ILocal → Tid → Event Label Call ILabel → Prop}
    {ok' : Pool Tid (Own × (Obj → Val)) Local → Tid → Label → Prop}
    {c₀ : CodePool Tid Own Local Obj Call IShared ILocal}
    {d₀ : Pool Tid (Own × (Obj → Val)) Local} {w : List (Tid × Event Label Call ILabel)}
    (L : Linearization I spec)
    (hok : ∀ c d t e b y x, L.Related P c d → ok c t e →
      P.CodeAtom I t c.shared (c.locals t) e y x → L.shows P e = some b → ok' d t b)
    (h₀ : L.Related P c₀ d₀) (h : Run (P.Step I ok) c₀ w c) :
    ∃ d, L.Related P c d ∧ Run (Pool.Step (P.Atom spec) ok') d₀ (w.filterMap (L.shown P)) d := by
  refine h.simulate (R := L.Related P) h₀ ?_
  rintro c d ⟨t, e⟩ c' hrel hstep
  cases hstep with
  | mk hpromise hatom =>
    obtain ⟨hnone, hrel'⟩ | ⟨b, y, l, hsome, hstep, hrel'⟩ := hrel.step rfl hatom
    · exact ⟨d, hrel', .inl ⟨by rw [shown, hnone]; rfl, rfl⟩⟩
    · exact ⟨_, hrel', .inr ⟨(t, b), by rw [shown, hsome]; rfl,
        .mk (hok _ _ _ _ _ _ _ hrel hpromise hatom hsome) hstep⟩⟩

end Step
end Linearization
end Refines

/-! ## Each object alone -/

section Alone
variable {Tid Own Local Obj Op Res Call Label IShared ILocal ILabel : Type} [DecidableEq Obj]
  [DecidableEq Tid]

/-- Where the thread is in its calls of one object. -/
def Frame.at (P : Program Own Local Obj Op Res Call Label)
    (I : Implementation Tid Op Res IShared ILocal ILabel) (o : Obj)
    (f : Frame Local Call ILocal) : ILocal :=
  match f.inside with
  | some (k, i) => if P.object k = o then i else I.idle
  | none => I.idle

/-- One object and the threads that use it. -/
def alone (P : Program Own Local Obj Op Res Call Label)
    (I : Implementation Tid Op Res IShared ILocal ILabel) (o : Obj)
    (c : CodePool Tid Own Local Obj Call IShared ILocal) : Pool Tid IShared ILocal :=
  ⟨c.shared.2 o, fun t => (c.locals t).at P I o⟩

/-- The steps of the calls of one object. -/
def onObject (P : Program Own Local Obj Op Res Call Label) (o : Obj)
    (x : Tid × Event Label Call ILabel) : Option (Tid × ILabel) :=
  match x.2 with
  | .object k a => if P.object k = o then some (x.1, a) else none
  | _ => none

variable {P : Program Own Local Obj Op Res Call Label}
  {I : Implementation Tid Op Res IShared ILocal ILabel} {o : Obj}
  {c : CodePool Tid Own Local Obj Call IShared ILocal} {t : Tid}

omit [DecidableEq Tid] in
@[simp] theorem Frame.at_none (l : Local) :
    (⟨l, none⟩ : Frame Local Call ILocal).at P I o = I.idle := rfl

omit [DecidableEq Tid] in
@[simp] theorem Frame.at_some (l : Local) (k : Call) (i : ILocal) :
    (⟨l, some (k, i)⟩ : Frame Local Call ILocal).at P I o =
      if P.object k = o then i else I.idle := rfl

omit [DecidableEq Tid] in
theorem Lands.at {l : Local} {k : Call} {a : ILabel} {i : ILocal} {f : Frame Local Call ILocal}
    (h : Lands P I l k a i f) (o : Obj) :
    f.at P I o = if P.object k = o then i else I.idle := by
  cases h with
  | inside _ => rfl
  | back hi _ => rw [hi, ite_self, Frame.at_none]

theorem alone_update (y : Own × (Obj → IShared)) (f : Frame Local Call ILocal) :
    alone P I o ⟨y, Function.update c.locals t f⟩ =
      ⟨y.2 o, Function.update (alone P I o c).locals t (f.at P I o)⟩ := by
  have hlocals : (fun u => (Function.update c.locals t f u).at P I o) =
      Function.update (alone P I o c).locals t (f.at P I o) := by
    funext u
    exact Function.apply_update (fun _ f => Frame.at P I o f) c.locals t f u
  rw [← hlocals]
  rfl

/-- A step that leaves the object and the thread's place in it alone. -/
theorem alone_eq {y : Own × (Obj → IShared)} {f : Frame Local Call ILocal}
    (hy : y.2 o = c.shared.2 o) (hf : f.at P I o = (c.locals t).at P I o) :
    alone P I o ⟨y, Function.update c.locals t f⟩ = alone P I o c := by
  rw [alone_update, hy, hf]
  show (⟨_, Function.update (alone P I o c).locals t ((alone P I o c).locals t)⟩ :
    Pool Tid IShared ILocal) = _
  rw [Function.update_eq_self]
  rfl

/-- One step, seen from one object. -/
theorem alone_step {e : Event Label Call ILabel} {y : Own × (Obj → IShared)}
    {before f : Frame Local Call ILocal} (hbefore : c.locals t = before)
    (h : P.CodeAtom I t c.shared before e y f) :
    (onObject P o (t, e) = none ∧
        alone P I o ⟨y, Function.update c.locals t f⟩ = alone P I o c) ∨
      ∃ x, onObject P o (t, e) = some x ∧ Pool.Step (I.atom x.1) Pool.free (alone P I o c) x
        (alone P I o ⟨y, Function.update c.locals t f⟩) := by
  obtain ⟨s, locals⟩ := c
  cases h with
  | own _ => exact .inl ⟨rfl, alone_eq rfl (by rw [hbefore]; rfl)⟩
  | invoke _ =>
    exact .inl ⟨rfl, alone_eq rfl (by rw [hbefore, Frame.at_some, ite_self, Frame.at_none])⟩
  | @object _ objs l k i i' a z _ hop hatom hlands =>
    by_cases ho : P.object k = o
    · subst ho
      refine .inr ⟨(t, a), if_pos rfl, ?_⟩
      rw [alone_update, hlands.at, if_pos rfl]
      refine .mk trivial ?_
      show I.atom t (objs (P.object k)) ((locals t).at P I (P.object k)) a
        (Function.update objs (P.object k) z (P.object k)) i'
      rw [show locals t = _ from hbefore, Frame.at_some, if_pos rfl, Function.update_self]
      exact hatom
    · refine .inl ⟨if_neg ho, alone_eq (Function.update_of_ne (Ne.symm ho) ..) ?_⟩
      rw [hlands.at, if_neg ho, hbefore, Frame.at_some, if_neg ho]

/-- **Each object is in a run of the implementation.** -/
theorem object_run {ok : CodePool Tid Own Local Obj Call IShared ILocal → Tid →
      Event Label Call ILabel → Prop} {c₀ : CodePool Tid Own Local Obj Call IShared ILocal}
    {w : List (Tid × Event Label Call ILabel)} (o : Obj) (h : Run (P.Step I ok) c₀ w c) :
    Run (fun c x d => Pool.Step (I.atom x.1) Pool.free c x d) (alone P I o c₀)
      (w.filterMap (onObject P o)) (alone P I o c) := by
  have hsim : ∃ d, d = alone P I o c ∧ Run (fun c x d => Pool.Step (I.atom x.1) Pool.free c x d)
      (alone P I o c₀) (w.filterMap (onObject P o)) d := by
    refine h.simulate (R := fun c d => d = alone P I o c) rfl fun c d x c' hd hstep => ?_
    subst hd
    cases hstep with
    | mk _ hatom =>
      obtain ⟨hnone, halone⟩ | ⟨y, hsome, hstep⟩ := alone_step (o := o) rfl hatom
      · exact ⟨_, rfl, .inl ⟨hnone, halone⟩⟩
      · exact ⟨_, rfl, .inr ⟨y, hsome, hstep⟩⟩
  obtain ⟨d, rfl, hrun⟩ := hsim
  exact hrun

end Alone
end AtomicObjects
