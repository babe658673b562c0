import Mathlib.Data.Set.Card
import Mathlib.Logic.Function.Basic

/-! # Handles and what they refer to

Handles refer to resources: `f h` is the resource that the handle `h` refers to, if it refers
to one.  A handle acquires a resource, releases it, or hands it over to another handle.  This
is what the accounting of such handles rests on: no resource is referred to by two of them
(`Unshared`), which resources are referred to (`Held`), how many handles refer to resources of
some kind (`holders`), and whether flags kept with the resources tell (`Tracked`).

Handing over is exchanging the names of two handles, one of which refers to nothing
(`transfer_eq_comp`), so it preserves everything that does not depend on names.
-/
namespace Holdings
variable {H R : Type}

/-- No two handles refer to the same resource. -/
def Unshared (f : H → Option R) : Prop := ∀ h g r, f h = some r → f g = some r → h = g

/-- Some handle refers to the resource. -/
def Held (f : H → Option R) (r : R) : Prop := ∃ h, f h = some r

/-- The handles that refer to a resource with the property. -/
def holders (f : H → Option R) (P : R → Prop) : Set H := {h | ∃ r, f h = some r ∧ P r}

/-- Finitely many handles refer to anything. -/
def Finitely (f : H → Option R) : Prop := {h | f h ≠ none}.Finite

variable {f : H → Option R} {h g : H} {r : R} {P Q : R → Prop}

theorem holders_congr (hPQ : ∀ h r, f h = some r → (P r ↔ Q r)) :
    holders f P = holders f Q := by
  ext h
  constructor
  · rintro ⟨r, hr, hP⟩
    exact ⟨r, hr, (hPQ h r hr).mp hP⟩
  · rintro ⟨r, hr, hQ⟩
    exact ⟨r, hr, (hPQ h r hr).mpr hQ⟩

theorem finitely_of_none (hf : ∀ h, f h = none) : Finitely f :=
  Set.finite_empty.subset fun h hh => absurd (hf h) hh

theorem Finitely.holders (hf : Finitely f) (P : R → Prop) : (holders f P).Finite := by
  refine hf.subset ?_
  rintro h ⟨r, hr, -⟩ hnone
  cases hr.symm.trans hnone

theorem Unshared.existsUnique_iff (hf : Unshared f) : (∃! h, f h = some r) ↔ Held f r := by
  constructor
  · exact ExistsUnique.exists
  · rintro ⟨h, hh⟩
    exact ⟨h, hh, fun g hg => hf g h r hg hh⟩

section Acquire
variable [DecidableEq H]

theorem Unshared.acquire (hf : Unshared f) (hr : ¬ Held f r) :
    Unshared (Function.update f h (some r)) := by
  intro a b r' ha hb
  by_cases hah : a = h
  · by_cases hbh : b = h
    · rw [hah, hbh]
    · -- then `b` referred to `r` before
      rw [hah, Function.update_self] at ha
      rw [Function.update_of_ne hbh] at hb
      exact absurd ⟨b, (Option.some.inj ha) ▸ hb⟩ hr
  · rw [Function.update_of_ne hah] at ha
    by_cases hbh : b = h
    · rw [hbh, Function.update_self] at hb
      exact absurd ⟨a, (Option.some.inj hb) ▸ ha⟩ hr
    · rw [Function.update_of_ne hbh] at hb
      exact hf a b r' ha hb

theorem Unshared.release (hf : Unshared f) : Unshared (Function.update f h none) := by
  intro a b r ha hb
  have hold : ∀ c, Function.update f h none c = some r → f c = some r := by
    intro c hc
    by_cases hch : c = h
    · rw [hch, Function.update_self] at hc
      cases hc
    · rwa [Function.update_of_ne hch] at hc
  exact hf a b r (hold a ha) (hold b hb)

theorem held_acquire (hh : f h = none) (r' : R) :
    Held (Function.update f h (some r)) r' ↔ r' = r ∨ Held f r' := by
  constructor
  · rintro ⟨g, hg⟩
    by_cases hgh : g = h
    · rw [hgh, Function.update_self] at hg
      exact .inl (Option.some.inj hg).symm
    · rw [Function.update_of_ne hgh] at hg
      exact .inr ⟨g, hg⟩
  · rintro (rfl | ⟨g, hg⟩)
    · exact ⟨h, Function.update_self ..⟩
    · refine ⟨g, ?_⟩
      rwa [Function.update_of_ne]
      rintro rfl
      cases hh.symm.trans hg

theorem held_release (hf : Unshared f) (hh : f h = some r) (r' : R) :
    Held (Function.update f h none) r' ↔ r' ≠ r ∧ Held f r' := by
  constructor
  · rintro ⟨g, hg⟩
    by_cases hgh : g = h
    · rw [hgh, Function.update_self] at hg
      cases hg
    · rw [Function.update_of_ne hgh] at hg
      exact ⟨fun heq => hgh (hf g h r (heq ▸ hg) hh), g, hg⟩
  · rintro ⟨hne, g, hg⟩
    refine ⟨g, ?_⟩
    rwa [Function.update_of_ne]
    rintro rfl
    exact hne (Option.some.inj (hg.symm.trans hh))

theorem Finitely.update (hf : Finitely f) (x : Option R) : Finitely (Function.update f h x) := by
  refine (hf.insert h).subset ?_
  intro g hg
  by_cases hgh : g = h
  · exact .inl hgh
  · refine .inr fun hnone => hg ?_
    rwa [Function.update_of_ne hgh]

open Classical in
/-- **Acquiring** a resource counts for the kinds it is of. -/
theorem ncard_acquire (hf : Finitely f) (hh : f h = none) (P : R → Prop) :
    (holders (Function.update f h (some r)) P).ncard =
      (holders f P).ncard + if P r then 1 else 0 := by
  have hnot : h ∉ holders f P := by
    rintro ⟨r', hr', -⟩
    cases hh.symm.trans hr'
  by_cases hP : P r
  · have heq : holders (Function.update f h (some r)) P = insert h (holders f P) := by
      ext g
      by_cases hgh : g = h
      · subst hgh
        simp [holders, hP]
      · simp [holders, hgh]
    rw [heq, Set.ncard_insert_of_notMem hnot (hf.holders P), if_pos hP]
  · have heq : holders (Function.update f h (some r)) P = holders f P := by
      ext g
      by_cases hgh : g = h
      · subst hgh
        simp [holders, hP, hh]
      · simp [holders, hgh]
    rw [heq, if_neg hP, Nat.add_zero]

open Classical in
/-- **Releasing** it undoes that. -/
theorem ncard_release (hf : Finitely f) (hh : f h = some r) (P : R → Prop) :
    (holders f P).ncard =
      (holders (Function.update f h none) P).ncard + if P r then 1 else 0 := by
  have hback : Function.update (Function.update f h none) h (some r) = f := by
    rw [Function.update_idem, ← hh, Function.update_eq_self]
  have hcard := ncard_acquire (r := r) (hf.update (h := h) none) (Function.update_self h none f) P
  rwa [hback] at hcard

/-- `g` hands over to `h` what it refers to. -/
def transfer (f : H → Option R) (g h : H) : H → Option R :=
  Function.update (Function.update f h (f g)) g none

theorem transfer_eq_comp (hgh : g ≠ h) (hh : f h = none) :
    transfer f g h = f ∘ Equiv.swap g h := by
  funext a
  unfold transfer
  by_cases hag : a = g
  · subst hag
    rw [Function.update_self, Function.comp_apply, Equiv.swap_apply_left, hh]
  · rw [Function.update_of_ne hag]
    by_cases hah : a = h
    · subst hah
      rw [Function.update_self, Function.comp_apply, Equiv.swap_apply_right]
    · rw [Function.update_of_ne hah, Function.comp_apply, Equiv.swap_apply_of_ne_of_ne hag hah]

end Acquire

/-! ## Renaming -/

theorem Unshared.comp (hf : Unshared f) (e : Equiv.Perm H) : Unshared (f ∘ e) := by
  intro a b r ha hb
  exact e.injective (hf _ _ r ha hb)

theorem held_comp (e : Equiv.Perm H) (r : R) : Held (f ∘ e) r ↔ Held f r := by
  constructor
  · rintro ⟨h, hh⟩
    exact ⟨e h, hh⟩
  · rintro ⟨h, hh⟩
    exact ⟨e.symm h, by rwa [Function.comp_apply, e.apply_symm_apply]⟩

theorem ncard_comp (e : Equiv.Perm H) (P : R → Prop) :
    (holders (f ∘ e) P).ncard = (holders f P).ncard := by
  have heq : holders f P = e '' holders (f ∘ e) P := by
    ext h
    rw [e.image_eq_preimage_symm, Set.mem_preimage]
    simp [holders]
  rw [heq, Set.ncard_image_of_injective _ e.injective]

theorem Finitely.comp (hf : Finitely f) (e : Equiv.Perm H) : Finitely (f ∘ e) :=
  Set.Finite.preimage e.injective.injOn hf

/-! ## Flags -/

/-- No resource is shared, and the flag of a resource says whether a handle refers to it. -/
structure Tracked (f : H → Option R) (flag : R → Prop) : Prop where
  unshared : Unshared f
  held : ∀ r, flag r ↔ Held f r

variable {flag flag' : R → Prop}

theorem tracked_of_none (hf : ∀ h, f h = none) (hflag : ∀ r, ¬ flag r) : Tracked f flag := by
  refine ⟨fun h g r hh => ?_, fun r => iff_of_false (hflag r) ?_⟩
  · cases (hf h).symm.trans hh
  · rintro ⟨h, hh⟩
    cases (hf h).symm.trans hh

theorem Tracked.not_flag_iff (ht : Tracked f flag) : ¬ flag r ↔ ∀ h, f h ≠ some r := by
  rw [ht.held r, Held, not_exists]

theorem Tracked.congr (ht : Tracked f flag) (hflag : ∀ r, flag' r ↔ flag r) : Tracked f flag' :=
  ⟨ht.unshared, fun r => (hflag r).trans (ht.held r)⟩

theorem Tracked.comp (ht : Tracked f flag) (e : Equiv.Perm H) : Tracked (f ∘ e) flag :=
  ⟨ht.unshared.comp e, fun r => (ht.held r).trans (held_comp e r).symm⟩

theorem Tracked.acquire [DecidableEq H] (ht : Tracked f flag) (hh : f h = none) (hr : ¬ flag r)
    (hflag : ∀ r', flag' r' ↔ r' = r ∨ flag r') :
    Tracked (Function.update f h (some r)) flag' := by
  refine ⟨ht.unshared.acquire (mt (ht.held r).mpr hr), fun r' => ?_⟩
  rw [hflag, held_acquire hh, ht.held]

theorem Tracked.release [DecidableEq H] (ht : Tracked f flag) (hh : f h = some r)
    (hflag : ∀ r', flag' r' ↔ r' ≠ r ∧ flag r') :
    Tracked (Function.update f h none) flag' := by
  refine ⟨ht.unshared.release, fun r' => ?_⟩
  rw [hflag, held_release ht.unshared hh, ht.held]

end Holdings
