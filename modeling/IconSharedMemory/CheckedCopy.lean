import Mathlib.Logic.Function.Basic
import Mathlib.Data.List.Nodup

/-! # Copying a record field by field

The fields of a record have sizes, and some of them may be absent.  A record is copied over
another one field by field, and each field is checked before it is copied: it has to have the size
of the one it replaces.  The first one that does not ends the copying with an error.

By then the fields before it have been overwritten.  So an error leaves the destination as it was
only if these had the same content before (`unchanged_iff`).
-/
namespace CheckedCopy
variable {K F E : Type} {size : F → Nat} {fail : K → F → F → E}
  {source dest dest' : K → Option F} {ks : List K} {k : K} {r : Option E}

/-- The field is there on both sides, with the same size. -/
def Fits (size : F → Nat) (source dest : K → Option F) (k : K) : Prop :=
  ∃ s d, source k = some s ∧ dest k = some d ∧ size s = size d

/-- The field is there on both sides, with another size. -/
def Differs (size : F → Nat) (source dest : K → Option F) (k : K) : Prop :=
  ∃ s d, source k = some s ∧ dest k = some d ∧ size s ≠ size d

/-- The field is there on both sides, with the same content. -/
def Agrees (source dest : K → Option F) (k : K) : Prop :=
  ∃ v, source k = some v ∧ dest k = some v

variable [DecidableEq K]

/-- Copies the fields `ks` until one of them does not fit.  There is no result if a field is
absent. -/
def copyFields (size : F → Nat) (fail : K → F → F → E) (source : K → Option F) :
    List K → (K → Option F) → Option ((K → Option F) × Option E)
  | [], dest => some (dest, none)
  | k :: ks, dest =>
    match source k, dest k with
    | some s, some d =>
      if size s = size d then copyFields size fail source ks (Function.update dest k (some s))
      else some (dest, some (fail k s d))
    | _, _ => none

theorem copyFields_of_fits {s d : F} (hs : source k = some s) (hd : dest k = some d)
    (hsize : size s = size d) :
    copyFields size fail source (k :: ks) dest =
      copyFields size fail source ks (Function.update dest k (some s)) := by
  rw [copyFields, hs, hd]
  exact if_pos hsize

theorem copyFields_of_differs {s d : F} (hs : source k = some s) (hd : dest k = some d)
    (hsize : size s ≠ size d) :
    copyFields size fail source (k :: ks) dest = some (dest, some (fail k s d)) := by
  rw [copyFields, hs, hd]
  exact if_neg hsize

theorem copyFields_of_absent (h : source k = none ∨ dest k = none) :
    copyFields size fail source (k :: ks) dest = none := by
  rw [copyFields]
  split
  · next s d hs hd =>
    rw [hs, hd] at h
    rcases h with h | h <;> cases h
  · rfl

omit [DecidableEq K] in
theorem fits_congr (h : dest' k = dest k) : Fits size source dest' k ↔ Fits size source dest k := by
  unfold Fits
  rw [h]

/-- A field that is not copied stays, and without an error every field has fitted and is copied. -/
theorem copyFields_spec (hnodup : ks.Nodup)
    (h : copyFields size fail source ks dest = some (dest', r)) :
    (∀ j ∉ ks, dest' j = dest j) ∧
      (r = none → ∀ j ∈ ks, Fits size source dest j ∧ dest' j = source j) := by
  induction ks generalizing dest with
  | nil =>
    cases h
    exact ⟨fun _ _ => rfl, fun _ => nofun⟩
  | cons k ks ih =>
    obtain ⟨hk, hks⟩ := List.nodup_cons.mp hnodup
    rw [copyFields] at h
    split at h
    · next s d hs hd =>
      split at h
      · next hsize =>
        obtain ⟨hother, hcopied⟩ := ih hks h
        constructor
        · intro j hj
          rw [List.mem_cons, not_or] at hj
          rw [hother j hj.2, Function.update_of_ne hj.1]
        · intro hr j hj
          rcases List.mem_cons.mp hj with rfl | hj
          · exact ⟨⟨s, d, hs, hd, hsize⟩, by rw [hother j hk, Function.update_self, hs]⟩
          · obtain ⟨hfits, hsource⟩ := hcopied hr j hj
            have hne : j ≠ k := fun heq => hk (heq ▸ hj)
            exact ⟨(fits_congr (Function.update_of_ne hne ..)).mp hfits, hsource⟩
      · cases h
        exact ⟨fun _ _ => rfl, nofun⟩
    · cases h

theorem copyFields_of_forall_fits (hnodup : ks.Nodup) (hfits : ∀ j ∈ ks, Fits size source dest j) :
    ∃ dest', copyFields size fail source ks dest = some (dest', none) := by
  induction ks generalizing dest with
  | nil => exact ⟨dest, rfl⟩
  | cons k ks ih =>
    obtain ⟨hk, hks⟩ := List.nodup_cons.mp hnodup
    obtain ⟨s, d, hs, hd, hsize⟩ := hfits k List.mem_cons_self
    rw [copyFields_of_fits hs hd hsize]
    refine ih hks fun j hj => (fits_congr (Function.update_of_ne ?_ ..)).mpr
      (hfits j (List.mem_cons_of_mem _ hj))
    exact fun heq => hk (heq ▸ hj)

/-- The copying stops at a field with another size, and the fields before it are the same. -/
def StopsUnchanged (size : F → Nat) (source dest : K → Option F) (ks : List K) : Prop :=
  ∃ before k after, ks = before ++ k :: after ∧ (∀ j ∈ before, Agrees source dest j) ∧
    Differs size source dest k

omit [DecidableEq K] in
theorem stopsUnchanged_cons :
    StopsUnchanged size source dest (k :: ks) ↔
      Differs size source dest k ∨ Agrees source dest k ∧ StopsUnchanged size source dest ks := by
  constructor
  · rintro ⟨before, k', after, heq, hbefore, hdiffers⟩
    cases before with
    | nil =>
      cases heq
      exact .inl hdiffers
    | cons j before =>
      cases heq
      obtain ⟨hj, hbefore⟩ := List.forall_mem_cons.mp hbefore
      exact .inr ⟨hj, before, k', after, rfl, hbefore, hdiffers⟩
  · rintro (hdiffers | ⟨hk, before, k', after, rfl, hbefore, hdiffers⟩)
    · exact ⟨[], k, ks, rfl, nofun, hdiffers⟩
    · exact ⟨k :: before, k', after, rfl, List.forall_mem_cons.mpr ⟨hk, hbefore⟩, hdiffers⟩

omit [DecidableEq K] in
theorem differs_iff {s d : F} (hs : source k = some s) (hd : dest k = some d) :
    Differs size source dest k ↔ size s ≠ size d := by
  unfold Differs
  rw [hs, hd]
  exact ⟨fun ⟨_, _, rfl, rfl, hne⟩ => hne, fun hne => ⟨s, d, rfl, rfl, hne⟩⟩

omit [DecidableEq K] in
theorem agrees_iff {s d : F} (hs : source k = some s) (hd : dest k = some d) :
    Agrees source dest k ↔ s = d := by
  unfold Agrees
  rw [hs, hd]
  exact ⟨fun ⟨_, hv, hv'⟩ => Option.some.inj (hv.trans hv'.symm),
    fun heq => ⟨d, congrArg some heq, rfl⟩⟩

omit [DecidableEq K] in
theorem not_stopsUnchanged_of_absent (h : source k = none ∨ dest k = none) :
    ¬ StopsUnchanged size source dest (k :: ks) := by
  rw [stopsUnchanged_cons]
  rintro (⟨s, d, hs, hd, -⟩ | ⟨⟨v, hs, hd⟩, -⟩) <;>
  · rw [hs, hd] at h
    rcases h with h | h <;> cases h

theorem error_unchanged_iff (hnodup : ks.Nodup) :
    (∃ e, copyFields size fail source ks dest = some (dest, some e)) ↔
      StopsUnchanged size source dest ks := by
  induction ks generalizing dest with
  | nil => exact iff_of_false nofun fun ⟨before, _, _, heq, _⟩ => by cases before <;> cases heq
  | cons k ks ih =>
    obtain ⟨hk, hks⟩ := List.nodup_cons.mp hnodup
    by_cases habsent : source k = none ∨ dest k = none
    · refine iff_of_false ?_ (not_stopsUnchanged_of_absent habsent)
      rw [copyFields_of_absent habsent]
      exact nofun
    · obtain ⟨hs, hd⟩ := not_or.mp habsent
      obtain ⟨s, hs⟩ := Option.ne_none_iff_exists'.mp hs
      obtain ⟨d, hd⟩ := Option.ne_none_iff_exists'.mp hd
      rw [stopsUnchanged_cons, differs_iff hs hd, agrees_iff hs hd]
      by_cases hsize : size s = size d
      · rw [copyFields_of_fits hs hd hsize, or_iff_right (not_not_intro hsize)]
        by_cases hsame : s = d
        · -- writing the same content again changes nothing
          subst hsame
          rw [← hd, Function.update_eq_self, ih hks]
          exact (and_iff_right rfl).symm
        · refine iff_of_false ?_ fun h => hsame h.1
          rintro ⟨e, h⟩
          have hkept := (copyFields_spec hks h).1 k hk
          rw [Function.update_self, hd] at hkept
          exact hsame (Option.some.inj hkept).symm
      · exact iff_of_true ⟨fail k s d, copyFields_of_differs hs hd hsize⟩ (.inl hsize)

/-- **An error leaves the destination as it was** if and only if there is none, since every field
fits, or the fields before the first one with another size had the same content before. -/
theorem unchanged_iff (hnodup : ks.Nodup) :
    (∃ dest' r, copyFields size fail source ks dest = some (dest', r) ∧ (r ≠ none → dest' = dest)) ↔
      (∀ k ∈ ks, Fits size source dest k) ∨ StopsUnchanged size source dest ks := by
  constructor
  · rintro ⟨dest', r, h, hsame⟩
    cases r with
    | none => exact .inl fun k hk => ((copyFields_spec hnodup h).2 rfl k hk).1
    | some e =>
      rw [hsame nofun] at h
      exact .inr ((error_unchanged_iff hnodup).mp ⟨e, h⟩)
  · rintro (hfits | hstops)
    · obtain ⟨dest', h⟩ := @copyFields_of_forall_fits _ _ _ size fail _ _ _ _ hnodup hfits
      exact ⟨dest', none, h, fun hne => absurd rfl hne⟩
    · obtain ⟨e, h⟩ := (@error_unchanged_iff _ _ _ size fail _ _ _ _ hnodup).mpr hstops
      exact ⟨dest, some e, h, fun _ => rfl⟩

end CheckedCopy
