import Mathlib.Data.Finset.Card

/-!
# Units that are used in one role each

A map says which units of some resource are in use, and other structures say what for.
They agree when every unit in use plays one role and the others play none.  Granting
free units to new roles, and taking all units away from some roles, keep them in
agreement.

Units and roles are of any type.
-/

namespace Nachos
namespace Lib

variable {R S : Type} {used used' : S → Prop} {plays plays' : R → S → Prop}

/-- Units in use play one role each. -/
structure Exclusive (used : S → Prop) (plays : R → S → Prop) : Prop where
  unique : ∀ r r' s, plays r s → plays r' s → r = r'
  used_iff : ∀ s, used s ↔ ∃ r, plays r s

namespace Exclusive

/-- The new roles get free units, each its own. -/
theorem grant (h : Exclusive used plays) (new : R → Prop)
    (hold : ∀ r s, ¬ new r → (plays' r s ↔ plays r s))
    (hnone : ∀ r s, new r → ¬ plays r s)
    (hfree : ∀ r s, new r → plays' r s → ¬ used s)
    (hdistinct : ∀ r r' s, new r → new r' → plays' r s → plays' r' s → r = r')
    (hused : ∀ s, used' s ↔ used s ∨ ∃ r, new r ∧ plays' r s) : Exclusive used' plays' := by
  constructor
  case unique =>
    intro r r' s hr hr'
    by_cases hnew : new r
    · by_cases hnew' : new r'
      · exact hdistinct r r' s hnew hnew' hr hr'
      · have hplays := (hold r' s hnew').mp hr'
        exact absurd ((h.used_iff s).mpr ⟨r', hplays⟩) (hfree r s hnew hr)
    · by_cases hnew' : new r'
      · have hplays := (hold r s hnew).mp hr
        exact absurd ((h.used_iff s).mpr ⟨r, hplays⟩) (hfree r' s hnew' hr')
      · exact h.unique r r' s ((hold r s hnew).mp hr) ((hold r' s hnew').mp hr')
  case used_iff =>
    intro s
    rw [hused s]
    constructor
    · rintro (hold' | ⟨r, -, hr⟩)
      · obtain ⟨r, hr⟩ := (h.used_iff s).mp hold'
        have hnew : ¬ new r := fun hn => hnone r s hn hr
        exact ⟨r, (hold r s hnew).mpr hr⟩
      · exact ⟨r, hr⟩
    · rintro ⟨r, hr⟩
      by_cases hnew : new r
      · exact Or.inr ⟨r, hnew, hr⟩
      · exact Or.inl ((h.used_iff s).mpr ⟨r, (hold r s hnew).mp hr⟩)

/-- Some roles are given up, and with them their units. -/
theorem revoke (h : Exclusive used plays) (gone : R → Prop)
    (hold : ∀ r s, ¬ gone r → (plays' r s ↔ plays r s))
    (hnone : ∀ r s, gone r → ¬ plays' r s)
    (hused : ∀ s, used' s ↔ used s ∧ ∀ r, gone r → ¬ plays r s) : Exclusive used' plays' := by
  constructor
  case unique =>
    intro r r' s hr hr'
    have hstay : ∀ {r}, plays' r s → ¬ gone r := fun hplays hgone => hnone _ s hgone hplays
    exact h.unique r r' s ((hold r s (hstay hr)).mp hr) ((hold r' s (hstay hr')).mp hr')
  case used_iff =>
    intro s
    rw [hused s]
    constructor
    · rintro ⟨hold', hstay⟩
      obtain ⟨r, hr⟩ := (h.used_iff s).mp hold'
      exact ⟨r, (hold r s fun hgone => hstay r hgone hr).mpr hr⟩
    · rintro ⟨r, hr⟩
      have hgone : ¬ gone r := fun hgone => hnone r s hgone hr
      have hplays := (hold r s hgone).mp hr
      refine ⟨(h.used_iff s).mpr ⟨r, hplays⟩, fun r' hgone' hr' => ?_⟩
      exact hgone (h.unique r' r s hr' hplays ▸ hgone')

/-- Nothing changes. -/
theorem congr (h : Exclusive used plays) (hplays : ∀ r s, plays' r s ↔ plays r s)
    (hused : ∀ s, used' s ↔ used s) : Exclusive used' plays' where
  unique r r' s hr hr' := h.unique r r' s ((hplays r s).mp hr) ((hplays r' s).mp hr')
  used_iff s := by
    rw [hused, h.used_iff]
    constructor
    · rintro ⟨r, hr⟩
      exact ⟨r, (hplays r s).mpr hr⟩
    · rintro ⟨r, hr⟩
      exact ⟨r, (hplays r s).mp hr⟩

/-- There are as many units in use as there are roles. -/
theorem card_eq [DecidableEq S] (h : Exclusive used plays) {units : Finset S} {roles : Finset R}
    {place : R → S} (hunits : ∀ s, s ∈ units ↔ used s)
    (hplays : ∀ r s, plays r s ↔ r ∈ roles ∧ place r = s) : units.card = roles.card := by
  have himage : units = roles.image place := by
    ext s
    rw [hunits, h.used_iff, Finset.mem_image]
    exact exists_congr fun r => hplays r s
  rw [himage, Finset.card_image_of_injOn]
  intro r hr r' hr' heq
  exact h.unique r r' (place r) ((hplays _ _).mpr ⟨hr, rfl⟩) ((hplays _ _).mpr ⟨hr', heq.symm⟩)

end Exclusive

end Lib
end Nachos
