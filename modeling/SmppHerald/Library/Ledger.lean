import Mathlib.Data.List.Basic

namespace SmppHerald.Ledger

variable {ι : Type}

section Lost

variable [DecidableEq ι]

/-- The items that were there before and are there no longer. -/
def lost (before after : List ι) : List ι := before.filter fun item => item ∉ after

theorem mem_or_mem_lost {before : List ι} (after : List ι) {item : ι} (h : item ∈ before) :
    item ∈ after ∨ item ∈ lost before after := by
  by_cases hafter : item ∈ after
  · exact .inl hafter
  · exact .inr (List.mem_filter.mpr ⟨h, by simpa using hafter⟩)

end Lost

/-- Every tracked item is kept or has an entry. -/
def Accounted (tracked kept entries : List ι) : Prop :=
  ∀ item ∈ tracked, item ∈ kept ∨ item ∈ entries

variable {tracked tracked' kept kept' entries entries' : List ι}

/-- Items may be tracked while they are kept or have an entry, and may go once they have one. -/
theorem Accounted.step (h : Accounted tracked kept entries)
    (htracked : ∀ item ∈ tracked', item ∈ tracked ∨ item ∈ kept' ∨ item ∈ entries')
    (hkept : ∀ item ∈ kept, item ∈ kept' ∨ item ∈ entries')
    (hentries : ∀ item ∈ entries, item ∈ entries') : Accounted tracked' kept' entries' := by
  intro item hitem
  rcases htracked item hitem with hbefore | hnow
  · rcases h item hbefore with hitem | hitem
    · exact hkept item hitem
    · exact .inr (hentries item hitem)
  · exact hnow

theorem Accounted.lose [DecidableEq ι] (h : Accounted tracked kept entries) (kept' : List ι)
    (hentries : ∀ item, item ∈ entries ∨ item ∈ lost kept kept' → item ∈ entries') :
    Accounted tracked kept' entries' := by
  refine h.step (fun item hitem => .inl hitem) ?_ fun item hitem => hentries item (.inl hitem)
  intro item hitem
  rcases mem_or_mem_lost kept' hitem with hafter | hlost
  · exact .inl hafter
  · exact .inr (hentries item (.inr hlost))

section Balance

variable {accepted kept kept' settled gone new : List ι}

/-- Every item that was accepted is kept or settled, once, and there are no others. -/
def Balanced (accepted kept settled : List ι) : Prop := accepted.Perm (kept ++ settled)

theorem Balanced.move (h : Balanced accepted kept settled)
    (hkept : (new ++ kept).Perm (gone ++ kept')) :
    Balanced (accepted ++ new) kept' (settled ++ gone) := by
  have hfirst : (accepted ++ new).Perm (new ++ kept ++ settled) := by
    rw [List.append_assoc]
    exact (h.append_right new).trans List.perm_append_comm
  have hlast : (gone ++ kept' ++ settled).Perm (kept' ++ (settled ++ gone)) := by
    rw [List.append_assoc, ← List.append_assoc kept']
    exact List.perm_append_comm
  exact (hfirst.trans (hkept.append_right settled)).trans hlast

end Balance

end SmppHerald.Ledger
