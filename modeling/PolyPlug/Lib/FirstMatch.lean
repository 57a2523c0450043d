import Mathlib.Data.List.Count
import Mathlib.Data.List.Perm.Basic

/-!
# `PolyPlug.Lib.FirstMatch`: two lists that match, and the greedy check of it

`Matched r entries items` says that two lists match under a relation: every item has an entry
and every entry an item. It does not read the order of the lists.

A loop that looks up the first entry for each item and marks it checks `FirstMatched`, where
every entry is the first one of some item. It is stronger: an entry whose items all have an
earlier entry is never marked. It agrees with `Matched` in every order of the lists exactly if
every entry is the only one of some item (`firstMatched_perm_iff`).
-/

set_option autoImplicit false

namespace PolyPlug.Lib

section
variable {α β : Type*} (r : α → β → Bool)

/-- Every item has an entry, and every entry an item. -/
def Matched (entries : List α) (items : List β) : Prop :=
  (∀ b ∈ items, ∃ a ∈ entries, r a b) ∧ ∀ a ∈ entries, ∃ b ∈ items, r a b

/-- Every entry is the first one of some item. -/
def FirstOfSome (entries : List α) (items : List β) : Prop :=
  ∀ k < entries.length, ∃ b ∈ items, (entries.findIdx? fun a => r a b) = some k

/-- Every entry is the only one of some item. -/
def OnlyOfSome (entries : List α) (items : List β) : Prop :=
  ∀ a ∈ entries, ∃ b ∈ items, r a b ∧ (entries.countP fun a => r a b) = 1

/-- What the greedy check accepts. -/
def FirstMatched (entries : List α) (items : List β) : Prop :=
  (∀ b ∈ items, (entries.findIdx? fun a => r a b).isSome) ∧ FirstOfSome r entries items

instance (entries : List α) (items : List β) : Decidable (Matched r entries items) :=
  inferInstanceAs (Decidable (_ ∧ _))

instance (entries : List α) (items : List β) : Decidable (FirstOfSome r entries items) :=
  inferInstanceAs (Decidable (∀ k < entries.length, _))

instance (entries : List α) (items : List β) : Decidable (OnlyOfSome r entries items) :=
  inferInstanceAs (Decidable (∀ a ∈ entries, _))

variable {r} {entries entries' : List α} {items items' : List β}

theorem isSome_first_iff {b : β} :
    (entries.findIdx? fun a => r a b).isSome ↔ ∃ a ∈ entries, r a b := by
  rw [List.findIdx?_isSome, List.any_eq_true]

/-- The greedy check accepts lists that match and whose entries are first for some item. -/
theorem firstMatched_iff :
    FirstMatched r entries items ↔ Matched r entries items ∧ FirstOfSome r entries items := by
  constructor
  · rintro ⟨hitems, hfirst⟩
    refine ⟨⟨fun b hb => isSome_first_iff.mp (hitems b hb), fun a ha => ?_⟩, hfirst⟩
    obtain ⟨k, hk, rfl⟩ := List.getElem_of_mem ha
    obtain ⟨b, hb, hindex⟩ := hfirst k hk
    obtain ⟨_, hr, -⟩ := List.findIdx?_eq_some_iff_getElem.mp hindex
    exact ⟨b, hb, hr⟩
  · rintro ⟨hmatched, hfirst⟩
    exact ⟨fun b hb => isSome_first_iff.mpr (hmatched.1 b hb), hfirst⟩

/-! ### The order of the lists -/

theorem Matched.perm (h : Matched r entries items) (hentries : entries'.Perm entries)
    (hitems : items'.Perm items) : Matched r entries' items' := by
  refine ⟨fun b hb => ?_, fun a ha => ?_⟩
  · obtain ⟨a, ha, hr⟩ := h.1 b (hitems.mem_iff.mp hb)
    exact ⟨a, hentries.mem_iff.mpr ha, hr⟩
  · obtain ⟨b, hb, hr⟩ := h.2 a (hentries.mem_iff.mp ha)
    exact ⟨b, hitems.mem_iff.mpr hb, hr⟩

theorem OnlyOfSome.perm (h : OnlyOfSome r entries items) (hentries : entries'.Perm entries)
    (hitems : items'.Perm items) : OnlyOfSome r entries' items' := by
  intro a ha
  obtain ⟨b, hb, hr, hcount⟩ := h a (hentries.mem_iff.mp ha)
  exact ⟨b, hitems.mem_iff.mpr hb, hr, (hentries.countP_eq _).trans hcount⟩

/-- The only entry of an item is its first. -/
theorem OnlyOfSome.first (h : OnlyOfSome r entries items) : FirstOfSome r entries items := by
  intro k hk
  obtain ⟨b, hb, hr, hcount⟩ := h entries[k] (List.getElem_mem hk)
  refine ⟨b, hb, List.findIdx?_eq_some_iff_getElem.mpr ⟨hk, hr, fun j hj hrj => ?_⟩⟩
  -- An earlier entry would be a second one.
  have hbefore : 0 < (entries.take k).countP fun a => r a b :=
    List.countP_pos_iff.mpr ⟨entries[j], List.mem_take_iff_getElem.mpr ⟨j, by omega, rfl⟩, hrj⟩
  have hfrom : 0 < (entries.drop k).countP fun a => r a b :=
    List.countP_pos_iff.mpr ⟨entries[k], List.drop_eq_getElem_cons hk ▸ List.mem_cons_self, hr⟩
  have hsplit := congrArg (List.countP fun a => r a b) (List.take_append_drop k entries)
  rw [List.countP_append, hcount] at hsplit
  omega

/-- An entry that is put last is the first of an item only if it is its only one. -/
theorem onlyOfSome_of_first [DecidableEq α]
    (h : ∀ entries', entries'.Perm entries → FirstOfSome r entries' items) :
    OnlyOfSome r entries items := by
  intro a ha
  have hlast : (entries.erase a ++ [a]).Perm entries :=
    List.perm_append_comm.trans (List.perm_cons_erase ha).symm
  obtain ⟨b, hb, hindex⟩ := h _ hlast (entries.erase a).length (by simp)
  obtain ⟨_, hr, hbefore⟩ := List.findIdx?_eq_some_iff_getElem.mp hindex
  rw [List.getElem_concat_length rfl] at hr
  refine ⟨b, hb, hr, ?_⟩
  have hnone : (entries.erase a).countP (fun a => r a b) = 0 := by
    refine List.countP_eq_zero.mpr fun x hx => ?_
    obtain ⟨j, hj, rfl⟩ := List.getElem_of_mem hx
    have hnot := hbefore j hj
    rwa [List.getElem_append_left hj] at hnot
  rw [← hlast.countP_eq, List.countP_append, hnone, List.countP_singleton, if_pos hr]

/-- **The greedy check agrees with the relation** on two lists exactly if every entry is first for
some item, and in every order of the entries exactly if every entry is the only one of some
item. -/
theorem firstMatched_perm_iff [DecidableEq α] (entries : List α) (items : List β) :
    ((FirstMatched r entries items ↔ Matched r entries items) ↔
      (Matched r entries items → FirstOfSome r entries items)) ∧
    (((FirstMatched r entries items ↔ Matched r entries items) ∧
        ∀ entries' items', entries'.Perm entries → items'.Perm items →
          (FirstMatched r entries' items' ↔ FirstMatched r entries items)) ↔
      (Matched r entries items → OnlyOfSome r entries items)) := by
  have hone : (FirstMatched r entries items ↔ Matched r entries items) ↔
      (Matched r entries items → FirstOfSome r entries items) := by
    rw [firstMatched_iff]
    exact and_iff_left_iff_imp
  refine ⟨hone, ?_⟩
  constructor
  · rintro ⟨hagrees, hperm⟩ hmatched
    refine onlyOfSome_of_first fun entries' hentries => ?_
    have hfirst := (hperm entries' items hentries (List.Perm.refl _)).mpr (hagrees.mpr hmatched)
    exact (firstMatched_iff.mp hfirst).2
  · intro honly
    refine ⟨hone.mpr fun hmatched => (honly hmatched).first,
      fun entries' items' hentries hitems => ?_⟩
    rw [firstMatched_iff, firstMatched_iff]
    constructor
    · rintro ⟨hmatched', -⟩
      have hmatched := hmatched'.perm hentries.symm hitems.symm
      exact ⟨hmatched, (honly hmatched).first⟩
    · rintro ⟨hmatched, -⟩
      exact ⟨hmatched.perm hentries hitems, ((honly hmatched).perm hentries hitems).first⟩

end

end PolyPlug.Lib
