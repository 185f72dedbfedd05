import Mathlib.Data.List.Perm.Subperm
import SmallLisp.Entries

/-!
# `SmallLisp.Proofs.Entries` — finite maps are what their look-ups say

Entries in key order are determined by what is found in them (`Entries.Ordered.ext`), so a map that has been
filled in any way may be compared with a rule for its look-ups.

## Contents
* **Look-ups** succeed for the keys (`exists_find?_iff`, `find?_eq_none_iff`). They are given for joined, shuffled and
  freshly filled entries: `find?_append`, `find?_perm`, `find?_foldl_insert`; from behind the last entry of a key is
  found (`find?_reverse_eq_some_iff`).
* **Extensionality** `Ordered.ext`.
-/

namespace SmallLisp.Entries

variable {α : Type}

/-! ## Look-ups -/

theorem find?_append (key : String) (es fs : Entries α) :
    find? key (es ++ fs) = (find? key es).or (find? key fs) := by
  induction es with
  | nil => rfl
  | cons e es ih =>
      rw [List.cons_append, find?, find?]
      split
      · rfl
      · exact ih

theorem mem_of_find? {key : String} {v : α} {es : Entries α} (h : find? key es = some v) : (key, v) ∈ es := by
  induction es with
  | nil => cases h
  | cons e es ih =>
      rw [find?] at h
      split at h
      · rename_i hkey
        cases h
        rw [← hkey]
        exact List.mem_cons_self
      · exact List.mem_cons_of_mem _ (ih h)

theorem find?_of_mem {key : String} {v : α} {es : Entries α} (hnodup : (keys es).Nodup) (h : (key, v) ∈ es) :
    find? key es = some v := by
  induction es with
  | nil => cases h
  | cons e es ih =>
      obtain ⟨hnotin, hnodup⟩ := List.nodup_cons.mp hnodup
      rw [find?]
      rcases List.mem_cons.mp h with rfl | h
      · rw [if_pos rfl]
      · rw [if_neg, ih hnodup h]
        rintro rfl
        exact hnotin (List.mem_map.mpr ⟨_, h, rfl⟩)

theorem exists_find?_iff {key : String} {es : Entries α} : (∃ v, find? key es = some v) ↔ key ∈ keys es := by
  induction es with
  | nil => simp [find?, keys]
  | cons e es ih =>
      obtain ⟨k, w⟩ := e
      simp only [keys, List.map_cons, List.mem_cons] at ih ⊢
      rw [find?, ← ih]
      split
      · rename_i hk
        simp [hk]
      · rename_i hk
        simp [Ne.symm hk]

theorem find?_eq_none_iff {key : String} {es : Entries α} : find? key es = none ↔ key ∉ keys es := by
  rw [← not_iff_not, not_not, ← Ne, Option.ne_none_iff_exists', exists_find?_iff]

/-- The order of entries does not matter where no key is repeated. -/
theorem find?_perm {es fs : Entries α} (h : es.Perm fs) (hnodup : (keys es).Nodup) (key : String) :
    find? key es = find? key fs := by
  have hnodup' : (keys fs).Nodup := (h.map Prod.fst).nodup hnodup
  apply Option.ext
  intro v
  constructor
  · intro hv
    exact find?_of_mem hnodup' (h.mem_iff.mp (mem_of_find? hv))
  · intro hv
    exact find?_of_mem hnodup (h.mem_iff.mpr (mem_of_find? hv))

/-- Of several values for a key the last one that is put in is found. -/
theorem find?_foldl_insert (key : String) (acc : Entries α) (es : List (String × α)) :
    find? key (es.foldl (fun acc e => acc.insert e.1 e.2) acc) = (find? key es.reverse).or (find? key acc) := by
  induction es generalizing acc with
  | nil => rfl
  | cons e es ih =>
      rw [List.foldl_cons, ih, find?_insert, List.reverse_cons, find?_append, Option.or_assoc]
      simp only [find?]
      split <;> simp

/-- What is found from behind stands before entries with other keys only. -/
theorem find?_reverse_eq_some_iff {key : String} {v : α} {es : Entries α} :
    find? key es.reverse = some v ↔ ∃ fs gs, es = fs ++ (key, v) :: gs ∧ ∀ e ∈ gs, e.1 ≠ key := by
  induction es with
  | nil => simp [find?]
  | cons e es ih =>
      have hnone : find? key es.reverse = none ↔ ∀ e ∈ es, e.1 ≠ key := by
        rw [find?_eq_none_iff, keys, List.map_reverse, List.mem_reverse, List.mem_map, not_exists]
        exact forall_congr' fun e => not_and
      rw [List.reverse_cons, find?_append, Option.or_eq_some_iff, ih, hnone]
      constructor
      · rintro (⟨fs, gs, rfl, hgs⟩ | ⟨hnone, he⟩)
        · exact ⟨e :: fs, gs, rfl, hgs⟩
        · obtain ⟨hkey, hv⟩ : e.1 = key ∧ e.2 = v := by simpa [find?] using he
          exact ⟨[], es, by rw [← hkey, ← hv]; rfl, hnone⟩
      · rintro ⟨_ | ⟨f, fs⟩, gs, heq, hgs⟩
        · obtain ⟨rfl, rfl⟩ := List.cons.inj heq
          exact Or.inr ⟨hgs, by simp [find?]⟩
        · obtain ⟨-, rfl⟩ := List.cons.inj heq
          exact Or.inl ⟨fs, gs, rfl, hgs⟩

/-! ## Extensionality -/

theorem Ordered.foldl_insert {acc : Entries α} (h : acc.Ordered) (es : List (String × α)) :
    Ordered (es.foldl (fun acc e => acc.insert e.1 e.2) acc) := by
  induction es generalizing acc with
  | nil => exact h
  | cons e es ih => exact ih (h.insert e.1 e.2)

theorem Ordered.nodup_keys {es : Entries α} (h : es.Ordered) : (keys es).Nodup := by
  rw [keys, List.nodup_iff_pairwise_ne, List.pairwise_map]
  apply List.Pairwise.imp _ h
  intro a b hlt heq
  rw [heq] at hlt
  exact String.lt_irrefl _ hlt

/-- If there are as many entries as in others, and all their keys are found there, then the keys are the same. -/
theorem Ordered.exists_find?_of_length_eq {es fs : Entries α} (hes : es.Ordered) (hlength : es.length = fs.length)
    (hfound : ∀ key v, find? key es = some v → ∃ w, find? key fs = some w) {key : String} {w : α}
    (hw : find? key fs = some w) : ∃ v, find? key es = some v := by
  have hsubset : keys es ⊆ keys fs := by
    intro k hk
    obtain ⟨v, hv⟩ := exists_find?_iff.mpr hk
    exact exists_find?_iff.mp (hfound k v hv)
  have hkeys : (keys fs).length ≤ (keys es).length := by
    simp only [keys, List.length_map, hlength, Nat.le_refl]
  have hperm : (keys es).Perm (keys fs) := (hes.nodup_keys.subperm hsubset).perm_of_length_le hkeys
  exact exists_find?_iff.mpr (hperm.mem_iff.mpr (exists_find?_iff.mp ⟨w, hw⟩))

/-- The order is one of keys alone. -/
theorem Ordered.map_snd {β : Type} {es : Entries α} (h : es.Ordered) (f : α → β) :
    Ordered (es.map fun e => (e.1, f e.2)) :=
  List.pairwise_map.mpr h

/-- A key before all others is not found. -/
theorem find?_eq_none_of_lt {key : String} {es : Entries α} (h : ∀ e ∈ es, key < e.1) : find? key es = none := by
  rw [Option.eq_none_iff_forall_ne_some]
  intro v hv
  exact String.lt_irrefl _ (h _ (mem_of_find? hv))

/-- With the same look-ups no entries begin with a key before all of the others: it would be missing there. -/
theorem Ordered.not_lt_of_find?_eq {k l : String} {v w : α} {es fs : Entries α} (hfs : Ordered ((l, w) :: fs))
    (h : find? k ((k, v) :: es) = find? k ((l, w) :: fs)) : ¬ k < l := by
  intro hlt
  have hnone : find? k ((l, w) :: fs) = none := by
    apply find?_eq_none_of_lt
    intro e he
    rcases List.mem_cons.mp he with rfl | he
    · exact hlt
    · exact String.lt_trans hlt ((List.pairwise_cons.mp hfs).1 e he)
  rw [hnone] at h
  simp [find?] at h

/-- Entries in key order with the same look-ups are the same. -/
theorem Ordered.ext {es fs : Entries α} (hes : es.Ordered) (hfs : fs.Ordered)
    (h : ∀ key, find? key es = find? key fs) : es = fs := by
  induction es generalizing fs with
  | nil =>
      cases fs with
      | nil => rfl
      | cons f fs =>
          have hf := h f.1
          simp [find?] at hf
  | cons e es ih =>
      cases fs with
      | nil =>
          have he := h e.1
          simp [find?] at he
      | cons f fs =>
          obtain ⟨k, v⟩ := e
          obtain ⟨l, w⟩ := f
          have hkl : ¬ k < l := hfs.not_lt_of_find?_eq (h k)
          have hlk : ¬ l < k := hes.not_lt_of_find?_eq (h l).symm
          obtain rfl : k = l := String.le_antisymm (String.not_lt.mp hlk) (String.not_lt.mp hkl)
          have hk := h k
          obtain rfl : v = w := by simpa [find?] using hk
          obtain ⟨hesHead, hesTail⟩ := List.pairwise_cons.mp hes
          obtain ⟨hfsHead, hfsTail⟩ := List.pairwise_cons.mp hfs
          have htails : es = fs := by
            apply ih hesTail hfsTail
            intro key
            by_cases hkey : k = key
            · -- The first key is in neither of the tails.
              subst hkey
              rw [find?_eq_none_of_lt hesHead, find?_eq_none_of_lt hfsHead]
            · simpa [find?, hkey] using h key
          rw [htails]

end SmallLisp.Entries
