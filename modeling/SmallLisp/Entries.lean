/-!
# `SmallLisp.Entries` — finite maps from strings, in key order

The entries of a map are a list of keys with their values. Every entry is put at its place in the order of the
keys, by code point, so that two maps with the same content are the same list.

## Contents
* **Operations.** `find?`, `insert`, `ofList`, `keys`.
* **Reading after writing.** `find?_insert`.
* **The order** `Ordered`, which `insert` keeps (`Ordered.insert`).
-/

namespace SmallLisp

/-- Keys with their values. -/
abbrev Entries (α : Type) := List (String × α)

namespace Entries

variable {α : Type}

/-! ## Operations -/

/-- The value of a key. -/
def find? (key : String) : Entries α → Option α
  | [] => none
  | (k, v) :: rest => if k = key then some v else find? key rest

/-- Gives a key a value, in place of the one it may have. -/
def insert (key : String) (value : α) : Entries α → Entries α
  | [] => [(key, value)]
  | (k, v) :: rest =>
    if key < k then (key, value) :: (k, v) :: rest
    else if k = key then (key, value) :: rest
    else (k, v) :: insert key value rest

/-- The entries written in a list; of a repeated key the last value counts. -/
def ofList (es : List (String × α)) : Entries α := es.foldl (fun acc e => acc.insert e.1 e.2) []

/-- The keys, in order. -/
def keys (es : Entries α) : List String := es.map Prod.fst

/-! ## Reading after writing -/

theorem find?_insert (key k : String) (value : α) (es : Entries α) :
    (es.insert key value).find? k = if key = k then some value else es.find? k := by
  induction es with
  | nil => simp [insert, find?]
  | cons e rest ih =>
      obtain ⟨l, v⟩ := e
      unfold insert
      split
      · simp [find?]
      · split
        · subst l
          simp only [find?]
          split <;> rfl
        · rename_i hne
          simp only [find?, ih]
          by_cases hk : key = k
          · subst hk; simp [hne]
          · simp [hk]

/-! ## The order -/

/-- The keys ascend, so no key is repeated. -/
def Ordered (es : Entries α) : Prop := es.Pairwise fun a b => a.1 < b.1

theorem mem_keys_insert {key k : String} {value : α} {es : Entries α} :
    k ∈ (es.insert key value).keys ↔ k = key ∨ k ∈ es.keys := by
  induction es with
  | nil => simp [insert, keys]
  | cons e rest ih =>
      obtain ⟨l, v⟩ := e
      unfold insert
      split
      · simp [keys]
      · split
        · subst l; simp [keys]
        · simp only [keys, List.map_cons, List.mem_cons] at ih ⊢
          rw [ih]
          constructor
          · rintro (h | h | h) <;> simp [h]
          · rintro (h | h | h) <;> simp [h]

theorem Ordered.insert {es : Entries α} (h : es.Ordered) (key : String) (value : α) :
    (es.insert key value).Ordered := by
  induction es with
  | nil => simp [Entries.insert, Ordered]
  | cons e rest ih =>
      obtain ⟨l, v⟩ := e
      obtain ⟨hhead, htail⟩ := List.pairwise_cons.mp h
      unfold Entries.insert
      split
      · rename_i hlt
        refine List.pairwise_cons.mpr ⟨?_, h⟩
        intro e he
        rcases List.mem_cons.mp he with rfl | he
        · exact hlt
        · exact String.lt_trans hlt (hhead e he)
      · split
        · subst l
          exact List.pairwise_cons.mpr ⟨hhead, htail⟩
        · rename_i hnlt hne
          refine List.pairwise_cons.mpr ⟨?_, ih htail⟩
          intro e he
          have hkey : e.1 ∈ (Entries.insert key value rest).keys := List.mem_map_of_mem he
          rcases mem_keys_insert.mp hkey with hk | hk
          · show l < e.1
            rw [hk]
            apply Decidable.byContradiction
            intro hnot
            exact hne (String.le_antisymm (String.not_lt.mp hnlt) (String.not_lt.mp hnot))
          · obtain ⟨e', he', heq⟩ := List.mem_map.mp hk
            show l < e.1
            rw [← heq]
            exact hhead e' he'

end Entries

end SmallLisp
