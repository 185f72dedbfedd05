import SmallLisp.Proofs.Binary64.Equality
import SmallLisp.Proofs.Entries
import SmallLisp.Value.Equality

/-!
# `SmallLisp.Proofs.Value.Canonical` — equality is the equality of canonical forms

Equal values may look different: a list equals a vector with equal elements, any function equals any other, and
`0.0` equals `-0.0`. A *canonical form* makes one choice for each of these, at any depth, and then two values are equal
if their canonical forms are the same. The one exception is a NaN, which equals nothing, so neither does a value that
contains one outside of functions.

## Contents
* **Canonical forms** `Canonical`, that of a value, `Value.canonical`, and the presence of a NaN, `Value.hasNaN`.
* **Equality**, by induction on both values: `beq_iff_canonical`.
* **Maps** as finite functions from keys: `canonical_map_eq_iff`, and compared key by key: `beq_map_iff`.
* **The laws** `equality_is_canonical`: symmetry, transitivity, and who equals itself.
-/

namespace SmallLisp

/-! ## Canonical forms -/

/-- A value up to equality: without the difference between lists and vectors, and without the content of functions. -/
inductive Canonical where
  | nil
  | boolean (b : Bool)
  | integer (n : Int64)
  | float (x : Float)
  | string (content : String)
  | keyword (name : String)
  | symbol (name : String)
  | sequence (items : List Canonical)
  | map (entries : List (String × Canonical))
  | function
  | marked (mark : Mark) (form : Canonical)

namespace Canonical

mutual

/-- Whether a canonical form contains a NaN. -/
def hasNaN : Canonical → Bool
  | float x        => x.isNaN
  | sequence items => hasNaNItems items
  | map entries    => hasNaNEntries entries
  | marked _ form  => hasNaN form
  | _              => false

/-- Whether one of some canonical forms contains a NaN. -/
def hasNaNItems : List Canonical → Bool
  | []            => false
  | item :: items => hasNaN item || hasNaNItems items

/-- Whether the form of an entry contains a NaN. -/
def hasNaNEntries : List (String × Canonical) → Bool
  | []                   => false
  | (_, form) :: entries => hasNaN form || hasNaNEntries entries

end

end Canonical

namespace Value

mutual

/-- The canonical form of a value. -/
def canonical : Value → Canonical
  | nil            => .nil
  | boolean b      => .boolean b
  | integer n      => .integer n
  | float x        => .float (Binary64.canonical x)
  | string content => .string content
  | keyword name   => .keyword name
  | symbol name    => .symbol name
  | list items     => .sequence (canonicalItems items)
  | vector items   => .sequence (canonicalItems items)
  | map entries    => .map (canonicalEntries entries)
  | builtin _      => .function
  | closure _ _ _  => .function
  | marked m form  => .marked m (canonical form)

/-- The canonical forms of some values. -/
def canonicalItems : List Value → List Canonical
  | []            => []
  | item :: items => canonical item :: canonicalItems items

/-- The entries with the canonical forms of their values. -/
def canonicalEntries : List (String × Value) → List (String × Canonical)
  | []                      => []
  | (key, value) :: entries => (key, canonical value) :: canonicalEntries entries

end

mutual

/-- Whether a value contains a NaN, other than in a function. -/
def hasNaN : Value → Bool
  | float x       => x.isNaN
  | list items    => hasNaNItems items
  | vector items  => hasNaNItems items
  | map entries   => hasNaNEntries entries
  | marked _ form => hasNaN form
  | _             => false

/-- Whether one of some values contains a NaN. -/
def hasNaNItems : List Value → Bool
  | []            => false
  | item :: items => hasNaN item || hasNaNItems items

/-- Whether the value of an entry contains a NaN. -/
def hasNaNEntries : List (String × Value) → Bool
  | []                    => false
  | (_, value) :: entries => hasNaN value || hasNaNEntries entries

end

theorem canonicalEntries_eq_map (entries : List (String × Value)) :
    canonicalEntries entries = entries.map fun e => (e.1, e.2.canonical) := by
  induction entries with
  | nil => rfl
  | cons e entries ih => rw [canonicalEntries, ih, List.map_cons]

mutual

/-- A canonical form keeps what is outside of functions, and so every NaN there. -/
theorem hasNaN_canonical : ∀ v : Value, v.canonical.hasNaN = v.hasNaN
  | nil | boolean _ | integer _ | string _ | keyword _ | symbol _ | builtin _ | closure _ _ _ => rfl
  | float x       => Binary64.isNaN_canonical x
  | list items    => hasNaN_canonicalItems items
  | vector items  => hasNaN_canonicalItems items
  | map entries   => hasNaN_canonicalEntries entries
  | marked _ form => hasNaN_canonical form

theorem hasNaN_canonicalItems : ∀ items : List Value,
    Canonical.hasNaNItems (canonicalItems items) = hasNaNItems items
  | []            => rfl
  | item :: items => congrArg₂ or (hasNaN_canonical item) (hasNaN_canonicalItems items)

theorem hasNaN_canonicalEntries : ∀ entries : List (String × Value),
    Canonical.hasNaNEntries (canonicalEntries entries) = hasNaNEntries entries
  | []                    => rfl
  | (_, value) :: entries => congrArg₂ or (hasNaN_canonical value) (hasNaN_canonicalEntries entries)

end

/-! ## Equality -/

mutual

theorem equal_iff : ∀ v w : Value, equal v w = true ↔ v.canonical = w.canonical ∧ v.hasNaN = false
  | nil, w | boolean _, w | integer _, w | string _, w | keyword _, w | symbol _, w | builtin _, w
  | closure _ _ _, w => by cases w <;> simp [equal, canonical, hasNaN]
  | float x, w => by
      cases w with
      | float y => simp only [equal, canonical, hasNaN, Binary64.beq_iff_canonical, Canonical.float.injEq]
      | _       => simp [equal, canonical]
  | list xs, w => by
      cases w with
      | list ys | vector ys =>
          simp only [equal, canonical, hasNaN, equalItems_iff xs ys, Canonical.sequence.injEq]
      | _ => simp [equal, canonical]
  | vector xs, w => by
      cases w with
      | list ys | vector ys =>
          simp only [equal, canonical, hasNaN, equalItems_iff xs ys, Canonical.sequence.injEq]
      | _ => simp [equal, canonical]
  | map es, w => by
      cases w with
      | map fs => simp only [equal, canonical, hasNaN, equalEntries_iff es fs, Canonical.map.injEq]
      | _      => simp [equal, canonical]
  | marked m a, w => by
      cases w with
      | marked n b =>
          simp only [equal, canonical, hasNaN, Bool.and_eq_true, decide_eq_true_eq, equal_iff a b,
            Canonical.marked.injEq, and_assoc]
      | _ => simp [equal, canonical]

theorem equalItems_iff : ∀ xs ys : List Value,
    equalItems xs ys = true ↔ canonicalItems xs = canonicalItems ys ∧ hasNaNItems xs = false
  | [], [] => by simp [equalItems, hasNaNItems]
  | [], _ :: _ => by simp [equalItems, canonicalItems]
  | _ :: _, [] => by simp [equalItems, canonicalItems]
  | x :: xs, y :: ys => by
      simp only [equalItems, canonicalItems, hasNaNItems, Bool.and_eq_true, equal_iff x y, equalItems_iff xs ys,
        List.cons.injEq, Bool.or_eq_false_iff]
      exact and_and_and_comm

theorem equalEntries_iff : ∀ es fs : List (String × Value),
    equalEntries es fs = true ↔ canonicalEntries es = canonicalEntries fs ∧ hasNaNEntries es = false
  | [], [] => by simp [equalEntries, hasNaNEntries]
  | [], _ :: _ => by simp [equalEntries, canonicalEntries]
  | _ :: _, [] => by simp [equalEntries, canonicalEntries]
  | (k, x) :: es, (l, y) :: fs => by
      simp only [equalEntries, canonicalEntries, hasNaNEntries, Bool.and_eq_true, decide_eq_true_eq, equal_iff x y,
        equalEntries_iff es fs, List.cons.injEq, Prod.mk.injEq, Bool.or_eq_false_iff]
      rw [← and_assoc (a := k = l)]
      exact and_and_and_comm

end

/-- **Values are equal** if their canonical forms are the same and the first one contains no NaN. -/
theorem beq_iff_canonical {v w : Value} : (v == w) = true ↔ v.canonical = w.canonical ∧ v.hasNaN = false :=
  equal_iff v w

/-! ## Maps -/

theorem find?_canonicalEntries (key : String) (entries : Entries Value) :
    Entries.find? key (canonicalEntries entries) = (Entries.find? key entries).map canonical := by
  induction entries with
  | nil => rfl
  | cons e entries ih =>
      rw [canonicalEntries, Entries.find?, Entries.find?]
      split
      · rfl
      · exact ih

/-- **The canonical form of a map is a finite function**: it is determined by what the keys lead to. -/
theorem canonical_map_eq_iff {es fs : Entries Value} (hes : es.Ordered) (hfs : fs.Ordered) :
    (map es).canonical = (map fs).canonical ↔
      ∀ key, (Entries.find? key es).map canonical = (Entries.find? key fs).map canonical := by
  have hentries : (map es).canonical = (map fs).canonical ↔ canonicalEntries es = canonicalEntries fs := by
    rw [canonical, canonical, Canonical.map.injEq]
  simp only [hentries, ← find?_canonicalEntries]
  constructor
  · intro h key
    rw [h]
  · intro h
    apply Entries.Ordered.ext _ _ h
    · rw [canonicalEntries_eq_map]
      exact hes.map_snd canonical
    · rw [canonicalEntries_eq_map]
      exact hfs.map_snd canonical

theorem hasNaNEntries_eq_false_iff {entries : List (String × Value)} :
    hasNaNEntries entries = false ↔ ∀ e ∈ entries, e.2.hasNaN = false := by
  induction entries with
  | nil => simp [hasNaNEntries]
  | cons e entries ih => rw [hasNaNEntries, Bool.or_eq_false_iff, ih, List.forall_mem_cons]

/-- **Maps are equal** if they have as many entries, and every key of the first one leads to equal values in both. -/
theorem beq_map_iff {es fs : Entries Value} (hes : es.Ordered) (hfs : fs.Ordered) :
    (map es == map fs) = true ↔ es.length = fs.length ∧
      ∀ key v, Entries.find? key es = some v → ∃ w, Entries.find? key fs = some w ∧ (v == w) = true := by
  rw [beq_iff_canonical, canonical_map_eq_iff hes hfs]
  constructor
  · rintro ⟨hfind, hnan⟩
    have hentries : canonicalEntries es = canonicalEntries fs :=
      Canonical.map.inj ((canonical_map_eq_iff hes hfs).mpr hfind)
    refine ⟨?_, fun key v hv => ?_⟩
    · have hlength := congrArg List.length hentries
      rwa [canonicalEntries_eq_map, canonicalEntries_eq_map, List.length_map, List.length_map] at hlength
    · have hform := hfind key
      rw [hv, Option.map_some] at hform
      obtain ⟨w, hw, hcanonical⟩ := Option.map_eq_some_iff.mp hform.symm
      have hv_nan : v.hasNaN = false := hasNaNEntries_eq_false_iff.mp hnan _ (Entries.mem_of_find? hv)
      exact ⟨w, hw, beq_iff_canonical.mpr ⟨hcanonical.symm, hv_nan⟩⟩
  · rintro ⟨hlength, hfound⟩
    refine ⟨fun key => ?_, hasNaNEntries_eq_false_iff.mpr fun e he => ?_⟩
    · cases hv : Entries.find? key es with
      | some v =>
          obtain ⟨w, hw, hequal⟩ := hfound key v hv
          rw [hw, Option.map_some, Option.map_some, (beq_iff_canonical.mp hequal).1]
      | none =>
          cases hw : Entries.find? key fs with
          | none   => rfl
          | some w =>
              have hsome : ∀ key v, Entries.find? key es = some v → ∃ w, Entries.find? key fs = some w :=
                fun key v hv => (hfound key v hv).imp fun _ h => h.1
              obtain ⟨v, hv'⟩ := hes.exists_find?_of_length_eq hlength hsome hw
              rw [hv] at hv'
              cases hv'
    · obtain ⟨w, -, hequal⟩ := hfound e.1 e.2 (Entries.find?_of_mem hes.nodup_keys he)
      exact (beq_iff_canonical.mp hequal).2

/-! ## The laws -/

/-- Of two values with the same canonical form both contain a NaN, or neither does. -/
theorem beq_symm {v w : Value} (h : (v == w) = true) : (w == v) = true := by
  obtain ⟨hform, hnan⟩ := beq_iff_canonical.mp h
  refine beq_iff_canonical.mpr ⟨hform.symm, ?_⟩
  rw [← hasNaN_canonical, ← hform, hasNaN_canonical, hnan]

theorem beq_comm (v w : Value) : (v == w) = (w == v) := Bool.eq_iff_iff.mpr ⟨beq_symm, beq_symm⟩

theorem beq_trans {u v w : Value} (huv : (u == v) = true) (hvw : (v == w) = true) : (u == w) = true := by
  obtain ⟨huv, hnan⟩ := beq_iff_canonical.mp huv
  obtain ⟨hvw, -⟩ := beq_iff_canonical.mp hvw
  exact beq_iff_canonical.mpr ⟨huv.trans hvw, hnan⟩

/-- A value equals itself unless it contains a NaN. -/
theorem beq_self_iff (v : Value) : (v == v) = true ↔ v.hasNaN = false := by
  rw [beq_iff_canonical]
  exact and_iff_right rfl

end Value

/-- **Equality is the equality of canonical forms**, between values that contain no NaN outside of functions, where the
canonical form of a map is a finite function from keys. It is therefore symmetric and transitive, a value equals itself
just if it contains no NaN, and an integer never equals a float. -/
theorem equality_is_canonical :
    (∀ v w : Value, (v == w) = true ↔ v.canonical = w.canonical ∧ v.hasNaN = false) ∧
    (∀ es fs : Entries Value, es.Ordered → fs.Ordered →
      ((Value.map es).canonical = (Value.map fs).canonical ↔
        ∀ key, (Entries.find? key es).map Value.canonical = (Entries.find? key fs).map Value.canonical) ∧
      ((Value.map es == Value.map fs) = true ↔ es.length = fs.length ∧
        ∀ key v, Entries.find? key es = some v → ∃ w, Entries.find? key fs = some w ∧ (v == w) = true)) ∧
    (∀ v w : Value, (v == w) = (w == v)) ∧
    (∀ u v w : Value, (u == v) = true → (v == w) = true → (u == w) = true) ∧
    (∀ v : Value, (v == v) = true ↔ v.hasNaN = false) ∧
    (∀ (n : Int64) (x : Float),
      (Value.integer n == Value.float x) = false ∧ (Value.float x == Value.integer n) = false) := by
  refine ⟨fun v w => Value.beq_iff_canonical, ?_, Value.beq_comm, ?_, Value.beq_self_iff, fun n x => ⟨rfl, rfl⟩⟩
  · intro es fs hes hfs
    exact ⟨Value.canonical_map_eq_iff hes hfs, Value.beq_map_iff hes hfs⟩
  · intro u v w huv hvw
    exact Value.beq_trans huv hvw

/-- Two maps that differ in everything that a canonical form leaves out. -/
theorem equal_maps_of_lists_and_functions :
    let es : Entries Value := [(":a", .list [.float 0.0]), (":b", .builtin .list)]
    let fs : Entries Value := [(":a", .vector [.float (-0.0)]), (":b", .closure [] .nil ⟨0⟩)]
    es.Ordered ∧ fs.Ordered ∧ (Value.map es == Value.map fs) = true ∧ (Value.map fs == Value.map es) = true ∧
      ∀ key, (Entries.find? key es).map Value.canonical = (Entries.find? key fs).map Value.canonical := by
  intro es fs
  obtain ⟨hequal, hmaps, hsymm, -⟩ := equality_is_canonical
  have hkeys : ":a" < ":b" := String.lt_iff_toList_lt.mpr (by decide)
  have hes : es.Ordered := List.pairwise_pair.mpr hkeys
  have hfs : fs.Ordered := List.pairwise_pair.mpr hkeys
  have hform : (Value.map es).canonical = (Value.map fs).canonical := by
    have hzero : Binary64.canonical 0.0 = Binary64.canonical (-0.0) := by decide
    simp only [es, fs, Value.canonical, Value.canonicalEntries, Value.canonicalItems, hzero]
  have hes_fs : (Value.map es == Value.map fs) = true := (hequal _ _).mpr ⟨hform, rfl⟩
  exact ⟨hes, hfs, hes_fs, (hsymm _ _).symm.trans hes_fs, (hmaps es fs hes hfs).1.mp hform⟩

end SmallLisp
