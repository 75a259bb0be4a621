import Mathlib.Data.List.AList
import Mathlib.Data.Set.Card

/-!
# Tables with filtering and a size

A hash map seen through what a program can ask of it: one value a key,
lookup, insertion, removal, dropping the entries a test rejects, and the
number of entries. The map itself is Mathlib's `AList`, whose invariant is
that no key occurs twice; `retain` and `len` are added here.
-/

abbrev Table (κ : Type u) (ν : Type v) := AList (fun _ : κ => ν)

namespace AList

variable {κ : Type u} {ν : Type v}

def retain (p : κ → ν → Bool) (m : Table κ ν) : Table κ ν :=
  ⟨m.entries.filter fun e => p e.1 e.2, m.nodupKeys.sublist List.filter_sublist⟩

def len (m : Table κ ν) : Nat := m.entries.length

@[simp] theorem entries_retain (p : κ → ν → Bool) (m : Table κ ν) :
    (m.retain p).entries = m.entries.filter fun e => p e.1 e.2 := rfl

@[simp] theorem len_empty : len (∅ : Table κ ν) = 0 := rfl

theorem len_retain_le (p : κ → ν → Bool) (m : Table κ ν) : (m.retain p).len ≤ m.len :=
  List.length_filter_le _ _

@[simp] theorem retain_retain (p q : κ → ν → Bool) (m : Table κ ν) :
    (m.retain p).retain q = m.retain fun k v => p k v && q k v := by
  apply AList.ext
  simp [List.filter_filter, Bool.and_comm]

theorem retain_congr {p q : κ → ν → Bool} (m : Table κ ν) (h : ∀ k v, p k v = q k v) :
    m.retain p = m.retain q := by
  rw [show p = q from funext fun k => funext fun v => h k v]

/-- Tables that agree under a test agree under it whatever else is dropped. -/
theorem retain_retain_congr {p : κ → ν → Bool} {m m' : Table κ ν} (h : m.retain p = m'.retain p)
    (q : κ → ν → Bool) : (m.retain q).retain p = (m'.retain q).retain p := by
  have hcomm : ∀ m : Table κ ν, (m.retain q).retain p = (m.retain p).retain q := by
    intro m
    rw [retain_retain, retain_retain]
    exact retain_congr m fun k v => Bool.and_comm _ _
  rw [hcomm, hcomm, h]

/-- Tables that agree under a test agree under every stronger one. -/
theorem retain_congr_of_imp {p q : κ → ν → Bool} {m m' : Table κ ν} (h : m.retain p = m'.retain p)
    (hq : ∀ k v, q k v = true → p k v = true) : m.retain q = m'.retain q := by
  have hstrong : ∀ m : Table κ ν, m.retain q = (m.retain p).retain q := by
    intro m
    rw [retain_retain]
    refine retain_congr m fun k v => ?_
    cases hqv : q k v with
    | false => simp
    | true => simp [hq k v hqv]
  rw [hstrong m, hstrong m', h]

section
variable [DecidableEq κ]

theorem mem_iff_lookup {k : κ} {m : Table κ ν} : k ∈ m ↔ ∃ v, m.lookup k = some v := by
  rw [← lookup_isSome, Option.isSome_iff_exists]

theorem lookup_eq_some_iff {k : κ} {v : ν} {m : Table κ ν} :
    m.lookup k = some v ↔ (⟨k, v⟩ : Sigma fun _ : κ => ν) ∈ m.entries :=
  AList.mem_lookup_iff

/-- Dropping entries leaves a key its value or nothing. -/
@[simp] theorem lookup_retain (p : κ → ν → Bool) (m : Table κ ν) (k : κ) :
    (m.retain p).lookup k = (m.lookup k).filter (p k) := by
  apply Option.ext
  intro v
  rw [lookup_eq_some_iff, Option.filter_eq_some_iff, lookup_eq_some_iff]
  simp

theorem lookup_retain_some {p : κ → ν → Bool} {m : Table κ ν} {k : κ} {v : ν} :
    (m.retain p).lookup k = some v ↔ m.lookup k = some v ∧ p k v = true := by
  rw [lookup_retain, Option.filter_eq_some_iff]

theorem lookup_insert_some {m : Table κ ν} {k k' : κ} {v v' : ν} :
    (m.insert k v).lookup k' = some v' ↔ k' = k ∧ v' = v ∨ k' ≠ k ∧ m.lookup k' = some v' := by
  by_cases hk : k' = k
  · subst hk
    simp [eq_comm]
  · simp [hk, AList.lookup_insert_ne hk]

theorem lookup_erase_some {m : Table κ ν} {k k' : κ} {v : ν} :
    (m.erase k).lookup k' = some v ↔ k' ≠ k ∧ m.lookup k' = some v := by
  by_cases hk : k' = k
  · subst hk
    simp
  · simp [hk, AList.lookup_erase_ne hk]

-- ---------------------------------------------------------------------------
-- Size
-- ---------------------------------------------------------------------------

theorem len_erase_of_mem {m : Table κ ν} {k : κ} (h : k ∈ m) : (m.erase k).len + 1 = m.len := by
  have hk : (m.erase k).keys.length + 1 = m.keys.length := by
    rw [AList.keys_erase]
    exact List.length_erase_add_one h
  simpa [AList.keys, List.keys, len] using hk

theorem erase_of_notMem {m : Table κ ν} {k : κ} (h : k ∉ m) : m.erase k = m :=
  AList.ext (List.kerase_of_notMem_keys h)

theorem len_erase_le (m : Table κ ν) (k : κ) : (m.erase k).len ≤ m.len := by
  by_cases h : k ∈ m
  · have := len_erase_of_mem h
    omega
  · rw [erase_of_notMem h]

theorem len_insert (m : Table κ ν) (k : κ) (v : ν) : (m.insert k v).len = (m.erase k).len + 1 := rfl

theorem len_insert_le (m : Table κ ν) (k : κ) (v : ν) : (m.insert k v).len ≤ m.len + 1 := by
  have := len_erase_le m k
  rw [len_insert]
  omega

theorem len_insert_of_notMem {m : Table κ ν} {k : κ} (h : k ∉ m) (v : ν) :
    (m.insert k v).len = m.len + 1 := by
  rw [len_insert, erase_of_notMem h]

private theorem filter_kerase (p : (Sigma fun _ : κ => ν) → Bool) (k : κ)
    (l : List (Sigma fun _ : κ => ν)) (h : l.NodupKeys) :
    (l.kerase k).filter p = (l.filter p).kerase k := by
  induction l with
  | nil => rfl
  | cons e l ih =>
    obtain ⟨hne, hl⟩ := List.nodupKeys_cons.mp h
    by_cases hk : k = e.1
    · have hnot : k ∉ (l.filter p).keys := by
        intro hm
        obtain ⟨v, hv⟩ := List.exists_of_mem_keys hm
        exact hne (hk ▸ List.mem_keys_of_mem (List.mem_filter.mp hv).1)
      rw [List.kerase_cons_eq hk]
      cases hp : p e
      · rw [List.filter_cons_of_neg (by simp [hp]), List.kerase_of_notMem_keys hnot]
      · rw [List.filter_cons_of_pos hp, List.kerase_cons_eq hk]
    · rw [List.kerase_cons_ne hk]
      cases hp : p e
      · rw [List.filter_cons_of_neg (by simp [hp]), List.filter_cons_of_neg (by simp [hp]), ih hl]
      · rw [List.filter_cons_of_pos hp, List.filter_cons_of_pos hp, List.kerase_cons_ne hk, ih hl]

theorem retain_erase (p : κ → ν → Bool) (m : Table κ ν) (k : κ) :
    (m.erase k).retain p = (m.retain p).erase k :=
  AList.ext (filter_kerase _ k m.entries m.nodupKeys)

theorem retain_insert (p : κ → ν → Bool) (m : Table κ ν) {k : κ} {v : ν} (h : p k v = true) :
    (m.insert k v).retain p = (m.retain p).insert k v := by
  apply AList.ext
  simp only [entries_retain, AList.entries_insert]
  rw [List.filter_cons_of_pos (by simpa using h), filter_kerase _ k m.entries m.nodupKeys]

/-- An inserted entry the test rejects goes, and with it the value it replaced. -/
theorem retain_insert_of_neg (p : κ → ν → Bool) (m : Table κ ν) {k : κ} {v : ν}
    (h : p k v = false) : (m.insert k v).retain p = (m.retain p).erase k := by
  apply AList.ext
  simp only [entries_retain, AList.entries_insert]
  rw [List.filter_cons_of_neg (by simp [h]), filter_kerase _ k m.entries m.nodupKeys]
  rfl

theorem retain_insert_congr {p : κ → ν → Bool} {m m' : Table κ ν} (h : m.retain p = m'.retain p)
    (k : κ) (v : ν) : (m.insert k v).retain p = (m'.insert k v).retain p := by
  cases hp : p k v with
  | true => rw [retain_insert p m hp, retain_insert p m' hp, h]
  | false => rw [retain_insert_of_neg p m hp, retain_insert_of_neg p m' hp, h]

theorem retain_erase_congr {p : κ → ν → Bool} {m m' : Table κ ν} (h : m.retain p = m'.retain p)
    (k : κ) : (m.erase k).retain p = (m'.erase k).retain p := by
  rw [retain_erase, retain_erase, h]

end

end AList
