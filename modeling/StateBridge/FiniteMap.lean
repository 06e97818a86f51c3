set_option autoImplicit false

namespace StateBridge

structure FiniteMap (K V : Type) where
  entries : List (K × V)
  distinct : (entries.map Prod.fst).Nodup

namespace FiniteMap

variable {K V : Type} [DecidableEq K]

def empty : FiniteMap K V := ⟨[], List.nodup_nil⟩

omit [DecidableEq K] in
instance : Inhabited (FiniteMap K V) := ⟨⟨[], List.nodup_nil⟩⟩

def find? (map : FiniteMap K V) (key : K) : Option V :=
  (map.entries.find? fun entry => entry.1 = key).map Prod.snd

def contains (map : FiniteMap K V) (key : K) : Bool := (map.find? key).isSome

omit [DecidableEq K] in
def size (map : FiniteMap K V) : Nat := map.entries.length

omit [DecidableEq K] in
def isEmpty (map : FiniteMap K V) : Bool := map.entries.isEmpty

def erase (map : FiniteMap K V) (key : K) : FiniteMap K V where
  entries := map.entries.filter fun entry => entry.1 ≠ key
  distinct := map.distinct.sublist (List.filter_sublist.map Prod.fst)

def insert (map : FiniteMap K V) (key : K) (value : V) : FiniteMap K V where
  entries := (key, value) :: (map.erase key).entries
  distinct := by
    rw [List.map_cons, List.nodup_cons]
    constructor
    next => simp [erase]
    next => exact (map.erase key).distinct

@[simp] theorem find?_empty (key : K) : (empty : FiniteMap K V).find? key = none := rfl

@[simp] theorem find?_insert_self (map : FiniteMap K V) (key : K) (value : V) :
    (map.insert key value).find? key = some value := by
  simp [find?, insert]

@[simp] theorem find?_erase_self (map : FiniteMap K V) (key : K) :
    (map.erase key).find? key = none := by
  simp [find?, erase]

theorem find?_erase_of_ne (map : FiniteMap K V) {key other : K} (differ : other ≠ key) :
    (map.erase key).find? other = map.find? other := by
  simp only [find?, erase, List.find?_filter]
  congr 2
  funext entry
  by_cases same : entry.1 = other
  next => simp [same, differ]
  next => simp [same]

theorem find?_insert_of_ne (map : FiniteMap K V) {key other : K} (value : V)
    (differ : other ≠ key) : (map.insert key value).find? other = map.find? other := by
  rw [← find?_erase_of_ne map differ]
  simp [find?, insert, Ne.symm differ]

theorem find?_insert (map : FiniteMap K V) (key other : K) (value : V) :
    (map.insert key value).find? other = if other = key then some value else map.find? other := by
  split
  next same => rw [same]; exact find?_insert_self map key value
  next differ => exact find?_insert_of_ne map value differ

theorem find?_erase (map : FiniteMap K V) (key other : K) :
    (map.erase key).find? other = if other = key then none else map.find? other := by
  split
  next same => rw [same]; exact find?_erase_self map key
  next differ => exact find?_erase_of_ne map differ

omit [DecidableEq K] in
theorem isEmpty_eq (map : FiniteMap K V) : map.isEmpty = (map.size == 0) := by
  obtain ⟨entries, distinct⟩ := map
  cases entries <;> rfl

theorem find?_eq_none_iff {map : FiniteMap K V} {key : K} :
    map.find? key = none ↔ key ∉ map.entries.map Prod.fst := by
  simp only [find?, Option.map_eq_none_iff, List.find?_eq_none, decide_eq_true_eq, List.mem_map,
    not_exists, not_and]

theorem entries_erase_of_find?_none {map : FiniteMap K V} {key : K}
    (missing : map.find? key = none) : (map.erase key).entries = map.entries := by
  apply List.filter_eq_self.2
  intro entry member
  have absent := find?_eq_none_iff.1 missing
  simp only [ne_eq, decide_eq_true_eq]
  rintro rfl
  exact absent (List.mem_map_of_mem member)

theorem mem_entries_iff {map : FiniteMap K V} {key : K} {value : V} :
    (key, value) ∈ map.entries ↔ map.find? key = some value := by
  obtain ⟨entries, distinct⟩ := map
  induction entries with
  | nil => simp [find?]
  | cons entry rest ih =>
    obtain ⟨fresh, distinct⟩ := List.nodup_cons.1 distinct
    have tail := ih distinct
    simp only [find?, List.mem_cons, List.find?_cons] at tail ⊢
    by_cases same : entry.1 = key
    next =>
      subst same
      have outside : (entry.1, value) ∉ rest := fun member => fresh (List.mem_map.2 ⟨_, member, rfl⟩)
      simp [outside, Prod.ext_iff, eq_comm]
    next => simp [same, tail, Prod.ext_iff, Ne.symm same]

theorem entries_insert_of_find?_none {map : FiniteMap K V} {key : K}
    (missing : map.find? key = none) (value : V) :
    (map.insert key value).entries = (key, value) :: map.entries :=
  congrArg _ (entries_erase_of_find?_none missing)

theorem entries_perm_of_find?_some {map : FiniteMap K V} {key : K} {value : V}
    (present : map.find? key = some value) :
    map.entries.Perm ((key, value) :: (map.erase key).entries) := by
  obtain ⟨entries, distinct⟩ := map
  induction entries with
  | nil => cases present
  | cons entry rest ih =>
    obtain ⟨fresh, distinct⟩ := List.nodup_cons.1 distinct
    simp only [find?, List.find?_cons] at present
    by_cases same : entry.1 = key
    next =>
      subst same
      simp only [decide_true, Option.map_some, Option.some.injEq] at present
      subst present
      have missing : find? ⟨rest, distinct⟩ entry.1 = none := find?_eq_none_iff.2 fresh
      have kept := entries_erase_of_find?_none missing
      simp only [erase, ne_eq, decide_not] at kept
      simp [erase, kept]
    next =>
      simp only [same, decide_false] at present
      have tail := ih distinct present
      simp only [erase, List.filter_cons, ne_eq, same, not_false_eq_true, decide_true, if_true]
      exact (tail.cons entry).trans (.swap ..)

theorem size_erase (map : FiniteMap K V) (key : K) :
    map.size = (map.erase key).size + if (map.find? key).isSome then 1 else 0 := by
  cases present : map.find? key with
  | none => simp [size, entries_erase_of_find?_none present]
  | some value => exact (entries_perm_of_find?_some present).length_eq

theorem size_insert_of_find?_none {map : FiniteMap K V} {key : K} (missing : map.find? key = none)
    (value : V) : (map.insert key value).size = map.size + 1 := by
  rw [size, entries_insert_of_find?_none missing]
  rfl

theorem size_insert_of_find?_some {map : FiniteMap K V} {key : K} (present : (map.find? key).isSome)
    (value : V) : (map.insert key value).size = map.size := by
  have shrunk := size_erase map key
  simp only [present, if_true] at shrunk
  simp only [insert, size, List.length_cons] at shrunk ⊢
  exact shrunk.symm

end FiniteMap

end StateBridge
