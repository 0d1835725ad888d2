import Mathlib

/-!
# Insertion-ordered dictionaries

The `OrderedDict` of the Python standard library: a finite map that remembers an
order of its keys. The entries are a list without repeated keys, oldest first,
and that there are no repetitions is part of the type.

Facts about the operations are stated on membership of a key-value pair, which
is what an invariant of the form "every entry satisfies ..." needs.
-/

universe u v

/-- A dictionary with an order on its entries, oldest first. -/
structure OrderedDict (κ : Type u) (α : Type v) where
  entries : List (κ × α)
  nodup : (entries.map Prod.fst).Nodup

namespace OrderedDict

variable {κ : Type u} {α : Type v}

/-- The empty dictionary. -/
def empty : OrderedDict κ α :=
  ⟨[], List.nodup_nil⟩

variable [DecidableEq κ]

/-- `len(dict)`. -/
def size (dict : OrderedDict κ α) : ℕ :=
  dict.entries.length

/-- `dict.get(key)`. -/
def get? (dict : OrderedDict κ α) (key : κ) : Option α :=
  (dict.entries.find? fun entry => entry.1 = key).map Prod.snd

/-- `dict.pop(key, None)`. -/
def pop (key : κ) (dict : OrderedDict κ α) : OrderedDict κ α where
  entries := dict.entries.filter fun entry => entry.1 ≠ key
  nodup := dict.nodup.sublist ((List.filter_sublist).map Prod.fst)

/-- The entry placed last, any older entry of the key dropped: the effect of
`dict[key] = value` followed by `dict.move_to_end(key)`. -/
def setLast (key : κ) (value : α) (dict : OrderedDict κ α) : OrderedDict κ α where
  entries := (dict.pop key).entries ++ [(key, value)]
  nodup := by
    rw [List.map_append, List.nodup_append]
    refine ⟨(dict.pop key).nodup, by simp, ?_⟩
    intro other otherMem
    simp only [pop, List.mem_map, List.mem_filter] at otherMem
    rcases otherMem with ⟨entry, ⟨-, differs⟩, rfl⟩
    simpa using differs

/-- `dict[key] = value`: an entry of the key keeps its place. -/
def set (key : κ) (value : α) (dict : OrderedDict κ α) : OrderedDict κ α where
  entries :=
    if key ∈ dict.entries.map Prod.fst then
      dict.entries.map fun entry => if entry.1 = key then (key, value) else entry
    else dict.entries ++ [(key, value)]
  nodup := by
    split_ifs with present
    · have keys : (dict.entries.map fun entry => if entry.1 = key then (key, value) else entry).map
          Prod.fst = dict.entries.map Prod.fst := by
        rw [List.map_map]
        refine List.map_congr_left fun entry _ => ?_
        rw [Function.comp_apply]
        split_ifs with same
        · exact same.symm
        · rfl
      rw [keys]
      exact dict.nodup
    · rw [List.map_append, List.nodup_append]
      refine ⟨dict.nodup, by simp, ?_⟩
      rintro other otherMem _ (_ | ⟨_, ⟨⟩⟩) rfl
      exact present otherMem

/-- `dict.move_to_end(key)` for a key that is present. -/
def moveToEnd (key : κ) (dict : OrderedDict κ α) : OrderedDict κ α :=
  match dict.get? key with
  | some value => dict.setLast key value
  | none => dict

/-- `dict.popitem(last=False)`. -/
def popFirst (dict : OrderedDict κ α) : OrderedDict κ α where
  entries := dict.entries.tail
  nodup := dict.nodup.sublist ((List.tail_sublist _).map Prod.fst)

/-- `while len(dict) > capacity: dict.popitem(last=False)`. -/
def trim (capacity : ℕ) (dict : OrderedDict κ α) : OrderedDict κ α :=
  if capacity < dict.size then trim capacity dict.popFirst else dict
termination_by dict.size
decreasing_by
  simp only [size, popFirst, List.length_tail] at *
  omega

variable {dict : OrderedDict κ α} {key other : κ} {value data : α} {capacity : ℕ}

theorem get?_eq_some_iff : dict.get? key = some value ↔ (key, value) ∈ dict.entries := by
  constructor
  · intro found
    simp only [get?, Option.map_eq_some_iff] at found
    rcases found with ⟨⟨key', value'⟩, located, rfl⟩
    have sameKey := List.find?_some located
    simp only [decide_eq_true_eq] at sameKey
    subst sameKey
    exact List.mem_of_find?_eq_some located
  · intro present
    obtain ⟨entry, located⟩ :
        ∃ entry, dict.entries.find? (fun entry => entry.1 = key) = some entry := by
      rw [← Option.isSome_iff_exists, List.find?_isSome]
      exact ⟨(key, value), present, by simp⟩
    have sameKey := List.find?_some located
    simp only [decide_eq_true_eq] at sameKey
    have entryMem := List.mem_of_find?_eq_some located
    have same : entry = (key, value) :=
      List.inj_on_of_nodup_map dict.nodup entryMem present sameKey
    simp [get?, located, same]

@[simp]
theorem mem_pop : (key, value) ∈ (dict.pop other).entries ↔
    (key, value) ∈ dict.entries ∧ key ≠ other := by
  simp [pop]

@[simp]
theorem mem_setLast : (key, value) ∈ (dict.setLast other data).entries ↔
    ((key, value) ∈ dict.entries ∧ key ≠ other) ∨ (key = other ∧ value = data) := by
  simp [setLast]

theorem get?_pop_self : (dict.pop key).get? key = none := by
  rw [Option.eq_none_iff_forall_ne_some]
  intro value found
  exact (mem_pop.mp (get?_eq_some_iff.mp found)).2 rfl

theorem get?_pop_of_ne (differs : key ≠ other) : (dict.pop other).get? key = dict.get? key := by
  ext value
  simp [get?_eq_some_iff, differs]

theorem get?_setLast_of_ne (differs : key ≠ other) :
    (dict.setLast other data).get? key = dict.get? key := by
  ext value
  simp [get?_eq_some_iff, differs]

@[simp]
theorem mem_set : (key, value) ∈ (dict.set other data).entries ↔
    ((key, value) ∈ dict.entries ∧ key ≠ other) ∨ (key = other ∧ value = data) := by
  unfold set
  dsimp only
  split_ifs with present
  · rw [List.mem_map] at present ⊢
    constructor
    · rintro ⟨entry, mem, kept⟩
      split_ifs at kept with same
      · cases kept
        exact .inr ⟨rfl, rfl⟩
      · subst kept
        exact .inl ⟨mem, same⟩
    · rintro (⟨mem, differs⟩ | ⟨rfl, rfl⟩)
      · exact ⟨_, mem, if_neg differs⟩
      · rcases present with ⟨entry, mem, same⟩
        exact ⟨entry, mem, if_pos same⟩
  · rw [List.mem_append, List.mem_singleton, Prod.mk.injEq]
    constructor
    · rintro (mem | same)
      · refine .inl ⟨mem, ?_⟩
        rintro rfl
        exact present (List.mem_map_of_mem mem)
      · exact .inr same
    · rintro (⟨mem, -⟩ | same)
      · exact .inl mem
      · exact .inr same

theorem get?_set : (dict.set other data).get? key =
    if key = other then some data else dict.get? key := by
  ext value
  split_ifs with same
  · rw [get?_eq_some_iff, mem_set]
    simp [same, eq_comm]
  · rw [get?_eq_some_iff, mem_set, get?_eq_some_iff]
    simp [same]

@[simp]
theorem get?_empty : (empty : OrderedDict κ α).get? key = none := rfl

@[simp]
theorem mem_moveToEnd : (key, value) ∈ (dict.moveToEnd other).entries ↔
    (key, value) ∈ dict.entries := by
  unfold moveToEnd
  cases located : dict.get? other with
  | none => rfl
  | some found =>
      have present := get?_eq_some_iff.mp located
      rw [mem_setLast]
      constructor
      · rintro (⟨old, -⟩ | ⟨rfl, rfl⟩)
        · exact old
        · exact present
      · intro old
        by_cases same : key = other
        · subst same
          have again := get?_eq_some_iff.mpr old
          rw [located] at again
          exact .inr ⟨rfl, (Option.some.inj again).symm⟩
        · exact .inl ⟨old, same⟩

theorem size_moveToEnd : (dict.moveToEnd key).size = dict.size := by
  unfold moveToEnd
  cases located : dict.get? key with
  | none => rfl
  | some found =>
      have present := get?_eq_some_iff.mp located
      have once : (dict.entries.map Prod.fst).count key = 1 :=
        List.count_eq_one_of_mem dict.nodup (List.mem_map_of_mem present)
      have split := List.length_eq_countP_add_countP (fun entry : κ × α => entry.1 = key)
        (l := dict.entries)
      have counted : dict.entries.countP (fun entry => entry.1 = key) = 1 := by
        rw [← once, List.count, List.countP_map]
        rfl
      simp only [setLast, pop, size, List.length_append, List.length_singleton,
        ← List.countP_eq_length_filter]
      simp only [counted] at split
      simpa [Nat.add_comm] using split.symm

theorem size_pop_le : (dict.pop key).size ≤ dict.size :=
  List.length_filter_le _ _

omit [DecidableEq κ] in
theorem mem_of_mem_trim (present : (key, value) ∈ (dict.trim capacity).entries) :
    (key, value) ∈ dict.entries := by
  fun_induction trim capacity dict with
  | case1 dict tooMany ih => exact List.mem_of_mem_tail (ih present)
  | case2 dict within => exact present

omit [DecidableEq κ] in
theorem size_trim_le : (dict.trim capacity).size ≤ capacity := by
  fun_induction trim capacity dict with
  | case1 dict tooMany ih => exact ih
  | case2 dict within => omega

end OrderedDict
