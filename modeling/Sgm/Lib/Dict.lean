/-
# Dictionaries in insertion order

A dictionary is its list of items, in the order the keys were first inserted,
with no key twice: assigning to a key that is there keeps its place, removing
and inserting again moves it to the end.

Key definitions: `Dict`, `Dict.get?`, `Dict.set`, `Dict.pop`, `Dict.keys`,
`Dict.values`.
Key theorems: `Dict.get?_set`, `Dict.get?_pop`, `Dict.mem_keys`.
-/
import Mathlib

namespace Sgm

/-- The items in insertion order; the keys are distinct. -/
structure Dict (κ ν : Type*) where
  items : List (κ × ν)
  nodup : (items.map Prod.fst).Nodup

namespace Dict

variable {κ ν : Type*}

def empty : Dict κ ν := ⟨[], List.nodup_nil⟩

instance : Inhabited (Dict κ ν) := ⟨empty⟩

def keys (d : Dict κ ν) : List κ := d.items.map Prod.fst

def values (d : Dict κ ν) : List ν := d.items.map Prod.snd

def size (d : Dict κ ν) : ℕ := d.items.length

variable [DecidableEq κ]

def get? (d : Dict κ ν) (k : κ) : Option ν := (d.items.find? (·.1 = k)).map Prod.snd

/-- The items with `v` assigned to `k`. -/
def assign (k : κ) (v : ν) : List (κ × ν) → List (κ × ν)
  | [] => [(k, v)]
  | (k', v') :: l => if k' = k then (k, v) :: l else (k', v') :: assign k v l

theorem keys_assign (k : κ) (v : ν) : ∀ l : List (κ × ν),
    (assign k v l).map Prod.fst =
      if k ∈ l.map Prod.fst then l.map Prod.fst else l.map Prod.fst ++ [k]
  | [] => by simp [assign]
  | (k', v') :: l => by
    by_cases h : k' = k
    · simp [assign, h]
    · have hne : ¬ k = k' := fun he => h he.symm
      simp only [assign, if_neg h, List.map_cons, keys_assign k v l, List.mem_cons, hne, false_or]
      split <;> simp

def set (d : Dict κ ν) (k : κ) (v : ν) : Dict κ ν where
  items := assign k v d.items
  nodup := by
    rw [keys_assign]
    split
    · exact d.nodup
    · rename_i h
      exact List.nodup_append.mpr ⟨d.nodup, List.nodup_singleton k, fun a ha b hb => by
        rintro rfl
        exact h (List.mem_singleton.mp hb ▸ ha)⟩

def pop (d : Dict κ ν) (k : κ) : Dict κ ν where
  items := d.items.filter (·.1 ≠ k)
  nodup := d.nodup.sublist (List.filter_sublist.map _)

@[simp] theorem get?_empty (k : κ) : (empty : Dict κ ν).get? k = none := rfl

theorem find?_assign (k k' : κ) (v : ν) : ∀ l : List (κ × ν),
    ((assign k v l).find? (·.1 = k')).map Prod.snd =
      if k' = k then some v else (l.find? (·.1 = k')).map Prod.snd
  | [] => by
    by_cases h : k = k'
    · simp [assign, h]
    · simp [assign, h, Ne.symm h]
  | (a, b) :: l => by
    by_cases ha : a = k
    · by_cases h : k = k'
      · simp [assign, ha, h]
      · simp [assign, ha, h, Ne.symm h]
    · simp only [assign, if_neg ha, List.find?_cons]
      by_cases hk : a = k'
      · subst hk; simp [ha]
      · simp [hk, find?_assign k k' v l]

theorem get?_set (d : Dict κ ν) (k k' : κ) (v : ν) :
    (d.set k v).get? k' = if k' = k then some v else d.get? k' :=
  find?_assign k k' v d.items

@[simp] theorem get?_set_self (d : Dict κ ν) (k : κ) (v : ν) : (d.set k v).get? k = some v := by
  simp [get?_set]

theorem get?_set_ne (d : Dict κ ν) {k k' : κ} (h : k' ≠ k) (v : ν) :
    (d.set k v).get? k' = d.get? k' := by
  simp [get?_set, h]

theorem find?_filter_ne (k k' : κ) (l : List (κ × ν)) :
    (l.filter (·.1 ≠ k)).find? (·.1 = k') = if k' = k then none else l.find? (·.1 = k') := by
  rw [List.find?_filter]
  split
  · rename_i h
    rw [List.find?_eq_none]
    intro x _
    simp [h]
  · rename_i h
    congr 1
    funext x
    by_cases hx : x.1 = k'
    · simp [hx, h]
    · simp [hx]

theorem get?_pop (d : Dict κ ν) (k k' : κ) :
    (d.pop k).get? k' = if k' = k then none else d.get? k' := by
  unfold get? pop
  rw [find?_filter_ne]
  split <;> rfl

@[simp] theorem get?_pop_self (d : Dict κ ν) (k : κ) : (d.pop k).get? k = none := by
  simp [get?_pop]

theorem get?_pop_ne (d : Dict κ ν) {k k' : κ} (h : k' ≠ k) : (d.pop k).get? k' = d.get? k' := by
  simp [get?_pop, h]

theorem mem_keys (d : Dict κ ν) (k : κ) : k ∈ d.keys ↔ (d.get? k).isSome := by
  simp [keys, get?]

/-- With distinct keys an item is found under its key. -/
theorem find?_of_mem {x : κ × ν} : ∀ l : List (κ × ν), (l.map Prod.fst).Nodup → x ∈ l →
    l.find? (·.1 = x.1) = some x
  | [], _, hx => by cases hx
  | y :: l, hnodup, hx => by
    rw [List.map_cons, List.nodup_cons] at hnodup
    rcases List.mem_cons.mp hx with rfl | hx
    · simp
    · have hne : y.1 ≠ x.1 := fun he => hnodup.1 (he ▸ List.mem_map_of_mem hx)
      rw [List.find?_cons, decide_eq_false hne]
      exact find?_of_mem l hnodup.2 hx

theorem mem_values (d : Dict κ ν) (v : ν) : v ∈ d.values ↔ ∃ k, d.get? k = some v := by
  unfold values get?
  constructor
  · intro hv
    obtain ⟨x, hx, rfl⟩ := List.mem_map.mp hv
    exact ⟨x.1, by rw [find?_of_mem d.items d.nodup hx]; rfl⟩
  · rintro ⟨k, hk⟩
    obtain ⟨x, hx, rfl⟩ := Option.map_eq_some_iff.mp hk
    exact List.mem_map_of_mem (List.mem_of_find?_eq_some hx)

theorem get?_eq_none (d : Dict κ ν) (k : κ) : d.get? k = none ↔ k ∉ d.keys := by
  rw [mem_keys, Option.not_isSome_iff_eq_none]

omit [DecidableEq κ] in
theorem mem_keys_of_mem {d : Dict κ ν} {x : κ × ν} (hx : x ∈ d.items) : x.1 ∈ d.keys :=
  List.mem_map_of_mem hx

theorem eq_empty (d : Dict κ ν) (h : ∀ k, d.get? k = none) : d = empty := by
  obtain ⟨items, hnodup⟩ := d
  cases items with
  | nil => rfl
  | cons x l => exact absurd (mem_keys_of_mem List.mem_cons_self) ((get?_eq_none _ x.1).mp (h x.1))

end Dict
end Sgm
