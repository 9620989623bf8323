import Std.Data.ExtTreeMap

/-!
# Maps in order of first insertion

A `Keyed κ ν` is read through `entries`. Putting a new key adds it at the end; putting a present
key changes its value where it stands. `get?_put` and `keys_put` say both.

The entries stand in slots, and an index has the slot of every key, so that looking up and putting
take logarithmic time. The index says nothing that the entries do not say:

* `entries_put` and `get?_eq_find` : both operations on the plain list of entries;
* `ext_entries` : maps with the same entries are equal;
* `keys_nodup` : no key stands twice;
* `entries_ofList` : a list in which no key stands twice is the list of entries of its map.
-/

namespace Cashflow

structure Keyed (κ ν : Type) [Ord κ] [Std.TransOrd κ] where
  slots : Array (κ × ν) := #[]
  index : Std.ExtTreeMap κ Nat := ∅
  placed : ∀ (k : κ) (i : Nat), index[k]? = some i ↔ (slots[i]?).map Prod.fst = some k := by simp

namespace Keyed
variable {κ ν : Type}

/-! ## Lists of entries -/

section Entries
variable [DecidableEq κ]

def find (k : κ) : List (κ × ν) → Option ν
  | [] => none
  | (k', v) :: r => if k' = k then some v else find k r

def insert (k : κ) (v : ν) : List (κ × ν) → List (κ × ν)
  | [] => [(k, v)]
  | (k', v') :: r => if k' = k then (k', v) :: r else (k', v') :: insert k v r

theorem find_insert (k a : κ) (v : ν) (l : List (κ × ν)) :
    find a (insert k v l) = if k = a then some v else find a l := by
  induction l with
  | nil => simp [insert, find]
  | cons e r ih =>
    obtain ⟨k', v'⟩ := e
    by_cases h : k' = k
    · subst h; by_cases ha : k' = a <;> simp [insert, find, ha]
    · by_cases ha : k' = a
      · subst ha; simp [insert, find, h, Ne.symm h]
      · simp [insert, find, h, ha, ih]

theorem map_fst_insert (k : κ) (v : ν) (l : List (κ × ν)) :
    (insert k v l).map Prod.fst =
      if k ∈ l.map Prod.fst then l.map Prod.fst else l.map Prod.fst ++ [k] := by
  induction l with
  | nil => simp [insert]
  | cons e r ih =>
    obtain ⟨k', v'⟩ := e
    by_cases h : k' = k
    · simp [insert, h]
    · rw [insert, if_neg h, List.map_cons, ih]
      by_cases hm : k ∈ r.map Prod.fst <;> simp [hm, Ne.symm h]

theorem mem_insert {k : κ} {v : ν} {x : κ × ν} {l : List (κ × ν)} (h : x ∈ insert k v l) :
    x = (k, v) ∨ x ∈ l := by
  induction l with
  | nil => exact Or.inl (List.mem_singleton.1 h)
  | cons e r ih =>
    obtain ⟨k', v'⟩ := e
    by_cases hk : k' = k
    · rw [insert, if_pos hk, List.mem_cons] at h
      exact h.imp (fun hx => hk ▸ hx) (List.mem_cons_of_mem _)
    · rw [insert, if_neg hk, List.mem_cons] at h
      rcases h with h | h
      · exact Or.inr (h ▸ List.mem_cons_self)
      · exact (ih h).imp_right (List.mem_cons_of_mem _)

theorem find_isSome_iff (k : κ) (l : List (κ × ν)) :
    (find k l).isSome = true ↔ k ∈ l.map Prod.fst := by
  induction l with
  | nil => simp [find]
  | cons e r ih =>
    obtain ⟨k', v'⟩ := e
    by_cases h : k' = k
    · simp [find, h]
    · simp [find, h, Ne.symm h] at ih ⊢; exact ih

theorem insert_of_not_mem (k : κ) (v : ν) (l : List (κ × ν)) (h : k ∉ l.map Prod.fst) :
    insert k v l = l ++ [(k, v)] := by
  induction l with
  | nil => rfl
  | cons e r ih =>
    obtain ⟨k', v'⟩ := e
    simp only [List.map_cons, List.mem_cons, not_or] at h
    rw [insert, if_neg (Ne.symm h.1), ih h.2]; rfl

theorem find_of_not_mem (k : κ) (l : List (κ × ν)) (h : k ∉ l.map Prod.fst) : find k l = none := by
  simpa [← find_isSome_iff] using h

theorem find_of_mem (k : κ) (v : ν) (l : List (κ × ν)) (hl : (l.map Prod.fst).Nodup)
    (h : (k, v) ∈ l) : find k l = some v := by
  induction l with
  | nil => simp at h
  | cons e r ih =>
    obtain ⟨k', v'⟩ := e
    simp only [List.map_cons, List.nodup_cons] at hl
    rcases List.mem_cons.1 h with he | hr
    · cases he; simp [find]
    · have : k' ≠ k := fun he => hl.1 (he ▸ List.mem_map_of_mem hr)
      simp [find, this, ih hl.2 hr]

theorem insert_of_getElem? (k : κ) (v : ν) (l : List (κ × ν)) (hl : (l.map Prod.fst).Nodup)
    (i : Nat) (h : (l[i]?).map Prod.fst = some k) : insert k v l = l.set i (k, v) := by
  induction l generalizing i with
  | nil => simp at h
  | cons e r ih =>
    obtain ⟨k', v'⟩ := e
    simp only [List.map_cons, List.nodup_cons] at hl
    cases i with
    | zero => simp at h; simp [insert, h]
    | succ i =>
      have hk : k ∈ r.map Prod.fst := by
        obtain ⟨e, he, rfl⟩ := Option.map_eq_some_iff.1 h
        exact List.mem_map_of_mem (List.mem_of_getElem? he)
      have : k' ≠ k := fun he => hl.1 (he ▸ hk)
      simp [insert, this, ih hl.2 i h]

end Entries

/-! ## The map -/

variable [Ord κ] [Std.TransOrd κ]

def empty : Keyed κ ν := {}

def entries (m : Keyed κ ν) : List (κ × ν) := m.slots.toList

def keys (m : Keyed κ ν) : List κ := m.entries.map Prod.fst

def values (m : Keyed κ ν) : List ν := m.entries.map Prod.snd

def size (m : Keyed κ ν) : Nat := m.slots.size

def isEmpty (m : Keyed κ ν) : Bool := m.slots.isEmpty

def get? (m : Keyed κ ν) (k : κ) : Option ν :=
  (m.index[k]?).bind fun i => (m.slots[i]?).map Prod.snd

def contains (m : Keyed κ ν) (k : κ) : Bool := m.index.contains k

theorem keys_nodup (m : Keyed κ ν) : m.keys.Nodup := by
  rw [List.Nodup, List.pairwise_iff_getElem]
  intro i j hi hj hij he
  have key (i : Nat) (h : i < m.keys.length) : m.index[m.keys[i]]? = some i := by
    have h' : i < m.slots.size := by simpa [keys, entries] using h
    rw [m.placed]; simp [keys, entries, h']
  have := (key i hi).symm.trans ((congrArg (m.index[·]?) he).trans (key j hj))
  simp at this
  omega

theorem mem_keys_iff (m : Keyed κ ν) (k : κ) : k ∈ m.keys ↔ ∃ i, m.index[k]? = some i := by
  simp [m.placed, keys, entries, List.mem_iff_getElem?]

theorem contains_iff (m : Keyed κ ν) (k : κ) : m.contains k = true ↔ k ∈ m.keys := by
  rw [mem_keys_iff, contains, Std.ExtTreeMap.contains_eq_isSome_getElem?, Option.isSome_iff_exists]

@[simp] theorem entries_empty : (empty : Keyed κ ν).entries = [] := rfl

theorem get?_eq_find [DecidableEq κ] (m : Keyed κ ν) (k : κ) : m.get? k = find k m.entries := by
  unfold get?
  cases h : m.index[k]? with
  | none =>
    have : k ∉ m.keys := by simp [mem_keys_iff, h]
    simp [find_of_not_mem k m.entries this]
  | some i =>
    obtain ⟨e, he, rfl⟩ := Option.map_eq_some_iff.1 ((m.placed k i).1 h)
    have : e ∈ m.entries := by
      rw [entries, List.mem_iff_getElem?]; exact ⟨i, by simpa using he⟩
    simp [he, find_of_mem e.1 e.2 m.entries m.keys_nodup this]

theorem contains_eq_isSome [DecidableEq κ] (m : Keyed κ ν) (k : κ) :
    m.contains k = (m.get? k).isSome := by
  rw [Bool.eq_iff_iff, contains_iff, get?_eq_find, find_isSome_iff, keys]

/-- A key that is found has a place. -/
theorem exists_getElem?_of_get? {m : Keyed κ ν} {k : κ} {v : ν} (h : m.get? k = some v) :
    ∃ i : Nat, m.entries[i]? = some (k, v) := by
  obtain ⟨i, hi, hv⟩ := Option.bind_eq_some_iff.1 h
  obtain ⟨e, he, rfl⟩ := Option.map_eq_some_iff.1 ((m.placed k i).1 hi)
  rw [he] at hv
  cases hv
  exact ⟨i, by rw [entries, Array.getElem?_toList, he]⟩

theorem entries_eq_map_get? [DecidableEq κ] (m : Keyed κ ν) (d : ν) :
    m.entries = m.keys.map fun k => (k, (m.get? k).getD d) := by
  have hnodup : (m.entries.map Prod.fst).Nodup := m.keys_nodup
  have hentry : ∀ e ∈ m.entries, id e = (e.1, (m.get? e.1).getD d) := by
    intro e he
    rw [get?_eq_find, find_of_mem e.1 e.2 m.entries hnodup he]
    rfl
  rw [keys, List.map_map]
  exact (List.map_id _).symm.trans (List.map_congr_left hentry)

/-- The values are those of the keys, in order. -/
theorem values_eq_map_get? [DecidableEq κ] (m : Keyed κ ν) (d : ν) :
    m.values = m.keys.map fun k => (m.get? k).getD d := by
  rw [values, m.entries_eq_map_get? d, List.map_map]
  rfl

@[simp] theorem get?_empty [DecidableEq κ] (a : κ) : (empty : Keyed κ ν).get? a = none := by
  simp [get?_eq_find, find]

/-! ## Putting -/

theorem placed_set {slots : Array (κ × ν)} {index : Std.ExtTreeMap κ Nat}
    (placed : ∀ (k : κ) (i : Nat), index[k]? = some i ↔ (slots[i]?).map Prod.fst = some k)
    (k : κ) (v : ν) (j : Nat) (h : index[k]? = some j) (a : κ) (i : Nat) :
    index[a]? = some i ↔ ((slots.setIfInBounds j (k, v))[i]?).map Prod.fst = some a := by
  rw [placed, Array.getElem?_setIfInBounds]
  by_cases hi : j = i
  · subst hi
    obtain ⟨e, he, rfl⟩ := Option.map_eq_some_iff.1 ((placed k j).1 h)
    obtain ⟨hs, rfl⟩ := Array.getElem?_eq_some_iff.1 he
    simp [hs]
  · simp [hi]

variable [Std.LawfulEqOrd κ]

theorem placed_push {slots : Array (κ × ν)} {index : Std.ExtTreeMap κ Nat}
    (placed : ∀ (k : κ) (i : Nat), index[k]? = some i ↔ (slots[i]?).map Prod.fst = some k)
    (k : κ) (v : ν) (h : index[k]? = none) (a : κ) (i : Nat) :
    (index.insert k slots.size)[a]? = some i ↔ ((slots.push (k, v))[i]?).map Prod.fst = some a := by
  rw [Std.ExtTreeMap.getElem?_insert, Array.getElem?_push]
  by_cases hk : k = a
  · subst hk
    by_cases hi : i = slots.size
    · simp [hi]
    · have := (not_congr (placed k i)).1 (by simp [h])
      simp [hi, this]; omega
  · by_cases hi : i = slots.size
    · have := (not_congr (placed a i)).2 (by simp [hi])
      simp [hk, hi, hi ▸ this]
    · simp [hk, hi, placed a i]

/-- A new key takes a slot at the end, a present one keeps its slot. The map is taken apart first, so
that slots which nothing else holds are changed in place. -/
def put : Keyed κ ν → κ → ν → Keyed κ ν
  | ⟨slots, index, placed⟩, k, v =>
    match h : index[k]? with
    | some i => ⟨slots.setIfInBounds i (k, v), index, placed_set placed k v i h⟩
    | none =>
      let wider := index.insert k slots.size
      ⟨slots.push (k, v), wider, placed_push placed k v h⟩

def ofList (l : List (κ × ν)) : Keyed κ ν := l.foldl (fun m e => m.put e.1 e.2) empty

theorem ofList_concat (l : List (κ × ν)) (e : κ × ν) : ofList (l ++ [e]) = (ofList l).put e.1 e.2 :=
  List.foldl_append

/-! ## What the entries say -/

theorem ext_entries {m n : Keyed κ ν} (h : m.entries = n.entries) : m = n := by
  obtain ⟨s, x, hx⟩ := m
  obtain ⟨t, y, hy⟩ := n
  have hs : s = t := Array.toList_inj.1 h
  subst hs
  have : x = y := Std.ExtTreeMap.ext_getElem? fun k =>
    Option.ext fun i => (hx k i).trans (hy k i).symm
  subst this
  rfl

variable [DecidableEq κ]

theorem entries_put (m : Keyed κ ν) (k : κ) (v : ν) :
    (m.put k v).entries = insert k v m.entries := by
  have nodup := m.keys_nodup
  have mem := m.mem_keys_iff k
  obtain ⟨slots, index, placed⟩ := m
  unfold put
  dsimp only [keys, entries] at *
  split
  · rename_i i h
    rw [insert_of_getElem? k v _ nodup i (by simpa using (placed k i).1 h)]
    simp
  · rename_i h
    rw [insert_of_not_mem k v _ (by simp [mem, h])]
    simp

theorem get?_put (m : Keyed κ ν) (k a : κ) (v : ν) :
    (m.put k v).get? a = if k = a then some v else m.get? a := by
  rw [get?_eq_find, entries_put, find_insert, get?_eq_find]

@[simp] theorem get?_put_self (m : Keyed κ ν) (k : κ) (v : ν) : (m.put k v).get? k = some v := by
  simp [get?_put]

theorem keys_put (m : Keyed κ ν) (k : κ) (v : ν) :
    (m.put k v).keys = if k ∈ m.keys then m.keys else m.keys ++ [k] := by
  rw [keys, entries_put, map_fst_insert, keys]

theorem mem_entries_put {m : Keyed κ ν} {k : κ} {v : ν} {x : κ × ν}
    (h : x ∈ (m.put k v).entries) : x = (k, v) ∨ x ∈ m.entries := by
  rw [entries_put] at h
  exact mem_insert h

theorem mem_values_put {m : Keyed κ ν} {k : κ} {v x : ν} (h : x ∈ (m.put k v).values) :
    x = v ∨ x ∈ m.values := by
  obtain ⟨p, hp, rfl⟩ := List.mem_map.1 h
  exact (mem_entries_put hp).imp (congrArg Prod.snd) List.mem_map_of_mem

theorem entries_put_of_not_mem (m : Keyed κ ν) (k : κ) (v : ν) (h : k ∉ m.keys) :
    (m.put k v).entries = m.entries ++ [(k, v)] := by
  rw [entries_put, insert_of_not_mem k v m.entries h]

theorem entries_put_of_getElem? {m : Keyed κ ν} {i : Nat} {k : κ} {v : ν}
    (h : m.entries[i]? = some (k, v)) (w : ν) :
    (m.put k w).entries = m.entries.set i (k, w) := by
  rw [entries_put]
  exact insert_of_getElem? k w m.entries m.keys_nodup i (by rw [h, Option.map_some])

theorem entries_foldl_put (l : List (κ × ν)) (m : Keyed κ ν) (hl : (l.map Prod.fst).Nodup)
    (hm : ∀ k ∈ l.map Prod.fst, k ∉ m.keys) :
    (l.foldl (fun m e => m.put e.1 e.2) m).entries = m.entries ++ l := by
  induction l generalizing m with
  | nil => simp
  | cons e l ih =>
    obtain ⟨hnew, hrest⟩ := List.forall_mem_cons.1 hm
    rw [List.map_cons, List.nodup_cons] at hl
    have hm' : ∀ k ∈ l.map Prod.fst, k ∉ (m.put e.1 e.2).keys := by
      intro k hk hput
      rw [keys_put, if_neg hnew, List.mem_append, List.mem_singleton] at hput
      rcases hput with hput | rfl
      · exact hrest k hk hput
      · exact hl.1 hk
    rw [List.foldl_cons, ih _ hl.2 hm', entries_put_of_not_mem m e.1 e.2 hnew, List.append_assoc,
      List.singleton_append]

theorem entries_ofList (l : List (κ × ν)) (hl : (l.map Prod.fst).Nodup) : (ofList l).entries = l :=
  entries_foldl_put l empty hl fun _ _ => List.not_mem_nil

end Keyed

end Cashflow
