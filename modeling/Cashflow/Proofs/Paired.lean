import Mathlib.Data.List.Forall2
import Mathlib.Logic.Relator
import Cashflow.Keyed

/-!
# Maps that go together

Two maps go together when their entries do, one by one in their order: the keys by one relation, the
values by another (`Keyed.Paired`). Where the relation on keys is one to one, looking up keys that
go together gives values that do (`Paired.get?`), and maps stay together when such keys are put
(`Paired.put`).
-/

namespace Cashflow

theorem eq_map_of_forall₂ {β γ : Type} {f : β → γ} {l : List β} {l' : List γ}
    (h : List.Forall₂ (fun b c => c = f b) l l') : l' = l.map f := by
  induction h with
  | nil => rfl
  | cons hc _ ih => rw [List.map_cons, hc, ih]

theorem biUnique_eq {κ : Type} : Relator.BiUnique (Eq : κ → κ → Prop) :=
  ⟨fun _ _ _ h h' => h.trans h'.symm, fun _ _ _ h h' => h.symm.trans h'⟩

variable {κ κ' ν ν' : Type} {K : κ → κ' → Prop} {V : ν → ν' → Prop}

namespace Keyed

/-! ## Lists of entries -/

section Entries
variable [DecidableEq κ] [DecidableEq κ'] (hK : Relator.BiUnique K)
include hK

theorem find_paired {l : List (κ × ν)} {l' : List (κ' × ν')}
    (h : List.Forall₂ (fun p p' => K p.1 p'.1 ∧ V p.2 p'.2) l l') {k : κ} {k' : κ'}
    (hk : K k k') : Option.Rel V (find k l) (find k' l') := by
  induction h with
  | nil => exact .none
  | @cons p p' l l' hp _ ih =>
    have hiff : p.1 = k ↔ p'.1 = k' := Relator.rel_eq hK hp.1 hk
    simp only [find, hiff]
    split
    · exact .some hp.2
    · exact ih

theorem insert_paired {l : List (κ × ν)} {l' : List (κ' × ν')}
    (h : List.Forall₂ (fun p p' => K p.1 p'.1 ∧ V p.2 p'.2) l l') {k : κ} {k' : κ'} {v : ν}
    {v' : ν'} (hk : K k k') (hv : V v v') :
    List.Forall₂ (fun p p' => K p.1 p'.1 ∧ V p.2 p'.2) (insert k v l) (insert k' v' l') := by
  induction h with
  | nil => exact .cons ⟨hk, hv⟩ .nil
  | @cons p p' l l' hp hl ih =>
    have hiff : p.1 = k ↔ p'.1 = k' := Relator.rel_eq hK hp.1 hk
    simp only [insert, hiff]
    split
    · exact .cons ⟨hp.1, hv⟩ hl
    · exact .cons hp ih

end Entries

/-! ## The maps -/

variable [Ord κ] [Std.TransOrd κ] [Ord κ'] [Std.TransOrd κ']

/-- The entries of the maps go together, one by one. -/
def Paired (K : κ → κ' → Prop) (V : ν → ν' → Prop) (m : Keyed κ ν) (m' : Keyed κ' ν') : Prop :=
  List.Forall₂ (fun p p' => K p.1 p'.1 ∧ V p.2 p'.2) m.entries m'.entries

namespace Paired

theorem empty : Paired K V (Keyed.empty : Keyed κ ν) (Keyed.empty : Keyed κ' ν') := .nil

variable {m : Keyed κ ν} {m' : Keyed κ' ν'}

theorem entries_eq_map {f : ν → ν'} {m' : Keyed κ ν'}
    (h : Paired Eq (fun v v' => v' = f v) m m') :
    m'.entries = m.entries.map fun p => (p.1, f p.2) :=
  eq_map_of_forall₂ (h.imp fun _ _ hp => Prod.ext hp.1.symm hp.2)

variable [DecidableEq κ] [DecidableEq κ'] (h : Paired K V m m') (hK : Relator.BiUnique K)
include h hK

theorem get? {k : κ} {k' : κ'} (hk : K k k') : Option.Rel V (m.get? k) (m'.get? k') := by
  rw [get?_eq_find, get?_eq_find]
  exact find_paired hK h hk

theorem contains {k : κ} {k' : κ'} (hk : K k k') : m'.contains k' = m.contains k := by
  have hget := h.get? hK hk
  rw [contains_eq_isSome, contains_eq_isSome]
  generalize m.get? k = x at hget ⊢
  generalize m'.get? k' = x' at hget ⊢
  cases hget <;> rfl

variable [Std.LawfulEqOrd κ] [Std.LawfulEqOrd κ']

theorem put {k : κ} {k' : κ'} {v : ν} {v' : ν'} (hk : K k k') (hv : V v v') :
    Paired K V (m.put k v) (m'.put k' v') := by
  rw [Paired, entries_put, entries_put]
  exact insert_paired hK h hk hv

end Paired

end Keyed

end Cashflow
