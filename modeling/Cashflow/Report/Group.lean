import Std.Data.TreeMap

/-!
# Rows gathered by number

Every row has a number, such as that of its period, and a cell. `Groups.ofRows` gathers the cells of
the rows of each number, in the order of the rows, in one pass:

* `getD_ofRows` : the group of a number is what a search through all rows finds (`cellsIn`);
* `mem_distinct` and `distinct_ascends` : `distinct` has the numbers that occur, in ascending order.
-/

namespace Cashflow

abbrev Groups (β : Type) := Std.TreeMap Int (List β)

/-- The cells of the rows of a number. -/
def cellsIn {β : Type} (p : Int) (rows : List (Int × β)) : List β :=
  (rows.filter fun r => r.1 = p).map Prod.snd

namespace Groups
variable {β : Type}

/-- The groups with one row more in front. -/
def addFirst (r : Int × β) (g : Groups β) : Groups β := g.alter r.1 fun cells => r.2 :: cells.getD []

def ofRows (rows : List (Int × β)) : Groups β := rows.foldr addFirst ∅

/-- The numbers of rows, ascending. -/
def distinct (ps : List Int) : List Int := (ofRows (ps.map fun p => (p, ()))).keys

theorem getD_ofRows (rows : List (Int × β)) (p : Int) : (ofRows rows).getD p [] = cellsIn p rows := by
  induction rows with
  | nil => exact Std.TreeMap.getD_emptyc
  | cons r rest ih =>
    rw [cellsIn] at ih
    rw [ofRows, List.foldr_cons, ← ofRows, addFirst, Std.TreeMap.getD_alter]
    by_cases h : r.1 = p
    · simp [cellsIn, h, ← ih, Std.TreeMap.getD_eq_getD_getElem?]
    · simp [cellsIn, h, ih]

theorem mem_ofRows (rows : List (Int × β)) (p : Int) : p ∈ ofRows rows ↔ p ∈ rows.map Prod.fst := by
  induction rows with
  | nil => simp [ofRows]
  | cons r rest ih =>
    rw [ofRows, List.foldr_cons, ← ofRows, addFirst, Std.TreeMap.mem_alter]
    by_cases h : r.1 = p
    · simp [h]
    · simp [h, Ne.symm h, ih]

theorem mem_distinct (ps : List Int) (p : Int) : p ∈ distinct ps ↔ p ∈ ps := by
  simp [distinct, mem_ofRows]

theorem distinct_ascends (ps : List Int) : (distinct ps).Pairwise (· < ·) :=
  Std.TreeMap.ordered_keys.imp fun h => Std.compare_eq_lt.1 h

end Groups

end Cashflow
