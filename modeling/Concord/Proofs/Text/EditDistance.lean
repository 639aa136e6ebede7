import Concord.Text.EditDistance
import Mathlib.Data.List.Induction
import Mathlib.Order.Bounds.Defs
import Mathlib.Order.MinMax

/-!
# The edit distance is the least number of edits

`editDistance` fills a table row by row.  This file says what the table holds.

* `Edits n as bs` — there are `n` insertions, deletions and replacements of single characters that
  turn `as` into `bs`, one after the other.
* `cost as bs` — the recursion behind the table, which takes characters off the front.  It is a
  number of edits (`edits_cost`), and no run of edits is shorter (`cost_le_of_edits`), because one
  edit changes it by one at most (`Edit.cost_le`).
* `distanceRow_eq` — the rows of the table are the costs for the fronts of the texts.  They are
  built from the front of the texts on, so there the recursion runs over reversed texts.
* `distanceInPlace` — the same table in two rows that take turns and are written in place.  A place
  that does not exist makes it fail, and `distanceInPlace_eq` says that this never happens.

`editDistance_isLeast` puts these together.
-/

set_option autoImplicit false

namespace Concord

/-! ## Edits -/

/-- One insertion, deletion or replacement of a single character. -/
inductive Edit : List Char → List Char → Prop
  | insert (front back : List Char) (c : Char) : Edit (front ++ back) (front ++ c :: back)
  | delete (front back : List Char) (c : Char) : Edit (front ++ c :: back) (front ++ back)
  | replace (front back : List Char) (c d : Char) :
    Edit (front ++ c :: back) (front ++ d :: back)

/-- A run of so many edits. -/
inductive Edits : Nat → List Char → List Char → Prop
  | refl (as : List Char) : Edits 0 as as
  | step {n : Nat} {as bs cs : List Char} (h : Edit as bs) (hs : Edits n bs cs) :
    Edits (n + 1) as cs

theorem Edit.cons (x : Char) {as bs : List Char} (h : Edit as bs) : Edit (x :: as) (x :: bs) := by
  cases h with
  | insert front back c => exact .insert (x :: front) back c
  | delete front back c => exact .delete (x :: front) back c
  | replace front back c d => exact .replace (x :: front) back c d

/-- Read from behind, an edit is an edit. -/
theorem Edit.reverse {as bs : List Char} (h : Edit as bs) : Edit as.reverse bs.reverse := by
  cases h with
  | insert front back c => simpa using Edit.insert back.reverse front.reverse c
  | delete front back c => simpa using Edit.delete back.reverse front.reverse c
  | replace front back c d => simpa using Edit.replace back.reverse front.reverse c d

namespace Edits

variable {n : Nat} {as bs : List Char}

theorem cons (x : Char) (h : Edits n as bs) : Edits n (x :: as) (x :: bs) := by
  induction h with
  | refl as => exact .refl (x :: as)
  | step h _ ih => exact .step (h.cons x) ih

theorem reverse (h : Edits n as bs) : Edits n as.reverse bs.reverse := by
  induction h with
  | refl as => exact .refl as.reverse
  | step h _ ih => exact .step h.reverse ih

theorem reverse_iff : Edits n as.reverse bs.reverse ↔ Edits n as bs :=
  ⟨fun h ↦ by simpa using h.reverse, reverse⟩

end Edits

/-! ## The recursion -/

/-- What it costs to turn one text into another, worked out from their first characters. -/
def cost : List Char → List Char → Nat
  | [], bs => bs.length
  | a :: as, [] => (a :: as).length
  | a :: as, b :: bs =>
    min (min (cost as (b :: bs) + 1) (cost (a :: as) bs + 1)) (cost as bs + if a = b then 0 else 1)

@[simp] theorem cost_nil (bs : List Char) : cost [] bs = bs.length := by rw [cost]

@[simp] theorem cost_nil_right (as : List Char) : cost as [] = as.length := by
  cases as <;> rw [cost]

theorem cost_cons (a b : Char) (as bs : List Char) :
    cost (a :: as) (b :: bs) =
      min (min (cost as (b :: bs) + 1) (cost (a :: as) bs + 1))
        (cost as bs + if a = b then 0 else 1) := by
  rw [cost]

theorem cost_cons_left_le (a : Char) (as bs : List Char) :
    cost (a :: as) bs ≤ cost as bs + 1 := by
  cases bs with
  | nil => simp
  | cons b bs =>
    rw [cost_cons]
    omega

theorem cost_cons_right_le (as : List Char) (b : Char) (bs : List Char) :
    cost as (b :: bs) ≤ cost as bs + 1 := by
  cases as with
  | nil => simp
  | cons a as =>
    rw [cost_cons]
    omega

theorem cost_cons_cons_le (a b : Char) (as bs : List Char) :
    cost (a :: as) (b :: bs) ≤ cost as bs + 1 := by
  rw [cost_cons]
  split <;> omega

theorem cost_self (as : List Char) : cost as as = 0 := by
  induction as with
  | nil => rw [cost_nil, List.length_nil]
  | cons a as ih => rw [cost_cons, ih, if_pos rfl, Nat.add_zero, Nat.min_zero]

/-! ### It is a number of edits -/

theorem edits_insert (bs : List Char) : Edits bs.length [] bs := by
  induction bs with
  | nil => exact .refl []
  | cons b bs ih => exact .step (.insert [] [] b) (ih.cons b)

theorem edits_delete (as : List Char) : Edits as.length as [] := by
  induction as with
  | nil => exact .refl []
  | cons a as ih => exact .step (.delete [] as a) ih

/-- A first character more to be had costs one edit more. -/
theorem Edits.cons_right (b : Char) {n : Nat} {as bs : List Char} (h : Edits n as bs) :
    Edits (n + 1) as (b :: bs) :=
  .step (.insert [] as b) (h.cons b)

theorem Edits.cons_left (a : Char) {n : Nat} {as bs : List Char} (h : Edits n as bs) :
    Edits (n + 1) (a :: as) bs :=
  .step (.delete [] as a) h

/-- **There are so many edits** as the recursion says. -/
theorem edits_cost (as bs : List Char) : Edits (cost as bs) as bs := by
  fun_induction cost as bs with
  | case1 bs => exact edits_insert bs
  | case2 a as => exact edits_delete (a :: as)
  | case3 a as b bs ihleft ihright ihboth =>
    have hboth : Edits (cost as bs + if a = b then 0 else 1) (a :: as) (b :: bs) := by
      split
      · rename_i h
        rw [h]
        exact ihboth.cons b
      · exact .step (.replace [] as a b) (ihboth.cons b)
    -- the least of three is one of them
    rcases min_choice (min (cost as (b :: bs) + 1) (cost (a :: as) bs + 1))
      (cost as bs + if a = b then 0 else 1) with h | h
    · rw [h]
      rcases min_choice (cost as (b :: bs) + 1) (cost (a :: as) bs + 1) with h | h
      · rw [h]
        exact ihleft.cons_left a
      · rw [h]
        exact ihright.cons_right b
    · rw [h]
      exact hboth

/-! ### No run of edits is shorter -/

theorem cost_insert_le (c : Char) (as cs : List Char) : cost as cs ≤ cost (c :: as) cs + 1 := by
  induction cs with
  | nil => simp; omega
  | cons d cs ih =>
    have h := cost_cons_right_le as d cs
    rw [cost_cons c d]
    omega

theorem cost_replace_le (c d : Char) (as cs : List Char) :
    cost (c :: as) cs ≤ cost (d :: as) cs + 1 := by
  induction cs with
  | nil => simp
  | cons e cs ih =>
    have hboth := cost_cons_cons_le c e as cs
    have hleft := cost_cons_left_le c as (e :: cs)
    have hright := cost_cons_right_le (c :: as) e cs
    rw [cost_cons d e]
    omega

/-- A first character that stays does not make an edit behind it cost more. -/
theorem cost_cons_le_of_le {as bs : List Char} (h : ∀ cs, cost as cs ≤ cost bs cs + 1) (x : Char)
    (cs : List Char) : cost (x :: as) cs ≤ cost (x :: bs) cs + 1 := by
  induction cs with
  | nil => simpa using h []
  | cons e cs ih =>
    have hleft := h (e :: cs)
    have hboth := h cs
    rw [cost_cons, cost_cons]
    omega

/-- **One edit saves one at most.** -/
theorem Edit.cost_le {as bs : List Char} (h : Edit as bs) (cs : List Char) :
    cost as cs ≤ cost bs cs + 1 := by
  cases h with
  | insert front back c =>
    induction front generalizing cs with
    | nil => exact cost_insert_le c back cs
    | cons x front ih => exact cost_cons_le_of_le ih x cs
  | delete front back c =>
    induction front generalizing cs with
    | nil => exact cost_cons_left_le c back cs
    | cons x front ih => exact cost_cons_le_of_le ih x cs
  | replace front back c d =>
    induction front generalizing cs with
    | nil => exact cost_replace_le c d back cs
    | cons x front ih => exact cost_cons_le_of_le ih x cs

theorem cost_le_of_edits {n : Nat} {as bs : List Char} (h : Edits n as bs) : cost as bs ≤ n := by
  induction h with
  | refl as => exact Nat.le_of_eq (cost_self as)
  | @step n as bs cs h _ ih => exact Nat.le_trans (h.cost_le cs) (Nat.succ_le_succ ih)

theorem isLeast_cost (as bs : List Char) : IsLeast {n | Edits n as bs} (cost as bs) :=
  ⟨edits_cost as bs, fun _ ↦ cost_le_of_edits⟩

/-! ## The table -/

/-- What `as` costs against `front` with one, two and more of the characters `bs` before it. -/
def costsFrom (as : List Char) : (front bs : List Char) → List Nat
  | _, [] => []
  | front, b :: bs => cost as (b :: front) :: costsFrom as (b :: front) bs

theorem getElem?_costsFrom (as front bs : List Char) (j : Nat) (hj : j < bs.length) :
    (costsFrom as front bs)[j]? = some (cost as ((bs.take (j + 1)).reverse ++ front)) := by
  induction bs generalizing front j with
  | nil => contradiction
  | cons b bs ih =>
    cases j with
    | zero => rfl
    | succ j =>
      rw [costsFrom, List.getElem?_cons_succ, ih (b :: front) j (Nat.lt_of_succ_lt_succ hj),
        List.take_succ_cons, List.reverse_cons, List.append_assoc, List.singleton_append]

@[simp] theorem length_costsFrom (as front bs : List Char) :
    (costsFrom as front bs).length = bs.length := by
  induction bs generalizing front with
  | nil => rfl
  | cons b bs ih => rw [costsFrom, List.length_cons, ih, List.length_cons]

/-- One row is made of the row above it by the recursion. -/
theorem nextRowFrom_costsFrom (a : Char) (as front bs : List Char) :
    nextRowFrom a (cost as front) (cost (a :: as) front) bs (costsFrom as front bs) =
      costsFrom (a :: as) front bs := by
  induction bs generalizing front with
  | nil => rfl
  | cons b bs ih =>
    rw [costsFrom, nextRowFrom, costsFrom, ← cost_cons, ih]

theorem range'_eq_costsFrom (front bs : List Char) :
    List.range' (front.length + 1) bs.length = costsFrom [] front bs := by
  induction bs generalizing front with
  | nil => rfl
  | cons b bs ih =>
    rw [List.length_cons, List.range'_succ, costsFrom, cost_nil, List.length_cons, ← ih,
      List.length_cons]

/-- **The rows of the table are costs**: the row of `as` has the cost of each front of `bs`. -/
theorem distanceRow_eq (as bs : List Char) :
    distanceRow as bs = cost as.reverse [] :: costsFrom as.reverse [] bs := by
  induction as using List.reverseRecOn with
  | nil =>
    rw [distanceRow, List.foldl_nil, List.range_eq_range', List.range'_succ, List.reverse_nil,
      cost_nil, ← range'_eq_costsFrom]
    rfl
  | append_singleton as a ih =>
    have h := nextRowFrom_costsFrom a as.reverse [] bs
    rw [distanceRow, List.foldl_append, List.foldl_cons, List.foldl_nil, ← distanceRow, ih,
      nextRow, List.reverse_append, List.reverse_singleton, List.singleton_append, ← h]
    simp

theorem length_distanceRow (as bs : List Char) : (distanceRow as bs).length = bs.length + 1 := by
  rw [distanceRow_eq, List.length_cons, length_costsFrom]

theorem getElem?_distanceRow (as bs : List Char) {j : Nat} (hj : j ≤ bs.length) :
    (distanceRow as bs)[j]? = some (cost as.reverse (bs.take j).reverse) := by
  rw [distanceRow_eq]
  cases j with
  | zero => rfl
  | succ j =>
    rw [List.getElem?_cons_succ, getElem?_costsFrom _ _ _ j hj, List.append_nil]

theorem editDistance_eq_cost (a b : String) :
    editDistance a b = cost a.toList.reverse b.toList.reverse := by
  have h := getElem?_distanceRow a.toList b.toList (Nat.le_refl _)
  rw [List.take_length] at h
  rw [editDistance, List.getLast?_eq_getElem?, length_distanceRow, Nat.add_sub_cancel, h,
    Option.getD_some]

/-! ## Two rows in place -/

/-- Writes a value at a place of an array; `none` if it has no such place. -/
def writeAt (xs : Array Nat) (i value : Nat) : Option (Array Nat) :=
  if h : i < xs.size then some (xs.set i value h) else none

section InPlace

variable (as bs : Array Char)

/-- Writes entry `j` of row `i` from the row above it and the entry on its left. -/
def fillEntry (above : Array Nat) (i : Nat) (row : Array Nat) (j : Nat) : Option (Array Nat) := do
  let a ← as[i - 1]?
  let b ← bs[j - 1]?
  let up ← above[j]?
  let left ← row[j - 1]?
  let corner ← above[j - 1]?
  writeAt row j (min (min (up + 1) (left + 1)) (corner + if a = b then 0 else 1))

/-- Writes row `i` over the second of two rows, and lets the rows change places. -/
def fillRow (rows : Array Nat × Array Nat) (i : Nat) : Option (Array Nat × Array Nat) := do
  let row ← writeAt rows.2 0 i
  let row ← (List.range' 1 bs.size).foldlM (fillEntry as bs rows.1 i) row
  return (row, rows.1)

/-- The last entry of the last row, if all reads and writes on the way find their place. -/
def distanceInPlace : Option Nat :=
  if as.size = 0 then some bs.size
  else if bs.size = 0 then some as.size
  else do
    let rows ← (List.range' 1 as.size).foldlM (fillRow as bs)
      (Array.range (bs.size + 1), Array.replicate (bs.size + 1) 0)
    rows.1[bs.size]?

end InPlace

/-- What a loop keeps that never fails. -/
theorem exists_foldlM_range' {α : Type} {f : α → Nat → Option α} {motive : Nat → α → Prop}
    {n : Nat} (start : Nat) (init : α) (base : motive start init)
    (hstep : ∀ k x, start ≤ k → k < start + n → motive k x →
      ∃ y, f x k = some y ∧ motive (k + 1) y) :
    ∃ y, (List.range' start n).foldlM f init = some y ∧ motive (start + n) y := by
  induction n generalizing start init with
  | zero => exact ⟨init, rfl, base⟩
  | succ n ih =>
    obtain ⟨x, hx, hmotive⟩ := hstep start init (Nat.le_refl _) (by omega) base
    obtain ⟨y, hy, hlast⟩ := ih (start + 1) x hmotive
      fun k x hk hlt ↦ hstep k x (by omega) (by omega)
    refine ⟨y, ?_, by rwa [Nat.add_right_comm] at hlast⟩
    rw [List.range'_succ, List.foldlM_cons, hx]
    exact hy

theorem exists_writeAt {xs : Array Nat} {i : Nat} (h : i < xs.size) (value : Nat) :
    ∃ ys, writeAt xs i value = some ys ∧ ys.size = xs.size ∧
      ∀ k, ys[k]? = if k = i then some value else xs[k]? := by
  refine ⟨xs.set i value h, dif_pos h, Array.size_set h, fun k ↦ ?_⟩
  rw [Array.getElem?_set]
  simp only [eq_comm]

/-- The array is the row of the table for `as`. -/
structure IsRow (as bs : List Char) (row : Array Nat) : Prop where
  size : row.size = bs.length + 1
  entry : ∀ j ≤ bs.length, row[j]? = some (cost as.reverse (bs.take j).reverse)

theorem isRow_range (bs : List Char) : IsRow [] bs (Array.range (bs.length + 1)) where
  size := Array.size_range
  entry j hj := by
    rw [Array.getElem?_range, if_pos (Nat.lt_succ_of_le hj), List.reverse_nil, cost_nil,
      List.length_reverse, List.length_take, Nat.min_eq_left hj]

/-- The array has room for a row, and its first `j` entries are those of the row for `as`. -/
structure BeginsRow (as bs : List Char) (j : Nat) (row : Array Nat) : Prop where
  size : row.size = bs.length + 1
  entry : ∀ k < j, row[k]? = some (cost as.reverse (bs.take k).reverse)

theorem BeginsRow.write {as bs : List Char} {j : Nat} {row : Array Nat}
    (h : BeginsRow as bs j row) (hj : j ≤ bs.length) {value : Nat}
    (hvalue : value = cost as.reverse (bs.take j).reverse) :
    ∃ next, writeAt row j value = some next ∧ BeginsRow as bs (j + 1) next := by
  have hlt : j < row.size := by rw [h.size]; exact Nat.lt_succ_of_le hj
  obtain ⟨next, hnext, hsize, hentry⟩ := exists_writeAt hlt value
  refine ⟨next, hnext, hsize.trans h.size, fun k hk ↦ ?_⟩
  rw [hentry]
  split
  · rename_i heq
    rw [heq, hvalue]
  · exact h.entry k (by omega)

theorem take_reverse_succ {cs : List Char} {i : Nat} {c : Char} (h : cs[i]? = some c) :
    (cs.take (i + 1)).reverse = c :: (cs.take i).reverse := by
  rw [List.take_add_one, h, List.reverse_append]
  rfl

/-- An entry of a row is what the recursion says of its neighbours. -/
theorem exists_fillEntry {as bs : List Char} {above row : Array Nat} {i j : Nat}
    (hi : i < as.length) (hj : j < bs.length) (habove : IsRow (as.take i) bs above)
    (hrow : BeginsRow (as.take (i + 1)) bs (j + 1) row) :
    ∃ next, fillEntry as.toArray bs.toArray above (i + 1) row (j + 1) = some next ∧
      BeginsRow (as.take (i + 1)) bs (j + 2) next := by
  have ha : as[i]? = some as[i] := List.getElem?_eq_getElem hi
  have hb : bs[j]? = some bs[j] := List.getElem?_eq_getElem hj
  have hup := habove.entry (j + 1) hj
  have hcorner := habove.entry j (Nat.le_of_lt hj)
  have hleft := hrow.entry j (Nat.lt_succ_self j)
  rw [take_reverse_succ hb] at hup
  rw [take_reverse_succ ha] at hleft
  obtain ⟨next, hnext, hbegins⟩ := hrow.write hj (by
    rw [take_reverse_succ ha, take_reverse_succ hb, cost_cons])
  refine ⟨next, ?_, hbegins⟩
  simp only [fillEntry, Nat.add_sub_cancel, List.getElem?_toArray, ha, hb, hup, hleft, hcorner,
    Option.bind_eq_bind, Option.bind_some]
  exact hnext

theorem exists_fillRow {as bs : List Char} {rows : Array Nat × Array Nat} {i : Nat}
    (hi : i < as.length) (habove : IsRow (as.take i) bs rows.1)
    (hsize : rows.2.size = bs.length + 1) :
    ∃ row, fillRow as.toArray bs.toArray rows (i + 1) = some (row, rows.1) ∧
      IsRow (as.take (i + 1)) bs row := by
  have hbegin : BeginsRow (as.take (i + 1)) bs 0 rows.2 := ⟨hsize, by simp⟩
  have hvalue : i + 1 = cost (as.take (i + 1)).reverse (bs.take 0).reverse := by simp; omega
  obtain ⟨first, hfirst, hbegins⟩ := hbegin.write (Nat.zero_le _) hvalue
  obtain ⟨row, hrow, hwhole⟩ := exists_foldlM_range'
    (motive := BeginsRow (as.take (i + 1)) bs) (n := bs.length) 1 first hbegins (by
      intro k row hk hlt hbegins
      obtain ⟨j, rfl⟩ := Nat.exists_eq_add_of_le' hk
      exact exists_fillEntry hi (by omega) habove hbegins)
  refine ⟨row, ?_, hwhole.size, fun j hj ↦ hwhole.entry j (by omega)⟩
  rw [fillRow, hfirst]
  show ((List.range' 1 bs.length).foldlM _ first >>= fun row ↦ some (row, rows.1)) = _
  rw [hrow]
  rfl

/-- **In place, no read and no write ever misses**, and what comes out is the cost. -/
theorem distanceInPlace_eq (as bs : List Char) :
    distanceInPlace as.toArray bs.toArray = some (cost as.reverse bs.reverse) := by
  rw [distanceInPlace]
  split
  · rename_i h
    obtain rfl : as = [] := by simpa using h
    simp
  · split
    · rename_i h
      obtain rfl : bs = [] := by simpa using h
      simp
    · obtain ⟨rows, hrows, hwhole, -⟩ := exists_foldlM_range'
        (f := fillRow as.toArray bs.toArray)
        (motive := fun k rows ↦ IsRow (as.take (k - 1)) bs rows.1 ∧ rows.2.size = bs.length + 1)
        (n := as.length) 1 (Array.range (bs.length + 1), Array.replicate (bs.length + 1) 0)
        ⟨isRow_range bs, Array.size_replicate⟩ (by
          rintro k rows hk hlt ⟨habove, hsize⟩
          obtain ⟨i, rfl⟩ := Nat.exists_eq_add_of_le' hk
          obtain ⟨row, hrow, his⟩ := exists_fillRow (by omega) habove hsize
          exact ⟨_, hrow, his, habove.size⟩)
      have hlast := hwhole.entry bs.length (Nat.le_refl _)
      rw [Nat.add_sub_cancel_left, List.take_length, List.take_length] at hlast
      show ((List.range' 1 as.length).foldlM _ _ >>= _) = _
      rw [List.size_toArray, hrows]
      exact hlast

/-- **The edit distance is the least number of edits** that turn one text into the other; and the
table in two rows comes to it without a look at a place that does not exist. -/
theorem editDistance_isLeast (a b : String) :
    IsLeast {n | Edits n a.toList b.toList} (editDistance a b) ∧
      distanceInPlace a.toList.toArray b.toList.toArray = some (editDistance a b) := by
  rw [editDistance_eq_cost]
  refine ⟨?_, distanceInPlace_eq a.toList b.toList⟩
  have h := isLeast_cost a.toList.reverse b.toList.reverse
  simpa only [Edits.reverse_iff] using h

end Concord
