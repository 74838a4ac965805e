/-!
# Removing by swapping with the last element

`swapRemove l i` takes out the element at index `i` in constant time on an array: the last
element moves into the hole and the list gets one shorter. The order of the other elements
changes only in that the last one jumps to index `i`; the elements taken together stay the
same (`perm_swapRemove`).
-/

namespace Frond

/-- The element at index `i` and the list with the last element moved into its place; nothing
    when `i` is past the end. -/
def swapRemove {α : Type} (l : List α) (i : Nat) : Option (α × List α) :=
  if h : i < l.length then
    some (l[i], (l.set i (l.getLast (List.ne_nil_of_length_pos (by omega)))).dropLast)
  else none

theorem swapRemove_eq_none_iff {α : Type} (l : List α) (i : Nat) :
    swapRemove l i = none ↔ l.length ≤ i := by
  unfold swapRemove
  split <;> simp <;> omega

theorem length_swapRemove {α : Type} {l l' : List α} {i : Nat} {a : α}
    (h : swapRemove l i = some (a, l')) : l'.length + 1 = l.length := by
  unfold swapRemove at h
  split at h
  · simp only [Option.some.injEq, Prod.mk.injEq] at h
    obtain ⟨-, rfl⟩ := h
    simp
    omega
  · simp at h

/-- The element taken out is the one at index `i`, and together with the list left it holds the
    elements of the list, each as often. -/
theorem perm_swapRemove {α : Type} {l l' : List α} {i : Nat} {a : α}
    (h : swapRemove l i = some (a, l')) : l[i]? = some a ∧ (a :: l').Perm l := by
  unfold swapRemove at h
  split at h
  · rename_i hi
    simp only [Option.some.injEq, Prod.mk.injEq] at h
    obtain ⟨rfl, rfl⟩ := h
    refine ⟨List.getElem?_eq_getElem hi, ?_⟩
    classical
    have hne : l ≠ [] := List.ne_nil_of_length_pos (by omega)
    have hne' : l.set i (l.getLast hne) ≠ [] := by simpa using hne
    -- the list with the hole filled still ends in the old last element
    have hlast : (l.set i (l.getLast hne)).getLast hne' = l.getLast hne := by
      simp only [List.getLast_eq_getElem, List.getElem_set, List.length_set]
      split <;> simp_all
    have hsplit := List.dropLast_concat_getLast hne'
    rw [List.perm_iff_count]
    intro x
    have hc := congrArg (List.count x) hsplit
    rw [List.count_append, hlast, List.count_set hi] at hc
    -- the element taken out was counted in the list
    have hmem : (if (l[i] == x) = true then 1 else 0) ≤ l.count x := by
      split
      · rename_i hx
        exact List.count_pos_iff.mpr (beq_iff_eq.mp hx ▸ List.getElem_mem hi)
      · exact Nat.zero_le _
    simp only [List.count_cons, List.count_nil] at hc ⊢
    omega
  · simp at h

example : swapRemove [1, 2, 3, 4] 1 = some (2, [1, 4, 3]) := by decide
example : swapRemove [1, 2, 3, 4] 3 = some (4, [1, 2, 3]) := by decide
example : swapRemove [1, 2] 2 = none := by decide

end Frond
