import Crablib.Bytes

/-! `IntrusiveList` of `intrusive_list.hpp`. A node is in at most one list, so a
list is the objects that are linked into it, first one first. -/
namespace Crablib.IntrusiveList

variable {α : Type} [DecidableEq α]

/-- NOP if already in the list. -/
def pushBack (list : List α) (node : α) : List α := if node ∈ list then list else list ++ [node]

def unlink (list : List α) (node : α) : List α := list.erase node

@[simp] theorem mem_pushBack {list : List α} {node other : α} :
    other ∈ pushBack list node ↔ other ∈ list ∨ other = node := by
  unfold pushBack
  split
  · grind
  · simp

theorem nodup_pushBack {list : List α} (nodup : list.Nodup) (node : α) : (pushBack list node).Nodup := by
  unfold pushBack
  split
  · exact nodup
  · rename_i absent
    exact List.nodup_append.mpr ⟨nodup, by simp, by grind⟩

theorem mem_unlink {list : List α} (nodup : list.Nodup) {node other : α} :
    other ∈ unlink list node ↔ other ≠ node ∧ other ∈ list :=
  nodup.mem_erase_iff

theorem nodup_unlink {list : List α} (nodup : list.Nodup) (node : α) :
    (unlink list node).Nodup := nodup.erase node

end Crablib.IntrusiveList
