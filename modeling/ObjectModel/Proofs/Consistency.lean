import ObjectModel.Proofs.Merge

/-! When orders have a merge. They are consistent if some list keeps them all and repeats no name.
Consistent orders always have a head that no order has further back, and to take such a head leaves
them as consistent as they were, whichever it is. So the merge never has to go back on a choice: it
succeeds on all consistent orders, and on no others. -/
namespace ObjectModel.Linearization

variable {α : Type} {orders : List (List α)} {order : List α} {name : α}

/-- One list without repetitions keeps all the orders. -/
def Consistent (orders : List (List α)) : Prop :=
  ∃ whole : List α, whole.Nodup ∧ ∀ order ∈ orders, order.Sublist whole

/-- The first name of the whole that heads an order at all stands behind no other name. -/
theorem Consistent.exists_free (consistent : Consistent orders) (present : heads orders ≠ []) :
    ∃ name ∈ heads orders, Free orders name := by
  obtain ⟨whole,distinct,kept⟩ := consistent
  induction whole with
  | nil =>
    have exhausted : heads orders = [] :=
      heads_eq_nil_iff.mpr fun order member => List.sublist_nil.mp (kept order member)
    exact absurd exhausted present
  | cons first rest ih =>
    obtain ⟨absent,others⟩ := List.nodup_cons.mp distinct
    by_cases leads : first ∈ heads orders
    · refine ⟨first,leads,fun order member behind => absent ?_⟩
      have later : order.tail.Sublist rest := (kept order member).tail
      exact later.subset behind
    · apply ih others
      intro order member
      rcases List.sublist_cons_iff.mp (kept order member) with later | ⟨tail,rfl,_⟩
      · exact later
      · exact absurd (mem_heads_iff.mpr ⟨tail,member⟩) leads

variable [DecidableEq α]

theorem strip_eq_filter (behind : name ∉ order.tail) :
    strip name order = order.filter (· ≠ name) := by
  cases order with
  | nil => rfl
  | cons head rest =>
    have others : rest.filter (· ≠ name) = rest := by
      apply List.filter_eq_self.mpr
      intro other member
      have apart : other ≠ name := by
        rintro rfl
        exact behind member
      simpa using apart
    by_cases same : head = name
    · rw [strip,if_pos same,List.filter_cons_of_neg (by simp [same])]
      exact others.symm
    · rw [strip,if_neg same,List.filter_cons_of_pos (by simp [same]),others]

/-- A free name may be taken first or left for later, the orders are consistent either way. -/
theorem consistent_strip_iff (free : Free orders name) :
    Consistent (orders.map (strip name)) ↔ Consistent orders := by
  constructor
  · rintro ⟨whole,distinct,kept⟩
    refine ⟨name :: whole.filter (· ≠ name),?_,fun order member => ?_⟩
    · exact List.nodup_cons.mpr ⟨by simp,distinct.filter _⟩
    · have stripped := kept _ (List.mem_map_of_mem member)
      rw [strip_eq_filter (free order member)] at stripped
      have later : (order.filter (· ≠ name)).Sublist (whole.filter (· ≠ name)) := by
        simpa using stripped.filter (· ≠ name)
      rw [← strip_eq_filter (free order member)] at later
      exact sublist_cons_of_strip later
  · rintro ⟨whole,distinct,kept⟩
    refine ⟨whole.filter (· ≠ name),distinct.filter _,fun stripped member => ?_⟩
    obtain ⟨order,origin,rfl⟩ := List.mem_map.mp member
    rw [strip_eq_filter (free order origin)]
    exact (kept order origin).filter _

theorem Consistent.exists_merges (consistent : Consistent orders) :
    ∃ merged, Merges orders merged := by
  -- Each name that is taken shortens the orders.
  induction bound : size orders using Nat.strongRecOn generalizing orders with
  | ind count ih =>
    by_cases exhausted : heads orders = []
    · exact ⟨[],.done exhausted⟩
    · have unblocked : ((heads orders).find? fun name => !blocked orders name).isSome := by
        obtain ⟨name,leads,free⟩ := consistent.exists_free exhausted
        apply List.find?_isSome.mpr
        exact ⟨name,leads,by simp [blocked_eq_false_iff.mpr free]⟩
      obtain ⟨name,found⟩ := Option.isSome_iff_exists.mp unblocked
      obtain ⟨before,after,split,passed,free⟩ := find_unblocked_iff.mp found
      have shorter := size_map_strip_lt (List.mem_of_find?_eq_some found)
      obtain ⟨merged,remaining⟩ :=
        ih _ (bound ▸ shorter) ((consistent_strip_iff free).mpr consistent) rfl
      exact ⟨name :: merged,.take before after split passed free remaining⟩

/-- The merge succeeds exactly on orders that one list without repetitions keeps, and fails exactly
if there is no such list. -/
theorem merge_succeeds_iff (orders : List (List α)) :
    ((∃ merged, merge orders = .ok merged) ↔ Consistent orders) ∧
    ((∃ stuck, merge orders = .error stuck) ↔ ¬Consistent orders) := by
  have succeeds : (∃ merged, merge orders = .ok merged) ↔ Consistent orders := by
    simp only [merge_eq_ok_iff]
    constructor
    · rintro ⟨merged,merges⟩
      exact ⟨merged,merges.nodup,fun order member => merges.sublist member⟩
    · exact Consistent.exists_merges
  refine ⟨succeeds,?_⟩
  rw [← succeeds]
  cases merge orders <;> simp

example : merge [["X","B","C"],["Y","C","B"],["X","Y"]] = .error ["B","C"] := by decide

end ObjectModel.Linearization
