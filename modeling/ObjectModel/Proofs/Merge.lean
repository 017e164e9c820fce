import Mathlib.Data.List.Basic
import ObjectModel.Linearization

/-! The C3 merge as a rule. `Merges` says which name comes next without saying how it is found,
and the bounded loop computes exactly this relation. A merge keeps every order that goes into it,
has the names of all of them, and repeats none, whatever the orders are. -/
namespace ObjectModel.Linearization

variable {α : Type}

def Free (orders : List (List α)) (name : α) : Prop := ∀ order ∈ orders, name ∉ order.tail

/-- The next name is the first free one among the heads; it is taken off every order it heads. -/
inductive Merges [DecidableEq α] : List (List α) → List α → Prop where
  | done {orders : List (List α)} (exhausted : heads orders = []) : Merges orders []
  | take {orders : List (List α)} {name : α} {merged : List α} (before after : List α)
      (leads : heads orders = before ++ name :: after)
      (passed : ∀ head ∈ before, ¬Free orders head) (free : Free orders name)
      (remaining : Merges (orders.map (strip name)) merged) : Merges orders (name :: merged)

variable {orders : List (List α)} {order merged : List α} {name : α}

theorem mem_heads_iff : name ∈ heads orders ↔ ∃ rest, (name :: rest) ∈ orders := by
  simp only [heads,List.mem_filterMap]
  constructor
  · rintro ⟨order,member,head⟩
    obtain ⟨rest,rfl⟩ := List.head?_eq_some_iff.mp head
    exact ⟨rest,member⟩
  · rintro ⟨rest,member⟩
    exact ⟨name :: rest,member,rfl⟩

theorem heads_eq_nil_iff : heads orders = [] ↔ ∀ order ∈ orders, order = [] := by
  simp [heads]

theorem heads_eq_nil_of_size (empty : size orders = 0) : heads orders = [] := by
  rw [heads_eq_nil_iff]
  induction orders with
  | nil => simp
  | cons order rest ih =>
    simp only [size,Nat.add_eq_zero_iff,List.length_eq_zero_iff] at empty
    simpa [empty.1] using ih empty.2

variable [DecidableEq α]

theorem blocked_eq_false_iff : blocked orders name = false ↔ Free orders name := by
  simp [blocked,Free]

theorem length_strip_le (name : α) (order : List α) : (strip name order).length ≤ order.length := by
  cases order with
  | nil => simp [strip]
  | cons head rest =>
    simp only [strip]
    split <;> simp

theorem size_map_strip_le (name : α) (orders : List (List α)) :
    size (orders.map (strip name)) ≤ size orders := by
  induction orders with
  | nil => simp
  | cons order rest ih =>
    have shorter := length_strip_le name order
    simp only [List.map_cons,size]
    omega

/-- Taking a head shortens the orders, so the loop ends within their size. -/
theorem size_map_strip_lt (leads : name ∈ heads orders) :
    size (orders.map (strip name)) < size orders := by
  obtain ⟨tail,member⟩ := mem_heads_iff.mp leads
  clear leads
  induction orders with
  | nil => simp at member
  | cons order rest ih =>
    have others := size_map_strip_le name rest
    have shorter := length_strip_le name order
    simp only [List.map_cons,size]
    rcases List.mem_cons.mp member with rfl | later
    · simp only [strip,if_true,List.length_cons]
      omega
    · have fewer := ih later
      omega

theorem find_unblocked_iff :
    (heads orders).find? (fun name => !blocked orders name) = some name ↔
      ∃ before after, heads orders = before ++ name :: after ∧
        (∀ head ∈ before, ¬Free orders head) ∧ Free orders name := by
  rw [List.find?_eq_some_iff_append]
  simp only [Bool.not_eq_true',blocked_eq_false_iff]
  constructor
  · rintro ⟨free,before,after,leads,passed⟩
    refine ⟨before,after,leads,fun head member => ?_,free⟩
    rw [← blocked_eq_false_iff]
    simpa using passed head member
  · rintro ⟨before,after,leads,passed,free⟩
    refine ⟨free,before,after,leads,fun head member => ?_⟩
    simpa [← blocked_eq_false_iff] using passed head member

theorem mergeUpTo_eq_ok_iff (count : Nat) (enough : size orders ≤ count) :
    mergeUpTo count orders = .ok merged ↔ Merges orders merged := by
  induction count generalizing orders merged with
  | zero =>
    have empty := heads_eq_nil_of_size (Nat.le_zero.mp enough)
    simp only [mergeUpTo,Except.ok.injEq]
    constructor
    · rintro rfl
      exact .done empty
    · rintro (_ | ⟨_,_,leads,_⟩)
      · rfl
      · simp [empty] at leads
  | succ count ih =>
    have step : ∀ name, name ∈ heads orders → ∀ rest,
        mergeUpTo count (orders.map (strip name)) = .ok rest ↔
          Merges (orders.map (strip name)) rest := by
      intro name leads rest
      exact ih (by have := size_map_strip_lt leads; omega)
    unfold mergeUpTo
    split
    case h_1 exhausted =>
      simp only [Except.ok.injEq]
      constructor
      · rintro rfl
        exact .done exhausted
      · rintro (_ | ⟨_,_,leads,_⟩)
        · rfl
        · simp [exhausted] at leads
    case h_2 first others present =>
      rw [← present]
      split
      case h_1 stuck =>
        simp only [reduceCtorEq,false_iff]
        rintro (exhausted | ⟨before,after,leads,passed,free,_⟩)
        · simp [present] at exhausted
        · have found := find_unblocked_iff.mpr ⟨before,after,leads,passed,free⟩
          simp [stuck] at found
      case h_2 name found =>
        have leads := List.mem_of_find?_eq_some found
        obtain ⟨before,after,split,passed,free⟩ := find_unblocked_iff.mp found
        constructor
        · intro success
          cases later : mergeUpTo count (orders.map (strip name)) with
          | error e => simp [later] at success
          | ok rest =>
            simp only [later,Except.ok.injEq] at success
            subst success
            exact .take before after split passed free ((step name leads rest).mp later)
        · rintro (exhausted | ⟨front,back,other,ahead,open',remaining⟩)
          · simp [present] at exhausted
          · have again := find_unblocked_iff.mpr ⟨front,back,other,ahead,open'⟩
            obtain rfl := Option.some.inj (found.symm.trans again)
            simp [(step name leads _).mpr remaining]

theorem merge_eq_ok_iff : merge orders = .ok merged ↔ Merges orders merged :=
  mergeUpTo_eq_ok_iff (size orders) (Nat.le_refl _)

theorem Merges.unique {other : List α} (first : Merges orders merged)
    (second : Merges orders other) : merged = other := by
  rw [← merge_eq_ok_iff] at first second
  exact Except.ok.inj (first.symm.trans second)

theorem mem_of_mem_strip {member : α} (present : member ∈ strip name order) : member ∈ order := by
  cases order with
  | nil => simp [strip] at present
  | cons head rest =>
    simp only [strip] at present
    split at present
    · exact List.mem_cons_of_mem head present
    · exact present

theorem not_mem_strip (behind : name ∉ order.tail) : name ∉ strip name order := by
  cases order with
  | nil => simp [strip]
  | cons head rest =>
    simp only [List.tail_cons] at behind
    simp only [strip]
    split
    · exact behind
    · rename_i apart
      simpa [behind] using Ne.symm apart

theorem sublist_cons_of_strip (kept : (strip name order).Sublist merged) :
    order.Sublist (name :: merged) := by
  cases order with
  | nil => exact List.nil_sublist _
  | cons head rest =>
    simp only [strip] at kept
    split at kept
    · rename_i same
      subst same
      exact kept.cons_cons head
    · exact kept.cons name

theorem Merges.sublist (merge : Merges orders merged) (member : order ∈ orders) :
    order.Sublist merged := by
  induction merge generalizing order with
  | done exhausted =>
    have empty := heads_eq_nil_iff.mp exhausted order member
    simp [empty]
  | @take orders name merged before after leads passed free remaining ih =>
    exact sublist_cons_of_strip (ih (List.mem_map_of_mem member))

theorem Merges.mem_iff (merge : Merges orders merged) {member : α} :
    member ∈ merged ↔ ∃ order ∈ orders, member ∈ order := by
  constructor
  · intro present
    induction merge with
    | done => simp at present
    | @take orders name merged before after leads passed free remaining ih =>
      rcases List.mem_cons.mp present with rfl | later
      · have lead : member ∈ heads orders := by simp [leads]
        obtain ⟨rest,inside⟩ := mem_heads_iff.mp lead
        exact ⟨_,inside,List.mem_cons_self⟩
      · obtain ⟨stripped,inside,holds⟩ := ih later
        obtain ⟨order,origin,rfl⟩ := List.mem_map.mp inside
        exact ⟨order,origin,mem_of_mem_strip holds⟩
  · rintro ⟨order,inside,holds⟩
    exact (merge.sublist inside).subset holds

/-- No name comes twice, though the orders may repeat names: a free name is gone once taken. -/
theorem Merges.nodup (merge : Merges orders merged) : merged.Nodup := by
  induction merge with
  | done => exact List.nodup_nil
  | @take orders name merged before after leads passed free remaining ih =>
    refine List.nodup_cons.mpr ⟨fun again => ?_,ih⟩
    obtain ⟨stripped,inside,holds⟩ := remaining.mem_iff.mp again
    obtain ⟨order,origin,rfl⟩ := List.mem_map.mp inside
    exact not_mem_strip (free order origin) holds

/-- A list that the merge comes to repeats no name, has the names of the orders and no others, and
keeps every order. No order may repeat a name itself: orders of which one does have no merge. -/
theorem merge_keeps_orders (orders : List (List α)) :
    (∀ merged, merge orders = .ok merged →
      merged.Nodup ∧ (∀ name, name ∈ merged ↔ ∃ order ∈ orders, name ∈ order) ∧
      ∀ order ∈ orders, order.Sublist merged) ∧
    ((∃ order ∈ orders, ¬order.Nodup) → ∃ stuck, merge orders = .error stuck) := by
  constructor
  · intro merged success
    have merges := merge_eq_ok_iff.mp success
    exact ⟨merges.nodup,fun _ => merges.mem_iff,fun _ => merges.sublist⟩
  · rintro ⟨order,member,repeats⟩
    cases outcome : merge orders with
    | error stuck => exact ⟨stuck,rfl⟩
    | ok merged =>
      -- A sublist of a list without repetitions has none either.
      have merges := merge_eq_ok_iff.mp outcome
      exact absurd (merges.nodup.sublist (merges.sublist member)) repeats

/-- The orders of two siblings and their own, and one that has a name on both sides of another. -/
theorem merge_keeps_orders_siblings :
    (["B","C","A"].Nodup ∧
      (∀ name, name ∈ ["B","C","A"] ↔ ∃ order ∈ [["B","A"],["C","A"],["B","C"]], name ∈ order) ∧
      ∀ order ∈ [["B","A"],["C","A"],["B","C"]], order.Sublist ["B","C","A"]) ∧
    ∃ stuck, merge [["B","C"],["A","B","A"]] = .error stuck := by
  refine ⟨(merge_keeps_orders [["B","A"],["C","A"],["B","C"]]).1 ["B","C","A"] (by decide),?_⟩
  exact (merge_keeps_orders [["B","C"],["A","B","A"]]).2 ⟨["A","B","A"],by decide,by decide⟩

end ObjectModel.Linearization
