import ObjectModel.Proofs.Consistency

/-! How the merge breaks ties. Consistent orders may be united by many lists. The one that the merge
comes to can be told from the orders alone, at each of its names: of the names that are left and
that no other name left precedes, it is the one that leads the earliest order. For a list that unites
the orders, to be so at each place is the same as to be the result of the merge. -/
namespace ObjectModel.Linearization

variable {α : Type} {orders : List (List α)} {order left merged : List α} {name other : α}

/-- A list that repeats no name, has the names of the orders and no others, and keeps every order. -/
structure Unites (orders : List (List α)) (merged : List α) : Prop where
  distinct : merged.Nodup
  names : ∀ name, name ∈ merged ↔ ∃ order ∈ orders, name ∈ order
  kept : ∀ order ∈ orders, order.Sublist merged

def Unpreceded (orders : List (List α)) (left : List α) (name : α) : Prop :=
  ∀ order ∈ orders, ∀ other ∈ left, other ≠ name → ¬[other,name].Sublist order

/-- If an order has all names that are left, then to be free in it is to be preceded by none. -/
theorem unpreceded_iff_free (distinct : ∀ order ∈ orders, order.Nodup)
    (within : ∀ order ∈ orders, order ⊆ left) :
    Unpreceded orders left name ↔ Free orders name := by
  constructor
  · intro unpreceded order member behind
    cases order with
    | nil => contradiction
    | cons head rest =>
      obtain ⟨once,_⟩ := List.nodup_cons.mp (distinct _ member)
      have apart : head ≠ name := by
        rintro rfl
        exact once behind
      have precedes : [head,name].Sublist (head :: rest) :=
        (List.singleton_sublist.mpr behind).cons_cons head
      exact unpreceded _ member head (within _ member List.mem_cons_self) apart precedes
  · intro free order member other _ _ precedes
    have behind : [name].Sublist order.tail := precedes.tail
    exact free order member (List.singleton_sublist.mp behind)

namespace Unites

theorem within (unites : Unites orders merged) : ∀ order ∈ orders, order ⊆ merged :=
  fun order member => (unites.kept order member).subset

theorem nodup (unites : Unites orders merged) : ∀ order ∈ orders, order.Nodup :=
  fun order member => unites.distinct.sublist (unites.kept order member)

theorem mem_heads (unites : Unites orders merged) (present : name ∈ merged)
    (free : Free orders name) : name ∈ heads orders := by
  obtain ⟨order,member,holds⟩ := (unites.names name).mp present
  cases order with
  | nil => contradiction
  | cons head rest =>
    rcases List.mem_cons.mp holds with rfl | behind
    · exact mem_heads_iff.mpr ⟨rest,member⟩
    · exact absurd behind (free _ member)

theorem gone {taken : List α} (unites : Unites orders (name :: (taken ++ left))) : name ∉ left := by
  have absent := (List.nodup_cons.mp unites.distinct).1
  exact fun again => absent (List.mem_append_right taken again)

end Unites

variable [DecidableEq α]

def leaders (orders : List (List α)) (left : List α) : List α :=
  orders.filterMap fun order => order.find? (· ∈ left)

/-- The name that is due when some names are left. None of them precedes it, and where another one
that none precedes leads an order, it leads an earlier order itself. -/
structure Due (orders : List (List α)) (left : List α) (name : α) : Prop where
  unpreceded : Unpreceded orders left name
  foremost : ∀ other ∈ left, other ≠ name → Unpreceded orders left other →
    ∀ before after, leaders orders left = before ++ other :: after → name ∈ before

theorem leaders_eq_heads (within : ∀ order ∈ orders, order ⊆ left) :
    leaders orders left = heads orders := by
  refine List.filterMap_congr fun order member => ?_
  cases order with
  | nil => rfl
  | cons head rest =>
    have first : head ∈ left := within _ member List.mem_cons_self
    simp [first]

theorem due_iff (distinct : ∀ order ∈ orders, order.Nodup)
    (within : ∀ order ∈ orders, order ⊆ left) (leads : name ∈ heads orders) :
    Due orders left name ↔ Free orders name ∧ ∃ before after,
      heads orders = before ++ name :: after ∧ ∀ head ∈ before, ¬Free orders head := by
  have free : ∀ {name}, Unpreceded orders left name ↔ Free orders name :=
    unpreceded_iff_free distinct within
  constructor
  · intro due
    obtain ⟨before,after,split,fresh⟩ := List.eq_append_cons_of_mem leads
    refine ⟨free.mp due.unpreceded,before,after,split,fun head passed open' => ?_⟩
    -- A free head in front of the name would have the name in front of it.
    have apart : head ≠ name := fun same => fresh (same ▸ passed)
    obtain ⟨front,back,rfl⟩ := List.append_of_mem passed
    obtain ⟨rest,member⟩ := mem_heads_iff.mp (split ▸ List.mem_append_left _ passed)
    have remains : head ∈ left := within _ member List.mem_cons_self
    have earlier : name ∈ front := by
      refine due.foremost head remains apart (free.mpr open') front (back ++ name :: after) ?_
      rw [leaders_eq_heads within,split,List.append_assoc,List.cons_append]
    exact fresh (List.mem_append_left _ earlier)
  · rintro ⟨open',before,after,split,passed⟩
    refine ⟨free.mpr open',fun other remains apart unpreceded front back again => ?_⟩
    rw [leaders_eq_heads within,split] at again
    rcases List.append_eq_append_iff.mp again with ⟨rest,rfl,same⟩ | ⟨rest,rfl,same⟩
    · cases rest with
      | nil => exact absurd (List.cons_eq_cons.mp same).1.symm apart
      | cons first rest =>
        obtain ⟨rfl,_⟩ := List.cons_eq_cons.mp same
        simp
    · cases rest with
      | nil => exact absurd (List.cons_eq_cons.mp same).1 apart
      | cons first rest =>
        obtain ⟨rfl,_⟩ := List.cons_eq_cons.mp same
        exact absurd (free.mp unpreceded) (passed other (by simp))

/-- What is due among the names left does not depend on a name that is gone. -/
theorem due_strip_iff (free : Free orders name) (gone : name ∉ left) (present : other ∈ left) :
    Due (orders.map (strip name)) left other ↔ Due orders left other := by
  have apart : ∀ {x}, x ∈ left → x ≠ name := by
    rintro x member rfl
    exact gone member
  have unpreceded : ∀ x ∈ left,
      Unpreceded (orders.map (strip name)) left x ↔ Unpreceded orders left x := by
    intro x member
    simp only [Unpreceded,List.forall_mem_map]
    refine forall₂_congr fun order origin => forall₃_congr fun y remains _ => not_congr ?_
    rw [strip_eq_filter (free order origin)]
    refine ⟨fun precedes => precedes.trans List.filter_sublist,fun precedes => ?_⟩
    simpa [apart member,apart remains] using precedes.filter (· ≠ name)
  have led : leaders (orders.map (strip name)) left = leaders orders left := by
    rw [leaders,List.filterMap_map]
    refine List.filterMap_congr fun order origin => ?_
    simp only [Function.comp_apply,strip_eq_filter (free order origin),List.find?_filter]
    congr 1
    funext x
    by_cases member : x ∈ left <;> simp [member,apart]
  constructor
  · rintro ⟨first,foremost⟩
    refine ⟨(unpreceded other present).mp first,fun x member => ?_⟩
    rw [← unpreceded x member,← led]
    exact foremost x member
  · rintro ⟨first,foremost⟩
    refine ⟨(unpreceded other present).mpr first,fun x member => ?_⟩
    rw [unpreceded x member,led]
    exact foremost x member

theorem Merges.unites (merges : Merges orders merged) : Unites orders merged :=
  ⟨merges.nodup,fun _ => merges.mem_iff,fun _ => merges.sublist⟩

namespace Unites

theorem strip (unites : Unites orders (name :: merged)) (free : Free orders name) :
    Unites (orders.map (strip name)) merged := by
  obtain ⟨absent,others⟩ := List.nodup_cons.mp unites.distinct
  have filtered : ∀ order ∈ orders, Linearization.strip name order = order.filter (· ≠ name) :=
    fun order member => strip_eq_filter (free order member)
  refine ⟨others,fun x => ⟨fun present => ?_,?_⟩,?_⟩
  · have apart : x ≠ name := by
      rintro rfl
      exact absent present
    obtain ⟨order,member,holds⟩ := (unites.names x).mp (List.mem_cons_of_mem _ present)
    refine ⟨_,List.mem_map_of_mem member,?_⟩
    rw [filtered order member]
    simpa [apart] using holds
  · rintro ⟨stripped,inside,holds⟩
    obtain ⟨order,member,rfl⟩ := List.mem_map.mp inside
    rw [filtered order member,List.mem_filter] at holds
    obtain ⟨holds,apart⟩ := holds
    have present := (unites.names x).mpr ⟨order,member,holds⟩
    exact (List.mem_cons.mp present).resolve_left (by simpa using apart)
  · intro stripped inside
    obtain ⟨order,member,rfl⟩ := List.mem_map.mp inside
    rw [filtered order member]
    have rest : merged.filter (· ≠ name) = merged := by
      refine List.filter_eq_self.mpr fun x present => ?_
      have apart : x ≠ name := by
        rintro rfl
        exact absent present
      simpa using apart
    have kept := (unites.kept order member).filter (· ≠ name)
    rwa [List.filter_cons_of_neg (by simp),rest] at kept

end Unites

/-- Each name of a merge is due when its turn comes. -/
theorem Merges.due (merges : Merges orders merged) :
    ∀ taken name left, merged = taken ++ name :: left → Due orders (name :: left) name := by
  induction merges with
  | done => simp
  | @take orders name merged before after leads passed free remaining ih =>
    have unites : Unites orders (name :: merged) :=
      (Merges.take before after leads passed free remaining).unites
    rintro (_ | ⟨_,taken⟩) next left split
    · obtain ⟨rfl,rfl⟩ := List.cons_eq_cons.mp split
      refine (due_iff unites.nodup unites.within ?_).mpr ⟨free,before,after,leads,passed⟩
      exact unites.mem_heads List.mem_cons_self free
    · obtain ⟨rfl,rfl⟩ := List.cons_eq_cons.mp split
      exact (due_strip_iff free unites.gone List.mem_cons_self).mp (ih taken next left rfl)

/-- A list that unites the orders is their merge if each of its names is due in its turn. -/
theorem Unites.merges (unites : Unites orders merged)
    (due : ∀ taken name left, merged = taken ++ name :: left → Due orders (name :: left) name) :
    Merges orders merged := by
  induction merged generalizing orders with
  | nil =>
    refine .done (heads_eq_nil_iff.mpr fun order member => ?_)
    exact List.sublist_nil.mp (unites.kept order member)
  | cons name merged ih =>
    have first := due [] name merged rfl
    have free : Free orders name := (unpreceded_iff_free unites.nodup unites.within).mp
      first.unpreceded
    have leads := unites.mem_heads List.mem_cons_self free
    obtain ⟨_,before,after,split,passed⟩ := (due_iff unites.nodup unites.within leads).mp first
    refine .take before after split passed free (ih (unites.strip free) ?_)
    rintro taken next left rfl
    exact (due_strip_iff free unites.gone List.mem_cons_self).mpr (due (name :: taken) next left rfl)

/-- The merge comes to a list exactly if the list unites the orders and each of its names is due
when it and the names behind it are left. So no other list that unites the orders has its names due
in turn. -/
theorem merge_takes_due_iff (orders : List (List α)) (merged : List α) :
    merge orders = .ok merged ↔ Unites orders merged ∧
      ∀ taken name left, merged = taken ++ name :: left → Due orders (name :: left) name := by
  rw [merge_eq_ok_iff]
  exact ⟨fun merges => ⟨merges.unites,merges.due⟩,fun ⟨unites,due⟩ => unites.merges due⟩

example : merge [["B","A"],["C","A"],["B"]] = .ok ["B","C","A"] ∧
    merge [["C","A"],["B","A"],["B"]] = .ok ["C","B","A"] := by decide

end ObjectModel.Linearization
