/-! Growing collections whose cells are named by their position and never go away, and the
identities by which stores name what they hold. -/
namespace ObjectModel

structure Scope where
  index : Nat
  deriving DecidableEq, Repr, Inhabited

/-- A class definition. Two definitions may carry the same names. -/
structure ClassId where
  index : Nat
  deriving DecidableEq, Repr, Inhabited

structure Object where
  index : Nat
  deriving DecidableEq, Repr, Inhabited

structure Registry where
  index : Nat
  deriving DecidableEq, Repr, Inhabited

/-- The handle under which registries know an instance. -/
structure Handle where
  number : UInt64
  deriving DecidableEq, Repr, Inhabited

structure Arena (α : Type) where
  cells : Array α
  deriving Repr

namespace Arena

variable {α : Type}

def empty : Arena α := ⟨#[]⟩

instance : Inhabited (Arena α) := ⟨empty⟩

def size (a : Arena α) : Nat := a.cells.size

/-- The cell at a position. Positions not handed out yet read as the default. -/
def get [Inhabited α] (a : Arena α) (index : Nat) : α := a.cells.getD index default

def modify (a : Arena α) (index : Nat) (f : α → α) : Arena α := ⟨a.cells.modify index f⟩

def push (a : Arena α) (value : α) : Arena α := ⟨a.cells.push value⟩

@[simp] theorem size_push (a : Arena α) (value : α) : (a.push value).size = a.size + 1 := by
  simp [size, push]

@[simp] theorem size_modify (a : Arena α) (index : Nat) (f : α → α) :
    (a.modify index f).size = a.size := by
  simp [size, modify]

theorem modify_modify (a : Arena α) (index : Nat) (f g : α → α) :
    (a.modify index f).modify index g = a.modify index (g ∘ f) := by
  refine congrArg Arena.mk (Array.ext (by simp [modify]) fun other _ _ => ?_)
  simp only [modify, Array.getElem_modify]
  split <;> rfl

variable [Inhabited α]

theorem get_of_size_le {a : Arena α} {index : Nat} (absent : a.size ≤ index) :
    a.get index = default := by
  have absent : a.cells.size ≤ index := absent
  simp [get, absent]

@[simp] theorem get_push_self (a : Arena α) (value : α) : (a.push value).get a.size = value := by
  simp [get, push, size]

theorem get_push_of_ne {a : Arena α} {index : Nat} (apart : index ≠ a.size) (value : α) :
    (a.push value).get index = a.get index := by
  have apart : index ≠ a.cells.size := apart
  simp [get, push, Array.getElem?_push, apart]

theorem get_push_of_lt {a : Arena α} {index : Nat} (old : index < a.size) (value : α) :
    (a.push value).get index = a.get index :=
  get_push_of_ne (Nat.ne_of_lt old) value

theorem get_modify_self {a : Arena α} {index : Nat} (present : index < a.size) (f : α → α) :
    (a.modify index f).get index = f (a.get index) := by
  have present : index < a.cells.size := present
  simp [get, modify, Array.getElem_modify, present]

theorem get_modify_of_ne {index other : Nat} (apart : other ≠ index) (a : Arena α) (f : α → α) :
    (a.modify index f).get other = a.get other := by
  simp [get, modify, Array.getElem?_modify, apart.symm]

theorem modify_eq_self {a : Arena α} {index : Nat} {f : α → α}
    (fixed : f (a.get index) = a.get index) : a.modify index f = a := by
  refine congrArg Arena.mk (Array.ext (by simp) fun other _ present => ?_)
  rw [Array.getElem_modify]
  split
  next same =>
    subst same
    simpa [get, present] using fixed
  next => rfl

theorem get_push_cases (a : Arena α) (value : α) (index : Nat) :
    (a.push value).get index = a.get index ∨
      a.get index = default ∧ (a.push value).get index = value := by
  by_cases pushed : index = a.size
  · subst pushed
    exact .inr ⟨get_of_size_le (Nat.le_refl _), get_push_self a value⟩
  · exact .inl (get_push_of_ne pushed value)

theorem get_modify_cases (a : Arena α) (index other : Nat) (f : α → α) :
    (a.modify index f).get other = a.get other ∨
      other = index ∧ (a.modify index f).get other = f (a.get other) := by
  by_cases same : other = index
  · subst same
    by_cases present : other < a.size
    · exact .inr ⟨rfl, get_modify_self present f⟩
    · have absent : a.size ≤ other := Nat.le_of_not_lt present
      refine .inl ?_
      rw [get_of_size_le absent, get_of_size_le (by rw [size_modify]; exact absent)]
  · exact .inl (get_modify_of_ne same a f)

end Arena
end ObjectModel
