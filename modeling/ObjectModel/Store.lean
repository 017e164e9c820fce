import ObjectModel.Arena
import ObjectModel.Class
import ObjectModel.Error

/-! The store: all scopes, classes, instances and registries, each under its identity, the
linearizations computed so far, and the next handle. -/
namespace ObjectModel

/-- What a scope defines, and the scopes around it, nearest first. Classes stand under their
qualified and their simple names. -/
structure Frame (β : Type) where
  enclosing : List Scope := []
  bindings : Table Variable := .empty
  functions : Table (Function β) := .empty
  classes : Table ClassId := .empty
  deriving Repr

instance {β : Type} : Inhabited (Frame β) := ⟨{}⟩

/-- State that the host attaches to an instance: a value of one of the host's own types, known
here by the type's name. -/
structure HostData where
  kind : String
  content : Value
  deriving DecidableEq, Repr

/-- An instance. One without a scope is detached. -/
structure Instance where
  definition : ClassId
  scope : Option Scope
  hierarchy : List String
  members : Table Variable
  handle : Option Handle := none
  hostData : Option HostData := none
  deriving Repr, Inhabited

/-- Linearizations already computed. The first one recorded for a class stays. -/
abbrev Memo := List (ClassId × List String)

namespace Memo

def get? (m : Memo) (c : ClassId) : Option (List String) :=
  match m with
  | [] => none
  | (key, names) :: rest => if key = c then some names else get? rest c

def record (m : Memo) (c : ClassId) (names : List String) : Memo :=
  match get? m c with
  | some _ => m
  | none => (c, names) :: m

theorem get?_record_of_some {m : Memo} {c : ClassId} {old : List String}
    (known : m.get? c = some old) (d : ClassId) (names : List String) :
    (m.record d names).get? c = some old := by
  unfold record
  split
  · exact known
  · rename_i fresh
    have apart : d ≠ c := fun same => by simp [same, known] at fresh
    simpa [get?, apart] using known

theorem get?_record_self {m : Memo} {c : ClassId} (fresh : m.get? c = none)
    (names : List String) : (m.record c names).get? c = some names := by
  simp [record, fresh, get?]

theorem get?_record_of_ne {c d : ClassId} (apart : d ≠ c) (m : Memo) (names : List String) :
    (m.record d names).get? c = m.get? c := by
  unfold record
  split
  · rfl
  · simp [get?, apart]

theorem get?_record_cases {m : Memo} {c d : ClassId} {names order : List String}
    (fresh : m.get? c = none) (entry : (m.record c names).get? d = some order) :
    d = c ∧ order = names ∨ m.get? d = some order := by
  by_cases same : d = c
  · subst same
    rw [get?_record_self fresh] at entry
    exact .inl ⟨rfl, (Option.some.inj entry).symm⟩
  · rw [get?_record_of_ne (Ne.symm same)] at entry
    exact .inr entry

end Memo

abbrev Registrations := List (Handle × Object)

structure Store (β : Type) where
  frames : Arena (Frame β) := .empty
  classes : Arena (Class β) := .empty
  instances : Arena Instance := .empty
  registries : Arena Registrations := .empty
  memo : Memo := []
  nextHandle : UInt64 := 1
  deriving Repr

namespace Store

variable {β : Type}

def empty : Store β := {}

instance : Inhabited (Store β) := ⟨empty⟩

def frame (s : Store β) (scope : Scope) : Frame β := s.frames.get scope.index

def classOf (s : Store β) (c : ClassId) : Class β := s.classes.get c.index

def object (s : Store β) (o : Object) : Instance := s.instances.get o.index

def definitionOf (s : Store β) (o : Object) : Class β := s.classOf (s.object o).definition

def registered (s : Store β) (r : Registry) : Registrations := s.registries.get r.index

def modifyFrame (s : Store β) (scope : Scope) (f : Frame β → Frame β) : Store β :=
  { s with frames := s.frames.modify scope.index f }

def modifyClass (s : Store β) (c : ClassId) (f : Class β → Class β) : Store β :=
  { s with classes := s.classes.modify c.index f }

def modifyObject (s : Store β) (o : Object) (f : Instance → Instance) : Store β :=
  { s with instances := s.instances.modify o.index f }

def modifyRegistry (s : Store β) (r : Registry) (f : Registrations → Registrations) : Store β :=
  { s with registries := s.registries.modify r.index f }

def addFrame (s : Store β) (f : Frame β) : Scope × Store β :=
  (⟨s.frames.size⟩, { s with frames := s.frames.push f })

/-- Adds a class definition under an identity of its own. No scope names it yet. -/
def addClass (s : Store β) (c : Class β) : ClassId × Store β :=
  (⟨s.classes.size⟩, { s with classes := s.classes.push c })

def addObject (s : Store β) (i : Instance) : Object × Store β :=
  (⟨s.instances.size⟩, { s with instances := s.instances.push i })

def addRegistry (s : Store β) : Registry × Store β :=
  (⟨s.registries.size⟩, { s with registries := s.registries.push [] })

/-- A scope and the scopes around it, nearest first. -/
def chain (s : Store β) (scope : Scope) : List Scope := scope :: (s.frame scope).enclosing

def child (s : Store β) (scope : Scope) : Scope × Store β :=
  s.addFrame { enclosing := s.chain scope }

def root (s : Store β) : Scope × Store β := s.addFrame {}

/-- A scope not opened yet defines nothing and has nothing around it. -/
theorem frame_of_size_le {s : Store β} {scope : Scope} (absent : s.frames.size ≤ scope.index) :
    s.frame scope = {} :=
  Arena.get_of_size_le absent

theorem classOf_of_size_le {s : Store β} {c : ClassId} (absent : s.classes.size ≤ c.index) :
    s.classOf c = default :=
  Arena.get_of_size_le absent

theorem object_of_size_le {s : Store β} {o : Object} (absent : s.instances.size ≤ o.index) :
    s.object o = default :=
  Arena.get_of_size_le absent

theorem frame_modifyFrame_self {s : Store β} {scope : Scope}
    (present : scope.index < s.frames.size) (f : Frame β → Frame β) :
    (s.modifyFrame scope f).frame scope = f (s.frame scope) :=
  Arena.get_modify_self present f

theorem frame_modifyFrame_of_ne {scope other : Scope} (apart : other ≠ scope) (s : Store β)
    (f : Frame β → Frame β) : (s.modifyFrame scope f).frame other = s.frame other :=
  Arena.get_modify_of_ne (fun same => apart (congrArg Scope.mk same)) s.frames f

@[simp] theorem frame_child_self (s : Store β) (outer : Scope) :
    (s.child outer).2.frame (s.child outer).1 = { enclosing := s.chain outer } :=
  Arena.get_push_self s.frames _

theorem frame_child_of_ne {s : Store β} {scope : Scope} (apart : scope.index ≠ s.frames.size)
    (outer : Scope) : (s.child outer).2.frame scope = s.frame scope :=
  Arena.get_push_of_ne apart _

theorem classOf_modifyClass_self {s : Store β} {c : ClassId}
    (present : c.index < s.classes.size) (f : Class β → Class β) :
    (s.modifyClass c f).classOf c = f (s.classOf c) :=
  Arena.get_modify_self present f

theorem classOf_modifyClass_of_ne {c other : ClassId} (apart : other ≠ c) (s : Store β)
    (f : Class β → Class β) : (s.modifyClass c f).classOf other = s.classOf other :=
  Arena.get_modify_of_ne (fun same => apart (congrArg ClassId.mk same)) s.classes f

@[simp] theorem size_modifyClass (s : Store β) (c : ClassId) (f : Class β → Class β) :
    (s.modifyClass c f).classes.size = s.classes.size :=
  Arena.size_modify s.classes c.index f

theorem classOf_addClass_of_lt {s : Store β} {c : ClassId} (old : c.index < s.classes.size)
    (added : Class β) : (s.addClass added).2.classOf c = s.classOf c :=
  Arena.get_push_of_lt old added

@[simp] theorem classOf_addClass_self (s : Store β) (added : Class β) :
    (s.addClass added).2.classOf (s.addClass added).1 = added :=
  Arena.get_push_self s.classes added

theorem object_addObject_of_lt {s : Store β} {o : Object} (old : o.index < s.instances.size)
    (added : Instance) : (s.addObject added).2.object o = s.object o :=
  Arena.get_push_of_lt old added

@[simp] theorem object_addObject_self (s : Store β) (added : Instance) :
    (s.addObject added).2.object (s.addObject added).1 = added :=
  Arena.get_push_self s.instances added

theorem frame_addFrame_cases (s : Store β) (added : Frame β) (scope : Scope) :
    (s.addFrame added).2.frame scope = s.frame scope ∨
      s.frame scope = {} ∧ (s.addFrame added).2.frame scope = added :=
  Arena.get_push_cases s.frames added scope.index

theorem frame_modifyFrame_cases (s : Store β) (scope other : Scope) (f : Frame β → Frame β) :
    (s.modifyFrame scope f).frame other = s.frame other ∨
      other = scope ∧ (s.modifyFrame scope f).frame other = f (s.frame other) :=
  (Arena.get_modify_cases s.frames scope.index other.index f).imp_right
    (And.imp_left (congrArg Scope.mk))

theorem classOf_modifyClass_cases (s : Store β) (c other : ClassId) (f : Class β → Class β) :
    (s.modifyClass c f).classOf other = s.classOf other ∨
      other = c ∧ (s.modifyClass c f).classOf other = f (s.classOf other) :=
  (Arena.get_modify_cases s.classes c.index other.index f).imp_right
    (And.imp_left (congrArg ClassId.mk))

theorem object_modifyObject_cases (s : Store β) (o other : Object) (f : Instance → Instance) :
    (s.modifyObject o f).object other = s.object other ∨
      other = o ∧ (s.modifyObject o f).object other = f (s.object other) :=
  (Arena.get_modify_cases s.instances o.index other.index f).imp_right
    (And.imp_left (congrArg Object.mk))

end Store
end ObjectModel
