import ObjectModel.Proofs.Course

/-! Membership in classes, and so whether a value fits a declared type, hangs on the hierarchy of
an instance alone. The scope that the instance was made in is asked as well, but as every scope has
its classes under their own names, the answer is in the hierarchy already. A hierarchy never
changes, and so a value that fits a type fits it for good, whatever becomes of the classes. -/
namespace ObjectModel

variable {β : Type}

def Store.Labelled (store : Store β) : Prop :=
  ∀ (scope : Scope) (name : String) (c : ClassId),
    (store.frame scope).classes.get? name = some c → c.index < store.classes.size ∧
      (name = (store.classOf c).name ∨ name = (store.classOf c).qualifiedName)

/-- The name is in the hierarchy, in full or as the last part of a name there. -/
def Instance.Descends (it : Instance) (name : String) : Prop :=
  name ∈ it.hierarchy ∨ ∃ qualified ∈ it.hierarchy, Object.endsInName qualified name = true

theorem endsInName_qualify (modulePath name : String) :
    qualify modulePath name = name ∨ Object.endsInName (qualify modulePath name) name = true := by
  unfold qualify
  split
  · exact .inl rfl
  · right
    rw [Object.endsInName,List.isSuffixOf_iff_suffix]
    exact ⟨modulePath.toList,by simp⟩

theorem Scope.exists_of_lookupClass {scope : Scope} {store : Store β} {name : String} {c : ClassId}
    (found : scope.lookupClass store name = .ok c) :
    ∃ home, (store.frame home).classes.get? name = some c := by
  unfold lookupClass nearest? at found
  split at found
  next d first =>
    obtain rfl := Except.ok.inj found
    obtain ⟨home,_,bound⟩ := List.exists_of_findSome?_eq_some first
    exact ⟨home,bound⟩
  next => contradiction

theorem Object.isInstanceOf_of_descends {store : Store β} {o : Object} {name : String}
    (descends : (store.object o).Descends name) : o.isInstanceOf store name = true := by
  simp only [isInstanceOf,Bool.or_eq_true,List.contains_iff_mem,List.any_eq_true]
  exact .inl descends

/-- What the name means in the scope of the object adds nothing to the names of its hierarchy. -/
theorem Object.descends_of_isInstanceOf {store : Store β} (labelled : store.Labelled) {o : Object}
    {name : String} (member : o.isInstanceOf store name = true) :
    (store.object o).Descends name := by
  simp only [isInstanceOf,Bool.or_eq_true,List.contains_iff_mem,List.any_eq_true] at member
  rcases member with named | meant
  · exact named
  split at meant
  · contradiction
  split at meant
  next c found =>
    obtain ⟨home,bound⟩ := Scope.exists_of_lookupClass found
    have listed : (store.classOf c).qualifiedName ∈ (store.object o).hierarchy :=
      List.contains_iff_mem.mp meant
    -- The class is found under its simple or its qualified name, and either shows in the latter.
    rcases (labelled home name c bound).2 with rfl | rfl
    · rcases endsInName_qualify (store.classOf c).modulePath (store.classOf c).name with
        same | ends
      · exact .inl (same ▸ listed)
      · exact .inr ⟨_,listed,ends⟩
    · exact .inl listed
  next => contradiction

namespace Store

/-- Instances keep their hierarchies. One that is not made yet has none. -/
def Persists (store later : Store β) : Prop :=
  ∀ o : Object, (store.object o).hierarchy ≠ [] →
    (later.object o).hierarchy = (store.object o).hierarchy

theorem Persists.refl (store : Store β) : store.Persists store := fun _ _ => rfl

theorem Persists.trans {first second third : Store β} (before : first.Persists second)
    (after : second.Persists third) : first.Persists third := by
  intro o made
  have still := before o made
  rw [← still] at made
  exact (after o made).trans still

theorem Persists.descends {store later : Store β} (persists : store.Persists later) {o : Object}
    {name : String} (descends : (store.object o).Descends name) :
    (later.object o).Descends name := by
  have made : (store.object o).hierarchy ≠ [] := by
    rcases descends with member | ⟨qualified,member,_⟩ <;> exact List.ne_nil_of_mem member
  rwa [Instance.Descends,persists o made]

end Store

namespace Value

/-- The value is one of the type: casting it gives it back. -/
def Fits (value : Value) (store : Store β) (type : TypeName) : Prop :=
  value.cast store type = .ok value

theorem fits_of_cast {value fitted : Value} {store : Store β} {type : TypeName}
    (cast : value.cast store type = .ok fitted) : fitted.Fits store type := by
  cases type with
  | any =>
    have same : value.cast store .any = .ok value := by cases value <;> rfl
    obtain rfl := Except.ok.inj (same.symm.trans cast)
    exact same
  | named name =>
    cases value with
    | object o =>
      have whole := cast
      simp only [Value.cast,castObject] at cast
      split at cast
      · obtain rfl := Except.ok.inj cast
        exact whole
      · contradiction
    | _ => contradiction
  | integer | double =>
    cases value with
    | string s =>
      simp only [Value.cast,castText] at cast
      split at cast
      · obtain rfl := Except.ok.inj cast
        rfl
      · contradiction
    | object o => contradiction
    | _ =>
      obtain rfl := Except.ok.inj cast
      rfl
  | boolean | string =>
    cases value <;>
    · obtain rfl := Except.ok.inj cast
      rfl
  | nothing =>
    cases value with
    | nothing =>
      obtain rfl := Except.ok.inj cast
      rfl
    | _ => contradiction

theorem Fits.persists {value : Value} {store later : Store β} {type : TypeName}
    (fits : value.Fits store type) (labelled : store.Labelled) (persists : store.Persists later) :
    value.Fits later type := by
  cases value with
  | object o =>
    cases type with
    | any => rfl
    | named name =>
      simp only [Fits,Value.cast,castObject] at fits ⊢
      split at fits
      next member =>
        have descends := Object.descends_of_isInstanceOf labelled member
        rw [if_pos (Object.isInstanceOf_of_descends (persists.descends descends))]
      next => contradiction
    -- An object is turned into a text or a truth value, so it fits neither type.
    | boolean | string => exact nomatch Except.ok.inj fits
    | nothing | integer | double => contradiction
  | _ => exact fits

end Value

theorem Store.Labelled.transfer {store later : Store β} (labelled : store.Labelled)
    (tables : ∀ scope, (later.frame scope).classes = (store.frame scope).classes ∨
      (later.frame scope).classes = .empty)
    (kept : ∀ c : ClassId, c.index < store.classes.size → c.index < later.classes.size ∧
      (later.classOf c).name = (store.classOf c).name ∧
      (later.classOf c).qualifiedName = (store.classOf c).qualifiedName) : later.Labelled := by
  intro scope name c bound
  rcases tables scope with same | empty
  · rw [same] at bound
    obtain ⟨allotted,named⟩ := labelled scope name c bound
    obtain ⟨present,simple,qualified⟩ := kept c allotted
    rw [simple,qualified]
    exact ⟨present,named⟩
  · rw [empty] at bound
    contradiction

theorem Store.Labelled.adopt {store : Store β} (labelled : store.Labelled) (home : Scope)
    (c : Class β) : (home.adopt store c).Labelled := by
  intro scope name d bound
  have old : (store.frame scope).classes.get? name = some d →
      d.index < (home.adopt store c).classes.size ∧
        (name = ((home.adopt store c).classOf d).name ∨
          name = ((home.adopt store c).classOf d).qualifiedName) := by
    intro present
    obtain ⟨allotted,named⟩ := labelled scope name d present
    rw [Scope.size_adopt,Scope.classOf_adopt_of_lt allotted]
    exact ⟨Nat.lt_succ_of_lt allotted,named⟩
  have new : d = (store.addClass c).1 → name = c.name ∨ name = c.qualifiedName →
      d.index < (home.adopt store c).classes.size ∧
        (name = ((home.adopt store c).classOf d).name ∨
          name = ((home.adopt store c).classOf d).qualifiedName) := by
    rintro rfl named
    rw [Scope.size_adopt,Scope.classOf_adopt_self]
    exact ⟨Nat.lt_succ_self _,named⟩
  rcases (store.addClass c).2.frame_modifyFrame_cases home scope _ with same | ⟨rfl,same⟩ <;>
    rw [Scope.adopt,same] at bound
  · exact old bound
  · rcases Table.get?_insert_cases bound with ⟨simple,added⟩ | earlier
    · exact new added (.inl simple)
    · rcases Table.get?_insert_cases earlier with ⟨qualified,added⟩ | present
      · exact new added (.inr qualified)
      · exact old present

section

variable {l : Licence β} {store later : Store β}

theorem Alteration.labelled (alteration : Alteration l store later)
    (labelled : store.Labelled) : later.Labelled := by
  have kept : ∀ c : ClassId, c.index < store.classes.size → c.index < later.classes.size ∧
      (later.classOf c).name = (store.classOf c).name ∧
      (later.classOf c).qualifiedName = (store.classOf c).qualifiedName := by
    intro c present
    refine ⟨Nat.lt_of_lt_of_le present alteration.grows.classes,?_⟩
    rcases alteration.classOf c with ⟨parents,shared,same,_⟩ | ⟨absent,_⟩
    · rw [same]
      exact ⟨rfl,rfl⟩
    · omega
  have framed : ∀ (home : Scope) (f : Frame β → Frame β),
      (∀ frame, (f frame).classes = frame.classes ∨ (f frame).classes = .empty) → ∀ scope,
      ((store.modifyFrame home f).frame scope).classes = (store.frame scope).classes ∨
        ((store.modifyFrame home f).frame scope).classes = .empty := by
    intro home f table scope
    rcases store.frame_modifyFrame_cases home scope f with same | ⟨_,same⟩ <;> rw [same]
    · exact .inl rfl
    · exact table _
  cases alteration with
  | @adopt scope c => exact labelled.adopt scope c
  | enter enclosing =>
    refine labelled.transfer (fun scope => ?_) kept
    rcases store.frame_addFrame_cases { enclosing } scope with same | ⟨_,same⟩ <;> rw [same]
    · exact .inl rfl
    · exact .inr rfl
  | bind | assign | define => exact labelled.transfer (framed _ _ fun _ => .inl rfl) kept
  | clear => exact labelled.transfer (framed _ _ fun _ => .inr rfl) kept
  | @setMember _ _ _ place => cases place <;> exact labelled.transfer (fun _ => .inl rfl) kept
  | deal _ deals =>
    obtain ⟨_,_,_,rfl⟩ := deals.spares
    exact labelled.transfer (fun _ => .inl rfl) kept
  | make | reparent | record | create | attach | furnish =>
    exact labelled.transfer (fun _ => .inl rfl) kept

theorem Alters.labelled (alters : Alters l store later)
    (labelled : store.Labelled) : later.Labelled := by
  induction alters with
  | refl => exact labelled
  | tail _ alteration ih => exact alteration.labelled ih

theorem Alteration.persists (alteration : Alteration l store later) :
    store.Persists later := by
  intro o made
  rcases alteration.object o with lasts | ⟨absent,_⟩
  · exact lasts.hierarchy
  · rw [Store.object_of_size_le absent] at made
    exact absurd rfl made

end

section

variable {σ : Type} {host : Host β σ} {rule : List (Store β) → Event β σ → Prop} {w : World β σ}
  {past : List (Store β)}

theorem World.Attains.labelled_of {start : World β σ} (attained : Attains host rule start past w)
    (labelled : start.store.Labelled) : w.store.Labelled :=
  attained.holds (fun _ store => store.Labelled)
    (fun _ w e labelled _ => (e.alters host w).labelled labelled) labelled

theorem World.Attains.labelled {state : σ} (attained : Attains host rule ⟨.empty,state⟩ past w) :
    w.store.Labelled :=
  attained.labelled_of nofun

end

end ObjectModel
