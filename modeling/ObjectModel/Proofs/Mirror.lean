import Mathlib.Data.List.Forall2
import ObjectModel.Proofs.Membership

/-! Stores that mirror each other. Some scopes of one store have twins in another one, with the same
variables and functions, with classes that correspond and with twins around them. Then a lookup
that starts in a twin finds the same, a value casts to the same, and what is done to both twins
leaves them twins, whatever else the two stores hold. -/
namespace ObjectModel

variable {β : Type}

/-- Twin scopes have the same variables and functions, classes that are kin under the same names,
and twins around them. Classes that are kin have the same definition, and the instances are the
same. -/
structure Mirrors (twin : Scope → Scope → Prop) (kin : ClassId → ClassId → Prop)
    (store other : Store β) : Prop where
  opened : ∀ {s t}, twin s t → s.index < store.frames.size ∧ t.index < other.frames.size
  paired : ∀ {s t u v}, twin s t → twin u v → (s = u ↔ t = v)
  enclosing : ∀ {s t}, twin s t →
    List.Forall₂ twin (store.frame s).enclosing (other.frame t).enclosing
  bindings : ∀ {s t}, twin s t → (other.frame t).bindings = (store.frame s).bindings
  functions : ∀ {s t}, twin s t → (other.frame t).functions = (store.frame s).functions
  classes : ∀ {s t}, twin s t → ∀ name,
    Option.Rel kin ((store.frame s).classes.get? name) ((other.frame t).classes.get? name)
  allotted : ∀ {c d}, kin c d → c.index < store.classes.size ∧ d.index < other.classes.size
  related : ∀ {c d e f}, kin c d → kin e f → (c = e ↔ d = f)
  definition : ∀ {c d}, kin c d → other.classOf d = store.classOf c
  object : ∀ o, other.object o = store.object o

theorem eq_none_or_eq_some_of_rel {α γ : Type} {rel : α → γ → Prop} {first : Option α}
    {second : Option γ} (related : Option.Rel rel first second) :
    first = none ∧ second = none ∨ ∃ a b, rel a b ∧ first = some a ∧ second = some b := by
  cases related with
  | none => exact .inl ⟨rfl,rfl⟩
  | some inside => exact .inr ⟨_,_,inside,rfl,rfl⟩

theorem Scope.frame_adopt (home : Scope) (store : Store β) (c : Class β) (scope : Scope) :
    ((home.adopt store c).frame scope).enclosing = (store.frame scope).enclosing ∧
      ((home.adopt store c).frame scope).bindings = (store.frame scope).bindings ∧
      ((home.adopt store c).frame scope).functions = (store.frame scope).functions := by
  rcases (store.addClass c).2.frame_modifyFrame_cases home scope _ with same | ⟨_,same⟩ <;>
    rw [Scope.adopt,same] <;> exact ⟨rfl,rfl,rfl⟩

theorem one_to_one_extend {α γ : Type} {rel : α → γ → Prop} {a : α} {b : γ}
    (once : ∀ {x y z w}, rel x y → rel z w → (x = z ↔ y = w))
    (fresh : ∀ {x y}, rel x y → x ≠ a ∧ y ≠ b) {x : α} {y : γ} {z : α} {w : γ}
    (first : rel x y ∨ x = a ∧ y = b) (second : rel z w ∨ z = a ∧ w = b) : x = z ↔ y = w := by
  rcases first with old | ⟨rfl,rfl⟩ <;> rcases second with older | ⟨rfl,rfl⟩
  · exact once old older
  · exact iff_of_false (fresh old).1 (fresh old).2
  · exact iff_of_false (fresh older).1.symm (fresh older).2.symm
  · simp

namespace Mirrors

variable {twin : Scope → Scope → Prop} {kin : ClassId → ClassId → Prop} {store other : Store β}
  {s t : Scope}

/-- A store mirrors itself in scopes that have only such scopes around them. -/
theorem refl {own : Scope → Prop} (labelled : store.Labelled)
    (opened : ∀ s, own s → s.index < store.frames.size)
    (closed : ∀ s, own s → ∀ u ∈ (store.frame s).enclosing, own u) :
    Mirrors (fun s t => s = t ∧ own s) (fun c d => c = d ∧ c.index < store.classes.size) store
      store where
  opened := by
    rintro s _ ⟨rfl,mine⟩
    exact ⟨opened s mine,opened s mine⟩
  paired := by
    rintro s _ u _ ⟨rfl,_⟩ ⟨rfl,_⟩
    exact Iff.rfl
  enclosing := by
    rintro s _ ⟨rfl,mine⟩
    exact List.forall₂_same.mpr fun u around => ⟨rfl,closed s mine u around⟩
  bindings := by
    rintro s _ ⟨rfl,_⟩
    rfl
  functions := by
    rintro s _ ⟨rfl,_⟩
    rfl
  classes := by
    rintro s _ ⟨rfl,_⟩ name
    cases bound : (store.frame s).classes.get? name with
    | none => exact .none
    | some c => exact .some ⟨rfl,(labelled s name c bound).1⟩
  allotted := by
    rintro c _ ⟨rfl,allotted⟩
    exact ⟨allotted,allotted⟩
  related := by
    rintro c _ d _ ⟨rfl,_⟩ ⟨rfl,_⟩
    exact Iff.rfl
  definition := by
    rintro c _ ⟨rfl,_⟩
    rfl
  object _ := rfl

theorem chain (mirrors : Mirrors twin kin store other) (twins : twin s t) :
    List.Forall₂ twin (store.chain s) (other.chain t) :=
  .cons twins (mirrors.enclosing twins)

theorem findSome? {α γ : Type} {rel : α → γ → Prop} {first : Scope → Option α}
    {second : Scope → Option γ} (mirrors : Mirrors twin kin store other) (twins : twin s t)
    (agree : ∀ {s t}, twin s t → Option.Rel rel (first s) (second t)) :
    Option.Rel rel ((store.chain s).findSome? first) ((other.chain t).findSome? second) := by
  have paired := mirrors.chain twins
  generalize store.chain s = near at paired
  generalize other.chain t = far at paired
  induction paired with
  | nil => exact .none
  | @cons u v _ _ here _ ih =>
    rw [List.findSome?_cons,List.findSome?_cons]
    rcases eq_none_or_eq_some_of_rel (agree here) with ⟨left,right⟩ | ⟨a,b,related,left,right⟩ <;>
      rw [left,right]
    · exact ih
    · exact .some related

theorem nearest? {α : Type} {pick : Frame β → Option α} (mirrors : Mirrors twin kin store other)
    (twins : twin s t)
    (same : ∀ {s t}, twin s t → pick (other.frame t) = pick (store.frame s)) :
    t.nearest? other pick = s.nearest? store pick := by
  have agree : Option.Rel Eq (s.nearest? store pick) (t.nearest? other pick) := by
    refine mirrors.findSome? twins fun here => ?_
    rw [same here]
    cases pick (store.frame _)
    · exact .none
    · exact .some rfl
  rcases eq_none_or_eq_some_of_rel agree with ⟨left,right⟩ | ⟨_,_,rfl,left,right⟩ <;>
    rw [left,right]

theorem lookupVariable (mirrors : Mirrors twin kin store other) (twins : twin s t)
    (name : String) : t.lookupVariable other name = s.lookupVariable store name := by
  rw [Scope.lookupVariable,mirrors.nearest? twins fun here => by rw [mirrors.bindings here]]
  rfl

theorem lookupFunction (mirrors : Mirrors twin kin store other) (twins : twin s t)
    (name : String) : t.lookupFunction other name = s.lookupFunction store name := by
  rw [Scope.lookupFunction,mirrors.nearest? twins fun here => by rw [mirrors.functions here]]
  rfl

theorem definesHere (mirrors : Mirrors twin kin store other) (twins : twin s t)
    (name : String) : t.definesHere other name = s.definesHere store name := by
  rw [Scope.definesHere,Scope.definesHere,mirrors.bindings twins]

theorem owner? (mirrors : Mirrors twin kin store other) (twins : twin s t) (name : String) :
    Option.Rel twin (s.owner? store name) (t.owner? other name) := by
  rw [Scope.owner?,Scope.owner?,← List.findSome?_guard,← List.findSome?_guard]
  refine mirrors.findSome? twins fun {u v} here => ?_
  rw [Option.guard,Option.guard,mirrors.definesHere here]
  split
  · exact .some here
  · exact .none

theorem lookupClass (mirrors : Mirrors twin kin store other) (twins : twin s t) (name : String) :
    (∃ e, s.lookupClass store name = .error e ∧ t.lookupClass other name = .error e) ∨
      ∃ c d, kin c d ∧ s.lookupClass store name = .ok c ∧ t.lookupClass other name = .ok d := by
  have found : Option.Rel kin (s.nearest? store (·.classes.get? name))
      (t.nearest? other (·.classes.get? name)) :=
    mirrors.findSome? twins fun here => mirrors.classes here name
  unfold Scope.lookupClass
  rcases eq_none_or_eq_some_of_rel found with ⟨left,right⟩ | ⟨c,d,related,left,right⟩ <;>
    rw [left,right]
  · exact .inl ⟨_,rfl,rfl⟩
  · exact .inr ⟨c,d,related,rfl,rfl⟩

theorem classConflict? (mirrors : Mirrors twin kin store other) (twins : twin s t) (c : Class β) :
    t.classConflict? other c = s.classConflict? store c := by
  have taken : (other.frame t).classes.contains c.qualifiedName =
      (store.frame s).classes.contains c.qualifiedName := by
    unfold Table.contains
    rcases eq_none_or_eq_some_of_rel (mirrors.classes twins c.qualifiedName) with
      ⟨left,right⟩ | ⟨_,_,_,left,right⟩ <;> rw [left,right]
    rfl
  simp only [Scope.classConflict?,taken]
  rcases eq_none_or_eq_some_of_rel (mirrors.classes twins c.name) with
    ⟨left,right⟩ | ⟨d,e,related,left,right⟩
  · simp only [left,right]
  · simp only [left,right,mirrors.definition related]

def Knows (kin : ClassId → ClassId → Prop) (store : Store β) (value : Value) : Prop :=
  ∀ o, value = .object o → kin (store.object o).definition (store.object o).definition

theorem isInstanceOf (mirrors : Mirrors twin kin store other) (labelled : store.Labelled)
    (also : other.Labelled) (o : Object) (name : String) :
    o.isInstanceOf other name = o.isInstanceOf store name := by
  have same := mirrors.object o
  rw [Bool.eq_iff_iff]
  constructor
  · intro member
    have descends := Object.descends_of_isInstanceOf also member
    rw [same] at descends
    exact Object.isInstanceOf_of_descends descends
  · intro member
    have descends := Object.descends_of_isInstanceOf labelled member
    rw [← same] at descends
    exact Object.isInstanceOf_of_descends descends

theorem cast (mirrors : Mirrors twin kin store other) (labelled : store.Labelled)
    (also : other.Labelled) {value : Value} (knows : Knows kin store value) (type : TypeName) :
    value.cast other type = value.cast store type := by
  cases value with
  | object o =>
    have definition : other.definitionOf o = store.definitionOf o := by
      rw [Store.definitionOf,mirrors.object,mirrors.definition (knows o rfl)]
      rfl
    cases type <;>
      simp only [Value.cast,Value.castObject,Value.text,definition,
        mirrors.isInstanceOf labelled also]
  | _ => rfl

theorem create (mirrors : Mirrors twin kin store other) (labelled : store.Labelled)
    (also : other.Labelled) {value : Value} (knows : Knows kin store value) (name : String)
    (type : TypeName) :
    Variable.create other name type value = Variable.create store name type value := by
  rw [Variable.create,mirrors.cast labelled also knows]
  rfl

theorem assign (mirrors : Mirrors twin kin store other) (labelled : store.Labelled)
    (also : other.Labelled) {value : Value} (knows : Knows kin store value) (v : Variable) :
    v.assign other value = v.assign store value := by
  rw [Variable.assign,Variable.prepare,mirrors.cast labelled also knows]
  rfl

/-- What happens in the other store beside the twins leaves them twins. -/
theorem aside {beyond : Store β} (mirrors : Mirrors twin kin store other)
    (frames : ∀ {s t}, twin s t → beyond.frame t = other.frame t)
    (scopes : other.frames.size ≤ beyond.frames.size)
    (classes : other.classes.size ≤ beyond.classes.size)
    (definitions : ∀ d : ClassId, d.index < other.classes.size →
      beyond.classOf d = other.classOf d)
    (object : ∀ o, beyond.object o = other.object o) : Mirrors twin kin store beyond where
  opened here := ⟨(mirrors.opened here).1,Nat.lt_of_lt_of_le (mirrors.opened here).2 scopes⟩
  paired := mirrors.paired
  enclosing here := by
    rw [frames here]
    exact mirrors.enclosing here
  bindings here := by
    rw [frames here]
    exact mirrors.bindings here
  functions here := by
    rw [frames here]
    exact mirrors.functions here
  classes here name := by
    rw [frames here]
    exact mirrors.classes here name
  allotted related :=
    ⟨(mirrors.allotted related).1,Nat.lt_of_lt_of_le (mirrors.allotted related).2 classes⟩
  related := mirrors.related
  definition related :=
    (definitions _ (mirrors.allotted related).2).trans (mirrors.definition related)
  object o := (object o).trans (mirrors.object o)

theorem write {f : Frame β → Frame β} (mirrors : Mirrors twin kin store other) (twins : twin s t)
    (enclosing : ∀ frame, (f frame).enclosing = frame.enclosing)
    (classes : ∀ frame, (f frame).classes = frame.classes)
    (alike : ∀ a b : Frame β, a.bindings = b.bindings → a.functions = b.functions →
      (f a).bindings = (f b).bindings ∧ (f a).functions = (f b).functions) :
    Mirrors twin kin (store.modifyFrame s f) (other.modifyFrame t f) := by
  have frames : ∀ {u v}, twin u v →
      ((store.modifyFrame s f).frame u = store.frame u ∧
        (other.modifyFrame t f).frame v = other.frame v) ∨
      ((store.modifyFrame s f).frame u = f (store.frame u) ∧
        (other.modifyFrame t f).frame v = f (other.frame v)) := by
    intro u v here
    by_cases same : u = s
    · obtain rfl : v = t := (mirrors.paired here twins).mp same
      subst same
      exact .inr ⟨Store.frame_modifyFrame_self (mirrors.opened here).1 f,
        Store.frame_modifyFrame_self (mirrors.opened here).2 f⟩
    · have apart : v ≠ t := mt (mirrors.paired here twins).mpr same
      exact .inl ⟨Store.frame_modifyFrame_of_ne same store f,
        Store.frame_modifyFrame_of_ne apart other f⟩
  refine { mirrors with
    opened := fun here => ?_
    enclosing := fun here => ?_
    bindings := fun here => ?_
    functions := fun here => ?_
    classes := fun here name => ?_ }
  · simp only [Store.modifyFrame,Arena.size_modify]
    exact mirrors.opened here
  · rcases frames here with ⟨left,right⟩ | ⟨left,right⟩ <;> rw [left,right]
    · exact mirrors.enclosing here
    · rw [enclosing,enclosing]
      exact mirrors.enclosing here
  · rcases frames here with ⟨left,right⟩ | ⟨left,right⟩ <;> rw [left,right]
    · exact mirrors.bindings here
    · exact (alike _ _ (mirrors.bindings here) (mirrors.functions here)).1
  · rcases frames here with ⟨left,right⟩ | ⟨left,right⟩ <;> rw [left,right]
    · exact mirrors.functions here
    · exact (alike _ _ (mirrors.bindings here) (mirrors.functions here)).2
  · rcases frames here with ⟨left,right⟩ | ⟨left,right⟩ <;> rw [left,right]
    · exact mirrors.classes here name
    · rw [classes,classes]
      exact mirrors.classes here name

theorem enter (mirrors : Mirrors twin kin store other) (twins : twin s t) :
    Mirrors (fun u v => twin u v ∨ u = (store.child s).1 ∧ v = (other.child t).1) kin
      (store.child s).2 (other.child t).2 := by
  have left : ∀ {u v}, twin u v → (store.child s).2.frame u = store.frame u := fun here =>
    Store.frame_child_of_ne (Nat.ne_of_lt (mirrors.opened here).1) s
  have right : ∀ {u v}, twin u v → (other.child t).2.frame v = other.frame v := fun here =>
    Store.frame_child_of_ne (Nat.ne_of_lt (mirrors.opened here).2) t
  refine { mirrors with
    opened := ?_, paired := ?_, enclosing := ?_, bindings := ?_, functions := ?_, classes := ?_ }
  · rintro u v (here | ⟨rfl,rfl⟩)
    · obtain ⟨near,far⟩ := mirrors.opened here
      simp only [Store.child,Store.addFrame,Arena.size_push]
      omega
    · simp [Store.child,Store.addFrame]
  · refine one_to_one_extend mirrors.paired fun here => ?_
    obtain ⟨near,far⟩ := mirrors.opened here
    exact ⟨fun same => Nat.ne_of_lt near (congrArg Scope.index same),
      fun same => Nat.ne_of_lt far (congrArg Scope.index same)⟩
  · rintro u v (here | ⟨rfl,rfl⟩)
    · rw [left here,right here]
      exact (mirrors.enclosing here).imp fun _ _ => .inl
    · rw [Store.frame_child_self,Store.frame_child_self]
      exact (mirrors.chain twins).imp fun _ _ => .inl
  · rintro u v (here | ⟨rfl,rfl⟩)
    · rw [left here,right here]
      exact mirrors.bindings here
    · rw [Store.frame_child_self,Store.frame_child_self]
  · rintro u v (here | ⟨rfl,rfl⟩)
    · rw [left here,right here]
      exact mirrors.functions here
    · rw [Store.frame_child_self,Store.frame_child_self]
  · rintro u v (here | ⟨rfl,rfl⟩) name
    · rw [left here,right here]
      exact mirrors.classes here name
    · rw [Store.frame_child_self,Store.frame_child_self]
      exact .none

/-- A class that is defined in both twins makes the new classes kin. -/
theorem adopt (mirrors : Mirrors twin kin store other) (twins : twin s t) (c : Class β) :
    Mirrors twin (fun d e => kin d e ∨ d = (store.addClass c).1 ∧ e = (other.addClass c).1)
      (s.adopt store c) (t.adopt other c) := by
  have classes : ∀ {u v}, twin u v → ∀ name,
      Option.Rel (fun d e => kin d e ∨ d = (store.addClass c).1 ∧ e = (other.addClass c).1)
        (((s.adopt store c).frame u).classes.get? name)
        (((t.adopt other c).frame v).classes.get? name) := by
    intro u v here name
    have old : Option.Rel
        (fun d e => kin d e ∨ d = (store.addClass c).1 ∧ e = (other.addClass c).1)
        ((store.frame u).classes.get? name) ((other.frame v).classes.get? name) := by
      rcases eq_none_or_eq_some_of_rel (mirrors.classes here name) with
        ⟨left,right⟩ | ⟨d,e,related,left,right⟩ <;> rw [left,right]
      · exact .none
      · exact .some (.inl related)
    by_cases same : u = s
    · obtain rfl : v = t := (mirrors.paired here twins).mp same
      subst same
      rw [Scope.get?_adopt (mirrors.opened here).1,Scope.get?_adopt (mirrors.opened here).2]
      split
      · exact .some (.inr ⟨rfl,rfl⟩)
      · exact old
    · have apart : v ≠ t := mt (mirrors.paired here twins).mpr same
      rw [Scope.frame_adopt_of_ne same,Scope.frame_adopt_of_ne apart]
      exact old
  refine { mirrors with
    opened := fun here => ?_
    enclosing := fun here => ?_
    bindings := fun here => ?_
    functions := fun here => ?_
    classes
    allotted := ?_
    related := ?_
    definition := ?_ }
  · rw [Scope.frames_adopt,Scope.frames_adopt]
    exact mirrors.opened here
  · rw [(s.frame_adopt store c _).1,(t.frame_adopt other c _).1]
    exact mirrors.enclosing here
  · rw [(s.frame_adopt store c _).2.1,(t.frame_adopt other c _).2.1]
    exact mirrors.bindings here
  · rw [(s.frame_adopt store c _).2.2,(t.frame_adopt other c _).2.2]
    exact mirrors.functions here
  · rintro d e (related | ⟨rfl,rfl⟩) <;> rw [Scope.size_adopt,Scope.size_adopt]
    · obtain ⟨near,far⟩ := mirrors.allotted related
      exact ⟨Nat.lt_succ_of_lt near,Nat.lt_succ_of_lt far⟩
    · exact ⟨Nat.lt_succ_self _,Nat.lt_succ_self _⟩
  · refine one_to_one_extend mirrors.related fun related => ?_
    obtain ⟨near,far⟩ := mirrors.allotted related
    exact ⟨fun same => Nat.ne_of_lt near (congrArg ClassId.index same),
      fun same => Nat.ne_of_lt far (congrArg ClassId.index same)⟩
  · rintro d e (related | ⟨rfl,rfl⟩)
    · obtain ⟨near,far⟩ := mirrors.allotted related
      rw [Scope.classOf_adopt_of_lt near,Scope.classOf_adopt_of_lt far]
      exact mirrors.definition related
    · rw [Scope.classOf_adopt_self,Scope.classOf_adopt_self]

end Mirrors
end ObjectModel
