import ObjectModel.Object.Member

/-! Which declaration becomes the member of a new instance. The walk goes through the hierarchy
from its end and overwrites, so that each name keeps the declaration met first from the front: the
private one of the class itself, or else the first public one. -/
namespace ObjectModel.ClassId

variable {β : Type} {store : Store β} {scope : Scope} {c d : ClassId}

def ancestor (store : Store β) (scope : Scope) (c : ClassId) (entry : String) :
    Except Error ClassId :=
  if entry = (store.classOf c).qualifiedName then .ok c else scope.lookupClass store entry

/-- What a class adds to the instances of another one, or of its own, under a name. -/
def declaration (store : Store β) (c d : ClassId) (name : String) : Option Variable :=
  (if d = c then (store.classOf c).privateVariables.get? name else none).or
    ((store.classOf d).publicVariables.get? name)

theorem declaration_cases {name : String} {v : Variable}
    (added : declaration store c d name = some v) :
    (store.classOf c).privateVariables.get? name = some v ∨
      (store.classOf d).publicVariables.get? name = some v := by
  unfold declaration at added
  rcases Option.or_eq_some_iff.mp added with own | ⟨_,shown⟩
  · split at own
    · exact .inl own
    · contradiction
  · exact .inr shown

def inherited (store : Store β) (scope : Scope) (c : ClassId) (name entry : String) :
    Option Variable :=
  match ancestor store scope c entry with
  | .ok d => declaration store c d name
  | .error _ => none

theorem layout_cons (entry : String) (rest : List String) (members : Table Variable) :
    layout store scope c (entry :: rest) members =
      match ancestor store scope c entry with
      | .error e => .error e
      | .ok d =>
        layout store scope c rest
          (if d = c then
            (members.merge (store.classOf d).publicVariables).merge
              (store.classOf c).privateVariables
          else members.merge (store.classOf d).publicVariables) := rfl

structure Distinct (store : Store β) (scope : Scope) (c : ClassId) (entries : List String) :
    Prop where
  own : (store.classOf c).privateVariables.names.Nodup
  each : ∀ entry ∈ entries, ∀ d, ancestor store scope c entry = .ok d →
    (store.classOf d).publicVariables.names.Nodup

theorem Distinct.tail {entry : String} {rest : List String}
    (distinct : Distinct store scope c (entry :: rest)) : Distinct store scope c rest :=
  ⟨distinct.own,fun other member => distinct.each other (List.mem_cons_of_mem _ member)⟩

theorem get?_overlaid (own : (store.classOf c).privateVariables.names.Nodup)
    (shown : (store.classOf d).publicVariables.names.Nodup) (members : Table Variable)
    (name : String) :
    (if d = c then
        (members.merge (store.classOf d).publicVariables).merge (store.classOf c).privateVariables
      else members.merge (store.classOf d).publicVariables).get? name =
      (declaration store c d name).or (members.get? name) := by
  unfold declaration
  by_cases same : d = c
  · rw [if_pos same,if_pos same,Table.get?_merge own,Table.get?_merge shown,Option.or_assoc]
  · rw [if_neg same,if_neg same,Table.get?_merge shown,Option.none_or]

theorem get?_layout {entries : List String} {members result : Table Variable}
    (distinct : Distinct store scope c entries)
    (laid : layout store scope c entries members = .ok result) (name : String) :
    result.get? name =
      (entries.reverse.findSome? (inherited store scope c name)).or (members.get? name) := by
  induction entries generalizing members with
  | nil =>
    obtain rfl := Except.ok.inj laid
    rfl
  | cons entry rest ih =>
    rw [layout_cons] at laid
    cases found : ancestor store scope c entry with
    | error e =>
      rw [found] at laid
      contradiction
    | ok d =>
      rw [found] at laid
      have shown := distinct.each entry List.mem_cons_self d found
      have added : inherited store scope c name entry = declaration store c d name := by
        rw [inherited,found]
      rw [ih distinct.tail laid,get?_overlaid distinct.own shown,List.reverse_cons,
        List.findSome?_append,List.findSome?_singleton,added,Option.or_assoc]

/-- A member of a new instance is what the first entry of its hierarchy to add one adds. -/
theorem get?_layout_reverse {hierarchy : List String} {members : Table Variable}
    (distinct : Distinct store scope c hierarchy)
    (laid : layout store scope c hierarchy.reverse .empty = .ok members) (name : String) :
    members.get? name = hierarchy.findSome? (inherited store scope c name) := by
  have turned : Distinct store scope c hierarchy.reverse :=
    ⟨distinct.own,fun entry member => distinct.each entry (List.mem_reverse.mp member)⟩
  rw [get?_layout turned laid,List.reverse_reverse]
  exact Option.or_none

end ObjectModel.ClassId
