import ObjectModel.Class

/-! Classes as declarations make them. Each table of a declared class keeps what it is for:
variables of one visibility, methods under their own names. -/
namespace ObjectModel

variable {β : Type}

namespace Table

structure Keeps (t : Table Variable) (visibility : Visibility) : Prop where
  distinct : t.names.Nodup
  uniform : ∀ name v, t.get? name = some v → v.visibility = visibility

theorem Keeps.empty (visibility : Visibility) : Keeps .empty visibility :=
  ⟨List.nodup_nil,fun _ _ found => nomatch found⟩

theorem Keeps.insert {t : Table Variable} {visibility : Visibility} (kept : t.Keeps visibility)
    {v : Variable} (selected : v.visibility = visibility) :
    (t.insert v.name v).Keeps visibility := by
  refine ⟨nodup_names_insert kept.distinct v.name v,fun name found entry => ?_⟩
  rcases get?_insert_cases entry with ⟨_,rfl⟩ | old
  · exact selected
  · exact kept.uniform name found old

def Named (t : Table (Function β)) : Prop := ∀ name f, t.get? name = some f → f.name = name

theorem Named.empty : Named (.empty : Table (Function β)) := fun _ _ found => nomatch found

theorem Named.insert {t : Table (Function β)} (named : t.Named) {name : String} {f : Function β}
    (own : f.name = name) : (t.insert name f).Named := by
  intro other found entry
  rcases get?_insert_cases entry with ⟨rfl,rfl⟩ | old
  · exact own
  · exact named other found old

end Table

namespace Class

/-- The classes that declarations lead to from a new one. -/
inductive Declared : Class β → Prop where
  | new (name modulePath : String) (parents : List String) : Declared { name, modulePath, parents }
  | documented {c : Class β} (declared : Declared c) (documentation : List String) :
      Declared { c with documentation }
  | withVariable {c : Class β} (declared : Declared c) (v : Variable) :
      Declared (c.declareVariable v)
  | withSharedVariable {c : Class β} (declared : Declared c) (v : Variable) :
      Declared (c.declareSharedVariable v)
  | withFunction {c : Class β} (declared : Declared c) (f : Function β) (visibility : Visibility) :
      Declared (c.declareFunction f visibility)
  | withSharedFunction {c : Class β} (declared : Declared c) (f : Function β) :
      Declared (c.declareSharedFunction f)
  | withFallback {c : Class β} (declared : Declared c) (handler : β) :
      Declared { c with fallback := some handler }

structure Orderly (c : Class β) : Prop where
  publicVariables : c.publicVariables.Keeps .shown
  privateVariables : c.privateVariables.Keeps .hidden
  publicFunctions : c.publicFunctions.Named
  privateFunctions : c.privateFunctions.Named
  sharedFunctions : c.sharedFunctions.Named

variable {c : Class β}

theorem Orderly.withParents (orderly : c.Orderly) (parents : List String) :
    Orderly { c with parents } :=
  { orderly with }

theorem Declared.orderly (declared : c.Declared) : c.Orderly := by
  induction declared with
  | new => exact ⟨.empty _,.empty _,.empty,.empty,.empty⟩
  | documented _ _ ih => exact { ih with }
  | withVariable _ v ih =>
    unfold declareVariable
    cases selected : v.visibility with
    | shown => exact { ih with publicVariables := ih.publicVariables.insert selected }
    | hidden => exact { ih with privateVariables := ih.privateVariables.insert selected }
  | withSharedVariable _ _ ih => exact { ih with }
  | withFunction _ f visibility ih =>
    cases visibility with
    | shown => exact { ih with publicFunctions := ih.publicFunctions.insert f.name_asMethod }
    | hidden => exact { ih with privateFunctions := ih.privateFunctions.insert f.name_asMethod }
  | withSharedFunction _ f ih => exact { ih with sharedFunctions := ih.sharedFunctions.insert rfl }
  | withFallback _ _ ih => exact { ih with }

end Class
end ObjectModel
