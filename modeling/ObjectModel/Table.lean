/-! Insertion-ordered tables keyed by names. Inserting under a present name replaces the entry
where it stands, so the order is that of first insertion. -/
namespace ObjectModel

structure Table (α : Type) where
  entries : List (String × α)
  deriving Repr

namespace Table

variable {α : Type}

def empty : Table α := ⟨[]⟩

instance : Inhabited (Table α) := ⟨empty⟩

def lookup (name : String) : List (String × α) → Option α
  | [] => none
  | (key, value) :: rest => if key = name then some value else lookup name rest

def get? (t : Table α) (name : String) : Option α := lookup name t.entries

def contains (t : Table α) (name : String) : Bool := (t.get? name).isSome

def put (name : String) (value : α) : List (String × α) → List (String × α)
  | [] => [(name, value)]
  | (key, old) :: rest =>
    if key = name then (key, value) :: rest else (key, old) :: put name value rest

def insert (t : Table α) (name : String) (value : α) : Table α := ⟨put name value t.entries⟩

/-- Inserts the entries of another table after one's own, in their order. -/
def merge (t other : Table α) : Table α :=
  other.entries.foldl (fun table entry => table.insert entry.1 entry.2) t

def names (t : Table α) : List String := t.entries.map (·.1)

def values (t : Table α) : List α := t.entries.map (·.2)

theorem lookup_put_self (name : String) (value : α) (entries : List (String × α)) :
    lookup name (put name value entries) = some value := by
  induction entries with
  | nil => simp [put, lookup]
  | cons entry rest ih =>
    obtain ⟨key, old⟩ := entry
    by_cases same : key = name <;> simp [put, lookup, same, ih]

theorem lookup_put_of_ne {name other : String} (apart : other ≠ name) (value : α)
    (entries : List (String × α)) :
    lookup other (put name value entries) = lookup other entries := by
  induction entries with
  | nil => simp [put, lookup, apart.symm]
  | cons entry rest ih =>
    obtain ⟨key, old⟩ := entry
    by_cases same : key = name
    · simp [put, lookup, same, apart.symm]
    · simp [put, lookup, same, ih]

@[simp] theorem get?_insert_self (t : Table α) (name : String) (value : α) :
    (t.insert name value).get? name = some value :=
  lookup_put_self name value t.entries

theorem get?_insert_of_ne {name other : String} (apart : other ≠ name) (t : Table α) (value : α) :
    (t.insert name value).get? other = t.get? other :=
  lookup_put_of_ne apart value t.entries

theorem get?_insert_cases {t : Table α} {name other : String} {value found : α}
    (entry : (t.insert name value).get? other = some found) :
    other = name ∧ found = value ∨ t.get? other = some found := by
  by_cases same : other = name
  · subst same
    rw [get?_insert_self] at entry
    exact .inl ⟨rfl, (Option.some.inj entry).symm⟩
  · rw [get?_insert_of_ne same] at entry
    exact .inr entry

theorem mem_names_put (name other : String) (value : α) (entries : List (String × α)) :
    other ∈ (put name value entries).map (·.1) ↔ other = name ∨ other ∈ entries.map (·.1) := by
  induction entries with
  | nil => simp [put]
  | cons entry rest ih =>
    obtain ⟨key, old⟩ := entry
    by_cases same : key = name
    · simp [put, same]
    · simp only [put, same, if_false, List.map_cons, List.mem_cons, ih]
      exact or_left_comm

theorem nodup_names_insert {t : Table α} (distinct : t.names.Nodup) (name : String) (value : α) :
    (t.insert name value).names.Nodup := by
  obtain ⟨entries⟩ := t
  change (entries.map (·.1)).Nodup at distinct
  change ((put name value entries).map (·.1)).Nodup
  induction entries with
  | nil => simp [put]
  | cons entry rest ih =>
    obtain ⟨key, old⟩ := entry
    obtain ⟨absent, others⟩ := List.nodup_cons.mp distinct
    by_cases same : key = name
    · simpa [put, same] using distinct
    · simp only [put, same, if_false, List.map_cons, List.nodup_cons]
      refine ⟨fun present => ?_, ih others⟩
      rcases (mem_names_put name key value rest).mp present with again | present
      · exact same again
      · exact absent present

theorem lookup_eq_none {name : String} {entries : List (String × α)}
    (absent : name ∉ entries.map (·.1)) : lookup name entries = none := by
  induction entries with
  | nil => rfl
  | cons entry rest ih =>
    obtain ⟨key, old⟩ := entry
    simp only [List.map_cons, List.mem_cons, not_or] at absent
    simp [lookup, Ne.symm absent.1, ih absent.2]

/-- A merged table has the entries of the other one, and its own where that has none. -/
theorem get?_merge {other : Table α} (distinct : other.names.Nodup) (t : Table α) (name : String) :
    (t.merge other).get? name = (other.get? name).or (t.get? name) := by
  obtain ⟨entries⟩ := other
  change (entries.map (·.1)).Nodup at distinct
  change (entries.foldl (fun table entry => table.insert entry.1 entry.2) t).get? name =
    (lookup name entries).or (t.get? name)
  induction entries generalizing t with
  | nil => rfl
  | cons entry rest ih =>
    obtain ⟨key, value⟩ := entry
    obtain ⟨absent, others⟩ := List.nodup_cons.mp distinct
    rw [List.foldl_cons, ih _ others]
    by_cases same : key = name
    · subst same
      simp [lookup, lookup_eq_none absent]
    · simp [lookup, same, get?_insert_of_ne (Ne.symm same)]

theorem names_insert_of_some {t : Table α} {name : String} {old : α}
    (present : t.get? name = some old) (value : α) : (t.insert name value).names = t.names := by
  obtain ⟨entries⟩ := t
  change lookup name entries = some old at present
  change (put name value entries).map (·.1) = entries.map (·.1)
  induction entries with
  | nil => simp [lookup] at present
  | cons entry rest ih =>
    obtain ⟨key, other⟩ := entry
    by_cases same : key = name
    · simp [put, same]
    · simp only [lookup, same, if_false] at present
      simp [put, same, ih present]

theorem entries_insert_of_none {t : Table α} {name : String} (absent : t.get? name = none)
    (value : α) : (t.insert name value).entries = t.entries ++ [(name, value)] := by
  obtain ⟨entries⟩ := t
  change lookup name entries = none at absent
  change put name value entries = entries ++ [(name, value)]
  induction entries with
  | nil => rfl
  | cons entry rest ih =>
    obtain ⟨key, old⟩ := entry
    by_cases same : key = name
    · simp [lookup, same] at absent
    · simp only [lookup, same, if_false] at absent
      simp [put, same, ih absent]

theorem get?_of_mem {t : Table α} {name : String} {value : α} (distinct : t.names.Nodup)
    (member : (name, value) ∈ t.entries) : t.get? name = some value := by
  obtain ⟨entries⟩ := t
  change (entries.map (·.1)).Nodup at distinct
  change (name, value) ∈ entries at member
  change lookup name entries = some value
  induction entries with
  | nil => contradiction
  | cons entry rest ih =>
    obtain ⟨key, old⟩ := entry
    obtain ⟨absent, others⟩ := List.nodup_cons.mp distinct
    rcases List.mem_cons.mp member with first | later
    · obtain ⟨rfl, rfl⟩ := Prod.mk.inj first
      simp [lookup]
    · have apart : key ≠ name := by
        rintro rfl
        exact absent (List.mem_map.mpr ⟨_, later, rfl⟩)
      simpa [lookup, apart] using ih others later

theorem mem_values_of_get? {t : Table α} {name : String} {value : α}
    (found : t.get? name = some value) : value ∈ t.values := by
  obtain ⟨entries⟩ := t
  change lookup name entries = some value at found
  change value ∈ entries.map (·.2)
  induction entries with
  | nil => simp [lookup] at found
  | cons entry rest ih =>
    obtain ⟨key, other⟩ := entry
    by_cases same : key = name
    · simp only [lookup, same, if_true, Option.some.injEq] at found
      simp [found]
    · simp only [lookup, same, if_false] at found
      simp [ih found]

theorem mem_values_insert {t : Table α} {name : String} {value found : α}
    (held : found ∈ (t.insert name value).values) : found = value ∨ found ∈ t.values := by
  obtain ⟨entries⟩ := t
  change found ∈ (put name value entries).map (·.2) at held
  change found = value ∨ found ∈ entries.map (·.2)
  induction entries with
  | nil => simpa [put] using held
  | cons entry rest ih =>
    obtain ⟨key, other⟩ := entry
    by_cases same : key = name
    · simp only [put, same, if_true, List.map_cons, List.mem_cons] at held ⊢
      rcases held with new | old
      · exact .inl new
      · exact .inr (.inr old)
    · simp only [put, same, if_false, List.map_cons, List.mem_cons] at held ⊢
      rcases held with first | later
      · exact .inr (.inl first)
      · rcases ih later with new | old
        · exact .inl new
        · exact .inr (.inr old)

theorem mem_values_merge {t other : Table α} {found : α} (held : found ∈ (t.merge other).values) :
    found ∈ t.values ∨ found ∈ other.values := by
  obtain ⟨entries⟩ := other
  change found ∈ (entries.foldl (fun table entry => table.insert entry.1 entry.2) t).values at held
  change found ∈ t.values ∨ found ∈ entries.map (·.2)
  induction entries generalizing t with
  | nil => exact .inl held
  | cons entry rest ih =>
    rw [List.map_cons, List.mem_cons]
    rcases ih held with inserted | later
    · rcases mem_values_insert inserted with new | old
      · exact .inr (.inl new)
      · exact .inl old
    · exact .inr (.inr later)

end Table

def insertName (name : String) : List String → List String
  | [] => [name]
  | other :: rest =>
    if name < other then name :: other :: rest
    else if other < name then other :: insertName name rest
    else other :: rest

/-- The distinct names of a list, in ascending order of code points. -/
def sortNames (names : List String) : List String := names.foldr insertName []

end ObjectModel
