import Mathlib.Logic.Function.Basic
import ObjectModel.Proofs.Course
import ObjectModel.Proofs.Errands

/-! Forks of a runtime. Each works in a scope of its own inside the global one, and in scopes that
it opens there; it defines and reads what it likes, and takes turns with the others in any order.
As long as none assigns a variable of the global scope, each gets the replies that it gets alone,
with other identities for the classes that it has defined, and the global scope stays as it was. -/
namespace ObjectModel

variable {ι β : Type}

/-- A turn: a fork does an errand in one of its scopes, which are numbered in the order in which it
has come by them. -/
structure Turn (ι β : Type) where
  who : ι
  place : Nat
  errand : Errand β

structure Forks (ι β : Type) where
  yards : ι → List Scope
  store : Store β

namespace Forks

/-- The turn does not assign a variable that the global scope has and no nearer one. -/
def Leaves (global : Scope) (forks : Forks ι β) (t : Turn ι β) : Prop :=
  ∀ scope, (forks.yards t.who)[t.place]? = some scope → ∀ name value,
    t.errand = .assign name value → scope.owner? forks.store name ≠ some global

section

variable [DecidableEq ι]

def step (forks : Forks ι β) (t : Turn ι β) : Reply β × Forks ι β :=
  match (forks.yards t.who)[t.place]? with
  | none => (.nowhere,forks)
  | some scope =>
    match t.errand.perform scope forks.store with
    | (reply,opened,store) =>
      (reply,{ yards := Function.update forks.yards t.who (forks.yards t.who ++ opened), store })

def run (forks : Forks ι β) (turns : List (Turn ι β)) : Forks ι β :=
  turns.foldl (fun forks t => (forks.step t).2) forks

def turnsOf (i : ι) (turns : List (Turn ι β)) : List (Turn ι β) := turns.filter (·.who = i)

def answers (i : ι) : Forks ι β → List (Turn ι β) → List (Reply β)
  | _, [] => []
  | forks, t :: rest =>
    if t.who = i then (forks.step t).1 :: answers i (forks.step t).2 rest
    else answers i (forks.step t).2 rest

def Spares (global : Scope) : Forks ι β → List (Turn ι β) → Prop
  | _, [] => True
  | forks, t :: rest => forks.Leaves global t ∧ Spares global (forks.step t).2 rest

end

/-- Each fork has scopes of its own, around which there are others of its own and the global
one. -/
structure Parted (global : Scope) (forks : Forks ι β) : Prop where
  opened : global.index < forks.store.frames.size
  outermost : (forks.store.frame global).enclosing = []
  yard : ∀ {i s}, s ∈ forks.yards i → s.index < forks.store.frames.size ∧ s ≠ global ∧
    ∀ u ∈ (forks.store.frame s).enclosing, u ∈ forks.yards i ∨ u = global
  apart : ∀ {i j s}, s ∈ forks.yards i → s ∈ forks.yards j → i = j

/-- A fork at work alone, and the same one among others. The scopes of the fork and the global one
are twins, and all classes that are there for it alone are kin to classes among the others. -/
structure Tracks (global : Scope) (i : ι) (twin : Scope → Scope → Prop)
    (kin : ClassId → ClassId → Prop) (alone joint : Forks ι β) : Prop where
  mirrors : Mirrors twin kin alone.store joint.store
  labelled : alone.store.Labelled
  also : joint.store.Labelled
  yard : List.Forall₂ twin (alone.yards i) (joint.yards i)
  outer : twin global global
  within : ∀ {s t}, twin s t → t ∈ joint.yards i ∨ t = global
  total : ∀ c : ClassId, c.index < alone.store.classes.size → ∃ d, kin c d

variable {global scope : Scope} {forks alone joint : Forks ι β} {t : Turn ι β} {i : ι}
  {twin : Scope → Scope → Prop} {kin : ClassId → ClassId → Prop}

/-- Contexts in module scopes of one runtime: each is directly inside the global scope. -/
theorem Parted.of_modules {store : Store β} {scopes : ι → Scope}
    (opened : global.index < store.frames.size) (outermost : (store.frame global).enclosing = [])
    (inside : ∀ i, (store.frame (scopes i)).enclosing = [global])
    (apart : ∀ i j, scopes i = scopes j → i = j) :
    Parted global ⟨fun i => [scopes i],store⟩ := by
  refine ⟨opened,outermost,fun {i s} member => ?_,fun {i j s} first second => ?_⟩
  · obtain rfl := List.mem_singleton.mp member
    refine ⟨?_,?_,fun u around => ?_⟩
    · by_contra absent
      have blank := store.frame_of_size_le (Nat.le_of_not_lt absent)
      simpa [blank] using inside i
    · intro same
      simpa [same,outermost] using inside i
    · rw [inside] at around
      exact .inr (List.mem_singleton.mp around)
  · obtain rfl := List.mem_singleton.mp first
    exact apart i j (List.mem_singleton.mp second)

theorem Parted.chain (parted : forks.Parted global) (own : scope ∈ forks.yards i) {u : Scope}
    (member : u ∈ forks.store.chain scope) : u ∈ forks.yards i ∨ u = global := by
  rcases List.mem_cons.mp member with rfl | around
  · exact .inl own
  · exact (parted.yard own).2.2 u around

/-- A turn that leaves the global variables alone writes only into scopes of the fork whose turn it
is. -/
theorem Parted.touches (parted : forks.Parted global)
    (found : (forks.yards t.who)[t.place]? = some scope) (leaves : forks.Leaves global t)
    {u : Scope} (touched : (t.errand.plan scope forks.store).2.Touches scope u) :
    u ∈ forks.yards t.who := by
  have own : scope ∈ forks.yards t.who := List.mem_of_getElem? found
  rcases Errand.touches touched with rfl | ⟨name,value,assigns,owned⟩
  · exact own
  · rcases parted.chain own (List.mem_of_find?_eq_some owned) with within | rfl
    · exact within
    · exact absurd owned (leaves scope found name value assigns)

theorem Tracks.place (tracks : Tracks global i twin kin alone joint) (k : Nat) :
    (alone.yards i)[k]? = none ∧ (joint.yards i)[k]? = none ∨
      ∃ s t, twin s t ∧ (alone.yards i)[k]? = some s ∧ (joint.yards i)[k]? = some t := by
  have yard := tracks.yard
  generalize alone.yards i = near at yard ⊢
  generalize joint.yards i = far at yard ⊢
  induction yard generalizing k with
  | nil => exact .inl ⟨rfl,rfl⟩
  | cons twins _ ih =>
    cases k with
    | zero => exact .inr ⟨_,_,twins,rfl,rfl⟩
    | succ k => exact ih k

theorem Tracks.leaves_iff (tracks : Tracks global i twin kin alone joint) (own : t.who = i) :
    alone.Leaves global t ↔ joint.Leaves global t := by
  subst own
  unfold Leaves
  rcases tracks.place t.place with ⟨left,right⟩ | ⟨s,u,twins,left,right⟩ <;> rw [left,right]
  · simp
  · have same : ∀ name, s.owner? alone.store name = some global ↔
        u.owner? joint.store name = some global := by
      intro name
      rcases eq_none_or_eq_some_of_rel (tracks.mirrors.owner? twins name) with
        ⟨near,far⟩ | ⟨a,b,owners,near,far⟩ <;> rw [near,far]
      simp only [Option.some.injEq]
      exact tracks.mirrors.paired owners tracks.outer
    simp only [Option.some.injEq,forall_eq',ne_eq,same]

theorem Parted.tracks (parted : forks.Parted global) (labelled : forks.store.Labelled) (i : ι) :
    Tracks global i (fun s t => s = t ∧ (s ∈ forks.yards i ∨ s = global))
      (fun c d => c = d ∧ c.index < forks.store.classes.size) forks forks where
  mirrors := by
    refine .refl labelled ?_ ?_
    · rintro s (mine | rfl)
      · exact (parted.yard mine).1
      · exact parted.opened
    · rintro s (mine | rfl) u around
      · exact (parted.yard mine).2.2 u around
      · simp [parted.outermost] at around
  labelled := labelled
  also := labelled
  yard := List.forall₂_same.mpr fun s mine => ⟨rfl,.inl mine⟩
  outer := ⟨rfl,.inr rfl⟩
  within := by
    rintro s _ ⟨rfl,mine⟩
    exact mine
  total c allotted := ⟨c,rfl,allotted⟩

variable [DecidableEq ι]

def act (forks : Forks ι β) (who : ι) (scope : Scope) (e : Effect β) : Forks ι β where
  yards := Function.update forks.yards who (forks.yards who ++ e.opens scope forks.store)
  store := e.apply scope forks.store

theorem step_of_missing (missing : (forks.yards t.who)[t.place]? = none) :
    forks.step t = (.nowhere,forks) := by
  simp [step,missing]

theorem step_of_found (found : (forks.yards t.who)[t.place]? = some scope) :
    forks.step t = ((t.errand.plan scope forks.store).1,
      forks.act t.who scope (t.errand.plan scope forks.store).2) := by
  simp [step,found,Errand.perform_eq,act]

theorem yards_act_self (forks : Forks ι β) (who : ι) (scope : Scope) (e : Effect β) :
    (forks.act who scope e).yards who = forks.yards who ++ e.opens scope forks.store :=
  Function.update_self ..

theorem yards_act_of_ne {who : ι} (other : i ≠ who) (forks : Forks ι β) (scope : Scope)
    (e : Effect β) : (forks.act who scope e).yards i = forks.yards i :=
  Function.update_of_ne other ..

theorem mem_yards_act {who : ι} {e : Effect β} {s : Scope} :
    s ∈ (forks.act who scope e).yards i ↔
      s ∈ forks.yards i ∨ i = who ∧ s ∈ e.opens scope forks.store := by
  by_cases same : i = who
  · subst same
    simp [yards_act_self]
  · simp [yards_act_of_ne same,same]

theorem Parted.act {who : ι} (parted : forks.Parted global) (own : scope ∈ forks.yards who)
    (e : Effect β) : (forks.act who scope e).Parted global := by
  have grown := e.frames_le_apply scope forks.store
  -- A scope that is opened is new, and inside one of the fork's own.
  have new : ∀ s ∈ e.opens scope forks.store, e = .enter ∧ s = (forks.store.child scope).1 := by
    intro s member
    cases e with
    | enter => exact ⟨rfl,List.mem_singleton.mp member⟩
    | rest | bind | install | adopt => exact absurd member List.not_mem_nil
  refine ⟨Nat.lt_of_lt_of_le parted.opened grown,?_,?_,?_⟩
  · rw [Forks.act,e.enclosing_apply parted.opened]
    exact parted.outermost
  · intro i s member
    rcases mem_yards_act.mp member with old | ⟨rfl,opened⟩
    · obtain ⟨there,inner,around⟩ := parted.yard old
      refine ⟨Nat.lt_of_lt_of_le there grown,inner,fun u member => ?_⟩
      rw [Forks.act,e.enclosing_apply there] at member
      exact (around u member).imp_left fun kept => mem_yards_act.mpr (.inl kept)
    · obtain ⟨rfl,rfl⟩ := new s opened
      refine ⟨?_,?_,fun u member => ?_⟩
      · simp [Forks.act,Effect.apply,Store.child,Store.addFrame]
      · rintro rfl
        exact Nat.lt_irrefl _ parted.opened
      · rw [Forks.act,Effect.apply,Store.frame_child_self] at member
        exact (parted.chain own member).imp_left fun kept => mem_yards_act.mpr (.inl kept)
  · intro i j s first second
    rcases mem_yards_act.mp first with old | ⟨rfl,opened⟩ <;>
      rcases mem_yards_act.mp second with older | ⟨rfl,again⟩
    · exact parted.apart old older
    · obtain ⟨_,rfl⟩ := new s again
      exact absurd (parted.yard old).1 (Nat.lt_irrefl _)
    · obtain ⟨_,rfl⟩ := new s opened
      exact absurd (parted.yard older).1 (Nat.lt_irrefl _)
    · rfl

theorem Parted.step (parted : forks.Parted global) (t : Turn ι β) :
    (forks.step t).2.Parted global := by
  cases found : (forks.yards t.who)[t.place]? with
  | none =>
    rw [step_of_missing found]
    exact parted
  | some scope =>
    rw [step_of_found found]
    exact parted.act (List.mem_of_getElem? found) _

theorem Parted.frame_step (parted : forks.Parted global) (leaves : forks.Leaves global t) :
    (forks.step t).2.store.frame global = forks.store.frame global := by
  cases found : (forks.yards t.who)[t.place]? with
  | none => rw [step_of_missing found]
  | some scope =>
    rw [step_of_found found]
    refine Effect.frame_apply _ parted.opened fun touched => ?_
    exact (parted.yard (parted.touches found leaves touched)).2.1 rfl

/-- A turn of the fork itself has the same reply and keeps the correspondence. -/
theorem Tracks.own (tracks : Tracks global i twin kin alone joint)
    (mine : t.who = i) (knows : t.errand.Knows kin alone.store) :
    ∃ twins kins, Tracks global i twins kins (alone.step t).2 (joint.step t).2 ∧
      (∀ c d, kin c d → kins c d) ∧ Reply.Same kins (alone.step t).1 (joint.step t).1 := by
  subst mine
  rcases tracks.place t.place with ⟨left,right⟩ | ⟨s,u,twins,left,right⟩
  · rw [step_of_missing left,step_of_missing right]
    exact ⟨twin,kin,tracks,fun _ _ related => related,.plain nofun⟩
  · rw [step_of_found left,step_of_found right]
    obtain ⟨matched,same⟩ := tracks.mirrors.plan tracks.labelled tracks.also twins knows
    refine ⟨_,_,{
      mirrors := tracks.mirrors.apply twins matched
      labelled := Effect.labelled _ s tracks.labelled
      also := Effect.labelled _ u tracks.also
      yard := ?_
      outer := Effect.pairs_of_twin _ tracks.outer
      within := fun {a b} pair => ?_
      total := Effect.exists_relates _ s _ tracks.total },
      fun c d related => Effect.relates_of_kin _ related,same⟩
    · rw [yards_act_self,yards_act_self]
      exact List.rel_append (tracks.yard.imp fun _ _ => Effect.pairs_of_twin _) matched.opens
    · rcases matched.twin_or_opened pair with old | new
      · exact (tracks.within old).imp_left fun kept => mem_yards_act.mpr (.inl kept)
      · exact .inl (mem_yards_act.mpr (.inr ⟨rfl,new⟩))

theorem Tracks.foreign (tracks : Tracks global i twin kin alone joint)
    (parted : joint.Parted global) (other : t.who ≠ i) (leaves : joint.Leaves global t) :
    Tracks global i twin kin alone (joint.step t).2 := by
  cases found : (joint.yards t.who)[t.place]? with
  | none =>
    rw [step_of_missing found]
    exact tracks
  | some scope =>
    have spared : ∀ {s u}, twin s u →
        ¬(t.errand.plan scope joint.store).2.Touches scope u := by
      intro s u twins touched
      have theirs := parted.touches found leaves touched
      rcases tracks.within twins with mine | rfl
      · exact other (parted.apart theirs mine)
      · exact (parted.yard theirs).2.1 rfl
    rw [step_of_found found]
    generalize (t.errand.plan scope joint.store).2 = e at spared ⊢
    refine { tracks with
      mirrors := ?_, also := e.labelled scope tracks.also, yard := ?_
      within := fun {s u} twins => ?_ }
    · exact tracks.mirrors.aside
        (fun twins => e.frame_apply (tracks.mirrors.opened twins).2 (spared twins))
        (e.frames_le_apply scope _) (e.classes_le_apply scope _)
        (fun d => e.classOf_apply scope) (e.object_apply scope _)
    · rw [yards_act_of_ne other.symm]
      exact tracks.yard
    · rw [yards_act_of_ne other.symm]
      exact tracks.within twins

theorem turnsOf_cons_own (mine : t.who = i) (rest : List (Turn ι β)) :
    turnsOf i (t :: rest) = t :: turnsOf i rest := by
  simp [turnsOf,mine]

theorem turnsOf_cons_other (other : t.who ≠ i) (rest : List (Turn ι β)) :
    turnsOf i (t :: rest) = turnsOf i rest := by
  simp [turnsOf,other]

theorem object_step (forks : Forks ι β) (t : Turn ι β) (o : Object) :
    (forks.step t).2.store.object o = forks.store.object o := by
  cases found : (forks.yards t.who)[t.place]? with
  | none => rw [step_of_missing found]
  | some scope =>
    rw [step_of_found found]
    exact Effect.object_apply _ scope _ o

theorem Tracks.run {turns : List (Turn ι β)} (tracks : Tracks global i twin kin alone joint)
    (parted : joint.Parted global) (spares : joint.Spares global turns)
    (knows : ∀ t ∈ turns, t.errand.Knows kin alone.store) :
    ∃ twins kins, Tracks global i twins kins (alone.run (turnsOf i turns))
        (joint.run turns) ∧
      (∀ c d, kin c d → kins c d) ∧
      List.Forall₂ (Reply.Same kins) (alone.answers i (turnsOf i turns))
        (joint.answers i turns) ∧
      alone.Spares global (turnsOf i turns) := by
  induction turns generalizing twin kin alone joint with
  | nil => exact ⟨twin,kin,tracks,fun _ _ related => related,.nil,trivial⟩
  | cons t rest ih =>
    obtain ⟨leaves,spares⟩ := spares
    obtain ⟨known,knows⟩ := List.forall_mem_cons.mp knows
    by_cases mine : t.who = i
    · rw [turnsOf_cons_own mine]
      obtain ⟨twins,kins,tracks',wider,same⟩ := tracks.own mine known
      obtain ⟨twins',kins',tracked,widest,answered,spared⟩ := ih tracks' (parted.step t) spares
        fun u member => (knows u member).mono wider (alone.object_step t)
      refine ⟨twins',kins',tracked,fun c d related => widest c d (wider c d related),?_,
        (tracks.leaves_iff mine).mpr leaves,spared⟩
      rw [answers,answers,if_pos mine,if_pos mine]
      exact .cons (same.mono widest) answered
    · rw [turnsOf_cons_other mine]
      have tracks' := tracks.foreign parted mine leaves
      obtain ⟨twins,kins,tracked,wider,answered,spared⟩ := ih tracks' (parted.step t) spares knows
      refine ⟨twins,kins,tracked,wider,?_,spared⟩
      rw [answers,if_neg mine]
      exact answered

/-- If each fork alone leaves the global variables alone, so do all together. -/
theorem spares_of_alone {turns : List (Turn ι β)} {alone : ι → Forks ι β}
    (tracks : ∀ i, ∃ twin kin, Tracks global i twin kin (alone i) joint ∧
      ∀ t ∈ turns, t.errand.Knows kin (alone i).store)
    (parted : joint.Parted global)
    (spares : ∀ i, (alone i).Spares global (turnsOf i turns)) :
    joint.Spares global turns := by
  induction turns generalizing alone joint with
  | nil => trivial
  | cons t rest ih =>
    have mine := spares t.who
    rw [turnsOf_cons_own rfl] at mine
    obtain ⟨twin,kin,tracked,knows⟩ := tracks t.who
    have leaves := (tracked.leaves_iff rfl).mp mine.1
    -- Only the fork whose turn it is moves on, of those that work alone.
    have moved : ∀ i, ∃ twin kin,
        Tracks global i twin kin (Function.update alone t.who ((alone t.who).step t).2 i)
          (joint.step t).2 ∧
        ∀ u ∈ rest,
          u.errand.Knows kin (Function.update alone t.who ((alone t.who).step t).2 i).store := by
      intro i
      by_cases same : i = t.who
      · subst same
        rw [Function.update_self]
        obtain ⟨twins,kins,tracked,wider,_⟩ := tracked.own rfl (knows t List.mem_cons_self)
        exact ⟨twins,kins,tracked,fun u member =>
          (knows u (List.mem_cons_of_mem _ member)).mono wider (Forks.object_step _ t)⟩
      · rw [Function.update_of_ne same]
        obtain ⟨twin,kin,tracked,knows⟩ := tracks i
        exact ⟨twin,kin,tracked.foreign parted (Ne.symm same) leaves,fun u member =>
          knows u (List.mem_cons_of_mem _ member)⟩
    refine ⟨leaves,ih moved (parted.step t) fun i => ?_⟩
    by_cases same : i = t.who
    · subst same
      rw [Function.update_self]
      exact mine.2
    · rw [Function.update_of_ne same]
      have others := spares i
      rwa [turnsOf_cons_other (Ne.symm same)] at others

theorem classOf_step (forks : Forks ι β) (t : Turn ι β) {c : ClassId}
    (allotted : c.index < forks.store.classes.size) :
    c.index < (forks.step t).2.store.classes.size ∧
      (forks.step t).2.store.classOf c = forks.store.classOf c := by
  cases found : (forks.yards t.who)[t.place]? with
  | none =>
    rw [step_of_missing found]
    exact ⟨allotted,rfl⟩
  | some scope =>
    rw [step_of_found found]
    exact ⟨Nat.lt_of_lt_of_le allotted (Effect.classes_le_apply _ scope _),
      Effect.classOf_apply _ scope allotted⟩

theorem classOf_run (forks : Forks ι β) (turns : List (Turn ι β)) {c : ClassId}
    (allotted : c.index < forks.store.classes.size) :
    (forks.run turns).store.classOf c = forks.store.classOf c := by
  induction turns generalizing forks with
  | nil => rfl
  | cons t rest ih =>
    obtain ⟨still,same⟩ := forks.classOf_step t allotted
    exact (ih _ still).trans same

theorem Parted.frame_run {turns : List (Turn ι β)} (parted : forks.Parted global)
    (spares : forks.Spares global turns) :
    (forks.run turns).store.frame global = forks.store.frame global := by
  induction turns generalizing forks with
  | nil => rfl
  | cons t rest ih => exact (ih (parted.step t) spares.2).trans (parted.frame_step spares.1)

end Forks

/-- Forks that take turns in any order. Whether all leave the global variables alone can be told
from each one's turns alone. If they do, then the global scope is afterwards as it was, with the
classes it had, and each fork has got the replies that it gets for its turns alone, with other
identities for the classes that it has defined: one for each, and of the same definition. -/
theorem forks_isolated [DecidableEq ι] {σ : Type} {host : Host β σ}
    {rule : List (Store β) → Event β σ → Prop} {state : σ} {past : List (Store β)} {w : World β σ}
    (attained : World.Attains host rule ⟨.empty,state⟩ past w) {global : Scope}
    {yards : ι → List Scope} (parted : Forks.Parted global ⟨yards,w.store⟩)
    (turns : List (Turn ι β)) (grounded : ∀ t ∈ turns, t.errand.Grounded w.store) :
    let start : Forks ι β := ⟨yards,w.store⟩
    (start.Spares global turns ↔ ∀ i, start.Spares global (Forks.turnsOf i turns)) ∧
    (start.Spares global turns →
      (start.run turns).store.frame global = w.store.frame global ∧
      (∀ c : ClassId, c.index < w.store.classes.size →
        (start.run turns).store.classOf c = w.store.classOf c) ∧
      ∀ i, ∃ rename : ClassId → ClassId,
        let alone := start.run (Forks.turnsOf i turns)
        (∀ c : ClassId, c.index < w.store.classes.size → rename c = c) ∧
        (∀ c d : ClassId, c.index < alone.store.classes.size →
          d.index < alone.store.classes.size → rename c = rename d → c = d) ∧
        (∀ c : ClassId, c.index < alone.store.classes.size →
          (start.run turns).store.classOf (rename c) = alone.store.classOf c) ∧
        start.answers i turns =
          (start.answers i (Forks.turnsOf i turns)).map (·.rename rename)) := by
  intro start
  have tracks := fun i => parted.tracks attained.labelled i
  have knows : ∀ t ∈ turns, t.errand.Knows
      (fun c d => c = d ∧ c.index < w.store.classes.size) w.store := by
    intro t member
    have given := grounded t member
    cases errand : t.errand with
    | define _ _ v | assign _ v =>
      rw [errand] at given
      exact fun o same => ⟨rfl,given o same⟩
    | _ => trivial
  refine ⟨⟨fun spares i => ?_,fun spares => ?_⟩,fun spares => ⟨parted.frame_run spares,
    fun c allotted => start.classOf_run turns allotted,fun i => ?_⟩⟩
  · obtain ⟨_,_,_,_,_,spared⟩ := (tracks i).run parted spares knows
    exact spared
  · exact Forks.spares_of_alone (fun i => ⟨_,_,tracks i,knows⟩) parted spares
  · obtain ⟨_,kin,tracked,wider,answered,_⟩ := (tracks i).run parted spares knows
    choose! rename named using tracked.total
    have unique : ∀ c d, kin c d → d = rename c := by
      intro c d related
      exact (tracked.mirrors.related related (named c (tracked.mirrors.allotted related).1)).mp rfl
    refine ⟨rename,fun c old => ?_,fun c d first second same => ?_,fun c allotted => ?_,?_⟩
    · exact (unique c c (wider c c ⟨rfl,old⟩)).symm
    · exact (tracked.mirrors.related (named c first) (named d second)).mpr same
    · exact tracked.mirrors.definition (named c allotted)
    · exact Reply.map_rename answered unique

/-! Two module contexts of a runtime. One shadows a global variable and assigns its own from a scope
inside, the other reads the global one, and both define a class of the same name. -/
namespace Twain

def outer : Context := Runtime.first.globalContext

def events : List (Event Unit Unit) :=
  [.found defaultCallDepth false,.move (.ask outer (.define "X" .any (.integer 1) false)),
    .move (.enter outer.scope),.move (.enter outer.scope)]

def world : World Unit Unit := World.replay .idle ⟨.empty,()⟩ events

def scopes : Bool → Scope
  | true => ⟨1⟩
  | false => ⟨2⟩

def start : Forks Bool Unit := ⟨fun i => [scopes i],world.store⟩

def turns : List (Turn Bool Unit) :=
  [⟨true,0,.define "X" .any (.integer 5) false⟩,⟨false,0,.getVariable "X"⟩,⟨true,0,.enter⟩,
    ⟨false,0,.defineClass { name := "C", modulePath := "m" }⟩,
    ⟨true,1,.assign "X" (.integer 6)⟩,
    ⟨true,0,.defineClass { name := "C", modulePath := "m" }⟩,
    ⟨true,1,.getClass "C"⟩,⟨false,0,.getVariable "X"⟩,⟨true,0,.getVariable "X"⟩]

theorem attained : ∃ past, World.Attains .idle (fun _ _ => True) ⟨.empty,()⟩ past world := by
  have conforms : World.Conforms .idle (fun _ _ => True) [] ⟨.empty,()⟩ events :=
    ⟨trivial,trivial,trivial,trivial,trivial⟩
  exact ⟨_,.series .start conforms⟩

theorem parted : start.Parted outer.scope :=
  .of_modules (by decide) rfl (fun i => by cases i <;> rfl) (by decide)

theorem grounded : ∀ t ∈ turns, t.errand.Grounded world.store := by
  simp [turns,Errand.Grounded]

theorem spares : start.Spares outer.scope turns := by
  refine ⟨nofun,nofun,nofun,nofun,?_,nofun,nofun,nofun,nofun,trivial⟩
  intro scope found name value assigns
  obtain ⟨rfl,_⟩ := Errand.assign.inj assigns
  obtain rfl : ⟨3⟩ = scope := Option.some.inj found
  decide

end Twain

theorem forks_isolated_twain :
    (Twain.start.run Twain.turns).store.frame Twain.outer.scope =
      Twain.world.store.frame Twain.outer.scope ∧
    ∃ rename : ClassId → ClassId,
      rename ⟨0⟩ = ⟨1⟩ ∧
      Twain.start.answers true Twain.turns =
        (Twain.start.answers true (Forks.turnsOf true Twain.turns)).map (·.rename rename) := by
  obtain ⟨_,attained⟩ := Twain.attained
  obtain ⟨_,isolated⟩ := forks_isolated attained Twain.parted Twain.turns Twain.grounded
  obtain ⟨unchanged,_,each⟩ := isolated Twain.spares
  obtain ⟨rename,_,_,_,same⟩ := each true
  refine ⟨unchanged,rename,?_,same⟩
  have among : (Twain.start.answers true Twain.turns)[3]? = some (.definition (.ok ⟨1⟩)) := rfl
  have alone : (Twain.start.answers true (Forks.turnsOf true Twain.turns))[3]? =
      some (.definition (.ok ⟨0⟩)) := rfl
  have renamed : some (Reply.definition (.ok ⟨1⟩)) =
      some (Reply.rename rename (Reply.definition (.ok ⟨0⟩) : Reply Unit)) := by
    rw [← among,← Option.map_some,← alone,← List.getElem?_map]
    exact congrArg (·[3]?) same
  exact (Except.ok.inj (Reply.definition.inj (Option.some.inj renamed))).symm

end ObjectModel
