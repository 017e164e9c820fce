import ObjectModel.Proofs.Journal

/-! Courses of a world. Whatever is done to it from outside, by single events or by calls whose
bodies do as they like, comes down to a series of events. A rule says which events may happen, in
view of all the stores passed so far; what each event that is admitted keeps, every course keeps. -/
namespace ObjectModel.World

variable {β σ : Type}

/-- Each event of a series is admitted when its turn comes. The stores so far are given to the
rule, the present one first. -/
def Conforms (host : Host β σ) (rule : List (Store β) → Event β σ → Prop) :
    List (Store β) → World β σ → List (Event β σ) → Prop
  | _, _, [] => True
  | past, w, e :: rest =>
    rule (w.store :: past) e ∧ Conforms host rule (w.store :: past) (e.perform host w) rest

def passed (host : Host β σ) : List (Store β) → World β σ → List (Event β σ) → List (Store β)
  | past, _, [] => past
  | past, w, e :: rest => passed host (w.store :: past) (e.perform host w) rest

/-- The worlds that events and calls lead to, with the stores passed on the way, latest first. -/
inductive Attains (host : Host β σ) (rule : List (Store β) → Event β σ → Prop)
    (start : World β σ) : List (Store β) → World β σ → Prop where
  | start : Attains host rule start [] start
  | event {past : List (Store β)} {w : World β σ} {e : Event β σ}
      (before : Attains host rule start past w) (admitted : rule (w.store :: past) e) :
      Attains host rule start (w.store :: past) (e.perform host w)
  | call {past : List (Store β)} {w after : World β σ} {levels : Nat} {ctx back : Context}
      {c : Call β} {result : Except Error Value} (before : Attains host rule start past w)
      (returned : c.perform host (Program.run host levels) ctx w = (some (result,after),back))
      (admitted : Conforms host rule past w ((c.journal host levels ctx w).map (·.event))) :
      Attains host rule start
        (passed host past w ((c.journal host levels ctx w).map (·.event))) after

variable {host : Host β σ} {rule : List (Store β) → Event β σ → Prop} {start w : World β σ}
  {past : List (Store β)} {invariant : List (Store β) → Store β → Prop}

theorem Attains.series {events : List (Event β σ)} (attained : Attains host rule start past w)
    (conforms : Conforms host rule past w events) :
    Attains host rule start (passed host past w events) (w.replay host events) := by
  induction events generalizing past w with
  | nil => exact attained
  | cons e rest ih => exact ih (attained.event conforms.1) conforms.2

theorem Conforms.holds {events : List (Event β σ)}
    (kept : ∀ past (w : World β σ) e, invariant past w.store → rule (w.store :: past) e →
      invariant (w.store :: past) (e.perform host w).store)
    (conforms : Conforms host rule past w events) (holds : invariant past w.store) :
    invariant (passed host past w events) (w.replay host events).store := by
  induction events generalizing past w with
  | nil => exact holds
  | cons e rest ih => exact ih conforms.2 (kept past w e holds conforms.1)

/-- A step invariant is a course invariant. -/
theorem Attains.holds (invariant : List (Store β) → Store β → Prop)
    (kept : ∀ past (w : World β σ) e, invariant past w.store → rule (w.store :: past) e →
      invariant (w.store :: past) (e.perform host w).store)
    (attained : Attains host rule start past w) (holds : invariant [] start.store) :
    invariant past w.store := by
  induction attained with
  | start => exact holds
  | event _ admitted ih => exact kept _ _ _ ih admitted
  | call _ returned admitted ih =>
    rw [← Call.replay_journal returned]
    exact admitted.holds kept ih

end ObjectModel.World
