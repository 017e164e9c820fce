import ObjectModel.Equality
import ObjectModel.Proofs.History
import ObjectModel.Proofs.IntegerText

/-! Laws of the language's equality. Between values of one kind it is strict equality, and so it
holds of equal values in both orders. Nothing equals only itself, and of the other values only a
detached object equals nothing. A text that equals a boolean or an integer is the one written for
it, and so it is read as that value again; the other way round many texts are read as one value. -/
namespace ObjectModel.Value

variable {β : Type} {store : Store β} {a b : Value}

inductive Kindred : Value → Value → Prop where
  | nothing : Kindred .nothing .nothing
  | boolean (x y : Bool) : Kindred (.boolean x) (.boolean y)
  | integer (x y : Int64) : Kindred (.integer x) (.integer y)
  | double (x y : Double) : Kindred (.double x) (.double y)
  | string (x y : String) : Kindred (.string x) (.string y)
  | object (x y : Object) : Kindred (.object x) (.object y)

/-! Strict equality. -/

theorem kindred_of_same (same : a.same b = true) : a.Kindred b := by
  unfold Value.same at same
  split at same
  case h_7 => contradiction
  all_goals constructor

theorem same_comm (a b : Value) : a.same b = b.same a := by
  have double_comm : ∀ x y : Double, x.equal y = y.equal x := by
    intro x y
    simp only [Double.equal,Bool.and_comm,BEq.comm]
  cases a <;> cases b <;> simp [same,BEq.comm,double_comm]

/-- A value of the left one's kind is cast to itself. -/
theorem equalTo_eq_same (kindred : a.Kindred b) : a.equalTo store b = a.same b := by
  cases kindred with
  | nothing | object => rfl
  | boolean x y => exact same_comm (.boolean y) (.boolean x)
  | integer x y => exact same_comm (.integer y) (.integer x)
  | double x y => exact same_comm (.double y) (.double x)
  | string x y => exact same_comm (.string y) (.string x)

theorem equalTo_of_same (same : a.same b = true) :
    a.equalTo store b = true ∧ b.equalTo store a = true := by
  have converse : b.same a = true := same_comm b a ▸ same
  exact ⟨(equalTo_eq_same (kindred_of_same same)).trans same,
    (equalTo_eq_same (kindred_of_same converse)).trans converse⟩

/-! Nothing. -/

theorem equalTo_nothing_iff : a.equalTo store .nothing = true ↔
    a = .nothing ∨ ∃ o, a = .object o ∧ o.isDetached store = true := by
  cases a <;> simp [equalTo,isNothing]

theorem nothing_equalTo_iff : nothing.equalTo store a = true ↔ a = .nothing := by
  cases a <;> simp [equalTo,isNothing]

/-! Texts, on the left and on the right. -/

theorem string_equalTo_boolean_iff {s : String} {x : Bool} :
    (string s).equalTo store (.boolean x) = true ↔ booleanText x = s := by
  change (booleanText x == s) = true ↔ _
  exact beq_iff_eq

theorem boolean_equalTo_string_iff {s : String} {x : Bool} :
    (boolean x).equalTo store (.string s) = true ↔ booleanOfText s = x := by
  change (booleanOfText s == x) = true ↔ _
  exact beq_iff_eq

theorem string_equalTo_integer_iff {s : String} {n : Int64} :
    (string s).equalTo store (.integer n) = true ↔ Numeral.decimal n.toInt = s := by
  change (Numeral.decimal n.toInt == s) = true ↔ _
  exact beq_iff_eq

theorem integer_equalTo_string_iff {s : String} {n : Int64} :
    (integer n).equalTo store (.string s) = true ↔ Numeral.int64? s = some n := by
  change (string s).castsTo store .integer (.integer n) = true ↔ _
  rw [castsTo,cast_string_integer]
  cases Numeral.int64? s <;> simp [same]

theorem booleanOfText_booleanText (x : Bool) : booleanOfText (booleanText x) = x := by
  cases x <;> decide +kernel

end ObjectModel.Value

namespace ObjectModel

variable {β : Type}

/-- Equal values are equal in the language in both orders, and values of one kind are equal in it
only so. Nothing and detached objects equal nothing, and nothing equals nothing alone. A text that
equals a boolean or an integer is equalled by it; but not the other way round. -/
theorem equality_laws (store : Store β) :
    (∀ a b : Value, a.same b = true →
      a.equalTo store b = true ∧ b.equalTo store a = true) ∧
    (∀ a b : Value, a.Kindred b → (a.equalTo store b = true ↔ a.same b = true)) ∧
    (∀ a : Value, a.equalTo store .nothing = true ↔
      a = .nothing ∨ ∃ o, a = .object o ∧ o.isDetached store = true) ∧
    (∀ a : Value, Value.nothing.equalTo store a = true ↔ a = .nothing) ∧
    (∀ s x, (Value.string s).equalTo store (.boolean x) = true →
      (Value.boolean x).equalTo store (.string s) = true) ∧
    (∀ s n, (Value.string s).equalTo store (.integer n) = true →
      (Value.integer n).equalTo store (.string s) = true) ∧
    (∃ s x, (Value.boolean x).equalTo store (.string s) = true ∧
      (Value.string s).equalTo store (.boolean x) = false) ∧
    ∃ s n, (Value.integer n).equalTo store (.string s) = true ∧
      (Value.string s).equalTo store (.integer n) = false := by
  refine ⟨fun a b => Value.equalTo_of_same,fun a b kindred => ?_,
    fun a => Value.equalTo_nothing_iff,fun a => Value.nothing_equalTo_iff,fun s x written => ?_,
    fun s n written => ?_,⟨"abc",true,?_,?_⟩,⟨"07",7,?_,?_⟩⟩
  · rw [Value.equalTo_eq_same kindred]
  · rw [← Value.string_equalTo_boolean_iff.mp written,Value.boolean_equalTo_string_iff]
    exact Value.booleanOfText_booleanText x
  · rw [← Value.string_equalTo_integer_iff.mp written,Value.integer_equalTo_string_iff]
    exact Numeral.int64?_decimal n
  · exact Value.boolean_equalTo_string_iff.mpr (by decide +kernel)
  · exact Bool.eq_false_iff.mpr (mt Value.string_equalTo_boolean_iff.mp (by decide))
  · exact Value.integer_equalTo_string_iff.mpr (by decide)
  · exact Bool.eq_false_iff.mpr (mt Value.string_equalTo_integer_iff.mp (by decide))

/-! A detached object and one in a scope. -/
namespace Pair

def ctx : Context := Runtime.first.globalContext

def store : Store Unit :=
  (World.first.play .idle [.ask ctx (.defineClass { name := "THING" }),.ask ctx (.detach ⟨0⟩),
    .ask ctx (.instantiate ⟨0⟩)]).store

end Pair

/-- Only the detached object equals nothing, which does not equal it. Each object equals itself
alone, and the texts of a boolean and a number are equalled by them. -/
theorem equality_laws_pair :
    (Value.object ⟨0⟩).equalTo Pair.store .nothing = true ∧
    Value.nothing.equalTo Pair.store (.object ⟨0⟩) = false ∧
    (Value.object ⟨1⟩).equalTo Pair.store .nothing = false ∧
    (Value.object ⟨1⟩).equalTo Pair.store (.object ⟨1⟩) = true ∧
    (Value.object ⟨0⟩).equalTo Pair.store (.object ⟨1⟩) = false ∧
    (Value.boolean false).equalTo Pair.store (.string "NO") = true ∧
    (Value.integer (-5)).equalTo Pair.store (.string "-5") = true := by
  obtain ⟨strict,kindred,toNothing,ofNothing,boolean,integer,_⟩ := equality_laws Pair.store
  refine ⟨?_,?_,?_,?_,?_,?_,?_⟩
  · exact (toNothing _).mpr (.inr ⟨⟨0⟩,rfl,rfl⟩)
  · exact Bool.eq_false_iff.mpr fun equal => nomatch (ofNothing _).mp equal
  · refine Bool.eq_false_iff.mpr fun equal => ?_
    obtain same | ⟨o,same,detached⟩ := (toNothing _).mp equal
    · exact nomatch same
    · obtain rfl := Value.object.inj same
      exact absurd detached (by decide)
  · exact (strict _ _ rfl).1
  · exact Bool.eq_false_iff.mpr fun equal =>
      absurd ((kindred _ _ (.object ⟨0⟩ ⟨1⟩)).mp equal) (by decide)
  · exact boolean "NO" false (by decide)
  · exact integer "-5" (-5) (by decide)

end ObjectModel
