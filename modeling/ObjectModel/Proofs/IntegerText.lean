import Mathlib.Data.List.Forall2
import Mathlib.Data.Nat.Digits.Defs
import Mathlib.Tactic.Ring
import ObjectModel.Cast

/-! Texts that denote integers. A numeral is an optional sign and one or more digits, in decimal or,
behind a mark, in hexadecimal; it denotes the number that the digits have in positional notation.
The reader takes exactly the numerals whose number is a 64-bit integer, and gives that number. What
the writer makes of a number is such a numeral. -/
namespace ObjectModel.Numeral

variable {radix value n d : Nat} {c : Char} {text : List Char} {z : Int}

def Writes (radix : Nat) (c : Char) (d : Nat) : Prop :=
  d < radix ∧ (c = d.digitChar ∨ c = d.digitChar.toUpper)

/-- One or more digits, the last one for the ones, that make up the number. -/
def Spells (radix : Nat) (text : List Char) (n : Nat) : Prop :=
  text ≠ [] ∧ ∃ ds, List.Forall₂ (Writes radix) text ds ∧ Nat.ofDigits radix ds.reverse = n

inductive Signed (radix : Nat) : List Char → Int → Prop where
  | bare {text : List Char} {n : Nat} (digits : Spells radix text n) : Signed radix text n
  | plus {text : List Char} {n : Nat} (digits : Spells radix text n) : Signed radix ('+' :: text) n
  | minus {text : List Char} {n : Nat} (digits : Spells radix text n) :
      Signed radix ('-' :: text) (-n)

/-- A decimal numeral, or a mark and a hexadecimal one. -/
inductive Denotes : String → Int → Prop where
  | decimal {text : String} {z : Int} (numeral : Signed 10 text.toList z) : Denotes text z
  | hexadecimal {mark text : String} {z : Int} (marked : mark = "0x" ∨ mark = "0X")
      (numeral : Signed 16 text.toList z) : Denotes (mark ++ text) z

/-! Digits. -/

theorem toNat_digitChar : ∀ d < 16,
    d.digitChar.toNat = (if d < 10 then 48 + d else 87 + d) ∧
      d.digitChar.toUpper.toNat = if d < 10 then 48 + d else 55 + d := by
  decide

theorem digit?_eq_some_iff_code :
    digit? radix c = some d ↔ d < radix ∧
      (48 ≤ c.toNat ∧ c.toNat ≤ 57 ∧ d = c.toNat - 48 ∨
        97 ≤ c.toNat ∧ c.toNat ≤ 102 ∧ d = c.toNat - 87 ∨
        65 ≤ c.toNat ∧ c.toNat ≤ 70 ∧ d = c.toNat - 55) := by
  have codes : '0'.toNat = 48 ∧ '9'.toNat = 57 ∧ 'a'.toNat = 97 ∧ 'f'.toNat = 102 ∧
      'A'.toNat = 65 ∧ 'F'.toNat = 70 := by decide
  simp only [digit?,Char.le_def,UInt32.le_iff_toNat_le,Char.toNat_val,codes,
    Option.ite_none_right_eq_some,Option.some.injEq]
  split_ifs <;> omega

theorem digit?_eq_some_iff (small : radix ≤ 16) : digit? radix c = some d ↔ Writes radix c d := by
  rw [digit?_eq_some_iff_code,Writes]
  refine and_congr_right fun below => ?_
  obtain ⟨lower,upper⟩ := toNat_digitChar d (by omega)
  rw [← Char.toNat_inj,← Char.toNat_inj,lower,upper]
  split <;> omega

/-- The digits behind a value shift it by their number of places and add their own. -/
theorem digits?_eq_some_iff (small : radix ≤ 16) :
    digits? radix value text = some n ↔
      ∃ ds, List.Forall₂ (Writes radix) text ds ∧
        value * radix ^ ds.length + Nat.ofDigits radix ds.reverse = n := by
  -- What is read already is scaled by every digit to come, so the value has to vary.
  induction text generalizing value with
  | nil => simp [digits?]
  | cons c rest ih =>
    have shift : ∀ (d : Nat) (ds : List Nat),
        (radix * value + d) * radix ^ ds.length + Nat.ofDigits radix ds.reverse =
          value * radix ^ (d :: ds).length + Nat.ofDigits radix (d :: ds).reverse := by
      intro d ds
      rw [List.reverse_cons,Nat.ofDigits_append,Nat.ofDigits_singleton,List.length_reverse,
        List.length_cons]
      ring
    rw [digits?]
    constructor
    · intro read
      split at read
      next d first =>
        obtain ⟨ds,others,rfl⟩ := ih.mp read
        exact ⟨d :: ds,.cons ((digit?_eq_some_iff small).mp first) others,(shift d ds).symm⟩
      next => contradiction
    · rintro ⟨_,written,rfl⟩
      obtain ⟨d,ds,first,others,rfl⟩ := List.forall₂_cons_left_iff.mp written
      rw [(digit?_eq_some_iff small).mpr first]
      exact ih.mpr ⟨ds,others,shift d ds⟩

theorem natural?_eq_some_iff (small : radix ≤ 16) :
    natural? radix text = some n ↔ Spells radix text n := by
  cases text with
  | nil => simp [natural?,Spells]
  | cons c rest => simp [natural?,Spells,digits?_eq_some_iff small]

/-! Signs and marks. -/

theorem splitSign_of_spells (small : radix ≤ 16) (digits : Spells radix text n) :
    splitSign text = (false,text) := by
  have unsigned : ∀ sign ∈ ['-','+'], ∀ d, ¬Writes radix sign d := by
    intro sign either d written
    have read := digit?_eq_some_iff_code.mp ((digit?_eq_some_iff small).mpr written)
    have codes : '-'.toNat = 45 ∧ '+'.toNat = 43 := by decide
    simp only [List.mem_cons,List.not_mem_nil,or_false] at either
    rcases either with rfl | rfl <;> omega
  obtain ⟨_,ds,written,_⟩ := digits
  unfold splitSign
  split
  · obtain ⟨d,_,first,_⟩ := List.forall₂_cons_left_iff.mp written
    exact absurd first (unsigned '-' (by simp) d)
  · obtain ⟨d,_,first,_⟩ := List.forall₂_cons_left_iff.mp written
    exact absurd first (unsigned '+' (by simp) d)
  · rfl

theorem signed?_eq_some_iff (small : radix ≤ 16) :
    signed? radix text = some z ↔ Signed radix text z := by
  constructor
  · intro read
    obtain ⟨_,absolute,rfl⟩ := Option.map_eq_some_iff.mp read
    obtain ⟨n,digits,same⟩ := Option.bind_eq_some_iff.mp absolute
    obtain rfl := Option.some.inj same
    rw [natural?_eq_some_iff small] at digits
    split at digits
    · exact .minus digits
    · exact .plus digits
    · exact .bare digits
  · intro numeral
    cases numeral with
    | bare digits =>
      simp [signed?,splitSign_of_spells small digits,(natural?_eq_some_iff small).mpr digits]
    | plus digits => simp [signed?,splitSign,(natural?_eq_some_iff small).mpr digits]
    | minus digits => simp [signed?,splitSign,(natural?_eq_some_iff small).mpr digits]

theorem afterHexMark?_eq_some_iff {rest : List Char} :
    afterHexMark? text = some rest ↔
      text = '0' :: 'x' :: rest ∨ text = '0' :: 'X' :: rest := by
  constructor
  · intro marked
    unfold afterHexMark? at marked
    split at marked
    · exact .inl (by rw [Option.some.inj marked])
    · exact .inr (by rw [Option.some.inj marked])
    · contradiction
  · rintro (rfl | rfl) <;> rfl

/-- A mark is no decimal numeral, whatever follows. -/
theorem signed?_ten_of_marked {rest : List Char} (marked : afterHexMark? text = some rest) :
    signed? 10 text = none := by
  rcases afterHexMark?_eq_some_iff.mp marked with rfl | rfl <;> rfl

theorem toInt64?_eq_some_iff {m : Int64} : toInt64? z = some m ↔ z = m.toInt := by
  unfold toInt64?
  constructor
  · intro inside
    split at inside
    next range =>
      obtain rfl := Option.some.inj inside
      exact (Int64.toInt_ofInt_of_le range.1 (Int.lt_of_le_sub_one range.2)).symm
    next => contradiction
  · rintro rfl
    rw [if_pos ⟨m.minValue_le_toInt,m.toInt_le⟩,Int64.ofInt_toInt]

theorem denotes_iff {s : String} :
    Denotes s z ↔ signed? 10 s.toList = some z ∨
      ∃ rest, afterHexMark? s.toList = some rest ∧ signed? 16 rest = some z := by
  simp only [signed?_eq_some_iff (show 10 ≤ 16 by decide),signed?_eq_some_iff (le_refl 16)]
  constructor
  · rintro (numeral | @⟨mark,text,_,marked,numeral⟩)
    · exact .inl numeral
    · refine .inr ⟨text.toList,?_,numeral⟩
      rcases marked with rfl | rfl <;> simp [afterHexMark?]
  · rintro (numeral | ⟨rest,marked,numeral⟩)
    · exact .decimal numeral
    · have whole : ∀ mark : String, s.toList = mark.toList ++ rest →
          s = mark ++ String.ofList rest :=
        fun mark same => String.toList_injective (by simp [same])
      have numeral : Signed 16 (String.ofList rest).toList z := by simpa using numeral
      rcases afterHexMark?_eq_some_iff.mp marked with same | same
      · exact whole "0x" same ▸ .hexadecimal (.inl rfl) numeral
      · exact whole "0X" same ▸ .hexadecimal (.inr rfl) numeral

theorem denotes_subsingleton (s : String) : {z | Denotes s z}.Subsingleton := by
  intro y first z second
  rcases denotes_iff.mp first with plain | ⟨rest,marked,hex⟩ <;>
    rcases denotes_iff.mp second with plain' | ⟨rest',marked',hex'⟩
  · exact Option.some.inj (plain.symm.trans plain')
  · simp [signed?_ten_of_marked marked'] at plain
  · simp [signed?_ten_of_marked marked] at plain'
  · obtain rfl := Option.some.inj (marked.symm.trans marked')
    exact Option.some.inj (hex.symm.trans hex')

theorem int64?_eq_some_iff {s : String} {m : Int64} : int64? s = some m ↔ Denotes s m.toInt := by
  have inRange : ∀ number : Option Int, number.bind toInt64? = some m ↔ number = some m.toInt := by
    simp [Option.bind_eq_some_iff,toInt64?_eq_some_iff]
  rw [denotes_iff,int64?]
  -- A text with a mark is no decimal numeral, so the second attempt never stands in for the first.
  cases marked : afterHexMark? s.toList with
  | none =>
    rw [← inRange]
    cases (signed? 10 s.toList).bind toInt64? <;> simp
  | some rest =>
    rw [signed?_ten_of_marked marked]
    simp [inRange]

theorem exists_int64?_iff {s : String} :
    (∃ m, int64? s = some m) ↔ ∃ z, Denotes s z ∧ -2 ^ 63 ≤ z ∧ z ≤ 2 ^ 63 - 1 := by
  simp only [int64?_eq_some_iff]
  constructor
  · rintro ⟨m,denotes⟩
    exact ⟨m.toInt,denotes,m.minValue_le_toInt,m.toInt_le⟩
  · rintro ⟨z,denotes,low,high⟩
    refine ⟨Int64.ofInt z,?_⟩
    rwa [Int64.toInt_ofInt_of_le low (Int.lt_of_le_sub_one high)]

example : int64? "0x-8000000000000000" = some Int64.minValue := by decide

/-! Leading zeros, and numerals as they are written. -/

theorem eq_zero_of_writes (written : Writes radix '0' d) : d = 0 := by
  rcases Nat.lt_or_ge d 16 with small | large
  · have code := toNat_digitChar d small
    have zero : '0'.toNat = 48 := by decide
    rcases written.2 with same | same <;> rw [same] at zero <;> split_ifs at code <;> omega
  · have impossible : ¬('0' = '*' ∨ '0' = '*'.toUpper) := by decide
    exact absurd (Nat.digitChar_eq_star.mpr large ▸ written.2) impossible

theorem spells_zero_iff :
    text ≠ [] ∧ Spells radix ('0' :: text) n ↔ Spells radix text n := by
  constructor
  · rintro ⟨filled,_,_,written,rfl⟩
    obtain ⟨d,ds,first,others,rfl⟩ := List.forall₂_cons_left_iff.mp written
    obtain rfl := eq_zero_of_writes first
    exact ⟨filled,ds,others,by rw [List.reverse_cons,Nat.ofDigits_append_zero]⟩
  · rintro ⟨filled,ds,others,rfl⟩
    have positive : 0 < radix := by
      cases others with
      | nil => contradiction
      | cons first _ => exact Nat.zero_lt_of_lt first.1
    refine ⟨filled,by simp,0 :: ds,.cons ⟨positive,.inl rfl⟩ others,?_⟩
    rw [List.reverse_cons,Nat.ofDigits_append_zero]

/-- Zeros in front of the digits change nothing, however many they are. -/
theorem spells_zeros_iff (k : Nat) :
    text ≠ [] ∧ Spells radix (List.replicate k '0' ++ text) n ↔ Spells radix text n := by
  induction k with
  | zero => exact and_iff_right_of_imp fun digits => digits.1
  | succ k ih =>
    have one : Spells radix (List.replicate k '0' ++ text) n ↔ List.replicate k '0' ++ text ≠ [] ∧
        Spells radix ('0' :: (List.replicate k '0' ++ text)) n := spells_zero_iff.symm
    rw [← ih,one,List.replicate_succ,List.cons_append]
    simp +contextual

theorem Spells.snoc (digits : Spells radix text n) (below : d < radix) :
    Spells radix (text ++ [d.digitChar]) (radix * n + d) := by
  obtain ⟨_,ds,written,rfl⟩ := digits
  refine ⟨by simp,ds ++ [d],List.rel_append written (.cons ⟨below,.inl rfl⟩ .nil),?_⟩
  rw [List.reverse_append,List.reverse_singleton,List.singleton_append,Nat.ofDigits_cons,
    Nat.add_comm]

theorem spells_toDigits (n : Nat) : Spells 10 (Nat.toDigits 10 n) n := by
  induction n using Nat.strongRecOn with
  | ind n ih =>
    rcases Nat.lt_or_ge n 10 with below | above
    · rw [Nat.toDigits_of_lt_base below]
      exact ⟨by simp,[n],.cons ⟨below,.inl rfl⟩ .nil,Nat.ofDigits_singleton ..⟩
    · rw [Nat.toDigits_of_base_le (by decide) above]
      have others : Spells 10 (Nat.toDigits 10 (n / 10)) (n / 10) := ih (n / 10) (by omega)
      simpa only [Nat.div_add_mod] using others.snoc (Nat.mod_lt n (by decide))

theorem denotes_decimal (z : Int) : Denotes (decimal z) z := by
  have digits := spells_toDigits z.natAbs
  refine .decimal ?_
  unfold decimal decimalDigits
  split
  next below =>
    have signed := Signed.minus digits
    rw [Int.ofNat_natAbs_of_nonpos below.le,neg_neg] at signed
    simpa using signed
  next nonneg =>
    have signed := Signed.bare digits
    rw [Int.natAbs_of_nonneg (not_lt.mp nonneg)] at signed
    simpa using signed

theorem int64?_decimal (m : Int64) : int64? (decimal m.toInt) = some m :=
  int64?_eq_some_iff.mpr (denotes_decimal m.toInt)

end ObjectModel.Numeral

namespace ObjectModel

variable {β : Type}

open Numeral

theorem Value.cast_string_integer {store : Store β} (s : String) :
    (string s).cast store .integer =
      match int64? s with
      | some n => .ok (.integer n)
      | none => .error (.cast "STRIN" "INTEGR" [.notInteger s]) := rfl

/-- A text casts to an integer just if it is a numeral for a number of 64 bits, and then to that
number. There is one such number at most, and zeros in front of the digits leave it as it is. Every
other text is refused by a cast error. An integer that is cast to text and back is the same. -/
theorem text_to_integer_exact (store : Store β) :
    (∀ s n, (Value.string s).cast store .integer = .ok (.integer n) ↔ Denotes s n.toInt) ∧
      (∀ s, (∃ v, (Value.string s).cast store .integer = .ok v) ↔
        ∃ z, Denotes s z ∧ -2 ^ 63 ≤ z ∧ z ≤ 2 ^ 63 - 1) ∧
      (∀ s, (Value.string s).cast store .integer =
          .error (.cast "STRIN" "INTEGR" [.notInteger s]) ↔
        ¬∃ z, Denotes s z ∧ -2 ^ 63 ≤ z ∧ z ≤ 2 ^ 63 - 1) ∧
      (∀ s, {z | Denotes s z}.Subsingleton) ∧
      (∀ radix k text n, text ≠ [] ∧ Spells radix (List.replicate k '0' ++ text) n ↔
        Spells radix text n) ∧
      ∀ n : Int64, ((Value.integer n).cast store .string).bind (·.cast store .integer) =
        .ok (.integer n) := by
  refine ⟨fun s n => ?_,fun s => ?_,fun s => ?_,denotes_subsingleton,
    fun _ k _ _ => spells_zeros_iff k,fun n => ?_⟩
  · rw [Value.cast_string_integer,← int64?_eq_some_iff]
    cases int64? s <;> simp
  · rw [Value.cast_string_integer,← exists_int64?_iff]
    cases int64? s <;> simp
  · rw [Value.cast_string_integer,← exists_int64?_iff]
    cases int64? s <;> simp
  · change (Value.string (decimal n.toInt)).cast store .integer = _
    rw [Value.cast_string_integer,int64?_decimal]

end ObjectModel
