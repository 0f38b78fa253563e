import SyncFacade.Proofs.Decimal.Shortest
import SyncFacade.Proofs.Value.Expression

/-! Numbers as expressions. An integer and a finite double are read back from their texts, a double through any
decimal that has the value of its shortest one. -/
namespace SyncFacade.Expression

open Decimal (Double Canonical shortest)

/-- What stands behind an expression inside another one. -/
def Stops (rest : List Char) : Prop := ∀ c ∈ rest.head?, c ∈ [',', ')', ']', '\x7d', ':']

/-- A number as it is spelled: digits, perhaps a fraction, perhaps an exponent with its sign. -/
structure Spelling where
  whole : List Char
  fraction : Option (List Char) := none
  exponent : Option (Bool × List Char) := none

namespace Spelling

def toList (n : Spelling) : List Char :=
  n.whole ++ (n.fraction.elim [] ('.' :: ·) ++
    n.exponent.elim [] fun (negative, ds) => 'e' :: (if negative then '-' else '+') :: ds)

structure Proper (n : Spelling) : Prop where
  whole : ∀ c ∈ n.whole, c.isDigit = true
  fraction : ∀ ds ∈ n.fraction, ∀ c ∈ ds, c.isDigit = true
  exponent : ∀ e ∈ n.exponent, e.2 ≠ [] ∧ ∀ c ∈ e.2, c.isDigit = true

def digits (n : Spelling) : Nat := Nat.ofDigitChars 10 (n.whole ++ n.fraction.getD []) 0

/-- The place of the last digit. -/
def place (n : Spelling) : Int :=
  (n.exponent.elim 0 fun (negative, ds) =>
    let e : Int := Nat.ofDigitChars 10 ds 0
    if negative then -e else e) - (n.fraction.getD []).length

end Spelling

theorem span_stop {p : Char → Bool} {ds rest : List Char} (all : ∀ c ∈ ds, p c = true)
    (stop : ∀ c ∈ rest.head?, p c = false) : (ds ++ rest).takeWhile p = ds ∧ (ds ++ rest).dropWhile p = rest := by
  rw [List.takeWhile_append_of_pos all, List.dropWhile_append_of_pos all]
  cases rest with
  | nil => simp
  | cons c rest => simp [stop c rfl]

theorem Stops.apart {rest : List Char} (stops : Stops rest) {c : Char} (first : c ∈ rest.head?) :
    c.isDigit = false ∧ isNameChar c = false ∧ c ≠ ' ' ∧ c ≠ '.' ∧ c ≠ 'e' ∧ c ≠ 'E' ∧ c ≠ '(' := by
  have table : ∀ c ∈ [',', ')', ']', '\x7d', ':'],
      c.isDigit = false ∧ isNameChar c = false ∧ c ≠ ' ' ∧ c ≠ '.' ∧ c ≠ 'e' ∧ c ≠ 'E' ∧ c ≠ '(' :=
    Text.forall_mem_of_all (by decide)
  exact table c (stops c first)

theorem readExponent_spelled {exponent : Option (Bool × List Char)}
    (proper : ∀ e ∈ exponent, e.2 ≠ [] ∧ ∀ c ∈ e.2, c.isDigit = true) {rest : List Char} (stops : Stops rest) :
    readExponent (exponent.elim [] (fun (negative, ds) => 'e' :: (if negative then '-' else '+') :: ds) ++ rest) =
      (exponent.map fun (negative, ds) =>
        let e : Int := Nat.ofDigitChars 10 ds 0
        if negative then -e else e, rest) := by
  match exponent with
  | none =>
    cases rest with
    | nil => rfl
    | cons c rest =>
      obtain ⟨-, -, -, -, small, large, -⟩ := stops.apart (c := c) rfl
      simp [readExponent, small, large]
  | some (negative, ds) =>
    obtain ⟨nonempty, all⟩ := proper _ rfl
    obtain ⟨taken, dropped⟩ := span_stop all fun c first => (stops.apart first).1
    have first : (ds ++ rest).head?.any Char.isDigit = true := by
      obtain ⟨d, later, rfl⟩ := List.exists_cons_of_ne_nil nonempty
      exact all d List.mem_cons_self
    dsimp only at taken dropped
    cases negative with
    | false =>
      rw [Option.elim_some, List.cons_append, readExponent]
      simp [Decimal.takeSign, taken, dropped, -List.head?_append, first]
    | true =>
      rw [Option.elim_some, List.cons_append, readExponent]
      simp [Decimal.takeSign, taken, dropped, -List.head?_append, first]

theorem readFraction_spelled {fraction : Option (List Char)} (proper : ∀ ds ∈ fraction, ∀ c ∈ ds, c.isDigit = true)
    {rest : List Char} (stop : ∀ c ∈ rest.head?, c.isDigit = false ∧ c ≠ '.') :
    readFraction (fraction.elim [] ('.' :: ·) ++ rest) = (fraction, rest) := by
  cases fraction with
  | none =>
    rw [Option.elim_none, List.nil_append]
    unfold readFraction
    split
    · exact absurd rfl (stop '.' rfl).2
    · rfl
  | some ds =>
    obtain ⟨taken, dropped⟩ := span_stop (proper ds rfl) fun c first => (stop c first).1
    simp [readFraction, taken, dropped]

/-- The parts of a number, each taken up to where the next one begins. -/
theorem Spelling.parts {n : Spelling} (proper : n.Proper) {rest : List Char} (stops : Stops rest) :
    (n.toList ++ rest).takeWhile Char.isDigit = n.whole ∧
      ∃ behind, readFraction ((n.toList ++ rest).dropWhile Char.isDigit) = (n.fraction, behind) ∧
        readExponent behind = (n.exponent.map fun (negative, ds) =>
          let e : Int := Nat.ofDigitChars 10 ds 0
          if negative then -e else e, rest) := by
  obtain ⟨behind, behind_eq⟩ : ∃ behind, n.exponent.elim []
      (fun (negative, ds) => 'e' :: (if negative then '-' else '+') :: ds) ++ rest = behind := ⟨_, rfl⟩
  have exponent := readExponent_spelled proper.exponent stops
  rw [behind_eq] at exponent
  have stop : ∀ c ∈ behind.head?, c.isDigit = false ∧ c ≠ '.' := by
    rw [← behind_eq]
    rcases n.exponent with - | ⟨negative, ds⟩
    · exact fun c first => ⟨(stops.apart first).1, (stops.apart first).2.2.2.1⟩
    · rintro c ⟨⟩
      decide
  have fraction := readFraction_spelled proper.fraction stop
  have spelled : n.toList ++ rest = n.whole ++ (n.fraction.elim [] ('.' :: ·) ++ behind) := by
    simp only [toList, List.append_assoc, behind_eq]
  have outside : ∀ c ∈ (n.fraction.elim [] ('.' :: ·) ++ behind).head?, c.isDigit = false := by
    rcases n.fraction with - | ds
    · exact fun c first => (stop c first).1
    · rintro c ⟨⟩
      decide
  obtain ⟨taken, dropped⟩ := span_stop proper.whole outside
  rw [spelled, taken, dropped]
  exact ⟨rfl, behind, fraction, exponent⟩

theorem readNumber_spelled {n : Spelling} (proper : n.Proper) (isDouble : n.fraction ≠ none ∨ n.exponent ≠ none)
    {rest : List Char} (stops : Stops rest) :
    readNumber (n.toList ++ rest) = some (.float (.ofDecimal false n.digits n.place), rest) := by
  obtain ⟨whole, behind, fraction, exponent⟩ := Spelling.parts proper stops
  have parts : (n.fraction.isNone && n.exponent.isNone) = false := by
    rw [Bool.and_eq_false_iff, Option.isNone_eq_false_iff, Option.isNone_eq_false_iff, Option.isSome_iff_ne_none,
      Option.isSome_iff_ne_none]
    exact isDouble
  unfold readNumber
  rw [whole, fraction]
  dsimp only
  rw [exponent]
  simp only [Option.isNone_map, parts, Bool.false_eq_true, if_false]
  rcases n with ⟨whole, fraction, - | ⟨negative, ds⟩⟩
  · rfl
  · rfl

theorem readNumber_digits {ds : List Char} (all : ∀ c ∈ ds, c.isDigit = true)
    (first : ds.head? = some '0' → ∀ c ∈ ds, c = '0') {rest : List Char} (stops : Stops rest) :
    readNumber (ds ++ rest) = some (.int (Nat.ofDigitChars 10 ds 0), rest) := by
  have proper : Spelling.Proper { whole := ds } := ⟨all, nofun, nofun⟩
  obtain ⟨whole, behind, fraction, exponent⟩ := Spelling.parts proper stops
  have spelled : Spelling.toList { whole := ds } = ds := List.append_nil ds
  rw [spelled] at whole fraction
  unfold readNumber
  rw [whole, fraction]
  dsimp only
  rw [exponent]
  simpa using first

theorem isDigit_toDigits {n : Nat} : ∀ c ∈ Nat.toDigits 10 n, c.isDigit = true :=
  fun _ member => Nat.isDigit_of_mem_toDigits (by decide) (by decide) member

theorem isDigit_zeros {n : Nat} : ∀ c ∈ List.replicate n '0', c.isDigit = true := by
  rintro c member
  rw [List.eq_of_mem_replicate member]
  rfl

/-- A spelling of a double with the value of a decimal. -/
structure Spelling.Of (n : Spelling) (digits : Nat) (place : Int) : Prop extends n.Proper where
  whole_ne : n.whole ≠ []
  isDouble : n.fraction ≠ none ∨ n.exponent ≠ none
  value : (n.digits : ℚ) * 10 ^ n.place = digits * 10 ^ place

section Forms

variable (digits : Nat) {place : Int}

theorem spelling_integral (integral : 0 ≤ place) :
    Spelling.Of { whole := Nat.toDigits 10 digits ++ List.replicate place.toNat '0', fraction := some ['0'] }
      digits place where
  whole := List.forall_mem_append.mpr ⟨isDigit_toDigits, isDigit_zeros⟩
  fraction := by
    rintro _ ⟨⟩
    exact List.forall_mem_singleton.mpr (by decide)
  exponent := nofun
  whole_ne := List.append_ne_nil_of_left_ne_nil Nat.toDigits_ne_nil _
  isDouble := .inl nofun
  value := by
    obtain ⟨k, rfl⟩ := Int.eq_ofNat_of_zero_le integral
    rw [Spelling.digits, Spelling.place, Option.getD_some, List.append_assoc, Nat.ofDigitChars_append,
      Nat.ofDigitChars_ten_toDigits, Int.toNat_natCast, ← List.replicate_one, List.replicate_append_replicate,
      Nat.ofDigitChars_replicate_zero]
    push_cast
    rw [Option.elim_none, zpow_natCast, pow_succ]
    norm_num
    ring

/-- Digits with a point somewhere between them, or zeros before them all. -/
theorem spelling_pointed {whole fraction : List Char} {zeros : Nat} (nonempty : whole ≠ [])
    (spelled : whole ++ fraction = List.replicate zeros '0' ++ Nat.toDigits 10 digits)
    (count : place = -(fraction.length : Int)) : Spelling.Of { whole, fraction := some fraction } digits place := by
  have all : ∀ c ∈ whole ++ fraction, c.isDigit = true := by
    rw [spelled]
    exact List.forall_mem_append.mpr ⟨isDigit_zeros, isDigit_toDigits⟩
  have value : Nat.ofDigitChars 10 (whole ++ fraction) 0 = digits := by
    rw [spelled, Nat.ofDigitChars_append, Nat.ofDigitChars_replicate_zero]
    exact Nat.ofDigitChars_ten_toDigits
  refine ⟨⟨(List.forall_mem_append.mp all).1, ?_, nofun⟩, nonempty, .inl nofun, ?_⟩
  · rintro _ ⟨⟩
    exact (List.forall_mem_append.mp all).2
  · simp [Spelling.digits, Spelling.place, value, count]

/-- The leading digit, the others behind a point if there are any, and the exponent of the leading digit. -/
theorem spelling_exponent (negative : Bool) {d : Char} {others exponent : List Char}
    (spelled : d :: others = Nat.toDigits 10 digits) (nonempty : exponent ≠ [])
    (all : ∀ c ∈ exponent, c.isDigit = true)
    (count : place + others.length = if negative then -(Nat.ofDigitChars 10 exponent 0 : Int) else Nat.ofDigitChars 10 exponent 0) :
    Spelling.Of
      { whole := [d], fraction := if others.isEmpty then none else some others, exponent := some (negative, exponent) }
      digits place := by
  have digit : ∀ c ∈ d :: others, c.isDigit = true := spelled ▸ isDigit_toDigits
  obtain ⟨first, later⟩ := List.forall_mem_cons.mp digit
  have behind : (if others.isEmpty then none else some others).getD [] = others := by
    cases others <;> rfl
  refine ⟨⟨by simpa using first, ?_, ?_⟩, List.cons_ne_nil d [], .inr nofun, ?_⟩
  · intro ds given
    dsimp only at given
    split at given
    · contradiction
    · obtain rfl := Option.some.inj given
      exact later
  · rintro _ ⟨⟩
    exact ⟨nonempty, all⟩
  · have value : Nat.ofDigitChars 10 ([d] ++ others) 0 = digits := by
      rw [List.singleton_append, spelled]
      exact Nat.ofDigitChars_ten_toDigits
    have place_eq : (if negative then -(Nat.ofDigitChars 10 exponent 0 : Int) else Nat.ofDigitChars 10 exponent 0) -
        (others.length : Int) = place := by omega
    simp only [Spelling.digits, Spelling.place, behind, value, Option.elim_some, place_eq]

end Forms

theorem toList_exponentText (e : Int) : ∃ ds, ds ≠ [] ∧ (∀ c ∈ ds, c.isDigit = true) ∧
    Nat.ofDigitChars 10 ds 0 = e.natAbs ∧
    (Value.exponentText e).toList = 'e' :: (if decide (e < 0) then '-' else '+') :: ds := by
  have digits : (toString e.natAbs).toList = Nat.toDigits 10 e.natAbs := by
    rw [Nat.toString_eq_repr, Nat.toList_repr]
  have sign : (if e < 0 then "-" else "+").toList = [if decide (e < 0) then '-' else '+'] := by
    by_cases negative : e < 0 <;> simp [negative]
  by_cases short : (toString e.natAbs).length < 2
  · refine ⟨'0' :: Nat.toDigits 10 e.natAbs, List.cons_ne_nil _ _, List.forall_mem_cons.mpr ⟨rfl, isDigit_toDigits⟩, ?_, ?_⟩
    · rw [Nat.ofDigitChars_cons]
      exact Nat.ofDigitChars_ten_toDigits
    · simp only [Value.exponentText, if_pos short, String.toList_append, sign, digits]
      rfl
  · refine ⟨Nat.toDigits 10 e.natAbs, Nat.toDigits_ne_nil, isDigit_toDigits, Nat.ofDigitChars_ten_toDigits, ?_⟩
    simp only [Value.exponentText, if_neg short, String.toList_append, sign, digits]
    rfl

/-- The text of a decimal is a spelling of a double with its value, in each of its forms. -/
theorem exists_spelling (digits : Nat) (place : Int) : ∃ n : Spelling, n.Of digits place ∧
    (Value.decimalText digits place).toList = n.toList := by
  have length_pos : 0 < (Nat.toDigits 10 digits).length := Nat.length_toDigits_pos
  unfold Value.decimalText
  extract_lets ds leading others
  have leading_eq : leading = place + ds.length - 1 := rfl
  split
  · obtain ⟨exponent, nonempty, all, value, spelled⟩ := toList_exponentText leading
    obtain ⟨d, later, cons⟩ := List.exists_cons_of_ne_nil (show ds ≠ [] from Nat.toDigits_ne_nil)
    have rest : others = later := by simp [others, cons]
    refine ⟨_, spelling_exponent digits (decide (leading < 0)) cons.symm nonempty all ?_, ?_⟩
    · rw [value]
      rw [cons, List.length_cons] at leading_eq
      by_cases negative : leading < 0
      · rw [if_pos (decide_eq_true negative)]
        omega
      · rw [if_neg (by simpa using negative)]
        omega
    · rw [rest, cons]
      cases later <;> simp [Spelling.toList, spelled]
  · split
    · rename_i integral
      exact ⟨_, spelling_integral digits integral, by simp [Spelling.toList, Value.zeros, ds]⟩
    · split
      · obtain ⟨zeros, zeros_eq⟩ : ∃ zeros, (-leading - 1).toNat = zeros := ⟨_, rfl⟩
        have spelled : ['0'] ++ (List.replicate zeros '0' ++ ds) = List.replicate (zeros + 1) '0' ++ ds := by
          rw [List.replicate_succ]
          rfl
        refine ⟨_, spelling_pointed digits (List.cons_ne_nil '0' []) spelled ?_, ?_⟩
        · rw [List.length_append, List.length_replicate]
          omega
        · rw [zeros_eq]
          simp [Spelling.toList, Value.zeros]
      · have spelled : ds.take (leading + 1).toNat ++ ds.drop (leading + 1).toNat = List.replicate 0 '0' ++ ds :=
          List.take_append_drop _ _
        refine ⟨_, spelling_pointed digits (by simp [Nat.toDigits_ne_nil, ds]; omega) spelled ?_, ?_⟩
        · rw [List.length_drop]
          omega
        · simp [Spelling.toList]

section Read

variable {fuel : Nat} {rest : List Char}

theorem read_minus (cs : List Char) :
    read (fuel + 1) ('-' :: cs) = (read fuel cs).bind fun (v, cs) => (negate? v).map (·, cs) := rfl

theorem read_digit {c : Char} (digit : c.isDigit = true) (cs : List Char) :
    read (fuel + 1) (c :: cs) = readNumber (c :: cs) := by
  have apart {d : Char} (other : d.isDigit = false) : c ≠ d := by
    rintro rfl
    rw [digit] at other
    contradiction
  have start : skip (c :: cs) = c :: cs := List.dropWhile_cons_of_neg (by simp [apart (d := ' ') rfl])
  rw [read, start]
  simp [apart (d := '-') rfl, apart (d := '[') rfl, apart (d := '(') rfl, apart (d := '\x7b') rfl,
    apart (d := '.') rfl, digit]

/-- No number but zero is written with a zero in front. -/
theorem head_toDigits {n : Nat} (zero : (Nat.toDigits 10 n).head? = some '0') : n = 0 := by
  induction n using Nat.strongRecOn with
  | ind n ih =>
    by_cases small : n < 10
    · rw [Nat.toDigits_of_lt_base small, List.head?_cons, Option.some.injEq, Nat.digitChar_eq_zero] at zero
      exact zero
    · rw [Nat.toDigits_of_base_le (by decide) (by omega), List.head?_append_of_ne_nil _ Nat.toDigits_ne_nil] at zero
      have := ih (n / 10) (by omega) zero
      omega

theorem readNumber_toDigits (n : Nat) (stops : Stops rest) :
    readNumber (Nat.toDigits 10 n ++ rest) = some (.int n, rest) := by
  rw [readNumber_digits isDigit_toDigits ?_ stops, Nat.ofDigitChars_ten_toDigits]
  intro zero
  rw [head_toDigits zero]
  exact Text.forall_mem_of_all (by decide)

theorem toList_floatText {m : Nat} {e : Int} (nonzero : m ≠ 0) : (Value.floatText (.finite false m e)).toList =
    (Value.decimalText (shortest m e).1 (shortest m e).2).toList := by
  simp [Value.floatText, nonzero]

/-- A finite double is read back from its text. -/
theorem readNumber_floatText {m : Nat} {e : Int} (canonical : Canonical m e) (stops : Stops rest) :
    readNumber ((Value.floatText (.finite false m e)).toList ++ rest) = some (.float (.finite false m e), rest) := by
  by_cases zero : m = 0
  · subst zero
    obtain rfl : e = Decimal.minExponent := canonical.normal.resolve_right (by decide)
    have proper : Spelling.Proper { whole := ['0'], fraction := some ['0'] } :=
      ⟨by simp, by simp, nofun⟩
    exact readNumber_spelled proper (.inl nofun) stops
  · have positive := Nat.pos_of_ne_zero zero
    obtain ⟨n, spells, spelled⟩ := exists_spelling (shortest m e).1 (shortest m e).2
    have inside := Decimal.shortest_inside (e := e) canonical.below positive
    rw [← spells.value] at inside
    rw [toList_floatText zero, spelled, readNumber_spelled spells.toProper spells.isDouble stops,
      Decimal.Double.ofDecimal_eq false canonical positive inside]

theorem floatText_negative (m : Nat) (e : Int) :
    (Value.floatText (.finite true m e)).toList = '-' :: (Value.floatText (.finite false m e)).toList := by
  unfold Value.floatText
  split <;> simp_all

/-- The text of a double without a sign begins with a digit. -/
theorem exists_digit_floatText (m : Nat) (e : Int) : ∃ c cs,
    (Value.floatText (.finite false m e)).toList = c :: cs ∧ c.isDigit = true := by
  by_cases zero : m = 0
  · subst zero
    exact ⟨'0', ['.', '0'], by simp [Value.floatText], rfl⟩
  · obtain ⟨n, spells, spelled⟩ := exists_spelling (shortest m e).1 (shortest m e).2
    obtain ⟨c, cs, whole⟩ := List.exists_cons_of_ne_nil spells.whole_ne
    rw [toList_floatText zero, spelled, Spelling.toList, whole]
    exact ⟨c, _, rfl, spells.whole c (whole ▸ List.mem_cons_self)⟩

theorem read_float {negative : Bool} {m : Nat} {e : Int} (canonical : Canonical m e) (stops : Stops rest) :
    read (fuel + 2) ((Value.floatText (.finite negative m e)).toList ++ rest) =
      some (.float (.finite negative m e), rest) := by
  obtain ⟨c, cs, spelled, digit⟩ := exists_digit_floatText m e
  have number := readNumber_floatText canonical stops
  cases negative with
  | false =>
    rw [spelled, List.cons_append] at number ⊢
    rw [read_digit digit, number]
  | true =>
    rw [floatText_negative, List.cons_append, read_minus]
    rw [spelled, List.cons_append] at number ⊢
    rw [read_digit digit, number]
    rfl

theorem read_int (i : Int) (stops : Stops rest) :
    read (fuel + 2) ((toString i).toList ++ rest) = some (.int i, rest) := by
  have read (n : Nat) (fuel : Nat) :
      read (fuel + 1) (Nat.toDigits 10 n ++ rest) = some (.int n, rest) := by
    obtain ⟨c, cs, spelled⟩ := List.exists_cons_of_ne_nil (Nat.toDigits_ne_nil (n := n) (b := 10))
    have digit : c.isDigit = true := isDigit_toDigits c (spelled ▸ List.mem_cons_self)
    have number := readNumber_toDigits n stops
    rw [spelled, List.cons_append] at number ⊢
    rw [read_digit digit, number]
  rw [Int.toString_eq_repr, Int.repr_eq_if]
  split
  · rename_i nonnegative
    rw [Nat.toList_repr, read, Int.toNat_of_nonneg nonnegative]
  · rename_i negative
    rw [String.toList_append, Nat.toList_repr]
    change Expression.read (fuel + 2) ('-' :: (Nat.toDigits 10 (-i).toNat ++ rest)) = _
    rw [read_minus, read, Option.bind_some]
    dsimp only [negate?]
    rw [Int.toNat_of_nonneg (by omega), Int.neg_neg]
    rfl

end Read

end SyncFacade.Expression
