import IdlGen.Code.Token
import IdlGen.Proofs.ShortestDecimals
import Mathlib.Data.List.DropRight

/-!
Numbers as tokens. The text of a natural number is read as that number (`numberOf_digits`), and so
is the text of a finite number, whichever way it is laid out (`numberOf_text`).
-/
namespace IdlGen.Code.Token

theorem hexValue?_digitChar {d : Nat} (small : d < 16) :
    Text.hexValue? (Nat.digitChar d) = some d := by
  revert d
  decide

theorem digitsIn_append (base : Nat) (first second : List Char) :
    digitsIn base (first ++ second) =
      digitsIn base first * base ^ second.length + digitsIn base second := by
  induction second using List.reverseRecOn with
  | nil => simp [digitsIn]
  | append_singleton second c ih =>
    have step (cs : List Char) : digitsIn base (cs ++ [c]) =
        base * digitsIn base cs + (Text.hexValue? c).getD 0 := by
      simp [digitsIn]
    rw [← List.append_assoc, step, ih, step, List.length_append, List.length_singleton]
    ring

theorem digitsIn_zeros (base count : Nat) : digitsIn base (List.replicate count '0') = 0 := by
  induction count with
  | zero => rfl
  | succ count ih =>
    rw [List.replicate_succ', digitsIn_append, ih, Nat.zero_mul, Nat.zero_add]
    rfl

theorem digitsIn_toDigits {base : Nat} (low : 1 < base) (high : base ≤ 16) (n : Nat) :
    digitsIn base (Nat.toDigits base n) = n := by
  have single {d : Nat} (small : d < base) : digitsIn base [Nat.digitChar d] = d := by
    simp [digitsIn, hexValue?_digitChar (small.trans_le high)]
  induction n using Nat.strongRecOn with
  | ind n ih =>
    by_cases small : n < base
    · rw [Nat.toDigits_of_lt_base small, single small]
    · have reduced : n / base < n := Nat.div_lt_self (by omega) low
      rw [Nat.toDigits_of_base_le low (by omega), digitsIn_append, ih _ reduced,
        single (Nat.mod_lt n (by omega)), List.length_singleton, pow_one, mul_comm]
      exact Nat.div_add_mod n base

theorem eq_zero_of_head_toDigits {n : Nat} (zero : (Nat.toDigits 10 n).head? = some '0') :
    n = 0 := by
  induction n using Nat.strongRecOn with
  | ind n ih =>
    by_cases small : n < 10
    · rw [Nat.toDigits_of_lt_base small, List.head?_cons, Option.some_inj] at zero
      exact Nat.digitChar_eq_zero.mp zero
    · rw [Nat.toDigits_of_base_le (by decide) (by omega),
        List.head?_append_of_ne_nil _ Nat.toDigits_ne_nil] at zero
      have := ih (n / 10) (Nat.div_lt_self (by omega) (by decide)) zero
      omega

def Ends (rest : List Char) : Prop :=
  ∀ c ∈ rest.head?, isWordChar c = false ∧ isQuote c = false

variable {rest digits fraction whole : List Char} {c : Char}

theorem Ends.endsNumber (ends : Ends rest) : endsNumber rest = true := by
  unfold Token.endsNumber
  cases rest with
  | nil => rfl
  | cons c rest => simp [(ends c rfl).1]

theorem isWordChar_of_isDigit (digit : c.isDigit = true) : isWordChar c = true := by
  simp [isWordChar, Char.isAlphanum, digit]

theorem Ends.not_isDigit (ends : Ends rest) : ∀ c ∈ rest.head?, c.isDigit = false ∧ c ≠ '_' := by
  intro c head
  obtain ⟨other, -⟩ := ends c head
  constructor
  · by_contra digit
    rw [Bool.not_eq_false] at digit
    rw [isWordChar_of_isDigit digit] at other
    cases other
  · rintro rfl
    cases other

theorem of_ascii {p : Char → Prop} (all : ∀ n < 0x80, p (Char.ofNat n)) (ascii : c.toNat < 0x80) :
    p c := by
  rw [← Char.ofNat_toNat c]
  exact all _ ascii

theorem ascii_of_isDigit (digit : c.isDigit = true) : c.toNat < 0x80 := by
  have high : c.val ≤ '9'.val := of_decide_eq_true (Bool.and_eq_true_iff.mp digit).2
  have : c.toNat ≤ 57 := UInt32.le_iff_toNat_le.mp high
  omega

theorem radix?_of_not_isWordChar (other : isWordChar c = false) : radix? c = none := by
  have ascii : c.toNat < 0x80 := by
    by_contra wide
    simp [isWordChar, not_lt.mp wide] at other
  revert other
  exact of_ascii (p := fun c => isWordChar c = false → radix? c = none) (by decide) ascii

theorem radix?_of_isDigit (digit : c.isDigit = true) : radix? c = none := by
  have ascii := ascii_of_isDigit digit
  revert digit
  exact of_ascii (p := fun c => c.isDigit = true → radix? c = none) (by decide) ascii

theorem digitsOf_append (all : ∀ d ∈ digits, d.isDigit = true)
    (stops : ∀ c ∈ rest.head?, c.isDigit = false ∧ c ≠ '_') :
    digitsOf Char.isDigit (digits ++ rest) = some (digits, rest) := by
  induction digits with
  | nil =>
    cases rest with
    | nil => rfl
    | cons c rest =>
      obtain ⟨other, line⟩ := stops c rfl
      rw [List.nil_append, digitsOf, if_neg (by simp [other])]
      exact line
  | cons d digits ih =>
    have digit := all d (List.mem_cons_self ..)
    have line : d ≠ '_' := by
      rintro rfl
      cases digit
    rw [List.cons_append, digitsOf, if_pos digit,
      ih fun c member => all c (List.mem_cons_of_mem _ member)]
    · rfl
    · exact line

/-- A decimal number that begins with digits is a number, unless the character after them names
    another base. -/
theorem numberOf_append {more : List Char} {value : Value} (nonempty : digits ≠ [])
    (all : ∀ d ∈ digits, d.isDigit = true) (plain : ∀ c ∈ more.head?, radix? c = none)
    (ends : Ends rest) (read : decimalOf (digits ++ more) = some (value, rest)) :
    numberOf (digits ++ more) = some (value, rest) := by
  have second : ∀ c ∈ (digits ++ more).tail.head?, radix? c = none := by
    obtain ⟨first, others, rfl⟩ := List.exists_cons_of_ne_nil nonempty
    cases others with
    | nil => exact plain
    | cons d others =>
      rintro c ⟨⟩
      exact radix?_of_isDigit (all d (List.mem_cons_of_mem _ (List.mem_cons_self ..)))
  unfold numberOf
  simp only
  split
  · next shape =>
    rw [shape] at second read ⊢
    rw [second _ rfl]
    simp only [read, Option.bind_eq_bind, Option.bind_some]
    exact if_pos ends.endsNumber
  · simp only [read, Option.bind_eq_bind, Option.bind_some]
    exact if_pos ends.endsNumber

theorem Ends.unmarked (ends : Ends rest) :
    (rest.head?.any fun c => c == 'e' || c == 'E') = false := by
  cases rest with
  | nil => rfl
  | cons c rest =>
    have other := (ends c rfl).1
    by_contra marked
    rw [Bool.not_eq_false] at marked
    rcases Bool.or_eq_true_iff.mp marked with small | capital
    · rw [beq_iff_eq.mp small] at other
      cases other
    · rw [beq_iff_eq.mp capital] at other
      cases other

theorem decimalOf_whole (all : ∀ d ∈ digits, d.isDigit = true) (ends : Ends rest)
    (noPoint : rest.head? ≠ some '.') (whole : isWholeNumber digits = true) :
    decimalOf (digits ++ rest) = some (.int (digitsIn 10 digits), rest) := by
  have noFraction : fractionOf rest = some (none, rest) := by
    unfold fractionOf
    split
    · exact absurd rfl noPoint
    · rfl
  simp only [decimalOf, digitsOf_append all ends.not_isDigit, noFraction, ends.unmarked,
    Option.bind_eq_bind, Option.bind_some, Bool.false_eq_true, if_false, whole, if_true]
  rfl

theorem numberOf_digits {n : Nat} (ends : Ends rest) (noPoint : rest.head? ≠ some '.')
    (short : (Nat.toDigits 10 n).length ≤ maxIntegerDigits) :
    numberOf (Nat.toDigits 10 n ++ rest) = some (.int n, rest) := by
  have all (c : Char) (member : c ∈ Nat.toDigits 10 n) : c.isDigit = true :=
    Nat.isDigit_of_mem_toDigits (by decide) (by decide) member
  have whole : isWholeNumber (Nat.toDigits 10 n) = true := by
    rw [isWholeNumber, decide_eq_true short, Bool.and_true, Bool.or_eq_true, bne_iff_ne]
    by_cases zero : (Nat.toDigits 10 n).head? = some '0'
    · rw [eq_zero_of_head_toDigits zero]
      exact .inr rfl
    · exact .inl zero
  apply numberOf_append Nat.toDigits_ne_nil all
    (fun c head => radix?_of_not_isWordChar (ends c head).1) ends
  rw [decimalOf_whole all ends noPoint whole, digitsIn_toDigits (by decide) (by decide)]

theorem fractionOf_point (all : ∀ d ∈ fraction, d.isDigit = true) (nonempty : fraction ≠ [])
    (stops : ∀ c ∈ rest.head?, c.isDigit = false ∧ c ≠ '_') :
    fractionOf ('.' :: (fraction ++ rest)) = some (some fraction, rest) := by
  obtain ⟨d, others, rfl⟩ := List.exists_cons_of_ne_nil nonempty
  have digit : (d :: others ++ rest).head?.any Char.isDigit = true := all d (List.mem_cons_self ..)
  rw [fractionOf, if_pos digit, digitsOf_append all stops]
  rfl

theorem decimalOf_fraction (first : ∀ d ∈ whole, d.isDigit = true)
    (second : ∀ d ∈ fraction, d.isDigit = true) (nonempty : fraction ≠ []) (ends : Ends rest) :
    decimalOf (whole ++ '.' :: (fraction ++ rest)) = some (floatOf whole fraction 0, rest) := by
  have point : ∀ c ∈ ('.' :: (fraction ++ rest)).head?, c.isDigit = false ∧ c ≠ '_' := by
    rintro c ⟨⟩
    decide
  simp only [decimalOf, digitsOf_append first point,
    fractionOf_point second nonempty ends.not_isDigit, ends.unmarked, Option.bind_eq_bind,
    Option.bind_some, Bool.false_eq_true, if_false]
  rfl

theorem exponentOf_exponentText (x : Int) (ends : Ends rest) :
    exponentOf (Binary64.exponentText x ++ rest) = some (x, rest) := by
  obtain ⟨digits, shape, all, nonempty, value⟩ : ∃ digits : List Char,
      Binary64.exponentText x = (if x < 0 then '-' else '+') :: digits ∧
      (∀ d ∈ digits, d.isDigit = true) ∧ digits ≠ [] ∧ digitsIn 10 digits = x.natAbs := by
    have all (d : Char) (member : d ∈ Nat.toDigits 10 x.natAbs) : d.isDigit = true :=
      Nat.isDigit_of_mem_toDigits (by decide) (by decide) member
    have value := digitsIn_toDigits (show 1 < 10 by decide) (by decide) x.natAbs
    refine ⟨_, rfl, ?_⟩
    split
    · refine ⟨?_, List.cons_ne_nil _ _, value⟩
      rintro d (_ | ⟨_, member⟩)
      · rfl
      · exact all d member
    · exact ⟨all, Nat.toDigits_ne_nil, value⟩
  obtain ⟨d, others, rfl⟩ := List.exists_cons_of_ne_nil nonempty
  have digit := all d (List.mem_cons_self ..)
  have read := digitsOf_append all ends.not_isDigit
  rw [List.cons_append] at read
  rw [shape]
  by_cases negative : x < 0
  · rw [if_pos negative]
    simp only [exponentOf, List.cons_append, digit, if_true, read, Option.map_some, value]
    rw [show (-1 : Int) * (x.natAbs : Int) = x by omega]
  · rw [if_neg negative]
    simp only [exponentOf, List.cons_append, digit, if_true, read, Option.map_some, value]
    rw [show (1 : Int) * (x.natAbs : Int) = x by omega]

theorem decimalOf_exponent (x : Int) (first : ∀ d ∈ whole, d.isDigit = true)
    (second : ∀ d ∈ fraction, d.isDigit = true) (ends : Ends rest) :
    decimalOf (whole ++ ((if fraction.isEmpty then [] else '.' :: fraction) ++
      'e' :: (Binary64.exponentText x ++ rest))) = some (floatOf whole fraction x, rest) := by
  have mark (rest : List Char) : ∀ c ∈ ('e' :: rest).head?, c.isDigit = false ∧ c ≠ '_' := by
    rintro c ⟨⟩
    decide
  have marked (rest : List Char) :
      (('e' :: rest).head?.any fun c => c == 'e' || c == 'E') = true := rfl
  by_cases empty : fraction = []
  · rw [empty, List.isEmpty_nil, if_pos rfl, List.nil_append]
    have none_ (rest : List Char) : fractionOf ('e' :: rest) = some (none, 'e' :: rest) := rfl
    simp only [decimalOf, digitsOf_append first (mark _), none_, marked, if_true, List.drop_one,
      List.tail_cons, exponentOf_exponentText x ends, Option.bind_eq_bind, Option.bind_some]
    rfl
  · have point (rest : List Char) : ∀ c ∈ ('.' :: rest).head?, c.isDigit = false ∧ c ≠ '_' := by
      rintro c ⟨⟩
      decide
    rw [if_neg (by simpa using empty), List.cons_append]
    simp only [decimalOf, digitsOf_append first (point _), fractionOf_point second empty (mark _),
      marked, if_true, List.drop_one, List.tail_cons, exponentOf_exponentText x ends,
      Option.bind_eq_bind, Option.bind_some]
    rfl

/-- A decimal is written with a point or an exponent, digits stand around the point, and the
    value is that of the digits. -/
theorem decimalText_cases (all : ∀ d ∈ digits, d.isDigit = true) (nonempty : digits ≠ [])
    (point : Int) :
    ∃ (whole fraction : List Char) (x : Int), whole ≠ [] ∧ (∀ d ∈ whole, d.isDigit = true) ∧
      (∀ d ∈ fraction, d.isDigit = true) ∧
      (Binary64.decimalText digits point = whole ++ '.' :: fraction ∧ fraction ≠ [] ∧ x = 0 ∨
        Binary64.decimalText digits point = whole ++
          ((if fraction.isEmpty then [] else '.' :: fraction) ++ 'e' :: Binary64.exponentText x)) ∧
      (digitsIn 10 (whole ++ fraction) : ℚ) * 10 ^ (x - fraction.length) =
        digitsIn 10 digits * 10 ^ (point - digits.length) := by
  have zeros (count : Nat) : ∀ d ∈ List.replicate count '0', d.isDigit = true := by
    intro d member
    rw [(List.mem_replicate.mp member).2]
    rfl
  have both {first second : List Char} (left : ∀ d ∈ first, d.isDigit = true)
      (right : ∀ d ∈ second, d.isDigit = true) : ∀ d ∈ first ++ second, d.isDigit = true :=
    fun d member => (List.mem_append.mp member).elim (left d) (right d)
  have ten : (10 : ℚ) ≠ 0 := by norm_num
  unfold Binary64.decimalText
  split_ifs with positional before after
  · refine ⟨['0'], List.replicate (-point).toNat '0' ++ digits, 0, List.cons_ne_nil _ _, zeros 1,
      both (zeros _) all, .inl ⟨rfl, by simp [nonempty], rfl⟩, ?_⟩
    have value : digitsIn 10 (['0'] ++ (List.replicate (-point).toNat '0' ++ digits)) =
        digitsIn 10 digits := by
      rw [digitsIn_append, digitsIn_append 10 (List.replicate _ _), digitsIn_zeros]
      simp [digitsIn, Text.hexValue?]
    rw [value, List.length_append, List.length_replicate]
    congr 2
    omega
  · refine ⟨digits ++ List.replicate (point - Int.ofNat digits.length).toNat '0', ['0'], 0,
      by simp [nonempty], both all (zeros _), zeros 1,
      .inl ⟨by simp, List.cons_ne_nil _ _, rfl⟩, ?_⟩
    rw [List.append_assoc, ← List.replicate_succ', digitsIn_append, digitsIn_zeros, Nat.add_zero,
      List.length_replicate]
    push_cast
    rw [mul_assoc, ← zpow_natCast, ← zpow_add₀ ten]
    congr 2
    simp at after ⊢
    omega
  · have inside : point.toNat < digits.length := by
      simp at after
      omega
    refine ⟨digits.take point.toNat, digits.drop point.toNat, 0, ?_,
      fun d member => all d (List.mem_of_mem_take member),
      fun d member => all d (List.mem_of_mem_drop member), .inl ⟨rfl, ?_, rfl⟩, ?_⟩
    · simp [nonempty]
      omega
    · simpa using inside
    · rw [List.take_append_drop, List.length_drop]
      congr 2
      omega
  · have some : 1 ≤ digits.length := List.length_pos_iff.mpr nonempty
    refine ⟨digits.take 1, digits.drop 1, point - 1, by simp [nonempty],
      fun d member => all d (List.mem_of_mem_take member),
      fun d member => all d (List.mem_of_mem_drop member), .inr (List.append_assoc ..), ?_⟩
    rw [List.take_append_drop, List.length_drop]
    congr 2
    omega

theorem numberOf_decimalText (all : ∀ d ∈ digits, d.isDigit = true) (nonempty : digits ≠ [])
    (point : Int) (ends : Ends rest) :
    ∃ (n : Nat) (k : Int), numberOf (Binary64.decimalText digits point ++ rest) =
        some (.float (Binary64.ofDecimal false n k), rest) ∧
      (n : ℚ) * 10 ^ k = digitsIn 10 digits * 10 ^ (point - digits.length) := by
  obtain ⟨whole, fraction, x, some_, first, second, shape, value⟩ :=
    decimalText_cases all nonempty point
  refine ⟨digitsIn 10 (whole ++ fraction), x - fraction.length, ?_, value⟩
  rcases shape with ⟨text, nonempty, rfl⟩ | text
  · rw [text, List.append_assoc, List.cons_append]
    exact numberOf_append some_ first (by rintro c ⟨⟩; rfl) ends
      (decimalOf_fraction first second nonempty ends)
  · rw [text, List.append_assoc, List.append_assoc, List.cons_append]
    refine numberOf_append some_ first ?_ ends (decimalOf_exponent x first second ends)
    split
    · rintro c ⟨⟩
      rfl
    · rintro c ⟨⟩
      rfl

theorem exists_dropTrailingZeros (digits : List Char) :
    ∃ count, digits = Binary64.dropTrailingZeros digits ++ List.replicate count '0' := by
  induction digits using List.reverseRecOn with
  | nil => exact ⟨0, rfl⟩
  | append_singleton digits c ih =>
    have last : Binary64.dropTrailingZeros (digits ++ [c]) =
        if c == '0' then Binary64.dropTrailingZeros digits else digits ++ [c] :=
      List.rdropWhile_concat _ _ c
    rw [last]
    split
    · next zero =>
      obtain ⟨count, parts⟩ := ih
      refine ⟨count + 1, ?_⟩
      rw [List.replicate_succ', ← List.append_assoc, ← parts, beq_iff_eq.mp zero]
    · exact ⟨0, (List.append_nil _).symm⟩

/-- The digits that a positive number is written with: the digits of its shortest decimal, whose
    value is that of the decimal. -/
theorem exists_digits {m : Nat} {e : Int} (normal : Binary64.IsNormal m e) (nonzero : 0 < m) :
    ∃ (digits : List Char) (point : Int), (∀ d ∈ digits, d.isDigit = true) ∧ digits ≠ [] ∧
      (Binary64.finite false m e).text.toList = Binary64.decimalText digits point ∧
      Binary64.Rounds m e (digitsIn 10 digits * 10 ^ (point - digits.length)) := by
  set digits := (Binary64.shortest m e).1 with shortened
  set power := (Binary64.shortest m e).2
  set written := Nat.toDigits 10 digits with spelled
  have rounds := Binary64.shortest_rounds normal nonzero
  obtain ⟨count, parts⟩ := exists_dropTrailingZeros written
  have whole : digitsIn 10 (Binary64.dropTrailingZeros written) * 10 ^ count = digits := by
    have value := digitsIn_toDigits (show 1 < 10 by decide) (by decide) digits
    rw [← spelled, parts, digitsIn_append, digitsIn_zeros, List.length_replicate,
      Nat.add_zero] at value
    exact value
  refine ⟨Binary64.dropTrailingZeros written, Int.ofNat written.length + power, ?_, ?_, ?_, ?_⟩
  · intro d member
    have inside : d ∈ written := parts ▸ List.mem_append_left _ member
    exact Nat.isDigit_of_mem_toDigits (by decide) (by decide) inside
  · intro empty
    rw [empty] at whole
    have zero : digits = 0 := by simpa [digitsIn] using whole.symm
    simpa [← shortened, zero] using rounds.pos nonzero
  · simp only [Binary64.text, if_neg nonzero.ne', Bool.false_eq_true, if_false,
      String.toList_append, String.toList_ofList]
    rfl
  · have length := congrArg List.length parts
    rw [List.length_append, List.length_replicate] at length
    have same : (digitsIn 10 (Binary64.dropTrailingZeros written) : ℚ) *
        10 ^ (Int.ofNat written.length + power - (Binary64.dropTrailingZeros written).length) =
          digits * 10 ^ power := by
      rw [← whole, Nat.cast_mul, Nat.cast_pow, Nat.cast_ofNat, mul_assoc, ← zpow_natCast,
        ← zpow_add₀ (by norm_num)]
      congr 2
      simp only [Int.ofNat_eq_natCast]
      omega
    rw [same]
    exact rounds

theorem numberOf_text {m : Nat} {e : Int} (normal : Binary64.IsNormal m e) :
    (∃ d more, (Binary64.finite false m e).text.toList = d :: more ∧ d.isDigit = true) ∧
    ∀ rest, Ends rest → numberOf ((Binary64.finite false m e).text.toList ++ rest) =
      some (.float (.finite false m e), rest) := by
  rcases Nat.eq_zero_or_pos m with rfl | nonzero
  · obtain rfl : e = Binary64.minExponent := normal.2.2.2.resolve_left (by decide)
    have zero : ∀ d ∈ ['0'], d.isDigit = true := List.forall_mem_singleton.mpr rfl
    have text : (Binary64.finite false 0 Binary64.minExponent).text.toList = ['0', '.', '0'] := by
      simp [Binary64.text]
    rw [text]
    refine ⟨⟨_, _, rfl, rfl⟩, fun rest ends => ?_⟩
    change numberOf (['0'] ++ '.' :: (['0'] ++ rest)) = _
    exact numberOf_append (List.cons_ne_nil _ _) zero (by rintro c ⟨⟩; rfl) ends
      (decimalOf_fraction zero zero (List.cons_ne_nil _ _) ends)
  · obtain ⟨digits, point, all, nonempty, text, rounds⟩ := exists_digits normal nonzero
    rw [text]
    constructor
    · obtain ⟨whole, fraction, x, some_, first, -, shape, -⟩ :=
        decimalText_cases all nonempty point
      obtain ⟨d, others, rfl⟩ := List.exists_cons_of_ne_nil some_
      rcases shape with ⟨text, -⟩ | text <;>
        exact ⟨d, _, text, first d (List.mem_cons_self ..)⟩
    · intro rest ends
      obtain ⟨n, k, read, value⟩ := numberOf_decimalText all nonempty point ends
      rw [read, Binary64.ofDecimal_of_rounds false normal nonzero (value ▸ rounds)]

end IdlGen.Code.Token
