import IdlGen.Code.Parser

/-!
The grammar of the terms that generated expressions consist of. What the grammar derives, the
parser reads (`Derives.term_append`), so some tokens are derived as one term at most
(`Derives.unique`).
-/
namespace IdlGen.Code

mutual

/-- The tokens of an expression that the language has, with its term. -/
inductive Derives : List Token → Term → Prop
  | primary {ts : List Token} {t : Term} : Primary ts t → Derives ts t
  | negativeInt (n : Int) :
      Derives [.symbol "-", .number (.int n)] (.literal (.int (-n)))
  | negativeFloat (x : Binary64) :
      Derives [.symbol "-", .number (.float x)] (.literal (.float x.negate))

inductive Primary : List Token → Term → Prop
  | name (id : String) : Primary [.name id] (.name id)
  | number (value : Value) : Primary [.number value] (.literal value)
  | text (s : String) : Primary [.text s] (.literal (.text s))
  | bytes (data : List UInt8) : Primary [.bytes data] (.literal (.bytes data))
  | word {w : String} {value : Value} : Parser.wordValue? w = some value →
      Primary [.word w] (.literal value)
  | attr {ts : List Token} {t : Term} (a : String) : Primary ts t →
      Primary (ts ++ [.symbol ".", .name a]) (.attr t a)
  | call {ts us : List Token} {t : Term} {args : List Term} {kwargs : List (String × Term)} :
      Primary ts t → Arguments us args kwargs →
      Primary (ts ++ .symbol "(" :: (us ++ [.symbol ")"])) (.call t args kwargs)
  | group {ts : List Token} {t : Term} : Derives ts t →
      Primary (.symbol "(" :: (ts ++ [.symbol ")"])) t
  | unit : Primary [.symbol "(", .symbol ")"] (.tuple [])
  | tuple {ts us : List Token} {t : Term} {items : List Term} : Derives ts t → Items us items →
      Primary (.symbol "(" :: (ts ++ .symbol "," :: (us ++ [.symbol ")"]))) (.tuple (t :: items))
  | list {us : List Token} {items : List Term} : Items us items →
      Primary (.symbol "[" :: (us ++ [.symbol "]"])) (.list items)
  | set {us : List Token} {items : List Term} : Items us items → items ≠ [] →
      Primary (.symbol "\x7b" :: (us ++ [.symbol "\x7d"])) (.set items)
  | dict {us : List Token} {entries : List (Term × Term)} : Entries us entries →
      Primary (.symbol "\x7b" :: (us ++ [.symbol "\x7d"])) (.dict entries)

inductive Items : List Token → List Term → Prop
  | none : Items [] []
  | last {ts : List Token} {t : Term} : Derives ts t → Items ts [t]
  | more {ts us : List Token} {t : Term} {items : List Term} : Derives ts t → Items us items →
      Items (ts ++ .symbol "," :: us) (t :: items)

inductive Entries : List Token → List (Term × Term) → Prop
  | none : Entries [] []
  | last {ks vs : List Token} {k v : Term} : Derives ks k → Derives vs v →
      Entries (ks ++ .symbol ":" :: vs) [(k, v)]
  | more {ks vs us : List Token} {k v : Term} {entries : List (Term × Term)} : Derives ks k →
      Derives vs v → Entries us entries →
      Entries (ks ++ .symbol ":" :: (vs ++ .symbol "," :: us)) ((k, v) :: entries)

/-- Arguments with commas between them and perhaps after them, those with keywords last. -/
inductive Arguments : List Token → List Term → List (String × Term) → Prop
  | none : Arguments [] [] []
  | last {ts : List Token} {t : Term} : Derives ts t → Arguments ts [t] []
  | more {ts us : List Token} {t : Term} {args : List Term} {kwargs : List (String × Term)} :
      Derives ts t → Arguments us args kwargs →
      Arguments (ts ++ .symbol "," :: us) (t :: args) kwargs
  | lastKeyword {ts : List Token} {t : Term} (key : String) : Derives ts t →
      Arguments (.name key :: .symbol "=" :: ts) [] [(key, t)]
  | moreKeywords {ts us : List Token} {t : Term} {kwargs : List (String × Term)} (key : String) :
      Derives ts t → Arguments us [] kwargs →
      Arguments (.name key :: .symbol "=" :: (ts ++ .symbol "," :: us)) [] ((key, t) :: kwargs)

end

def Token.opensTerm : Token → Bool
  | .name _ | .number _ | .text _ | .bytes _ => true
  | .word w => (Parser.wordValue? w).isSome
  | .symbol s => ["(", "[", "\x7b", "-"].contains s
  | _ => false

def Closes (ts : List Token) : Prop :=
  ts = [] ∨ ∃ s ∈ [")", "]", "\x7d", ",", ":"], ∃ rest, ts = .symbol s :: rest

theorem Closes.symbol {s : String} (closing : s ∈ [")", "]", "\x7d", ",", ":"])
    (rest : List Token) : Closes (.symbol s :: rest) :=
  .inr ⟨s, closing, rest, rfl⟩

theorem Closes.parenthesis (rest : List Token) : Closes (.symbol ")" :: rest) :=
  .symbol (by decide) rest

theorem Closes.brace (rest : List Token) : Closes (.symbol "\x7d" :: rest) :=
  .symbol (by decide) rest

theorem Closes.comma (rest : List Token) : Closes (.symbol "," :: rest) :=
  .symbol (by decide) rest

theorem Closes.colon (rest : List Token) : Closes (.symbol ":" :: rest) :=
  .symbol (by decide) rest

theorem unary?_word {w : String} {value : Value} (known : Parser.wordValue? w = some value)
    (rest : List Token) : Parser.unary? (.word w :: rest) = none := by
  have other : w ≠ "not" := by
    rintro rfl
    cases known
  unfold Parser.unary?
  split
  · next same => cases same
  · next same =>
    cases same
    exact absurd rfl other
  · rfl

theorem Primary.opens {ts : List Token} {t : Term} (derived : Primary ts t) :
    ∃ first more, ts = first :: more ∧ first.opensTerm = true ∧
      ∀ rest, Parser.unary? (first :: rest) = none := by
  cases derived with
  | name id => exact ⟨_, _, rfl, rfl, fun _ => rfl⟩
  | number value => exact ⟨_, _, rfl, rfl, fun _ => rfl⟩
  | text s => exact ⟨_, _, rfl, rfl, fun _ => rfl⟩
  | bytes data => exact ⟨_, _, rfl, rfl, fun _ => rfl⟩
  | word known => exact ⟨_, _, rfl, Option.isSome_iff_exists.mpr ⟨_, known⟩, unary?_word known⟩
  | attr a inner | call inner =>
    obtain ⟨first, more, rfl, opens⟩ := inner.opens
    exact ⟨first, _, rfl, opens⟩
  | group => exact ⟨_, _, rfl, rfl, fun _ => rfl⟩
  | unit => exact ⟨_, _, rfl, rfl, fun _ => rfl⟩
  | tuple => exact ⟨_, _, rfl, rfl, fun _ => rfl⟩
  | list => exact ⟨_, _, rfl, rfl, fun _ => rfl⟩
  | set => exact ⟨_, _, rfl, rfl, fun _ => rfl⟩
  | dict => exact ⟨_, _, rfl, rfl, fun _ => rfl⟩

theorem Derives.opens {ts : List Token} {t : Term} (derived : Derives ts t) :
    ∃ first more, ts = first :: more ∧ first.opensTerm = true := by
  cases derived with
  | primary inner =>
    obtain ⟨first, more, shape, opens, -⟩ := inner.opens
    exact ⟨first, more, shape, opens⟩
  | negativeInt n | negativeFloat x => exact ⟨_, _, rfl, by decide⟩

/-! ### Steps of the parser -/

namespace Parser

-- the equations of the parser are derived here, once for all of its steps
attribute [local simp] term chain operand trailers atom items entries arguments

variable {fuel : Nat} {t : Term} {ts rest more after : List Token} {first : Token}

theorem ne_symbol_of_opens (opens : first.opensTerm = true) {s : String}
    (closing : s ∈ [")", "]", "\x7d", ",", ":"]) : first ≠ .symbol s := by
  rintro rfl
  revert s
  decide

theorem operator?_of_closes (closes : Closes rest) : operator? rest = none := by
  rcases closes with rfl | ⟨s, closing, rest, rfl⟩
  · rfl
  · revert s
    simp only [List.mem_cons, List.not_mem_nil, or_false, forall_eq_or_imp, forall_eq]
    exact ⟨rfl, rfl, rfl, rfl, rfl⟩

theorem term_of_chain (read : chain fuel ts = .ok (t, rest)) (closes : Closes rest) :
    term (fuel + 1) ts = .ok (t, rest) := by
  rw [term, read]
  rcases closes with rfl | ⟨s, -, rest, rfl⟩ <;> rfl

theorem chain_of_operand (read : operand fuel ts = .ok (t, rest)) (closes : Closes rest) :
    chain (fuel + 1) ts = .ok (t, rest) := by
  rw [chain, read]
  simp only [bind, Except.bind, operator?_of_closes closes]
  rfl

theorem trailers_of_closes (closes : Closes rest) :
    trailers (fuel + 1) t rest = .ok (t, rest) := by
  rcases closes with rfl | ⟨s, closing, rest, rfl⟩
  · rfl
  · revert s
    simp only [List.mem_cons, List.not_mem_nil, or_false, forall_eq_or_imp, forall_eq]
    exact ⟨rfl, rfl, rfl, rfl, rfl⟩

theorem trailers_attr (a : String) :
    trailers (fuel + 1) t (.symbol "." :: .name a :: rest) = trailers fuel (.attr t a) rest := rfl

variable {args : List Term} {kwargs : List (String × Term)} {between : List Token}

theorem trailers_call (read : arguments fuel ts = .ok ((args, kwargs), rest)) :
    trailers (fuel + 1) t (.symbol "(" :: ts) = trailers fuel (.call t args kwargs) rest := by
  rw [trailers, read]
  rfl

theorem adjacentTexts_of_ended (ended : atText rest = false) : adjacentTexts rest = ("", rest) := by
  cases rest with
  | nil => rfl
  | cons token rest =>
    cases token with
    | text s => cases ended
    | _ => rfl

theorem adjacentBytes_of_ended (ended : atText rest = false) : adjacentBytes rest = ([], rest) := by
  cases rest with
  | nil => rfl
  | cons token rest =>
    cases token with
    | bytes data => cases ended
    | _ => rfl

theorem atom_text (s : String) (ended : atText rest = false) :
    atom (fuel + 1) (.text s :: rest) = .ok (.literal (.text s), rest) := by
  rw [atom, literalText, adjacentTexts, adjacentTexts_of_ended ended]
  simp only [ended, Bool.false_eq_true, if_false, String.append_empty]

theorem atom_bytes (data : List UInt8) (ended : atText rest = false) :
    atom (fuel + 1) (.bytes data :: rest) = .ok (.literal (.bytes data), rest) := by
  rw [atom, literalText, adjacentBytes, adjacentBytes_of_ended ended]
  simp only [ended, Bool.false_eq_true, if_false, List.append_nil]

theorem atom_word {w : String} {value : Value} (known : wordValue? w = some value) :
    atom (fuel + 1) (.word w :: rest) = .ok (.literal value, rest) := by
  rw [atom, known]
  rfl

theorem operand_negative (fuel : Nat) (rest : List Token) (value : Value)
    (enough : 8 ≤ fuel) (closes : Closes rest) :
    operand (fuel + 2) (.symbol "-" :: .number value :: rest) =
      .ok (applyUnary "-" (.literal value), rest) := by
  obtain ⟨fuel, rfl⟩ : ∃ k, fuel = k + 1 := ⟨fuel - 1, by omega⟩
  have inner : operand (fuel + 2) (.number value :: rest) = .ok (.literal value, rest) :=
    trailers_of_closes closes
  change Except.bind (operand (fuel + 2) _) _ = _
  rw [inner]
  rfl

theorem atom_list {items : List Term} (read : Parser.items fuel "]" ts = .ok (items, rest)) :
    atom (fuel + 1) (.symbol "[" :: ts) = .ok (.list items, rest) := by
  rw [atom, read]
  rfl

section
variable (opens : first.opensTerm = true)
include opens

theorem atom_group (read : term fuel (first :: more) = .ok (t, .symbol ")" :: rest)) :
    atom (fuel + 1) (.symbol "(" :: first :: more) = .ok (t, rest) := by
  rw [atom, read]
  · rfl
  · exact fun _ shape => ne_symbol_of_opens opens (by decide) (List.cons.inj shape).1

theorem atom_tuple {items : List Term}
    (read : term fuel (first :: more) = .ok (t, .symbol "," :: rest))
    (others : Parser.items fuel ")" rest = .ok (items, after)) :
    atom (fuel + 1) (.symbol "(" :: first :: more) = .ok (.tuple (t :: items), after) := by
  rw [atom, read]
  · change Except.bind (Parser.items fuel ")" rest) _ = _
    rw [others]
    rfl
  · exact fun _ shape => ne_symbol_of_opens opens (by decide) (List.cons.inj shape).1

theorem atom_singleton (read : term fuel (first :: more) = .ok (t, .symbol "\x7d" :: rest)) :
    atom (fuel + 1) (.symbol "\x7b" :: first :: more) = .ok (.set [t], rest) := by
  rw [atom, read]
  · rfl
  · exact fun _ shape => ne_symbol_of_opens opens (by decide) (List.cons.inj shape).1

theorem atom_set {items : List Term}
    (read : term fuel (first :: more) = .ok (t, .symbol "," :: rest))
    (others : Parser.items fuel "\x7d" rest = .ok (items, after)) :
    atom (fuel + 1) (.symbol "\x7b" :: first :: more) = .ok (.set (t :: items), after) := by
  rw [atom, read]
  · change Except.bind (Parser.items fuel "\x7d" rest) _ = _
    rw [others]
    rfl
  · exact fun _ shape => ne_symbol_of_opens opens (by decide) (List.cons.inj shape).1

theorem atom_dict {value : Term} {entries : List (Term × Term)}
    (key : term fuel (first :: more) = .ok (t, .symbol ":" :: between))
    (read : term fuel between = .ok (value, rest))
    (others : Parser.entries fuel rest = .ok (entries, after)) :
    atom (fuel + 1) (.symbol "\x7b" :: first :: more) =
      .ok (.dict ((t, value) :: entries), after) := by
  rw [atom, key]
  · change Except.bind (term fuel between) _ = _
    rw [read]
    change Except.bind (Parser.entries fuel rest) _ = _
    rw [others]
    rfl
  · exact fun _ shape => ne_symbol_of_opens opens (by decide) (List.cons.inj shape).1

theorem atSymbol_of_opens {closing : String} (closes : closing ∈ [")", "]", "\x7d", ",", ":"]) :
    atSymbol closing (first :: more) = false := by
  have other := ne_symbol_of_opens opens closes
  cases first with
  | symbol s => exact beq_false_of_ne fun same => other (by rw [same])
  | _ => rfl

theorem items_last {closing : String} (closes : closing ∈ [")", "]", "\x7d", ",", ":"])
    (read : term fuel (first :: more) = .ok (t, .symbol closing :: rest)) :
    items (fuel + 1) closing (first :: more) = .ok ([t], rest) := by
  have here : atSymbol closing (.symbol closing :: rest) = true := beq_self_eq_true closing
  rw [items]
  simp only [atSymbol_of_opens opens closes, Bool.false_eq_true, if_false, read, bind, Except.bind,
    here, if_true]
  rfl

theorem items_more {closing : String} {others : List Term} (closes : closing ∈ [")", "]", "\x7d"])
    (read : term fuel (first :: more) = .ok (t, .symbol "," :: rest))
    (tail : items fuel closing rest = .ok (others, after)) :
    items (fuel + 1) closing (first :: more) = .ok (t :: others, after) := by
  have shut : closing ∈ [")", "]", "\x7d", ",", ":"] := List.mem_append_left [",", ":"] closes
  have notHere : atSymbol closing (.symbol "," :: rest) = false := by
    refine beq_false_of_ne ?_
    rintro rfl
    revert closes
    decide
  have comma : symbol "," (.symbol "," :: rest) = .ok rest := rfl
  rw [items]
  simp only [atSymbol_of_opens opens shut, Bool.false_eq_true, if_false, read, bind, Except.bind,
    notHere, comma, tail]
  rfl

theorem entries_more {key value : Term}
    (keyRead : term fuel (first :: more) = .ok (key, .symbol ":" :: between))
    (read : term fuel between = .ok (value, rest)) {others : List (Term × Term)}
    (tail : entries fuel rest = .ok (others, after)) :
    entries (fuel + 1) (.symbol "," :: first :: more) = .ok ((key, value) :: others, after) := by
  have here : atSymbol "\x7d" (.symbol "," :: first :: more) = false := rfl
  have notHere : atSymbol "\x7d" (first :: more) = false := atSymbol_of_opens opens (by decide)
  have comma : symbol "," (.symbol "," :: first :: more) = .ok (first :: more) := rfl
  have colon : symbol ":" (.symbol ":" :: between) = .ok between := rfl
  rw [entries]
  simp only [here, notHere, comma, colon, keyRead, read, tail, Bool.false_eq_true, if_false, bind,
    Except.bind]
  rfl

end

def Continues (fuel : Nat) (rest : List Token) (args : List Term) (kwargs : List (String × Term))
    (after : List Token) : Prop :=
  rest = .symbol ")" :: after ∧ args = [] ∧ kwargs = [] ∨
    ∃ next, rest = .symbol "," :: next ∧ arguments fuel next = .ok ((args, kwargs), after)

theorem arguments_keyword {key : String} (read : term fuel ts = .ok (t, rest))
    (continues : Continues fuel rest [] kwargs after) :
    arguments (fuel + 1) (.name key :: .symbol "=" :: ts) =
      .ok (([], (key, t) :: kwargs), after) := by
  rw [arguments]
  simp only [atSymbol, Bool.false_eq_true, if_false]
  rw [read]
  rcases continues with ⟨rfl, -, rfl⟩ | ⟨next, rfl, tail⟩
  · rfl
  · change Except.bind (arguments fuel next) _ = _
    rw [tail]
    rfl

theorem arguments_positional (opens : first.opensTerm = true)
    (unnamed : ∀ key others, first :: more ≠ .name key :: .symbol "=" :: others)
    (read : term fuel (first :: more) = .ok (t, rest))
    (continues : Continues fuel rest args kwargs after) :
    arguments (fuel + 1) (first :: more) = .ok ((t :: args, kwargs), after) := by
  rw [arguments]
  simp only [atSymbol_of_opens opens (show ")" ∈ _ from List.mem_cons_self ..), Bool.false_eq_true,
    if_false]
  · rw [read]
    rcases continues with ⟨rfl, rfl, rfl⟩ | ⟨next, rfl, tail⟩
    · rfl
    · change Except.bind (arguments fuel next) _ = _
      rw [tail]
      rfl
  · exact fun key others shape => unnamed key others shape

end Parser

open Parser

theorem unnamed_of_read {fuel : Nat} {ts rest : List Token} {t : Term}
    (read : term (fuel + 5) ts = .ok (t, rest)) (closes : Closes rest) (key : String)
    (others : List Token) : ts ≠ .name key :: .symbol "=" :: others := by
  rintro rfl
  have computed : term (fuel + 5) (.name key :: .symbol "=" :: others) =
      .ok (.name key, .symbol "=" :: others) := rfl
  rw [computed] at read
  cases read
  rcases closes with none | ⟨s, closing, rest, shape⟩
  · cases none
  · cases shape
    revert closing
    decide

mutual

theorem Derives.term_append {ts : List Token} {t : Term} (derived : Derives ts t) (fuel : Nat)
    (rest : List Token) (enough : 4 * ts.length + 4 ≤ fuel) (closes : Closes rest) :
    term fuel (ts ++ rest) = .ok (t, rest) := by
  obtain ⟨fuel, rfl⟩ : ∃ k, fuel = k + 4 := ⟨fuel - 4, by omega⟩
  refine term_of_chain (chain_of_operand ?_ closes) closes
  cases derived with
  | primary inner =>
    obtain ⟨first, more, shape, -, unsigned⟩ := inner.opens
    have ended : atText rest = false := by
      rcases closes with rfl | ⟨s, -, rest, rfl⟩ <;> rfl
    obtain ⟨left, spent, read⟩ := inner.trailers_append (fuel + 1) rest (by omega) ended
    obtain ⟨left, rfl⟩ : ∃ k, left = k + 1 := ⟨left - 1, by omega⟩
    rw [trailers_of_closes closes] at read
    rw [operand, shape, List.cons_append, unsigned, ← List.cons_append, ← shape]
    exact read
  | negativeInt n => exact operand_negative fuel rest (.int n) (by simpa using enough) closes
  | negativeFloat x => exact operand_negative fuel rest (.float x) (by simpa using enough) closes
termination_by 3 * ts.length + 1
decreasing_by omega

theorem Primary.trailers_append {ts : List Token} {t : Term} (derived : Primary ts t) (fuel : Nat)
    (rest : List Token) (enough : 4 * ts.length + 1 ≤ fuel) (ended : atText rest = false) :
    ∃ left, fuel ≤ left + ts.length ∧
      (atom fuel (ts ++ rest) >>= fun read => trailers fuel read.1 read.2) =
        trailers left t rest := by
  obtain ⟨fuel, rfl⟩ : ∃ k, fuel = k + 1 := ⟨fuel - 1, by omega⟩
  -- without trailers no fuel is spent
  have whole (read : atom (fuel + 1) (ts ++ rest) = .ok (t, rest)) :
      ∃ left, fuel + 1 ≤ left + ts.length ∧
        (atom (fuel + 1) (ts ++ rest) >>= fun read => trailers (fuel + 1) read.1 read.2) =
          trailers left t rest :=
    ⟨fuel + 1, by omega, by rw [read]; rfl⟩
  cases derived with
  | name id => exact whole rfl
  | number value => exact whole rfl
  | text s => exact whole (atom_text s ended)
  | bytes data => exact whole (atom_bytes data ended)
  | word known => exact whole (atom_word known)
  | attr a inner =>
    simp only [List.length_append, List.length_cons, List.length_nil] at enough ⊢
    rw [List.append_assoc]
    obtain ⟨left, spent, read⟩ := inner.trailers_append (fuel + 1)
      ([.symbol ".", .name a] ++ rest) (by omega) rfl
    obtain ⟨left, rfl⟩ : ∃ k, left = k + 1 := ⟨left - 1, by omega⟩
    exact ⟨left, by omega, read.trans (trailers_attr a)⟩
  | @call ts us t args kwargs inner given =>
    simp only [List.length_append, List.length_cons, List.length_nil] at enough ⊢
    rw [List.append_assoc]
    obtain ⟨left, spent, read⟩ := inner.trailers_append (fuel + 1)
      (.symbol "(" :: (us ++ [.symbol ")"]) ++ rest) (by omega) rfl
    obtain ⟨left, rfl⟩ : ∃ k, left = k + 1 := ⟨left - 1, by omega⟩
    have arguments := given.arguments_append left rest (by omega)
    refine ⟨left, by omega, read.trans ?_⟩
    rw [List.cons_append, List.append_assoc]
    exact trailers_call arguments
  | @group ts t inner =>
    simp only [List.length_append, List.length_cons, List.length_nil] at enough
    obtain ⟨first, more, shape, opens⟩ := inner.opens
    have read := inner.term_append fuel (.symbol ")" :: rest) (by omega) (.parenthesis _)
    apply whole
    rw [List.cons_append, List.append_assoc]
    rw [shape] at read ⊢
    exact atom_group opens read
  | unit => exact whole rfl
  | @tuple ts us t items inner others =>
    simp only [List.length_append, List.length_cons, List.length_nil] at enough
    obtain ⟨first, more, shape, opens⟩ := inner.opens
    have read := inner.term_append fuel (.symbol "," :: (us ++ .symbol ")" :: rest)) (by omega)
      (.comma _)
    have tail := others.items_append fuel ")" rest (by omega) (by decide)
    apply whole
    rw [List.cons_append, List.append_assoc, List.cons_append, List.append_assoc]
    rw [shape] at read ⊢
    exact atom_tuple opens read tail
  | list inner =>
    simp only [List.length_append, List.length_cons, List.length_nil] at enough
    have read := inner.items_append fuel "]" rest (by omega) (by decide)
    apply whole
    rw [List.cons_append, List.append_assoc]
    exact atom_list read
  | set inner some =>
    simp only [List.length_append, List.length_cons, List.length_nil] at enough
    apply whole
    rw [List.cons_append, List.append_assoc]
    cases inner with
    | none => exact absurd rfl some
    | last inner =>
      obtain ⟨first, more, shape, opens⟩ := inner.opens
      have read := inner.term_append fuel (.symbol "\x7d" :: rest) (by omega)
        (.brace _)
      rw [shape] at read ⊢
      exact atom_singleton opens read
    | @more ts us t items inner others =>
      simp only [List.length_append, List.length_cons] at enough
      obtain ⟨first, more, shape, opens⟩ := inner.opens
      have read := inner.term_append fuel (.symbol "," :: (us ++ .symbol "\x7d" :: rest)) (by omega)
        (.comma _)
      have tail := others.items_append fuel "\x7d" rest (by omega) (by decide)
      rw [List.append_assoc, List.cons_append]
      rw [shape] at read ⊢
      exact atom_set opens read tail
  | dict inner =>
    simp only [List.length_append, List.length_cons, List.length_nil] at enough
    apply whole
    rw [List.cons_append, List.append_assoc]
    cases inner with
    | none => rfl
    | @last ks vs k v key value =>
      simp only [List.length_append, List.length_cons] at enough
      obtain ⟨first, more, shape, opens⟩ := key.opens
      have keyRead := key.term_append fuel (.symbol ":" :: (vs ++ .symbol "\x7d" :: rest))
        (by omega) (.colon _)
      have read := value.term_append fuel (.symbol "\x7d" :: rest) (by omega) (.brace _)
      have tail : entries fuel (.symbol "\x7d" :: rest) = .ok ([], rest) := by
        obtain ⟨fuel, rfl⟩ : ∃ k, fuel = k + 1 := ⟨fuel - 1, by omega⟩
        rfl
      rw [List.append_assoc, List.cons_append]
      rw [shape] at keyRead ⊢
      exact atom_dict opens keyRead read tail
    | @more ks vs us k v others key value inner =>
      simp only [List.length_append, List.length_cons] at enough
      obtain ⟨first, more, shape, opens⟩ := key.opens
      have keyRead := key.term_append fuel
        (.symbol ":" :: (vs ++ .symbol "," :: (us ++ .symbol "\x7d" :: rest))) (by omega)
        (.colon _)
      have read := value.term_append fuel (.symbol "," :: (us ++ .symbol "\x7d" :: rest)) (by omega)
        (.comma _)
      have tail := inner.entries_append fuel rest (by omega)
      rw [List.append_assoc, List.cons_append, List.append_assoc, List.cons_append]
      rw [shape] at keyRead ⊢
      exact atom_dict opens keyRead read tail
termination_by 3 * ts.length
decreasing_by
  all_goals
    subst_vars
    simp only [List.length_append, List.length_cons]
    omega

theorem Items.items_append {us : List Token} {ts : List Term} (derived : Items us ts) (fuel : Nat)
    (closing : String) (rest : List Token) (enough : 4 * us.length + 5 ≤ fuel)
    (closes : closing ∈ [")", "]", "\x7d"]) :
    items fuel closing (us ++ .symbol closing :: rest) = .ok (ts, rest) := by
  obtain ⟨fuel, rfl⟩ : ∃ k, fuel = k + 1 := ⟨fuel - 1, by omega⟩
  have shut : closing ∈ [")", "]", "\x7d", ",", ":"] := List.mem_append_left [",", ":"] closes
  cases derived with
  | none =>
    have here : atSymbol closing (.symbol closing :: rest) = true := beq_self_eq_true closing
    rw [List.nil_append, items]
    simp only [here, if_true]
    rfl
  | last inner =>
    obtain ⟨first, more, shape, opens⟩ := inner.opens
    have read := inner.term_append fuel (.symbol closing :: rest) (by omega) (.symbol shut _)
    rw [shape] at read ⊢
    exact items_last opens shut read
  | @more ts us t others inner tail =>
    simp only [List.length_append, List.length_cons] at enough
    obtain ⟨first, more, shape, opens⟩ := inner.opens
    have read := inner.term_append fuel (.symbol "," :: (us ++ .symbol closing :: rest)) (by omega)
      (.comma _)
    have others := tail.items_append fuel closing rest (by omega) closes
    rw [List.append_assoc, List.cons_append]
    rw [shape] at read ⊢
    exact items_more opens closes read others
termination_by 3 * us.length + 2
decreasing_by
  all_goals
    subst_vars
    simp only [List.length_append, List.length_cons]
    omega

theorem Entries.entries_append {us : List Token} {es : List (Term × Term)}
    (derived : Entries us es) (fuel : Nat) (rest : List Token)
    (enough : 4 * us.length + 6 ≤ fuel) :
    entries fuel (.symbol "," :: (us ++ .symbol "\x7d" :: rest)) = .ok (es, rest) := by
  obtain ⟨fuel, rfl⟩ : ∃ k, fuel = k + 2 := ⟨fuel - 2, by omega⟩
  cases derived with
  | none => rfl
  | @last ks vs k v key value =>
    simp only [List.length_append, List.length_cons] at enough
    obtain ⟨first, more, shape, opens⟩ := key.opens
    have keyRead := key.term_append (fuel + 1) (.symbol ":" :: (vs ++ .symbol "\x7d" :: rest))
      (by omega) (.colon _)
    have read := value.term_append (fuel + 1) (.symbol "\x7d" :: rest) (by omega)
      (.brace _)
    rw [List.append_assoc, List.cons_append]
    rw [shape] at keyRead ⊢
    exact entries_more opens keyRead read rfl
  | @more ks vs us k v others key value inner =>
    simp only [List.length_append, List.length_cons] at enough
    obtain ⟨first, more, shape, opens⟩ := key.opens
    have keyRead := key.term_append (fuel + 1)
      (.symbol ":" :: (vs ++ .symbol "," :: (us ++ .symbol "\x7d" :: rest))) (by omega)
      (.colon _)
    have read := value.term_append (fuel + 1) (.symbol "," :: (us ++ .symbol "\x7d" :: rest))
      (by omega) (.comma _)
    have tail := inner.entries_append (fuel + 1) rest (by omega)
    rw [List.append_assoc, List.cons_append, List.append_assoc, List.cons_append]
    rw [shape] at keyRead ⊢
    exact entries_more opens keyRead read tail
termination_by 3 * us.length + 2
decreasing_by
  all_goals
    subst_vars
    simp only [List.length_append, List.length_cons]
    omega

theorem Arguments.arguments_append {us : List Token} {args : List Term}
    {kwargs : List (String × Term)} (derived : Arguments us args kwargs) (fuel : Nat)
    (rest : List Token) (enough : 4 * us.length + 6 ≤ fuel) :
    arguments fuel (us ++ .symbol ")" :: rest) = .ok ((args, kwargs), rest) := by
  obtain ⟨fuel, rfl⟩ : ∃ k, fuel = k + 6 := ⟨fuel - 6, by omega⟩
  cases derived with
  | none => rfl
  | last inner =>
    obtain ⟨first, more, shape, opens⟩ := inner.opens
    have closes : Closes (.symbol ")" :: rest) := .parenthesis _
    have read := inner.term_append (fuel + 5) _ (by omega) closes
    have unnamed := unnamed_of_read read closes
    rw [shape] at read unnamed ⊢
    exact arguments_positional opens unnamed read (.inl ⟨rfl, rfl, rfl⟩)
  | @more ts us t args kwargs inner others =>
    simp only [List.length_append, List.length_cons] at enough
    obtain ⟨first, more, shape, opens⟩ := inner.opens
    have closes : Closes (.symbol "," :: (us ++ .symbol ")" :: rest)) := .comma _
    have read := inner.term_append (fuel + 5) _ (by omega) closes
    have unnamed := unnamed_of_read read closes
    have tail := others.arguments_append (fuel + 5) rest (by omega)
    rw [List.append_assoc, List.cons_append]
    rw [shape] at read unnamed ⊢
    exact arguments_positional opens unnamed read (.inr ⟨_, rfl, tail⟩)
  | lastKeyword key inner =>
    simp only [List.length_cons] at enough
    have read := inner.term_append (fuel + 5) (.symbol ")" :: rest) (by omega)
      (.parenthesis _)
    exact arguments_keyword read (.inl ⟨rfl, rfl, rfl⟩)
  | @moreKeywords ts us t kwargs key inner others =>
    simp only [List.length_append, List.length_cons] at enough
    have read := inner.term_append (fuel + 5) (.symbol "," :: (us ++ .symbol ")" :: rest))
      (by omega) (.comma _)
    have tail := others.arguments_append (fuel + 5) rest (by omega)
    rw [List.cons_append, List.cons_append, List.append_assoc, List.cons_append]
    exact arguments_keyword read (.inr ⟨_, rfl, tail⟩)
termination_by 3 * us.length + 2
decreasing_by
  all_goals
    subst_vars
    simp only [List.length_append, List.length_cons]
    omega

end

theorem Derives.unique {ts : List Token} {t t' : Term} (derived : Derives ts t)
    (other : Derives ts t') : t = t' := by
  have read := derived.term_append _ [] (Nat.le_refl _) (.inl rfl)
  rw [other.term_append _ [] (Nat.le_refl _) (.inl rfl)] at read
  cases read
  rfl

end IdlGen.Code
