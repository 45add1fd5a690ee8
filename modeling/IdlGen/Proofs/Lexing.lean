import IdlGen.Expr.Lower
import IdlGen.Proofs.QuotedTexts
import Mathlib.Data.Bool.AllAny
import Mathlib.Data.List.Forall2

/-!
Texts of terms as tokens. There is one way at most to cut a text into tokens (`Lexes.unique`), and
a piece of a text is cut into the same tokens wherever it stands (`Splits`).
-/
namespace IdlGen.Code

namespace Token

def depthAfter (n : Nat) : Token → Nat
  | .symbol s =>
    if ["(", "[", "\x7b"].contains s then n + 1
    else if [")", "]", "\x7d"].contains s then n - 1
    else n
  | _ => n

/-- A token at the start of a text, with a name as it is written there. That names may have one
    normal form says what they name, not how they are read. -/
def written (cs : List Char) : Token → Token
  | .name _ => .name (String.ofList (cs.takeWhile isWordChar))
  | token => token

end Token

/-- The tokens of a text that starts within so many open brackets. -/
inductive Lexes : Nat → List Char → List Token → Prop
  | done : Lexes 0 [] []
  | blank {n : Nat} {cs : List Char} {ts : List Token} : Lexes n cs ts → Lexes n (' ' :: cs) ts
  | line {n : Nat} {cs : List Char} {ts : List Token} :
      Lexes (n + 1) cs ts → Lexes (n + 1) ('\n' :: cs) ts
  | token {n : Nat} {cs rest : List Char} {token : Token} {ts : List Token} :
      Token.next? cs = some (token, rest) → Lexes (token.depthAfter n) rest ts →
      Lexes n cs (token.written cs :: ts)

open Token

theorem long_starts : longSymbols.map (fun s => s.toList.take 2) =
    [['*', '*'], ['/', '/'], ['>', '>'], ['<', '<'], ['.', '.'], ['!', '='], ['%', '='],
      ['&', '='], ['*', '*'], ['*', '='], ['+', '='], ['-', '='], ['-', '>'], ['/', '/'],
      ['/', '='], [':', '='], ['<', '<'], ['<', '='], ['=', '='], ['>', '='], ['>', '>'],
      ['@', '='], ['^', '='], ['|', '=']] := by
  decide +kernel

variable {cs rest word more : List Char} {c d : Char} {n : Nat} {ts us : List Token} {s : String}
  {pieces : List (List Char)} {tokens : List (List Token)}

theorem find?_long (apart : cs.take 2 ∉ longSymbols.map fun s => s.toList.take 2) :
    longSymbols.find? (fun s => s.toList.isPrefixOf cs) = none := by
  rw [List.find?_eq_none]
  intro s member begins
  obtain ⟨more, rfl⟩ := List.isPrefixOf_iff_prefix.mp begins
  apply apart
  have pair : (s.toList.take 2).length = 2 := by
    have : ∀ start ∈ longSymbols.map fun s => s.toList.take 2, start.length = 2 := by
      rw [long_starts]
      decide
    exact this _ (List.mem_map_of_mem member)
  have long : 2 ≤ s.toList.length := by
    rw [List.length_take] at pair
    omega
  rw [List.take_append_of_le_length long]
  exact List.mem_map_of_mem member

theorem next?_eq_symbolOf (kind : c.isDigit = false ∧ isWordChar c = false ∧ isQuote c = false)
    (noDigit : c = '.' → rest.head?.any Char.isDigit = false) :
    next? (c :: rest) = symbolOf (c :: rest) := by
  obtain ⟨digit, word, quote⟩ := kind
  have number : (c.isDigit || (c == '.' && rest.head?.any Char.isDigit)) = false := by
    by_cases point : c = '.'
    · rw [digit, noDigit point, Bool.and_false]
      rfl
    · rw [digit, beq_false_of_ne point]
      rfl
  rw [next?, number, word, quote]
  simp only [Bool.false_eq_true, if_false]

theorem next?_symbol (short : c ∈ shortSymbols)
    (apart : (c :: rest).take 2 ∉ longSymbols.map fun s => s.toList.take 2)
    (noDigit : c = '.' → rest.head?.any Char.isDigit = false) :
    next? (c :: rest) = some (.symbol c.toString, rest) := by
  have kinds : ∀ c ∈ shortSymbols,
      c.isDigit = false ∧ isWordChar c = false ∧ isQuote c = false :=
    List.all_iff_forall_prop.mp (by decide)
  rw [next?_eq_symbolOf (kinds c short) noDigit]
  simp only [symbolOf, find?_long apart]
  rw [if_pos (List.contains_iff_mem.mpr short)]

theorem next?_bracket (bracket : c ∈ ['(', ')', '[', ']', '\x7b', '\x7d', ',']) (rest : List Char) :
    next? (c :: rest) = some (.symbol c.toString, rest) := by
  have single : ∀ c ∈ ['(', ')', '[', ']', '\x7b', '\x7d', ','],
      c ∈ shortSymbols ∧ c ≠ '.' ∧ ∀ start ∈ longSymbols.map fun s => s.toList.take 2,
        start.head? ≠ some c := by
    rw [long_starts]
    exact List.all_iff_forall_prop.mp (by decide)
  obtain ⟨short, point, apart⟩ := single c bracket
  exact next?_symbol short (fun member => apart _ member rfl) (fun same => absurd same point)

theorem next?_blank (blank : c ∈ [' ', '\n']) (rest : List Char) : next? (c :: rest) = none := by
  have single : ∀ c ∈ [' ', '\n'], (c.isDigit = false ∧ isWordChar c = false ∧
      isQuote c = false) ∧ c ∉ shortSymbols ∧ c ≠ '.' ∧
      ∀ start ∈ longSymbols.map fun s => s.toList.take 2, start.head? ≠ some c := by
    rw [long_starts]
    exact List.all_iff_forall_prop.mp (by decide)
  obtain ⟨kind, other, point, apart⟩ := single c blank
  have notLong : (c :: rest).take 2 ∉ longSymbols.map fun s => s.toList.take 2 :=
    fun member => apart _ member rfl
  rw [next?_eq_symbolOf kind fun same => absurd same point]
  simp only [symbolOf, find?_long notLong]
  rw [if_neg (mt List.contains_iff_mem.mp other)]

theorem Lexes.unique (first : Lexes n cs ts) (second : Lexes n cs us) : ts = us := by
  induction first generalizing us with
  | done =>
    cases second with
    | done => rfl
    | token read => cases read
  | blank _ ih =>
    cases second with
    | blank second => exact ih second
    | token read => rw [next?_blank (by decide)] at read; cases read
  | line _ ih =>
    cases second with
    | line second => exact ih second
    | token read => rw [next?_blank (by decide)] at read; cases read
  | token read _ ih =>
    cases second with
    | done => cases read
    | blank => rw [next?_blank (by decide)] at read; cases read
    | line => rw [next?_blank (by decide)] at read; cases read
    | token other second =>
      rw [read] at other
      cases other
      rw [ih second]

def isName (s : String) : Bool := isIdentifier s && !Name.isReserved s

theorem isWordChar_of_continues (continues : Text.continuesIdentifier c = true) :
    isWordChar c = true := by
  by_cases wide : 0x80 ≤ c.toNat
  · simp [isWordChar, wide]
  · have all : ∀ n < 0x80, Text.continuesIdentifier (Char.ofNat n) = true →
        isWordChar (Char.ofNat n) = true := by decide
    exact of_ascii (p := fun c => Text.continuesIdentifier c = true → isWordChar c = true) all
      (not_le.mp wide) continues

theorem isDigit_of_starts (starts : Text.startsIdentifier c = true) : c.isDigit = false := by
  by_contra digit
  rw [Bool.not_eq_false] at digit
  have all : ∀ n < 0x80, Text.startsIdentifier (Char.ofNat n) = true →
      (Char.ofNat n).isDigit = false := by decide
  rw [of_ascii (p := fun c => Text.startsIdentifier c = true → c.isDigit = false) all
    (ascii_of_isDigit digit) starts] at digit
  cases digit

theorem takeWhile_word (chars : ∀ d ∈ word, isWordChar d = true) (ends : Ends rest) :
    (word ++ rest).takeWhile isWordChar = word := by
  rw [List.takeWhile_append_of_pos chars]
  cases rest with
  | nil => simp
  | cons d rest => simp [(ends d rfl).1]

theorem dropWhile_word (chars : ∀ d ∈ word, isWordChar d = true) (ends : Ends rest) :
    (word ++ rest).dropWhile isWordChar = rest := by
  rw [List.dropWhile_append_of_pos chars]
  cases rest with
  | nil => rfl
  | cons d rest => simp [(ends d rfl).1]

theorem next?_word (shape : s.toList = c :: more) (start : c.isDigit = false)
    (chars : ∀ d ∈ s.toList, isWordChar d = true) (ends : Ends rest) :
    next? (s.toList ++ rest) = (ofWord s).map fun token => (token, rest) := by
  have first : isWordChar c = true := chars c (shape ▸ List.mem_cons_self ..)
  have noPoint : c ≠ '.' := by
    rintro rfl
    cases first
  have step : next? (s.toList ++ rest) = wordOf (s.toList ++ rest) := by
    rw [shape, List.cons_append, next?, start, beq_false_of_ne noPoint, first]
    rfl
  rw [step, wordOf, takeWhile_word chars ends, dropWhile_word chars ends, String.ofList_toList]
  cases rest with
  | nil => rfl
  | cons d rest =>
    simp only [(ends d rfl).2, Bool.false_and, Bool.false_eq_true, if_false]

theorem chars_of_isName (name : isName s = true) :
    ∃ c more, s.toList = c :: more ∧ c.isDigit = false ∧ ∀ d ∈ s.toList, isWordChar d = true := by
  obtain ⟨identifier, -⟩ := Bool.and_eq_true_iff.mp name
  unfold isIdentifier at identifier
  cases shape : s.toList with
  | nil =>
    rw [shape] at identifier
    cases identifier
  | cons c more =>
    rw [shape] at identifier
    obtain ⟨starts, continues⟩ := Bool.and_eq_true_iff.mp identifier
    refine ⟨c, more, rfl, isDigit_of_starts starts, ?_⟩
    rintro d (_ | ⟨_, member⟩)
    · exact isWordChar_of_continues (by simp [Text.continuesIdentifier, starts])
    · exact isWordChar_of_continues (List.all_eq_true.mp continues d member)

/-! ### Pieces of a text -/

def Splits (least : Nat) (cs : List Char) (ts : List Token) : Prop :=
  ∀ (n : Nat) (rest : List Char) (more : List Token), least ≤ n → Ends rest →
    rest.head? ≠ some '.' → Lexes n rest more → Lexes n (cs ++ rest) (ts ++ more)

def Heads (cs : List Char) (ts : List Token) : Prop :=
  ∀ (n : Nat) (rest : List Char) (more : List Token), Ends rest → Lexes n rest more →
    Lexes n (cs ++ rest) (ts ++ more)

theorem Heads.splits (heads : Heads cs ts) (least : Nat) : Splits least cs ts :=
  fun n rest more _ ends _ tail => heads n rest more ends tail

theorem Splits.mono {least deeper : Nat} (splits : Splits least cs ts) (le : least ≤ deeper) :
    Splits deeper cs ts :=
  fun n rest more deep => splits n rest more (le.trans deep)

theorem Splits.nil (least : Nat) : Splits least [] [] := fun _ _ _ _ _ _ tail => tail

theorem ends_cons (other : isWordChar c = false ∧ isQuote c = false) (rest : List Char) :
    Ends (c :: rest) := by
  rintro d ⟨⟩
  exact other

theorem Heads.of_next? {token : Token} (depth : ∀ n, token.depthAfter n = n)
    (spelled : ∀ cs, token.written cs = token)
    (read : ∀ rest, Ends rest → next? (cs ++ rest) = some (token, rest)) : Heads cs [token] := by
  intro n rest more ends tail
  have first := Lexes.token (n := n) (read rest ends) ((depth n).symm ▸ tail)
  rwa [spelled] at first

theorem heads_name (name : isName s = true) : Heads s.toList [.name s] := by
  intro n rest more ends tail
  obtain ⟨c, others, shape, start, chars⟩ := chars_of_isName name
  obtain ⟨identifier, unreserved⟩ := Bool.and_eq_true_iff.mp name
  have token : ofWord s = some (.name (Text.normalForm s)) := by
    rw [ofWord, if_neg (by simpa using unreserved), if_pos identifier]
  have read : next? (s.toList ++ rest) = some (.name (Text.normalForm s), rest) := by
    rw [next?_word shape start chars ends, token]
    rfl
  have first := Lexes.token (n := n) read tail
  rwa [written, takeWhile_word chars ends, String.ofList_toList] at first

theorem Heads.attr (heads : Heads cs ts) {a : String} (name : isName a = true) :
    Heads (cs ++ '.' :: a.toList) (ts ++ [.symbol ".", .name a]) := by
  intro n rest more ends tail
  obtain ⟨c, others, shape, start, chars⟩ := chars_of_isName name
  have noPoint : c ≠ '.' := by
    rintro rfl
    cases chars '.' (shape ▸ List.mem_cons_self ..)
  have read : next? ('.' :: (a.toList ++ rest)) = some (.symbol ".", a.toList ++ rest) := by
    rw [shape]
    refine next?_symbol (by decide) ?_ fun _ => start
    rw [long_starts]
    simp [noPoint]
  rw [List.append_assoc, List.append_assoc]
  exact heads n _ _ (ends_cons (by decide) _) (.token read (heads_name name n rest more ends tail))

theorem heads_quoted (s : String) : Heads (Text.quoted s).toList [.text s] :=
  .of_next? (fun _ => rfl) (fun _ => rfl) fun _ ends => next?_quoted s ends

theorem heads_quotedBytes (data : List UInt8) :
    Heads (Text.quotedBytes data).toList [.bytes data] :=
  .of_next? (fun _ => rfl) (fun _ => rfl) fun _ ends => next?_quotedBytes data ends

theorem heads_plain (inner : ∀ c ∈ s.toList, IsInner '"' c) :
    Heads ('"' :: (s.toList ++ ['"'])) [.text s] := by
  refine .of_next? (fun _ => rfl) (fun _ => rfl) fun rest ends => ?_
  rw [List.cons_append, List.append_assoc]
  exact next?_plain rfl inner ends

theorem heads_word (reserved : s ∈ ["None", "True", "False"]) : Heads s.toList [.word s] := by
  have all : ∀ s ∈ ["None", "True", "False"], Name.isReserved s = true ∧
      s.toList.all (fun d => isWordChar d = true ∧ d.isDigit = false) ∧ s.toList ≠ [] := by
    decide +kernel
  obtain ⟨known, chars, nonempty⟩ := all s reserved
  rw [List.all_iff_forall_prop] at chars
  obtain ⟨c, more, shape⟩ := List.exists_cons_of_ne_nil nonempty
  refine .of_next? (fun _ => rfl) (fun _ => rfl) fun rest ends => ?_
  rw [next?_word shape (chars c (shape ▸ List.mem_cons_self ..)).2
    (fun d member => (chars d member).1) ends, ofWord, if_pos known]
  rfl

theorem splits_number {cs more : List Char} {d : Char} {value : Value} (shape : cs = d :: more)
    (digit : d.isDigit = true) (read : ∀ rest, Ends rest → rest.head? ≠ some '.' →
      numberOf (cs ++ rest) = some (value, rest)) : Splits 0 cs [.number value] := by
  intro n rest others _ ends point tail
  have token : next? (cs ++ rest) = some (.number value, rest) := by
    have number := read rest ends point
    rw [shape, List.cons_append] at number ⊢
    rw [next?, digit, number]
    rfl
  exact .token token tail

theorem Splits.negative (splits : Splits 0 cs ts) (shape : cs = d :: more)
    (digit : d.isDigit = true) : Splits 0 ('-' :: cs) (.symbol "-" :: ts) := by
  intro n rest others deep ends point tail
  have apart : d ≠ '=' ∧ d ≠ '>' := by
    constructor <;> rintro rfl <;> cases digit
  have read : next? ('-' :: (cs ++ rest)) = some (.symbol "-", cs ++ rest) := by
    rw [shape]
    refine next?_symbol (by decide) ?_ (fun same => by cases same)
    rw [long_starts]
    simp [apart]
  exact .token read (splits n rest others deep ends point tail)

def openings : List (Char × String) := [('(', "("), ('[', "["), ('\x7b', "\x7b")]

def closings : List (Char × String) := [(')', ")"), (']', "]"), ('\x7d', "\x7d")]

theorem Lexes.opening (bracket : (c, s) ∈ openings) (tail : Lexes (n + 1) rest ts) :
    Lexes n (c :: rest) (.symbol s :: ts) := by
  rcases bracket with _ | ⟨_, _ | ⟨_, _ | ⟨_, ⟨⟩⟩⟩⟩ <;>
    exact .token (next?_bracket (by decide) rest) tail

theorem Lexes.closing (bracket : (c, s) ∈ closings) (tail : Lexes n rest ts) :
    Lexes (n + 1) (c :: rest) (.symbol s :: ts) := by
  rcases bracket with _ | ⟨_, _ | ⟨_, _ | ⟨_, ⟨⟩⟩⟩⟩ <;>
    exact .token (next?_bracket (by decide) rest) tail

theorem Lexes.comma (tail : Lexes n rest ts) : Lexes n (',' :: rest) (.symbol "," :: ts) :=
  .token (next?_bracket (by decide) rest) tail

theorem Lexes.blanks (tail : Lexes n rest ts) (count : Nat) :
    Lexes n (List.replicate count ' ' ++ rest) ts := by
  induction count with
  | zero => exact tail
  | succ count ih => exact .blank ih

theorem Splits.bracketed (inner : Splits 1 cs ts) {o : Char} {l r : String}
    (opening : (o, l) ∈ openings) (closing : (c, r) ∈ closings) :
    Heads (o :: (cs ++ [c])) (.symbol l :: (ts ++ [.symbol r])) := by
  have all : ∀ pair ∈ closings, (isWordChar pair.1 = false ∧ isQuote pair.1 = false) ∧
      pair.1 ≠ '.' := by decide
  obtain ⟨other, point⟩ := all _ closing
  intro n rest more ends tail
  rw [List.cons_append, List.cons_append, List.append_assoc, List.append_assoc]
  apply Lexes.opening opening
  exact inner (n + 1) _ _ (by omega) (ends_cons other rest) (by simpa using point)
    (tail.closing closing)

theorem Splits.trailing (splits : Splits 0 cs ts) (least : Nat) :
    Splits least (cs ++ [',']) (ts ++ [.symbol ","]) := by
  intro n rest more _ _ _ tail
  rw [List.append_assoc, List.append_assoc]
  exact splits n _ _ (Nat.zero_le n) (ends_cons (by decide) _) (by simp) tail.comma

theorem splits_intercalate (split : List.Forall₂ (Splits 0) pieces tokens) :
    Splits 0 ([',', ' '].intercalate pieces) ([.symbol ","].intercalate tokens) := by
  induction split with
  | nil => exact .nil 0
  | @cons piece ts pieces tokens first others ih =>
    cases others with
    | nil =>
      rw [List.intercalate_singleton, List.intercalate_singleton]
      exact first
    | cons =>
      intro n rest more deep ends point tail
      rw [List.intercalate_cons_cons, List.intercalate_cons_cons]
      simp only [List.append_assoc, List.cons_append, List.nil_append]
      exact first n _ _ deep (ends_cons (by decide) _) (by simp)
        (.comma (.blank (ih n rest more deep ends point tail)))

theorem splits_lines (indent : Nat) (split : List.Forall₂ (Splits 0) pieces tokens) :
    Splits 1 (['\n'].intercalate
        (pieces.map fun piece => List.replicate indent ' ' ++ piece ++ [',']))
      (tokens.flatMap (· ++ [.symbol ","])) := by
  induction split with
  | nil => exact .nil 1
  | @cons piece ts pieces tokens first others ih =>
    have line {n : Nat} {rest : List Char} {more : List Token} (tail : Lexes n rest more) :
        Lexes n (List.replicate indent ' ' ++ piece ++ [','] ++ rest)
          (ts ++ [.symbol ","] ++ more) := by
      simp only [List.append_assoc, List.cons_append, List.nil_append]
      exact (first n _ _ (by omega) (ends_cons (by decide) _) (by simp) tail.comma).blanks indent
    cases others with
    | nil =>
      intro n rest more deep ends point tail
      rw [List.map_cons, List.map_nil, List.intercalate_singleton, List.flatMap_singleton]
      exact line tail
    | cons =>
      intro n rest more deep ends point tail
      obtain ⟨n, rfl⟩ : ∃ k, n = k + 1 := ⟨n - 1, by omega⟩
      have whole := line (.line (ih (n + 1) rest more deep ends point tail))
      rw [List.map_cons, List.map_cons, List.intercalate_cons_cons, List.flatMap_cons]
      simpa only [List.append_assoc, List.map_cons, List.cons_append, List.nil_append] using whole

theorem Splits.spread (lines : Splits 1 cs ts) (indent : Nat) :
    Splits 1 ('\n' :: (cs ++ '\n' :: List.replicate indent ' ')) ts := by
  intro n rest more deep _ _ tail
  obtain ⟨n, rfl⟩ : ∃ k, n = k + 1 := ⟨n - 1, by omega⟩
  rw [List.cons_append, List.append_assoc, List.cons_append]
  exact .line (lines (n + 1) _ _ deep (ends_cons (by decide) _) (by simp)
    (.line (tail.blanks indent)))

theorem Splits.entry {ds : List Char} (key : Splits 0 cs ts) (value : Splits 0 ds us) :
    Splits 0 (cs ++ ':' :: ' ' :: ds) (ts ++ .symbol ":" :: us) := by
  intro n rest more deep ends point tail
  have read : next? (':' :: ' ' :: (ds ++ rest)) = some (.symbol ":", ' ' :: (ds ++ rest)) := by
    refine next?_symbol (by decide) ?_ (fun same => by cases same)
    rw [long_starts]
    simp
  rw [List.append_assoc, List.append_assoc]
  exact key n _ _ deep (ends_cons (by decide) _) (by simp)
    (.token read (.blank (value n rest more deep ends point tail)))

theorem Splits.keyword {ds : List Char} (value : Splits 0 ds us) {key : String}
    (name : isName key = true) (shape : ds = d :: more) (other : d ≠ '=') :
    Splits 0 (key.toList ++ '=' :: ds) (.name key :: .symbol "=" :: us) := by
  intro n rest others deep ends point tail
  have read : next? ('=' :: (ds ++ rest)) = some (.symbol "=", ds ++ rest) := by
    rw [shape]
    refine next?_symbol (by decide) ?_ (fun same => by cases same)
    rw [long_starts]
    simp [other]
  rw [List.append_assoc]
  exact heads_name name n _ _ (ends_cons (by decide) _)
    (.token read (value n rest others deep ends point tail))

end IdlGen.Code
