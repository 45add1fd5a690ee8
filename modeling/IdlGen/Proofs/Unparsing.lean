import IdlGen.Proofs.Grammar
import IdlGen.Proofs.Lexing
import IdlGen.Proofs.Packages

/-!
Expressions are read back from their text, which has one parse: the expression as a term, however
far it is indented (`Expr.parses_lower_iff`).
-/
namespace IdlGen.Code

open Token

/-- A text is one of the spellings of a term: its tokens derive the term by the grammar. -/
def Parses (text : String) (t : Term) : Prop := ∃ ts, Lexes 0 text.toList ts ∧ Derives ts t

variable {text : String} {t : Term} {cs more : List Char} {α : Type}

theorem Parses.unique {t' : Term} (first : Parses text t) (second : Parses text t') : t = t' := by
  obtain ⟨ts, lexes, derives⟩ := first
  obtain ⟨us, lexes', derives'⟩ := second
  rw [lexes.unique lexes'] at derives
  exact derives.unique derives'

def Starts (cs : List Char) : Prop := ∃ c more, cs = c :: more ∧ c ≠ '='

def ReadsAs (cs : List Char) (t : Term) : Prop := ∃ ts, Splits 0 cs ts ∧ Derives ts t ∧ Starts cs

def HeadsAs (cs : List Char) (t : Term) : Prop := ∃ ts, Heads cs ts ∧ Primary ts t ∧ Starts cs

theorem HeadsAs.readsAs (heads : HeadsAs cs t) : ReadsAs cs t := by
  obtain ⟨ts, splits, derived, starts⟩ := heads
  exact ⟨ts, splits.splits 0, .primary derived, starts⟩

theorem ReadsAs.parses (reads : ReadsAs text.toList t) : Parses text t := by
  obtain ⟨ts, splits, derived, -⟩ := reads
  have lexes := splits 0 [] [] (Nat.le_refl 0) (by rintro c ⟨⟩) (by simp) .done
  rw [List.append_nil, List.append_nil] at lexes
  exact ⟨ts, lexes, derived⟩

def Stands (numeral : Bool) (cs : List Char) (t : Term) : Prop :=
  ReadsAs cs t ∧ (numeral = false → HeadsAs cs t)

theorem HeadsAs.stands (heads : HeadsAs cs t) (numeral : Bool) : Stands numeral cs t :=
  ⟨heads.readsAs, fun _ => heads⟩

def isPath (s : String) : Bool := (Text.split '.' s).all isName

theorem starts_of_isName {s : String} (name : isName s = true) : Starts s.toList := by
  obtain ⟨c, more, shape, -, chars⟩ := chars_of_isName name
  refine ⟨c, more, shape, ?_⟩
  rintro rfl
  cases chars '=' (shape ▸ List.mem_cons_self ..)

theorem headsAs_name {id : String} (name : isName id = true) : HeadsAs id.toList (.name id) :=
  ⟨_, heads_name name, .name id, starts_of_isName name⟩

theorem HeadsAs.attr (heads : HeadsAs cs t) {a : String} (name : isName a = true) :
    HeadsAs (cs ++ '.' :: a.toList) (.attr t a) := by
  obtain ⟨ts, splits, derived, c, more, rfl, other⟩ := heads
  exact ⟨_, splits.attr name, .attr a derived, c, _, rfl, other⟩

theorem intercalate_cons (sep : α) (first : List α) (rest : List (List α)) :
    [sep].intercalate (first :: rest) = first ++ rest.flatMap (sep :: ·) := by
  induction rest generalizing first with
  | nil => simp
  | cons second rest ih =>
    rw [List.intercalate_cons_cons, ih, List.flatMap_cons]
    simp

theorem headsAs_path {path : String} (named : isPath path = true) {first : String}
    {rest : List String} (segments : Text.split '.' path = first :: rest) :
    HeadsAs path.toList (.dotted first rest) := by
  have names : ∀ s ∈ first :: rest, isName s = true := by
    rw [← segments]
    exact List.all_eq_true.mp named
  have whole : path.toList = first.toList ++ (rest.map String.toList).flatMap ('.' :: ·) := by
    rw [← intercalate_cons, ← List.map_cons, ← segments, Text.split, List.map_map]
    simp [Function.comp_def, Text.intercalate_splitAt]
  have chain : ∀ (rest : List String) (cs : List Char) (t : Term), HeadsAs cs t →
      (∀ s ∈ rest, isName s = true) →
      HeadsAs (cs ++ (rest.map String.toList).flatMap ('.' :: ·)) (rest.foldl .attr t) := by
    intro rest
    induction rest with
    | nil =>
      intro cs t heads _
      simpa using heads
    | cons s rest ih =>
      intro cs t heads names
      have step := ih _ _ (heads.attr (names s (List.mem_cons_self ..)))
        fun u member => names u (List.mem_cons_of_mem _ member)
      simpa using step
  rw [whole]
  exact chain rest _ _ (headsAs_name (names first (List.mem_cons_self ..)))
    fun s member => names s (List.mem_cons_of_mem _ member)

/-! ### Displays and calls -/

def ReadsAsArguments (cs : List Char) (args : List Term) (kwargs : List (String × Term)) : Prop :=
  ∃ us, Splits 1 cs us ∧ Arguments us args kwargs

theorem HeadsAs.call {ds : List Char} {args : List Term} {kwargs : List (String × Term)}
    (heads : HeadsAs cs t) (arguments : ReadsAsArguments ds args kwargs) :
    HeadsAs (cs ++ '(' :: (ds ++ [')'])) (.call t args kwargs) := by
  obtain ⟨ts, splits, derived, c, more, rfl, other⟩ := heads
  obtain ⟨us, inner, given⟩ := arguments
  have brackets := inner.bracketed (o := '(') (c := ')') (l := "(") (r := ")")
    (by decide) (by decide)
  refine ⟨_, ?_, .call derived given, c, _, rfl, other⟩
  intro n rest others ends tail
  rw [List.append_assoc, List.append_assoc]
  exact splits n _ _ (ends_cons (by decide) _) (brackets n rest others ends tail)

def IsEntry (ts : List Token) (entry : Term × Term) : Prop :=
  ∃ ks vs, ts = ks ++ .symbol ":" :: vs ∧ Derives ks entry.1 ∧ Derives vs entry.2

def IsKeyword (ts : List Token) (arg : String × Term) : Prop :=
  ∃ vs, ts = .name arg.1 :: .symbol "=" :: vs ∧ Derives vs arg.2

def AllRead {α : Type} (Stand : List Token → α → Prop) (texts : List String) (parts : List α) :
    Prop :=
  ∃ tokens, List.Forall₂ (Splits 0) (texts.map String.toList) tokens ∧
    List.Forall₂ Stand tokens parts

variable {Stand : List Token → α → Prop}

theorem AllRead.nil : AllRead Stand [] [] :=
  ⟨[], .nil, .nil⟩

theorem AllRead.cons {ts : List Token} {part : α} {texts : List String} {parts : List α}
    (splits : Splits 0 text.toList ts) (stands : Stand ts part)
    (others : AllRead Stand texts parts) : AllRead Stand (text :: texts) (part :: parts) := by
  obtain ⟨tokens, allSplit, allStand⟩ := others
  exact ⟨ts :: tokens, .cons splits allSplit, .cons stands allStand⟩

section Displays

variable {texts : List String} {tokens others : List (List Token)} {terms : List Term}
  {entries : List (Term × Term)} {kwargs : List (String × Term)}

theorem items_intercalate (derives : List.Forall₂ Derives tokens terms) :
    Items ([.symbol ","].intercalate tokens) terms := by
  induction derives with
  | nil => exact .none
  | cons first others ih =>
    cases others with
    | nil =>
      rw [List.intercalate_singleton]
      exact .last first
    | cons =>
      rw [List.intercalate_cons_cons, List.append_assoc]
      exact .more first ih

theorem entries_intercalate (derives : List.Forall₂ IsEntry tokens entries) :
    Entries ([.symbol ","].intercalate tokens) entries := by
  induction derives with
  | nil => exact .none
  | cons first others ih =>
    obtain ⟨ks, vs, rfl, key, value⟩ := first
    cases others with
    | nil =>
      rw [List.intercalate_singleton]
      exact .last key value
    | cons =>
      rw [List.intercalate_cons_cons, List.append_assoc, List.append_assoc]
      exact .more key value ih

theorem arguments_intercalate (positional : List.Forall₂ Derives tokens terms)
    (named : List.Forall₂ IsKeyword others kwargs) :
    Arguments ([.symbol ","].intercalate (tokens ++ others)) terms kwargs := by
  induction positional with
  | nil =>
    induction named with
    | nil => exact .none
    | cons first more ih =>
      obtain ⟨vs, rfl, value⟩ := first
      cases more with
      | nil =>
        rw [List.nil_append, List.intercalate_singleton]
        exact .lastKeyword _ value
      | cons =>
        rw [List.nil_append, List.intercalate_cons_cons, List.append_assoc]
        exact .moreKeywords _ value ih
  | @cons ts t tokens terms first more ih =>
    cases rest : tokens ++ others with
    | nil =>
      obtain ⟨rfl, rfl⟩ := List.append_eq_nil_iff.mp rest
      cases more
      cases named
      rw [List.append_nil, List.intercalate_singleton]
      exact .last first
    | cons =>
      rw [rest] at ih
      rw [List.cons_append, rest, List.intercalate_cons_cons, List.append_assoc]
      exact .more first ih

theorem arguments_lines (positional : List.Forall₂ Derives tokens terms)
    (named : List.Forall₂ IsKeyword others kwargs) :
    Arguments ((tokens ++ others).flatMap (· ++ [.symbol ","])) terms kwargs := by
  induction positional with
  | nil =>
    induction named with
    | nil => exact .none
    | cons first more ih =>
      obtain ⟨vs, rfl, value⟩ := first
      rw [List.nil_append, List.flatMap_cons, List.append_assoc]
      exact .moreKeywords _ value ih
  | cons first more ih =>
    rw [List.cons_append, List.flatMap_cons, List.append_assoc]
    exact .more first ih

theorem headsAs_list (read : AllRead Derives texts terms) :
    HeadsAs (Value.bracketed "[" "]" texts).toList (.list terms) := by
  obtain ⟨tokens, splits, derives⟩ := read
  have text : (Value.bracketed "[" "]" texts).toList =
      '[' :: ([',', ' '].intercalate (texts.map String.toList) ++ [']']) := by
    simp [Value.bracketed]
  rw [text]
  exact ⟨_, ((splits_intercalate splits).mono (by decide)).bracketed (by decide) (by decide),
    .list (items_intercalate derives), '[', _, rfl, by decide⟩

theorem toList_braced (texts : List String) : (Value.bracketed "\x7b" "\x7d" texts).toList =
    '\x7b' :: ([',', ' '].intercalate (texts.map String.toList) ++ ['\x7d']) := by
  simp [Value.bracketed]

theorem headsAs_set (read : AllRead Derives texts terms) (nonempty : terms ≠ []) :
    HeadsAs (Value.bracketed "\x7b" "\x7d" texts).toList (.set terms) := by
  obtain ⟨tokens, splits, derives⟩ := read
  rw [toList_braced]
  exact ⟨_, ((splits_intercalate splits).mono (by decide)).bracketed (by decide) (by decide),
    .set (items_intercalate derives) nonempty, '\x7b', _, rfl, by decide⟩

theorem headsAs_dict (read : AllRead IsEntry texts entries) :
    HeadsAs (Value.bracketed "\x7b" "\x7d" texts).toList (.dict entries) := by
  obtain ⟨tokens, splits, derives⟩ := read
  rw [toList_braced]
  exact ⟨_, ((splits_intercalate splits).mono (by decide)).bracketed (by decide) (by decide),
    .dict (entries_intercalate derives), '\x7b', _, rfl, by decide⟩

theorem headsAs_tuple (read : AllRead Derives texts terms) :
    HeadsAs (Value.tupleText texts).toList (.tuple terms) := by
  obtain ⟨tokens, splits, derives⟩ := read
  cases texts with
  | nil =>
    cases splits
    cases derives
    exact ⟨_, (Splits.nil 1).bracketed (by decide) (by decide), .unit, '(', _, rfl, by decide⟩
  | cons text texts =>
    cases splits with
    | @cons _ ts _ tokens first more =>
    cases derives with
    | @cons _ t _ terms derived others =>
    cases texts with
    | nil =>
      cases more
      cases others
      have single : (Value.tupleText [text]).toList = '(' :: ((text.toList ++ [',']) ++ [')']) := by
        simp [Value.tupleText]
      have shape :
          Primary (.symbol "(" :: ((ts ++ [.symbol ","]) ++ [.symbol ")"])) (.tuple [t]) := by
        rw [List.append_assoc]
        exact .tuple derived .none
      rw [single]
      exact ⟨_, (first.trailing 1).bracketed (by decide) (by decide), shape, '(', _, rfl,
        by decide⟩
    | cons second texts =>
      have several : (Value.tupleText (text :: second :: texts)).toList =
          '(' :: ([',', ' '].intercalate ((text :: second :: texts).map String.toList) ++
            [')']) := by
        simp [Value.tupleText, Value.bracketed]
      have shape : Primary (.symbol "(" ::
          ([.symbol ","].intercalate (ts :: tokens) ++ [.symbol ")"])) (.tuple (t :: terms)) := by
        cases more
        rw [List.intercalate_cons_cons, List.append_assoc, List.append_assoc]
        exact .tuple derived (items_intercalate others)
      rw [several]
      exact ⟨_, ((splits_intercalate (.cons first more)).mono (by decide)).bracketed (by decide)
        (by decide), shape, '(', _, rfl, by decide⟩

theorem headsAs_callText {func : String} (heads : HeadsAs func.toList t)
    (positional : AllRead Derives texts terms) {more : List String}
    (named : AllRead IsKeyword more kwargs) (spread : Bool) (level : Int) :
    HeadsAs (Expr.callText spread level func (texts ++ more)).toList (.call t terms kwargs) := by
  obtain ⟨tokens, splits, derives⟩ := positional
  obtain ⟨others, keywordSplits, keywords⟩ := named
  have all : List.Forall₂ (Splits 0) ((texts ++ more).map String.toList) (tokens ++ others) := by
    rw [List.map_append]
    exact List.rel_append splits keywordSplits
  cases spread with
  | false =>
    have text : (Expr.callText false level func (texts ++ more)).toList = func.toList ++
        '(' :: ([',', ' '].intercalate ((texts ++ more).map String.toList) ++ [')']) := by
      simp [Expr.callText, Value.bracketed]
    rw [text]
    exact heads.call ⟨_, (splits_intercalate all).mono (by decide),
      arguments_intercalate derives keywords⟩
  | true =>
    have text : (Expr.callText true level func (texts ++ more)).toList = func.toList ++
        '(' :: ('\n' :: (['\n'].intercalate (((texts ++ more).map String.toList).map fun piece =>
            List.replicate (4 * (level + 1).toNat) ' ' ++ piece ++ [',']) ++
          '\n' :: List.replicate (4 * level.toNat) ' ') ++ [')']) := by
      simp [Expr.callText, Expr.indentation, Function.comp_def]
    rw [text]
    exact heads.call ⟨_, (splits_lines _ all).spread _, arguments_lines derives keywords⟩

end Displays

theorem readsAs_number {cs more : List Char} {d : Char} {value : Value} (shape : cs = d :: more)
    (digit : d.isDigit = true) (read : ∀ rest, Ends rest → rest.head? ≠ some '.' →
      numberOf (cs ++ rest) = some (value, rest)) : ReadsAs cs (.literal value) := by
  refine ⟨_, splits_number shape digit read, .primary (.number value), d, more, shape, ?_⟩
  rintro rfl
  cases digit

theorem readsAs_negative {cs more : List Char} {d : Char} {value : Value} {t : Term}
    (shape : cs = d :: more) (digit : d.isDigit = true)
    (read : ∀ rest, Ends rest → rest.head? ≠ some '.' →
      numberOf (cs ++ rest) = some (value, rest))
    (derived : Derives [.symbol "-", .number value] t) : ReadsAs ('-' :: cs) t :=
  ⟨_, (splits_number shape digit read).negative shape digit, derived, '-', cs, rfl, by decide⟩

theorem readsAs_integerText {n : Int}
    (short : (Nat.toDigits 10 n.natAbs).length ≤ maxIntegerDigits) :
    ReadsAs (integerText n).toList (.literal (.int n)) := by
  obtain ⟨d, more, shape⟩ :=
    List.exists_cons_of_ne_nil (Nat.toDigits_ne_nil (n := n.natAbs) (b := 10))
  have digit : d.isDigit = true :=
    Nat.isDigit_of_mem_toDigits (by decide) (by decide) (shape ▸ List.mem_cons_self ..)
  by_cases negative : n < 0
  · have value : -(n.natAbs : Int) = n := by omega
    have derived := Derives.negativeInt n.natAbs
    rw [value] at derived
    have text : (integerText n).toList = '-' :: Nat.toDigits 10 n.natAbs := by
      simp [integerText, negative]
    rw [text]
    exact readsAs_negative shape digit (fun _ ends point => numberOf_digits ends point short)
      derived
  · have value : (n.natAbs : Int) = n := by omega
    have whole := readsAs_number shape digit fun _ ends point => numberOf_digits ends point short
    rw [value] at whole
    rw [integerText, if_neg negative, String.toList_ofList]
    exact whole

theorem readsAs_binary64 {m : Nat} {e : Int} (normal : Binary64.IsNormal m e) (negative : Bool) :
    ReadsAs (Binary64.finite negative m e).text.toList
      (.literal (.float (.finite negative m e))) := by
  obtain ⟨⟨d, more, shape, digit⟩, read⟩ := numberOf_text normal
  cases negative with
  | false => exact readsAs_number shape digit fun rest ends _ => read rest ends
  | true =>
    have text : (Binary64.finite true m e).text.toList =
        '-' :: (Binary64.finite false m e).text.toList := by
      unfold Binary64.text
      by_cases zero : m = 0 <;> simp [zero]
    rw [text]
    exact readsAs_negative shape digit (fun rest ends _ => read rest ends)
      (.negativeFloat (.finite false m e))

theorem headsAs_quoted (s : String) : HeadsAs (Text.quoted s).toList (.literal (.text s)) := by
  refine ⟨_, heads_quoted s, .text s, _, _, String.toList_ofList, fun same => ?_⟩
  have quotes := Token.isQuote_quoteFor s.toList
  rw [same] at quotes
  cases quotes

theorem headsAs_quotedBytes (data : List UInt8) :
    HeadsAs (Text.quotedBytes data).toList (.literal (.bytes data)) :=
  ⟨_, heads_quotedBytes data, .bytes data, 'b', _, String.toList_ofList, by decide⟩

theorem headsAs_conversion {s : String} (inner : ∀ c ∈ s.toList, IsInner '"' c) :
    HeadsAs ("float(\"" ++ s ++ "\")").toList
      (.call (.name "float") [.literal (.text s)] []) := by
  have text : ("float(\"" ++ s ++ "\")").toList =
      "float".toList ++ '(' :: ('"' :: (s.toList ++ ['"']) ++ [')']) := by
    simp
  rw [text]
  exact (headsAs_name (by decide +kernel)).call
    ⟨_, (heads_plain inner).splits 1, .last (.primary (.text s))⟩

end Code

open Code

def Value.isNumeral : Value → Bool
  | .int _ => true
  | .float x => x.isFinite
  | _ => false

/-- Whether a value has a literal. An integer with more digits has no text, and a finite number
    has double precision if it is in normal form. -/
def Value.hasLiteral : Value → Bool
  | .int n => decide ((Nat.toDigits 10 n.natAbs).length ≤ maxIntegerDigits)
  | .float (.finite _ m e) => decide (Binary64.IsNormal m e)
  | v => Expr.isScalar v

theorem Value.stands_literal {v : Value} (has : v.hasLiteral = true) :
    Stands v.isNumeral (Expr.literalText v).toList v.scalarTerm := by
  have word {w : String} {value : Value} (reserved : w ∈ ["None", "True", "False"])
      (known : Parser.wordValue? w = some value) (starts : Starts w.toList) :
      HeadsAs w.toList (.literal value) :=
    ⟨_, heads_word reserved, .word known, starts⟩
  cases v with
  | null => exact (word (by decide) rfl ⟨'N', _, rfl, by decide⟩).stands _
  | bool b =>
    cases b with
    | false => exact (word (by decide) rfl ⟨'F', _, rfl, by decide⟩).stands _
    | true => exact (word (by decide) rfl ⟨'T', _, rfl, by decide⟩).stands _
  | int n => exact ⟨readsAs_integerText (of_decide_eq_true has), by rintro ⟨⟩⟩
  | float x =>
    cases x with
    | finite negative m e => exact ⟨readsAs_binary64 (of_decide_eq_true has) negative, by rintro ⟨⟩⟩
    | nan => exact (headsAs_conversion (List.all_iff_forall_prop.mp (by decide))).stands _
    | infinity negative =>
      cases negative <;>
        exact (headsAs_conversion (List.all_iff_forall_prop.mp (by decide))).stands _
  | text s => exact (headsAs_quoted s).stands _
  | bytes data => exact (headsAs_quotedBytes data).stands _
  | _ => cases has

/-- Whether the module, the attribute and the alias of a reference are dotted names. -/
def Ref.isProper (r : Ref) : Bool := isPath r.module && isPath r.attr && r.shortName?.all isPath

def Ref.segments (home : Option String) (r : Ref) : List String :=
  (if home = some r.module then [] else Text.split '.' (r.shortName?.getD r.module)) ++
    Text.split '.' r.attr

theorem Ref.split_lower (home : Option String) (r : Ref) :
    Text.split '.' (r.lower home) = r.segments home := by
  unfold lower segments
  split
  · rfl
  · have chars : (r.shortName?.getD r.module ++ "." ++ r.attr).toList =
        (r.shortName?.getD r.module).toList ++ '.' :: r.attr.toList := by simp
    rw [Text.split, chars, Text.splitAt_append_sep, List.map_append]
    rfl

theorem Ref.segments_ne_nil (home : Option String) (r : Ref) : r.segments home ≠ [] := by
  rw [← split_lower]
  exact mt List.map_eq_nil_iff.mp (Text.splitAt_ne_nil '.' _)

variable {r : Ref}

theorem Ref.term_eq_dotted {home : String} {first : String} {rest : List String}
    (names : r.segments (some home) = first :: rest) : r.term home = .dotted first rest := by
  rw [term, split_lower, names]

theorem Ref.isPath_lower (proper : r.isProper = true) (home : Option String) :
    isPath (r.lower home) = true := by
  obtain ⟨⟨module, attr⟩, short⟩ := by simpa only [isProper, Bool.and_eq_true] using proper
  rw [isPath, split_lower, segments, List.all_append, Bool.and_eq_true]
  refine ⟨?_, attr⟩
  split
  · rfl
  · cases known : r.shortName? with
    | none => exact module
    | some name =>
      rw [known] at short
      exact short

theorem Ref.segments_getD (proper : r.isProper = true) (home : Option String) :
    r.segments (some (home.getD "")) = r.segments home := by
  cases home with
  | some home => rfl
  | none =>
    have named : some "" ≠ some r.module := by
      intro same
      rw [isProper, ← Option.some.inj same] at proper
      cases proper
    rw [segments, segments, Option.getD_none, if_neg named, if_neg (by simp)]

theorem Ref.headsAs_lower (proper : r.isProper = true) (home : Option String) :
    HeadsAs (r.lower home).toList (r.term (home.getD "")) := by
  obtain ⟨first, rest, names⟩ := List.exists_cons_of_ne_nil (r.segments_ne_nil home)
  rw [term_eq_dotted ((segments_getD proper home).trans names)]
  exact headsAs_path (isPath_lower proper home) ((r.split_lower home).trans names)

namespace Expr

def isNumeral : Expr → Bool
  | literal v => v.isNumeral
  | _ => false

/-- Whether the names of a node are names, and no attribute is taken of a number and no number
    called. -/
def isProperNode : Expr → Bool
  | blank => false
  | name id => isName id
  | ref r => r.isProper
  | attr value a => !value.isNumeral && isName a
  | literal v => v.hasLiteral
  | call func _ kwargs => !func.isNumeral && kwargs.all fun arg => isName arg.1
  | letAll _ bindings => bindings.all fun binding => isName binding.1
  | rebuild _ fields => fields.all fun field => isName field.1
  | _ => true

def isProper (e : Expr) : Bool := e.nodes.all isProperNode

section
variable (home : Option String)

mutual

theorem stands_lower (level : Int) (e : Expr) (proper : e.nodes.all isProperNode = true) :
    Stands e.isNumeral (e.lower home level).toList (e.term (home.getD "")) := by
  cases e with
  | blank => cases proper
  | name id =>
    rw [nodes, List.all_cons, Bool.and_eq_true] at proper
    exact (headsAs_name proper.1).stands _
  | ref r =>
    rw [nodes, List.all_cons, Bool.and_eq_true] at proper
    exact (r.headsAs_lower proper.1 home).stands _
  | attr value a =>
    simp only [nodes, List.all_cons, isProperNode, Bool.and_eq_true, Bool.not_eq_true'] at proper
    obtain ⟨⟨head, named⟩, inner⟩ := proper
    have text : (lower home level value ++ "." ++ a).toList =
        (lower home level value).toList ++ '.' :: a.toList := by simp
    rw [lower, text]
    exact (((stands_lower level value inner).2 head).attr named).stands _
  | literal v =>
    rw [nodes, List.all_cons, Bool.and_eq_true] at proper
    exact v.stands_literal proper.1
  | list items =>
    rw [nodes, List.all_cons, Bool.and_eq_true] at proper
    exact (headsAs_list (allRead_lowerAll level items proper.2)).stands _
  | tuple items =>
    rw [nodes, List.all_cons, Bool.and_eq_true] at proper
    exact (headsAs_tuple (allRead_lowerAll level items proper.2)).stands _
  | set items =>
    rw [nodes, List.all_cons, Bool.and_eq_true] at proper
    cases items with
    | nil =>
      have named : isName "set" = true := by decide +kernel
      have text : (lower home level (set [])).toList = "set".toList ++ '(' :: ([] ++ [')']) := by
        simp [lower]
      rw [text]
      exact ((headsAs_name named).call ⟨[], .nil 1, .none⟩).stands _
    | cons e rest =>
      exact (headsAs_set (allRead_lowerAll level (e :: rest) proper.2)
        (List.cons_ne_nil _ _)).stands _
  | dict entries =>
    rw [nodes, List.all_cons, Bool.and_eq_true] at proper
    exact (headsAs_dict (allRead_lowerEntries level entries proper.2)).stands _
  | call func args kwargs =>
    simp only [nodes, List.all_cons, List.all_append, isProperNode, Bool.and_eq_true,
      Bool.not_eq_true'] at proper
    obtain ⟨⟨head, named⟩, ⟨first, second⟩, third⟩ := proper
    exact (headsAs_callText ((stands_lower level func first).2 head)
      (allRead_lowerAll _ args second)
      (allRead_lowerKeywords _ kwargs named third) _ level).stands _
  -- the last two forms are the calls that they stand for, each of a reference
  | letAll constructor bindings =>
    simp only [nodes, List.all_cons, List.all_append, isProperNode, Bool.and_eq_true] at proper
    obtain ⟨named, builds, first, second⟩ := proper
    obtain ⟨ts, splits, derived, -⟩ :=
      (stands_lower (argumentLevel bindings level) constructor first).1
    exact (headsAs_callText (Ref.headsAs_lower builds home) (.cons splits derived .nil)
      (allRead_lowerKeywords _ bindings named second) _ level).stands _
  | rebuild target fields =>
    simp only [nodes, List.all_cons, List.all_append, isProperNode, Bool.and_eq_true] at proper
    obtain ⟨named, replaces, first, second⟩ := proper
    obtain ⟨ts, splits, derived, -⟩ := (stands_lower (argumentLevel fields level) target first).1
    exact (headsAs_callText (Ref.headsAs_lower replaces home) (.cons splits derived .nil)
      (allRead_lowerKeywords _ fields named second) _ level).stands _

theorem allRead_lowerAll (level : Int) (items : List Expr)
    (proper : (nodesOfAll items).all isProperNode = true) :
    AllRead Derives (lowerAll home level items) (termAll (home.getD "") items) := by
  cases items with
  | nil => exact .nil
  | cons e rest =>
    rw [nodesOfAll, List.all_append, Bool.and_eq_true] at proper
    obtain ⟨ts, splits, derived, -⟩ := (stands_lower level e proper.1).1
    exact .cons splits derived (allRead_lowerAll level rest proper.2)

theorem allRead_lowerEntries (level : Int) (entries : List (Expr × Expr))
    (proper : (nodesOfEntries entries).all isProperNode = true) :
    AllRead IsEntry (lowerEntries home level entries) (termEntries (home.getD "") entries) := by
  cases entries with
  | nil => exact .nil
  | cons entry rest =>
    obtain ⟨k, v⟩ := entry
    simp only [nodesOfEntries, List.all_append, Bool.and_eq_true] at proper
    obtain ⟨ks, key, derivedKey, -⟩ := (stands_lower level k proper.1.1).1
    obtain ⟨vs, value, derivedValue, -⟩ := (stands_lower level v proper.1.2).1
    refine .cons ?_ ⟨ks, vs, rfl, derivedKey, derivedValue⟩
      (allRead_lowerEntries level rest proper.2)
    simpa using key.entry value

theorem allRead_lowerKeywords (level : Int) (kwargs : List (String × Expr))
    (named : (kwargs.all fun arg => isName arg.1) = true)
    (proper : (nodesOfKeywords kwargs).all isProperNode = true) :
    AllRead IsKeyword (lowerKeywords home level kwargs) (termKeywords (home.getD "") kwargs) := by
  cases kwargs with
  | nil => exact .nil
  | cons arg rest =>
    obtain ⟨key, e⟩ := arg
    rw [List.all_cons, Bool.and_eq_true] at named
    rw [nodesOfKeywords, List.all_append, Bool.and_eq_true] at proper
    obtain ⟨vs, value, derived, c, more, shape, other⟩ := (stands_lower level e proper.1).1
    refine .cons ?_ ⟨vs, rfl, derived⟩ (allRead_lowerKeywords level rest named.2 proper.2)
    simpa using value.keyword named.1 shape other

end

end

/-- The text of a proper expression has one parse, the expression as a term. It is the same
    at every indentation. -/
theorem parses_lower_iff {e : Expr} (proper : e.isProper = true) (home : Option String)
    (level : Int) (t : Term) :
    Parses (e.lower home level) t ↔ t = e.term (home.getD "") := by
  have parse := (stands_lower home level e proper).1.parses
  constructor
  · exact fun other => other.unique parse
  · rintro rfl
    exact parse

theorem parses_replace_call :
    (rebuild (name "point") [("x", literal (.int (-1))), ("tags", set [])]).isProper = true ∧
      Parses "dataclasses.replace(\n    point,\n    x=-1,\n    tags=set(),\n)"
        (.call (.attr (.name "dataclasses") "replace") [.name "point"]
          [("x", .literal (.int (-1))), ("tags", .call (.name "set") [] [])]) := by
  have proper : (rebuild (name "point")
      [("x", literal (.int (-1))), ("tags", set [])]).isProper = true := by decide +kernel
  have text : (rebuild (name "point") [("x", literal (.int (-1))), ("tags", set [])]).lower none 0 =
      "dataclasses.replace(\n    point,\n    x=-1,\n    tags=set(),\n)" := by decide +kernel
  rw [← text]
  exact ⟨proper, (parses_lower_iff proper none 0 _).mpr rfl⟩

end Expr

end IdlGen
